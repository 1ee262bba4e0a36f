import Mathlib.Data.List.AList
import Mathlib.Logic.Function.Basic
import Mesty.Concurrency.Program

namespace Mesty.Redis.SortedSets

open Mesty.Concurrency.Program

/-- The scores of the members, with the time in milliseconds at which the key vanishes. -/
structure SortedSet where
  scores : AList (fun _ : String => Nat)
  expiry : Option Nat

namespace SortedSet

def live (now : Nat) (z : SortedSet) : Bool := z.expiry.all (now < ·)

def outside (min max : Int) (score : Nat) : Bool := !(min ≤ (score : Int) && (score : Int) ≤ max)

def removeRangeByScore (min max : Int) (z : SortedSet) : SortedSet where
  scores :=
    ⟨z.scores.entries.filter (fun e => outside min max e.2),
      z.scores.nodupKeys.sublist List.filter_sublist⟩
  expiry := z.expiry

def card (z : SortedSet) : Nat := z.scores.entries.length

/-- The member gets the score, whether it has one or not. -/
def add (score : Nat) (member : String) (z : SortedSet) : SortedSet :=
  ⟨z.scores.insert member score, z.expiry⟩

variable {z : SortedSet} {min max : Int} {score : Nat} {member : String}

theorem lookup_removeRangeByScore :
    (z.removeRangeByScore min max).scores.lookup member = some score ↔
      z.scores.lookup member = some score ∧ outside min max score := by
  have hentry : ∀ s : AList (fun _ : String => Nat), s.lookup member = some score ↔
      ⟨member, score⟩ ∈ s.entries := fun s => AList.mem_lookup_iff
  rw [hentry, hentry]
  exact List.mem_filter

theorem card_eq_length_keys (z : SortedSet) : z.card = z.scores.keys.length :=
  (List.length_map Sigma.fst).symm

theorem mem_keys_iff : member ∈ z.scores.keys ↔ ∃ score, z.scores.lookup member = some score := by
  rw [← AList.mem_keys, ← AList.lookup_isSome, Option.isSome_iff_exists]

end SortedSet

structure Store where
  now : Nat
  sets : String → Option SortedSet

inductive SortedSetCmd where
  | zremrangebyscore (key : String) (min max : Int)
  | zcard (key : String)
  | zadd (key : String) (score : Nat) (member : String)
  | expire (key : String) (seconds : Nat)

abbrev SortedSetCmd.Ans : SortedSetCmd → Type := fun _ => Nat

def SortedSetCmd.key : SortedSetCmd → String
  | zremrangebyscore key _ _ | zcard key | zadd key _ _ | expire key _ => key

namespace Store

variable {s : Store} {k k' : String} {z : Option SortedSet}

def empty (now : Nat) : Store := ⟨now, fun _ => none⟩

def lookup (s : Store) (k : String) : Option SortedSet := (s.sets k).filter (SortedSet.live s.now)

/-- A set without members is no key. -/
def put (s : Store) (k : String) (z : Option SortedSet) : Store :=
  { s with sets := Function.update s.sets k (z.filter (fun z => z.card ≠ 0)) }

def wait (s : Store) (ms : Nat) : Store := { s with now := s.now + ms }

def exec : (c : SortedSetCmd) → Store → c.Ans × Store
  | .zremrangebyscore k min max, s =>
    match s.lookup k with
    | none => (0, s)
    | some z =>
      let left := z.removeRangeByScore min max
      (z.card - left.card, s.put k (some left))
  | .zcard k, s => (((s.lookup k).map SortedSet.card).getD 0, s)
  | .zadd k score member, s =>
    let z := (s.lookup k).getD ⟨∅, none⟩
    (if member ∈ z.scores then 0 else 1, s.put k (some (z.add score member)))
  | .expire k seconds, s =>
    match s.lookup k with
    | none => (0, s)
    | some z =>
      if seconds = 0 then (1, s.put k none)
      else (1, s.put k (some { z with expiry := some (s.now + seconds * 1000) }))

@[simp] theorem put_now : (s.put k z).now = s.now := rfl

@[simp] theorem wait_now (ms : Nat) : (s.wait ms).now = s.now + ms := rfl

theorem sets_put_self : (s.put k z).sets k = z.filter (fun z => z.card ≠ 0) :=
  Function.update_self k _ _

theorem sets_put_of_ne (h : k ≠ k') : (s.put k' z).sets k = s.sets k := Function.update_of_ne h _ _

variable {c : SortedSetCmd}

theorem exec_now (c : SortedSetCmd) (s : Store) : (exec c s).2.now = s.now := by
  cases c <;> simp only [exec] <;> repeat' split
  all_goals rfl

theorem exec_sets (h : k ≠ c.key) (s : Store) : (exec c s).2.sets k = s.sets k := by
  cases c with
  | zcard => rfl
  | zadd k' score member => exact sets_put_of_ne h
  | zremrangebyscore k' min max =>
    simp only [exec]
    split
    · rfl
    · exact sets_put_of_ne h
  | expire k' seconds =>
    simp only [exec]
    split
    · rfl
    · split
      · exact sets_put_of_ne h
      · exact sets_put_of_ne h

section Programs

variable {α : Type} {p : Prog SortedSetCmd SortedSetCmd.Ans α}

theorem result_now (p : Prog SortedSetCmd SortedSetCmd.Ans α) (s : Store) :
    (p.result exec s).2.now = s.now := by
  induction p generalizing s with
  | ret a => rfl
  | call c f ih => exact (ih _ _).trans (exec_now c s)

theorem result_sets (hp : p.Issues (fun c => k ≠ c.key)) (s : Store) :
    (p.result exec s).2.sets k = s.sets k := by
  induction p generalizing s with
  | ret a => rfl
  | call c f ih => exact (ih _ (hp.2 _) _).trans (exec_sets hp.1 s)

theorem result_lookup (hp : p.Issues (fun c => k ≠ c.key)) (s : Store) :
    (p.result exec s).2.lookup k = s.lookup k := by
  rw [lookup, lookup, result_sets hp, result_now]

end Programs

section Lookup

theorem lookup_eq_some_iff {z : SortedSet} :
    s.lookup k = some z ↔ s.sets k = some z ∧ z.live s.now :=
  Option.filter_eq_some_iff

/-- Time only takes keys away. -/
theorem lookup_wait (s : Store) (ms : Nat) (k : String) :
    (s.wait ms).lookup k = (s.lookup k).filter (SortedSet.live (s.now + ms)) := by
  rw [lookup, lookup, Option.filter_filter, wait_now]
  refine congrArg (fun p => (s.sets k).filter p) (funext fun z => ?_)
  obtain ⟨scores, none | expiry⟩ := z
  · rfl
  · simp only [SortedSet.live, Option.all_some]
    grind

theorem lookup_put_self : (s.put k z).lookup k =
    (z.filter (fun z => z.card ≠ 0)).filter (SortedSet.live s.now) := by
  rw [lookup, sets_put_self, put_now]

theorem lookup_put_live {z : SortedSet} (hcard : z.card ≠ 0) (hlive : z.live s.now) :
    (s.put k (some z)).lookup k = some z := by
  rw [lookup_put_self, Option.filter_some, if_pos (decide_eq_true hcard), Option.filter_some,
    if_pos hlive]

theorem lookup_zremrangebyscore (min max : Int) (s : Store) (k : String) :
    (exec (.zremrangebyscore k min max) s).2.lookup k =
      ((s.lookup k).map (SortedSet.removeRangeByScore min max)).filter (fun z => z.card ≠ 0) := by
  cases hz : s.lookup k with
  | none => simp only [exec, hz, Option.map_none, Option.filter_none]
  | some z =>
    have hlive : (z.removeRangeByScore min max).live s.now := (lookup_eq_some_iff.mp hz).2
    simp only [exec, hz, lookup_put_self]
    rw [Option.map_some, Option.filter_some]
    split_ifs
    · rw [Option.filter_some, if_pos hlive]
    · rfl

theorem card_add_ne_zero (score : Nat) (member : String) (z : SortedSet) :
    (z.add score member).card ≠ 0 := by
  have hmem : member ∈ (z.add score member).scores.keys := AList.mem_keys.mp (by simp [SortedSet.add])
  rw [SortedSet.card_eq_length_keys]
  exact Nat.pos_iff_ne_zero.mp (List.length_pos_of_mem hmem)

theorem lookup_zadd (score : Nat) (member : String) (s : Store) (k : String) :
    (exec (.zadd k score member) s).2.lookup k =
      some (((s.lookup k).getD ⟨∅, none⟩).add score member) := by
  have hlive : (((s.lookup k).getD ⟨∅, none⟩).add score member).live s.now := by
    cases hz : s.lookup k with
    | none => rfl
    | some z => exact (lookup_eq_some_iff.mp hz).2
  exact lookup_put_live (card_add_ne_zero _ _ _) hlive

theorem lookup_expire {z : SortedSet} {seconds : Nat} (hz : s.lookup k = some z) (hcard : z.card ≠ 0)
    (hseconds : 0 < seconds) : (exec (.expire k seconds) s).2.lookup k =
      some { z with expiry := some (s.now + seconds * 1000) } := by
  have hlive : s.now < s.now + seconds * 1000 := by omega
  simp only [exec, hz, if_neg (Nat.pos_iff_ne_zero.mp hseconds)]
  exact lookup_put_live hcard (decide_eq_true hlive)

end Lookup

end Store

end Mesty.Redis.SortedSets
