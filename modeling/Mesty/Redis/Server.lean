import Mathlib.Algebra.Group.Int.Defs
import Mathlib.Algebra.Group.Nat.Defs
import Mathlib.Logic.Function.Basic
import Mesty.Concurrency.Program

namespace Mesty.Redis.Server

open Mesty.Concurrency.Program

/-- An error that the server answers to a command. -/
inductive RedisError where
  | notAnInteger
  | overflow
  | invalidExpireTime
  deriving DecidableEq

/-- A string value, with the time in milliseconds at which it vanishes. -/
structure Entry where
  value : String
  expiry : Option Nat

def Entry.live (now : Nat) (e : Entry) : Bool := e.expiry.all (now < ·)

/-- No key is used both for a string and for a set. -/
structure Store where
  now : Nat
  strings : String → Option Entry
  sets : String → List String

inductive RedisCmd where
  | get (key : String)
  | setEx (key value : String) (seconds : Nat)
  | del (key : String)
  | incr (key : String)
  | ttl (key : String)
  | expire (key : String) (seconds : Int)
  | sadd (key member : String)

abbrev RedisCmd.Ans : RedisCmd → Type
  | get _ => Option String
  | setEx .. => Except RedisError Unit
  | del _ | expire .. | sadd .. => Nat
  | incr _ => Except RedisError Int
  | ttl _ => Int

/-- The key of the string that the command is about. -/
def RedisCmd.key : RedisCmd → Option String
  | get key | setEx key _ _ | del key | incr key | ttl key | expire key _ => some key
  | sadd .. => none

/-- The key under which the command may store another value. -/
def RedisCmd.writes : RedisCmd → Option String
  | setEx key _ _ | incr key => some key
  | get _ | del _ | ttl _ | expire .. | sadd .. => none

def readInt : List Char → Int
  | '-' :: cs => -(Nat.ofDigitChars 10 cs 0 : Int)
  | cs => (Nat.ofDigitChars 10 cs 0 : Int)

/-- Only the canonical decimal form of a 64-bit integer is read. -/
def parseInt (s : String) : Option Int :=
  let n := readInt s.toList
  if toString n = s ∧ -2 ^ 63 ≤ n ∧ n < 2 ^ 63 then some n else none

theorem readInt_toDigits (n : Nat) : readInt (Nat.toDigits 10 n) = n := by
  unfold readInt
  split
  · next cs h =>
    have hmem : '-' ∈ Nat.toDigits 10 n := by simp [h]
    exact absurd (Nat.isDigit_of_mem_toDigits (by decide) (by decide) hmem) (by decide)
  · rw [Nat.ofDigitChars_ten_toDigits]

theorem parseInt_toString {n : Nat} (h : n < 2 ^ 63) : parseInt (toString n) = some (n : Int) := by
  have hval : readInt (toString n).toList = n := by
    rw [Nat.toString_eq_repr, Nat.toList_repr, readInt_toDigits]
  simp only [parseInt, hval]
  exact if_pos ⟨rfl, by omega, by omega⟩

namespace Store

variable {s : Store} {k k' : String} {e : Option Entry} {c : RedisCmd}

def empty (now : Nat) : Store := ⟨now, fun _ => none, fun _ => []⟩

def lookup (s : Store) (k : String) : Option Entry := (s.strings k).filter (Entry.live s.now)

def put (s : Store) (k : String) (e : Option Entry) : Store :=
  { s with strings := Function.update s.strings k e }

def wait (s : Store) (ms : Nat) : Store := { s with now := s.now + ms }

def incremented : Option Entry → Except RedisError (Int × Entry)
  | none => .ok (1, ⟨"1", none⟩)
  | some e =>
    match parseInt e.value with
    | none => .error .notAnInteger
    | some n => if n + 1 < 2 ^ 63 then .ok (n + 1, ⟨toString (n + 1), e.expiry⟩) else .error .overflow

def incr (s : Store) (k : String) : Except RedisError Int × Store :=
  match incremented (s.lookup k) with
  | .ok (n, e) => (.ok n, s.put k (some e))
  | .error err => (.error err, s)

/-- The remaining time in seconds, rounded to the nearest. -/
def ttl (s : Store) (k : String) : Int :=
  match s.lookup k with
  | none => -2
  | some e => e.expiry.elim (-1) (fun t => ((t - s.now + 500) / 1000 : Nat))

def expire (s : Store) (k : String) (seconds : Int) : Nat × Store :=
  match s.lookup k with
  | none => (0, s)
  | some e =>
    if seconds ≤ 0 then (1, s.put k none)
    else (1, s.put k (some { e with expiry := some (s.now + seconds.toNat * 1000) }))

def exec : (c : RedisCmd) → Store → c.Ans × Store
  | .get k, s => ((s.lookup k).map Entry.value, s)
  | .setEx k v seconds, s =>
    if seconds = 0 then (.error .invalidExpireTime, s)
    else (.ok (), s.put k (some ⟨v, some (s.now + seconds * 1000)⟩))
  | .del k, s => (if (s.lookup k).isSome then 1 else 0, s.put k none)
  | .incr k, s => s.incr k
  | .ttl k, s => (s.ttl k, s)
  | .expire k seconds, s => s.expire k seconds
  | .sadd k member, s =>
    if member ∈ s.sets k then (0, s)
    else (1, { s with sets := Function.update s.sets k (member :: s.sets k) })

@[simp] theorem put_now : (s.put k e).now = s.now := rfl

@[simp] theorem wait_now (ms : Nat) : (s.wait ms).now = s.now + ms := rfl

theorem lookup_empty (now : Nat) : (empty now).lookup k = none := rfl

@[simp] theorem lookup_put_self : (s.put k e).lookup k = e.filter (Entry.live s.now) := by
  simp [lookup, put]

@[simp] theorem lookup_put_none : (s.put k none).lookup k = none := by simp

theorem lookup_put_of_ne (h : k ≠ k') : (s.put k' e).lookup k = s.lookup k := by
  simp [lookup, put, h]

theorem put_comm (h : k ≠ k') (e e' : Option Entry) :
    (s.put k e).put k' e' = (s.put k' e').put k e := by
  simp [put, Function.update_comm h]

@[simp] theorem put_put (e e' : Option Entry) : (s.put k e).put k e' = s.put k e' := by
  simp [put]

theorem ttl_put_of_ne (h : k ≠ k') : (s.put k' e).ttl k = s.ttl k := by
  simp [ttl, lookup_put_of_ne h]

theorem expire_of_lookup {e : Entry} {seconds : Int} (h : s.lookup k = some e) (hs : 0 < seconds) :
    s.expire k seconds =
      (1, s.put k (some { e with expiry := some (s.now + seconds.toNat * 1000) })) := by
  simp [expire, h, Int.not_le.mpr hs]

theorem incr_none (h : s.lookup k = none) : s.incr k = (.ok 1, s.put k (some ⟨"1", none⟩)) := by
  simp [incr, incremented, h]

theorem incr_of_lookup {e : Entry} {n : Nat} (h : s.lookup k = some e) (he : e.value = toString n)
    (hn : n + 1 < 2 ^ 63) :
    s.incr k = (.ok (n + 1), s.put k (some ⟨toString (n + 1), e.expiry⟩)) := by
  have hlt : (n : Int) + 1 < 2 ^ 63 := by omega
  have hp := parseInt_toString (n := n) (by omega)
  simp only [incr, incremented, h, he, hp, hlt, if_true]
  rfl

theorem lookup_live {e : Entry} (h : s.lookup k = some e) : e.live s.now := by
  simp only [lookup, Option.filter_eq_some_iff] at h
  exact h.2

theorem live_of_incremented {n : Int} {e : Entry} (h : incremented (s.lookup k) = .ok (n, e)) :
    e.live s.now := by
  cases hold : s.lookup k with
  | none =>
    rw [hold] at h
    cases h
    rfl
  | some old =>
    rw [hold] at h
    simp only [incremented] at h
    split at h
    · cases h
    · split at h
      · cases h
        have hlive : old.live s.now := lookup_live hold
        exact hlive
      · cases h

theorem lookup_put_live {e : Entry} (h : e.live s.now) : (s.put k (some e)).lookup k = some e := by
  simp [h]

theorem live_of_later {e : Entry} {now later : Nat} (hle : now ≤ later) (h : e.live later) :
    e.live now := by
  cases he : e.expiry <;> simp only [Entry.live, he, Option.all_none, Option.all_some,
    decide_eq_true_eq] at h ⊢
  omega

/-- Time only takes entries away. -/
theorem lookup_wait (s : Store) (ms : Nat) (k : String) :
    (s.wait ms).lookup k = (s.lookup k).filter (Entry.live (s.now + ms)) := by
  cases h : s.strings k with
  | none => simp [lookup, wait, h]
  | some e =>
    have := live_of_later (e := e) (Nat.le_add_right s.now ms)
    simp only [lookup, wait, h, Option.filter_some]
    grind

theorem lookup_of_wait {ms : Nat} {e : Entry} (h : (s.wait ms).lookup k = some e) :
    s.lookup k = some e := by
  rw [lookup_wait, Option.filter_eq_some_iff] at h
  exact h.1

theorem incr_put (h : k' ≠ k) (s : Store) (e : Option Entry) :
    (s.put k e).incr k' = ((s.incr k').1, (s.incr k').2.put k e) := by
  simp only [incr, lookup_put_of_ne h]
  cases incremented (s.lookup k') with
  | ok out => exact congrArg (Prod.mk _) (put_comm h.symm _ _)
  | error err => rfl

theorem expire_put (h : k' ≠ k) (s : Store) (seconds : Int) (e : Option Entry) :
    (s.put k e).expire k' seconds = ((s.expire k' seconds).1, (s.expire k' seconds).2.put k e) := by
  simp only [expire, lookup_put_of_ne h, put_now]
  cases s.lookup k' with
  | none => rfl
  | some old =>
    by_cases hs : seconds ≤ 0
    · simp only [hs, if_true, put_comm h.symm]
    · simp only [hs, if_false, put_comm h.symm]

/-- A command on another key neither reads nor changes what is stored under `k`. -/
theorem exec_put (h : c.key ≠ some k) (s : Store) (e : Option Entry) :
    exec c (s.put k e) = ((exec c s).1, (exec c s).2.put k e) := by
  cases c with
  | sadd k' member =>
    by_cases hm : member ∈ s.sets k' <;> simp [exec, put, hm]
  | get k' | ttl k' =>
    have hne : k' ≠ k := fun heq => h (congrArg some heq)
    simp [exec, ttl, lookup_put_of_ne hne]
  | del k' =>
    have hne : k' ≠ k := fun heq => h (congrArg some heq)
    simp [exec, lookup_put_of_ne hne, put_comm hne.symm]
  | setEx k' v seconds =>
    have hne : k' ≠ k := fun heq => h (congrArg some heq)
    by_cases hs : seconds = 0 <;> simp [exec, hs, put_comm hne.symm]
  | incr k' => exact incr_put (fun heq => h (congrArg some heq)) s e
  | expire k' seconds => exact expire_put (fun heq => h (congrArg some heq)) s seconds e

theorem exec_lookup (h : c.key ≠ some k) (s : Store) : (exec c s).2.lookup k = s.lookup k := by
  cases c with
  | get | ttl => rfl
  | sadd k' member =>
    simp only [exec]
    split <;> rfl
  | del k' | setEx k' v seconds =>
    have hne : k ≠ k' := fun heq => h (congrArg some heq.symm)
    simp only [exec]
    try split
    all_goals simp [lookup_put_of_ne hne]
  | incr k' | expire k' seconds =>
    have hne : k ≠ k' := fun heq => h (congrArg some heq.symm)
    simp only [exec, incr, expire]
    repeat' split
    all_goals simp [lookup_put_of_ne hne]

/-- A value that is there was there before, unless the command writes the key. -/
theorem exec_value (h : c.writes ≠ some k) {s : Store} {e : Entry}
    (he : (exec c s).2.lookup k = some e) :
    ∃ old, s.lookup k = some old ∧ old.value = e.value := by
  by_cases hk : c.key = some k
  · cases c with
    | get | ttl => exact ⟨e, he, rfl⟩
    | setEx | incr => exact absurd hk h
    | sadd => cases hk
    | del k' =>
      obtain rfl := Option.some.inj hk
      simp [exec] at he
    | expire k' seconds =>
      obtain rfl := Option.some.inj hk
      cases hold : s.lookup k' with
      | none => simp [exec, expire, hold] at he
      | some old =>
        refine ⟨old, rfl, ?_⟩
        simp only [exec, expire, hold] at he
        split at he
        · simp at he
        · simp only [lookup_put_self, Option.filter_eq_some_iff, Option.some.injEq] at he
          rw [← he.1]
  · exact ⟨e, (exec_lookup hk s) ▸ he, rfl⟩

@[simp] theorem exec_now (c : RedisCmd) (s : Store) : (exec c s).2.now = s.now := by
  cases c <;> simp only [exec, incr, expire] <;> repeat' split
  all_goals rfl

section Programs

variable {α : Type} {p : Prog RedisCmd RedisCmd.Ans α}

theorem result_put (hp : p.Issues (fun c => c.key ≠ some k)) (s : Store) (e : Option Entry) :
    p.result exec (s.put k e) = ((p.result exec s).1, (p.result exec s).2.put k e) := by
  induction p generalizing s with
  | ret a => rfl
  | call c f ih =>
    simp only [Prog.result, exec_put hp.1]
    exact ih _ (hp.2 _) _

theorem result_lookup (hp : p.Issues (fun c => c.key ≠ some k)) (s : Store) :
    (p.result exec s).2.lookup k = s.lookup k := by
  induction p generalizing s with
  | ret a => rfl
  | call c f ih => exact (ih _ (hp.2 _) _).trans (exec_lookup hp.1 s)

theorem result_value (hp : p.Issues (fun c => c.writes ≠ some k)) {s : Store} {e : Entry}
    (he : (p.result exec s).2.lookup k = some e) :
    ∃ old, s.lookup k = some old ∧ old.value = e.value := by
  induction p generalizing s with
  | ret a => exact ⟨e, he, rfl⟩
  | call c f ih =>
    obtain ⟨mid, hmid, hv⟩ := ih _ (hp.2 _) he
    obtain ⟨old, hold, hv'⟩ := exec_value hp.1 hmid
    exact ⟨old, hold, hv'.trans hv⟩

end Programs

end Store

/-- A script runs as one command. An error ends it, and what it did before stays. -/
abbrev Script := ExceptT RedisError (Prog RedisCmd RedisCmd.Ans)

namespace Script

variable {α : Type}

abbrev get (key : String) : Script (Option String) := ExceptT.lift (Prog.cmd (RedisCmd.get key))

abbrev del (key : String) : Script Nat := ExceptT.lift (Prog.cmd (RedisCmd.del key))

abbrev incr (key : String) : Script Int := ExceptT.mk (Prog.cmd (RedisCmd.incr key))

abbrev ttl (key : String) : Script Int := ExceptT.lift (Prog.cmd (RedisCmd.ttl key))

abbrev expire (key : String) (seconds : Int) : Script Nat :=
  ExceptT.lift (Prog.cmd (RedisCmd.expire key seconds))

theorem issues_lift_bind {β : Type} {P : RedisCmd → Prop} {c : RedisCmd} {f : c.Ans → Script β} :
    ((ExceptT.lift (Prog.cmd c) : Script c.Ans) >>= f).run.Issues P ↔
      P c ∧ ∀ r, (f r).run.Issues P := Iff.rfl

theorem issues_incr_bind {β : Type} {P : RedisCmd → Prop} {key : String} {f : Int → Script β} :
    (incr key >>= f).run.Issues P ↔ P (.incr key) ∧ ∀ n, (f n).run.Issues P :=
  and_congr_right fun _ => ⟨fun h n => h (.ok n), fun h r => match r with
    | .ok n => h n
    | .error _ => trivial⟩

def eval (p : Script α) (s : Store) : Except RedisError α × Store :=
  Prog.result Store.exec p.run s

@[simp] theorem eval_pure (a : α) (s : Store) : (pure a : Script α).eval s = (.ok a, s) := rfl

theorem eval_bind {β : Type} (p : Script α) (f : α → Script β) (s : Store) :
    (p >>= f).eval s = match p.eval s with
      | (.ok a, s') => (f a).eval s'
      | (.error e, s') => (.error e, s') := by
  rw [eval, eval, ExceptT.run_bind, Prog.result_bind]
  obtain ⟨r, s'⟩ := Prog.result Store.exec p.run s
  cases r <;> rfl

theorem eval_map {β : Type} (f : α → β) (p : Script α) (s : Store) :
    (f <$> p).eval s = ((p.eval s).1.map f, (p.eval s).2) := by
  rw [map_eq_pure_bind, eval_bind]
  obtain ⟨r, s'⟩ := p.eval s
  cases r <;> rfl

@[simp] theorem eval_get (k : String) (s : Store) :
    (get k).eval s = (.ok ((s.lookup k).map Entry.value), s) := rfl

@[simp] theorem eval_del (k : String) (s : Store) :
    (del k).eval s = (.ok (if (s.lookup k).isSome then 1 else 0), s.put k none) := rfl

@[simp] theorem eval_incr (k : String) (s : Store) : (incr k).eval s = s.incr k := rfl

@[simp] theorem eval_ttl (k : String) (s : Store) : (ttl k).eval s = (.ok (s.ttl k), s) := rfl

@[simp] theorem eval_expire (k : String) (seconds : Int) (s : Store) :
    (expire k seconds).eval s = (.ok (s.expire k seconds).1, (s.expire k seconds).2) := rfl

end Script

end Mesty.Redis.Server
