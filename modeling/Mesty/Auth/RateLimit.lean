import Mathlib.Algebra.Order.Group.Nat
import Mesty.Auth.Otp
import Mesty.Refinement.FixedWindow

namespace Mesty.Auth.RateLimit

open Mesty.Concurrency.Program Mesty.Redis.Server Mesty.Redis.Server.Store
open Mesty.Auth.Otp Mesty.Refinement.FixedWindow

/-- A call to `check_rate_limit`, so long after the call before. -/
structure Call where
  ms : Nat
  key : String

/-- What a call has answered, and when. -/
structure Answer where
  time : Nat
  key : String
  result : Except RedisError Bool

/-- The limit and the window, in seconds, of each key. -/
abbrev Policy := String → Nat × Nat

def answers (policy : Policy) : List Call → Store → List Answer
  | [], _ => []
  | call :: calls, s =>
    let s := s.wait call.ms
    let out := checkRateLimit call.key (policy call.key).1 (policy call.key).2 s
    ⟨s.now, call.key, out.1⟩ :: answers policy calls out.2

def Answer.allows (a : Answer) : Bool :=
  match a.result with
  | .ok allowed => allowed
  | .error _ => false

/-- The times at which the calls for the key are allowed. -/
def allowedTimes (policy : Policy) (key : String) (calls : List Call) (s : Store) : List Nat :=
  ((answers policy calls s).filter (fun a => a.key = key && a.allows)).map Answer.time

/-- The times of the calls for the key. -/
def callTimes (key : String) : (now : Nat) → List Call → List Nat
  | _, [] => []
  | now, call :: calls =>
    let now := now + call.ms
    if call.key = key then now :: callTimes key now calls else callTimes key now calls

def milliseconds (window : Nat) : Nat := window * 1000

/-- INCR does not count further. -/
def maxCount : Nat := 2 ^ 63 - 1

/-- What a lifetime with these times has left in Redis. -/
def counter (width : Nat) (current : List Nat) : Option Entry :=
  current.head?.map (fun start => ⟨toString (min current.length maxCount), some (start + width)⟩)

/-- Redis counts the current lifetime under the key. -/
def Counts (s : Store) (k : String) (width : Nat) (current : List Nat) : Prop :=
  s.lookup k = (counter width current).filter (Entry.live s.now)

/-- The current lifetime with one more call. -/
def extend (width : Nat) (current : List Nat) (now : Nat) : List Nat :=
  if Within width current now then current ++ [now] else [now]

section Script

variable {s : Store} {k : String} {e : Entry} {window n : Nat}

theorem rateLimitScript_first (window : Nat) (h : s.lookup k = none) :
    ((rateLimitScript k window).eval s).1 = .ok 1 ∧
      ((rateLimitScript k window).eval s).2.lookup k =
        (some (⟨"1", some (s.now + milliseconds window)⟩ : Entry)).filter (Entry.live s.now) := by
  have hset : (s.put k (some ⟨"1", none⟩)).lookup k = some ⟨"1", none⟩ := lookup_put_live rfl
  have heval : (rateLimitScript k window).eval s =
      (.ok 1, ((s.put k (some ⟨"1", none⟩)).expire k window).2) := by
    rw [rateLimitScript, Script.eval_bind, Script.eval_incr, incr_none h]
    rfl
  rw [heval]
  refine ⟨rfl, ?_⟩
  obtain rfl | hpos := Nat.eq_zero_or_pos window
  · have hexpire : ((s.put k (some ⟨"1", none⟩)).expire k (0 : Nat)).2 =
        (s.put k (some ⟨"1", none⟩)).put k none := by
      simp [expire, hset]
    rw [hexpire, lookup_put_none]
    simp [Option.filter_some, Entry.live, milliseconds]
  · rw [expire_of_lookup hset (Int.natCast_pos.mpr hpos), put_put, lookup_put_self]
    rfl

theorem rateLimitScript_next (h : s.lookup k = some e) (he : e.value = toString n) (hpos : 0 < n)
    (hn : n + 1 < 2 ^ 63) : (rateLimitScript k window).eval s =
      (.ok (n + 1), s.put k (some ⟨toString (n + 1), e.expiry⟩)) := by
  rw [rateLimitScript, Script.eval_bind, Script.eval_incr, incr_of_lookup h he hn]
  have hne : ¬ ((n : Int) + 1 = 1) := by omega
  simp only [hne, if_false]
  rfl

theorem rateLimitScript_full (h : s.lookup k = some e) (he : e.value = toString maxCount) :
    (rateLimitScript k window).eval s = (.error .overflow, s) := by
  have hincr : s.incr k = (.error .overflow, s) := by
    have hmax : ¬ ((maxCount : Int) + 1 < 2 ^ 63) := by decide
    simp only [incr, incremented, h, he, parseInt_toString (n := maxCount) (by decide), hmax,
      if_false]
  rw [rateLimitScript, Script.eval_bind, Script.eval_incr, hincr]

theorem result_now {α : Type} (p : Prog RedisCmd RedisCmd.Ans α) (s : Store) :
    (p.result Store.exec s).2.now = s.now := by
  induction p generalizing s with
  | ret a => rfl
  | call c f ih => exact (ih _ _).trans (exec_now c s)

end Script

section Calls

variable {s : Store} {key : String} {limit window : Nat} {current : List Nat}

theorem checkRateLimit_now (key : String) (limit window : Nat) (s : Store) :
    (checkRateLimit key limit window s).2.now = s.now := result_now _ _

theorem Counts.wait {k : String} {width : Nat} (h : Counts s k width current) (ms : Nat) :
    Counts (s.wait ms) k width current := by
  rw [Counts, lookup_wait, h, Option.filter_filter, wait_now]
  refine congrArg (fun p => (counter width current).filter p) (funext fun e => ?_)
  rw [Bool.and_eq_right_iff_imp]
  exact live_of_later (Nat.le_add_right _ _)

theorem counter_of_head {width start : Nat} (h : current.head? = some start) :
    counter width current = some ⟨toString (min current.length maxCount), some (start + width)⟩ := by
  rw [counter, h, Option.map_some]

theorem map_eq_ok_true_iff {n : Nat} (hn : n ≤ maxCount) :
    (Except.ok (n : Int) : Except RedisError Int).map (fun count => decide (count.toNat ≤ limit)) =
      .ok true ↔ n ≤ min limit maxCount := by
  rw [le_min_iff, and_iff_left hn]
  simp [Except.map]

/-- A call within the lifetime counts on. -/
theorem checkRateLimit_within (h : Counts s ("rate:" ++ key) (milliseconds window) current)
    (hin : Within (milliseconds window) current s.now) :
    Counts (checkRateLimit key limit window s).2 ("rate:" ++ key) (milliseconds window)
        (current ++ [s.now]) ∧
      ((checkRateLimit key limit window s).1 = .ok true ↔
        current.length + 1 ≤ min limit maxCount) := by
  obtain ⟨start, hstart, hlt⟩ := hin
  have hnext : (current ++ [s.now]).head? = some start := by rw [List.head?_append, hstart]; rfl
  have hpos : 0 < current.length := by
    obtain ⟨rest, rfl⟩ := List.head?_eq_some_iff.mp hstart
    exact Nat.succ_pos _
  have hlive : ∀ value, (some (⟨value, some (start + milliseconds window)⟩ : Entry)).filter
      (Entry.live s.now) = some ⟨value, some (start + milliseconds window)⟩ := by
    intro value
    rw [Option.filter_some, if_pos (by simpa [Entry.live] using hlt)]
  rw [Counts, counter_of_head hstart, hlive] at h
  rw [Counts, checkRateLimit_now, counter_of_head hnext, hlive, List.length_append,
    List.length_singleton]
  by_cases hfull : current.length < maxCount
  · rw [Nat.min_eq_left hfull.le] at h
    rw [Nat.min_eq_left hfull, checkRateLimit,
      rateLimitScript_next h rfl hpos (Nat.add_lt_of_lt_sub hfull)]
    refine ⟨lookup_put_live (by simpa [Entry.live] using hlt), ?_⟩
    exact map_eq_ok_true_iff (n := current.length + 1) hfull
  · rw [Nat.min_eq_right (not_lt.mp hfull)] at h
    rw [Nat.min_eq_right (by omega), checkRateLimit, rateLimitScript_full h rfl]
    refine ⟨h, iff_of_false (by rintro ⟨⟩) ?_⟩
    omega

/-- A call after the lifetime starts the next one. -/
theorem checkRateLimit_after (h : Counts s ("rate:" ++ key) (milliseconds window) current)
    (hout : ¬ Within (milliseconds window) current s.now) :
    Counts (checkRateLimit key limit window s).2 ("rate:" ++ key) (milliseconds window) [s.now] ∧
      ((checkRateLimit key limit window s).1 = .ok true ↔ 1 ≤ min limit maxCount) := by
  have hnone : s.lookup ("rate:" ++ key) = none := by
    rw [h, counter]
    cases hhead : current.head? with
    | none => rfl
    | some start =>
      have hend : ¬ s.now < start + milliseconds window := fun hlt => hout ⟨start, hhead, hlt⟩
      simpa [Option.filter_some, Entry.live] using hend
  obtain ⟨hresult, hlookup⟩ := rateLimitScript_first window hnone
  refine ⟨?_, ?_⟩
  · have hone : toString (min 1 maxCount) = "1" := by decide
    rw [Counts, checkRateLimit_now, counter_of_head rfl, List.length_singleton, hone]
    exact hlookup
  · rw [checkRateLimit, hresult]
    exact map_eq_ok_true_iff (n := 1) (by decide)

/-- A call counts itself, and is allowed as long as the count is at most the limit. -/
theorem checkRateLimit_counts (limit : Nat)
    (h : Counts s ("rate:" ++ key) (milliseconds window) current) :
    Counts (checkRateLimit key limit window s).2 ("rate:" ++ key) (milliseconds window)
        (extend (milliseconds window) current s.now) ∧
      ((checkRateLimit key limit window s).1 = .ok true ↔
        (extend (milliseconds window) current s.now).length ≤ min limit maxCount) := by
  rw [extend]
  split_ifs with hin
  · rw [List.length_append]
    exact checkRateLimit_within h hin
  · exact checkRateLimit_after h hin

end Calls

section Runs

variable {policy : Policy} {key : String}

theorem allows_iff {a : Answer} : a.allows = true ↔ a.result = .ok true := by
  obtain ⟨time, key, e | allowed⟩ := a
  · exact iff_of_false Bool.false_ne_true (by rintro ⟨⟩)
  · exact ⟨congrArg Except.ok, Except.ok.inj⟩

/-- What one call adds to the times at which the calls for the key are allowed. -/
theorem allowedTimes_cons (call : Call) (calls : List Call) (s : Store) :
    allowedTimes policy key (call :: calls) s =
      (if call.key = key ∧ (checkRateLimit call.key (policy call.key).1 (policy call.key).2
          (s.wait call.ms)).1 = .ok true then [s.now + call.ms] else []) ++
        allowedTimes policy key calls (checkRateLimit call.key (policy call.key).1
          (policy call.key).2 (s.wait call.ms)).2 := by
  rw [allowedTimes, answers, List.filter_cons]
  simp only [Bool.and_eq_true, decide_eq_true_eq, allows_iff]
  split_ifs
  · rfl
  · rfl

theorem take_snoc {α : Type} (xs : List α) (x : α) (n : Nat) :
    (xs ++ [x]).take n = xs.take n ++ if (xs ++ [x]).length ≤ n then [x] else [] := by
  rw [List.take_append, List.length_append, List.length_singleton]
  split_ifs with hle
  · rw [List.take_of_length_le (l := [x]) (by rw [List.length_singleton]; omega)]
  · rw [Nat.sub_eq_zero_of_le (by omega), List.take_zero]

/-- The allowed calls are the first ones of each lifetime. -/
theorem allowedTimes_eq (calls : List Call) {s : Store} {current : List Nat}
    (h : Counts s ("rate:" ++ key) (milliseconds (policy key).2) current) :
    current.take (min (policy key).1 maxCount) ++ allowedTimes policy key calls s =
      admitted (min (policy key).1 maxCount)
        (lifetimes (milliseconds (policy key).2) current (callTimes key s.now calls)) := by
  induction calls generalizing s current with
  | nil =>
    rw [callTimes, lifetimes, admitted, List.flatMap_singleton]
    exact List.append_nil _
  | cons call calls ih =>
    obtain ⟨ms, key'⟩ := call
    have hwait := h.wait ms
    rw [allowedTimes_cons, callTimes]
    dsimp only
    by_cases hkey : key' = key
    · subst hkey
      obtain ⟨hcounts, hallowed⟩ := checkRateLimit_counts (policy key').1 hwait
      have hrest := ih hcounts
      rw [checkRateLimit_now, wait_now] at hrest
      rw [wait_now] at hallowed
      simp only [true_and, if_true, hallowed]
      rw [lifetimes]
      by_cases hin : Within (milliseconds (policy key').2) current (s.now + ms)
      · rw [extend, if_pos hin] at hrest ⊢
        rw [if_pos hin, ← hrest, ← List.append_assoc, take_snoc]
      · have htake := take_snoc [] (s.now + ms) (min (policy key').1 maxCount)
        rw [List.take_nil, List.nil_append, List.nil_append] at htake
        rw [extend, if_neg hin] at hrest ⊢
        rw [if_neg hin, admitted_cons, ← hrest, htake]
    · have hcounts : Counts (checkRateLimit key' (policy key').1 (policy key').2 (s.wait ms)).2
          ("rate:" ++ key) (milliseconds (policy key).2) current := by
        have hne : "rate:" ++ key ≠ "rate:" ++ key' :=
          fun heq => hkey ((String.append_right_inj _).mp heq).symm
        rw [Counts, checkRateLimit_lookup hne, checkRateLimit_now]
        exact hwait
      have hrest := ih hcounts
      rw [checkRateLimit_now, wait_now] at hrest
      rw [if_neg (fun hand => hkey hand.1), if_neg hkey, List.nil_append]
      exact hrest

theorem callTimes_sorted (key : String) (now : Nat) (calls : List Call) :
    (∀ t ∈ callTimes key now calls, now ≤ t) ∧ (callTimes key now calls).Pairwise (· ≤ ·) := by
  induction calls generalizing now with
  | nil => exact ⟨by simp [callTimes], .nil⟩
  | cons call calls ih =>
    obtain ⟨hle, hsorted⟩ := ih (now + call.ms)
    rw [callTimes]
    split_ifs
    · refine ⟨fun t ht => ?_, List.pairwise_cons.mpr ⟨hle, hsorted⟩⟩
      obtain rfl | ht := List.mem_cons.mp ht
      · exact Nat.le_add_right _ _
      · exact (Nat.le_add_right _ _).trans (hle t ht)
    · exact ⟨fun t ht => (Nat.le_add_right _ _).trans (hle t ht), hsorted⟩

end Runs

/-- In every interval as long as the window at most `limit` calls for a key are allowed, exactly
if the lifetimes of its counter are spaced: when the next lifetime allows its call number `j`,
at most `limit - j` of the calls that the one before has allowed are younger than the window. -/
theorem rate_limited_iff_spaced (policy : Policy) (key : String) (now : Nat) (calls : List Call) :
    Limited (milliseconds (policy key).2) (policy key).1
        (allowedTimes policy key calls (.empty now)) ↔
      (lifetimes (milliseconds (policy key).2) [] (callTimes key now calls)).IsChain
        (Spaced (milliseconds (policy key).2) (min (policy key).1 maxCount) (policy key).1) := by
  have hempty : Counts (.empty now) ("rate:" ++ key) (milliseconds (policy key).2) [] := rfl
  have heq := allowedTimes_eq calls hempty
  rw [List.take_nil, List.nil_append] at heq
  rw [heq]
  exact limited_iff_spaced _ (Nat.min_le_left _ _) (callTimes_sorted key now calls).2

section Messages

/-- What the handler for messages asks for. -/
def messagePolicy : Policy := fun _ => (15, 10)

def messageKey : String := "msg:00000000-0000-0000-0000-000000000001"

/-- One message, 14 messages in the last millisecond of the lifetime, and 15 in the next one. -/
def messageCalls : List Call :=
  ⟨0, messageKey⟩ :: ⟨9999, messageKey⟩ :: List.replicate 13 ⟨0, messageKey⟩ ++
    ⟨1, messageKey⟩ :: List.replicate 14 ⟨0, messageKey⟩

/-- 29 messages are allowed within two milliseconds. -/
theorem message_limit_exceeded : ¬ Limited (milliseconds (messagePolicy messageKey).2)
    (messagePolicy messageKey).1
      (allowedTimes messagePolicy messageKey messageCalls (.empty 0)) := by
  intro h
  exact absurd (h 9999) (by decide +kernel)

end Messages

end Mesty.Auth.RateLimit
