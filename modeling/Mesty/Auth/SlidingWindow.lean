import Mathlib.Data.Nat.Log
import Mesty.Auth.RateLimit
import Mesty.Redis.SortedSets
import Mesty.Refinement.SlidingLog

namespace Mesty.Auth.SlidingWindow

open Mesty.Concurrency.Program Mesty.Redis.SortedSets Mesty.Redis.SortedSets.Store
open Mesty.Auth.RateLimit (Call Policy callTimes callTimes_sorted milliseconds)
open Mesty.Refinement.SlidingLog

/-- A tie goes to the even multiple of the unit. -/
def roundHalfEven (n unit : Nat) : Nat :=
  if 2 * (n % unit) < unit ∨ 2 * (n % unit) = unit ∧ n / unit % 2 = 0 then n / unit
  else n / unit + 1

def scientific (mantissa exponent : Nat) : String :=
  let digits := ((Nat.toDigits 10 mantissa).reverse.dropWhile (· = '0')).reverse
  let fraction := if digits.length ≤ 1 then [] else '.' :: digits.drop 1
  String.ofList (digits.take 1 ++ fraction) ++ "e+" ++ toString exponent

/-- The `tostring` of Lua, which is `%.14g`, of a whole number. -/
def tostring (n : Nat) : String :=
  if n < 10 ^ 14 then toString n
  else
    let exponent := Nat.log 10 n
    let mantissa := roundHalfEven n (10 ^ (exponent - 13))
    if mantissa = 10 ^ 14 then scientific 1 (exponent + 1) else scientific mantissa exponent

structure RateLimitResult where
  allowed : Bool
  currentCount : Nat
  limit : Nat
  resetTimestamp : Nat
  deriving DecidableEq

/-- `random` is the text of the first `math.random()` of a script, which is always the same. -/
def member (random : String) (now : Nat) : String := tostring now ++ "-" ++ random

def luaScript (random key : String) (now window limit windowSeconds : Nat) :
    Prog SortedSetCmd SortedSetCmd.Ans (Nat × Nat) := do
  let _ ← Prog.cmd (SortedSetCmd.zremrangebyscore key 0 ((now : Int) - window))
  let count ← Prog.cmd (SortedSetCmd.zcard key)
  if count < limit then
    let _ ← Prog.cmd (SortedSetCmd.zadd key now (member random now))
    let _ ← Prog.cmd (SortedSetCmd.expire key (windowSeconds + 1))
    return (count + 1, 1)
  else return (count, 0)

/-- The clock of the caller is that of Redis. -/
def checkRateLimit (random key : String) (limit windowSeconds : Nat) (s : Store) :
    RateLimitResult × Store :=
  let out := (luaScript random ("rate:" ++ key) s.now (milliseconds windowSeconds) limit
    windowSeconds).result Store.exec s
  (⟨out.1.2 = 1, out.1.1, limit, s.now / 1000 + windowSeconds⟩, out.2)

/-- When the calls for the key come, and whether they are allowed. -/
def results (random : String) (policy : Policy) (key : String) : List Call → Store →
    List (Nat × Bool)
  | [], _ => []
  | call :: calls, s =>
    let out := checkRateLimit random call.key (policy call.key).1 (policy call.key).2 (s.wait call.ms)
    let rest := results random policy key calls out.2
    if call.key = key then (s.now + call.ms, out.1.allowed) :: rest else rest

/-- What Redis has to know of the log: each time that may still be in the window has a score, its own
or a later one, and there are no other scores. -/
structure Remembers (random : String) (s : Store) (k : String) (width : Nat) (log : List Nat) :
    Prop where
  past : ∀ a ∈ log, a ≤ s.now
  sound : ∀ z name score, s.lookup k = some z → z.scores.lookup name = some score →
    score ∈ log ∧ member random score = name
  complete : ∀ a ∈ log, s.now < a + width → ∃ z score, s.lookup k = some z ∧
    z.expiry.all (a + width ≤ ·) ∧ z.scores.lookup (member random a) = some score ∧ a ≤ score

section Script

variable {random k : String} {s : Store} {width limit windowSeconds : Nat} {log : List Nat}

theorem luaScript_result (random k : String) (now window limit windowSeconds : Nat) (s : Store) :
    (luaScript random k now window limit windowSeconds).result exec s =
      let left := (exec (.zremrangebyscore k 0 ((now : Int) - window)) s).2
      let count := (exec (.zcard k) left).1
      if count < limit then
        ((count + 1, 1), (exec (.expire k (windowSeconds + 1))
          (exec (.zadd k now (member random now)) left).2).2)
      else ((count, 0), left) := by
  change Prog.result exec (ite _ _ _) _ = _
  dsimp only
  split_ifs <;> rfl

theorem remembers_empty (random : String) (now : Nat) (k : String) (width : Nat) :
    Remembers random (.empty now) k width [] := by
  refine ⟨fun a ha => absurd ha List.not_mem_nil, ?_, fun a ha => absurd ha List.not_mem_nil⟩
  rintro z name score ⟨⟩

theorem Remembers.wait (h : Remembers random s k width log) (ms : Nat) :
    Remembers random (s.wait ms) k width log := by
  refine ⟨fun a ha => (h.past a ha).trans (Nat.le_add_right _ _), ?_, ?_⟩
  · intro z name score hz
    rw [lookup_wait] at hz
    exact h.sound z name score (Option.filter_eq_some_iff.mp hz).1
  · intro a ha hrecent
    rw [wait_now] at hrecent
    obtain ⟨z, score, hz, hexpiry, hscore⟩ := h.complete a ha (by omega)
    refine ⟨z, score, ?_, hexpiry, hscore⟩
    rw [lookup_wait, Option.filter_eq_some_iff]
    refine ⟨hz, ?_⟩
    obtain ⟨scores, none | expiry⟩ := z
    · rfl
    · simp only [Option.all_some, decide_eq_true_eq] at hexpiry
      simp only [SortedSet.live, Option.all_some, decide_eq_true_eq]
      omega

theorem Remembers.congr {s' : Store} (h : Remembers random s k width log) (hnow : s'.now = s.now)
    (hlookup : s'.lookup k = s.lookup k) : Remembers random s' k width log := by
  refine ⟨fun a ha => hnow ▸ h.past a ha, ?_, ?_⟩
  · rw [hlookup]
    exact h.sound
  · rw [hlookup, hnow]
    exact h.complete

theorem outside_iff {now score : Nat} :
    SortedSet.outside 0 ((now : Int) - width) score = true ↔ now < score + width := by
  simp only [SortedSet.outside, Bool.not_eq_true', Bool.and_eq_false_iff, decide_eq_false_iff_not]
  omega

theorem card_ne_zero_of_lookup {z : SortedSet} {name : String} {score : Nat}
    (h : z.scores.lookup name = some score) : z.card ≠ 0 := by
  rw [SortedSet.card_eq_length_keys]
  exact Nat.pos_iff_ne_zero.mp (List.length_pos_of_mem (SortedSet.mem_keys_iff.mpr ⟨score, h⟩))

/-- What leaves the set has left the window. -/
theorem Remembers.evict (h : Remembers random s k width log) :
    Remembers random (exec (.zremrangebyscore k 0 ((s.now : Int) - width)) s).2 k width log ∧
      ∀ z name score, (exec (.zremrangebyscore k 0 ((s.now : Int) - width)) s).2.lookup k = some z →
        z.scores.lookup name = some score → s.now < score + width := by
  have hleft : ∀ {z name score},
      (exec (.zremrangebyscore k 0 ((s.now : Int) - width)) s).2.lookup k = some z →
        z.scores.lookup name = some score → s.now < score + width ∧
          ∃ old, s.lookup k = some old ∧ old.scores.lookup name = some score := by
    intro z name score hz hscore
    rw [lookup_zremrangebyscore] at hz
    obtain ⟨old, hold, rfl⟩ := Option.map_eq_some_iff.mp (Option.filter_eq_some_iff.mp hz).1
    obtain ⟨hscore, hout⟩ := SortedSet.lookup_removeRangeByScore.mp hscore
    exact ⟨outside_iff.mp hout, old, hold, hscore⟩
  refine ⟨⟨fun a ha => ?_, fun z name score hz hscore => ?_, fun a ha hrecent => ?_⟩,
    fun z name score hz hscore => (hleft hz hscore).1⟩
  · rw [exec_now]
    exact h.past a ha
  · obtain ⟨-, old, hold, hscore⟩ := hleft hz hscore
    exact h.sound old name score hold hscore
  · rw [exec_now] at hrecent
    obtain ⟨z, score, hz, hexpiry, hscore, hle⟩ := h.complete a ha hrecent
    have hkept : (z.removeRangeByScore 0 ((s.now : Int) - width)).scores.lookup (member random a) =
        some score :=
      SortedSet.lookup_removeRangeByScore.mpr ⟨hscore, outside_iff.mpr (by omega)⟩
    refine ⟨z.removeRangeByScore 0 ((s.now : Int) - width), score, ?_, hexpiry, hkept, hle⟩
    rw [lookup_zremrangebyscore, hz, Option.map_some, Option.filter_some,
      if_pos (decide_eq_true (card_ne_zero_of_lookup hkept))]

/-- Then the set has a member for each mark in the window. -/
theorem Remembers.zcard (h : Remembers random s k width log)
    (hrecent : ∀ z name score, s.lookup k = some z → z.scores.lookup name = some score →
      s.now < score + width) :
    (exec (.zcard k) s).1 = ((recent width s.now log).map (member random)).dedup.length := by
  have hmem : ∀ name, name ∈ (recent width s.now log).map (member random) ↔
      ∃ z score, s.lookup k = some z ∧ z.scores.lookup name = some score := by
    intro name
    constructor
    · intro hname
      obtain ⟨a, ha, rfl⟩ := List.mem_map.mp hname
      obtain ⟨ha, hnow⟩ := List.mem_filter.mp ha
      obtain ⟨z, score, hz, -, hscore, -⟩ := h.complete a ha (of_decide_eq_true hnow)
      exact ⟨z, score, hz, hscore⟩
    · rintro ⟨z, score, hz, hscore⟩
      obtain ⟨hlog, rfl⟩ := h.sound z name score hz hscore
      refine List.mem_map_of_mem (List.mem_filter.mpr ⟨hlog, ?_⟩)
      exact decide_eq_true (hrecent z _ score hz hscore)
  change ((s.lookup k).map SortedSet.card).getD 0 = _
  cases hz : s.lookup k with
  | none =>
    have hnone : (recent width s.now log).map (member random) = [] := by
      refine List.eq_nil_iff_forall_not_mem.mpr fun name hname => ?_
      obtain ⟨z, -, hsome, -⟩ := (hmem name).mp hname
      cases hz.symm.trans hsome
    rw [hnone]
    rfl
  | some z =>
    rw [Option.map_some, Option.getD_some, SortedSet.card_eq_length_keys]
    refine ((List.perm_ext_iff_of_nodup z.scores.keys_nodup (List.nodup_dedup _)).mpr
      fun name => ?_).length_eq
    rw [List.mem_dedup, hmem, SortedSet.mem_keys_iff]
    constructor
    · rintro ⟨score, hscore⟩
      exact ⟨z, score, hz, hscore⟩
    · rintro ⟨z', score, hz', hscore⟩
      obtain rfl := Option.some.inj (hz.symm.trans hz')
      exact ⟨score, hscore⟩

/-- A time that is added is remembered for longer than the window. -/
theorem Remembers.zadd (h : Remembers random s k (milliseconds windowSeconds) log) :
    Remembers random (exec (.expire k (windowSeconds + 1))
      (exec (.zadd k s.now (member random s.now)) s).2).2 k (milliseconds windowSeconds)
        (log ++ [s.now]) := by
  have hset := lookup_expire (lookup_zadd s.now (member random s.now) s k) (card_add_ne_zero _ _ _)
    (Nat.succ_pos windowSeconds)
  rw [exec_now] at hset
  have hpast : ∀ a ∈ log ++ [s.now], a ≤ s.now := by
    intro a ha
    obtain ha | ha := List.mem_append.mp ha
    · exact h.past a ha
    · exact (List.mem_singleton.mp ha).le
  refine ⟨fun a ha => ?_, fun z name score hz hscore => ?_, fun a ha hrecent => ?_⟩
  · rw [exec_now, exec_now]
    exact hpast a ha
  · obtain rfl := Option.some.inj (hset.symm.trans hz)
    by_cases hname : name = member random s.now
    · subst hname
      obtain rfl := Option.some.inj ((AList.lookup_insert _).symm.trans hscore)
      exact ⟨List.mem_append_right _ (List.mem_singleton_self _), rfl⟩
    · have hold := (AList.lookup_insert_ne hname).symm.trans hscore
      cases hlookup : s.lookup k with
      | none =>
        rw [hlookup] at hold
        cases hold
      | some old =>
        rw [hlookup] at hold
        obtain ⟨hlog, hmark⟩ := h.sound old name score hlookup hold
        exact ⟨List.mem_append_left _ hlog, hmark⟩
  · rw [exec_now, exec_now] at hrecent
    have hexpiry : a + milliseconds windowSeconds ≤ s.now + (windowSeconds + 1) * 1000 := by
      have hle := hpast a ha
      rw [milliseconds]
      omega
    by_cases hname : member random a = member random s.now
    · refine ⟨_, s.now, hset, decide_eq_true hexpiry, ?_, hpast a ha⟩
      rw [hname]
      exact AList.lookup_insert _
    · obtain ha | ha := List.mem_append.mp ha
      · obtain ⟨z, score, hz, -, hscore, hle⟩ := h.complete a ha hrecent
        refine ⟨_, score, hset, decide_eq_true hexpiry, ?_, hle⟩
        rw [hz]
        exact (AList.lookup_insert_ne hname).trans hscore
      · exact absurd (congrArg (member random) (List.mem_singleton.mp ha)) hname

end Script

section Calls

variable {random key : String} {s : Store} {limit windowSeconds : Nat} {log : List Nat}

theorem luaScript_issues (random k : String) (now window limit windowSeconds : Nat) {k' : String}
    (h : k' ≠ k) :
    (luaScript random k now window limit windowSeconds).Issues (fun c => k' ≠ c.key) := by
  refine ⟨h, fun _ => ⟨h, fun count => ?_⟩⟩
  change (ite _ _ _ : Prog _ _ _).Issues _
  split_ifs
  · exact ⟨h, fun _ => ⟨h, fun _ => trivial⟩⟩
  · trivial

theorem checkRateLimit_now (random key : String) (limit windowSeconds : Nat) (s : Store) :
    (checkRateLimit random key limit windowSeconds s).2.now = s.now := result_now _ s

/-- One call: it is allowed if the marks in the window leave room. -/
theorem checkRateLimit_remembers (limit : Nat)
    (h : Remembers random s ("rate:" ++ key) (milliseconds windowSeconds) log) :
    let room := ((recent (milliseconds windowSeconds) s.now log).map (member random)).dedup.length <
      limit
    ((checkRateLimit random key limit windowSeconds s).1.allowed = true ↔ room) ∧
      Remembers random (checkRateLimit random key limit windowSeconds s).2 ("rate:" ++ key)
        (milliseconds windowSeconds) (if room then log ++ [s.now] else log) := by
  obtain ⟨hleft, hrecent⟩ := h.evict
  have hcount := hleft.zcard (by rwa [exec_now])
  have hadd := hleft.zadd
  rw [exec_now] at hcount hadd
  simp only [checkRateLimit, luaScript_result, hcount]
  split_ifs with hroom
  · exact ⟨iff_of_true (decide_eq_true rfl) hroom, hadd⟩
  · exact ⟨iff_of_false Bool.false_ne_true hroom, hleft⟩

/-- The answers are those of a window that counts marks. -/
theorem results_eq (policy : Policy) (calls : List Call)
    (h : Remembers random s ("rate:" ++ key) (milliseconds (policy key).2) log) :
    results random policy key calls s =
      answers (member random) (milliseconds (policy key).2) (policy key).1 log
        (callTimes key s.now calls) := by
  induction calls generalizing s log with
  | nil => rfl
  | cons call calls ih =>
    obtain ⟨ms, key'⟩ := call
    rw [results, callTimes]
    dsimp only
    by_cases hkey : key' = key
    · subst hkey
      obtain ⟨hallowed, hnext⟩ := checkRateLimit_remembers (policy key').1 (h.wait ms)
      have hrest := ih hnext
      rw [checkRateLimit_now, wait_now] at hrest
      rw [if_pos rfl, if_pos rfl, answers, hrest]
      rw [wait_now] at hallowed
      split_ifs with hroom
      · rw [hallowed.mpr hroom]
      · rw [Bool.eq_false_iff.mpr (mt hallowed.mp hroom)]
    · have hne : "rate:" ++ key ≠ "rate:" ++ key' :=
        fun heq => hkey ((String.append_right_inj _).mp heq).symm
      have hnext := (h.wait ms).congr
        (checkRateLimit_now random key' (policy key').1 (policy key').2 (s.wait ms))
        (result_lookup (luaScript_issues _ _ _ _ _ _ hne) (s.wait ms))
      have hrest := ih hnext
      rw [checkRateLimit_now, wait_now] at hrest
      rw [if_neg hkey, if_neg hkey]
      exact hrest

theorem append_injective (random : String) :
    Function.Injective (fun now : String => now ++ "-" ++ random) := fun _ _ h =>
  (String.append_left_inj _).mp ((String.append_left_inj _).mp h)

end Calls

/-- The limiter answers exactly as a sliding window does if and only if this never refuses a
call because of calls that Lua writes the times of alike. -/
theorem exact_iff_told_apart (random : String) (policy : Policy) (key : String) (now : Nat)
    (calls : List Call) :
    Exact (milliseconds (policy key).2) (policy key).1 []
        (results random policy key calls (.empty now)) ↔
      ToldApart tostring (milliseconds (policy key).2) (policy key).1 []
        (callTimes key now calls) := by
  rw [results_eq policy calls (remembers_empty random now _ _)]
  refine (exact_iff_toldApart _ _ _ (callTimes_sorted key now calls).2).trans ?_
  exact toldApart_comp_iff (append_injective random)

section Milliseconds

variable {width limit : Nat} {log ts : List Nat}

/-- Up to the year 5138 Lua writes down every millisecond. -/
theorem nodup_map_tostring_iff (h : ∀ t ∈ ts, t < 10 ^ 14) : (ts.map tostring).Nodup ↔ ts.Nodup := by
  have hwritten : ts.map tostring = ts.map toString :=
    List.map_congr_left fun t ht => if_pos (h t ht)
  rw [hwritten, List.nodup_map_iff]
  intro m n heq
  have hdigits : Nat.toDigits 10 m = Nat.toDigits 10 n := by
    rw [← Nat.toList_repr, ← Nat.toList_repr]
    exact congrArg String.toList heq
  calc m = Nat.ofDigitChars 10 (Nat.toDigits 10 m) 0 := Nat.ofDigitChars_ten_toDigits.symm
    _ = Nat.ofDigitChars 10 (Nat.toDigits 10 n) 0 := by rw [hdigits]
    _ = n := Nat.ofDigitChars_ten_toDigits

theorem mem_admitted {a : Nat} (h : a ∈ admitted width limit log ts) : a ∈ log ∨ a ∈ ts := by
  induction ts generalizing log with
  | nil => exact .inl h
  | cons t ts ih =>
    obtain ha | ha := ih h
    · rw [record] at ha
      split_ifs at ha
      · obtain ha | ha := List.mem_append.mp ha
        · exact .inl ha
        · exact .inr (List.mem_singleton.mp ha ▸ List.mem_cons_self)
      · exact .inl ha
    · exact .inr (List.mem_cons_of_mem t ha)

/-- Until then it is exact as long as no call is refused because of two in one millisecond. -/
theorem toldApart_tostring_iff (h : ∀ t ∈ ts, t < 10 ^ 14) :
    ToldApart tostring width limit [] ts ↔ ToldApart id width limit [] ts := by
  have hnodup : ∀ before t after, ts = before ++ t :: after →
      (((recent width t (admitted width limit [] before)).map tostring).Nodup ↔
        ((recent width t (admitted width limit [] before)).map id).Nodup) := by
    intro before t after heq
    rw [List.map_id]
    apply nodup_map_tostring_iff
    intro a ha
    obtain ha | ha := mem_admitted (List.mem_of_mem_filter ha)
    · exact absurd ha List.not_mem_nil
    · exact h a (heq ▸ List.mem_append_left _ ha)
  constructor
  · intro htold before t after heq hfull
    exact (hnodup before t after heq).mp (htold before t after heq hfull)
  · intro htold before t after heq hfull
    exact (hnodup before t after heq).mpr (htold before t after heq hfull)

end Milliseconds

section Burst

/-- What the first `math.random()` of a script returns. -/
def firstRandom : String := "0.17082803611217"

/-- Two calls a second. -/
def burstPolicy : Policy := fun _ => (2, 1)

/-- Three calls in one millisecond. -/
def burst : List Call := List.replicate 3 ⟨0, "auth:203.0.113.7"⟩

/-- All of them are allowed. -/
theorem burst_allowed : ¬ Exact (milliseconds (burstPolicy "auth:203.0.113.7").2)
    (burstPolicy "auth:203.0.113.7").1 []
      (results firstRandom burstPolicy "auth:203.0.113.7" burst (.empty 1700000000000)) := by
  have hresults : results firstRandom burstPolicy "auth:203.0.113.7" burst (.empty 1700000000000) =
      [(1700000000000, true), (1700000000000, true), (1700000000000, true)] := by decide +kernel
  intro h
  have hthird := h [(1700000000000, true), (1700000000000, true)] 1700000000000 true [] hresults
  exact absurd (hthird.mp rfl) (by decide)

end Burst

end Mesty.Auth.SlidingWindow
