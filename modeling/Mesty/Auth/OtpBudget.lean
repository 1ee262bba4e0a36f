import Mesty.Auth.Otp
import Mesty.Refinement.Lockstep

namespace Mesty.Auth.OtpBudget

open Mesty.Redis.Server Mesty.Redis.Server.Store Mesty.Refinement.Lockstep Mesty.Auth.Otp

inductive OtpOp where
  | store (code : String)
  | verify (submittedCode : String)
  | wait (ms : Nat)

inductive OtpAns where
  | stored (result : Except RedisError Unit)
  | verified (result : Except RedisError OtpVerifyResult)
  | waited
  deriving DecidableEq

/-- The OTP service on one of its keys. -/
def service (purpose : OtpPurpose) (subject : String) : Machine OtpOp OtpAns Store
  | .store code, s =>
    let out := exec (storeOtp purpose subject code) s
    (.stored out.1, out.2)
  | .verify submittedCode, s =>
    let out := verifyOtp purpose subject submittedCode s
    (.verified out.1, out.2)
  | .wait ms, s => (.waited, s.wait ms)

/-- A code that was sent out, with the number of wrong tries made on it. -/
structure Issued where
  code : String
  expires : Nat
  wrong : Nat

structure Budget where
  now : Nat
  issued : Option Issued

namespace Budget

def current (b : Budget) : Option Issued := b.issued.filter (fun i => b.now < i.expires)

/-- What a verification is for: a code is good until it expires, it is used up
by the right submission, and the third wrong one withdraws it. -/
def step : Machine OtpOp OtpAns Budget
  | .store code, b =>
    (.stored (.ok ()), { b with issued := some ⟨code, b.now + otpTtl * 1000, 0⟩ })
  | .verify submittedCode, b =>
    match b.current with
    | none => (.verified (.ok .notFound), b)
    | some i =>
      if i.code = submittedCode then (.verified (.ok .matched), { b with issued := none })
      else match i.wrong with
      | 0 => (.verified (.ok (.invalid 2)), { b with issued := some { i with wrong := 1 } })
      | 1 => (.verified (.ok (.invalid 1)), { b with issued := some { i with wrong := 2 } })
      | _ => (.verified (.ok .exceeded), { b with issued := none })
  | .wait ms, b => (.waited, { b with now := b.now + ms })

end Budget

/-- When a wrong code is submitted, there is a counter exactly if a wrong code
was already submitted for the current code. -/
def CountedPerCode (otpKey : String) (op : OtpOp) (s : Store) (b : Budget) : Prop :=
  ∀ submittedCode i, op = .verify submittedCode → b.current = some i → i.code ≠ submittedCode →
    ((s.lookup (attemptsKey otpKey)).isSome ↔ 0 < i.wrong)

/-- The store holds the current code, and a counter that is right where there should be one. -/
structure Tracks (otpKey : String) (s : Store) (b : Budget) : Prop where
  now : s.now = b.now
  code : s.lookup otpKey = b.current.map (fun i => ⟨i.code, some i.expires⟩)
  low : ∀ e, s.lookup (attemptsKey otpKey) = some e → e.value = "1" ∨ e.value = "2"
  wrong : ∀ i, b.current = some i → i.wrong ≤ 2 ∧ (0 < i.wrong →
    ∀ e, s.lookup (attemptsKey otpKey) = some e → e.value = toString i.wrong)

variable {purpose : OtpPurpose} {subject : String} {s : Store} {b : Budget} {i : Issued}

theorem Tracks.lookup_code {otpKey : String} (h : Tracks otpKey s b) (hi : b.current = some i) :
    s.lookup otpKey = some ⟨i.code, some i.expires⟩ := by
  rw [h.code, hi, Option.map_some]

theorem current_lt (hi : b.current = some i) : b.now < i.expires := by
  simp only [Budget.current, Option.filter_eq_some_iff, decide_eq_true_eq] at hi
  exact hi.2

/-- Both sides take the code away. -/
theorem Tracks.withdraw {otpKey : String} (h : Tracks otpKey s b) :
    Tracks otpKey ((s.put otpKey none).put (attemptsKey otpKey) none) { b with issued := none } where
  now := h.now
  code := by
    rw [lookup_put_of_ne (attemptsKey_ne otpKey).symm]
    simp [Budget.current]
  low e he := by simp at he
  wrong i hi := by simp [Budget.current] at hi

/-- Both sides count a wrong submission. -/
theorem Tracks.count {otpKey : String} (h : Tracks otpKey s b) (hi : b.current = some i)
    {n : Nat} (hn : n + 1 ≤ 2) {e : Entry} (he : e.value = toString (n + 1)) :
    Tracks otpKey (s.put (attemptsKey otpKey) (some e))
      { b with issued := some { i with wrong := n + 1 } } where
  now := h.now
  code := by
    have hcur : (⟨b.now, some { i with wrong := n + 1 }⟩ : Budget).current =
        some { i with wrong := n + 1 } := by simp [Budget.current, current_lt hi]
    rw [lookup_put_of_ne (attemptsKey_ne otpKey).symm, h.lookup_code hi, hcur]
    rfl
  low e' he' := by
    simp only [lookup_put_self, Option.filter_eq_some_iff, Option.some.injEq] at he'
    obtain rfl := he'.1
    obtain rfl | rfl : n = 0 ∨ n = 1 := by omega
    · exact .inl he
    · exact .inr he
  wrong j hj := by
    simp only [Budget.current, Option.filter_eq_some_iff, Option.some.injEq] at hj
    obtain rfl := hj.1
    refine ⟨hn, fun _ e' he' => ?_⟩
    simp only [lookup_put_self, Option.filter_eq_some_iff, Option.some.injEq] at he'
    rw [← he'.1, he]

theorem Tracks.wait {otpKey : String} (h : Tracks otpKey s b) (ms : Nat) :
    Tracks otpKey (s.wait ms) { b with now := b.now + ms } where
  now := congrArg (· + ms) h.now
  code := by
    rw [lookup_wait, h.code, h.now]
    cases hb : b.issued with
    | none => simp [Budget.current, hb]
    | some i =>
      by_cases hlt : b.now < i.expires
      · by_cases hlt' : b.now + ms < i.expires <;>
          simp [Budget.current, hb, hlt, hlt', Option.filter_some, Entry.live]
      · have hlt' : ¬ b.now + ms < i.expires := by omega
        simp [Budget.current, hb, hlt, hlt', Option.filter_some]
  low e he := h.low e (lookup_of_wait he)
  wrong i hi := by
    have hb : b.current = some i := by
      simp only [Budget.current, Option.filter_eq_some_iff, decide_eq_true_eq] at hi ⊢
      exact ⟨hi.1, by omega⟩
    exact ⟨(h.wrong i hb).1, fun hpos e he => (h.wrong i hb).2 hpos e (lookup_of_wait he)⟩

/-- Both sides have a new code. The counter stays. -/
theorem Tracks.store {otpKey : String} (h : Tracks otpKey s b) (code : String) {expires : Nat}
    (hlt : b.now < expires) :
    Tracks otpKey (s.put otpKey (some ⟨code, some expires⟩))
      { b with issued := some ⟨code, expires, 0⟩ } where
  now := h.now
  code := by
    have hlive : (⟨code, some expires⟩ : Entry).live s.now := by simpa [Entry.live, h.now] using hlt
    rw [lookup_put_live hlive]
    simp [Budget.current, hlt, Option.filter_some]
  low e he := by
    rw [lookup_put_of_ne (attemptsKey_ne otpKey)] at he
    exact h.low e he
  wrong i hi := by
    simp only [Budget.current, Option.filter_eq_some_iff, Option.some.injEq] at hi
    obtain rfl := hi.1
    simp

/-- The budget of the current code after a wrong submission. -/
theorem step_wrong (hi : b.current = some i) {code : String} (hcode : i.code ≠ code) :
    Budget.step (.verify code) b = match i.wrong with
      | 0 => (.verified (.ok (.invalid 2)), { b with issued := some { i with wrong := 1 } })
      | 1 => (.verified (.ok (.invalid 1)), { b with issued := some { i with wrong := 2 } })
      | _ => (.verified (.ok .exceeded), { b with issued := none }) := by
  simp only [Budget.step, hi, hcode, if_false]

/-- The counter is right: so are the answer and the new state. -/
theorem Tracks.wrong_counted (h : Tracks (purpose.key subject) s b) (hi : b.current = some i)
    {code : String} (hcode : i.code ≠ code)
    (hcount : (s.lookup (attemptsKey (purpose.key subject))).isSome ↔ 0 < i.wrong) :
    (service purpose subject (.verify code) s).1 = (Budget.step (.verify code) b).1 ∧
      Tracks (purpose.key subject) (service purpose subject (.verify code) s).2
        (Budget.step (.verify code) b).2 := by
  have hlookup := h.lookup_code hi
  obtain ⟨hle, hval⟩ := h.wrong i hi
  rw [step_wrong hi hcode]
  obtain hw | hw | hw : i.wrong = 0 ∨ i.wrong = 1 ∨ i.wrong = 2 := by omega
  · have hnone : s.lookup (attemptsKey (purpose.key subject)) = none := by simpa [hw] using hcount
    simp only [service, verifyOtp, verify_first_wrong hlookup hcode hnone, hw, true_and]
    exact h.count (n := 0) hi (by decide) rfl
  · obtain ⟨e, he⟩ := Option.isSome_iff_exists.mp (hcount.mpr (by omega))
    have hone : e.value = "1" := by rw [hval (by omega) e he, hw]; rfl
    simp only [service, verifyOtp, verify_second_wrong hlookup hcode he hone, hw, true_and]
    exact h.count (n := 1) hi (by decide) rfl
  · obtain ⟨e, he⟩ := Option.isSome_iff_exists.mp (hcount.mpr (by omega))
    have htwo : e.value = "2" := by rw [hval (by omega) e he, hw]; rfl
    simp only [service, verifyOtp, verify_third_wrong hlookup hcode he htwo, hw, true_and]
    exact h.withdraw

/-- The counter is missing, or it is left from an earlier code: the answer is wrong. -/
theorem Tracks.wrong_miscounted (h : Tracks (purpose.key subject) s b) (hi : b.current = some i)
    {code : String} (hcode : i.code ≠ code)
    (hcount : ¬ ((s.lookup (attemptsKey (purpose.key subject))).isSome ↔ 0 < i.wrong)) :
    (service purpose subject (.verify code) s).1 ≠ (Budget.step (.verify code) b).1 := by
  have hlookup := h.lookup_code hi
  rw [step_wrong hi hcode]
  cases hA : s.lookup (attemptsKey (purpose.key subject)) with
  | none =>
    simp only [service, verifyOtp, verify_first_wrong hlookup hcode hA]
    obtain ⟨hle, -⟩ := h.wrong i hi
    obtain hw | hw : i.wrong = 1 ∨ i.wrong = 2 := by
      simp only [hA, Option.isSome_none, Bool.false_eq_true, false_iff, not_not] at hcount
      omega
    all_goals simp [hw]
  | some e =>
    have hw : i.wrong = 0 := by
      simp only [hA, Option.isSome_some, true_iff] at hcount
      omega
    simp only [hw]
    rcases h.low e hA with hone | htwo
    · simp [service, verifyOtp, verify_second_wrong hlookup hcode hA hone]
    · simp [service, verifyOtp, verify_third_wrong hlookup hcode hA htwo]

theorem Tracks.agree (h : Tracks (purpose.key subject) s b) (op : OtpOp) :
    CountedPerCode (purpose.key subject) op s b ↔
      (service purpose subject op s).1 = (Budget.step op b).1 := by
  cases op with
  | store code => simp [CountedPerCode, service, Budget.step, exec_storeOtp]
  | wait ms => simp [CountedPerCode, service, Budget.step]
  | verify code =>
    cases hi : b.current with
    | none =>
      have hnone : s.lookup (purpose.key subject) = none := by rw [h.code, hi, Option.map_none]
      simp [CountedPerCode, service, verifyOtp, verify_missing hnone, Budget.step, hi]
    | some i =>
      by_cases hcode : i.code = code
      · simp [CountedPerCode, service, verifyOtp, verify_matched (h.lookup_code hi) hcode,
          Budget.step, hi, hcode]
      · constructor
        · exact fun hp => (h.wrong_counted hi hcode (hp code i rfl hi hcode)).1
        · intro heq code' j hop hj _
          obtain rfl := OtpOp.verify.inj hop
          obtain rfl := Option.some.inj (hi.symm.trans hj)
          by_contra hcount
          exact h.wrong_miscounted hi hcode hcount heq

theorem Tracks.next (h : Tracks (purpose.key subject) s b) (op : OtpOp)
    (hp : CountedPerCode (purpose.key subject) op s b) :
    Tracks (purpose.key subject) (service purpose subject op s).2 (Budget.step op b).2 := by
  cases op with
  | store code =>
    rw [service, exec_storeOtp, h.now]
    exact h.store code (Nat.lt_add_of_pos_right (Nat.mul_pos otpTtl_pos (by decide)))
  | wait ms => exact h.wait ms
  | verify code =>
    cases hi : b.current with
    | none =>
      have hnone : s.lookup (purpose.key subject) = none := by rw [h.code, hi, Option.map_none]
      simpa [service, verifyOtp, verify_missing hnone, Budget.step, hi] using h
    | some i =>
      by_cases hcode : i.code = code
      · simpa [service, verifyOtp, verify_matched (h.lookup_code hi) hcode, Budget.step, hi, hcode]
          using h.withdraw
      · exact (h.wrong_counted hi hcode (hp code i rfl hi hcode)).2

/-- The answers are those of a budget per code exactly if every wrong submission
meets the counter of the current code. -/
theorem budget_per_code_iff (purpose : OtpPurpose) (subject : String) (ops : List OtpOp)
    (s : Store) (hcode : s.lookup (purpose.key subject) = none)
    (hcount : s.lookup (attemptsKey (purpose.key subject)) = none) :
    Along (CountedPerCode (purpose.key subject)) (service purpose subject) Budget.step ops s
        ⟨s.now, none⟩ ↔
      outputs (service purpose subject) ops s = outputs Budget.step ops ⟨s.now, none⟩ := by
  have hstart : Tracks (purpose.key subject) s ⟨s.now, none⟩ :=
    ⟨rfl, hcode, by simp [hcount], by simp [Budget.current]⟩
  exact along_iff_outputs_eq (R := Tracks (purpose.key subject)) (fun op _ _ h => h.agree op)
    (fun op _ _ h hp => h.next op hp) ops hstart

theorem three_tries_counted :
    Along (CountedPerCode (OtpPurpose.login.key "+573001234567"))
      (service .login "+573001234567") Budget.step
      [.store "111111", .verify "000000", .wait 1000, .verify "000000", .verify "000000",
        .verify "111111"] (Store.empty 0) ⟨0, none⟩ :=
  (budget_per_code_iff .login "+573001234567" _ (Store.empty 0) rfl rfl).mpr (by decide +kernel)

/-- A new code starts with the counter of the old one. -/
theorem old_counter_kept :
    let ops := [.store "111111", .verify "000000", .store "222222", .verify "000000"]
    (outputs (service .login "+573001234567") ops (Store.empty 0)).getLast? =
        some (.verified (.ok (.invalid 1))) ∧
      (outputs Budget.step ops ⟨0, none⟩).getLast? = some (.verified (.ok (.invalid 2))) := by
  decide +kernel

end Mesty.Auth.OtpBudget
