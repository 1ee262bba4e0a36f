import Mesty.Auth.OtpBudget
import Mesty.Refinement.Potential

namespace Mesty.Auth.OtpGuesses

open Mesty.Redis.Server Mesty.Redis.Server.Store Mesty.Refinement.Lockstep Mesty.Refinement.Potential
open Mesty.Auth.Otp Mesty.Auth.OtpBudget

/-- The submission was compared with a code, and was not the code. -/
def wrongTry : OtpAns → Bool
  | .verified (.ok (.invalid _)) | .verified (.ok .exceeded) => true
  | _ => false

section Tries

variable {now expires : Nat} {a : Entry}

/-- How many wrong tries the counter stands for. -/
def spent (a : Entry) : Nat := if a.value = "1" then 1 else 2

/-- How many wrong codes can still be compared with a code that expires at this time. A counter may
vanish before the code does: one that was started for this code by less than half a second, and
one that is left from an earlier code by any time. -/
def triesLeft (now expires : Nat) : Option Entry → Nat
  | none => if expires - now < 500 then 3 else 5
  | some a =>
    match a.expiry with
    | none => 3 - spent a
    | some t =>
      if expires ≤ t then 3 - spent a else if expires - t < 500 then 5 - spent a else 7 - spent a

theorem spent_cases (a : Entry) : spent a = 1 ∨ spent a = 2 := by
  rw [spent]
  split_ifs
  · exact .inl rfl
  · exact .inr rfl

theorem triesLeft_le (counter : Option Entry) : triesLeft now expires counter ≤ 6 := by
  cases counter with
  | none =>
    rw [triesLeft]
    split_ifs <;> omega
  | some a =>
    obtain h | h := spent_cases a <;> rw [triesLeft] <;> split <;> (try split_ifs) <;> omega

theorem triesLeft_pos (a : Entry) : 0 < triesLeft now expires (some a) := by
  obtain h | h := spent_cases a <;> rw [triesLeft] <;> split <;> (try split_ifs) <;> omega

/-- The second wrong try of a counter. -/
theorem triesLeft_second (h : a.value = "1") :
    1 + triesLeft now expires (some ⟨"2", a.expiry⟩) ≤ triesLeft now expires (some a) := by
  have hone : spent a = 1 := if_pos h
  have htwo : spent ⟨"2", a.expiry⟩ = 2 := rfl
  simp only [triesLeft, hone, htwo]
  split
  · omega
  · split_ifs <;> omega

/-- Time passes, while the code is good. -/
theorem triesLeft_wait {ms : Nat} (hgood : now + ms < expires) (counter : Option Entry) :
    triesLeft (now + ms) expires (counter.filter (Entry.live (now + ms))) ≤
      triesLeft now expires counter := by
  cases counter with
  | none =>
    rw [Option.filter_none, triesLeft, triesLeft]
    split_ifs <;> omega
  | some a =>
    rw [Option.filter_some]
    obtain h | h := spent_cases a
    all_goals
      split_ifs with hlive
      · exact Nat.le_refl _
      · cases hexpiry : a.expiry with
        | none => simp [Entry.live, hexpiry] at hlive
        | some t =>
          simp only [Entry.live, hexpiry, Option.all_some, decide_eq_true_eq] at hlive
          simp only [triesLeft, hexpiry]
          split_ifs <;> omega

end Tries

/-- What the code and its counter still allow. -/
def potential (otpKey : String) (s : Store) : Nat :=
  match (s.lookup otpKey).bind Entry.expiry with
  | none => 0
  | some expires => triesLeft s.now expires (s.lookup (attemptsKey otpKey))

/-- Codes expire, and a counter has counted one or two tries. -/
structure Counting (otpKey : String) (s : Store) : Prop where
  expires : ∀ e, s.lookup otpKey = some e → ∃ t, e.expiry = some t
  low : ∀ a, s.lookup (attemptsKey otpKey) = some a → a.value = "1" ∨ a.value = "2"

section Service

variable {purpose : OtpPurpose} {subject otpKey code : String} {s : Store} {e a : Entry} {expires : Nat}

theorem potential_none (h : s.lookup otpKey = none) : potential otpKey s = 0 := by
  rw [potential, h]
  rfl

theorem potential_some (h : s.lookup otpKey = some e) (he : e.expiry = some expires) :
    potential otpKey s = triesLeft s.now expires (s.lookup (attemptsKey otpKey)) := by
  rw [potential, h, Option.bind_some, he]

theorem potential_le (otpKey : String) (s : Store) : potential otpKey s ≤ 6 := by
  rw [potential]
  split
  · exact Nat.zero_le _
  · exact triesLeft_le _

theorem current_lt_expiry (h : s.lookup otpKey = some e) (he : e.expiry = some expires) :
    s.now < expires := by
  have hlive := lookup_live h
  rwa [Entry.live, he, Option.all_some, decide_eq_true_eq] at hlive

/-- Both keys are taken away. -/
theorem counting_withdraw (otpKey : String) (s : Store) :
    Counting otpKey ((s.put otpKey none).put (attemptsKey otpKey) none) ∧
      potential otpKey ((s.put otpKey none).put (attemptsKey otpKey) none) = 0 := by
  have hcode : ((s.put otpKey none).put (attemptsKey otpKey) none).lookup otpKey = none := by
    rw [lookup_put_of_ne (attemptsKey_ne otpKey).symm, lookup_put_none]
  refine ⟨⟨fun e he => ?_, fun a ha => ?_⟩, potential_none hcode⟩
  · cases hcode.symm.trans he
  · rw [lookup_put_none] at ha
    cases ha

/-- The counter is written. -/
theorem counting_count (hcode : s.lookup otpKey = some e)
    (he : e.expiry = some expires) (hlive : a.live s.now) (ha : a.value = "1" ∨ a.value = "2") :
    Counting otpKey (s.put (attemptsKey otpKey) (some a)) ∧
      potential otpKey (s.put (attemptsKey otpKey) (some a)) = triesLeft s.now expires (some a) := by
  have hkept : (s.put (attemptsKey otpKey) (some a)).lookup otpKey = some e := by
    rw [lookup_put_of_ne (attemptsKey_ne otpKey).symm, hcode]
  have hcounter := lookup_put_live (k := attemptsKey otpKey) hlive
  refine ⟨⟨fun e' he' => ?_, fun a' ha' => ?_⟩, ?_⟩
  · obtain rfl := Option.some.inj (hkept.symm.trans he')
    exact ⟨expires, he⟩
  · obtain rfl := Option.some.inj (hcounter.symm.trans ha')
    exact ha
  · rw [potential_some hkept he, hcounter, put_now]

/-- A counter that is started for a code expires with it, but for the rounding of seconds. -/
theorem firstCount_pays (hcode : s.lookup otpKey = some e) (he : e.expiry = some expires) :
    (firstCount s otpKey).live s.now ∧
      1 + triesLeft s.now expires (some (firstCount s otpKey)) ≤ triesLeft s.now expires none := by
  have httl : s.ttl otpKey = ((expires - s.now + 500) / 1000 : Nat) := by
    rw [ttl, hcode]
    simp only [he, Option.elim_some]
  have hone : spent (firstCount s otpKey) = 1 := rfl
  by_cases hpos : 0 < s.ttl otpKey
  · have hexpiry : (firstCount s otpKey).expiry =
        some (s.now + (expires - s.now + 500) / 1000 * 1000) := by
      rw [firstCount, if_pos hpos, httl, Int.toNat_natCast]
    constructor
    · rw [Entry.live, hexpiry, Option.all_some, decide_eq_true_eq]
      omega
    · simp only [triesLeft, hexpiry, hone]
      split_ifs <;> omega
  · have hexpiry : (firstCount s otpKey).expiry = none := by rw [firstCount, if_neg hpos]
    constructor
    · rw [Entry.live, hexpiry, Option.all_none]
    · simp only [triesLeft, hexpiry, hone]
      split_ifs <;> omega

theorem verify_pays (code : String) (h : Counting (purpose.key subject) s) :
    Counting (purpose.key subject) (service purpose subject (.verify code) s).2 ∧
      (wrongTry (service purpose subject (.verify code) s).1).toNat +
        potential (purpose.key subject) (service purpose subject (.verify code) s).2 ≤
          potential (purpose.key subject) s := by
  obtain hnone | ⟨e, hcode⟩ := Option.eq_none_or_eq_some (s.lookup (purpose.key subject))
  · simp only [service, verifyOtp, verify_missing hnone]
    exact ⟨h, by simp [wrongTry]⟩
  obtain ⟨expires, he⟩ := h.expires e hcode
  obtain ⟨hwithdrawn, hzero⟩ := counting_withdraw (purpose.key subject) s
  by_cases hmatch : e.value = code
  · simp only [service, verifyOtp, verify_matched hcode hmatch]
    exact ⟨hwithdrawn, by simp [wrongTry, hzero]⟩
  rw [potential_some hcode he]
  obtain hcounter | ⟨a, hcounter⟩ :=
    Option.eq_none_or_eq_some (s.lookup (attemptsKey (purpose.key subject)))
  · simp only [service, verifyOtp, verify_first_wrong hcode hmatch hcounter]
    obtain ⟨hlive, hpays⟩ := firstCount_pays hcode he
    obtain ⟨hcounting, heq⟩ := counting_count hcode he hlive (.inl rfl)
    exact ⟨hcounting, by rw [heq, hcounter]; exact hpays⟩
  · have hlive := lookup_live hcounter
    obtain hone | htwo := h.low a hcounter
    · simp only [service, verifyOtp, verify_second_wrong hcode hmatch hcounter hone]
      obtain ⟨hcounting, heq⟩ := counting_count (a := ⟨"2", a.expiry⟩) hcode he hlive (.inr rfl)
      exact ⟨hcounting, by rw [heq, hcounter]; exact triesLeft_second hone⟩
    · simp only [service, verifyOtp, verify_third_wrong hcode hmatch hcounter htwo]
      rw [hzero, hcounter]
      exact ⟨hwithdrawn, triesLeft_pos a⟩

theorem wait_pays (ms : Nat) (h : Counting otpKey s) :
    Counting otpKey (s.wait ms) ∧ potential otpKey (s.wait ms) ≤ potential otpKey s := by
  refine ⟨⟨fun e he => h.expires e (lookup_of_wait he), fun a ha => h.low a (lookup_of_wait ha)⟩, ?_⟩
  obtain hnone | ⟨e, hcode⟩ := Option.eq_none_or_eq_some ((s.wait ms).lookup otpKey)
  · rw [potential_none hnone]
    exact Nat.zero_le _
  · have hbefore := lookup_of_wait hcode
    obtain ⟨expires, he⟩ := h.expires e hbefore
    rw [potential_some hcode he, potential_some hbefore he, lookup_wait]
    exact triesLeft_wait (current_lt_expiry hcode he) _

theorem counting_service (purpose : OtpPurpose) (op : OtpOp) (h : Counting (purpose.key subject) s) :
    Counting (purpose.key subject) (service purpose subject op s).2 := by
  cases op with
  | verify code => exact (verify_pays code h).1
  | wait ms => exact (wait_pays ms h).1
  | store code =>
    simp only [service, exec_storeOtp]
    refine ⟨fun e he => ?_, fun a ha => ?_⟩
    · rw [lookup_put_self, Option.filter_eq_some_iff] at he
      obtain rfl := Option.some.inj he.1
      exact ⟨_, rfl⟩
    · rw [lookup_put_of_ne (attemptsKey_ne _)] at ha
      exact h.low a ha

end Service

/-- Whatever has been issued, tried and waited for before, at most six wrong submissions are
compared with a code until another one is issued for the same purpose and subject. -/
theorem wrong_tries_le (purpose : OtpPurpose) (subject : String) (s : Store)
    (hcode : s.lookup (purpose.key subject) = none)
    (hcount : s.lookup (attemptsKey (purpose.key subject)) = none) (ops guesses : List OtpOp)
    (hguesses : ∀ op ∈ guesses, ∀ code, op ≠ .store code) :
    (outputs (service purpose subject) guesses
      (final (service purpose subject) ops s)).countP wrongTry ≤ 6 := by
  have hstart : Counting (purpose.key subject) s :=
    ⟨fun _ he => (nomatch hcode.symm.trans he), fun _ ha => (nomatch hcount.symm.trans ha)⟩
  have hcounting := final_keeps (fun op s h => counting_service purpose op h) ops hstart
  refine (countP_outputs_le (J := Counting (purpose.key subject)) (fun op s hop h => ?_) guesses
    hguesses hcounting).trans (potential_le (purpose.key subject) _)
  cases op with
  | store code => exact absurd rfl (hop code)
  | verify code => exact verify_pays code h
  | wait ms =>
    obtain ⟨hcounting, hle⟩ := wait_pays ms h
    exact ⟨hcounting, by simpa [service, wrongTry] using hle⟩

/-- The new code comes while the counter of the old one is on its first try, and both that counter
and the next one vanish before it. -/
def patientGuesses : List OtpOp :=
  [.verify "000000", .wait 299800, .verify "000000", .verify "000000", .wait 300000,
    .verify "000000", .verify "000000", .verify "000000", .verify "222222"]

theorem six_wrong_tries :
    let service := service .login "+573001234567"
    let s := final service [.store "111111", .verify "000000", .wait 300200, .store "222222"] (.empty 0)
    (outputs service patientGuesses s).countP wrongTry = 6 ∧
      (outputs service patientGuesses s).countP wrongTry ≤ 6 :=
  ⟨by decide +kernel, wrong_tries_le .login "+573001234567" (.empty 0) rfl rfl _ patientGuesses
    (by simp [patientGuesses])⟩

end Mesty.Auth.OtpGuesses
