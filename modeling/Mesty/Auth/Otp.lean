import Mesty.Redis.Server

namespace Mesty.Auth.Otp

open Mesty.Concurrency.Program Mesty.Redis.Server Mesty.Redis.Server.Store

inductive OtpVerifyResult where
  | matched
  | invalid (remaining : Nat)
  | exceeded
  | notFound
  deriving DecidableEq

/-- What the router passes to `OtpService::new`. -/
def otpTtl : Nat := 600

theorem otpTtl_pos : 0 < otpTtl := by decide

inductive OtpPurpose where
  | register
  | login
  | recover
  | twoFaSetup
  | twoFaLogin
  deriving DecidableEq

def OtpPurpose.key : OtpPurpose → (subject : String) → String
  | register, phone => "otp:register:" ++ phone
  | login, phone => "otp:login:" ++ phone
  | recover, phone => "otp:recover:" ++ phone
  | twoFaSetup, userId => "otp:2fa:setup:" ++ userId
  | twoFaLogin, userId => "otp:2fa:login:" ++ userId

def attemptsKey (otpKey : String) : String := otpKey ++ ":attempts"

namespace OtpPurpose

theorem key_toList (purpose : OtpPurpose) (p : String) :
    (purpose.key p).toList = (purpose.key "").toList ++ p.toList := by
  cases purpose <;> exact String.toList_append

theorem eq_of_isPrefix {purpose purpose' : OtpPurpose}
    (h : (purpose.key "").toList <+: (purpose'.key "").toList) : purpose = purpose' := by
  revert h
  cases purpose <;> cases purpose' <;> decide +kernel

theorem key_inj {purpose purpose' : OtpPurpose} {p q : String} :
    purpose.key p = purpose'.key q ↔ purpose = purpose' ∧ p = q := by
  refine ⟨fun h => ?_, fun ⟨hpurpose, hpq⟩ => hpurpose ▸ hpq ▸ rfl⟩
  rw [← String.toList_inj, key_toList, key_toList purpose'] at h
  have hpurpose : purpose = purpose' := by
    rcases List.prefix_or_prefix_of_prefix (List.prefix_append _ _) (h ▸ List.prefix_append _ _)
      with hpre | hpre
    · exact (eq_of_isPrefix hpre).symm
    · exact eq_of_isPrefix hpre
  subst hpurpose
  exact ⟨rfl, String.toList_inj.mp (List.append_cancel_left h)⟩

theorem key_ne {purpose : OtpPurpose} {p s : String} (h : s.toList.head? ≠ some 'o') :
    purpose.key p ≠ s := by
  rintro rfl
  rw [key_toList] at h
  cases purpose <;> exact h rfl

/-- The counter of a subject is where the code of a longer subject would be. -/
theorem attemptsKey_key (purpose : OtpPurpose) (p : String) :
    attemptsKey (purpose.key p) = purpose.key (p ++ ":attempts") := by
  cases purpose <;> exact String.append_assoc

end OtpPurpose

/-- `format!("{:06}", code)` of a random number. -/
def generate (random : UInt32) : String :=
  let digits := toString (random.toNat % 1000000)
  String.ofList (List.replicate (6 - digits.length) '0') ++ digits

abbrev storeOtp (purpose : OtpPurpose) (subject code : String) : RedisCmd :=
  .setEx (purpose.key subject) code otpTtl

theorem exec_storeOtp (purpose : OtpPurpose) (subject code : String) (s : Store) :
    exec (storeOtp purpose subject code) s =
      (.ok (), s.put (purpose.key subject) (some ⟨code, some (s.now + otpTtl * 1000)⟩)) := by
  rw [exec, if_neg (Nat.pos_iff_ne_zero.mp otpTtl_pos)]

abbrev storeRegisterOtp := storeOtp .register

abbrev storeLoginOtp := storeOtp .login

abbrev storeRecoverOtp := storeOtp .recover

abbrev storeTwoFaSetupOtp := storeOtp .twoFaSetup

abbrev storeTwoFaLoginOtp := storeOtp .twoFaLogin

open Script in
/-- The Lua script of `verify_otp_with_limit`. -/
def verifyScript (otpKey attemptsKey submittedCode : String) (maxAttempts : Int) :
    Script (Int × Int) := do
  match ← get otpKey with
  | none => return (-1, 0)
  | some stored =>
    if stored = submittedCode then
      let _ ← del otpKey
      let _ ← del attemptsKey
      return (1, 0)
    let attempts ← incr attemptsKey
    if attempts = 1 then
      let ttl ← ttl otpKey
      if ttl > 0 then
        let _ ← expire attemptsKey ttl
    if attempts ≥ maxAttempts then
      let _ ← del otpKey
      let _ ← del attemptsKey
      return (-2, 0)
    return (0, maxAttempts - attempts)

def readResult : Int × Int → OtpVerifyResult
  | (1, _) => .matched
  | (0, remaining) => .invalid remaining.toNat
  | (-2, _) => .exceeded
  | _ => .notFound

def verifyOtpWithLimit (otpKey submittedCode : String) (maxAttempts : Nat) (s : Store) :
    Except RedisError OtpVerifyResult × Store :=
  let out := (verifyScript otpKey (attemptsKey otpKey) submittedCode maxAttempts).eval s
  (out.1.map readResult, out.2)

def verifyOtp (purpose : OtpPurpose) (subject code : String) :
    Store → Except RedisError OtpVerifyResult × Store :=
  verifyOtpWithLimit (purpose.key subject) code 3

theorem verifyScript_issues (otpKey attemptsKey submittedCode : String) (maxAttempts : Int) :
    (verifyScript otpKey attemptsKey submittedCode maxAttempts).run.Issues (fun c =>
      (c.key = some otpKey ∨ c.key = some attemptsKey) ∧
        (c.writes = none ∨ c.writes = some attemptsKey)) := by
  refine Script.issues_lift_bind.mpr ⟨⟨.inl rfl, .inl rfl⟩, fun stored => ?_⟩
  split
  · trivial
  split
  · exact ⟨⟨.inl rfl, .inl rfl⟩, fun _ => ⟨⟨.inr rfl, .inl rfl⟩, fun _ => trivial⟩⟩
  refine Script.issues_incr_bind.mpr ⟨⟨.inr rfl, .inr rfl⟩, fun attempts => ?_⟩
  have hend : (if attempts ≥ maxAttempts then do
      let _ ← Script.del otpKey
      let _ ← Script.del attemptsKey
      return (-2, 0)
    else return (0, maxAttempts - attempts) : Script (Int × Int)).run.Issues (fun c =>
      (c.key = some otpKey ∨ c.key = some attemptsKey) ∧
        (c.writes = none ∨ c.writes = some attemptsKey)) := by
    split
    · exact ⟨⟨.inl rfl, .inl rfl⟩, fun _ => ⟨⟨.inr rfl, .inl rfl⟩, fun _ => trivial⟩⟩
    · trivial
  dsimp only
  split
  · refine Script.issues_lift_bind.mpr ⟨⟨.inl rfl, .inl rfl⟩, fun ttl => ?_⟩
    split
    · exact Script.issues_lift_bind.mpr ⟨⟨.inr rfl, .inl rfl⟩, fun _ => hend⟩
    · exact hend
  · exact hend

section Verify

variable {otpKey code : String} {maxAttempts : Nat} {s : Store} {e a : Entry}

theorem attemptsKey_ne (otpKey : String) : attemptsKey otpKey ≠ otpKey := by
  intro h
  have hlen := congrArg String.length h
  simp [attemptsKey] at hlen

theorem verify_missing (h : s.lookup otpKey = none) :
    verifyOtpWithLimit otpKey code maxAttempts s = (.ok .notFound, s) := by
  simp [verifyOtpWithLimit, verifyScript, Script.eval_bind, h, readResult, Except.map]

theorem verify_matched (h : s.lookup otpKey = some e) (hcode : e.value = code) :
    verifyOtpWithLimit otpKey code maxAttempts s =
      (.ok .matched, (s.put otpKey none).put (attemptsKey otpKey) none) := by
  simp [verifyOtpWithLimit, verifyScript, Script.eval_bind, Script.eval_map, h, hcode, readResult,
    Except.map]

/-- The counter after the first wrong code. It lives as many seconds as the code,
and forever when less than half a second is left. -/
def firstCount (s : Store) (otpKey : String) : Entry :=
  ⟨"1", if 0 < s.ttl otpKey then some (s.now + (s.ttl otpKey).toNat * 1000) else none⟩

theorem verify_first_wrong (h : s.lookup otpKey = some e) (hcode : e.value ≠ code)
    (hcount : s.lookup (attemptsKey otpKey) = none) :
    verifyOtpWithLimit otpKey code 3 s =
      (.ok (.invalid 2), s.put (attemptsKey otpKey) (some (firstCount s otpKey))) := by
  have hincr := incr_none hcount
  have hone : (s.put (attemptsKey otpKey) (some ⟨"1", none⟩)).lookup (attemptsKey otpKey) =
      some ⟨"1", none⟩ := lookup_put_live rfl
  have httl := ttl_put_of_ne (s := s) (e := some ⟨"1", none⟩) (attemptsKey_ne otpKey).symm
  by_cases hpos : 0 < s.ttl otpKey
  · simp [verifyOtpWithLimit, verifyScript, Script.eval_bind, Script.eval_map, h, hcode, hincr,
      httl, hpos, readResult, Except.map, expire_of_lookup hone, firstCount]
  · simp [verifyOtpWithLimit, verifyScript, Script.eval_bind, h, hcode, hincr, httl, hpos,
      readResult, Except.map, firstCount]

theorem verify_second_wrong (h : s.lookup otpKey = some e) (hcode : e.value ≠ code)
    (hcount : s.lookup (attemptsKey otpKey) = some a) (ha : a.value = "1") :
    verifyOtpWithLimit otpKey code 3 s =
      (.ok (.invalid 1), s.put (attemptsKey otpKey) (some ⟨"2", a.expiry⟩)) := by
  have hincr := incr_of_lookup (n := 1) hcount ha (by decide)
  simp [verifyOtpWithLimit, verifyScript, Script.eval_bind, h, hcode, hincr, readResult,
    Except.map]
  rfl

theorem verify_third_wrong (h : s.lookup otpKey = some e) (hcode : e.value ≠ code)
    (hcount : s.lookup (attemptsKey otpKey) = some a) (ha : a.value = "2") :
    verifyOtpWithLimit otpKey code 3 s =
      (.ok .exceeded, (s.put otpKey none).put (attemptsKey otpKey) none) := by
  have hincr := incr_of_lookup (n := 2) hcount ha (by decide)
  simp [verifyOtpWithLimit, verifyScript, Script.eval_bind, Script.eval_map, h, hcode, hincr,
    readResult, Except.map, put_comm (attemptsKey_ne otpKey)]

/-- The counter after a wrong code. -/
def counter (s : Store) (otpKey : String) : Except RedisError (Int × Entry) :=
  (incremented (s.lookup (attemptsKey otpKey))).map (fun out =>
    (out.1, if out.1 = 1 ∧ 0 < s.ttl otpKey then
      { out.2 with expiry := some (s.now + (s.ttl otpKey).toNat * 1000) } else out.2))

theorem verify_wrong (h : s.lookup otpKey = some e) (hcode : e.value ≠ code) :
    verifyOtpWithLimit otpKey code 3 s = match counter s otpKey with
      | .error err => (.error err, s)
      | .ok (n, c) =>
        if 3 ≤ n then (.ok .exceeded, (s.put otpKey none).put (attemptsKey otpKey) none)
        else (.ok (.invalid (3 - n).toNat), s.put (attemptsKey otpKey) (some c)) := by
  have hne := attemptsKey_ne otpKey
  cases hincr : incremented (s.lookup (attemptsKey otpKey)) with
  | error err =>
    simp [verifyOtpWithLimit, verifyScript, Script.eval_bind, h, hcode, incr, hincr, counter,
      Except.map]
  | ok out =>
    obtain ⟨n, c⟩ := out
    have hlive := lookup_put_live (k := attemptsKey otpKey) (live_of_incremented hincr)
    have httl := ttl_put_of_ne (s := s) (e := some c) hne.symm
    by_cases hfirst : n = 1
    · subst hfirst
      by_cases hpos : 0 < s.ttl otpKey
      · simp [verifyOtpWithLimit, verifyScript, Script.eval_bind, Script.eval_map, h, hcode, incr,
          hincr, counter, httl, hpos, readResult, Except.map, expire_of_lookup hlive]
      · simp [verifyOtpWithLimit, verifyScript, Script.eval_bind, h, hcode, incr, hincr, counter,
          httl, hpos, readResult, Except.map]
    · by_cases hmax : 3 ≤ n
      · simp [verifyOtpWithLimit, verifyScript, Script.eval_bind, Script.eval_map, h, hcode, incr,
          hincr, counter, hfirst, hmax, readResult, Except.map, put_comm hne]
      · simp [verifyOtpWithLimit, verifyScript, Script.eval_bind, h, hcode, incr,
          hincr, counter, hfirst, hmax, readResult, Except.map]

/-- A code that has matched was the stored one. -/
theorem code_of_matched
    (h : (verifyOtpWithLimit otpKey code maxAttempts s).1 = .ok .matched) :
    ∃ e, s.lookup otpKey = some e ∧ e.value = code := by
  cases hl : s.lookup otpKey with
  | none =>
    rw [verify_missing hl] at h
    cases h
  | some e =>
    refine ⟨e, rfl, ?_⟩
    by_contra hne
    simp only [verifyOtpWithLimit, verifyScript, Script.eval_bind, Script.eval_get, hl,
      Option.map_some, hne, if_false, Script.eval_incr] at h
    generalize s.incr (attemptsKey otpKey) = counted at h
    obtain ⟨error | attempts, s'⟩ := counted
    · cases h
    · have hend : ∀ s, ((if attempts ≥ maxAttempts then do
          let _ ← Script.del otpKey
          let _ ← Script.del (attemptsKey otpKey)
          return (-2, 0)
        else return (0, maxAttempts - attempts) : Script (Int × Int)).eval s).1.map readResult ≠
          .ok .matched := by
        intro s
        split
        · exact nofun
        · exact nofun
      simp only at h
      split at h
      · simp only [Script.eval_bind, Script.eval_ttl] at h
        split at h
        · exact hend _ h
        · exact hend _ h
      · exact hend _ h

end Verify

open Script in
/-- The Lua script of `check_rate_limit`. -/
def rateLimitScript (rateKey : String) (window : Nat) : Script Int := do
  let count ← incr rateKey
  if count = 1 then
    let _ ← expire rateKey window
  return count

def checkRateLimit (key : String) (limit window : Nat) (s : Store) :
    Except RedisError Bool × Store :=
  let out := (rateLimitScript ("rate:" ++ key) window).eval s
  (out.1.map (fun count : Int => decide (count.toNat ≤ limit)), out.2)

theorem rateLimitScript_issues (rateKey : String) (window : Nat) :
    (rateLimitScript rateKey window).run.Issues (fun c => c.key = some rateKey) := by
  refine Script.issues_incr_bind.mpr ⟨rfl, fun count => ?_⟩
  dsimp only
  split
  · exact Script.issues_lift_bind.mpr ⟨rfl, fun _ => trivial⟩
  · trivial

section Frame

variable {key : String} {s : Store} {e : Entry}

theorem verifyOtpWithLimit_put {otpKey : String} (hcode : key ≠ otpKey)
    (hcount : key ≠ attemptsKey otpKey) (code : String) (maxAttempts : Nat) (s : Store)
    (e : Option Entry) :
    verifyOtpWithLimit otpKey code maxAttempts (s.put key e) =
      ((verifyOtpWithLimit otpKey code maxAttempts s).1,
        (verifyOtpWithLimit otpKey code maxAttempts s).2.put key e) := by
  have hissues := (verifyScript_issues otpKey (attemptsKey otpKey) code maxAttempts).mono
    (Q := fun c => c.key ≠ some key) (by
      rintro c ⟨hk | hk, -⟩ hkey
      · exact hcode (Option.some.inj (hkey.symm.trans hk))
      · exact hcount (Option.some.inj (hkey.symm.trans hk)))
  simp only [verifyOtpWithLimit, Script.eval, result_put hissues]

/-- The script stores no value but the counter. -/
theorem verifyOtpWithLimit_value {otpKey code : String} {maxAttempts : Nat}
    (hcount : key ≠ attemptsKey otpKey)
    (he : (verifyOtpWithLimit otpKey code maxAttempts s).2.lookup key = some e) :
    ∃ old, s.lookup key = some old ∧ old.value = e.value := by
  have hissues := (verifyScript_issues otpKey (attemptsKey otpKey) code maxAttempts).mono
    (Q := fun c => c.writes ≠ some key) (by
      rintro c ⟨-, hw | hw⟩ hkey
      · cases hw.symm.trans hkey
      · exact hcount (Option.some.inj (hkey.symm.trans hw)))
  exact result_value hissues he

theorem rateLimitScript_keeps {rateKey : String} (hkey : key ≠ rateKey) (window : Nat) :
    (rateLimitScript rateKey window).run.Issues (fun c : RedisCmd => c.key ≠ some key) :=
  (rateLimitScript_issues rateKey window).mono (Q := fun c : RedisCmd => c.key ≠ some key)
    (fun _ hc h => hkey (Option.some.inj (h.symm.trans hc)))

theorem checkRateLimit_put {rateKey : String} (hkey : key ≠ "rate:" ++ rateKey)
    (limit window : Nat) (s : Store) (e : Option Entry) :
    checkRateLimit rateKey limit window (s.put key e) =
      ((checkRateLimit rateKey limit window s).1,
        (checkRateLimit rateKey limit window s).2.put key e) := by
  simp only [checkRateLimit, Script.eval, result_put (rateLimitScript_keeps hkey window)]

theorem checkRateLimit_lookup {rateKey : String} (hkey : key ≠ "rate:" ++ rateKey)
    (limit window : Nat) (s : Store) :
    (checkRateLimit rateKey limit window s).2.lookup key = s.lookup key :=
  result_lookup (rateLimitScript_keeps hkey window) s

end Frame

end Mesty.Auth.Otp
