import Mesty.Auth.Middleware
import Mesty.Auth.Records
import Mesty.Redis.Agreement
import Mesty.Refinement.Lockstep

namespace Mesty.Auth.Enumeration

open Mesty.Base.Ids Mesty.Base.Error Mesty.Concurrency.Program Mesty.Redis.Server
open Mesty.Redis.Server.Store Mesty.Redis.Agreement Mesty.Refinement.Lockstep
open Mesty.Auth.Entities Mesty.Auth.Otp Mesty.Auth.Repository Mesty.Auth.Services
open Mesty.Auth.Handlers Mesty.Auth.Middleware
open Mesty.Auth.Records (aliceId alicePhone aliceRow aliceServer)

/-- The requests of registration and recovery. -/
inductive Attempt where
  | register (clientIp : String) (req : RegisterRequest)
  | verifyPhone (req : VerifyPhoneRequest)
  | recover (phone : String)
  | recoverVerify (phone code : String)

namespace Attempt

def toReq : Attempt → AuthReq
  | register clientIp req => .register clientIp req
  | verifyPhone req => .verifyPhone req
  | recover phone => .recover phone
  | recoverVerify phone code => .recoverVerify phone code

/-- What is verified: the purpose, the subject and the submitted code. -/
def verifies : Attempt → Option (OtpPurpose × String × String)
  | verifyPhone req => some (.register, req.phone, req.code)
  | recoverVerify phone code => some (.recover, phone, code)
  | register .. | recover _ => none

end Attempt

/-- A request some time after the one before, and what is drawn for it in two runs. -/
structure Input where
  ms : Nat
  req : Attempt
  left : Choice
  right : Choice

/-- The status and the body. -/
def reply : Except ApiError Response → Response
  | .ok response => response
  | .error e => ⟨e.intoResponse.1, .error e.intoResponse.2⟩

variable (state : AuthState)

/-- One request that runs alone. -/
def respond (ω : Choice) (r : AuthReq) (db : AuthDb) : Option Response × AuthDb :=
  match (r.handle state).run.complete (AuthDb.exec ω) db with
  | some (out, db') => (some (reply out), db')
  | none => (none, db)

/-- It is a run of the server in which nothing else happens. -/
theorem respond_alone {ω : Choice} {r : AuthReq} {db db' : AuthDb} {response : Response}
    (h : respond state ω r db = (some response, db')) : ∃ n out, reply out = response ∧
      ((authServer state).handler r).alone (authServer state).exec (List.replicate n ⟨ω, 0⟩) db =
        some (out, db') := by
  rw [respond] at h
  split at h
  · next out db₁ hrun =>
    cases h
    obtain ⟨n, hn⟩ := Prog.alone_of_complete (authServer state).exec ⟨ω, 0⟩ hrun
    exact ⟨n, out, rfl, hn⟩
  · cases h

def after (ms : Nat) (db : AuthDb) : AuthDb := { db with redis := db.redis.wait ms }

def leftRun : Machine Input (Option Response) AuthDb :=
  fun i db => respond state i.left i.req.toReq (after i.ms db)

def rightRun : Machine Input (Option Response) AuthDb :=
  fun i db => respond state i.right i.req.toReq (after i.ms db)

/-- The code is not the stored one in either run. -/
def WrongCode (i : Input) (s t : AuthDb) : Prop :=
  ∀ purpose subject code, i.req.verifies = some (purpose, subject, code) → ∀ e,
    (after i.ms s).redis.lookup (purpose.key subject) = some e ∨
      (after i.ms t).redis.lookup (purpose.key subject) = some e → e.value ≠ code

/-- The phone, and the strings under which its counters are taken for codes. -/
inductive Counts (phone : String) : String → Prop
  | phone : Counts phone phone
  | attempts {subject : String} (h : Counts phone subject) : Counts phone (subject ++ ":attempts")

/-- Whether a code is stored, and how many wrong ones there are with another one, up to the limit. -/
def known (s : Store) (otpKey : String) : Option (Except String Int) :=
  (s.lookup otpKey).map (fun _ => ((incremented (s.lookup (attemptsKey otpKey))).map
    (fun out => min out.1 3)).mapError state.redisErrorText)

/-- Before a code for the phone is verified, one is stored in both runs or in neither, and if
so as many wrong ones have been submitted in both. -/
def Alike (phone : PhoneNumber) (i : Input) (s t : AuthDb) : Prop :=
  ∀ purpose subject code, i.req.verifies = some (purpose, subject, code) →
    Counts phone.value subject →
      known state (after i.ms s).redis (purpose.key subject) =
        known state (after i.ms t).redis (purpose.key subject)

/-- The codes and the counters of the phone. -/
def Hidden (phone : PhoneNumber) (key : String) : Prop :=
  ∃ (purpose : OtpPurpose) (subject : String), Counts phone.value subject ∧ key = purpose.key subject

/-- The codes of all phones. -/
def Masked (key : String) : Prop :=
  ∃ (purpose : OtpPurpose) (phone : PhoneNumber), key = purpose.key phone.value

/-- The runs differ at most in the account of the phone, in its codes and counters, and in
the values of codes. -/
structure Related (phone : PhoneNumber) (s t : AuthDb) : Prop where
  redis : Agree (Hidden phone) Masked s.redis t.redis
  others : ∀ q ≠ phone, (s.findByPhone q).isSome = (t.findByPhone q).isSome

section Keys

variable {phone : PhoneNumber} {purpose : OtpPurpose} {subject : String}

theorem append_attempts_ne (phone : PhoneNumber) (subject : String) :
    subject ++ ":attempts" ≠ phone.value := by
  intro h
  refine phone.colon_notMem (h ▸ ?_)
  rw [String.toList_append]
  exact List.mem_append_right _ List.mem_cons_self

theorem counts_attempts : Counts phone.value (subject ++ ":attempts") ↔ Counts phone.value subject := by
  refine ⟨fun h => ?_, .attempts⟩
  generalize heq : subject ++ ":attempts" = longer at h
  cases h with
  | phone => exact absurd heq (append_attempts_ne phone subject)
  | attempts h => exact (String.append_left_inj _).mp heq ▸ h

theorem hidden_key : Hidden phone (purpose.key subject) ↔ Counts phone.value subject := by
  constructor
  · rintro ⟨purpose', subject', h, heq⟩
    exact (OtpPurpose.key_inj.mp heq).2 ▸ h
  · exact fun h => ⟨purpose, subject, h, rfl⟩

theorem hidden_attemptsKey :
    Hidden phone (attemptsKey (purpose.key subject)) ↔ Counts phone.value subject := by
  rw [OtpPurpose.attemptsKey_key, hidden_key, counts_attempts]

theorem not_masked_attemptsKey : ¬ Masked (attemptsKey (purpose.key subject)) := by
  rintro ⟨purpose', phone', heq⟩
  rw [OtpPurpose.attemptsKey_key] at heq
  exact append_attempts_ne phone' subject (OtpPurpose.key_inj.mp heq).2

theorem not_hidden_rate (phone : PhoneNumber) (key : String) : ¬ Hidden phone ("rate:" ++ key) := by
  rintro ⟨purpose, subject, -, heq⟩
  exact OtpPurpose.key_ne (by simp) heq.symm

theorem not_masked_rate (key : String) : ¬ Masked ("rate:" ++ key) := by
  rintro ⟨purpose, phone, heq⟩
  exact OtpPurpose.key_ne (by simp) heq.symm

end Keys

section Verify

variable {hidden masked : String → Prop} {s t : Store} {otpKey code : String}

/-- What a wrong code does to hidden keys cannot be seen. -/
theorem verify_left (h : Agree hidden masked s t) (hk : hidden otpKey)
    (ha : hidden (attemptsKey otpKey)) (hwrong : ∀ e, s.lookup otpKey = some e → e.value ≠ code) :
    Agree hidden masked (verifyOtpWithLimit otpKey code 3 s).2 t := by
  cases hl : s.lookup otpKey with
  | none => rwa [verify_missing hl]
  | some e =>
    rw [verify_wrong hl (hwrong e hl)]
    split
    · exact h
    · split_ifs
      · exact (h.put_left hk none).put_left ha none
      · exact h.put_left ha _

theorem lookup_isSome (h : Agree hidden masked s t) (hk : ¬ hidden otpKey) :
    (s.lookup otpKey).isSome = (t.lookup otpKey).isSome := by
  simpa using congrArg Option.isSome (h.lookup_expiry hk)

/-- A wrong code does the same where the stores agree. -/
theorem verify_both (h : Agree hidden masked s t) (hk : ¬ hidden otpKey)
    (ha : ¬ hidden (attemptsKey otpKey)) (hm : ¬ masked (attemptsKey otpKey))
    (hs : ∀ e, s.lookup otpKey = some e → e.value ≠ code)
    (ht : ∀ e, t.lookup otpKey = some e → e.value ≠ code) :
    Agree hidden masked (verifyOtpWithLimit otpKey code 3 s).2
      (verifyOtpWithLimit otpKey code 3 t).2 := by
  have hsome := lookup_isSome h hk
  have hcounter : counter s otpKey = counter t otpKey := by
    rw [counter, counter, h.lookup ha hm, h.ttl hk, h.now]
  cases hl : s.lookup otpKey <;> cases hl' : t.lookup otpKey <;> rw [hl, hl'] at hsome
  · rwa [verify_missing hl, verify_missing hl']
  · cases hsome
  · cases hsome
  · rw [verify_wrong hl (hs _ hl), verify_wrong hl' (ht _ hl'), hcounter]
    split
    · exact h
    · split_ifs
      · exact (h.put none).put none
      · exact h.put _

theorem checkRateLimit_both (h : Agree hidden masked s t) {key : String} (hk : ¬ hidden ("rate:" ++ key))
    (hm : ¬ masked ("rate:" ++ key)) (limit window : Nat) :
    (checkRateLimit key limit window s).1 = (checkRateLimit key limit window t).1 ∧
      Agree hidden masked (checkRateLimit key limit window s).2
        (checkRateLimit key limit window t).2 := by
  obtain ⟨hanswer, hagree⟩ := h.result (rateLimitScript_issues ("rate:" ++ key) window) hk hm
  exact ⟨congrArg (Except.map _) hanswer, hagree⟩

variable {state}

theorem known_eq (h : Agree hidden masked s t) (hk : ¬ hidden otpKey)
    (ha : ¬ hidden (attemptsKey otpKey)) (hm : ¬ masked (attemptsKey otpKey)) :
    known state s otpKey = known state t otpKey := by
  have hsome := lookup_isSome h hk
  rw [known, known, h.lookup ha hm]
  revert hsome
  cases s.lookup otpKey <;> cases t.lookup otpKey <;> simp

end Verify

/-- The answer to a wrong code. -/
def verdict : Option (Except String Int) → Option Response
  | none => phoneRejection .notFound
  | some (.error text) => some ⟨500, .error text⟩
  | some (.ok n) => phoneRejection (if 3 ≤ n then .exceeded else .invalid (3 - n).toNat)

section Requests

variable (ω : Choice) (db : AuthDb)

theorem ifMatched_complete {purpose : OtpPurpose} {subject code : String}
    (next : AuthTask Response)
    (hwrong : ∀ e, db.redis.lookup (purpose.key subject) = some e → e.value ≠ code) :
    ∃ out, (ifMatched state phoneRejection purpose subject code next).run.complete
      (AuthDb.exec ω) db = some (out, (db.onRedis (verifyOtp purpose subject code db.redis)).2) ∧
      some (reply out) = verdict (known state db.redis (purpose.key subject)) := by
  have hexec : AuthDb.exec ω (.verifyOtp purpose subject code) db =
      some (db.onRedis (verifyOtp purpose subject code db.redis)) := rfl
  cases hl : db.redis.lookup (purpose.key subject) with
  | none =>
    have hv : verifyOtp purpose subject code db.redis = _ := verify_missing hl
    rw [hv] at hexec ⊢
    exact ⟨_, (Prog.complete_call hexec).trans rfl, by rw [known, hl]; rfl⟩
  | some e =>
    have hv : verifyOtp purpose subject code db.redis = _ := verify_wrong hl (hwrong e hl)
    rw [hv, counter] at hexec ⊢
    rw [known, hl]
    cases hincr : incremented (db.redis.lookup (attemptsKey (purpose.key subject))) with
    | error err =>
      rw [hincr] at hexec
      exact ⟨_, (Prog.complete_call hexec).trans rfl, rfl⟩
    | ok out =>
      rw [hincr] at hexec
      obtain ⟨n, c⟩ := out
      by_cases hmax : 3 ≤ n
      · simp only [Except.map, hmax, if_true] at hexec ⊢
        refine ⟨_, (Prog.complete_call hexec).trans rfl, ?_⟩
        rw [Option.map_some, Int.min_eq_right hmax]
        rfl
      · simp only [Except.map, hmax, if_false] at hexec ⊢
        refine ⟨_, (Prog.complete_call hexec).trans rfl, ?_⟩
        rw [Option.map_some, Int.min_eq_left (Int.le_of_not_le hmax)]
        simp only [Except.mapError, verdict, hmax, if_false]
        rfl

/-- The store after a code was sent. -/
def sent (ω : Choice) (purpose : OtpPurpose) (phone : PhoneNumber) (s : Store) : Store :=
  s.put (purpose.key phone.value) (some ⟨generate ω.random, some (s.now + otpTtl * 1000)⟩)

theorem sendOtp_complete (purpose : OtpPurpose) (phone : PhoneNumber) (response : Response) :
    (sendOtp state purpose phone.value >>= fun _ => pure response).run.complete (AuthDb.exec ω) db =
      some (.ok response, { db with redis := sent ω purpose phone db.redis }) := by
  have hstore : AuthDb.exec ω (.redis (storeOtp purpose phone.value (generate ω.random))) db =
      some (.ok (), { db with redis := sent ω purpose phone db.redis }) := by
    rw [AuthDb.exec, exec_storeOtp]
    rfl
  exact (Prog.complete_call rfl).trans (Prog.complete_call hstore)

theorem register_complete (clientIp : String) (req : RegisterRequest) :
    (register state clientIp req).run.complete (AuthDb.exec ω) db =
      match PhoneNumber.new req.phone with
      | .error e => some (.error (.validation e.toString), db)
      | .ok phone =>
        match checkRateLimit ("register:" ++ clientIp ++ ":" ++ req.deviceId) 5 3600 db.redis with
        | (.error e, redis) =>
          some (.error (.internal (state.redisErrorText e)), { db with redis := redis })
        | (.ok false, redis) => some (.ok (message 429 "Too many requests"), { db with redis := redis })
        | (.ok true, redis) => some (.ok (message 202 "Código enviado"), { db with
            redis := if (db.findByPhone phone).isNone then sent ω .register phone redis else redis }) := by
  rw [register, parsePhone]
  cases PhoneNumber.new req.phone with
  | error e => rfl
  | ok phone =>
    refine (Prog.complete_call rfl).trans ?_
    dsimp only [AuthDb.onRedis]
    obtain ⟨e | _ | _, redis⟩ := checkRateLimit ("register:" ++ clientIp ++ ":" ++ req.deviceId) 5 3600
      db.redis
    · rfl
    · rfl
    · refine (Prog.complete_call rfl).trans ?_
      have hfind : { db with redis := redis }.findByPhone phone = db.findByPhone phone := rfl
      dsimp only
      rw [hfind]
      cases db.findByPhone phone with
      | some user => rfl
      | none => exact sendOtp_complete state ω _ _ _ _

theorem recover_complete (text : String) :
    (recover state text).run.complete (AuthDb.exec ω) db =
      match PhoneNumber.new text with
      | .error e => some (.error (.validation e.toString), db)
      | .ok phone => some (.ok (message 202 "Si la cuenta existe, enviamos un codigo de recuperacion"),
          { db with
            redis := if (db.findByPhone phone).isSome then sent ω .recover phone db.redis else db.redis }) := by
  rw [recover, parsePhone]
  cases PhoneNumber.new text with
  | error e => rfl
  | ok phone =>
    refine (Prog.complete_call rfl).trans ?_
    dsimp only
    cases db.findByPhone phone with
    | none => rfl
    | some user => exact sendOtp_complete state ω _ _ _ _

end Requests

section Verdict

variable {state}

theorem known_le {s : Store} {otpKey : String} {n : Int} (h : known state s otpKey = some (.ok n)) :
    n ≤ 3 := by
  obtain ⟨e, -, heq⟩ := Option.map_eq_some_iff.mp h
  cases hincr : incremented (s.lookup (attemptsKey otpKey)) with
  | error err =>
    rw [hincr] at heq
    cases heq
  | ok out =>
    rw [hincr] at heq
    cases heq
    exact Int.min_le_right _ _

theorem toString_inj {m n : Nat} (h : toString m = toString n) : m = n := by
  have hdigits : Nat.toDigits 10 m = Nat.toDigits 10 n := by
    simpa [Nat.toString_eq_repr, ← String.toList_inj] using h
  have hread := congrArg readInt hdigits
  rw [readInt_toDigits, readInt_toDigits] at hread
  exact Int.ofNat.inj hread

theorem verdict_invalid {n : Int} (h : n < 3) : verdict (some (.ok n)) =
    some (message 400 ("Código inválido. Intentos restantes: " ++ toString (3 - n).toNat)) := by
  rw [verdict, if_neg (Int.not_le.mpr h)]
  rfl

theorem verdict_ok_ne_none {n : Int} (hn : n ≤ 3) : verdict (some (.ok n)) ≠ verdict none := by
  intro h
  obtain hlt | rfl := Int.lt_or_eq_of_le hn
  · rw [verdict_invalid hlt] at h
    have htext := congrArg String.toList (Body.message.inj (Response.mk.inj (Option.some.inj h)).2)
    rw [String.toList_append] at htext
    exact absurd (congrArg List.head? htext) (by simp)
  · exact absurd (congrArg (Option.map Response.status) h) (by decide)

theorem verdict_ok_ne_error {n : Int} (hn : n ≤ 3) (text : String) :
    verdict (some (.ok n)) ≠ verdict (some (.error text)) := by
  intro h
  have hstatus := congrArg (Option.map Response.status) h
  obtain hlt | rfl := Int.lt_or_eq_of_le hn
  · rw [verdict_invalid hlt] at hstatus
    cases hstatus
  · cases hstatus

/-- The answers to wrong codes tell apart what is known. -/
theorem verdict_inj {a b : Option (Except String Int)} (ha : ∀ n, a = some (.ok n) → n ≤ 3)
    (hb : ∀ n, b = some (.ok n) → n ≤ 3) : a = b ↔ verdict a = verdict b := by
  refine ⟨congrArg verdict, fun h => ?_⟩
  obtain _ | text | m := a <;> obtain _ | text' | n := b
  · rfl
  · cases congrArg (Option.map Response.status) h
  · exact absurd h.symm (verdict_ok_ne_none (hb n rfl))
  · cases congrArg (Option.map Response.status) h
  · obtain rfl := Body.error.inj (Response.mk.inj (Option.some.inj h)).2
    rfl
  · exact absurd h.symm (verdict_ok_ne_error (hb n rfl) text)
  · exact absurd h (verdict_ok_ne_none (ha m rfl))
  · exact absurd h (verdict_ok_ne_error (ha m rfl) text')
  · have hm := ha m rfl
    have hn := hb n rfl
    obtain hm | rfl := Int.lt_or_eq_of_le hm <;> obtain hn | rfl := Int.lt_or_eq_of_le hn
    · rw [verdict_invalid hm, verdict_invalid hn] at h
      have htext := Body.message.inj (Response.mk.inj (Option.some.inj h)).2
      have hleft := toString_inj ((String.append_right_inj _).mp htext)
      have hmn : m = n := by omega
      rw [hmn]
    · rw [verdict_invalid hm] at h
      cases congrArg (Option.map Response.status) h
    · rw [verdict_invalid hn] at h
      cases congrArg (Option.map Response.status) h
    · rfl

end Verdict

section Runs

variable {state} {phone : PhoneNumber} {s t : AuthDb}

theorem Related.after (h : Related phone s t) (ms : Nat) :
    Related phone (after ms s) (after ms t) :=
  ⟨h.redis.wait ms, h.others⟩

theorem respond_eq {ω : Choice} {r : AuthReq} {db db' : AuthDb} {out : Except ApiError Response}
    (h : (r.handle state).run.complete (AuthDb.exec ω) db = some (out, db')) :
    respond state ω r db = (some (reply out), db') := by
  rw [respond, h]

theorem respond_verify {ω : Choice} {r : AuthReq} {db : AuthDb} {purpose : OtpPurpose}
    {subject code : String} {next : AuthTask Response}
    (hr : r.handle state = ifMatched state phoneRejection purpose subject code next)
    (hwrong : ∀ e, db.redis.lookup (purpose.key subject) = some e → e.value ≠ code) :
    respond state ω r db = (verdict (known state db.redis (purpose.key subject)),
      (db.onRedis (verifyOtp purpose subject code db.redis)).2) := by
  obtain ⟨out, hrun, hreply⟩ := ifMatched_complete state ω db next hwrong
  rw [respond_eq (hr ▸ hrun), hreply]

/-- The answers to a wrong code tell whether the runs are alike. -/
theorem verify_related (h : Related phone s t) {r : AuthReq} {purpose : OtpPurpose}
    {subject code : String} {next : AuthTask Response}
    (hr : r.handle state = ifMatched state phoneRejection purpose subject code next)
    (hs : ∀ e, s.redis.lookup (purpose.key subject) = some e → e.value ≠ code)
    (ht : ∀ e, t.redis.lookup (purpose.key subject) = some e → e.value ≠ code) (ω ω' : Choice) :
    Related phone (respond state ω r s).2 (respond state ω' r t).2 ∧
      ((Counts phone.value subject → known state s.redis (purpose.key subject) =
        known state t.redis (purpose.key subject)) ↔
        (respond state ω r s).1 = (respond state ω' r t).1) := by
  rw [respond_verify hr hs, respond_verify hr ht,
    ← verdict_inj (fun _ => known_le) (fun _ => known_le)]
  by_cases hc : Counts phone.value subject
  · refine ⟨⟨?_, h.others⟩, by simp [hc]⟩
    have hk : Hidden phone (purpose.key subject) := hidden_key.mpr hc
    have ha : Hidden phone (attemptsKey (purpose.key subject)) := hidden_attemptsKey.mpr hc
    exact (verify_left (verify_left h.redis hk ha hs).symm hk ha ht).symm
  · have hk : ¬ Hidden phone (purpose.key subject) := mt hidden_key.mp hc
    have ha : ¬ Hidden phone (attemptsKey (purpose.key subject)) := mt hidden_attemptsKey.mp hc
    refine ⟨⟨verify_both h.redis hk ha not_masked_attemptsKey hs ht, h.others⟩, ?_⟩
    exact iff_of_true (fun hc' => absurd hc' hc) (known_eq h.redis hk ha not_masked_attemptsKey)

theorem sent_related {r r' : Store} (h : Agree (Hidden phone) Masked r r') {q : PhoneNumber}
    {b b' : Bool} (hb : q ≠ phone → b = b') (purpose : OtpPurpose) (ω ω' : Choice) :
    Agree (Hidden phone) Masked (if b then sent ω purpose q r else r)
      (if b' then sent ω' purpose q r' else r') := by
  by_cases hq : q = phone
  · subst hq
    have hk : Hidden q (purpose.key q.value) := hidden_key.mpr .phone
    have hleft : Agree (Hidden q) Masked (if b then sent ω purpose q r else r) r' := by
      split
      · exact h.put_left hk _
      · exact h
    cases b' with
    | false => exact hleft
    | true => exact hleft.put_right hk _
  · obtain rfl := hb hq
    cases b with
    | false => exact h
    | true => exact h.put_masked ⟨purpose, q, rfl⟩ (by simp [h.now])

theorem register_related (h : Related phone s t) (clientIp : String) (req : RegisterRequest)
    (ω ω' : Choice) :
    Related phone (respond state ω (.register clientIp req) s).2
        (respond state ω' (.register clientIp req) t).2 ∧
      (respond state ω (.register clientIp req) s).1 =
        (respond state ω' (.register clientIp req) t).1 := by
  have hs := register_complete state ω s clientIp req
  have ht := register_complete state ω' t clientIp req
  obtain ⟨hanswer, hagree⟩ := checkRateLimit_both h.redis
    (not_hidden_rate phone ("register:" ++ clientIp ++ ":" ++ req.deviceId)) (not_masked_rate _) 5 3600
  generalize checkRateLimit ("register:" ++ clientIp ++ ":" ++ req.deviceId) 5 3600 s.redis = left
    at hs hanswer hagree
  generalize checkRateLimit ("register:" ++ clientIp ++ ":" ++ req.deviceId) 5 3600 t.redis = right
    at ht hanswer hagree
  obtain ⟨answer, redis⟩ := left
  obtain ⟨answer', redis'⟩ := right
  obtain rfl : answer = answer' := hanswer
  cases hphone : PhoneNumber.new req.phone with
  | error e =>
    rw [hphone] at hs ht
    rw [respond_eq hs, respond_eq ht]
    exact ⟨h, rfl⟩
  | ok q =>
    rw [hphone] at hs ht
    obtain e | _ | _ := answer
    · rw [respond_eq hs, respond_eq ht]
      exact ⟨⟨hagree, h.others⟩, rfl⟩
    · rw [respond_eq hs, respond_eq ht]
      exact ⟨⟨hagree, h.others⟩, rfl⟩
    · rw [respond_eq hs, respond_eq ht]
      have hnone : q ≠ phone → (s.findByPhone q).isNone = (t.findByPhone q).isNone := by
        intro hq
        rw [← Option.not_isSome, ← Option.not_isSome, h.others q hq]
      exact ⟨⟨sent_related hagree hnone .register ω ω', h.others⟩, rfl⟩

theorem recover_related (h : Related phone s t) (text : String) (ω ω' : Choice) :
    Related phone (respond state ω (.recover text) s).2 (respond state ω' (.recover text) t).2 ∧
      (respond state ω (.recover text) s).1 = (respond state ω' (.recover text) t).1 := by
  have hs := recover_complete state ω s text
  have ht := recover_complete state ω' t text
  cases hphone : PhoneNumber.new text with
  | error e =>
    rw [hphone] at hs ht
    rw [respond_eq hs, respond_eq ht]
    exact ⟨h, rfl⟩
  | ok q =>
    rw [hphone] at hs ht
    rw [respond_eq hs, respond_eq ht]
    exact ⟨⟨sent_related h.redis (h.others q) .recover ω ω', h.others⟩, rfl⟩

/-- One request in both runs. -/
theorem step_related {i : Input} (h : Related phone s t) (hw : WrongCode i s t) :
    Related phone (leftRun state i s).2 (rightRun state i t).2 ∧
      (Alike state phone i s t ↔ (leftRun state i s).1 = (rightRun state i t).1) := by
  replace h := h.after i.ms
  have hquiet : i.req.verifies = none → Alike state phone i s t := by
    intro hnone purpose subject code hv
    cases hnone.symm.trans hv
  have hchecked : ∀ {purpose subject code}, i.req.verifies = some (purpose, subject, code) →
      (Alike state phone i s t ↔ (Counts phone.value subject →
        known state (after i.ms s).redis (purpose.key subject) =
          known state (after i.ms t).redis (purpose.key subject))) := by
    intro purpose subject code hv
    refine ⟨fun ha => ha _ _ _ hv, fun hk purpose' subject' code' hv' => ?_⟩
    cases hv.symm.trans hv'
    exact hk
  obtain ⟨ms, req, ω, ω'⟩ := i
  cases req with
  | register clientIp req =>
    obtain ⟨hrel, hout⟩ := register_related h clientIp req ω ω'
    exact ⟨hrel, iff_of_true (hquiet rfl) hout⟩
  | recover text =>
    obtain ⟨hrel, hout⟩ := recover_related h text ω ω'
    exact ⟨hrel, iff_of_true (hquiet rfl) hout⟩
  | verifyPhone req =>
    rw [hchecked rfl]
    exact verify_related h rfl (fun e he => hw _ _ _ rfl e (.inl he))
      (fun e he => hw _ _ _ rfl e (.inr he)) ω ω'
  | recoverVerify text code =>
    rw [hchecked rfl]
    exact verify_related h rfl (fun e he => hw _ _ _ rfl e (.inl he))
      (fun e he => hw _ _ _ rfl e (.inr he)) ω ω'

end Runs

/-- The database with one more account. -/
def withAccount (id : Uuid) (row : UserRow) (db : AuthDb) : AuthDb :=
  { db with users := db.users.insert id row, drawn := id :: db.drawn }

theorem related_withAccount {id : Uuid} {row : UserRow} {db : AuthDb} (hid : id ∉ db.users) :
    Related row.phone db (withAccount id row db) := by
  refine ⟨.refl _ _ _, fun q hq => ?_⟩
  have hentries : (db.users.insert id row).entries = ⟨id, row⟩ :: db.users.entries := by
    rw [AList.entries_insert_of_notMem hid]
  rw [AuthDb.findByPhone, AuthDb.findByPhone, withAccount, hentries, List.find?_cons]
  simp [hq.symm]

/-- When every submitted code is wrong, the responses to registrations and recoveries do not
tell whether the phone has an account exactly if, whenever a code for it is verified, one is
stored in both cases or in neither, with equally many wrong attempts. -/
theorem indistinguishable_iff_alike (state : AuthState) (db : AuthDb) (id : Uuid) (row : UserRow)
    (hid : id ∉ db.users) (is : List Input)
    (hwrong : Along WrongCode (leftRun state) (rightRun state) is db (withAccount id row db)) :
    Along (Alike state row.phone) (leftRun state) (rightRun state) is db (withAccount id row db) ↔
      outputs (leftRun state) is db = outputs (rightRun state) is (withAccount id row db) := by
  refine along_iff_outputs_eq_of (R := Related row.phone) ?_ ?_ is (related_withAccount hid) hwrong
  · exact fun i s t h hw => (step_related h hw).2
  · exact fun i s t h hw _ => (step_related h hw).1

section Alice

def registration : Input :=
  ⟨0, .register "10.0.0.9" ⟨alicePhone, "d", "d", "web"⟩, ⟨.nil, 482913⟩, ⟨.nil, 115302⟩⟩

def guess : Input :=
  ⟨1000, .verifyPhone ⟨⟨none, none, none, none⟩, alicePhone, "000000"⟩, ⟨.nil, 0⟩, ⟨.nil, 0⟩⟩

/-- Somebody registers with the phone of Alice and guesses the code. -/
def probe : List Input := [registration, guess]

def nobody : AuthDb := .init 1700000000000 ∅ ∅

theorem probe_wrong : Along WrongCode (leftRun aliceServer) (rightRun aliceServer) probe nobody
    (withAccount aliceId aliceRow nobody) := by
  have hwrong : ∀ e ∈ ((after guess.ms (leftRun aliceServer registration nobody).2).redis.lookup
      (OtpPurpose.register.key alicePhone)).toList ++ ((after guess.ms (rightRun aliceServer
        registration (withAccount aliceId aliceRow nobody)).2).redis.lookup
          (OtpPurpose.register.key alicePhone)).toList, e.value ≠ "000000" := by
    decide +kernel
  refine ⟨?_, ?_, trivial⟩
  · intro purpose subject code hv
    cases hv
  · intro purpose subject code hv e he
    obtain ⟨rfl, rfl, rfl⟩ : OtpPurpose.register = purpose ∧ alicePhone = subject ∧
        "000000" = code := by
      cases hv
      exact ⟨rfl, rfl, rfl⟩
    refine hwrong e (List.mem_append.mpr ?_)
    exact he.imp Option.mem_toList.mpr Option.mem_toList.mpr

theorem probe_indistinguishable_iff_alike :
    Along (Alike aliceServer aliceRow.phone) (leftRun aliceServer) (rightRun aliceServer) probe
        nobody (withAccount aliceId aliceRow nobody) ↔
      outputs (leftRun aliceServer) probe nobody =
        outputs (rightRun aliceServer) probe (withAccount aliceId aliceRow nobody) :=
  indistinguishable_iff_alike aliceServer nobody aliceId aliceRow (by decide) probe probe_wrong

/-- The guess is told to be wrong if Alice has no account, and that there is no code if she has. -/
theorem account_exposed : ¬ ∀ is, Along WrongCode (leftRun aliceServer) (rightRun aliceServer) is
    nobody (withAccount aliceId aliceRow nobody) → outputs (leftRun aliceServer) is nobody =
      outputs (rightRun aliceServer) is (withAccount aliceId aliceRow nobody) := by
  intro h
  exact absurd (h probe probe_wrong) (by decide +kernel)

end Alice

end Mesty.Auth.Enumeration
