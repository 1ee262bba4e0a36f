import Mesty.Auth.Permits
import Mesty.Auth.Records
import Mesty.Auth.Registration
import Mesty.Concurrency.Faults

namespace Mesty.Auth.PartialRegistration

open Mesty.Base.Ids Mesty.Base.Error Mesty.Concurrency.Program Mesty.Concurrency.Faults
open Mesty.Redis.Server Mesty.Auth.Entities Mesty.Auth.Otp Mesty.Auth.Repository
open Mesty.Auth.Services Mesty.Auth.Handlers Mesty.Auth.Middleware Mesty.Auth.Registration
open Mesty.Auth.Permits
open Mesty.Auth.Records (aliceId alicePhone aliceServer aliceSessionId aliceTokenId)

inductive Service where
  | redis
  | postgres
  | process

def servedBy : AuthCmd → Service
  | .redis _ | .verifyOtp .. | .checkRateLimit .. => .redis
  | .newUuid | .utcNow | .random => .process
  | _ => .postgres

/-- Of a Redis error the handlers use the text. What the process does itself does not fail. -/
abbrev Service.Fault : Service → Type
  | redis => String
  | postgres => SqlError
  | process => Empty

def Service.toDomain : (s : Service) → s.Fault → DomainError
  | redis, e => .internal e
  | postgres, e => .fromSqlx e
  | process, e => e.elim

/-- What the handler `verify_phone` makes of a failed call. -/
def onFault (c : AuthCmd) (e : (servedBy c).Fault) : DomainError :=
  match c, (servedBy c).toDomain e with
  | .insertUser _, .alreadyExists _ => .alreadyExists "User already registered"
  | _, e => e

abbrev VerifyChoice := CallChoice Choice (fun c => (servedBy c).Fault)

/-- The handler `verify_phone`, with calls that fail. -/
def faultyVerifyPhone (state : AuthState) (req : VerifyPhoneRequest) :
    Prog AuthCmd (fun c => Except (servedBy c).Fault c.Ans) (Except DomainError Response) :=
  failing onFault (verifyPhone state req).run

/-- The code of the request would match. -/
def Usable (db : AuthDb) (req : VerifyPhoneRequest) : Prop :=
  ∃ e, db.redis.lookup (OtpPurpose.register.key req.phone) = some e ∧ e.value = req.code

def Created (r : Except DomainError Response) : Prop := ∃ body, r = .ok ⟨201, body⟩

def AllOrNothing (req : VerifyPhoneRequest) (db : AuthDb) (r : Except DomainError Response)
    (db' : AuthDb) : Prop :=
  ¬ Created r → db'.users = db.users ∧ db'.sessions = db.sessions ∧ (Usable db req → Usable db' req)

/-- The identifier that is drawn for the call with the number `k`. -/
def drawn (ωs : List Choice) (k : Nat) : Uuid := (ωs[k]?.map Choice.uuid).getD .nil

/-- A device without an id is given one after the user is stored. -/
def deviceOf (req : VerifyPhoneRequest) (ωs : List Choice) : DeviceContext :=
  ⟨req.deviceId.getD (drawn ωs 4).toString, req.deviceName.getD "unknown device",
    req.deviceType.getD "web", req.pushToken⟩

def sessionPlace (req : VerifyPhoneRequest) : Nat := if req.deviceId.isSome then 5 else 6

/-- What it takes to issue tokens. -/
structure Issues (state : AuthState) (userId sessionId : Uuid) (device : DeviceContext) (now : Nat) :
    Prop where
  deviceType : device.deviceType ∈ AuthDb.deviceTypes
  lives : state.refreshTtl ≠ 0
  signed : (state.jwtEncode ⟨userId.toString, sessionId.toString, now / 1000 + state.accessTtl,
    now / 1000⟩).isOk
  serialised : (state.toJson ⟨userId.toString, sessionId.toString, device.deviceId,
    device.deviceName, device.deviceType, device.pushToken⟩).isOk

/-- What it takes to register after the code has matched. -/
structure Completes (state : AuthState) (req : VerifyPhoneRequest) (db : AuthDb) (ωs : List Choice) :
    Prop where
  phone : isE164 req.phone = true
  free : ∀ id row, db.users.lookup id = some row → row.phone.value ≠ req.phone
  newId : drawn ωs 1 ∉ db.users
  issues : Issues state (drawn ωs 1) (drawn ωs (sessionPlace req)) (deviceOf req ωs) db.now

section Alone

variable {α : Type} {state : AuthState} {ωs : List Choice} {db db' : AuthDb}

theorem alone_liftError {ε ε' : Type} {g : ε' → ε} {x : Except ε' α} {r : Except ε α}
    (h : (liftError g x).run.alone AuthDb.exec ωs db = some (r, db')) :
    ωs = [] ∧ r = x.mapError g ∧ db' = db := by
  cases x <;> exact Prog.alone_ret h

theorem alone_query {ε : Type} {c : AuthCmd} {f : c.Ans → ExceptT ε AuthProg α} {r : Except ε α}
    (h : (query c >>= f).run.alone AuthDb.exec ωs db = some (r, db')) :
    ∃ ω ωs' a mid, ωs = ω :: ωs' ∧ AuthDb.exec ω c db = some (a, mid) ∧
      (f a).run.alone AuthDb.exec ωs' mid = some (r, db') :=
  Prog.alone_call h

theorem alone_mapErr {ε ε' : Type} {g : ε' → ε} {x : ExceptT ε' AuthProg α} {r : Except ε α}
    (h : (mapErr g x).run.alone AuthDb.exec ωs db = some (r, db')) :
    ∃ r', x.run.alone AuthDb.exec ωs db = some (r', db') ∧ r = r'.mapError g := by
  obtain ⟨ωs₁, ωs₂, r', mid, rfl, hx, hr⟩ := Prog.alone_bind (p := x.run) h
  obtain ⟨rfl, rfl, rfl⟩ := Prog.alone_ret hr
  exact ⟨r', (List.append_nil ωs₁).symm ▸ hx, rfl⟩

theorem isOk_mapError {ε ε' : Type} (g : ε' → ε) (x : Except ε' α) : (x.mapError g).isOk = x.isOk := by
  cases x <;> rfl

theorem upsertSession_isOk_iff {ω : Choice} {userId : Uuid} {deviceId deviceName deviceType : String}
    {pushToken : Option String} {expiresAt : Nat} {r : Except DomainError Uuid} (huser : userId ∈ db.users)
    (h : db.upsertSession ω userId deviceId deviceName deviceType pushToken expiresAt = some (r, db')) :
    (r.isOk ↔ deviceType ∈ AuthDb.deviceTypes) ∧ (∀ id, r = .ok id → id = ω.uuid) ∧
      db'.redis = db.redis := by
  rw [AuthDb.upsertSession] at h
  split_ifs at h with hdrawn htype
  · cases h
    exact ⟨iff_of_true rfl htype, fun id hid => (Except.ok.inj hid).symm, rfl⟩
  · cases h
    exact ⟨iff_of_false Bool.false_ne_true htype, by rintro _ ⟨⟩, rfl⟩

theorem generateAccessToken_alone {userId sessionId : Uuid} {r : Except DomainError String}
    (h : (service (generateAccessToken state userId sessionId)).run.alone AuthDb.exec ωs db =
      some (r, db')) :
    r.isOk = (state.jwtEncode ⟨userId.toString, sessionId.toString,
      ((db.now / 1000 : Nat) : Int) + state.accessTtl, (db.now / 1000 : Nat)⟩).isOk ∧
      (∃ ω, ωs = [ω]) ∧ db' = db := by
  obtain ⟨r', htask, rfl⟩ := alone_mapErr h
  obtain ⟨ω, ωs', now, mid, rfl, he, hencode⟩ := alone_query htask
  obtain ⟨rfl, rfl⟩ := Prod.mk.inj (Option.some.inj he)
  obtain ⟨rfl, rfl, rfl⟩ := alone_liftError hencode
  exact ⟨(isOk_mapError _ _).trans (isOk_mapError _ _), ⟨ω, rfl⟩, rfl⟩

theorem generateRefreshToken_alone {r : Except DomainError String}
    (h : (service generateRefreshToken).run.alone AuthDb.exec ωs db = some (r, db')) :
    r.isOk ∧ ∃ ω, ωs = [ω] := by
  obtain ⟨r', htask, rfl⟩ := alone_mapErr h
  obtain ⟨ω, ωs', id, mid, rfl, he, hret⟩ := alone_query htask
  obtain ⟨rfl, rfl, rfl⟩ := Prog.alone_ret hret
  exact ⟨rfl, ω, rfl⟩

theorem storeRefreshToken_alone {token : String} {session : RefreshSession} {r : Except DomainError Unit}
    (h : (service (storeRefreshToken state token session)).run.alone AuthDb.exec ωs db =
      some (r, db')) :
    r.isOk ↔ (state.toJson session).isOk ∧ state.refreshTtl ≠ 0 := by
  obtain ⟨r', htask, rfl⟩ := alone_mapErr h
  obtain ⟨ωs₁, ωs₂, b, mid, rfl, hjson, hrest⟩ := Prog.alone_tryBind htask
  obtain ⟨-, rfl, rfl⟩ := alone_liftError hjson
  rw [isOk_mapError]
  cases htext : state.toJson session with
  | error e =>
    rw [htext] at hrest
    obtain ⟨_, -, rfl, -⟩ | ⟨_, herror, -⟩ := hrest
    · exact iff_of_false Bool.false_ne_true fun hok => Bool.false_ne_true hok.1
    · cases herror
  | ok json =>
    rw [htext] at hrest
    obtain ⟨e, herror, -⟩ | ⟨json', -, hset⟩ := hrest
    · cases herror
    · obtain ⟨ω, ωs, stored, mid, rfl, he, hstored⟩ := alone_query hset
      obtain ⟨-, rfl, -⟩ := alone_liftError hstored
      obtain ⟨rfl, -⟩ := Prod.mk.inj (Option.some.inj he)
      rw [isOk_mapError]
      by_cases hlives : state.refreshTtl = 0
      · simp [hlives, Store.exec, Except.isOk, Except.toBool]
      · simp [hlives, Store.exec, Except.isOk, Except.toBool]

/-- Issuing tokens alone succeeds exactly if everything it takes is there. -/
theorem issueTokens_isOk_iff {user : User} {device : DeviceContext} {r : Except DomainError AuthResponse}
    (huser : user.id ∈ db.users)
    (h : (issueTokens state user device).run.alone AuthDb.exec ωs db = some (r, db')) :
    r.isOk ↔ Issues state user.id (drawn ωs 1) device db.now := by
  rw [issueTokens] at h
  obtain ⟨ω₀, ωs, now, mid, rfl, he, h₁⟩ := alone_query h
  obtain ⟨rfl, rfl⟩ := Prod.mk.inj (Option.some.inj he)
  obtain ⟨ωs₁, ωs₂, upserted, db₁, rfl, hupsert, h₂⟩ := Prog.alone_tryBind h₁
  obtain ⟨ω₁, rfl, he₁⟩ := Prog.alone_cmd hupsert
  obtain ⟨htype, hid, hredis⟩ := upsertSession_isOk_iff huser he₁
  obtain ⟨e, rfl, rfl, -⟩ | ⟨sessionId, rfl, h₃⟩ := h₂
  · exact iff_of_false Bool.false_ne_true fun hi => Bool.false_ne_true (htype.mpr hi.deviceType)
  obtain rfl := hid _ rfl
  obtain ⟨ωs₃, ωs₄, access, db₂, rfl, haccess, h₄⟩ := Prog.alone_tryBind h₃
  obtain ⟨hsigned, -, rfl⟩ := generateAccessToken_alone haccess
  rw [AuthDb.now, hredis] at hsigned
  obtain ⟨e, rfl, rfl, -⟩ | ⟨access, rfl, h₅⟩ := h₄
  · exact iff_of_false Bool.false_ne_true fun hi => Bool.false_ne_true (hsigned.trans hi.signed)
  obtain ⟨ωs₅, ωs₆, refresh, db₃, rfl, hrefresh, h₆⟩ := Prog.alone_tryBind h₅
  obtain ⟨e, rfl, -, -⟩ | ⟨refresh, -, h₇⟩ := h₆
  · cases (generateRefreshToken_alone hrefresh).1
  obtain ⟨ωs₇, ωs₈, stored, db₄, rfl, hstore, h₈⟩ := Prog.alone_tryBind h₇
  have hserialised := storeRefreshToken_alone hstore
  obtain ⟨e, rfl, rfl, -⟩ | ⟨_, rfl, h₉⟩ := h₈
  · exact iff_of_false Bool.false_ne_true fun hi =>
      Bool.false_ne_true (hserialised.mpr ⟨hi.serialised, hi.lives⟩)
  · obtain ⟨-, rfl, -⟩ := Prog.alone_ret h₉
    obtain ⟨hjson, hlives⟩ := hserialised.mp rfl
    exact iff_of_true rfl ⟨htype.mp rfl, hlives, hsigned.symm, hjson⟩

/-- The INSERT accepts a user without a name and an address. -/
def Accepts (db : AuthDb) (user : User) : Prop :=
  user.id ∉ db.users ∧ ∀ id row, db.users.lookup id = some row → row.phone.value ≠ user.phone.value

theorem not_conflict_iff {user : User} (husername : user.username = none) (hemail : user.email = none) :
    ¬ (user.id ∈ db.users ∨
      db.users.entries.any (fun e => AuthDb.conflicts user.toUserRow e.2) = true) ↔ Accepts db user := by
  rw [Accepts]
  by_cases hid : user.id ∈ db.users
  · simp [hid]
  · rw [conflict_iff db user hid husername hemail]
    simp only [not_exists, not_and, ne_eq, phoneValue_injective.eq_iff, hid, not_false_eq_true,
      true_and]

/-- The user is stored, and the handler goes on, exactly if the INSERT accepts the user. -/
theorem createUser_alone {user : User} {g : DomainError → DomainError} {next : AuthTask Response}
    {r : Except DomainError Response} (husername : user.username = none) (hemail : user.email = none)
    (h : (mapErr g (createUser user) >>= fun _ => next).run.alone AuthDb.exec ωs db = some (r, db')) :
    (¬ Accepts db user ∧ ∃ e, r = .error e) ∨
    Accepts db user ∧ ∃ ω ω' ωs' db₁, ωs = ω :: ω' :: ωs' ∧ user.id ∈ db₁.users ∧ db₁.now = db.now ∧
      next.run.alone AuthDb.exec ωs' db₁ = some (r, db') := by
  obtain ⟨ωs₁, ωs₂, b, mid, rfl, hcreate, hnext⟩ := Prog.alone_tryBind h
  obtain ⟨created, htask, rfl⟩ := alone_mapErr hcreate
  obtain ⟨ωs₃, ωs₄, inserted, db₁, rfl, hinsert, h₁⟩ := Prog.alone_tryBind htask
  obtain ⟨ω, rfl, he⟩ := Prog.alone_cmd hinsert
  replace he := Option.some.inj he
  rw [AuthDb.insertUser] at he
  split_ifs at he with hconflict
  · obtain ⟨rfl, rfl⟩ := Prod.mk.inj he
    refine .inl ⟨fun haccepts => (not_conflict_iff husername hemail).mpr haccepts hconflict, ?_⟩
    obtain ⟨_, -, rfl, -⟩ | ⟨_, herror, -⟩ := h₁
    · obtain ⟨e, -, rfl, -⟩ | ⟨_, herror, -⟩ := hnext
      · exact ⟨e, rfl⟩
      · cases herror
    · cases herror
  · obtain ⟨rfl, rfl⟩ := Prod.mk.inj he
    refine .inr ⟨(not_conflict_iff husername hemail).mp hconflict, ?_⟩
    obtain ⟨_, herror, -⟩ | ⟨_, -, hadd⟩ := h₁
    · cases herror
    · obtain ⟨ω', ωs', added, db₂, rfl, he', hret⟩ := alone_query hadd
      obtain ⟨-, rfl⟩ := Prod.mk.inj (Option.some.inj he')
      obtain ⟨rfl, rfl, rfl⟩ := Prog.alone_ret hret
      obtain ⟨_, herror, -⟩ | ⟨_, -, hrest⟩ := hnext
      · cases herror
      · refine ⟨ω, ω', ωs₂, _, rfl, (AList.mem_insert _).mpr (.inl rfl), ?_, hrest⟩
        simp only [AuthDb.now, Store.exec]
        split_ifs <;> rfl

theorem fromParts_alone {parts : DeviceParts} {r : Except DomainError DeviceContext}
    (h : (DeviceContext.fromParts parts).run.alone AuthDb.exec ωs db = some (r, db')) :
    r = .ok ⟨parts.deviceId.getD (drawn ωs 0).toString, parts.deviceName.getD "unknown device",
      parts.deviceType.getD "web", parts.pushToken⟩ ∧
    (ωs.length = if parts.deviceId.isSome then 0 else 1) ∧ db'.users = db.users ∧
      db'.redis = db.redis := by
  rw [DeviceContext.fromParts] at h
  obtain ⟨deviceId, deviceName, deviceType, pushToken⟩ := parts
  cases deviceId with
  | some deviceId =>
    obtain ⟨rfl, rfl, rfl⟩ := Prog.alone_ret h
    exact ⟨rfl, rfl, rfl, rfl⟩
  | none =>
    obtain ⟨ω, ωs', id, mid, rfl, he, hret⟩ := Prog.alone_call h
    obtain ⟨rfl, rfl, rfl⟩ := Prog.alone_ret hret
    rw [AuthDb.exec] at he
    split_ifs at he with hdrawn
    cases he
    exact ⟨rfl, rfl, rfl, rfl⟩

/-- What follows the INSERT. -/
theorem issued_created_iff {user : User} {parts : DeviceParts} {r : Except DomainError Response}
    (huser : user.id ∈ db.users)
    (h : (do
      let device ← DeviceContext.fromParts parts
      return ⟨201, .tokens (← issueTokens state user device)⟩ : AuthTask Response).run.alone
        AuthDb.exec ωs db = some (r, db')) :
    Created r ↔ Issues state user.id (drawn ωs (if parts.deviceId.isSome then 1 else 2))
      ⟨parts.deviceId.getD (drawn ωs 0).toString, parts.deviceName.getD "unknown device",
        parts.deviceType.getD "web", parts.pushToken⟩ db.now := by
  obtain ⟨ωs₁, ωs₂, device, mid, rfl, hdevice, h₁⟩ := Prog.alone_tryBind h
  obtain ⟨rfl, hlength, husers, hredis⟩ := fromParts_alone hdevice
  obtain ⟨_, herror, -⟩ | ⟨device, hok, h₂⟩ := h₁
  · cases herror
  obtain rfl := Except.ok.inj hok
  rw [← husers] at huser
  have hnow : mid.now = db.now := congrArg Store.now hredis
  obtain ⟨ωs₃, ωs₄, tokens, db₁, rfl, htokens, h₃⟩ := Prog.alone_tryBind h₂
  have hissues := issueTokens_isOk_iff huser htokens
  have hcreated : (Created r ↔ tokens.isOk) ∧ ωs₄ = [] := by
    obtain ⟨e, rfl, rfl, hend⟩ | ⟨response, rfl, hret⟩ := h₃
    · exact ⟨iff_of_false (by rintro ⟨_, ⟨⟩⟩) Bool.false_ne_true, hend⟩
    · obtain ⟨hend, rfl, -⟩ := Prog.alone_ret hret
      exact ⟨iff_of_true ⟨_, rfl⟩ rfl, hend⟩
  obtain ⟨hcreated, rfl⟩ := hcreated
  rw [hcreated, hissues, hnow, List.append_nil]
  obtain ⟨deviceId, deviceName, deviceType, pushToken⟩ := parts
  cases deviceId with
  | some deviceId =>
    have hnil : ωs₁ = [] := List.length_eq_zero_iff.mp (hlength.trans (if_pos rfl))
    subst hnil
    simp only [Option.getD_some, Option.isSome_some, if_true, List.nil_append]
  | none =>
    have hone : ωs₁.length = 1 := hlength.trans (if_neg Bool.false_ne_true)
    obtain ⟨ω, rfl⟩ := List.length_eq_one_iff.mp hone
    simp only [Option.isSome_none, Bool.false_eq_true, if_false]
    rfl

theorem drawn_sessionPlace (req : VerifyPhoneRequest) (ω₀ ω₁ ω₂ ω₃ : Choice) (ωs : List Choice) :
    drawn (ω₀ :: ω₁ :: ω₂ :: ω₃ :: ωs) (sessionPlace req) =
      drawn ωs (if req.deviceId.isSome then 1 else 2) := by
  rw [sessionPlace]
  split_ifs <;> rfl

/-- After a match a registration that runs alone succeeds exactly if everything it takes is there. -/
theorem verifyPhone_created_iff {req : VerifyPhoneRequest} {r : Except DomainError Response}
    (husable : Usable db req)
    (h : (verifyPhone state req).run.alone AuthDb.exec ωs db = some (r, db')) :
    Created r ↔ Completes state req db ωs := by
  have hcreated_error : ∀ e, ¬ Created (.error e) := by
    rintro e ⟨body, ⟨⟩⟩
  have hmatched := verifyOtp_matched_iff.mpr husable
  have hclock : (db.onRedis (verifyOtp .register req.phone req.code db.redis)).2.now = db.now := by
    obtain ⟨e, he, hcode⟩ := husable
    rw [verifyOtp, verify_matched he hcode]
    rfl
  rw [verifyPhone, ifMatched] at h
  obtain ⟨ω₀, ωs₁, answer, mid, rfl, he, h₁⟩ := alone_query h
  obtain ⟨rfl, rfl⟩ := Prod.mk.inj (Option.some.inj he)
  rw [hmatched] at h₁
  obtain ⟨ωs₂, ωs₃, result, mid, rfl, hresult, h₂⟩ := Prog.alone_tryBind h₁
  obtain ⟨rfl, rfl, rfl⟩ := alone_liftError hresult
  obtain ⟨_, herror, -⟩ | ⟨result, hok, h₃⟩ := h₂
  · cases herror
  obtain rfl := Except.ok.inj hok
  obtain ⟨ωs₄, ωs₅, parsed, mid, rfl, hparse, h₄⟩ := Prog.alone_tryBind h₃
  obtain ⟨rfl, rfl, rfl⟩ := alone_liftError hparse
  cases hphone : PhoneNumber.new req.phone with
  | error e =>
    rw [hphone] at h₄
    obtain ⟨e', -, rfl, -⟩ | ⟨_, herror, -⟩ := h₄
    · refine iff_of_false (hcreated_error e') fun hc => ?_
      obtain ⟨phone, hvalid⟩ := isE164_of_new.mpr hc.phone
      cases hphone.symm.trans hvalid
    · cases herror
  | ok phone =>
    rw [hphone] at h₄
    obtain ⟨_, herror, -⟩ | ⟨phone, hok, h₅⟩ := h₄
    · cases herror
    obtain rfl := Except.ok.inj hok
    have hvalue := PhoneNumber.new_eq_ok hphone
    obtain ⟨ω₁, ωs₆, id, db₁, rfl, hid, h₆⟩ := alone_query h₅
    rw [AuthDb.exec] at hid
    split_ifs at hid with hdrawn
    obtain ⟨rfl, rfl⟩ := Prod.mk.inj (Option.some.inj hid)
    obtain ⟨hrefused, e, rfl⟩ | ⟨haccepts, ω₂, ω₃, ωs₇, db₂, rfl, huser, hnow, h₇⟩ :=
      createUser_alone rfl rfl h₆
    · refine iff_of_false (hcreated_error e) fun hc => hrefused ⟨hc.newId, ?_⟩
      exact fun id row hrow => hvalue ▸ hc.free id row hrow
    · have hissues := issued_created_iff huser h₇
      rw [hnow.trans hclock, ← drawn_sessionPlace req ω₀ ω₁ ω₂ ω₃ ωs₇] at hissues
      rw [hissues]
      obtain ⟨hnewId, hfree⟩ := haccepts
      constructor
      · exact fun hi => ⟨isE164_of_new.mp ⟨_, hphone⟩, fun id row hrow => hvalue ▸ hfree id row hrow,
          hnewId, hi⟩
      · exact fun hc => hc.issues

end Alone

section Faulty

variable {state : AuthState} {req : VerifyPhoneRequest} {db db' : AuthDb}

/-- A code that is not there does not come back. -/
theorem missing_exec {ω : Choice} {c : AuthCmd} {ans : c.Ans}
    (hc : ∃ h, Permitted state (.verifyPhone req) h c) (he : AuthDb.exec ω c db = some (ans, db'))
    (hmissing : db.redis.lookup (OtpPurpose.register.key req.phone) = none) :
    db'.redis.lookup (OtpPurpose.register.key req.phone) = none := by
  obtain ⟨h, hc⟩ := hc
  cases c with
  | redis c =>
    obtain ⟨-, rfl⟩ := Prod.mk.inj (Option.some.inj he)
    have hwrites : c.writes ≠ some (OtpPurpose.register.key req.phone) := by
      intro hkey
      cases c with
      | setEx key value seconds =>
        obtain rfl := Option.some.inj hkey
        obtain ⟨purpose, subject, hstores, -⟩ | hstores | ⟨_, _, _, _, h, -⟩ := hc
        · cases purpose with
          | register | login => obtain ⟨_, _, h, -⟩ := hstores; cases h
          | recover => cases hstores
          | twoFaSetup => obtain ⟨_, h⟩ := hstores; cases h
          | twoFaLogin => obtain ⟨_, _, _, h, -⟩ := hstores; cases h
        · obtain ⟨token, _, _, _, _, _, _, _, _, -, hkey, -⟩ := hstores
          refine OtpPurpose.key_ne ?_ hkey
          rw [refreshKey, String.toList_append]
          rintro ⟨⟩
        · cases h
      | incr => exact hc
      | get | del | ttl | expire | sadd => cases hkey
    refine Option.eq_none_iff_forall_ne_some.mpr fun e he => ?_
    obtain ⟨old, hold, -⟩ := Store.exec_value hwrites he
    cases hmissing.symm.trans hold
  | verifyOtp purpose subject code =>
    obtain ⟨-, rfl⟩ := Prod.mk.inj (Option.some.inj he)
    cases purpose with
    | register =>
      obtain ⟨r, hr, rfl, rfl⟩ := hc
      cases hr
      change (verifyOtp .register req.phone req.code db.redis).2.lookup _ = none
      rw [verifyOtp, verify_missing hmissing]
      exact hmissing
    | login => obtain ⟨_, h, -⟩ := hc; cases h
    | recover => cases hc
    | twoFaLogin => obtain ⟨_, _, h, -⟩ := hc; cases h
    | twoFaSetup => obtain ⟨_, h⟩ := hc; cases h
  | checkRateLimit key limit window =>
    obtain ⟨-, rfl⟩ := Prod.mk.inj (Option.some.inj he)
    refine (checkRateLimit_lookup (OtpPurpose.key_ne ?_) limit window db.redis).trans hmissing
    rw [String.toList_append]
    rintro ⟨⟩
  | _ =>
    rw [AuthDb.exec_redis he (by rintro _ ⟨⟩) (by rintro _ _ _ ⟨⟩) (by rintro _ _ _ ⟨⟩)]
    exact hmissing

variable {r : Except DomainError Response} {ωs : List VerifyChoice}

/-- A matched code is used up as soon as the command is executed. -/
theorem consumed (husable : Usable db req) (hexecutes : ∀ ω ∈ ωs.head?, ω.executes)
    (h : (faultyVerifyPhone state req).alone (faulty AuthDb.exec) ωs db = some (r, db')) :
    ¬ Usable db' req := by
  have hmissing : db'.redis.lookup (OtpPurpose.register.key req.phone) = none := by
    obtain ⟨ω, ωs, rfl, ⟨hnot, -⟩ | ⟨-, a, mid, he, hend⟩⟩ := failing_call h
    · cases hnot.symm.trans (hexecutes ω rfl)
    · have hmid : mid.redis.lookup (OtpPurpose.register.key req.phone) = none := by
        obtain ⟨-, rfl⟩ := Prod.mk.inj (Option.some.inj he)
        obtain ⟨e, he, hcode⟩ := husable
        change (verifyOtp .register req.phone req.code db.redis).2.lookup _ = none
        rw [verifyOtp, verify_matched he hcode, Store.lookup_put_of_ne (attemptsKey_ne _).symm]
        exact Store.lookup_put_none
      obtain rfl | hrest := hend
      · exact hmid
      · have hissues := (verifyPhone_permitted state req).issues (fun h c hc => Exists.intro h hc)
        exact Prog.wp.of_alone (Q := fun _ s => s.redis.lookup (OtpPurpose.register.key req.phone) = none)
          (failing_wp (fun ω c a s s' hc hs he => missing_exec hc he hs) (hissues.2 a) hmid) hrest
  rintro ⟨e, he, -⟩
  cases hmissing.symm.trans he

/-- A code that does not match creates nothing. -/
theorem nothing_created (husable : ¬ Usable db req)
    (h : (faultyVerifyPhone state req).alone (faulty AuthDb.exec) ωs db = some (r, db')) :
    db'.users = db.users ∧ db'.sessions = db.sessions := by
  obtain ⟨ω, ωs, rfl, ⟨-, rfl⟩ | ⟨-, a, mid, he, hend⟩⟩ := failing_call h
  · exact ⟨rfl, rfl⟩
  · obtain ⟨hanswer, rfl⟩ := Prod.mk.inj (Option.some.inj he)
    obtain rfl | hrest := hend
    · exact ⟨rfl, rfl⟩
    · have hsame : db' = (db.onRedis (verifyOtp .register req.phone req.code db.redis)).2 := by
        cases a with
        | error e => exact (Prog.alone_ret hrest).2.2
        | ok result =>
          cases result with
          | matched => exact absurd (verifyOtp_matched_iff.mp hanswer) husable
          | invalid | exceeded | notFound => exact (Prog.alone_ret hrest).2.2
      rw [hsame]
      exact ⟨rfl, rfl⟩

/-- However the calls fail: a request that is not answered with 201 has created nothing and leaves a
code that matches usable exactly if, where the code matches and the command that uses it up is
executed, no call fails and everything is there that it takes to register. -/
theorem all_or_nothing_iff
    (h : (faultyVerifyPhone state req).alone (faulty AuthDb.exec) ωs db = some (r, db')) :
    AllOrNothing req db r db' ↔ (Usable db req → (∀ ω ∈ ωs.head?, ω.executes) →
      (∀ ω ∈ ωs, ω.failure = none) ∧ Completes state req db (ωs.map CallChoice.choice)) := by
  by_cases husable : Usable db req
  · by_cases hexecutes : ∀ ω ∈ ωs.head?, ω.executes
    · have hconsumed := consumed husable hexecutes h
      have hcreated : AllOrNothing req db r db' ↔ Created r :=
        ⟨fun hall => by_contra fun hnot => hconsumed ((hall hnot).2.2 husable), absurd⟩
      rw [hcreated]
      obtain ⟨hnone, hclean⟩ | ⟨⟨ω, hω, hfails⟩, e, rfl⟩ := failing_alone h
      · rw [verifyPhone_created_iff husable hclean]
        exact ⟨fun hc _ _ => ⟨hnone, hc⟩, fun hc => (hc husable hexecutes).2⟩
      · refine iff_of_false (by rintro ⟨_, ⟨⟩⟩) fun hc => hfails ((hc husable hexecutes).1 ω hω)
    · refine iff_of_true ?_ fun _ h => absurd h hexecutes
      obtain ⟨ω, ωs, rfl, ⟨-, rfl⟩ | ⟨hexecuted, -⟩⟩ := failing_call h
      · exact fun _ => ⟨rfl, rfl, id⟩
      · exact absurd (by rintro _ ⟨⟩; exact hexecuted) hexecutes
  · refine iff_of_true ?_ fun h => absurd h husable
    obtain ⟨husers, hsessions⟩ := nothing_created husable h
    exact fun _ => ⟨husers, hsessions, fun h => absurd h husable⟩

end Faulty

section Alice

/-- A code for Alice's phone is stored. -/
def codeSent : AuthDb := (AuthDb.init 1700000000000 ∅ ∅).put (OtpPurpose.register.key alicePhone)
  (some ⟨"123456", some 1700000600000⟩)

def registration (deviceType : String) : VerifyPhoneRequest where
  phone := alicePhone
  code := "123456"
  deviceId := some "pixel-8"
  deviceName := some "Pixel 8"
  deviceType := some deviceType
  pushToken := none

/-- No call fails. -/
def drawing (uuid : Uuid) : VerifyChoice := ⟨⟨uuid, 0⟩, none⟩

/-- For a device of a type that the database does not know there is no session, but Alice is a user
and has no code any more. -/
theorem tablet_half_registered : ¬ ∀ ωs r db',
    (faultyVerifyPhone aliceServer (registration "tablet")).alone (faulty AuthDb.exec) ωs codeSent =
      some (r, db') → AllOrNothing (registration "tablet") codeSent r db' := by
  intro h
  have hrun : ∃ out ∈ (faultyVerifyPhone aliceServer (registration "tablet")).alone
      (faulty AuthDb.exec) [drawing .nil, drawing aliceId, drawing .nil, drawing .nil, drawing .nil,
        drawing aliceSessionId] codeSent, out.1.isOk = false ∧ aliceId ∈ out.2.users := by decide +kernel
  obtain ⟨⟨r, db'⟩, hsome, herror, halice⟩ := hrun
  have hnot : ¬ Created r := by
    rintro ⟨body, rfl⟩
    cases herror
  rw [(h _ r db' hsome hnot).1] at halice
  exact AList.notMem_empty _ halice

/-- The calls of a request that registers Alice. -/
def registering : List VerifyChoice :=
  [drawing .nil, drawing aliceId, drawing .nil, drawing .nil, drawing .nil, drawing aliceSessionId,
    drawing .nil, drawing aliceTokenId, drawing .nil]

theorem pixel_registered : ∃ r db',
    (faultyVerifyPhone aliceServer (registration "android")).alone (faulty AuthDb.exec) registering
      codeSent = some (r, db') ∧ AllOrNothing (registration "android") codeSent r db' := by
  have hrun : ((faultyVerifyPhone aliceServer (registration "android")).alone (faulty AuthDb.exec)
      registering codeSent).isSome = true := by decide +kernel
  obtain ⟨⟨r, db'⟩, hsome⟩ := Option.isSome_iff_exists.mp hrun
  have hissues : Issues aliceServer aliceId aliceSessionId
      ⟨"pixel-8", "Pixel 8", "android", none⟩ 1700000000000 :=
    ⟨by decide +kernel, by decide +kernel, by decide +kernel, by decide +kernel⟩
  refine ⟨r, db', hsome, (all_or_nothing_iff hsome).mpr fun _ _ => ⟨by decide, ?_⟩⟩
  exact ⟨by decide +kernel, by rintro _ _ ⟨⟩, AList.notMem_empty _, hissues⟩

end Alice

end Mesty.Auth.PartialRegistration
