import Mesty.Auth.Middleware

namespace Mesty.Auth.Permits

open Mesty.Base.Ids Mesty.Base.Error Mesty.Concurrency.Program Mesty.Redis.Server
open Mesty.Auth.Entities Mesty.Auth.Otp Mesty.Auth.Repository Mesty.Auth.Services
open Mesty.Auth.Handlers Mesty.Auth.Middleware

/-- What a request has got answered so far. -/
abbrev History := List ((c : AuthCmd) × c.Ans)

def Matched (h : History) (purpose : OtpPurpose) (subject code : String) : Prop :=
  ⟨.verifyOtp purpose subject code, .ok .matched⟩ ∈ h

/-- The session of an access token in the `Authorization` header. -/
def CarriesSession (lib : AuthLib) (authHeader : Option String) (sessionId : Uuid) : Prop :=
  ∃ token now claims, bearerToken authHeader = .ok token ∧ lib.jwtDecode token now = .ok claims ∧
    claims.sid ≠ TEMP_SESSION_ID ∧ Uuid.parseStr claims.sid = some sessionId

/-- The session was found in the cache or in its table. -/
def Admitted (h : History) (sessionId : Uuid) : Prop :=
  (∃ value, ⟨.redis (.get (sessionKey sessionId)), some value⟩ ∈ h) ∨
    ∃ userId, ⟨.isSessionValid userId sessionId, true⟩ ∈ h

variable (state : AuthState)

/-- What a request has established before it gets a session for the user. -/
def Authorised (req : AuthReq) (h : History) (userId : Uuid) : Prop :=
  match req with
  | .verifyPhone r => ∃ user, Matched h .register r.phone r.code ∧
      ⟨.insertUser user, .ok ()⟩ ∈ h ∧ user.phone.value = r.phone ∧ user.id = userId
  | .loginVerify r => ∃ phone user, Matched h .login r.phone r.code ∧
      ⟨.findByPhone phone, some user⟩ ∈ h ∧ phone.value = r.phone ∧ user.twoFaEnabled = false ∧
      user.id = userId
  | .twoFaVerify r => ∃ id user, Matched h .twoFaLogin id.toString r.code ∧
      ⟨.findById id, some user⟩ ∈ h ∧ user.id = userId
  | .refresh token => ∃ json session n id user,
      ⟨.redis (.get (refreshKey state token)), some json⟩ ∈ h ∧
      state.fromJson json = .ok session ∧ ⟨.redis (.del (refreshKey state token)), n⟩ ∈ h ∧
      Uuid.parseStr session.userId = some id ∧ ⟨.findById id, some user⟩ ∈ h ∧ user.id = userId
  | _ => False

/-- Which request stores a code for which subject. -/
def StoresOtp (req : AuthReq) (h : History) : OtpPurpose → (subject : String) → Prop
  | .register, subject => ∃ clientIp r, req = .register clientIp r ∧ subject = r.phone
  | .login, subject => ∃ clientIp r, req = .login clientIp r ∧ subject = r.phone
  | .recover, subject => req = .recover subject
  | .twoFaLogin, subject => ∃ r phone user, req = .loginVerify r ∧
      Matched h .login r.phone r.code ∧ ⟨.findByPhone phone, some user⟩ ∈ h ∧
      phone.value = r.phone ∧ subject = user.id.toString
  | .twoFaSetup, _ => ∃ authHeader, req = .withAuth authHeader .twoFaSetup

/-- Which request verifies a code for which subject. -/
def VerifiesOtp (req : AuthReq) : OtpPurpose → (subject code : String) → Prop
  | .register, subject, code => ∃ r, req = .verifyPhone r ∧ subject = r.phone ∧ code = r.code
  | .login, subject, code => ∃ r, req = .loginVerify r ∧ subject = r.phone ∧ code = r.code
  | .recover, subject, code => req = .recoverVerify subject code
  | .twoFaLogin, subject, code => ∃ r id, req = .twoFaVerify r ∧ subject = Uuid.toString id ∧
      code = r.code
  | .twoFaSetup, _, code => ∃ authHeader, req = .withAuth authHeader (.twoFaSetupVerify code)

/-- A refresh token is stored right after it was drawn, for a session that the same
request has got. -/
def StoresRefresh (h : History) (key value : String) : Prop :=
  ∃ token session userId deviceId deviceName deviceType pushToken expiresAt sessionId,
    h.getLast? = some ⟨.newUuid, token⟩ ∧ key = refreshKey state (Uuid.toString token) ∧
    state.toJson session = .ok value ∧ session.userId = Uuid.toString userId ∧
    session.sessionId = Uuid.toString sessionId ∧
    ⟨.upsertSession userId deviceId deviceName deviceType pushToken expiresAt, .ok sessionId⟩ ∈ h

/-- All that a request can issue, and what it has got answered before. -/
def Permitted (req : AuthReq) (h : History) : AuthCmd → Prop
  | .redis (.get key) =>
    (∃ token, req = .refresh token ∧ key = refreshKey state token) ∨
    ∃ authHeader route sessionId, req = .withAuth authHeader route ∧
      CarriesSession state.toAuthLib authHeader sessionId ∧ key = sessionKey sessionId
  | .redis (.setEx key value _) =>
    (∃ purpose subject, StoresOtp req h purpose subject ∧ key = purpose.key subject) ∨
    StoresRefresh state h key value ∨
    ∃ authHeader route userId sessionId, req = .withAuth authHeader route ∧
      CarriesSession state.toAuthLib authHeader sessionId ∧
      h.getLast? = some ⟨.isSessionValid userId sessionId, true⟩ ∧ key = sessionKey sessionId
  | .redis (.del key) =>
    (∃ token json session, req = .refresh token ∧ key = refreshKey state token ∧
      h.getLast? = some ⟨.redis (.get key), some json⟩ ∧ state.fromJson json = .ok session) ∨
    ∃ authHeader userId sessionId existed, req = .withAuth authHeader .logout ∧
      ⟨.deleteSession userId sessionId, existed⟩ ∈ h ∧
      (key = sessionKey sessionId ∨ key = "refresh:" ++ sessionId.toString)
  | .redis (.sadd ..) => True
  | .redis _ => False
  | .verifyOtp purpose subject code => VerifiesOtp req purpose subject code
  | .insertUser user => ∃ r, req = .verifyPhone r ∧ Matched h .register r.phone r.code ∧
      user.phone.value = r.phone
  | .updateUser user => ∃ id old, ⟨.findById id, some old⟩ ∈ h ∧
      user = { old with twoFaEnabled := true }
  | .upsertSession userId .. => Authorised state req h userId
  | .deleteSession _ sessionId => ∃ authHeader, req = .withAuth authHeader (.deleteSession sessionId) ∨
      (req = .withAuth authHeader .logout ∧ CarriesSession state.toAuthLib authHeader sessionId ∧
        Admitted h sessionId ∧ ∀ n, ⟨.redis (.del (sessionKey sessionId)), n⟩ ∉ h)
  | .isSessionValid _ sessionId => ∃ authHeader route, req = .withAuth authHeader route ∧
      CarriesSession state.toAuthLib authHeader sessionId ∧
      h.getLast? = some ⟨.redis (.get (sessionKey sessionId)), none⟩
  | _ => True

/-- The request has got the session and stored the refresh token of its response. -/
def Issued (h : History) (response : AuthResponse) : Prop :=
  ∃ userId deviceId deviceName deviceType pushToken expiresAt sessionId token json,
    ⟨.upsertSession userId deviceId deviceName deviceType pushToken expiresAt, .ok sessionId⟩ ∈ h ∧
    ⟨.redis (.setEx (refreshKey state (Uuid.toString token)) json state.refreshTtl), .ok ()⟩ ∈ h ∧
    response.user.id = Uuid.toString userId ∧ response.refreshToken = Uuid.toString token

/-- What a request has done when it ends. -/
def Concluded (req : AuthReq) (h : History) (out : Except ApiError Response) : Prop :=
  match req with
  | .withAuth _ .logout =>
    (∀ userId sessionId existed, ⟨.deleteSession userId sessionId, existed⟩ ∈ h →
      ∃ n, ⟨.redis (.del (sessionKey sessionId)), n⟩ ∈ h) ∧
    ∀ body, out = .ok ⟨200, body⟩ → ∃ userId sessionId existed,
      ⟨.deleteSession userId sessionId, existed⟩ ∈ h
  | .withAuth _ (.deleteSession sessionId) =>
    ∀ body, out = .ok ⟨200, body⟩ → ∃ userId, ⟨.deleteSession userId sessionId, true⟩ ∈ h
  | _ => ∀ status response, out = .ok ⟨status, .tokens response⟩ → Issued state h response

section Rules

variable {state} {req : AuthReq} {h h' : History} {userId : Uuid}

theorem Matched.mono {purpose : OtpPurpose} {subject code : String}
    (hm : Matched h purpose subject code) (hsub : h ⊆ h') : Matched h' purpose subject code := hsub hm

theorem Authorised.mono (ha : Authorised state req h userId) (hsub : h ⊆ h') :
    Authorised state req h' userId := by
  cases req with
  | verifyPhone r =>
    obtain ⟨user, hm, hu, hrest⟩ := ha
    exact ⟨user, hsub hm, hsub hu, hrest⟩
  | loginVerify r =>
    obtain ⟨phone, user, hm, hu, hrest⟩ := ha
    exact ⟨phone, user, hsub hm, hsub hu, hrest⟩
  | twoFaVerify r =>
    obtain ⟨id, user, hm, hu, hrest⟩ := ha
    exact ⟨id, user, hsub hm, hsub hu, hrest⟩
  | refresh token =>
    obtain ⟨json, session, n, id, user, hg, hj, hd, hp, hu, hid⟩ := ha
    exact ⟨json, session, n, id, user, hsub hg, hj, hsub hd, hp, hsub hu, hid⟩
  | register | login | recover | recoverVerify | withAuth => exact ha

section Parts

variable {β : Type} {Q : History → Except DomainError β → Prop}

theorem permits_redisFailure {α : Type} {r : Except RedisError α} {f : α → AuthTask β}
    (hf : ∀ a, r = .ok a → (f a).run.Follows (Permitted state req) Q h)
    (hQ : ∀ h e, Q h (.error e)) :
    (redisFailure state r >>= f).run.Follows (Permitted state req) Q h :=
  (follows_liftError _ _ _).mpr ⟨hf, fun _ _ => hQ _ _⟩

theorem permits_parsePhone {text : String} {f : PhoneNumber → AuthTask β}
    (hf : ∀ phone : PhoneNumber, phone.value = text → (f phone).run.Follows (Permitted state req) Q h)
    (hQ : ∀ h e, Q h (.error e)) :
    (parsePhone text >>= f).run.Follows (Permitted state req) Q h :=
  (follows_liftError _ _ _).mpr
    ⟨fun phone hp => hf phone (PhoneNumber.new_eq_ok hp), fun _ _ => hQ _ _⟩

theorem permits_fromParts {parts : DeviceParts} {f : DeviceContext → AuthTask β}
    (hf : ∀ h' device, h <+: h' → (f device).run.Follows (Permitted state req) Q h') :
    (DeviceContext.fromParts parts >>= f).run.Follows (Permitted state req) Q h := by
  rw [DeviceContext.fromParts]
  cases parts.deviceId with
  | some deviceId => exact hf h _ (List.prefix_refl h)
  | none => exact ⟨trivial, fun id => hf _ _ (List.prefix_append _ _)⟩

theorem permits_sendOtp {purpose : OtpPurpose} {subject : String} {f : String → AuthTask β}
    (hs : ∀ h', h <+: h' → StoresOtp req h' purpose subject)
    (hf : ∀ h' code, h <+: h' → (f code).run.Follows (Permitted state req) Q h')
    (hQ : ∀ h e, Q h (.error e)) :
    (sendOtp state purpose subject >>= f).run.Follows (Permitted state req) Q h := by
  simp only [sendOtp, bind_assoc]
  refine (follows_query _ _).mpr ⟨trivial, fun random => ?_⟩
  refine (follows_query _ _).mpr ⟨.inl ⟨purpose, subject, hs _ (List.prefix_append _ _), rfl⟩, ?_⟩
  intro stored
  refine permits_redisFailure (fun _ _ => ?_) hQ
  exact hf _ _ ((List.prefix_append _ _).trans (List.prefix_append _ _))

theorem permits_issueTokens {user : User} {device : DeviceContext} {f : AuthResponse → AuthTask β}
    (ha : Authorised state req h user.id)
    (hf : ∀ h' response, h <+: h' → Issued state h' response →
      (f response).run.Follows (Permitted state req) Q h')
    (hQ : ∀ h e, Q h (.error e)) :
    (issueTokens state user device >>= f).run.Follows (Permitted state req) Q h := by
  simp only [issueTokens, bind_assoc]
  refine (follows_query _ _).mpr ⟨trivial, fun now => ?_⟩
  refine ⟨ha.mono (List.subset_append_left _ _), fun session => ?_⟩
  cases session with
  | error e => exact hQ _ e
  | ok sessionId =>
    refine (generateAccessToken_readsClock state _ _).follows (fun _ => trivial)
      (fun es accessToken _ _ => ?_) (fun _ _ _ => hQ _ _)
    have hsession := List.mem_append_left es (List.mem_append_right (h ++ [⟨.utcNow, now⟩])
      (List.mem_singleton_self (⟨AuthCmd.upsertSession user.id device.deviceId device.deviceName
        device.deviceType device.pushToken (now + state.refreshTtl * 1000), .ok sessionId⟩ :
        (c : AuthCmd) × c.Ans)))
    rw [service, follows_mapErr]
    refine ⟨trivial, fun token => ?_⟩
    change (service (storeRefreshToken state (Uuid.toString token) _) >>= _).run.Follows _ _ _
    rw [service, follows_mapErr, storeRefreshToken]
    refine (follows_liftError _ _ _).mpr ⟨fun json hj => ?_, fun _ _ => hQ _ _⟩
    refine (follows_query _ _).mpr ⟨?_, fun stored => ?_⟩
    · exact .inr (.inl ⟨token, _, user.id, _, _, _, _, _, sessionId, List.getLast?_concat, rfl, hj,
        rfl, rfl, List.mem_append_left _ hsession⟩)
    · cases stored with
      | error e => exact hQ _ _
      | ok u =>
        refine hf _ _ ?_ ⟨user.id, _, _, _, _, _, sessionId, token, json,
          List.mem_append_left _ (List.mem_append_left _ hsession), by simp, rfl, rfl⟩
        simp only [List.append_assoc]
        exact List.prefix_append _ _

theorem permits_ifMatched {invalid exceeded notFound : String} {purpose : OtpPurpose}
    {subject code : String} {next : AuthTask Response}
    {Q : History → Except DomainError Response → Prop} (hv : VerifiesOtp req purpose subject code)
    (hnext : ∀ h', h <+: h' → Matched h' purpose subject code →
      next.run.Follows (Permitted state req) Q h')
    (hreject : ∀ h status text, Q h (.ok (message status text))) (hQ : ∀ h e, Q h (.error e)) :
    (ifMatched state (rejection invalid exceeded notFound) purpose subject code next).run.Follows
      (Permitted state req) Q h := by
  refine (follows_query _ _).mpr ⟨hv, fun r => permits_redisFailure (fun result hr => ?_) hQ⟩
  subst hr
  cases result with
  | matched => exact hnext _ (List.prefix_append _ _) (by simp [Matched])
  | invalid | exceeded | notFound => exact hreject _ _ _

end Parts

end Rules

theorem concluded_error (req : AuthReq) (h : ∀ authHeader, req ≠ .withAuth authHeader .logout)
    (hist : History) (e : DomainError) : Concluded state req hist (.error e) := by
  unfold Concluded
  split
  · exact absurd rfl (h _)
  · nofun
  · nofun

theorem issued_of_eq {hist : History} {status : Nat} {response : AuthResponse}
    (hi : Issued state hist response) (status' : Nat) (response' : AuthResponse)
    (heq : (.ok ⟨status, .tokens response⟩ : Except ApiError Response) =
      .ok ⟨status', .tokens response'⟩) : Issued state hist response' := by
  cases heq
  exact hi

theorem register_permitted (clientIp : String) (r : RegisterRequest) :
    (register state clientIp r).run.Follows (Permitted state (.register clientIp r))
      (Concluded state (.register clientIp r)) [] := by
  have herr := concluded_error state (.register clientIp r) nofun
  refine permits_parsePhone (fun phone hp => ?_) herr
  refine (follows_query _ _).mpr ⟨trivial, fun answer => permits_redisFailure (fun allowed _ => ?_) herr⟩
  split
  · exact nofun
  refine (follows_query _ _).mpr ⟨trivial, fun existing => ?_⟩
  split
  · exact nofun
  · exact permits_sendOtp (fun _ _ => ⟨clientIp, r, rfl, hp⟩) (fun _ _ _ => nofun) herr

theorem login_permitted (clientIp : String) (r : LoginRequest) :
    (login state clientIp r).run.Follows (Permitted state (.login clientIp r))
      (Concluded state (.login clientIp r)) [] := by
  have herr := concluded_error state (.login clientIp r) nofun
  refine permits_parsePhone (fun phone hp => ?_) herr
  refine (follows_query _ _).mpr ⟨trivial, fun found => ?_⟩
  refine (follows_okOr _ _ _).mpr ⟨fun user _ => ?_, fun _ => herr _ _⟩
  refine (follows_query _ _).mpr ⟨trivial, fun answer => permits_redisFailure (fun allowed _ => ?_) herr⟩
  split
  · exact nofun
  · exact permits_sendOtp (fun _ _ => ⟨clientIp, r, rfl, hp⟩) (fun _ _ _ => nofun) herr

theorem recover_permitted (phone : String) :
    (recover state phone).run.Follows (Permitted state (.recover phone))
      (Concluded state (.recover phone)) [] := by
  have herr := concluded_error state (.recover phone) nofun
  refine permits_parsePhone (fun number hp => ?_) herr
  refine (follows_query _ _).mpr ⟨trivial, fun found => ?_⟩
  split
  · exact permits_sendOtp (fun _ _ => congrArg AuthReq.recover hp.symm) (fun _ _ _ => nofun) herr
  · exact nofun

theorem verifyPhone_permitted (r : VerifyPhoneRequest) :
    (verifyPhone state r).run.Follows (Permitted state (.verifyPhone r))
      (Concluded state (.verifyPhone r)) [] := by
  have herr := concluded_error state (.verifyPhone r) nofun
  refine permits_ifMatched ⟨r, rfl, rfl, rfl⟩ (fun h _ hm => ?_) (fun _ _ _ => nofun) herr
  refine permits_parsePhone (fun phone hp => ?_) herr
  refine (follows_query _ _).mpr ⟨trivial, fun id => ?_⟩
  dsimp only
  rw [follows_mapErr, createUser]
  refine ⟨⟨r, rfl, hm.mono (List.subset_append_left _ _), hp⟩, fun created => ?_⟩
  cases created with
  | error e => exact herr _ _
  | ok u =>
    refine (follows_query _ _).mpr ⟨trivial, fun n => ?_⟩
    refine permits_fromParts (fun h' device hle => ?_)
    have hsub := hle.subset
    refine permits_issueTokens ⟨_, hm.mono fun e he => hsub (by simp [he]), hsub (by simp), hp, rfl⟩
      (fun _ _ _ hi => issued_of_eq state hi) herr

theorem loginVerify_permitted (r : LoginVerifyRequest) :
    (loginVerify state r).run.Follows (Permitted state (.loginVerify r))
      (Concluded state (.loginVerify r)) [] := by
  have herr := concluded_error state (.loginVerify r) nofun
  refine permits_ifMatched ⟨r, rfl, rfl, rfl⟩ (fun h _ hm => ?_) (fun _ _ _ => nofun) herr
  refine permits_parsePhone (fun phone hp => ?_) herr
  refine (follows_query _ _).mpr ⟨trivial, fun found => ?_⟩
  refine (follows_okOr _ _ _).mpr ⟨fun user hu => ?_, fun _ => herr _ _⟩
  subst hu
  have hm' := hm.mono (List.subset_append_left h [⟨.findByPhone phone, some user⟩])
  have hfound : (⟨.findByPhone phone, some user⟩ : (c : AuthCmd) × c.Ans) ∈
      h ++ [⟨.findByPhone phone, some user⟩] := by simp
  split
  · refine permits_sendOtp (fun h' hle => ?_) (fun h' code _ => ?_) herr
    · exact ⟨r, phone, user, rfl, hm'.mono hle.subset, hle.subset hfound, hp, rfl⟩
    · exact (generateTempToken_readsClock state _).follows (fun _ => trivial)
        (fun _ _ _ _ => nofun) (fun _ _ _ => herr _ _)
  · next htwo =>
    refine permits_fromParts (fun h' device hle => ?_)
    exact permits_issueTokens ⟨phone, user, hm'.mono hle.subset, hle.subset hfound, hp,
      by simpa using htwo, rfl⟩ (fun _ _ _ hi => issued_of_eq state hi) herr

theorem refresh_permitted (token : String) :
    (refresh state token).run.Follows (Permitted state (.refresh token))
      (Concluded state (.refresh token)) [] := by
  have herr := concluded_error state (.refresh token) nofun
  simp only [refresh]
  rw [follows_mapErr, validateRefreshToken]
  refine (follows_query _ _).mpr ⟨.inl ⟨token, rfl, rfl⟩, fun stored => ?_⟩
  refine (follows_okOr _ _ _).mpr ⟨fun json hj => ?_, fun _ => herr _ _⟩
  subst hj
  refine (follows_liftError _ _ _).mpr ⟨fun session hs => ?_, fun _ _ => herr _ _⟩
  refine (follows_query _ _).mpr ⟨.inl ⟨token, json, session, rfl, rfl, rfl, hs⟩, fun n => ?_⟩
  refine (follows_okOr _ _ _).mpr ⟨fun id hid => ?_, fun _ => herr _ _⟩
  refine (follows_query _ _).mpr ⟨trivial, fun found => ?_⟩
  refine (follows_okOr _ _ _).mpr ⟨fun user hu => ?_, fun _ => herr _ _⟩
  subst hu
  refine permits_fromParts (fun h' device hle => ?_)
  exact permits_issueTokens ⟨json, session, n, id, user, hle.subset (by simp), hs,
    hle.subset (by simp), hid, hle.subset (by simp), rfl⟩ (fun _ _ _ hi => issued_of_eq state hi) herr

theorem recoverVerify_permitted (phone code : String) :
    (recoverVerify state phone code).run.Follows (Permitted state (.recoverVerify phone code))
      (Concluded state (.recoverVerify phone code)) [] := by
  have herr := concluded_error state (.recoverVerify phone code) nofun
  refine permits_ifMatched rfl (fun h _ hm => ?_) (fun _ _ _ => nofun) herr
  refine permits_parsePhone (fun number hp => ?_) herr
  refine (follows_query _ _).mpr ⟨trivial, fun found => ?_⟩
  refine (follows_okOr _ _ _).mpr ⟨fun user hu => ?_, fun _ => herr _ _⟩
  exact (generateTempToken_readsClock state _).follows (fun _ => trivial)
    (fun _ _ _ _ => nofun) (fun _ _ _ => herr _ _)

theorem twoFaVerify_permitted (r : TwoFactorChallengeRequest) :
    (twoFaVerify state r).run.Follows (Permitted state (.twoFaVerify r))
      (Concluded state (.twoFaVerify r)) [] := by
  have herr := concluded_error state (.twoFaVerify r) nofun
  refine (validateAccessToken_readsClock state _).follows (fun _ => trivial)
    (fun es claims _ _ => ?_) (fun _ _ _ => herr _ _)
  split
  · exact herr _ _
  refine (follows_okOr _ _ _).mpr ⟨fun id hid => ?_, fun _ => herr _ _⟩
  refine permits_ifMatched ⟨r, id, rfl, rfl, rfl⟩ (fun h _ hm => ?_) (fun _ _ _ => nofun) herr
  refine (follows_query _ _).mpr ⟨trivial, fun found => ?_⟩
  refine (follows_okOr _ _ _).mpr ⟨fun user hu => ?_, fun _ => herr _ _⟩
  subst hu
  refine permits_fromParts (fun h' device hle => ?_)
  have hsub := hle.subset
  exact permits_issueTokens ⟨id, user, hm.mono fun e he => hsub (by simp [he]), hsub (by simp), rfl⟩
    (fun _ _ _ hi => issued_of_eq state hi) herr

def Deletes : AuthCmd → Prop
  | .deleteSession .. | .redis (.del _) => True
  | _ => False

/-- Nothing was deleted so far. -/
def NoDelete (hist : History) : Prop := ∀ e ∈ hist, ¬ Deletes e.1

theorem noDelete_of_utcNow {es : History} (hes : ∀ e ∈ es, e.1 = .utcNow) : NoDelete es :=
  fun e he => by simp [hes e he, Deletes]

theorem NoDelete.snoc {hist : History} (h : NoDelete hist) {c : AuthCmd} (ans : c.Ans)
    (hc : ¬ Deletes c) : NoDelete (hist ++ [⟨c, ans⟩]) :=
  List.forall_mem_append.mpr ⟨h, List.forall_mem_singleton.mpr hc⟩

theorem bearerToken_error {authHeader : Option String} {response : Response}
    (h : bearerToken authHeader = .error response) :
    ∃ text, response = unauthorizedResponse text := by
  unfold bearerToken at h
  split at h
  · exact ⟨_, (Except.error.inj h).symm⟩
  · split at h
    · cases h
    · exact ⟨_, (Except.error.inj h).symm⟩

/-- What a route behind the middleware can rely on. -/
def Passed (authHeader : Option String) (hist : History) :
    Except Response AuthenticatedUser → Prop
  | .ok auth => CarriesSession state.toAuthLib authHeader auth.sessionId ∧
      Admitted hist auth.sessionId ∧ NoDelete hist
  | .error response => response.status = 401 ∧ (∃ text, response.body = .error text) ∧ NoDelete hist

theorem authMiddleware_permitted (authHeader : Option String) (route : Route) :
    (authMiddleware state authHeader).run.Follows (Permitted state (.withAuth authHeader route))
      (Passed state authHeader) [] := by
  have hreject : ∀ es text, (∀ e ∈ es, e.1 = AuthCmd.utcNow) →
      Passed state authHeader es (.error (unauthorizedResponse text)) :=
    fun es text hes => ⟨rfl, ⟨text, rfl⟩, noDelete_of_utcNow hes⟩
  refine (follows_liftError _ _ _).mpr ⟨fun token htoken => ?_, fun response hr => ?_⟩
  · refine (validateAccessToken_readsClock state token).follows (fun _ => trivial)
      (fun es claims hes hclaims => ?_) (fun es _ hes => hreject es _ hes)
    obtain ⟨now, hclaims⟩ := hclaims
    refine (follows_okOr _ _ _).mpr ⟨fun userId _ => ?_, fun _ => hreject es _ hes⟩
    split
    · exact hreject es _ hes
    · next htemp =>
      refine (follows_okOr _ _ _).mpr ⟨fun sessionId hs => ?_, fun _ => hreject es _ hes⟩
      have hcarries : CarriesSession state.toAuthLib authHeader sessionId :=
        ⟨token, now, claims, htoken, hclaims, htemp, hs⟩
      have hclean := noDelete_of_utcNow hes
      refine ⟨.inr ⟨authHeader, route, sessionId, rfl, hcarries, rfl⟩, fun cached => ?_⟩
      have hclean' := hclean.snoc cached id
      cases cached with
      | some value => exact ⟨hcarries, .inl ⟨value, by simp⟩, hclean'⟩
      | none =>
        refine ⟨⟨authHeader, route, rfl, hcarries, List.getLast?_concat⟩, fun valid => ?_⟩
        have hclean'' := hclean'.snoc valid id
        cases valid with
        | false => exact ⟨rfl, ⟨_, rfl⟩, hclean''⟩
        | true =>
          refine ⟨.inr (.inr ⟨authHeader, route, userId, sessionId, rfl, hcarries,
            List.getLast?_concat, rfl⟩), fun set => ?_⟩
          exact ⟨hcarries, .inr ⟨userId, by simp⟩, hclean''.snoc set id⟩
  · obtain ⟨text, rfl⟩ := bearerToken_error hr
    exact hreject [] text (by simp)

theorem route_permitted (authHeader : Option String) (route : Route) (auth : AuthenticatedUser)
    (hist : History) (hc : CarriesSession state.toAuthLib authHeader auth.sessionId)
    (hadmitted : Admitted hist auth.sessionId) (hnone : NoDelete hist) :
    (route.handle state auth).run.Follows (Permitted state (.withAuth authHeader route))
      (Concluded state (.withAuth authHeader route)) hist := by
  cases route with
  | twoFaSetup =>
    have herr := concluded_error state (.withAuth authHeader .twoFaSetup) nofun
    exact permits_sendOtp (fun _ _ => ⟨authHeader, rfl⟩) (fun _ _ _ => nofun) herr
  | twoFaSetupVerify code =>
    have herr := concluded_error state (.withAuth authHeader (.twoFaSetupVerify code)) nofun
    refine permits_ifMatched ⟨authHeader, rfl⟩ (fun h' hle hm => ?_) (fun _ _ _ => nofun) herr
    refine (follows_query _ _).mpr ⟨trivial, fun found => ?_⟩
    refine (follows_okOr _ _ _).mpr ⟨fun user hu => ?_, fun _ => herr _ _⟩
    subst hu
    refine ⟨⟨auth.userId, user, by simp, rfl⟩, fun updated => ?_⟩
    cases updated with
    | error e => exact herr _ _
    | ok u => exact (follows_query _ _).mpr ⟨trivial, fun n => nofun⟩
  | listSessions => exact (follows_query _ _).mpr ⟨trivial, fun sessions => nofun⟩
  | deleteSession sessionId =>
    refine (follows_query _ _).mpr ⟨⟨authHeader, .inl rfl⟩, fun existed => ?_⟩
    cases existed with
    | true => exact fun body _ => ⟨auth.userId, by simp⟩
    | false => exact nofun
  | logout =>
    refine (follows_query _ _).mpr ⟨⟨authHeader, .inr ⟨rfl, hc, hadmitted,
      fun n hm => hnone _ hm trivial⟩⟩, fun existed => ?_⟩
    refine (follows_query _ _).mpr ⟨.inr ⟨authHeader, auth.userId, auth.sessionId, existed, rfl,
      by simp, .inl rfl⟩, fun n => ?_⟩
    refine (follows_query _ _).mpr ⟨.inr ⟨authHeader, auth.userId, auth.sessionId, existed, rfl,
      by simp, .inr rfl⟩, fun n' => ?_⟩
    refine ⟨fun userId sessionId b hm => ?_, fun _ _ => ⟨auth.userId, auth.sessionId, existed, by simp⟩⟩
    have hsession : sessionId = auth.sessionId := by
      have hold : ⟨.deleteSession userId sessionId, b⟩ ∉ hist := fun hm => hnone _ hm trivial
      simp only [List.append_assoc, List.mem_append, hold, false_or] at hm
      simp at hm
      exact hm.1.2
    exact ⟨n, by simp [hsession]⟩

theorem rejected_concluded (authHeader : Option String) (route : Route) {hist : History}
    {response : Response} {text : String} (hstatus : response.status = 401)
    (hbody : response.body = .error text) (hclean : NoDelete hist) :
    Concluded state (.withAuth authHeader route) hist (.ok response) := by
  have hne : ∀ body, (.ok response : Except ApiError Response) ≠ .ok ⟨200, body⟩ := by
    rintro body ⟨⟩
    cases hstatus
  cases route with
  | logout =>
    exact ⟨fun userId sessionId existed hm => absurd trivial (hclean _ hm),
      fun body heq => absurd heq (hne body)⟩
  | deleteSession sessionId => exact fun body heq => absurd heq (hne body)
  | twoFaSetup | twoFaSetupVerify | listSessions =>
    rintro status tokens ⟨⟩
    cases hbody

theorem handle_permitted (req : AuthReq) :
    (req.handle state).run.Follows (Permitted state req) (Concluded state req) [] := by
  cases req with
  | register clientIp r => exact register_permitted state clientIp r
  | verifyPhone r => exact verifyPhone_permitted state r
  | login clientIp r => exact login_permitted state clientIp r
  | loginVerify r => exact loginVerify_permitted state r
  | refresh token => exact refresh_permitted state token
  | recover phone => exact recover_permitted state phone
  | recoverVerify phone code => exact recoverVerify_permitted state phone code
  | twoFaVerify r => exact twoFaVerify_permitted state r
  | withAuth authHeader route =>
    simp only [AuthReq.handle, protect, ExceptT.run_mk, Prog.follows_bind]
    refine (authMiddleware_permitted state authHeader route).mono (fun _ _ hc => hc) ?_
    intro hist r hr
    cases r with
    | ok auth => exact route_permitted state authHeader route auth hist hr.1 hr.2.1 hr.2.2
    | error response =>
      obtain ⟨hstatus, ⟨text, hbody⟩, hclean⟩ := hr
      exact rejected_concluded state authHeader route hstatus hbody hclean

end Mesty.Auth.Permits
