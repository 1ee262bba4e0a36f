import Mesty.Auth.Permits

namespace Mesty.Auth.TokenPairs

open Mesty.Base.Ids Mesty.Base.Error Mesty.Concurrency.Program
open Mesty.Auth.Entities Mesty.Auth.Otp Mesty.Auth.Repository Mesty.Auth.Services
open Mesty.Auth.Handlers Mesty.Auth.Middleware Mesty.Auth.Permits

variable (state : AuthState)

/-- The two tokens of a response are for one session of the user, which the request has got:
the access token names it, and the refresh token is stored with it. -/
def Pair (h : History) (userId : Uuid) (response : AuthResponse) : Prop :=
  ∃ deviceId deviceName deviceType pushToken expiresAt sessionId iat json,
    ⟨.upsertSession userId deviceId deviceName deviceType pushToken expiresAt, .ok sessionId⟩ ∈ h ∧
    state.jwtEncode ⟨userId.toString, Uuid.toString sessionId, (iat + state.accessTtl : Nat),
      (iat : Nat)⟩ = .ok response.accessToken ∧
    state.toJson ⟨userId.toString, Uuid.toString sessionId, deviceId, deviceName, deviceType,
      pushToken⟩ = .ok json ∧
    ⟨.redis (.setEx (refreshKey state response.refreshToken) json state.refreshTtl), .ok ()⟩ ∈ h ∧
    response.user.id = userId.toString

def PairReturned (h : History) (out : Except ApiError Response) : Prop :=
  ∀ status response, out = .ok ⟨status, .tokens response⟩ → ∃ userId, Pair state h userId response

/-- If the task returns tokens, they are a pair. -/
def Pairs (x : AuthTask Response) : Prop :=
  ∀ h, x.run.Follows (fun _ _ => True) (PairReturned state) h

variable {state}

theorem pairs_bind {α : Type} {x : AuthTask α} {f : α → AuthTask Response}
    (hf : ∀ a, Pairs state (f a)) : Pairs state (x >>= f) := by
  intro h
  rw [Prog.follows_run_bind]
  refine Prog.follows_of_prefix (fun _ _ _ => trivial) (fun h' r _ => ?_) _
  cases r with
  | ok a => exact hf a h'
  | error e => exact nofun

theorem pairs_return {response : Response} (h : ∀ tokens, response.body ≠ .tokens tokens) :
    Pairs state (return response) := by
  rintro hist status tokens heq
  cases heq
  exact absurd rfl (h tokens)

theorem pairs_message (status : Nat) (text : String) : Pairs state (return message status text) :=
  pairs_return nofun

theorem pairs_throw (e : DomainError) : Pairs state (throw e) := fun _ => nofun

theorem pairs_issueTokens (status : Nat) (user : User) (device : DeviceContext) :
    Pairs state (do return ⟨status, .tokens (← issueTokens state user device)⟩) := by
  intro h
  simp only [issueTokens, bind_assoc]
  refine (follows_query _ _).mpr ⟨trivial, fun now => ⟨trivial, fun session => ?_⟩⟩
  cases session with
  | error e => rintro _ _ ⟨⟩
  | ok sessionId =>
    refine (generateAccessToken_readsClock state _ _).follows (fun _ => trivial)
      (fun es accessToken _ haccess => ?_) (by rintro _ _ _ _ _ ⟨⟩)
    obtain ⟨iat, haccess⟩ := haccess
    rw [service, follows_mapErr]
    refine ⟨trivial, fun token => ?_⟩
    change (service (storeRefreshToken state (Uuid.toString token) _) >>= _).run.Follows _ _ _
    rw [service, follows_mapErr, storeRefreshToken]
    refine (follows_liftError _ _ _).mpr ⟨fun json hjson => ?_, by rintro _ _ _ _ ⟨⟩⟩
    refine (follows_query _ _).mpr ⟨trivial, fun stored => ?_⟩
    cases stored with
    | error e => rintro _ _ ⟨⟩
    | ok u =>
      rintro status' response heq
      cases heq
      exact ⟨user.id, _, _, _, _, now + state.refreshTtl * 1000, sessionId, iat, json, by simp, haccess,
        hjson, by simp, rfl⟩

theorem pairs_ifMatched {reject : OtpVerifyResult → Option Response} {purpose : OtpPurpose}
    {subject code : String} {next : AuthTask Response}
    (hreject : ∀ result response, reject result = some response → Pairs state (return response))
    (hnext : Pairs state next) : Pairs state (ifMatched state reject purpose subject code next) := by
  refine pairs_bind fun answer => pairs_bind fun result => ?_
  split
  · next heq => exact hreject result _ heq
  · exact hnext

theorem pairs_rejection (invalid exceeded notFound : String) (result : OtpVerifyResult)
    (response : Response) (h : rejection invalid exceeded notFound result = some response) :
    Pairs state (return response) := by
  cases result with
  | matched => cases h
  | invalid | exceeded | notFound =>
    obtain rfl := Option.some.inj h
    exact pairs_message _ _

theorem pairs_route (route : Route) (auth : AuthenticatedUser) :
    Pairs state (route.handle state auth) := by
  cases route with
  | twoFaSetup => exact pairs_bind fun code => pairs_return nofun
  | twoFaSetupVerify code =>
    exact pairs_ifMatched (pairs_rejection _ _ _) (pairs_bind fun found => pairs_bind fun user =>
      pairs_bind fun _ => pairs_message _ _)
  | listSessions => exact pairs_bind fun sessions => pairs_return nofun
  | deleteSession sessionId =>
    refine pairs_bind fun existed => ?_
    split
    · exact pairs_message _ _
    · exact pairs_message _ _
  | logout =>
    exact pairs_bind fun _ => pairs_bind fun _ => pairs_bind fun _ => pairs_message _ _

theorem pairs_public {req : AuthReq} (h : ∀ authHeader route, req ≠ .withAuth authHeader route) :
    Pairs state (req.handle state) := by
  cases req with
  | register clientIp r =>
    refine pairs_bind fun phone => pairs_bind fun answer => pairs_bind fun allowed => ?_
    split
    · exact pairs_message _ _
    refine pairs_bind fun existing => ?_
    split
    · exact pairs_message _ _
    · exact pairs_bind fun code => pairs_message _ _
  | verifyPhone r =>
    refine pairs_ifMatched (pairs_rejection _ _ _) (pairs_bind fun phone => pairs_bind fun id => ?_)
    exact pairs_bind fun _ => pairs_bind fun device => pairs_issueTokens _ _ _
  | login clientIp r =>
    refine pairs_bind fun phone => pairs_bind fun found => pairs_bind fun user =>
      pairs_bind fun answer => pairs_bind fun allowed => ?_
    split
    · exact pairs_message _ _
    · exact pairs_bind fun code => pairs_message _ _
  | loginVerify r =>
    refine pairs_ifMatched (pairs_rejection _ _ _) (pairs_bind fun phone => pairs_bind fun found =>
      pairs_bind fun user => ?_)
    split
    · exact pairs_bind fun code => pairs_bind fun temp => pairs_return nofun
    · exact pairs_bind fun device => pairs_issueTokens _ _ _
  | refresh token =>
    exact pairs_bind fun session => pairs_bind fun id => pairs_bind fun found =>
      pairs_bind fun user => pairs_bind fun device => pairs_issueTokens _ _ _
  | recover phone =>
    refine pairs_bind fun number => pairs_bind fun found => ?_
    split
    · exact pairs_bind fun code => pairs_message _ _
    · exact pairs_message _ _
  | recoverVerify phone code =>
    exact pairs_ifMatched (pairs_rejection _ _ _) (pairs_bind fun number => pairs_bind fun found =>
      pairs_bind fun user => pairs_bind fun temp => pairs_return nofun)
  | twoFaVerify r =>
    refine pairs_bind fun claims => ?_
    split
    · exact pairs_throw _
    refine pairs_bind fun id => pairs_ifMatched (pairs_rejection _ _ _) ?_
    exact pairs_bind fun found => pairs_bind fun user => pairs_bind fun device =>
      pairs_issueTokens _ _ _
  | withAuth authHeader route => exact absurd rfl (h authHeader route)

theorem handle_pairs (req : AuthReq) :
    (req.handle state).run.Follows (fun _ _ => True) (PairReturned state) [] := by
  by_cases hauth : ∃ authHeader route, req = .withAuth authHeader route
  · obtain ⟨authHeader, route, rfl⟩ := hauth
    simp only [AuthReq.handle, protect, ExceptT.run_mk, Prog.follows_bind]
    refine (authMiddleware_permitted state authHeader route).mono (fun _ _ _ => trivial) ?_
    intro h r hr
    cases r with
    | ok auth => exact pairs_route route auth h
    | error response =>
      obtain ⟨-, ⟨text, hbody⟩, -⟩ := hr
      rintro status tokens heq
      cases heq
      cases hbody
  · exact pairs_public (fun authHeader route heq => hauth ⟨authHeader, route, heq⟩) []

/-- The header carries a token that is decoded, whenever it is, to the claims of a temporary one. -/
def CarriesTemp (lib : AuthLib) (authHeader : Option String) : Prop :=
  ∃ token, bearerToken authHeader = .ok token ∧
    ∀ now claims, lib.jwtDecode token now = .ok claims → claims.sid = TEMP_SESSION_ID

theorem authMiddleware_temp {authHeader : Option String}
    (h : CarriesTemp state.toAuthLib authHeader) :
    (authMiddleware state authHeader).run.Follows (fun _ c => c = .utcNow)
      (fun _ r => ∃ text, r = .error (unauthorizedResponse text)) [] := by
  obtain ⟨token, htoken, htemp⟩ := h
  rw [authMiddleware, htoken]
  refine (validateAccessToken_readsClock state token).follows (fun _ => rfl)
    (fun es claims _ hclaims => ?_) (fun _ _ _ => ⟨_, rfl⟩)
  obtain ⟨now, hclaims⟩ := hclaims
  refine (follows_okOr _ _ _).mpr ⟨fun userId _ => ?_, fun _ => ⟨_, rfl⟩⟩
  rw [if_pos (htemp now claims hclaims)]
  exact ⟨_, rfl⟩

/-- A route behind the middleware is not reached with a temporary token. -/
theorem withAuth_temp {authHeader : Option String} (h : CarriesTemp state.toAuthLib authHeader)
    (route : Route) :
    ((AuthReq.withAuth authHeader route).handle state).run.Follows (fun _ c => c = .utcNow)
      (fun _ out => ∃ text, out = .ok (unauthorizedResponse text)) [] := by
  simp only [AuthReq.handle, protect, ExceptT.run_mk, Prog.follows_bind]
  refine (authMiddleware_temp h).mono (fun _ _ hc => hc) ?_
  rintro _ _ ⟨text, rfl⟩
  exact ⟨text, rfl⟩

end Mesty.Auth.TokenPairs
