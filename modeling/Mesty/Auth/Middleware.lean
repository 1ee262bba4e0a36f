import Mesty.Auth.Handlers
import Mesty.Concurrency.Pool

namespace Mesty.Auth.Middleware

open Mesty.Base.Ids Mesty.Base.Error Mesty.Concurrency.Program Mesty.Concurrency.Pool
open Mesty.Auth.Entities Mesty.Auth.Repository Mesty.Auth.Services Mesty.Auth.Handlers

variable (state : AuthState)

def unauthorizedResponse (error : String) : Response := ⟨401, .error error⟩

/-- Errors of Redis count as a missing cache entry. -/
def validateSession {ε : Type} (userId sessionId : Uuid) : ExceptT ε AuthProg Bool := do
  if (← query (.redis (.get (sessionKey sessionId)))).isSome then return true
  else if ← query (.isSessionValid userId sessionId) then
    let _ ← query (.redis (.setEx (sessionKey sessionId) "active" state.accessTtl))
    return true
  else return false

/-- The token after `Bearer `. -/
def bearerToken (authHeader : Option String) : Except Response String :=
  match authHeader with
  | none => .error (unauthorizedResponse "Missing bearer token")
  | some auth =>
    if auth.toList.take 7 = "Bearer ".toList then .ok (String.ofList (auth.toList.drop 7))
    else .error (unauthorizedResponse "Invalid authorization scheme")

theorem bearerToken_bearer (token : String) : bearerToken (some ("Bearer " ++ token)) = .ok token := by
  simp [bearerToken]

/-- `auth_middleware` from the token on, up to where the request goes on. -/
def authorize (token : String) : ExceptT Response AuthProg AuthenticatedUser := do
  let claims ← mapErr (fun _ => unauthorizedResponse "Invalid or expired token")
    (validateAccessToken state token)
  let userId ← okOr (Uuid.parseStr claims.sub) (unauthorizedResponse "Malformed token subject")
  if claims.sid = TEMP_SESSION_ID then
    throw (unauthorizedResponse "Temporary 2FA token cannot be used for this endpoint")
  else
    let sessionId ← okOr (Uuid.parseStr claims.sid) (unauthorizedResponse "Malformed token session")
    if ← validateSession state userId sessionId then return ⟨userId, sessionId⟩
    else throw (unauthorizedResponse "Session revoked or expired")

def authMiddleware (authHeader : Option String) : ExceptT Response AuthProg AuthenticatedUser := do
  authorize state (← liftError id (bearerToken authHeader))

theorem authMiddleware_bearer (token : String) :
    authMiddleware state (some ("Bearer " ++ token)) = authorize state token := by
  rw [authMiddleware, bearerToken_bearer]
  rfl

/-- A route behind a middleware. -/
def protect (middleware : ExceptT Response AuthProg AuthenticatedUser)
    (next : AuthenticatedUser → AuthTask Response) : AuthTask Response :=
  ExceptT.mk do
    match ← middleware.run with
    | .error response => return .ok response
    | .ok auth => (next auth).run

inductive Route where
  | twoFaSetup
  | twoFaSetupVerify (code : String)
  | listSessions
  | deleteSession (sessionId : Uuid)
  | logout

inductive AuthReq where
  | register (clientIp : String) (req : RegisterRequest)
  | verifyPhone (req : VerifyPhoneRequest)
  | login (clientIp : String) (req : LoginRequest)
  | loginVerify (req : LoginVerifyRequest)
  | refresh (refreshToken : String)
  | recover (phone : String)
  | recoverVerify (phone code : String)
  | twoFaVerify (req : TwoFactorChallengeRequest)
  | withAuth (authHeader : Option String) (route : Route)

def Route.handle (auth : AuthenticatedUser) : Route → AuthTask Response
  | twoFaSetup => Handlers.twoFaSetup state auth
  | twoFaSetupVerify code => Handlers.twoFaSetupVerify state auth code
  | listSessions => Handlers.listSessions auth
  | deleteSession sessionId => Handlers.deleteSession auth sessionId
  | logout => Handlers.logout auth

def AuthReq.handle : AuthReq → AuthTask Response
  | register clientIp req => Handlers.register state clientIp req
  | verifyPhone req => Handlers.verifyPhone state req
  | login clientIp req => Handlers.login state clientIp req
  | loginVerify req => Handlers.loginVerify state req
  | refresh refreshToken => Handlers.refresh state refreshToken
  | recover phone => Handlers.recover state phone
  | recoverVerify phone code => Handlers.recoverVerify state phone code
  | twoFaVerify req => Handlers.twoFaVerify state req
  | withAuth authHeader route =>
    protect (authMiddleware state authHeader) (fun auth => route.handle state auth)

/-- What the environment does: time passes, in milliseconds. -/
structure Env extends Choice where
  ms : Nat

/-- The auth endpoints over one Redis and one Postgres. -/
def authServer : System AuthCmd AuthCmd.Ans AuthDb Env AuthReq (Except ApiError Response) where
  exec ω := AuthDb.exec ω.toChoice
  tick ω db := some { db with redis := db.redis.wait ω.ms }
  handler req := (req.handle state).run

end Mesty.Auth.Middleware
