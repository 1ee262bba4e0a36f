import Mesty.Auth.Services

namespace Mesty.Auth.Handlers

open Mesty.Base.Ids Mesty.Base.Error Mesty.Concurrency.Program
open Mesty.Auth.Entities Mesty.Auth.Otp Mesty.Auth.Repository Mesty.Auth.Services

structure RegisterRequest where
  phone : String
  deviceId : String
  deviceName : String
  deviceType : String

/-- The optional device fields that several requests have. -/
structure DeviceParts where
  deviceId : Option String
  deviceName : Option String
  deviceType : Option String
  pushToken : Option String

structure VerifyPhoneRequest extends DeviceParts where
  phone : String
  code : String

structure LoginRequest where
  phone : String
  deviceId : String
  deviceName : String
  deviceType : String
  pushToken : Option String

structure LoginVerifyRequest extends DeviceParts where
  phone : String
  code : String

structure TwoFactorChallengeRequest extends DeviceParts where
  tempToken : String
  code : String

structure UserResponse where
  id : String
  phone : String
  username : Option String
  deriving DecidableEq

structure AuthResponse where
  accessToken : String
  refreshToken : String
  expiresIn : Nat
  user : UserResponse
  deriving DecidableEq

structure SessionResponse extends UserSessionRecord where
  isCurrent : Bool
  deriving DecidableEq

inductive Body where
  | error (error : String)
  | message (message : String)
  | tokens (response : AuthResponse)
  | twoFaRequired (tempToken : String)
  | recoverToken (token : String)
  | twoFaCode (message code : String)
  | sessions (sessions : List SessionResponse)
  deriving DecidableEq

structure Response where
  status : Nat
  body : Body
  deriving DecidableEq

def message (status : Nat) (text : String) : Response := ⟨status, .message text⟩

structure DeviceContext where
  deviceId : String
  deviceName : String
  deviceType : String
  pushToken : Option String

/-- `?` on the result of a service. -/
def service {α : Type} (x : ServiceTask α) : AuthTask α := mapErr ServiceError.toDomain x

def DeviceContext.fromParts (parts : DeviceParts) : AuthTask DeviceContext := do
  let deviceId ← match parts.deviceId with
    | some deviceId => pure deviceId
    | none => do pure (← query .newUuid).toString
  return ⟨deviceId, parts.deviceName.getD "unknown device", parts.deviceType.getD "web",
    parts.pushToken⟩

def parsePhone (phone : String) : AuthTask PhoneNumber :=
  liftError (fun e => .validation e.toString) (PhoneNumber.new phone)

def parseUserId (f : String → DomainError) (lib : AuthLib) (s : String) : AuthTask Uuid :=
  okOr (Uuid.parseStr s) (f (lib.uuidErrorText s))

variable (state : AuthState)

def issueTokens (user : User) (device : DeviceContext) : AuthTask AuthResponse := do
  let expiresAt := (← query .utcNow) + state.refreshTtl * 1000
  let sessionId ← attempt (Prog.cmd (AuthCmd.upsertSession user.id device.deviceId
    device.deviceName device.deviceType device.pushToken expiresAt))
  let accessToken ← service (generateAccessToken state user.id sessionId)
  let refreshSession : RefreshSession := ⟨user.id.toString, sessionId.toString, device.deviceId,
    device.deviceName, device.deviceType, device.pushToken⟩
  let refreshToken ← service generateRefreshToken
  service (storeRefreshToken state refreshToken refreshSession)
  return ⟨accessToken, refreshToken, state.accessTtl,
    ⟨user.id.toString, user.phone.value, user.username⟩⟩

/-- The answers to a code that does not match. -/
def rejection (invalid exceeded notFound : String) : OtpVerifyResult → Option Response
  | .matched => none
  | .invalid remaining => some (message 400 (invalid ++ toString remaining))
  | .exceeded => some (message 429 exceeded)
  | .notFound => some (message 400 notFound)

def phoneRejection : OtpVerifyResult → Option Response :=
  rejection "Código inválido. Intentos restantes: "
    "Demasiados intentos fallidos. Por favor solicita un nuevo código."
    "El código ha expirado. Por favor solicita uno nuevo."

def setupRejection : OtpVerifyResult → Option Response :=
  rejection "Código de configuración inválido. Intentos restantes: "
    "Demasiados intentos fallidos. Por favor inicia la configuración de 2FA nuevamente."
    "El código ha expirado. Por favor inicia la configuración de 2FA nuevamente."

def challengeRejection : OtpVerifyResult → Option Response :=
  rejection "Código 2FA inválido. Intentos restantes: "
    "Demasiados intentos fallidos. Por favor solicita un nuevo código."
    "El código ha expirado. Por favor solicita uno nuevo."

/-- Verify a code, and go on only if it matches. -/
def ifMatched (reject : OtpVerifyResult → Option Response) (purpose : OtpPurpose)
    (subject code : String) (next : AuthTask Response) : AuthTask Response := do
  let result ← redisFailure state (← query (.verifyOtp purpose subject code))
  match reject result with
  | some response => return response
  | none => next

/-- Generate a code and store it. -/
def sendOtp (purpose : OtpPurpose) (subject : String) : AuthTask String := do
  let code := generate (← query .random)
  redisFailure state (← query (.redis (storeOtp purpose subject code)))
  return code

def register (clientIp : String) (req : RegisterRequest) : AuthTask Response := do
  let phone ← parsePhone req.phone
  let rateKey := "register:" ++ clientIp ++ ":" ++ req.deviceId
  let allowed ← redisFailure state (← query (.checkRateLimit rateKey 5 3600))
  if !allowed then return message 429 "Too many requests"
  else if (← query (.findByPhone phone)).isSome then return message 202 "Código enviado"
  else
    let _ ← sendOtp state .register phone.value
    return message 202 "Código enviado"

def verifyPhone (req : VerifyPhoneRequest) : AuthTask Response :=
  ifMatched state phoneRejection .register req.phone req.code do
    let phone ← parsePhone req.phone
    let id ← query .newUuid
    let user : User := ⟨⟨none, phone, state.hashPhone phone.value state.phoneHashSecret, none, "",
      false, none, true, none⟩, id⟩
    mapErr (fun
      | .alreadyExists _ => .alreadyExists "User already registered"
      | e => e) (createUser user)
    let device ← DeviceContext.fromParts req.toDeviceParts
    return ⟨201, .tokens (← issueTokens state user device)⟩

def login (clientIp : String) (req : LoginRequest) : AuthTask Response := do
  let phone ← parsePhone req.phone
  let _ ← okOr (← query (.findByPhone phone)) (.unauthorized "Credenciales inválidas")
  let rateKey := "login:" ++ clientIp ++ ":" ++ req.deviceId
  let allowed ← redisFailure state (← query (.checkRateLimit rateKey 10 3600))
  if !allowed then return message 429 "Too many requests"
  else
    let _ ← sendOtp state .login phone.value
    return message 202 "Código enviado"

def loginVerify (req : LoginVerifyRequest) : AuthTask Response :=
  ifMatched state phoneRejection .login req.phone req.code do
    let phone ← parsePhone req.phone
    let user ← okOr (← query (.findByPhone phone)) (.unauthorized "Usuario no encontrado")
    if user.twoFaEnabled then
      let _ ← sendOtp state .twoFaLogin user.id.toString
      return ⟨202, .twoFaRequired (← service (generateTempToken state user.id))⟩
    else
      let device ← DeviceContext.fromParts req.toDeviceParts
      return ⟨200, .tokens (← issueTokens state user device)⟩

def refresh (refreshToken : String) : AuthTask Response := do
  let session ← mapErr (fun e => .unauthorized e.toString)
    (validateRefreshToken state refreshToken)
  let userId ← parseUserId .internal state.toAuthLib session.userId
  let user ← okOr (← query (.findById userId)) (.unauthorized "Usuario no encontrado")
  let device ← DeviceContext.fromParts
    ⟨some session.deviceId, some session.deviceName, some session.deviceType, session.pushToken⟩
  return ⟨200, .tokens (← issueTokens state user device)⟩

def recover (phone : String) : AuthTask Response := do
  let phone ← parsePhone phone
  if (← query (.findByPhone phone)).isSome then
    let _ ← sendOtp state .recover phone.value
  return message 202 "Si la cuenta existe, enviamos un codigo de recuperacion"

def recoverVerify (phone code : String) : AuthTask Response :=
  ifMatched state phoneRejection .recover phone code do
    let phone ← parsePhone phone
    let user ← okOr (← query (.findByPhone phone)) (.unauthorized "Usuario no encontrado")
    return ⟨200, .recoverToken (← service (generateTempToken state user.id))⟩

def twoFaVerify (req : TwoFactorChallengeRequest) : AuthTask Response := do
  let claims ← mapErr (fun e => .unauthorized e.toString) (validateAccessToken state req.tempToken)
  if claims.sid ≠ TEMP_SESSION_ID then throw (.unauthorized "Token temporal invalido")
  else
    let userId ← parseUserId .unauthorized state.toAuthLib claims.sub
    ifMatched state challengeRejection .twoFaLogin userId.toString req.code do
      let user ← okOr (← query (.findById userId)) (.unauthorized "Usuario no encontrado")
      let device ← DeviceContext.fromParts req.toDeviceParts
      return ⟨200, .tokens (← issueTokens state user device)⟩

structure AuthenticatedUser where
  userId : Uuid
  sessionId : Uuid

def twoFaSetup (auth : AuthenticatedUser) : AuthTask Response := do
  let code ← sendOtp state .twoFaSetup auth.userId.toString
  return ⟨200, .twoFaCode "2FA setup code generated" code⟩

def twoFaSetupVerify (auth : AuthenticatedUser) (code : String) : AuthTask Response :=
  ifMatched state setupRejection .twoFaSetup auth.userId.toString code do
    let user ← okOr (← query (.findById auth.userId)) (.notFound "Usuario no encontrado")
    updateUser { user with twoFaEnabled := true }
    return message 200 "2FA habilitado"

def listSessions (auth : AuthenticatedUser) : AuthTask Response := do
  let sessions ← query (.listSessions auth.userId)
  return ⟨200, .sessions (sessions.map (fun s => ⟨s, s.id = auth.sessionId⟩))⟩

def deleteSession (auth : AuthenticatedUser) (sessionId : Uuid) : AuthTask Response := do
  if ← query (.deleteSession auth.userId sessionId) then return message 200 "Sesion eliminada"
  else return message 404 "Sesion no encontrada"

/-- The second key is not the one under which a refresh token is stored. -/
def logout (auth : AuthenticatedUser) : AuthTask Response := do
  let _ ← query (.deleteSession auth.userId auth.sessionId)
  let _ ← query (.redis (.del (sessionKey auth.sessionId)))
  let _ ← query (.redis (.del ("refresh:" ++ auth.sessionId.toString)))
  return message 200 "Logout exitoso"

end Mesty.Auth.Handlers
