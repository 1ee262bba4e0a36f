import Mesty.Auth.Repository

namespace Mesty.Auth.Services

open Mesty.Base.Ids Mesty.Base.Error Mesty.Concurrency.Program Mesty.Redis.Server
open Mesty.Auth.Entities Mesty.Auth.Otp Mesty.Auth.Repository

/-- The libraries that the services call: hashes, JSON, EdDSA tokens (decoded at a
time in seconds), and the texts of library errors. -/
structure AuthLib where
  sha256Hash : String → String
  hashPhone : (phone secret : String) → String
  toJson : RefreshSession → Except String String
  fromJson : String → Except String RefreshSession
  jwtEncode : AccessClaims → Except String String
  jwtDecode : (token : String) → (now : Nat) → Except String AccessClaims
  redisErrorText : RedisError → String
  uuidErrorText : String → String

/-- `serde_json` reads back what it wrote. -/
def AuthLib.JsonRoundTrip (lib : AuthLib) : Prop :=
  ∀ s json, lib.toJson s = .ok json → lib.fromJson json = .ok s

/-- No two identifiers have the same hash. -/
def AuthLib.DistinctHashes (lib : AuthLib) : Prop :=
  ∀ u v : Uuid, lib.sha256Hash u.toString = lib.sha256Hash v.toString → u = v

structure AuthState extends AuthLib where
  accessTtl : Nat
  refreshTtl : Nat
  phoneHashSecret : String

inductive ServiceError where
  | internal (msg : String)
  | unauthorized (msg : String)
  | notFound (msg : String)
  | alreadyExists (msg : String)
  | validation (msg : String)
  deriving DecidableEq

namespace ServiceError

/-- The text of `Display`. -/
def toString : ServiceError → String
  | internal msg => "Internal error: " ++ msg
  | unauthorized msg => "Unauthorized: " ++ msg
  | notFound msg => "Not found: " ++ msg
  | alreadyExists msg => "Already exists: " ++ msg
  | validation msg => "Validation error: " ++ msg

def toDomain : ServiceError → DomainError
  | internal msg => .internal msg
  | unauthorized msg => .unauthorized msg
  | notFound msg => .notFound msg
  | alreadyExists msg => .alreadyExists msg
  | validation msg => .validation msg

end ServiceError

abbrev ServiceTask := ExceptT ServiceError AuthProg

abbrev AuthTask := ExceptT DomainError AuthProg

section Task

variable {α ε ε' : Type}

def query (c : AuthCmd) : ExceptT ε AuthProg c.Ans := ExceptT.lift (Prog.cmd c)

/-- A pure `Result` with its error mapped. -/
def liftError (f : ε' → ε) (r : Except ε' α) : ExceptT ε AuthProg α :=
  ExceptT.mk (pure (r.mapError f))

/-- `.map_err(f)` on what an earlier task returns. -/
def mapErr (f : ε' → ε) (x : ExceptT ε' AuthProg α) : ExceptT ε AuthProg α := ExceptT.adapt f x

/-- A command whose answer is a `Result`. -/
def attempt (p : AuthProg (Except ε α)) : ExceptT ε AuthProg α := ExceptT.mk p

/-- `ok_or_else(…)?` -/
def okOr (o : Option α) (e : ε) : ExceptT ε AuthProg α :=
  match o with
  | none => throw e
  | some a => pure a

section Follows

variable {β : Type} {N : List ((c : AuthCmd) × c.Ans) → AuthCmd → Prop}
  {Q : List ((c : AuthCmd) × c.Ans) → Except ε β → Prop} {h : List ((c : AuthCmd) × c.Ans)}

theorem follows_query (c : AuthCmd) (f : c.Ans → ExceptT ε AuthProg β) :
    (query c >>= f).run.Follows N Q h ↔ N h c ∧ ∀ r, (f r).run.Follows N Q (h ++ [⟨c, r⟩]) :=
  Iff.rfl

theorem follows_liftError (g : ε' → ε) (r : Except ε' α) (f : α → ExceptT ε AuthProg β) :
    (liftError g r >>= f).run.Follows N Q h ↔
      (∀ a, r = .ok a → (f a).run.Follows N Q h) ∧ ∀ e, r = .error e → Q h (.error (g e)) := by
  cases r with
  | ok a => exact ⟨fun hf => ⟨fun b hb => Except.ok.inj hb ▸ hf, nofun⟩, fun hf => hf.1 a rfl⟩
  | error e => exact ⟨fun hQ => ⟨nofun, fun e' he => Except.error.inj he ▸ hQ⟩, fun hQ => hQ.2 e rfl⟩

theorem follows_liftError_pure (g : ε' → ε) (r : Except ε' β) :
    (liftError g r).run.Follows N Q h ↔
      (∀ b, r = .ok b → Q h (.ok b)) ∧ ∀ e, r = .error e → Q h (.error (g e)) := by
  rw [← bind_pure (liftError g r), follows_liftError]
  rfl

theorem follows_okOr (o : Option α) (e : ε) (f : α → ExceptT ε AuthProg β) :
    (okOr o e >>= f).run.Follows N Q h ↔
      (∀ a, o = some a → (f a).run.Follows N Q h) ∧ (o = none → Q h (.error e)) := by
  cases o with
  | none => exact ⟨fun hQ => ⟨nofun, fun _ => hQ⟩, fun hQ => hQ.2 rfl⟩
  | some a => exact ⟨fun hf => ⟨fun b hb => Option.some.inj hb ▸ hf, nofun⟩, fun hf => hf.1 a rfl⟩

theorem follows_mapErr (g : ε' → ε) (x : ExceptT ε' AuthProg α) (f : α → ExceptT ε AuthProg β) :
    (mapErr g x >>= f).run.Follows N Q h ↔ x.run.Follows N (fun h' r => match r with
      | .ok a => (f a).run.Follows N Q h'
      | .error e => Q h' (.error (g e))) h := by
  have hrun : (mapErr g x).run = x.run >>= fun r => pure (r.mapError g) := rfl
  rw [Prog.follows_run_bind, hrun, Prog.follows_bind]
  refine iff_of_eq (congrArg (fun Q' => x.run.Follows N Q' h) ?_)
  funext h' r
  cases r <;> rfl

end Follows

end Task

def TEMP_SESSION_ID : String := "temp"

def sessionKey (sessionId : Uuid) : String := "session:" ++ sessionId.toString

variable (state : AuthState)

def refreshKey (token : String) : String := "refresh:" ++ state.sha256Hash token

def redisFailure {α : Type} (r : Except RedisError α) : AuthTask α :=
  liftError (fun e => .internal (state.redisErrorText e)) r

/-- `chrono::Utc::now().timestamp()` -/
def timestamp : ServiceTask Nat := do return (← query .utcNow) / 1000

def generateAccessToken (userId sessionId : Uuid) : ServiceTask String := do
  let now ← timestamp
  liftError .internal
    (state.jwtEncode ⟨userId.toString, sessionId.toString, now + state.accessTtl, now⟩)

def generateTempToken (userId : Uuid) : ServiceTask String := do
  let now ← timestamp
  liftError .internal (state.jwtEncode ⟨userId.toString, TEMP_SESSION_ID, now + 300, now⟩)

def validateAccessToken (token : String) : ServiceTask AccessClaims := do
  let claims ← liftError .unauthorized (state.jwtDecode token (← timestamp))
  let now ← timestamp
  if claims.exp < now then throw (.unauthorized "Token expired")
  else return claims

def generateRefreshToken : ServiceTask String := do return (← query .newUuid).toString

def storeRefreshToken (token : String) (session : RefreshSession) : ServiceTask Unit := do
  let json ← liftError .internal (state.toJson session)
  let stored ← query (.redis (.setEx (refreshKey state token) json state.refreshTtl))
  liftError (fun e => .internal (state.redisErrorText e)) stored

/-- The number of deleted keys is not looked at. -/
def validateRefreshToken (token : String) : ServiceTask RefreshSession := do
  let stored ← query (.redis (.get (refreshKey state token)))
  let json ← okOr stored (.unauthorized "Invalid refresh token")
  let session ← liftError .internal (state.fromJson json)
  let _ ← query (.redis (.del (refreshKey state token)))
  return session

/-- The INSERT, then the set of phone hashes. -/
def createUser (user : User) : AuthTask Unit := do
  attempt (Prog.cmd (AuthCmd.insertUser user))
  let _ ← query (.redis (.sadd "phone_hashes" user.phoneHash))

def updateUser (user : User) : AuthTask Unit := do
  attempt (Prog.cmd (AuthCmd.updateUser user))
  let _ ← query (.redis (.sadd "phone_hashes" user.phoneHash))

section ReadsClock

variable {α β ε ε' : Type} {N : List ((c : AuthCmd) × c.Ans) → AuthCmd → Prop}
  {Q : List ((c : AuthCmd) × c.Ans) → Except ε β → Prop} {h : List ((c : AuthCmd) × c.Ans)}

/-- The task does nothing but read the clock, and returns something that satisfies `P`. -/
def ReadsClock (P : α → Prop) (x : ExceptT ε AuthProg α) : Prop :=
  ∀ h, x.run.Follows (fun _ c => c = .utcNow) (fun h' r =>
    (∃ es, h' = h ++ es ∧ ∀ e ∈ es, e.1 = .utcNow) ∧ ∀ a, r = .ok a → P a) h

theorem ReadsClock.follows {P : α → Prop} {x : ExceptT ε' AuthProg α} (hx : ReadsClock P x)
    {g : ε' → ε} {f : α → ExceptT ε AuthProg β} (hN : ∀ h, N h .utcNow)
    (hf : ∀ es a, (∀ e ∈ es, e.1 = .utcNow) → P a → (f a).run.Follows N Q (h ++ es))
    (hQ : ∀ es e, (∀ e ∈ es, e.1 = .utcNow) → Q (h ++ es) (.error (g e))) :
    (mapErr g x >>= f).run.Follows N Q h := by
  rw [follows_mapErr]
  refine (hx h).mono (fun h' c hc => hc ▸ hN h') ?_
  rintro _ r ⟨⟨es, rfl, hes⟩, hr⟩
  cases r with
  | ok a => exact hf es a hes (hr a rfl)
  | error e => exact hQ es e hes

theorem generateAccessToken_readsClock (userId sessionId : Uuid) :
    ReadsClock (fun token => ∃ now : Nat, state.jwtEncode ⟨userId.toString, sessionId.toString,
      (now + state.accessTtl : Nat), (now : Nat)⟩ = .ok token)
      (generateAccessToken state userId sessionId) := by
  refine fun h => ⟨rfl, fun ms => ?_⟩
  refine (follows_liftError_pure _ _).mpr ⟨fun token htoken => ?_, fun _ _ => ?_⟩
  · exact ⟨⟨_, rfl, by simp⟩, fun a ha => ⟨_, Except.ok.inj ha ▸ htoken⟩⟩
  · exact ⟨⟨_, rfl, by simp⟩, nofun⟩

theorem generateTempToken_readsClock (userId : Uuid) :
    ReadsClock (fun _ => True) (generateTempToken state userId) :=
  fun h => ⟨rfl, fun ms => ⟨⟨_, rfl, by simp⟩, fun _ _ => trivial⟩⟩

theorem validateAccessToken_readsClock (token : String) :
    ReadsClock (fun claims => ∃ now, state.jwtDecode token now = .ok claims)
      (validateAccessToken state token) := by
  intro h
  refine ⟨rfl, fun ms => ?_⟩
  refine (follows_liftError _ _ _).mpr ⟨fun claims hc => ?_, fun e he => ?_⟩
  · refine ⟨rfl, fun ms' => ?_⟩
    have hes : ∃ es, h ++ [⟨.utcNow, ms⟩] ++ [⟨.utcNow, ms'⟩] = h ++ es ∧
        ∀ e ∈ es, e.1 = AuthCmd.utcNow :=
      ⟨[⟨.utcNow, ms⟩, ⟨.utcNow, ms'⟩], by simp, by simp⟩
    change (if claims.exp < (ms' / 1000 : Nat) then throw (.unauthorized "Token expired")
      else pure claims : ServiceTask AccessClaims).run.Follows _ _ _
    split
    · exact ⟨hes, nofun⟩
    · refine ⟨hes, fun a ha => ?_⟩
      obtain rfl := Except.ok.inj ha
      exact ⟨_, hc⟩
  · exact ⟨⟨_, rfl, by simp⟩, nofun⟩

end ReadsClock

end Mesty.Auth.Services
