import Mesty.Concurrency.Pool
import Mesty.Users.Repository

namespace Mesty.Users.Handlers

open Mesty.Base.Ids Mesty.Base.Error Mesty.Base.Text Mesty.Concurrency.Program
open Mesty.Concurrency.Pool Mesty.Redis.Server Mesty.Auth.UserRecords Mesty.Refinement.Like
open Mesty.Users.Repository
open Mesty.Users.Search (SearchQuery UserSearchResult toResult)

abbrev UsersTask := ExceptT DomainError (Prog UsersCmd UsersCmd.Ans)

section Task

variable {α : Type}

def ask (c : UsersCmd) : UsersTask c.Ans := ExceptT.lift (Prog.cmd c)

def attempt (p : Prog UsersCmd UsersCmd.Ans (Except DomainError α)) : UsersTask α := ExceptT.mk p

/-- `.map_err(|e| DomainError::Internal(e.to_string()))?` -/
def orInternal (p : Prog UsersCmd UsersCmd.Ans (Except DomainError α)) : UsersTask α :=
  ExceptT.adapt (fun e => .internal e.toString) (ExceptT.mk p)

section Follows

variable {β : Type} {N : List ((c : UsersCmd) × c.Ans) → UsersCmd → Prop}
  {Q : List ((c : UsersCmd) × c.Ans) → Except DomainError β → Prop}
  {h : List ((c : UsersCmd) × c.Ans)}

theorem follows_ask {c : UsersCmd} {f : c.Ans → UsersTask β} :
    (ask c >>= f).run.Follows N Q h ↔ N h c ∧ ∀ r, (f r).run.Follows N Q (h ++ [⟨c, r⟩]) := Iff.rfl

theorem follows_attempt {p : Prog UsersCmd UsersCmd.Ans (Except DomainError α)}
    {f : α → UsersTask β} :
    (attempt p >>= f).run.Follows N Q h ↔ p.Follows N (fun h' r => match r with
      | .ok a => (f a).run.Follows N Q h'
      | .error e => Q h' (.error e)) h := by
  rw [Prog.follows_run_bind]
  refine iff_of_eq (congrArg (fun Q' => p.Follows N Q' h) ?_)
  funext h' r
  cases r <;> rfl

theorem follows_orInternal {p : Prog UsersCmd UsersCmd.Ans (Except DomainError α)}
    {f : α → UsersTask β} :
    (orInternal p >>= f).run.Follows N Q h ↔ p.Follows N (fun h' r => match r with
      | .ok a => (f a).run.Follows N Q h'
      | .error e => Q h' (.error (.internal e.toString))) h := by
  have hrun : (orInternal p).run =
      p >>= fun r => pure (r.mapError fun e => .internal e.toString) := rfl
  rw [Prog.follows_run_bind, hrun, Prog.follows_bind]
  refine iff_of_eq (congrArg (fun Q' => p.Follows N Q' h) ?_)
  funext h' r
  cases r <;> rfl

end Follows

end Task

structure UserProfileResponse where
  id : String
  username : Option String
  displayName : String
  bio : Option String
  avatarUrl : Option String
  statusText : Option String
  deriving DecidableEq

structure BlockResponse where
  id : String
  blockedId : String
  createdAt : Timestamp
  deriving DecidableEq

inductive Body where
  | error (text : String)
  | profile (profile : UserProfileResponse)
  | results (results : List UserSearchResult)
  | block (block : BlockResponse)
  | blocks (blocks : List BlockResponse)
  | empty
  deriving DecidableEq

structure Response where
  status : Nat
  body : Body
  deriving DecidableEq

/-- The library that writes and reads profiles as JSON, and the texts of Redis errors. -/
structure UsersLib where
  toJson : CachedProfile → Except Unit String
  fromJson : String → Option CachedProfile
  redisErrorText : RedisError → String

/-- `serde_json` reads back what it wrote. -/
def UsersLib.JsonRoundTrip (lib : UsersLib) : Prop :=
  ∀ profile json, lib.toJson profile = .ok json → lib.fromJson json = some profile

def profileTtlSeconds : Nat := 300

def profileKey (userId : Uuid) : String := "profile:" ++ userId.toString

def toResponse (p : CachedProfile) : UserProfileResponse :=
  ⟨p.id.toString, p.username, p.displayName, p.bio, p.avatarUrl, p.statusText⟩

variable (lib : UsersLib)

/-- `ProfileCache::get`, of which only a profile is looked at. -/
def cachedProfile (userId : Uuid) : UsersTask (Option CachedProfile) := do
  match ← ask (.cacheGet (profileKey userId)) with
  | .ok (some json) => return lib.fromJson json
  | _ => return none

/-- `let _ = cache.set(…)` -/
def cacheProfile (profile : CachedProfile) : UsersTask Unit := do
  match lib.toJson profile with
  | .error _ => return ()
  | .ok json =>
    let _ ← ask (.cacheSetEx (profileKey profile.id) json profileTtlSeconds)
    return ()

def loadProfile (userId : Uuid) : UsersTask Response := do
  match ← attempt (Prog.cmd (UsersCmd.findProfileById userId)) with
  | none => throw (.notFound "User not found")
  | some profile =>
    cacheProfile lib profile
    return ⟨200, .profile (toResponse profile)⟩

/-- The end of `get_user_profile` and the whole of `get_my_profile`. -/
def showProfile (userId : Uuid) : UsersTask Response := do
  match ← cachedProfile lib userId with
  | some cached => return ⟨200, .profile (toResponse cached)⟩
  | none => loadProfile lib userId

/-- One of the two checks of `get_user_profile`. -/
def refuseBlocked (blockerId blockedId : Uuid) : UsersTask Unit := do
  let isBlocked ← orInternal (Prog.cmd (UsersCmd.isUserBlocked blockerId blockedId))
  if isBlocked then throw (.notFound "User not found") else return ()

theorem follows_refuseBlocked {blockerId blockedId : Uuid} {β : Type} {f : Unit → UsersTask β}
    {N : List ((c : UsersCmd) × c.Ans) → UsersCmd → Prop}
    {Q : List ((c : UsersCmd) × c.Ans) → Except DomainError β → Prop}
    {h : List ((c : UsersCmd) × c.Ans)} (hN : N h (.isUserBlocked blockerId blockedId))
    (herror : ∀ h' e, Q h' (.error e))
    (hf : (f ()).run.Follows N Q (h ++ [⟨.isUserBlocked blockerId blockedId, .ok false⟩])) :
    (refuseBlocked blockerId blockedId >>= f).run.Follows N Q h := by
  rw [refuseBlocked, bind_assoc, follows_orInternal]
  refine ⟨hN, fun isBlocked => ?_⟩
  obtain e | _ | _ := isBlocked
  · exact herror _ _
  · exact hf
  · exact herror _ _

def getUserProfile (authId userId : Uuid) : UsersTask Response := do
  refuseBlocked authId userId
  refuseBlocked userId authId
  showProfile lib userId

def getMyProfile (authId : Uuid) : UsersTask Response := showProfile lib authId

/-- The handler of `Search`, by its two calls. -/
def searchUsers (authId : Uuid) (query : SearchQuery) : UsersTask Response := do
  let limit := min (query.limit.getD 20) 50
  match query.q.filter (fun q => trim q ≠ "") with
  | none => return ⟨400, .error "Query parameter 'q' is required"⟩
  | some searchTerm =>
    match ← ask (.checkRateLimit ("search:" ++ authId.toString) 30 60) with
    | .error e => throw (.internal (lib.redisErrorText e))
    | .ok false => return ⟨429, .error "Too many search requests"⟩
    | .ok true =>
      let results ← attempt (Prog.cmd (UsersCmd.searchUsers searchTerm limit authId))
      return ⟨200, .results (results.map toResult)⟩

def blockUser (authId userId : Uuid) : UsersTask Response := do
  if userId = authId then return ⟨400, .error "Cannot block yourself"⟩
  let existing ← orInternal (Prog.cmd (UsersCmd.isUserBlocked authId userId))
  if existing then return ⟨409, .error "User already blocked"⟩
  let blockId ← attempt (Prog.cmd (UsersCmd.blockUser authId userId))
  let now ← ask .utcNow
  return ⟨201, .block ⟨blockId.toString, userId.toString, now⟩⟩

def unblockUser (authId userId : Uuid) : UsersTask Response := do
  let deleted ← attempt (Prog.cmd (UsersCmd.unblockUser authId userId))
  if deleted then return ⟨204, .empty⟩ else return ⟨404, .error "Block not found"⟩

def stampBlock (b : Uuid × Uuid) : UsersTask BlockResponse := do
  let now ← ask .utcNow
  return ⟨b.1.toString, b.2.toString, now⟩

def listBlocked (authId : Uuid) : UsersTask Response := do
  let blocked ← attempt (Prog.cmd (UsersCmd.listBlockedUsers authId))
  let blocks ← blocked.mapM stampBlock
  return ⟨200, .blocks blocks⟩

inductive UsersReq where
  | searchUsers (query : SearchQuery)
  | getUserProfile (userId : Uuid)
  | getMyProfile
  | blockUser (userId : Uuid)
  | unblockUser (userId : Uuid)
  | listBlocked

def handle (authId : Uuid) : UsersReq → UsersTask Response
  | .searchUsers query => searchUsers lib authId query
  | .getUserProfile userId => getUserProfile lib authId userId
  | .getMyProfile => getMyProfile lib authId
  | .blockUser userId => blockUser authId userId
  | .unblockUser userId => unblockUser authId userId
  | .listBlocked => listBlocked authId

/-- The requests to profiles and blocks, each with the user who makes it. -/
def usersServer (f : CaseFold) :
    System UsersCmd UsersCmd.Ans UsersDb UsersChoice (Uuid × UsersReq) (Except ApiError Response) where
  exec := UsersDb.exec f
  tick := UsersDb.tick
  handler r := (handle lib r.1 r.2).run

end Mesty.Users.Handlers
