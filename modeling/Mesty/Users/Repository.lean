import Mesty.Users.Search

namespace Mesty.Users.Repository

open Mesty.Base.Ids Mesty.Base.Error Mesty.Redis.Server Mesty.Auth.Otp Mesty.Auth.UserRecords
open Mesty.Refinement.Like
open Mesty.Users.Search (SearchDb SearchChoice)

/-- A row of `user_profiles` with the columns that are read. -/
structure ProfileRow where
  displayName : String
  bio : Option String

structure BlockRow where
  id : Uuid
  createdAt : Timestamp
  deriving DecidableEq

/-- The rows of `user_blocks`, by blocker and blocked user. -/
structure BlockTable where
  rows : AList (fun _ : Uuid × Uuid => BlockRow)
  irreflexive : ∀ userId, (userId, userId) ∉ rows

namespace BlockTable

def empty : BlockTable where
  rows := ∅
  irreflexive userId := AList.notMem_empty (userId, userId)

variable (t : BlockTable) {blockerId blockedId : Uuid}

def insert (h : blockerId ≠ blockedId) (row : BlockRow) : BlockTable where
  rows := t.rows.insert (blockerId, blockedId) row
  irreflexive userId hmem := by
    rw [AList.mem_insert, Prod.mk.injEq] at hmem
    obtain ⟨hblocker, hblocked⟩ | hmem := hmem
    · exact h (hblocker.symm.trans hblocked)
    · exact t.irreflexive userId hmem

def erase (blockerId blockedId : Uuid) : BlockTable where
  rows := t.rows.erase (blockerId, blockedId)
  irreflexive userId hmem := t.irreflexive userId (AList.mem_erase.mp hmem).2

end BlockTable

/-- The columns of a profile, as they are cached. -/
structure CachedProfile where
  id : Uuid
  username : Option String
  displayName : String
  bio : Option String
  avatarUrl : Option String
  statusText : Option String
  deriving DecidableEq

inductive UsersCmd where
  | isUserBlocked (blockerId blockedId : Uuid)
  | blockUser (blockerId blockedId : Uuid)
  | unblockUser (blockerId blockedId : Uuid)
  | listBlockedUsers (userId : Uuid)
  | findProfileById (userId : Uuid)
  | searchUsers (query : String) (limit : Int) (excludeUserId : Uuid)
  | checkRateLimit (rateKey : String) (limit window : Nat)
  | cacheGet (key : String)
  | cacheSetEx (key value : String) (seconds : Nat)
  | utcNow

/-- Of a failed call of the cache only that it has failed is looked at. -/
abbrev UsersCmd.Ans : UsersCmd → Type
  | isUserBlocked .. | unblockUser .. => Except DomainError Bool
  | blockUser .. => Except DomainError Uuid
  | listBlockedUsers _ => Except DomainError (List (Uuid × Uuid))
  | findProfileById _ => Except DomainError (Option CachedProfile)
  | searchUsers .. => Except DomainError (List (Uuid × Option String × String × Option String))
  | checkRateLimit .. => Except RedisError Bool
  | cacheGet _ => Except Unit (Option String)
  | cacheSetEx .. => Except Unit Unit
  | utcNow => Timestamp

/-- The tables that these requests read, and the state of Redis. -/
structure UsersDb where
  users : UserTable
  profiles : AList (fun _ : Uuid => ProfileRow)
  blocks : BlockTable
  redis : Store

abbrev BlockEntry := Sigma (fun _ : Uuid × Uuid => BlockRow)

/-- What is not the program's: fresh identifiers, the clock of the database, the order of rows that
a query leaves open, a failing SELECT or call of the cache (which may have been executed), and
what the rest of the program makes of the tables in the meantime. -/
structure UsersChoice where
  uuid : Uuid
  now : Timestamp
  rows : List BlockEntry
  search : SearchChoice
  error : Option SqlError
  failure : Option Bool
  ms : Nat
  users : UserTable
  profiles : AList (fun _ : Uuid => ProfileRow)

namespace UsersDb

variable (db : UsersDb)

def empty (now : Nat) : UsersDb := ⟨.empty, ∅, .empty, .empty now⟩

def findProfileById (userId : Uuid) : Option CachedProfile :=
  ((db.users.live userId).filter UserRecord.isActive).map (fun row =>
    ⟨userId, row.username, (db.profiles.lookup userId).elim "" ProfileRow.displayName,
      (db.profiles.lookup userId).bind ProfileRow.bio, row.avatarUrl, row.statusText⟩)

def isBlocked (blockerId blockedId : Uuid) : Bool := (blockerId, blockedId) ∈ db.blocks.rows

/-- The CHECK comes before the conflict, the foreign keys after it. -/
def blockUser (ω : UsersChoice) (blockerId blockedId : Uuid) : Except DomainError Uuid × UsersDb :=
  if h : blockerId = blockedId then (.error (.fromSqlx .checkViolation), db)
  else if db.isBlocked blockerId blockedId then (.ok ω.uuid, db)
  else if blockerId ∉ db.users.rows ∨ blockedId ∉ db.users.rows then
    (.error (.fromSqlx .foreignKeyViolation), db)
  else (.ok ω.uuid, { db with blocks := db.blocks.insert h ⟨ω.uuid, ω.now⟩ })

def unblockUser (blockerId blockedId : Uuid) : Bool × UsersDb :=
  (db.isBlocked blockerId blockedId, { db with blocks := db.blocks.erase blockerId blockedId })

def blockedBy (userId : Uuid) : List BlockEntry :=
  db.blocks.rows.entries.filter (fun e => e.1.1 = userId)

/-- Rows of the same time come in any order. -/
def listBlockedUsers (ω : UsersChoice) (userId : Uuid) : List (Uuid × Uuid) :=
  let rows := db.blockedBy userId
  ((if ω.rows.Perm rows then ω.rows else rows).mergeSort
    (fun e e' => e'.2.createdAt ≤ e.2.createdAt)).map (fun e => (e.2.id, e.1.2))

/-- What the search reads. -/
def toSearchDb : SearchDb where
  users := db.users
  displayNames := ⟨db.profiles.entries.map (fun e => ⟨e.1, e.2.displayName⟩), by
    simpa [List.NodupKeys, List.keys, Function.comp_def] using db.profiles.nodupKeys⟩
  blocks := db.blocks.rows.keys

def exec (f : CaseFold) (ω : UsersChoice) : (c : UsersCmd) → UsersDb → Option (c.Ans × UsersDb)
  | .isUserBlocked blockerId blockedId, db =>
    some (match ω.error with
      | none => .ok (db.isBlocked blockerId blockedId)
      | some e => .error (.fromSqlx e), db)
  | .blockUser blockerId blockedId, db =>
    if ω.uuid ∈ db.blocks.rows.entries.map (fun e => e.2.id) then none
    else some (db.blockUser ω blockerId blockedId)
  | .unblockUser blockerId blockedId, db =>
    some (.ok (db.unblockUser blockerId blockedId).1, (db.unblockUser blockerId blockedId).2)
  | .listBlockedUsers userId, db => some (.ok (db.listBlockedUsers ω userId), db)
  | .findProfileById userId, db =>
    some (match ω.error with
      | none => .ok (db.findProfileById userId)
      | some e => .error (.fromSqlx e), db)
  | .searchUsers query limit excludeUserId, db =>
    some (db.toSearchDb.searchUsers f ω.search query limit excludeUserId, db)
  | .checkRateLimit rateKey limit window, db =>
    some ((checkRateLimit rateKey limit window db.redis).1,
      { db with redis := (checkRateLimit rateKey limit window db.redis).2 })
  | .cacheGet key, db =>
    some (match ω.failure with
      | none => .ok ((db.redis.lookup key).map Entry.value)
      | some _ => .error (), db)
  | .cacheSetEx key value seconds, db =>
    let stored := (Store.exec (.setEx key value seconds) db.redis).2
    some (match ω.failure with
      | none => (.ok (), { db with redis := stored })
      | some true => (.error (), { db with redis := stored })
      | some false => (.error (), db))
  | .utcNow, db => some (ω.now, db)

/-- Time passes, and other requests write users and profiles. -/
def tick (ω : UsersChoice) (db : UsersDb) : Option UsersDb :=
  some { db with users := ω.users, profiles := ω.profiles, redis := db.redis.wait ω.ms }

end UsersDb

end Mesty.Users.Repository
