import Mathlib.Data.List.AList
import Mathlib.Tactic.SplitIfs
import Mesty.Auth.Entities
import Mesty.Auth.Otp

namespace Mesty.Auth.Repository

open Mesty.Base.Ids Mesty.Base.Error Mesty.Concurrency.Program Mesty.Redis.Server
open Mesty.Auth.Entities Mesty.Auth.Otp

/-- The single commands of Redis and Postgres, each atomic as a script is, and what
a request takes from outside. -/
inductive AuthCmd where
  | redis (c : RedisCmd)
  | verifyOtp (purpose : OtpPurpose) (subject code : String)
  | checkRateLimit (key : String) (limit window : Nat)
  | findByPhone (phone : PhoneNumber)
  | findById (id : Uuid)
  | insertUser (user : User)
  | updateUser (user : User)
  | upsertSession (userId : Uuid) (deviceId deviceName deviceType : String)
      (pushToken : Option String) (expiresAt : Nat)
  | listSessions (userId : Uuid)
  | deleteSession (userId sessionId : Uuid)
  | isSessionValid (userId sessionId : Uuid)
  | newUuid
  | utcNow
  | random

abbrev AuthCmd.Ans : AuthCmd → Type
  | redis c => c.Ans
  | verifyOtp .. => Except RedisError OtpVerifyResult
  | checkRateLimit .. => Except RedisError Bool
  | findByPhone _ | findById _ => Option User
  | insertUser _ | updateUser _ => Except DomainError Unit
  | upsertSession .. => Except DomainError Uuid
  | listSessions _ => List UserSessionRecord
  | deleteSession .. | isSessionValid .. => Bool
  | newUuid => Uuid
  | utcNow => Nat
  | random => UInt32

/-- The identifier that the command creates. -/
def AuthCmd.draws : (c : AuthCmd) → c.Ans → Option Uuid
  | newUuid, id => some id
  | upsertSession .., r => r.toOption
  | _, _ => none

def AuthCmd.upserted : (c : AuthCmd) → c.Ans → Option Uuid
  | upsertSession .., r => r.toOption
  | _, _ => none

def AuthCmd.deleted : AuthCmd → Option Uuid
  | deleteSession _ sessionId => some sessionId
  | _ => none

def AuthCmd.stores : AuthCmd → Option String
  | redis (.setEx key _ _) => some key
  | _ => none

theorem AuthCmd.eq_of_deleted {cmd : AuthCmd} {sessionId : Uuid} (h : cmd.deleted = some sessionId) :
    ∃ userId, cmd = .deleteSession userId sessionId := by
  cases cmd <;> cases h
  exact ⟨_, rfl⟩

theorem AuthCmd.eq_of_stores {cmd : AuthCmd} {key : String} (h : cmd.stores = some key) :
    ∃ value seconds, cmd = .redis (.setEx key value seconds) := by
  rcases cmd with c | _ <;> first | cases h | skip
  cases c <;> cases h
  exact ⟨_, _, rfl⟩

/-- The keys of Redis strings that the command is about. -/
def AuthCmd.keys : AuthCmd → List String
  | redis c => c.key.toList
  | verifyOtp purpose subject _ => [purpose.key subject, attemptsKey (purpose.key subject)]
  | checkRateLimit key _ _ => ["rate:" ++ key]
  | _ => []

abbrev AuthProg := Prog AuthCmd AuthCmd.Ans

/-- One clock, in milliseconds, serves Redis, Postgres and the program. -/
structure AuthDb where
  redis : Store
  users : AList (fun _ : Uuid => UserRow)
  sessions : AList (fun _ : Uuid × String => SessionRow)
  /-- The identifiers that exist already. -/
  drawn : List Uuid

structure Choice where
  uuid : Uuid
  random : UInt32

namespace AuthDb

/-- Any users and sessions, and nothing in Redis. -/
def init (now : Nat) (users : AList (fun _ : Uuid => UserRow))
    (sessions : AList (fun _ : Uuid × String => SessionRow)) : AuthDb :=
  ⟨Store.empty now, users, sessions, users.keys ++ sessions.entries.map (fun e => e.2.id)⟩

def now (db : AuthDb) : Nat := db.redis.now

def onRedis {α : Type} (db : AuthDb) (out : α × Store) : α × AuthDb :=
  (out.1, { db with redis := out.2 })

def findByPhone (db : AuthDb) (phone : PhoneNumber) : Option User :=
  (db.users.entries.find? (fun e => e.2.phone = phone ∧ e.2.deletedAt = none)).map
    (fun e => { e.2 with id := e.1 })

def findById (db : AuthDb) (id : Uuid) : Option User :=
  ((db.users.lookup id).filter (fun row => row.deletedAt.isNone)).map (fun row => { row with id := id })

/-- The UNIQUE constraints of `users` besides the primary key. -/
def conflicts (user row : UserRow) : Bool :=
  row.phone = user.phone ∨ (row.username = user.username ∧ user.username.isSome) ∨
    (row.email = user.email ∧ user.email.isSome)

def insertUser (db : AuthDb) (user : User) : Except DomainError Unit × AuthDb :=
  if user.id ∈ db.users ∨ db.users.entries.any (fun e => conflicts user.toUserRow e.2) then
    (.error (.fromSqlx .uniqueViolation), db)
  else (.ok (), { db with users := db.users.insert user.id user.toUserRow })

def updateUser (db : AuthDb) (user : User) : Except DomainError Unit × AuthDb :=
  match db.findById user.id with
  | none => (.ok (), db)
  | some old =>
    if db.users.entries.any (fun e => e.1 ≠ user.id && conflicts user.toUserRow e.2) then
      (.error (.fromSqlx .uniqueViolation), db)
    else
      (.ok (), { db with
        users := db.users.insert user.id { user.toUserRow with deletedAt := old.deletedAt } })

/-- The labels of the type `device_type` in the database. -/
def deviceTypes : List String := ["android", "ios", "web", "desktop"]

/-- INSERT … ON CONFLICT (user_id, device_id) DO UPDATE. The id of the row is replaced too. -/
def upsertSession (db : AuthDb) (ω : Choice) (userId : Uuid)
    (deviceId deviceName deviceType : String) (pushToken : Option String) (expiresAt : Nat) :
    Option (Except DomainError Uuid × AuthDb) :=
  if ω.uuid ∈ db.drawn then none
  else if deviceType ∉ deviceTypes then some (.error (.fromSqlx .other), db)
  else if userId ∉ db.users then some (.error (.fromSqlx .foreignKeyViolation), db)
  else
    let ipAddress := (db.sessions.lookup (userId, deviceId)).bind SessionRow.ipAddress
    some (.ok ω.uuid, { db with
      sessions := db.sessions.insert (userId, deviceId)
        ⟨ω.uuid, deviceName, deviceType, pushToken, ipAddress, db.now, expiresAt⟩
      drawn := ω.uuid :: db.drawn })

def listSessions (db : AuthDb) (userId : Uuid) : List UserSessionRecord :=
  ((db.sessions.entries.filter (fun e => e.1.1 = userId)).mergeSort
      (fun e f => f.2.lastActiveAt ≤ e.2.lastActiveAt)).map
    (fun e => ⟨e.2.id, e.2.deviceName, e.2.deviceType, e.2.ipAddress, e.2.lastActiveAt⟩)

def isSession (userId sessionId : Uuid) (e : Sigma (fun _ : Uuid × String => SessionRow)) : Bool :=
  e.1.1 = userId ∧ e.2.id = sessionId

def deleteSession (db : AuthDb) (userId sessionId : Uuid) : Bool × AuthDb :=
  (db.sessions.entries.any (isSession userId sessionId),
    { db with sessions := ⟨db.sessions.entries.filter (fun e => !isSession userId sessionId e),
        db.sessions.nodupKeys.sublist (List.filter_sublist)⟩ })

def isSessionValid (db : AuthDb) (userId sessionId : Uuid) : Bool :=
  db.sessions.entries.any (fun e => isSession userId sessionId e && db.now < e.2.expiresAt)

def exec (ω : Choice) : (c : AuthCmd) → AuthDb → Option (c.Ans × AuthDb)
  | .redis c, db => some (db.onRedis (Store.exec c db.redis))
  | .verifyOtp purpose subject code, db => some (db.onRedis (verifyOtp purpose subject code db.redis))
  | .checkRateLimit key limit window, db =>
    some (db.onRedis (checkRateLimit key limit window db.redis))
  | .findByPhone phone, db => some (db.findByPhone phone, db)
  | .findById id, db => some (db.findById id, db)
  | .insertUser user, db => some (db.insertUser user)
  | .updateUser user, db => some (db.updateUser user)
  | .upsertSession userId deviceId deviceName deviceType pushToken expiresAt, db =>
    db.upsertSession ω userId deviceId deviceName deviceType pushToken expiresAt
  | .listSessions userId, db => some (db.listSessions userId, db)
  | .deleteSession userId sessionId, db => some (db.deleteSession userId sessionId)
  | .isSessionValid userId sessionId, db => some (db.isSessionValid userId sessionId, db)
  | .newUuid, db =>
    if ω.uuid ∈ db.drawn then none else some (ω.uuid, { db with drawn := ω.uuid :: db.drawn })
  | .utcNow, db => some (db.now, db)
  | .random, db => some (ω.random, db)

def put (db : AuthDb) (key : String) (e : Option Entry) : AuthDb :=
  { db with redis := db.redis.put key e }

variable {ω : Choice} {c : AuthCmd} {ans : c.Ans} {db db' : AuthDb} {key : String} {e : Entry}

/-- A command on other keys neither reads nor changes what is stored under `key`. -/
theorem exec_put (h : key ∉ c.keys) (e : Option Entry) :
    exec ω c (db.put key e) = (exec ω c db).map (fun out => (out.1, out.2.put key e)) := by
  cases c with
  | redis c =>
    have hkey : c.key ≠ some key := fun heq => h (by simp [AuthCmd.keys, heq])
    simp only [exec, onRedis, put, Store.exec_put hkey, Option.map_some]
  | verifyOtp purpose subject code =>
    simp only [AuthCmd.keys, List.mem_cons, List.not_mem_nil, or_false, not_or] at h
    simp only [exec, onRedis, put, verifyOtp, verifyOtpWithLimit_put h.1 h.2, Option.map_some]
  | checkRateLimit rateKey limit window =>
    simp only [AuthCmd.keys, List.mem_cons, List.not_mem_nil, or_false] at h
    simp only [exec, onRedis, put, checkRateLimit_put h, Option.map_some]
  | insertUser user =>
    by_cases hc : user.id ∈ db.users ∨ db.users.entries.any (fun e => conflicts user.toUserRow e.2)
    · simp only [exec, insertUser, put, hc, if_true, Option.map_some]
    · simp only [exec, insertUser, put, hc, if_false, Option.map_some]
  | updateUser user =>
    have hfind : (db.put key e).findById user.id = db.findById user.id := rfl
    simp only [exec, updateUser, hfind, Option.map_some]
    cases db.findById user.id with
    | none => rfl
    | some old =>
      by_cases hc : db.users.entries.any (fun e => e.1 ≠ user.id && conflicts user.toUserRow e.2)
      · simp only [put, hc, if_true]
      · simp only [put, hc]
        rfl
  | upsertSession userId deviceId deviceName deviceType pushToken expiresAt =>
    by_cases hd : ω.uuid ∈ db.drawn <;> by_cases ht : deviceType ∈ deviceTypes <;>
      by_cases hu : userId ∈ db.users <;> simp [exec, upsertSession, put, now, hd, ht, hu]
  | newUuid =>
    by_cases hd : ω.uuid ∈ db.drawn <;> simp [exec, put, hd]
  | findByPhone | findById | listSessions | deleteSession | isSessionValid | utcNow | random => rfl

section Cases

variable {user : User} {userId sessionId : Uuid} {deviceId deviceName deviceType : String}
  {pushToken : Option String} {expiresAt : Nat}

theorem exec_insertUser_cases {r : Except DomainError Unit}
    (h : exec ω (.insertUser user) db = some (r, db')) : ∃ users, db' = { db with users := users } := by
  obtain ⟨-, rfl⟩ := Prod.ext_iff.mp (Option.some.inj h)
  simp only [insertUser]
  split
  · exact ⟨db.users, rfl⟩
  · exact ⟨_, rfl⟩

theorem exec_updateUser_cases {r : Except DomainError Unit}
    (h : exec ω (.updateUser user) db = some (r, db')) : ∃ users, db' = { db with users := users } := by
  obtain ⟨-, rfl⟩ := Prod.ext_iff.mp (Option.some.inj h)
  simp only [updateUser]
  split
  · exact ⟨db.users, rfl⟩
  · split
    · exact ⟨db.users, rfl⟩
    · exact ⟨_, rfl⟩

/-- An upsert fails, or it puts a row with a new identifier into its slot. -/
theorem upsertSession_cases {r : Except DomainError Uuid}
    (h : db.upsertSession ω userId deviceId deviceName deviceType pushToken expiresAt =
      some (r, db')) :
    (∃ err, r = .error err ∧ db' = db) ∨
    ω.uuid ∉ db.drawn ∧ r = .ok ω.uuid ∧ ∃ row, row.id = ω.uuid ∧ db' = { db with
      sessions := db.sessions.insert (userId, deviceId) row
      drawn := ω.uuid :: db.drawn } := by
  simp only [upsertSession] at h
  split at h
  · cases h
  · next hfresh =>
    split at h
    · cases h
      exact .inl ⟨_, rfl, rfl⟩
    · split at h
      · cases h
        exact .inl ⟨_, rfl, rfl⟩
      · cases h
        exact .inr ⟨hfresh, rfl, _, rfl, rfl⟩

theorem exec_newUuid_cases {id : Uuid} (h : exec ω .newUuid db = some (id, db')) :
    id ∉ db.drawn ∧ db' = { db with drawn := id :: db.drawn } := by
  simp only [exec] at h
  split at h
  · cases h
  · next hfresh =>
    cases h
    exact ⟨hfresh, rfl⟩

end Cases

/-- Postgres and the outside leave Redis as it is. -/
theorem exec_redis (h : exec ω c db = some (ans, db')) (hredis : ∀ r, c ≠ .redis r)
    (hotp : ∀ purpose subject code, c ≠ .verifyOtp purpose subject code)
    (hrate : ∀ k limit window, c ≠ .checkRateLimit k limit window) : db'.redis = db.redis := by
  cases c with
  | redis r => exact absurd rfl (hredis r)
  | verifyOtp purpose subject code => exact absurd rfl (hotp purpose subject code)
  | checkRateLimit k limit window => exact absurd rfl (hrate k limit window)
  | insertUser user =>
    obtain ⟨users, rfl⟩ := exec_insertUser_cases h
    rfl
  | updateUser user =>
    obtain ⟨users, rfl⟩ := exec_updateUser_cases h
    rfl
  | upsertSession userId deviceId deviceName deviceType pushToken expiresAt =>
    rcases upsertSession_cases h with ⟨_, -, rfl⟩ | ⟨-, -, _, -, rfl⟩ <;> rfl
  | newUuid =>
    obtain ⟨-, rfl⟩ := exec_newUuid_cases h
    rfl
  | findByPhone | findById | listSessions | deleteSession | isSessionValid | utcNow | random =>
    cases h
    rfl

/-- What a command draws is new, and nothing else becomes drawn. -/
theorem exec_drawn (h : exec ω c db = some (ans, db')) :
    db'.drawn = (c.draws ans).toList ++ db.drawn ∧ ∀ id, c.draws ans = some id → id ∉ db.drawn := by
  cases c with
  | insertUser user =>
    obtain ⟨users, rfl⟩ := exec_insertUser_cases h
    exact ⟨rfl, by rintro _ ⟨⟩⟩
  | updateUser user =>
    obtain ⟨users, rfl⟩ := exec_updateUser_cases h
    exact ⟨rfl, by rintro _ ⟨⟩⟩
  | upsertSession userId deviceId deviceName deviceType pushToken expiresAt =>
    rcases upsertSession_cases h with ⟨_, rfl, rfl⟩ | ⟨hfresh, rfl, _, -, rfl⟩
    · exact ⟨rfl, by rintro _ ⟨⟩⟩
    · exact ⟨rfl, fun id hid => Option.some.inj hid ▸ hfresh⟩
  | newUuid =>
    obtain ⟨hfresh, rfl⟩ := exec_newUuid_cases h
    exact ⟨rfl, fun id hid => Option.some.inj hid ▸ hfresh⟩
  | redis | verifyOtp | checkRateLimit | findByPhone | findById | listSessions | deleteSession
  | isSessionValid | utcNow | random =>
    cases h
    exact ⟨rfl, by rintro _ ⟨⟩⟩

theorem exec_sessions (h : exec ω c db = some (ans, db'))
    (hup : ∀ userId deviceId deviceName deviceType pushToken expiresAt,
      c ≠ .upsertSession userId deviceId deviceName deviceType pushToken expiresAt)
    (hdel : ∀ userId sessionId, c ≠ .deleteSession userId sessionId) :
    db'.sessions = db.sessions := by
  cases c with
  | insertUser user =>
    obtain ⟨users, rfl⟩ := exec_insertUser_cases h
    rfl
  | updateUser user =>
    obtain ⟨users, rfl⟩ := exec_updateUser_cases h
    rfl
  | upsertSession => exact absurd rfl (hup _ _ _ _ _ _)
  | deleteSession => exact absurd rfl (hdel _ _)
  | newUuid =>
    obtain ⟨-, rfl⟩ := exec_newUuid_cases h
    rfl
  | redis | verifyOtp | checkRateLimit | findByPhone | findById | listSessions | isSessionValid
  | utcNow | random =>
    cases h
    rfl

/-- A row of the new table was there, or it has the identifier that was drawn for it. -/
theorem mem_sessions_exec (h : exec ω c db = some (ans, db'))
    {e : Sigma (fun _ : Uuid × String => SessionRow)} (he : e ∈ db'.sessions.entries) :
    e ∈ db.sessions.entries ∨ e.2.id ∈ db'.drawn ∧ e.2.id ∉ db.drawn := by
  cases c with
  | insertUser user =>
    obtain ⟨users, rfl⟩ := exec_insertUser_cases h
    exact .inl he
  | updateUser user =>
    obtain ⟨users, rfl⟩ := exec_updateUser_cases h
    exact .inl he
  | upsertSession userId deviceId deviceName deviceType pushToken expiresAt =>
    rcases upsertSession_cases h with ⟨_, -, rfl⟩ | ⟨hfresh, -, row, hid, rfl⟩
    · exact .inl he
    · rw [AList.entries_insert, List.mem_cons] at he
      rcases he with rfl | he
      · exact .inr ⟨hid ▸ List.mem_cons_self, hid ▸ hfresh⟩
      · exact .inl ((List.kerase_sublist _ _).subset he)
  | newUuid =>
    obtain ⟨-, rfl⟩ := exec_newUuid_cases h
    exact .inl he
  | deleteSession userId sessionId =>
    cases h
    exact .inl (List.mem_of_mem_filter he)
  | redis | verifyOtp | checkRateLimit | findByPhone | findById | listSessions
  | isSessionValid | utcNow | random =>
    cases h
    exact .inl he

theorem findByPhone_eq_some {phone : PhoneNumber} {user : User} (h : db.findByPhone phone = some user) :
    user.phone = phone ∧ db.users.lookup user.id = some user.toUserRow := by
  obtain ⟨⟨id, row⟩, hfind, rfl⟩ := Option.map_eq_some_iff.mp h
  have hrow := List.find?_some hfind
  simp only [decide_eq_true_eq] at hrow
  exact ⟨hrow.1, AList.mem_lookup_iff.mpr (List.mem_of_find?_eq_some hfind)⟩

theorem findById_eq_some {id : Uuid} {user : User} (h : db.findById id = some user) :
    user.id = id ∧ db.users.lookup id = some user.toUserRow := by
  obtain ⟨row, hrow, rfl⟩ := Option.map_eq_some_iff.mp h
  exact ⟨rfl, (Option.filter_eq_some_iff.mp hrow).1⟩

/-- What a command does to the users: it adds one, or it replaces one that it finds. -/
theorem exec_users (h : exec ω c db = some (ans, db')) :
    db'.users = db.users ∨
    (∃ user, c = .insertUser user ∧ user.id ∉ db.users ∧
      db'.users = db.users.insert user.id user.toUserRow) ∨
    ∃ user old, c = .updateUser user ∧ db.findById user.id = some old ∧
      db'.users = db.users.insert user.id { user.toUserRow with deletedAt := old.deletedAt } := by
  cases c with
  | insertUser user =>
    obtain ⟨-, rfl⟩ := Prod.ext_iff.mp (Option.some.inj h)
    simp only [insertUser]
    split
    · exact .inl rfl
    · next hnew => exact .inr (.inl ⟨user, rfl, fun hm => hnew (.inl hm), rfl⟩)
  | updateUser user =>
    obtain ⟨-, rfl⟩ := Prod.ext_iff.mp (Option.some.inj h)
    simp only [updateUser]
    split
    · exact .inl rfl
    · next old hold =>
      split
      · exact .inl rfl
      · exact .inr (.inr ⟨user, old, rfl, hold, rfl⟩)
  | upsertSession userId deviceId deviceName deviceType pushToken expiresAt =>
    obtain ⟨_, -, rfl⟩ | ⟨-, -, _, -, rfl⟩ := upsertSession_cases h
    · exact .inl rfl
    · exact .inl rfl
  | newUuid =>
    obtain ⟨-, rfl⟩ := exec_newUuid_cases h
    exact .inl rfl
  | redis | verifyOtp | checkRateLimit | findByPhone | findById | listSessions | deleteSession
  | isSessionValid | utcNow | random =>
    cases h
    exact .inl rfl

/-- Where an update succeeds, the user that it finds has the new row, but for `deleted_at`. -/
theorem updateUser_ok {user old : User} (hold : db.findById user.id = some old)
    (h : exec ω (.updateUser user) db = some (.ok (), db')) :
    db'.users.lookup user.id = some { user.toUserRow with deletedAt := old.deletedAt } := by
  obtain ⟨hans, rfl⟩ := Prod.mk.inj (Option.some.inj h)
  simp only [hold] at hans ⊢
  split at hans
  · cases hans
  · next hc =>
    rw [if_neg hc]
    exact AList.lookup_insert _

/-- The keys of the counters. -/
def CounterKey (key : String) : Prop :=
  (∃ purpose : OtpPurpose, ∃ subject, key = attemptsKey (purpose.key subject)) ∨
    ∃ rateKey, key = "rate:" ++ rateKey

/-- Where a value comes from that is not a counter: it was there, or it is stored now. -/
theorem exec_value (h : exec ω c db = some (ans, db')) (hkey : ¬ CounterKey key)
    (he : db'.redis.lookup key = some e) :
    (∃ old, db.redis.lookup key = some old ∧ old.value = e.value) ∨
      (∃ seconds, c = .redis (.setEx key e.value seconds)) ∨ c = .redis (.incr key) := by
  cases c with
  | redis c =>
    obtain ⟨-, rfl⟩ := Prod.ext_iff.mp (Option.some.inj h)
    by_cases hw : c.writes = some key
    · cases c with
      | incr k => exact .inr (.inr (by rw [Option.some.inj hw]))
      | setEx k v seconds =>
        obtain rfl := Option.some.inj hw
        simp only [onRedis, Store.exec] at he
        split at he
        · exact .inl ⟨e, he, rfl⟩
        · simp only [Store.lookup_put_self, Option.filter_eq_some_iff, Option.some.injEq] at he
          exact .inr (.inl ⟨seconds, by rw [← he.1]⟩)
      | get | del | ttl | expire | sadd => cases hw
    · exact .inl (Store.exec_value hw he)
  | verifyOtp purpose subject code =>
    obtain ⟨-, rfl⟩ := Prod.ext_iff.mp (Option.some.inj h)
    exact .inl (verifyOtpWithLimit_value (fun heq => hkey (.inl ⟨purpose, subject, heq⟩)) he)
  | checkRateLimit rateKey limit window =>
    obtain ⟨-, rfl⟩ := Prod.ext_iff.mp (Option.some.inj h)
    have hne : key ≠ "rate:" ++ rateKey := fun heq => hkey (.inr ⟨rateKey, heq⟩)
    exact .inl ⟨e, (checkRateLimit_lookup hne limit window db.redis) ▸ he, rfl⟩
  | insertUser | updateUser | upsertSession | newUuid | findByPhone | findById | listSessions
  | deleteSession | isSessionValid | utcNow | random =>
    exact .inl ⟨e, (exec_redis h (by rintro _ ⟨⟩) (by rintro _ _ _ ⟨⟩) (by rintro _ _ _ ⟨⟩)) ▸ he, rfl⟩

end AuthDb

end Mesty.Auth.Repository
