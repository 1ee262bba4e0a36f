import Mesty.Auth.Repository
import Mesty.Concurrency.Restart

namespace Mesty.Discovery.Index

open Mesty.Base.Ids Mesty.Base.Error Mesty.Concurrency.Program Mesty.Concurrency.Restart
open Mesty.Auth.Entities Mesty.Auth.Repository

/-- What the libraries of hashes compute, and the secret of the server. -/
structure HashLib where
  hashPhone : String → String → String
  sha256Hex : String → String
  phoneHashSecret : String

namespace HashLib

variable (lib : HashLib)

def newHash (phone : String) : String := lib.hashPhone phone lib.phoneHashSecret

/-- The hashes of phone numbers do not collide. -/
structure Distinct : Prop where
  newHash : ∀ p q : PhoneNumber, lib.newHash p.value = lib.newHash q.value → p = q
  sha256Hex : ∀ p q : PhoneNumber, lib.sha256Hex p.value ≠ lib.newHash q.value

end HashLib

structure LegacyRow where
  id : Uuid
  phone : String
  phoneHash : String
  deriving DecidableEq

/-- The table `users` and the set `phone_hashes`. -/
structure IndexDb where
  users : AList (fun _ : Uuid => UserRow)
  phoneHashes : List String

inductive IndexCmd where
  | insertUser (user : User)
  | selectLegacy
  | updatePhoneHash (id : Uuid) (phoneHash : String)
  | srem (member : String)
  | sadd (member : String)

abbrev IndexCmd.Ans : IndexCmd → Type
  | insertUser _ => Except DomainError Unit
  | selectLegacy => List LegacyRow
  | updatePhoneHash .. => Unit
  | srem _ | sadd _ => Except String Unit

/-- What happens to a Redis command. One without an answer may have been executed. -/
inductive Delivery where
  | done
  | refused (error : String)
  | unanswered (error : String)

namespace Delivery

def arrives : Delivery → Bool
  | done | unanswered _ => true
  | refused _ => false

def answer : Delivery → Except String Unit
  | done => .ok ()
  | refused error | unanswered error => .error error

end Delivery

structure IndexChoice where
  delivery : Delivery
  /-- The rows of a SELECT that gives no order. -/
  rows : List LegacyRow

namespace IndexDb

variable (db : IndexDb)

def insertUser (user : User) : Except DomainError Unit × IndexDb :=
  if user.id ∈ db.users ∨
      db.users.entries.any (fun e => AuthDb.conflicts user.toUserRow e.2) then
    (.error (.fromSqlx .uniqueViolation), db)
  else (.ok (), { db with users := db.users.insert user.id user.toUserRow })

def legacyRows (lib : HashLib) : List LegacyRow :=
  (db.users.entries.filter (fun e => e.2.deletedAt = none ∧
    e.2.phoneHash = lib.sha256Hex e.2.phone.value)).map
      (fun e => ⟨e.1, e.2.phone.value, e.2.phoneHash⟩)

def updatePhoneHash (id : Uuid) (phoneHash : String) : IndexDb :=
  match db.users.lookup id with
  | none => db
  | some row => { db with users := db.users.insert id { row with phoneHash := phoneHash } }

def srem (member : String) : IndexDb :=
  { db with phoneHashes := db.phoneHashes.filter (· ≠ member) }

def sadd (member : String) : IndexDb := { db with phoneHashes := db.phoneHashes.insert member }

def exec (lib : HashLib) (ω : IndexChoice) : (c : IndexCmd) → IndexDb → Option (c.Ans × IndexDb)
  | .insertUser user, db => some (db.insertUser user)
  | .selectLegacy, db => if ω.rows.Perm (db.legacyRows lib) then some (ω.rows, db) else none
  | .updatePhoneHash id phoneHash, db => some ((), db.updatePhoneHash id phoneHash)
  | .srem member, db => some (ω.delivery.answer, if ω.delivery.arrives then db.srem member else db)
  | .sadd member, db => some (ω.delivery.answer, if ω.delivery.arrives then db.sadd member else db)

end IndexDb

abbrev IndexProg := Prog IndexCmd IndexCmd.Ans

variable (lib : HashLib)

def User.new (id : Uuid) (username : Option String) (phone : PhoneNumber)
    (email : Option String) : User :=
  ⟨⟨username, phone, lib.newHash phone.value, email, "", false, none, true, none⟩, id⟩

def create (user : User) : IndexProg (Except DomainError Unit) := do
  match ← Prog.cmd (IndexCmd.insertUser user) with
  | .error e => return .error e
  | .ok () => return (← Prog.cmd (IndexCmd.sadd user.phoneHash)).mapError .internal

/-- The loop over the rows. The errors of Redis are ignored. -/
def rehashRows : List LegacyRow → IndexProg Unit
  | [] => return ()
  | row :: rows => do
    Prog.cmd (IndexCmd.updatePhoneHash row.id (lib.newHash row.phone))
    let _ ← Prog.cmd (IndexCmd.srem row.phoneHash)
    let _ ← Prog.cmd (IndexCmd.sadd (lib.newHash row.phone))
    rehashRows rows

def rehashPhoneNumbers : IndexProg Unit := do
  let rows ← Prog.cmd IndexCmd.selectLegacy
  if rows.isEmpty then return () else rehashRows lib rows

structure NewUser where
  id : Uuid
  username : Option String
  phone : PhoneNumber
  email : Option String

/-- A server that rehashes the phone numbers when it starts, and creates users after that. -/
def indexServer : Service IndexCmd IndexCmd.Ans IndexDb IndexChoice NewUser
    (Except DomainError Unit) where
  exec := IndexDb.exec lib
  boot := rehashPhoneNumbers lib
  handler r := create (User.new lib r.id r.username r.phone r.email)

end Mesty.Discovery.Index
