import Mesty.Contacts.Handlers

namespace Mesty.Contacts.Book

open Mesty.Base.Ids Mesty.Base.Error Mesty.Concurrency.Program Mesty.Concurrency.Pool
open Mesty.Auth.Entities Mesty.Auth.Services Mesty.Auth.Middleware
open Mesty.Contacts.Repository
open Mesty.Contacts.Handlers (ContactReq ContactResponse Response)

abbrev ContactEntry := Sigma (fun _ : Uuid => ContactRow)

/-- The commands of the requests so far, and the statements for stored contacts. -/
inductive BookCmd where
  | contact (c : ContactCmd)
  | findAllByOwner (ownerId : Uuid)
  | findById (id : Uuid)
  | updateContact (contact : Contact)
  | deleteContact (id : Uuid)

abbrev BookCmd.Ans : BookCmd → Type
  | contact c => c.Ans
  | findAllByOwner _ => Except DomainError (List Contact)
  | findById _ => Except DomainError (Option Contact)
  | updateContact _ | deleteContact _ => Except DomainError Unit

/-- The order of names and phones depends on the collation of the database. -/
structure BookEnv extends Env where
  rows : List ContactEntry

namespace BookDb

variable (db : ContactsDb)

def ownedBy (ownerId : Uuid) : List ContactEntry :=
  db.contacts.entries.filter (fun e => e.2.ownerId = ownerId)

def findAllByOwner (ω : BookEnv) (ownerId : Uuid) : Except DomainError (List Contact) :=
  let owned := ownedBy db ownerId
  (if ω.rows.Perm owned then ω.rows else owned).mapM (fun e => mapRecordToContact e.1 e.2)

def findById (id : Uuid) : Except DomainError (Option Contact) :=
  match db.contacts.lookup id with
  | none => .ok none
  | some row => (mapRecordToContact id row).map some

/-- The trigger and the constraints are those of an INSERT. -/
def updateContact (contact : Contact) : Except DomainError Unit × ContactsDb :=
  match db.contacts.lookup contact.id with
  | none => (.ok (), db)
  | some row =>
    match normalizeE164 contact.phone.value with
    | .error e => (.error (.fromSqlx e), db)
    | .ok phone =>
      if db.contacts.entries.any (fun e =>
          e.1 ≠ contact.id ∧ e.2.ownerId = row.ownerId ∧ e.2.phone = phone) then
        (.error (.fromSqlx .uniqueViolation), db)
      else if contact.contactId.any (· ∉ db.users) then
        (.error (.fromSqlx .foreignKeyViolation), db)
      else
        let updated : ContactRow := ⟨row.ownerId, contact.contactId, phone, contact.nickname,
          contact.isFavorite, row.createdAt⟩
        (.ok (), { db with contacts := db.contacts.insert contact.id updated })

def exec (ω : BookEnv) : (c : BookCmd) → ContactsDb → Option (c.Ans × ContactsDb)
  | .contact c, db => ContactsDb.exec ω.toChoice c db
  | .findAllByOwner ownerId, db => some (findAllByOwner db ω ownerId, db)
  | .findById id, db => some (findById db id, db)
  | .updateContact contact, db => some (updateContact db contact)
  | .deleteContact id, db => some (.ok (), { db with contacts := db.contacts.erase id })

end BookDb

abbrev BookTask := ExceptT DomainError (Prog BookCmd BookCmd.Ans)

structure UpdateContactRequest where
  nickname : Option String
  isFavorite : Option Bool

inductive BookResponse where
  | response (r : Response)
  | contacts (contacts : List ContactResponse)
  | updated (contact : ContactResponse)
  | noContent
  deriving DecidableEq

def toResponse (c : Contact) : ContactResponse :=
  ⟨c.id.toString, c.contactId.map Uuid.toString, c.phone.value, c.nickname, c.isFavorite,
    c.createdAt⟩

def listContacts (authId : Uuid) : BookTask BookResponse := do
  let contacts ← ExceptT.mk (Prog.cmd (BookCmd.findAllByOwner authId))
  return .contacts (contacts.map toResponse)

/-- The contact of a request, if it is one of the user. -/
def findOwned (authId contactId : Uuid) : BookTask Contact := do
  match ← ExceptT.mk (Prog.cmd (BookCmd.findById contactId)) with
  | none => throw (.notFound "Contact not found")
  | some contact =>
    if contact.ownerId ≠ authId then throw (.unauthorized "Not authorized") else return contact

def updateContact (authId contactId : Uuid) (req : UpdateContactRequest) :
    BookTask BookResponse := do
  let contact ← findOwned authId contactId
  let updated : Contact := { contact with
    nickname := req.nickname.or contact.nickname
    isFavorite := req.isFavorite.getD contact.isFavorite }
  ExceptT.mk (Prog.cmd (BookCmd.updateContact updated))
  return .updated (toResponse updated)

def deleteContact (authId contactId : Uuid) : BookTask BookResponse := do
  let _ ← findOwned authId contactId
  ExceptT.mk (Prog.cmd (BookCmd.deleteContact contactId))
  return .noContent

inductive BookReq where
  | request (req : ContactReq)
  | listContacts (authId : Uuid)
  | updateContact (authId contactId : Uuid) (req : UpdateContactRequest)
  | deleteContact (authId contactId : Uuid)

variable (state : AuthState)

def handle : BookReq → BookTask BookResponse
  | .request req => do
    let response ← ExceptT.mk
      ((Handlers.handle state req).run.embed BookCmd.contact (fun _ => id))
    return .response response
  | .listContacts authId => listContacts authId
  | .updateContact authId contactId req => updateContact authId contactId req
  | .deleteContact authId contactId => deleteContact authId contactId

/-- All requests to the contacts of all users. -/
def bookServer :
    System BookCmd BookCmd.Ans ContactsDb BookEnv BookReq (Except ApiError BookResponse) where
  exec := BookDb.exec
  tick ω db := some { db with redis := db.redis.wait ω.ms }
  handler req := (handle state req).run

end Mesty.Contacts.Book
