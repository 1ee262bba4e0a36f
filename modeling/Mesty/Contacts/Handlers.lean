import Mesty.Base.Text
import Mesty.Contacts.Repository

namespace Mesty.Contacts.Handlers

open Mesty.Base.Ids Mesty.Base.Error Mesty.Base.Text
open Mesty.Concurrency.Program Mesty.Concurrency.Pool
open Mesty.Auth.Repository Mesty.Auth.Services Mesty.Auth.Middleware
open Mesty.Auth.Handlers (RegisterRequest VerifyPhoneRequest)
open Mesty.Contacts.Repository

abbrev ContactTask := ExceptT DomainError (Prog ContactCmd ContactCmd.Ans)

namespace ContactTask

variable {α : Type}

def ask (c : ContactCmd) : ContactTask c.Ans := ExceptT.lift (Prog.cmd c)

/-- A command whose answer is a `Result`. -/
def attempt (p : Prog ContactCmd ContactCmd.Ans (Except DomainError α)) : ContactTask α := ExceptT.mk p

/-- The commands of an auth request. -/
def ofAuth : AuthProg α → Prog ContactCmd ContactCmd.Ans α
  | .ret a => .ret a
  | .call c k => .call (.auth c) (fun r => ofAuth (k r))

end ContactTask

open ContactTask

structure CreateContactRequest where
  phone : String
  nickname : Option String

structure ContactResponse where
  id : String
  contactId : Option String
  phone : String
  nickname : Option String
  isFavorite : Bool
  createdAt : Nat
  deriving DecidableEq

inductive Body where
  | auth (body : Auth.Handlers.Body)
  | error (error : String)
  | contact (response : ContactResponse)
  deriving DecidableEq

structure Response where
  status : Nat
  body : Body
  deriving DecidableEq

def createContactRaw (ownerId : Uuid) (phone : String) (nickname : Option String)
    (contactId : Option Uuid) : ContactTask Unit := do
  let id ← ask (.auth .newUuid)
  let now ← ask (.auth .utcNow)
  attempt (Prog.cmd (ContactCmd.insertContact id ⟨ownerId, contactId, phone, nickname, false, now⟩))

/-- The contact of the response has an id and a phone of its own. -/
def createContact (ownerId : Uuid) (req : CreateContactRequest) : ContactTask Response := do
  let phoneStr := trim req.phone
  if phoneStr.isEmpty ∨ phoneStr.toList.head? ≠ some '+' then
    throw (.validation "Invalid phone number format")
  else
    let existing ← attempt (Prog.cmd (ContactCmd.findByOwnerAndPhone ownerId phoneStr))
    if existing.isSome then return ⟨409, .error "Contact already exists"⟩
    else
      let contactId ← ask (.findIdByPhone phoneStr)
      createContactRaw ownerId phoneStr req.nickname contactId
      let id ← ask (.auth .newUuid)
      let now ← ask (.auth .utcNow)
      return ⟨201, .contact ⟨id.toString, contactId.map Uuid.toString, phoneStr, req.nickname, false,
        now⟩⟩

inductive ContactReq where
  | register (clientIp : String) (req : RegisterRequest)
  | verifyPhone (req : VerifyPhoneRequest)
  | createContact (ownerId : Uuid) (req : CreateContactRequest)

variable (state : AuthState)

def handleAuth (req : AuthReq) : ContactTask Response := do
  let response ← attempt (ofAuth (req.handle state).run)
  return ⟨response.status, .auth response.body⟩

def handle : ContactReq → ContactTask Response
  | .register clientIp req => handleAuth state (.register clientIp req)
  | .verifyPhone req => handleAuth state (.verifyPhone req)
  | .createContact ownerId req => createContact ownerId req

/-- Registrations and new contacts over one Redis and one Postgres. -/
def contactServer :
    System ContactCmd ContactCmd.Ans ContactsDb Env ContactReq (Except ApiError Response) where
  exec ω := ContactsDb.exec ω.toChoice
  tick ω db := some { db with redis := db.redis.wait ω.ms }
  handler req := (handle state req).run

end Mesty.Contacts.Handlers
