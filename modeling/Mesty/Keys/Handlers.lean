import Mesty.Concurrency.Pool
import Mesty.Keys.Repository

namespace Mesty.Keys.Handlers

open Mesty.Base.Ids Mesty.Base.Error Mesty.Concurrency.Program Mesty.Concurrency.Pool
open Mesty.Keys.Tables Mesty.Keys.Repository

/-- The base64 decoder and the ed25519 verifier. Errors are given by their texts. -/
structure Crypto where
  decode : String → Except String (List UInt8)
  Key : Type
  verifyingKey : List UInt8 → Except String Key
  verify : Key → (message signature : List UInt8) → Except String Unit

structure UploadKeysRequest where
  identityKey : String
  signedPrekey : SignedPrekey
  oneTimePrekeys : List OneTimePrekey

structure KeyBundleResponse where
  identityKey : String
  signedPrekey : SignedPrekey
  oneTimePrekey : Option OneTimePrekey
  deriving DecidableEq

inductive Body where
  | error (message : String)
  | uploadKeys (prekeyCount : Nat)
  | keyBundle (bundle : KeyBundleResponse)
  deriving DecidableEq

structure Response where
  status : Nat
  headers : List (String × String)
  body : Body
  deriving DecidableEq

def errorResponse (status : Nat) (message : String) : Response := ⟨status, [], .error message⟩

def withPrekeyHeader (status : Nat) (body : Body) (prekeyCount : Nat) : Response :=
  ⟨status, if prekeyCount < 20 then [("x-prekey-count", toString prekeyCount)] else [], body⟩

def decodeSized (crypto : Crypto) (text : String) (size : Nat) (badBase64 badSize : String) :
    Except String (List UInt8) := do
  match crypto.decode text with
  | .error e => .error (badBase64 ++ e)
  | .ok bytes => if bytes.length ≠ size then .error badSize else .ok bytes

def verifySignedPrekey (crypto : Crypto) (req : UploadKeysRequest) : Except String Unit := do
  let identityKeyBytes ← decodeSized crypto req.identityKey 32 "invalid identity_key base64: "
    "identity_key must be 32 bytes"
  let key ← (crypto.verifyingKey identityKeyBytes).mapError ("invalid identity_key: " ++ ·)
  let spkBytes ← decodeSized crypto req.signedPrekey.key 32
    "invalid signed_prekey base64: " "signed_prekey must be 32 bytes"
  let sigBytes ← decodeSized crypto req.signedPrekey.signature 64
    "invalid signature base64: " "signature must be 64 bytes"
  (crypto.verify key spkBytes sigBytes).mapError ("signature verification failed: " ++ ·)

def validatePrekeys (crypto : Crypto) : (seenIds : List Int32) → List OneTimePrekey →
    Except String Unit
  | _, [] => .ok ()
  | seenIds, prekey :: rest =>
    if prekey.id < 0 then
      .error ("invalid prekey id: " ++ toString prekey.id ++ " (must be positive)")
    else if prekey.id ∈ seenIds then .error ("duplicate prekey id: " ++ toString prekey.id)
    else do
      let _ ← decodeSized crypto prekey.key 32 "invalid prekey key base64: "
        ("prekey " ++ toString prekey.id ++ " must be 32 bytes")
      validatePrekeys crypto (prekey.id :: seenIds) rest

def validateOneTimePrekeys (crypto : Crypto) (prekeys : List OneTimePrekey) : Except String Unit :=
  if 200 < prekeys.length then .error "maximum 200 one-time prekeys allowed"
  else validatePrekeys crypto [] prekeys

def internal (e : DomainError) : ApiError := .internal e.toString

open KeyTask in
def respondWithCount (userId : Uuid) : KeyTask (Except ApiError Response) := do
  let count ← getPrekeyCount userId
  return .ok (withPrekeyHeader 200 (.uploadKeys count) count)

open KeyTask in
def uploadKeys (crypto : Crypto) (userId : Uuid) (req : UploadKeysRequest) :
    KeyTask (Except ApiError Response) := do
  if req.identityKey = "" then
    return .ok (errorResponse 400 "identity_key is required")
  else if req.signedPrekey.key = "" ∨ req.signedPrekey.signature = "" then
    return .ok (errorResponse 400 "signed_prekey is incomplete")
  else match verifySignedPrekey crypto req with
  | .error e => return .ok (errorResponse 400 ("invalid signed_prekey signature: " ++ e))
  | .ok () =>
    match ← upsertKeys userId req.identityKey req.signedPrekey with
    | .error e => return .error (internal e)
    | .ok () =>
      if req.oneTimePrekeys = [] then
        respondWithCount userId
      else match validateOneTimePrekeys crypto req.oneTimePrekeys with
      | .error e => return .ok (errorResponse 400 ("invalid one_time_prekeys: " ++ e))
      | .ok () =>
        match ← addOneTimePrekeys userId req.oneTimePrekeys with
        | .error e => return .error (internal e)
        | .ok () => respondWithCount userId

/-- Nothing is checked of the prekeys here. -/
def uploadPrekeys (userId : Uuid) (req : List OneTimePrekey) :
    KeyTask (Except ApiError Response) := do
  if req = [] then
    return .ok (errorResponse 400 "no prekeys provided")
  else
    match ← KeyTask.addOneTimePrekeys userId req with
    | .error e => return .error (internal e)
    | .ok () => respondWithCount userId

open KeyTask in
def getKeyBundle (userId targetUserId : Uuid) : KeyTask (Except ApiError Response) := do
  if targetUserId = userId then
    return .ok (errorResponse 400 "cannot get own key bundle")
  else if ← isBlocked userId targetUserId then
    return .ok (errorResponse 403 "user is blocked")
  else if ← isBlocked targetUserId userId then
    return .ok (errorResponse 403 "you are blocked by this user")
  else
    match ← getPublicKeyBundle targetUserId with
    | none => return .error (.notFound "user keys not found")
    | some bundle =>
      let count ← getPrekeyCount targetUserId
      return .ok (withPrekeyHeader 200 (.keyBundle ⟨bundle.identityKey,
        ⟨bundle.signedPrekeyId, bundle.signedPrekey, bundle.signedPrekeySig⟩,
        bundle.oneTimePrekey.map (fun key => ⟨bundle.oneTimePrekeyId.getD 0, key⟩)⟩) count)

inductive KeysReq where
  | uploadKeys (req : UploadKeysRequest)
  | uploadPrekeys (req : List OneTimePrekey)
  | getKeyBundle (targetUserId : Uuid)

/-- The one-time prekeys that a request brings. -/
def KeysReq.prekeys : KeysReq → List OneTimePrekey
  | .uploadKeys req => req.oneTimePrekeys
  | .uploadPrekeys req => req
  | .getKeyBundle _ => []

/-- A request of an authenticated user. -/
def handle (crypto : Crypto) (userId : Uuid) : KeysReq → KeyTask (Except ApiError Response)
  | .uploadKeys req => uploadKeys crypto userId req
  | .uploadPrekeys req => uploadPrekeys userId req
  | .getKeyBundle targetUserId => getKeyBundle userId targetUserId

/-- The key handlers over one database. Users block each other at any time. -/
def keyServer (crypto : Crypto) :
    System KeyCmd KeyCmd.Ans KeysDb Choice (Uuid × KeysReq) (Except ApiError Response) where
  exec := KeysDb.exec
  tick ω db := some { db with blocks := ω.blocks }
  handler req := handle crypto req.1 req.2

end Mesty.Keys.Handlers
