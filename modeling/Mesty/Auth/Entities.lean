import Mesty.Base.Error
import Mesty.Base.Ids

namespace Mesty.Auth.Entities

open Mesty.Base.Ids Mesty.Base.Error

def isE164 (value : String) : Bool :=
  match value.toList with
  | '+' :: digits => 8 ≤ value.utf8ByteSize && value.utf8ByteSize ≤ 16 && digits.all Char.isDigit
  | _ => false

structure PhoneNumber where
  value : String
  valid : isE164 value = true
  deriving DecidableEq

def PhoneNumber.new (value : String) : Except DomainError PhoneNumber :=
  if h : isE164 value then .ok ⟨value, h⟩
  else .error (.validation ("Invalid phone number format (E.164 required): " ++ value))

theorem PhoneNumber.new_eq_ok {value : String} {phone : PhoneNumber} (h : new value = .ok phone) :
    phone.value = value := by
  simp only [new] at h
  split at h
  · cases h
    rfl
  · cases h

theorem isE164_of_new {text : String} :
    (∃ phone, PhoneNumber.new text = .ok phone) ↔ isE164 text = true := by
  rw [PhoneNumber.new]
  split
  · next h => simp [h]
  · next h => simp [h]

/-- After the plus sign there are digits only. -/
theorem PhoneNumber.isDigit_of_mem (phone : PhoneNumber) {c : Char}
    (h : c ∈ phone.value.toList.tail) : c.isDigit := by
  have hv := phone.valid
  unfold isE164 at hv
  split at hv
  · next digits hd =>
    rw [hd, List.tail_cons] at h
    simp only [Bool.and_eq_true, List.all_eq_true] at hv
    exact hv.2 c h
  · cases hv

theorem PhoneNumber.colon_notMem (phone : PhoneNumber) : ':' ∉ phone.value.toList := by
  have hv := phone.valid
  unfold isE164 at hv
  split at hv
  · next digits hd =>
    intro h
    have htail : ':' ∈ phone.value.toList.tail := by simpa [hd] using h
    exact absurd (phone.isDigit_of_mem htail) (by decide)
  · cases hv

/-- A row of `users` without its id. Timestamps that nothing reads are left out. -/
structure UserRow where
  username : Option String
  phone : PhoneNumber
  phoneHash : String
  email : Option String
  statusText : String
  twoFaEnabled : Bool
  twoFaSecret : Option String
  isActive : Bool
  deletedAt : Option Nat
  deriving DecidableEq

structure User extends UserRow where
  id : Uuid
  deriving DecidableEq

/-- A row of `user_sessions` without its user and its device, which are unique together. -/
structure SessionRow where
  id : Uuid
  deviceName : String
  deviceType : String
  pushToken : Option String
  ipAddress : Option String
  lastActiveAt : Nat
  expiresAt : Nat
  deriving DecidableEq

structure UserSessionRecord where
  id : Uuid
  deviceName : String
  deviceType : String
  ipAddress : Option String
  lastActiveAt : Nat
  deriving DecidableEq

structure AccessClaims where
  sub : String
  sid : String
  exp : Int
  iat : Int
  deriving DecidableEq

structure RefreshSession where
  userId : String
  sessionId : String
  deviceId : String
  deviceName : String
  deviceType : String
  pushToken : Option String
  deriving DecidableEq

end Mesty.Auth.Entities
