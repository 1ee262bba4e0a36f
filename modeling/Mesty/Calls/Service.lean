import Mesty.Calls.Repository

namespace Mesty.Calls.Service

open Mesty.Base.Ids Mesty.Base.Error Mesty.Calls.Entities Mesty.Calls.Repository

open CallTask in
def initiateCall (callerId receiverId : Uuid) (callType : CallType) :
    CallTask (Except DomainError Call) := do
  if callerId = receiverId then
    return .error (.badRequest "Cannot call yourself")
  else if ← isUserInActiveCall receiverId then
    return .error (.conflict "Receiver is currently busy in another call")
  else if ← isUserInActiveCall callerId then
    return .error (.conflict "You are already in an active call")
  else
    create ⟨callerId, receiverId, callType⟩

open CallTask in
def markRinging (callId : Uuid) : CallTask (Except DomainError Call) :=
  updateStatus callId .ringing none none

open CallTask in
def acceptCall (callId userId : Uuid) : CallTask (Except DomainError Call) := do
  match ← findById callId with
  | none => return .error (.notFound "Call not found")
  | some call =>
    if call.receiverId ≠ userId then
      return .error (.unauthorized "Only the receiver can accept a call")
    else if call.status ≠ .initiated ∧ call.status ≠ .ringing then
      return .error (.badRequest ("Cannot accept a call in status: " ++ call.status.debugStr))
    else
      updateStatus callId .answered (some (← utcNow)) none

open CallTask in
def endCall (callId userId : Uuid) (requestedStatus : CallStatus) :
    CallTask (Except DomainError Call) := do
  match ← findById callId with
  | none => return .error (.notFound "Call not found")
  | some call =>
    if call.callerId ≠ userId ∧ call.receiverId ≠ userId then
      return .error (.unauthorized "You are not a participant of this call")
    else if ¬ call.status.isActive then
      return .error (.badRequest
        ("Call is already in a terminal state: " ++ call.status.debugStr))
    else
      match requestedStatus with
      | .ended | .missed | .rejected | .busy =>
        updateStatus callId requestedStatus call.startedAt (some (← utcNow))
      | .initiated | .ringing | .answered =>
        return .error (.badRequest "Invalid terminal status requested")

end Mesty.Calls.Service
