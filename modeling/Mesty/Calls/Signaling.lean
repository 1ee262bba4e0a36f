import Mesty.Calls.Service
import Mesty.Concurrency.Pool

namespace Mesty.Calls.Signaling

open Mesty.Base.Ids Mesty.Base.Error Mesty.Calls.Entities Mesty.Calls.Repository
open Mesty.Calls.Service Mesty.Concurrency.Pool

/-- The call messages among the client messages of the WebSocket. -/
inductive CallMessage where
  | callInitiate (receiverId : Uuid) (callType offer : String)
  | callAccept (callId : Uuid) (answer : String)
  | callReject (callId : Uuid) (reason : Option String)
  | callIceCandidate (callId receiverId : Uuid) (candidate : String)
  | callHangup (callId : Uuid)
  deriving DecidableEq

open CallTask in
def callInitiate (callerId receiverId : Uuid) (callType offer : String) : CallTask Unit := do
  let callTypeDomain := if callType = "video" then CallType.video else CallType.audio
  match ← initiateCall callerId receiverId callTypeDomain with
  | .error e => reply e.toString
  | .ok call =>
    -- the receiver can answer from here on, before the status below is written
    publish receiverId (.incoming call.id callerId callTypeDomain.asDbStr offer)
    let _ ← markRinging call.id
    enqueuePush ⟨receiverId, "call", call.id, callerId, callTypeDomain.asDbStr, "Incoming Call",
      "You have an incoming " ++ callTypeDomain.asDbStr ++ " call"⟩

open CallTask in
def callAccept (callId receiverId : Uuid) (answer : String) : CallTask Unit := do
  match ← acceptCall callId receiverId with
  | .error _ => return
  | .ok call => publish call.callerId (.accepted callId receiverId answer)

open CallTask in
def callReject (callId userId : Uuid) (reason : Option String) : CallTask Unit := do
  let reasonStr := reason.getD "rejected"
  let terminalStatus := if reasonStr = "busy" then CallStatus.busy else .rejected
  match ← endCall callId userId terminalStatus with
  | .error _ => return
  | .ok call => publish call.callerId (.rejected callId userId reasonStr)

open CallTask in
def callIceCandidate (callId senderId receiverId : Uuid) (candidate : String) : CallTask Unit :=
  publish receiverId (.iceCandidate callId senderId candidate)

open CallTask in
def announceEnd (callId userId : Uuid) (call : Call) : CallTask Unit :=
  let peerId := if call.callerId = userId then call.receiverId else call.callerId
  publish peerId (.ended callId userId call.status.asDbStr)

open CallTask in
def callHangup (callId userId : Uuid) : CallTask Unit := do
  match ← endCall callId userId .ended with
  | .ok call => announceEnd callId userId call
  | .error _ =>
    match ← endCall callId userId .missed with
    | .ok call => announceEnd callId userId call
    | .error _ => return

/-- The call branches of `handle_client_message`. Each is a spawned task. -/
def handleClientMessage (userId : Uuid) : CallMessage → CallTask Unit
  | .callInitiate receiverId callType offer => callInitiate userId receiverId callType offer
  | .callAccept callId answer => callAccept callId userId answer
  | .callReject callId reason => callReject callId userId reason
  | .callIceCandidate callId receiverId candidate =>
    callIceCandidate callId userId receiverId candidate
  | .callHangup callId => callHangup callId userId

/-- The signalling handlers of all users over one table of calls. -/
def signaling : System CallCmd CallCmd.Ans CallsDb Choice (Uuid × CallMessage) Unit where
  exec := CallsDb.exec
  tick _ _ := none
  handler req := handleClientMessage req.1 req.2

end Mesty.Calls.Signaling
