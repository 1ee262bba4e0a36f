import Mesty.Calls.Signaling
import Mesty.Chats.Sync
import Mesty.Ws.Hub

namespace Mesty.Ws.Signals

open Mesty.Base.Ids Mesty.Base.Error Mesty.Concurrency.Program Mesty.Concurrency.Pool
open Mesty.Chats.Entities (Timestamp)
open Mesty.Chats.Repository Mesty.Chats.Messages Mesty.Chats.Store Mesty.Chats.Handlers
open Mesty.Chats.Sync Mesty.Ws.Hub
open Mesty.Calls.Entities (CallType CallStatus)
open Mesty.Calls.Repository (CallCmd CallsDb)
open Mesty.Calls.Service
open Mesty.Calls.Signaling (CallMessage)

inductive WsClientMessage where
  | typingStart (chatId : Uuid)
  | typingStop (chatId : Uuid)
  | syncRequest (since : Option Timestamp)
  | callInitiate (receiverId : Uuid) (callType offer : String)
  | callAccept (callId : Uuid) (answer : String)
  | callReject (callId : Uuid) (reason : Option String)
  | callIceCandidate (callId receiverId : Uuid) (candidate : String)
  | callHangup (callId : Uuid)

/-- What the tasks of the server await: the commands for chats and connections, those for
calls, and the two of a `sync_request`. -/
inductive SignalCmd where
  | ws (c : WsCmd)
  | call (c : CallCmd)
  | listMessagesSince (userId : Uuid) (since : Timestamp) (limit : Nat)
  | syncResponse (messages : List SyncMessage)

abbrev SignalCmd.Ans : SignalCmd → Type
  | ws c => c.Ans
  | call c => c.Ans
  | listMessagesSince .. => Except DomainError (List ChatMessage)
  | syncResponse _ => Unit

/-- All requests and connections, with the calls. -/
structure SignalStore extends WsStore where
  calls : CallsDb

/-- `scan` is the order in which the messages are read, if the query succeeds. -/
structure SignalChoice where
  ws : WsChoice
  call : Calls.Repository.Choice
  scan : Option (List ChatMessage)

namespace SignalStore

def empty (users : List Uuid) : SignalStore := ⟨.empty users, .empty users⟩

variable (db : SignalStore)

/-- The calls with the table of users that they refer to. -/
def callsDb : CallsDb := { db.calls with users := db.users }

def listMessagesSince (scan : Option (List ChatMessage)) (userId : Uuid) (since : Timestamp)
    (limit : Nat) : Option (Except DomainError (List ChatMessage)) :=
  match scan with
  | none => some (.error (.fromSqlx .other))
  | some messages =>
    if messages.Perm db.messages then
      some (.ok (Chats.Sync.listMessagesSince db.toMessagesDb messages userId since limit))
    else none

def exec (ω : SignalChoice) : (c : SignalCmd) → SignalStore → Option (c.Ans × SignalStore)
  | .ws c, db => (WsStore.exec ω.ws c db.toWsStore).map
      (fun out => (out.1, { db with toWsStore := out.2 }))
  | .call c, db => (CallsDb.exec ω.call c db.callsDb).map
      (fun out => (out.1, { db with calls := out.2 }))
  | .listMessagesSince userId since limit, db =>
    (db.listMessagesSince ω.scan userId since limit).map (fun rows => (rows, db))
  | .syncResponse _, db => some ((), db)

def tick (ω : SignalChoice) (db : SignalStore) : Option SignalStore :=
  (WsStore.tick ω.ws db.toWsStore).map (fun ws => { db with toWsStore := ws })

end SignalStore

/-- A task of the server: one of a request, or one that a client message has spawned. -/
inductive SignalReq where
  | ws (req : WsReq)
  | sync (userId : Uuid) (since : Option Timestamp)
  | call (userId : Uuid) (msg : CallMessage)

abbrev SignalTask := Prog SignalCmd SignalCmd.Ans

/-- The tasks that a message of an authenticated user spawns. -/
def handleClientMessage (userId : Uuid) : WsClientMessage → List SignalReq
  | .typingStart chatId =>
    [.ws (.typing userId chatId .start), .ws (.typing userId chatId .timer)]
  | .typingStop chatId => [.ws (.typing userId chatId .stop)]
  | .syncRequest since => [.sync userId since]
  | .callInitiate receiverId callType offer =>
    [.call userId (.callInitiate receiverId callType offer)]
  | .callAccept callId answer => [.call userId (.callAccept callId answer)]
  | .callReject callId reason => [.call userId (.callReject callId reason)]
  | .callIceCandidate callId receiverId candidate =>
    [.call userId (.callIceCandidate callId receiverId candidate)]
  | .callHangup callId => [.call userId (.callHangup callId)]

def syncRequest (userId : Uuid) : Option Timestamp → SignalTask Unit
  | none => Prog.cmd (SignalCmd.syncResponse [])
  | some since => do
    match ← Prog.cmd (SignalCmd.listMessagesSince userId since 100) with
    | .ok messages => Prog.cmd (SignalCmd.syncResponse (messages.map toSync))
    | .error _ => Prog.cmd (SignalCmd.syncResponse [])

def handle : SignalReq → SignalTask (Except ApiError WsResponse)
  | .ws req => (Hub.handle req).run.embed SignalCmd.ws (fun _ => id)
  | .sync userId since => do
    syncRequest userId since
    return .ok .handled
  | .call userId msg => do
    (Calls.Signaling.handleClientMessage userId msg).embed SignalCmd.call (fun _ => id)
    return .ok .handled

/-- All requests and client messages of all users. -/
def signalServer : System SignalCmd SignalCmd.Ans SignalStore SignalChoice SignalReq
    (Except ApiError WsResponse) where
  exec := SignalStore.exec
  tick := SignalStore.tick
  handler := handle

abbrev SignalConfig :=
  Config SignalCmd SignalCmd.Ans SignalStore SignalReq (Except ApiError WsResponse)

abbrev SignalAct := Act SignalReq SignalChoice

section Limits

variable (db : SignalStore)

def TakesPart (userId chatId : Uuid) : Prop := (db.activeRow chatId userId).isSome = true

/-- The call is active, and the two users are its participants. -/
def InCallWith (callId userId peerId : Uuid) : Prop :=
  ∃ call ∈ db.calls.calls.lookup callId, call.status.isActive = true ∧
    (call.callerId = userId ∧ call.receiverId = peerId ∨
      call.receiverId = userId ∧ call.callerId = peerId)

/-- What a message of the user may have published: typing events for chats that the user
takes part in, ICE candidates for the other participant of an active call. -/
def Permitted (userId : Uuid) : SignalCmd → Prop
  | .ws (.publishTyping _ event) => TakesPart db userId event.chatId
  | .call (.publish peerId (.iceCandidate callId _ _)) => InCallWith db callId userId peerId
  | _ => True

/-- The user may send the message. -/
def Entitled : SignalReq → Prop
  | .ws (.typing userId chatId _) => TakesPart db userId chatId
  | .call userId (.callIceCandidate callId receiverId _) => InCallWith db callId userId receiverId
  | _ => True

end Limits

/-- A command that publishes for a client message. -/
def SignalCmd.publishes : SignalCmd → Bool
  | .ws (.publishTyping ..) | .call (.publish ..) => true
  | _ => false

/-- The user of a request, who has sent the message that has spawned it. -/
def SignalReq.userId : SignalReq → Option Uuid
  | .ws req => req.userId
  | .sync userId _ | .call userId _ => some userId

/-- What a move publishes is permitted to the user whose message it goes back to. -/
def Limited (c : SignalConfig) : SignalAct → Prop
  | .step i _ => ∀ r cmd k, c.tasks[i]? = some (r, .call cmd k) →
      ∀ userId ∈ r.userId, Permitted c.db userId cmd
  | _ => True

/-- A message that a move relays is one that its user is entitled to at that moment. -/
def SentByEntitled (c : SignalConfig) : SignalAct → Prop
  | .step i _ => ∀ r cmd k, c.tasks[i]? = some (r, .call cmd k) → cmd.publishes = true →
      Entitled c.db r
  | _ => True

/-- What is published for a message is relayed as it came: the chat, the call and the
receiver are those that the client has named. -/
def Relays (r : SignalReq) : SignalCmd → Prop
  | .ws (.publishTyping channel event) => channel = "chat:" ++ event.chatId.toString ++ ":events" ∧
      ∃ task, r = .ws (.typing event.userId event.chatId task)
  | .call (.publish receiverId (.iceCandidate callId userId candidate)) =>
    r = .call userId (.callIceCandidate callId receiverId candidate)
  | .call (.publish ..) => ∀ db, Entitled db r
  | _ => True

section Relays

variable {α β : Type}

theorem okOr_relays {r : SignalReq} {o : Option α} {e : DomainError} :
    (WsTask.okOr o e).run.Issues (fun c => Relays r (.ws c)) := by
  cases o <;> trivial

theorem ofStore_relays (r : SignalReq) (p : Prog StoreCmd StoreCmd.Ans α) :
    (WsTask.ofStore p).Issues (fun c => Relays r (.ws c)) := by
  induction p with
  | ret a => trivial
  | call c k ih => exact ⟨trivial, ih⟩

theorem publishTyping_relays (userId chatId : Uuid) (type : String) (task : TypingTask) :
    (publishTyping userId chatId type).run.Issues
      (fun c => Relays (.ws (.typing userId chatId task)) (.ws c)) := by
  refine ⟨trivial, fun now => ⟨?_, fun _ => trivial⟩⟩
  exact ⟨rfl, task, rfl⟩

theorem ws_relays (req : WsReq) : (Hub.handle req).run.Issues (fun c => Relays (.ws req) (.ws c)) := by
  cases req with
  | chat userId req => exact (ofStore_relays _ _).tryBind fun _ => trivial
  | createWsTicket userId => exact ⟨trivial, fun _ => ⟨trivial, fun _ => trivial⟩⟩
  | connect ticket =>
    have hticket : (wsHandler ticket).run.Issues (fun c => Relays (.ws (.connect ticket)) (.ws c)) := by
      refine ⟨trivial, fun userIdStr => okOr_relays.tryBind fun userIdStr => ⟨trivial, fun _ => ?_⟩⟩
      apply okOr_relays.tryBind
      refine fun userId => ⟨trivial, fun active => ?_⟩
      change Prog.Issues _ (ExceptT.run (if _ then _ else _))
      split_ifs <;> trivial
    apply hticket.tryBind
    intro userId
    exact ⟨trivial, fun _ => ⟨trivial, fun _ => ⟨trivial, fun _ => trivial⟩⟩⟩
  | typing userId chatId task =>
    have htyping : (handleTyping userId chatId task).run.Issues
        (fun c => Relays (.ws (.typing userId chatId task)) (.ws c)) := by
      cases task with
      | start => exact publishTyping_relays userId chatId _ _
      | timer => exact ⟨trivial, fun _ => publishTyping_relays userId chatId _ _⟩
      | stop => exact publishTyping_relays userId chatId _ _
    exact htyping.tryBind fun _ => trivial

/-- The service of the calls publishes nothing. -/
def Unpublished : CallCmd → Prop
  | .publish .. => False
  | _ => True

theorem initiateCall_unpublished (callerId receiverId : Uuid) (callType : CallType) :
    (initiateCall callerId receiverId callType).Issues Unpublished := by
  simp only [initiateCall, Prog.pure_eq, Prog.cmd_bind]
  split_ifs
  · trivial
  · refine ⟨trivial, fun receiverBusy => ?_⟩
    dsimp only
    split_ifs
    · trivial
    · refine ⟨trivial, fun callerBusy => ?_⟩
      dsimp only
      split_ifs
      · trivial
      · exact ⟨trivial, fun _ => trivial⟩

theorem acceptCall_unpublished (callId userId : Uuid) :
    (acceptCall callId userId).Issues Unpublished := by
  simp only [acceptCall, Prog.pure_eq, Prog.cmd_bind]
  refine ⟨trivial, fun found => ?_⟩
  cases found with
  | none => trivial
  | some call =>
    dsimp only
    split_ifs
    · trivial
    · trivial
    · exact ⟨trivial, fun now => ⟨trivial, fun _ => trivial⟩⟩

theorem endCall_unpublished (callId userId : Uuid) (requestedStatus : CallStatus) :
    (endCall callId userId requestedStatus).Issues Unpublished := by
  simp only [endCall, Prog.pure_eq, Prog.cmd_bind]
  refine ⟨trivial, fun found => ?_⟩
  cases found with
  | none => trivial
  | some call =>
    dsimp only
    split_ifs
    · trivial
    · cases requestedStatus with
      | initiated | ringing | answered => trivial
      | ended | missed | rejected | busy => exact ⟨trivial, fun now => ⟨trivial, fun _ => trivial⟩⟩
    · trivial

theorem relays_of_unpublished {r : SignalReq} {c : CallCmd} (hc : Unpublished c) :
    Relays r (.call c) := by
  cases c with
  | publish => exact absurd hc id
  | _ => trivial

/-- A call task that publishes anything but an ICE candidate has none to relay. -/
theorem call_relays (userId : Uuid) (msg : CallMessage) :
    (Calls.Signaling.handleClientMessage userId msg).Issues
      (fun c => Relays (.call userId msg) (.call c)) := by
  have hend : ∀ callId requestedStatus, (endCall callId userId requestedStatus).Issues
      (fun c => Relays (.call userId msg) (.call c)) :=
    fun callId requestedStatus => (endCall_unpublished callId userId requestedStatus).mono
      fun _ => relays_of_unpublished
  cases msg with
  | callInitiate receiverId callType offer =>
    apply ((initiateCall_unpublished _ _ _).mono fun _ => relays_of_unpublished).bind
    intro result
    cases result with
    | error e => exact ⟨trivial, fun _ => trivial⟩
    | ok call =>
      exact ⟨fun _ => trivial, fun _ => ⟨trivial, fun _ => ⟨trivial, fun _ => trivial⟩⟩⟩
  | callAccept callId answer =>
    apply ((acceptCall_unpublished _ _).mono fun _ => relays_of_unpublished).bind
    intro result
    cases result with
    | error e => trivial
    | ok call => exact ⟨fun _ => trivial, fun _ => trivial⟩
  | callReject callId reason =>
    apply (hend _ _).bind
    intro result
    cases result with
    | error e => trivial
    | ok call => exact ⟨fun _ => trivial, fun _ => trivial⟩
  | callIceCandidate callId receiverId candidate => exact ⟨rfl, fun _ => trivial⟩
  | callHangup callId =>
    apply (hend _ _).bind
    intro result
    cases result with
    | ok call => exact ⟨fun _ => trivial, fun _ => trivial⟩
    | error e =>
      apply (hend _ _).bind
      intro result
      cases result with
      | ok call => exact ⟨fun _ => trivial, fun _ => trivial⟩
      | error e => trivial

theorem handle_relays (r : SignalReq) : (handle r).Issues (Relays r) := by
  cases r with
  | ws req => exact (ws_relays req).embed
  | sync userId since =>
    cases since with
    | none => exact ⟨trivial, fun _ => trivial⟩
    | some since =>
      refine ⟨trivial, fun rows => ?_⟩
      cases rows <;> exact ⟨trivial, fun _ => trivial⟩
  | call userId msg => exact (call_relays userId msg).embed.bind fun _ => trivial

end Relays

/-- What a task is about to publish is permitted exactly if its message is one that the user
is entitled to. -/
theorem entitled_iff_permitted {db : SignalStore} {r : SignalReq} {cmd : SignalCmd}
    (hr : Relays r cmd) : (cmd.publishes = true → Entitled db r) ↔
      ∀ userId ∈ r.userId, Permitted db userId cmd := by
  cases cmd with
  | ws c =>
    cases c with
    | publishTyping channel event =>
      obtain ⟨-, task, rfl⟩ := hr
      simp [SignalCmd.publishes, SignalReq.userId, WsReq.userId, Entitled, Permitted]
    | _ => exact iff_of_true (by rintro ⟨⟩) fun _ _ => trivial
  | call c =>
    cases c with
    | publish receiverId event =>
      cases event with
      | iceCandidate callId userId candidate =>
        obtain rfl : r = _ := hr
        simp [SignalCmd.publishes, SignalReq.userId, Entitled, Permitted]
      | _ => exact iff_of_true (fun _ => hr db) fun _ _ => trivial
    | _ => exact iff_of_true (by rintro ⟨⟩) fun _ _ => trivial
  | listMessagesSince | syncResponse => exact iff_of_true (by rintro ⟨⟩) fun _ _ => trivial

theorem sentByEntitled_iff {c : SignalConfig} {a : SignalAct}
    (hc : c.Meets (fun _ => True) (fun _ _ r p => p.Issues (Relays r))) :
    SentByEntitled c a ↔ Limited c a := by
  cases a with
  | spawn r => exact Iff.rfl
  | tick ω => exact Iff.rfl
  | step i ω =>
    refine forall_congr' fun r => forall_congr' fun cmd => forall_congr' fun k => ?_
    exact forall_congr' fun ht => entitled_iff_permitted (hc.2 i r _ ht).1

/-- In a run only those typing events and ICE candidates are published that their users are
permitted exactly if every message that is relayed is one that its user is entitled to. -/
theorem signalling_limited_iff_entitled (users : List Uuid) (acts : List SignalAct) :
    signalServer.Every SentByEntitled acts (System.start (.empty users)) ↔
      signalServer.Every Limited acts (System.start (.empty users)) := by
  have outline : Outline signalServer (fun _ _ => True) (fun _ => True)
      (fun _ _ r p => p.Issues (Relays r)) :=
    { spawn _ r _ := handle_relays r
      step hc _ ht _ := ⟨trivial, (hc.2 _ _ _ ht).2 _, fun _ _ _ _ hp => hp⟩
      tick _ _ _ := ⟨trivial, fun _ _ _ hp => hp⟩ }
  exact System.every_iff_every (fun hc ha => outline.apply hc trivial ha)
    (fun hc _ => sentByEntitled_iff hc) acts (Outline.start trivial)

def alice : Uuid := .ofNat 1

def bob : Uuid := .ofNat 2

def mallory : Uuid := .ofNat 3

def theChat : Uuid := .ofNat 11

def choose (n : Nat) : SignalChoice :=
  ⟨⟨⟨⟨.ofNat n, n, ""⟩, true, [], true⟩, .users⟩, ⟨.ofNat n, n⟩, none⟩

def client (userId : Uuid) (msg : WsClientMessage) : List SignalAct :=
  (handleClientMessage userId msg).map .spawn

/-- Mallory types in the private chat of Alice and Bob. -/
def typesElsewhere : List SignalAct :=
  [.spawn (.ws (.chat alice (.createPrivateChat bob))), .step 0 (choose 10), .step 0 (choose 11),
    .step 0 (choose 12)] ++ client mallory (.typingStart theChat) ++
    [.step 1 (choose 13), .step 1 (choose 14)]

theorem stranger_types : ¬ signalServer.Every Limited typesElsewhere
    (System.start (.empty [alice, bob, mallory])) := by
  intro h
  obtain ⟨-, -, -, -, -, -, -, htypes, -⟩ := h
  cases htypes _ _ _ rfl mallory rfl

end Mesty.Ws.Signals
