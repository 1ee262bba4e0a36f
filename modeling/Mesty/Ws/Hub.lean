import Mesty.Chats.Handlers

namespace Mesty.Ws.Hub

open Mesty.Base.Ids Mesty.Base.Error Mesty.Concurrency.Program Mesty.Concurrency.Pool
open Mesty.Chats Mesty.Chats.Entities Mesty.Chats.Repository Mesty.Chats.Store Mesty.Chats.Handlers

/-- The payload of a typing indicator. -/
structure TypingEvent where
  type : String
  chatId : Uuid
  userId : Uuid
  timestamp : Timestamp
  deriving DecidableEq

/-- What is published about chats. -/
inductive WsEvent where
  | group (payload : Payload)
  | chat (event : ChatEvent)
  | typing (event : TypingEvent)
  deriving DecidableEq

/-- A connection as the server sees it. -/
structure Socket where
  userId : Uuid
  /-- The channel to which its subscription task listens. -/
  subscription : Option String
  /-- Its client is connected. -/
  isOpen : Bool
  /-- Its queue has lost the receiver. -/
  isClosed : Bool
  /-- The payloads its subscription task has got, the oldest first. -/
  received : List WsEvent

/-- The database, the tickets in Redis and the connections. -/
structure WsStore extends ChatStore where
  tickets : AList (fun _ : String => String)
  sockets : List Socket

inductive WsCmd where
  | store (c : StoreCmd)
  | newUuid
  | setTicket (key userId : String)
  | getTicket (key : String)
  | delTicket (key : String)
  | activeConnections (userId : Uuid)
  | connect (userId : Uuid)
  | setPresence (userId : Uuid)
  | subscribe (socket : Nat) (channel : String)
  | sleep
  | publishTyping (channel : String) (event : TypingEvent)

abbrev WsCmd.Ans : WsCmd → Type
  | store c => c.Ans
  | newUuid => Uuid
  | getTicket _ => Option String
  | activeConnections _ | connect _ => Nat
  | setTicket .. | delTicket _ | setPresence _ | subscribe .. | sleep | publishTyping .. => Unit

/-- What the environment may do on its own. -/
inductive Change where
  | users
  | expire (key : String)
  /-- The client of a socket goes away. -/
  | close (socket : Nat)
  /-- A send to the client fails, and the sending task of the socket ends. -/
  | drop (socket : Nat)

structure WsChoice extends StoreChoice where
  change : Change

/-- The channel and the payload of a command that publishes. -/
def WsCmd.publication : WsCmd → Option (String × WsEvent)
  | .store (.chat (.publish channel payload)) => some (channel, .group payload)
  | .store (.publish channel event) => some (channel, .chat event)
  | .publishTyping channel event => some (channel, .typing event)
  | _ => none

namespace Socket

def connected (userId : Uuid) : Socket := ⟨userId, none, true, false, []⟩

def listen (channel : String) (s : Socket) : Socket := { s with subscription := some channel }

/-- Redis hands a payload to the current subscribers of the channel. -/
def deliver (publication : Option (String × WsEvent)) (s : Socket) : Socket :=
  match publication with
  | none => s
  | some (channel, event) =>
    if s.subscription = some channel then { s with received := s.received ++ [event] } else s

def close (s : Socket) : Socket := { s with isOpen := false }

def drop (s : Socket) : Socket := { s with isOpen := false, isClosed := true }

end Socket

namespace WsStore

def empty (users : List Uuid) : WsStore := ⟨.empty users, ∅, []⟩

variable (db : WsStore)

/-- The connections of a user whose queue still has a receiver. -/
def activeConnections (userId : Uuid) : Nat :=
  db.sockets.countP (fun s => s.userId = userId ∧ s.isClosed = false)

/-- What a command does besides the delivery of what it publishes. -/
def perform (ω : WsChoice) : (c : WsCmd) → WsStore → Option (c.Ans × WsStore)
  | .store c, db => (ChatStore.exec ω.toStoreChoice c db.toChatStore).map
      (fun out => (out.1, { db with toChatStore := out.2 }))
  | .newUuid, db => some (ω.uuid, db)
  | .setTicket key userId, db => some ((), { db with tickets := db.tickets.insert key userId })
  | .getTicket key, db => some (db.tickets.lookup key, db)
  | .delTicket key, db => some ((), { db with tickets := db.tickets.erase key })
  | .activeConnections userId, db => some (db.activeConnections userId, db)
  | .connect userId, db =>
    some (db.sockets.length, { db with sockets := db.sockets ++ [.connected userId] })
  -- the task ends without a subscription when Redis refuses it
  | .subscribe socket channel, db =>
    some ((), if ω.flag then { db with sockets := db.sockets.modify socket (Socket.listen channel) }
      else db)
  | .setPresence _, db | .sleep, db | .publishTyping .., db => some ((), db)

def exec (ω : WsChoice) (c : WsCmd) (db : WsStore) : Option (c.Ans × WsStore) :=
  (db.perform ω c).map (fun out =>
    (out.1, { out.2 with sockets := out.2.sockets.map (Socket.deliver c.publication) }))

def tick (ω : WsChoice) (db : WsStore) : Option WsStore :=
  match ω.change with
  | .users => (ChatStore.tick ω.toStoreChoice db.toChatStore).map
      (fun store => { db with toChatStore := store })
  | .expire key => some { db with tickets := db.tickets.erase key }
  | .close socket => some { db with sockets := db.sockets.modify socket Socket.close }
  | .drop socket => some { db with sockets := db.sockets.modify socket Socket.drop }

end WsStore

abbrev WsTask := ExceptT DomainError (Prog WsCmd WsCmd.Ans)

def WsTask.ask (c : WsCmd) : WsTask c.Ans := ExceptT.lift (Prog.cmd c)

def WsTask.okOr {α : Type} (o : Option α) (e : DomainError) : WsTask α :=
  match o with
  | none => throw e
  | some a => pure a

/-- The statements of a chat request. -/
def WsTask.ofStore {α : Type} : Prog StoreCmd StoreCmd.Ans α → Prog WsCmd WsCmd.Ans α
  | .ret a => .ret a
  | .call c k => .call (.store c) (fun r => ofStore (k r))

open WsTask

inductive WsResponse where
  | chat (response : Response)
  | ticket (status : Nat) (ticket : String)
  | upgraded
  | handled

def createWsTicket (userId : Uuid) : WsTask WsResponse := do
  let ticket := (← ask .newUuid).toString
  ask (.setTicket ("ws:ticket:" ++ ticket) userId.toString)
  return .ticket 201 ticket

/-- The user for whom a ticket lets a connection be upgraded. -/
def wsHandler (ticket : String) : WsTask Uuid := do
  let redisKey := "ws:ticket:" ++ ticket
  let userIdStr ← okOr (← ask (.getTicket redisKey))
    (.unauthorized "Invalid or expired WebSocket ticket")
  ask (.delTicket redisKey)
  let userId ← okOr (Uuid.parseStr userIdStr) (.unauthorized "Invalid ticket user identity")
  if (← ask (.activeConnections userId)) ≥ 5 then
    throw (.conflict "Too many concurrent WebSocket connections. Maximum is 5.")
  else
    return userId

def handleSocket (userId : Uuid) : WsTask Unit := do
  let socket ← ask (.connect userId)
  ask (.setPresence userId)
  ask (.subscribe socket ("user:" ++ userId.toString ++ ":events"))

/-- The two tasks of `TypingStart` and the one of `TypingStop`. -/
inductive TypingTask where
  | start
  | timer
  | stop

def publishTyping (userId chatId : Uuid) (type : String) : WsTask Unit := do
  let now ← ask (.store .utcNow)
  ask (.publishTyping ("chat:" ++ chatId.toString ++ ":events") ⟨type, chatId, userId, now⟩)

/-- The typing branches of `handle_client_message`. -/
def handleTyping (userId chatId : Uuid) : TypingTask → WsTask Unit
  | .start => publishTyping userId chatId "typing_start"
  | .timer => do
    ask .sleep
    publishTyping userId chatId "typing_stop"
  | .stop => publishTyping userId chatId "typing_stop"

inductive WsReq where
  | chat (userId : Uuid) (req : ChatReq)
  | createWsTicket (userId : Uuid)
  | connect (ticket : String)
  | typing (userId chatId : Uuid) (task : TypingTask)

/-- The user who makes a request, as far as it says. -/
def WsReq.userId : WsReq → Option Uuid
  | .chat userId _ | .createWsTicket userId | .typing userId _ _ => some userId
  | .connect _ => none

def handle : WsReq → WsTask WsResponse
  | .chat userId req => do
    let response ← ExceptT.mk (ofStore (Handlers.handle userId req).run)
    return .chat response
  | .createWsTicket userId => createWsTicket userId
  | .connect ticket => do
    handleSocket (← wsHandler ticket)
    return .upgraded
  | .typing userId chatId task => do
    handleTyping userId chatId task
    return .handled

/-- The chat requests and the connections of all users. -/
def wsServer : System WsCmd WsCmd.Ans WsStore WsChoice WsReq (Except ApiError WsResponse) where
  exec := WsStore.exec
  tick := WsStore.tick
  handler req := (handle req).run

end Mesty.Ws.Hub
