import Mathlib.Data.List.AList
import Mesty.Base.Error
import Mesty.Base.Ids
import Mesty.Concurrency.Pool
import Mesty.Redis.Server

namespace Mesty.Ws.Connections

open Mesty.Base.Ids Mesty.Base.Error Mesty.Concurrency.Program Mesty.Concurrency.Pool
open Mesty.Redis.Server

/-- A WebSocket and the queue of its sending task. -/
structure Socket where
  userId : Uuid
  /-- Its client is connected. -/
  isOpen : Bool
  /-- The receiver of the queue is dropped. -/
  isClosed : Bool

structure WsState where
  redis : Store
  /-- The identifiers drawn so far. -/
  drawn : List Uuid
  /-- The senders of each user, named after their sockets. -/
  connections : AList (fun _ : Uuid => List Nat)
  sockets : List Socket

/-- The commands on the map are the accesses under one guard; `awaitClose` is the loop
that reads from the socket until it is closed. -/
inductive WsCmd where
  | newUuid
  | redis (c : RedisCmd)
  | countConnections (userId : Uuid)
  | connect (userId : Uuid)
  | awaitClose (socket : Nat)
  | retainOpen (userId : Uuid)
  | remove (userId : Uuid)

/-- A call of Redis that has failed answers `none`. -/
abbrev WsCmd.Ans : WsCmd → Type
  | newUuid => Uuid
  | redis c => Option c.Ans
  | countConnections _ | connect _ => Nat
  | awaitClose _ | remove _ => Unit
  | retainOpen _ => Bool

/-- What the environment may do on its own. -/
inductive Change where
  | wait (ms : Nat)
  /-- The client of a socket goes away. -/
  | close (socket : Nat)
  /-- A message is written to a socket. If that fails the sending task ends. -/
  | deliver (socket : Nat)

structure WsChoice where
  fails : Bool
  uuid : Uuid
  change : Change

namespace Socket

def connected (userId : Uuid) : Socket := ⟨userId, true, false⟩

def close (s : Socket) : Socket := { s with isOpen := false }

def deliver (s : Socket) : Socket := { s with isClosed := s.isClosed || !s.isOpen }

end Socket

namespace WsState

variable (s : WsState)

def init (now : Nat) : WsState := ⟨.empty now, [], ∅, []⟩

def isLive (userId : Uuid) (socket : Nat) : Bool :=
  s.sockets[socket]?.any (fun c => c.userId = userId && c.isOpen)

/-- The live sockets of a user. -/
def live (userId : Uuid) : List Nat := (List.range s.sockets.length).filter (s.isLive userId)

def isOpen (socket : Nat) : Bool := s.sockets[socket]?.any Socket.isOpen

/-- `Sender::is_closed` -/
def isClosed (socket : Nat) : Bool := s.sockets[socket]?.any Socket.isClosed

def senders (userId : Uuid) : List Nat := (s.connections.lookup userId).getD []

def unclosed (userId : Uuid) : List Nat :=
  (s.senders userId).filter (fun socket => !s.isClosed socket)

/-- `entry.retain(|conn| !conn.is_closed())`, where there is an entry. -/
def retain (userId : Uuid) : WsState :=
  if userId ∈ s.connections then
    { s with connections := s.connections.insert userId (s.unclosed userId) }
  else s

def connect (userId : Uuid) : WsState :=
  { s with
    sockets := s.sockets ++ [.connected userId]
    connections := s.connections.insert userId (s.senders userId ++ [s.sockets.length]) }

def remove (userId : Uuid) : WsState := { s with connections := s.connections.erase userId }

def call (ω : WsChoice) (c : RedisCmd) : Option c.Ans × WsState :=
  if ω.fails then (none, s)
  else (some (Store.exec c s.redis).1, { s with redis := (Store.exec c s.redis).2 })

def exec (ω : WsChoice) : (c : WsCmd) → WsState → Option (c.Ans × WsState)
  | .newUuid, s =>
    if ω.uuid ∈ s.drawn then none else some (ω.uuid, { s with drawn := ω.uuid :: s.drawn })
  | .redis c, s => some (s.call ω c)
  | .countConnections userId, s => some (((s.retain userId).senders userId).length, s.retain userId)
  | .connect userId, s => some (s.sockets.length, s.connect userId)
  | .awaitClose socket, s => if s.isOpen socket then none else some ((), s)
  | .retainOpen userId, s =>
    some (userId ∈ s.connections && ((s.retain userId).senders userId).isEmpty, s.retain userId)
  | .remove userId, s => some ((), s.remove userId)

def modify (socket : Nat) (f : Socket → Socket) : WsState :=
  { s with sockets := s.sockets.modify socket f }

def tick (ω : WsChoice) (s : WsState) : Option WsState :=
  match ω.change with
  | .wait ms => some { s with redis := s.redis.wait ms }
  | .close socket => some (s.modify socket Socket.close)
  | .deliver socket => some (s.modify socket Socket.deliver)

end WsState

abbrev WsTask := ExceptT DomainError (Prog WsCmd WsCmd.Ans)

def WsTask.ask (c : WsCmd) : WsTask c.Ans := ExceptT.lift (Prog.cmd c)

def WsTask.okOr {α : Type} (o : Option α) (e : DomainError) : WsTask α :=
  match o with
  | none => throw e
  | some a => pure a

open WsTask

inductive Response where
  | ticket (status : Nat) (ticket : String)
  | upgraded
  deriving DecidableEq

def ticketKey (ticket : String) : String := "ws:ticket:" ++ ticket

def presenceKey (userId : Uuid) : String := "presence:" ++ userId.toString

def createWsTicket (userId : Uuid) : WsTask Response := do
  let ticket := (← ask .newUuid).toString
  let stored ← ask (.redis (.setEx (ticketKey ticket) userId.toString 30))
  okOr (stored.bind Except.toOption) (.internal "Database connection error")
  return .ticket 201 ticket

def tooManyConnections : DomainError :=
  .conflict "Too many concurrent WebSocket connections. Maximum is 5."

/-- The user for whom a ticket lets a connection be upgraded. -/
def wsHandler (ticket : String) : WsTask Uuid := do
  let value ← okOr (← ask (.redis (.get (ticketKey ticket)))) (.internal "Database connection error")
  let userIdStr ← okOr value (.unauthorized "Invalid or expired WebSocket ticket")
  -- the result of the DEL is discarded
  let _ ← ask (.redis (.del (ticketKey ticket)))
  let userId ← okOr (Uuid.parseStr userIdStr) (.unauthorized "Invalid ticket user identity")
  if (← ask (.countConnections userId)) ≥ 5 then
    throw tooManyConnections
  else
    return userId

/-- `handle_socket` up to the point where it spawns its tasks. -/
def openSocket (userId : Uuid) : Prog WsCmd WsCmd.Ans Nat := do
  let socket ← Prog.cmd (WsCmd.connect userId)
  let _ ← Prog.cmd (WsCmd.redis (.setEx (presenceKey userId) "1" 65))
  return socket

def dropSenders (userId : Uuid) : Prog WsCmd WsCmd.Ans Unit := do
  if ← Prog.cmd (WsCmd.retainOpen userId) then
    -- the guard of the entry is released in between
    Prog.cmd (WsCmd.remove userId)
  else
    return ()

/-- What the reading task does when its loop has ended. -/
def closeSocket (userId : Uuid) : Prog WsCmd WsCmd.Ans Unit := do
  dropSenders userId
  let _ ← Prog.cmd (WsCmd.redis (.del (presenceKey userId)))
  return ()

def handleSocket (userId : Uuid) : Prog WsCmd WsCmd.Ans Unit := do
  let socket ← openSocket userId
  Prog.cmd (WsCmd.awaitClose socket)
  closeSocket userId

inductive WsReq where
  | createWsTicket (userId : Uuid)
  | connect (ticket : String)
  deriving DecidableEq

def handle : WsReq → WsTask Response
  | .createWsTicket userId => createWsTicket userId
  | .connect ticket => do
    let userId ← wsHandler ticket
    ExceptT.lift (handleSocket userId)
    return .upgraded

/-- The handshakes and the connections of all users. -/
def connectionServer :
    System WsCmd WsCmd.Ans WsState WsChoice WsReq (Except ApiError Response) where
  exec := WsState.exec
  tick := WsState.tick
  handler req := (handle req).run

abbrev WsConfig := Config WsCmd WsCmd.Ans WsState WsReq (Except ApiError Response)

abbrev WsAct := Act WsReq WsChoice

abbrev WsEvent := Event WsCmd WsCmd.Ans

theorem ticketKey_injective : Function.Injective ticketKey :=
  fun _ _ h => (String.append_right_inj _).mp h

theorem presenceKey_injective : Function.Injective presenceKey :=
  fun _ _ h => Uuid.toString_injective ((String.append_right_inj _).mp h)

theorem ticketKey_ne_presenceKey (ticket : String) (userId : Uuid) :
    ticketKey ticket ≠ presenceKey userId := by
  intro h
  have hchars := congrArg String.toList h
  simp [ticketKey, presenceKey] at hchars

namespace WsState

variable {s s' : WsState} {userId owner : Uuid} {socket i : Nat} {ω : WsChoice} {c : RedisCmd}

theorem isLive_iff : s.isLive userId socket = true ↔
    ∃ c, s.sockets[socket]? = some c ∧ c.userId = userId ∧ c.isOpen = true := by
  simp [isLive, Option.any_eq_true]

theorem isLive_congr (h : s'.sockets = s.sockets) : s'.isLive = s.isLive := by
  funext owner i
  rw [isLive, isLive, h]

theorem isLive_lt (h : s.isLive userId socket = true) : socket < s.sockets.length := by
  obtain ⟨c, hc, -⟩ := isLive_iff.mp h
  exact (List.getElem?_eq_some_iff.mp hc).1

@[simp] theorem mem_live : socket ∈ s.live userId ↔ s.isLive userId socket = true := by
  rw [live, List.mem_filter, List.mem_range]
  exact ⟨And.right, fun h => ⟨isLive_lt h, h⟩⟩

@[simp] theorem retain_sockets : (s.retain userId).sockets = s.sockets := by
  rw [retain]
  split_ifs <;> rfl

@[simp] theorem retain_redis : (s.retain userId).redis = s.redis := by
  rw [retain]
  split_ifs <;> rfl

@[simp] theorem call_sockets : (s.call ω c).2.sockets = s.sockets := by
  rw [call]
  split_ifs <;> rfl

@[simp] theorem call_connections : (s.call ω c).2.connections = s.connections := by
  rw [call]
  split_ifs <;> rfl

theorem isLive_connect : (s.connect userId).isLive owner i = true ↔
    s.isLive owner i = true ∨ owner = userId ∧ i = s.sockets.length := by
  have hsockets : (s.connect userId).sockets = s.sockets ++ [.connected userId] := rfl
  rw [isLive_iff, isLive_iff, hsockets]
  obtain hlt | heq | hgt := Nat.lt_trichotomy i s.sockets.length
  · rw [List.getElem?_append_left hlt]
    simp [Nat.ne_of_lt hlt]
  · subst heq
    rw [List.getElem?_concat_length, List.getElem?_eq_none (Nat.le_refl _)]
    constructor
    · rintro ⟨c, hc, rfl, -⟩
      obtain rfl := Option.some.inj hc
      exact .inr ⟨rfl, rfl⟩
    · rintro (⟨c, hc, -⟩ | ⟨rfl, -⟩)
      · cases hc
      · exact ⟨_, rfl, rfl, rfl⟩
  · have hge : (s.sockets ++ [Socket.connected userId]).length ≤ i := by
      rw [List.length_append, List.length_singleton]
      omega
    rw [List.getElem?_eq_none hge, List.getElem?_eq_none (Nat.le_of_lt hgt)]
    simp [Nat.ne_of_gt hgt]

theorem isLive_modify {f : Socket → Socket} (hf : ∀ c, (f c).userId = c.userId) :
    (s.modify socket f).isLive userId i = true ↔
      ∃ c, s.sockets[i]? = some c ∧ c.userId = userId ∧
        (if socket = i then f c else c).isOpen = true := by
  have hsockets : (s.modify socket f).sockets = s.sockets.modify socket f := rfl
  rw [isLive_iff, hsockets, List.getElem?_modify]
  cases s.sockets[i]? with
  | none => simp
  | some c => by_cases h : socket = i <;> simp [h, hf]

theorem isLive_close : (s.modify socket Socket.close).isLive userId i = true ↔
    s.isLive userId i = true ∧ i ≠ socket := by
  rw [isLive_modify (f := Socket.close) (fun _ => rfl), isLive_iff]
  by_cases h : socket = i
  · simp [h, Socket.close]
  · simp [h, Ne.symm h]

theorem isLive_deliver : (s.modify socket Socket.deliver).isLive = s.isLive := by
  ext owner i
  rw [Bool.eq_iff_iff, isLive_modify (f := Socket.deliver) (fun _ => rfl), isLive_iff]
  by_cases h : socket = i <;> simp [h, Socket.deliver]

end WsState

abbrev History := List ((c : WsCmd) × c.Ans)

/-- What a task that serves a request has done when it issues a command. -/
def Expected (r : WsReq) (hist : History) : WsCmd → Prop
  | .redis (.get key) => ∃ ticket, r = .connect ticket ∧ key = ticketKey ticket
  | .redis (.setEx key _ _) => (∃ u, hist = [⟨.newUuid, u⟩] ∧ key = ticketKey u.toString) ∨
      ∃ userId, key = presenceKey userId
  | .redis (.del key) => (∃ ticket value, r = .connect ticket ∧ key = ticketKey ticket ∧
      ⟨.redis (.get key), some (some value)⟩ ∈ hist) ∨ ∃ userId, key = presenceKey userId
  | .redis _ => False
  | .connect userId => ∃ ticket value n, r = .connect ticket ∧
      ⟨.redis (.get (ticketKey ticket)), some (some value)⟩ ∈ hist ∧
      hist.getLast? = some ⟨.countConnections userId, n⟩ ∧ n < 5
  | _ => True

/-- A refused task has counted five connections just before. -/
def Refuses (hist : History) (out : Except ApiError Response) : Prop :=
  out = .error tooManyConnections →
    ∃ userId n, hist.getLast? = some ⟨.countConnections userId, n⟩ ∧ 5 ≤ n

theorem createWsTicket_expected (userId : Uuid) :
    (createWsTicket userId).run.Follows (Expected (.createWsTicket userId)) Refuses [] := by
  refine ⟨trivial, fun u => ⟨.inl ⟨u, rfl, rfl⟩, fun stored => ?_⟩⟩
  obtain _ | _ | _ := stored <;> rintro ⟨⟩

theorem wsHandler_expected (ticket : String) :
    (wsHandler ticket).run.Follows (Expected (.connect ticket)) (fun hist out => match out with
      | .ok userId => ∃ value n, ⟨.redis (.get (ticketKey ticket)), some (some value)⟩ ∈ hist ∧
          hist.getLast? = some ⟨.countConnections userId, n⟩ ∧ n < 5
      | .error e => Refuses hist (.error e)) [] := by
  refine ⟨⟨ticket, rfl, rfl⟩, fun value => ?_⟩
  obtain _ | _ | value := value
  · rintro ⟨⟩
  · rintro ⟨⟩
  · refine ⟨.inl ⟨ticket, value, rfl, rfl, List.mem_singleton_self _⟩, fun _ => ?_⟩
    refine Prog.follows_run_bind.mpr ?_
    cases Uuid.parseStr value with
    | none => rintro ⟨⟩
    | some userId =>
      refine ⟨trivial, fun n => ?_⟩
      change (if n ≥ 5 then throw tooManyConnections else pure userId : WsTask Uuid).run.Follows _ _ _
      by_cases hn : 5 ≤ n
      · rw [if_pos hn]
        exact fun _ => ⟨userId, n, rfl, hn⟩
      · rw [if_neg hn]
        exact ⟨value, n, by simp, rfl, Nat.lt_of_not_le hn⟩

theorem closeSocket_expected (r : WsReq) (userId : Uuid) (hist : History) :
    (closeSocket userId).Follows (Expected r) (fun _ _ => True) hist := by
  have hdel : ∀ hist : History, (Prog.call (WsCmd.redis (.del (presenceKey userId)))
      (fun _ => Prog.ret ())).Follows (Expected r) (fun _ _ => True) hist :=
    fun hist => ⟨.inr ⟨userId, rfl⟩, fun _ => trivial⟩
  refine ⟨trivial, fun isEmpty => ?_⟩
  cases isEmpty with
  | false => exact hdel _
  | true => exact ⟨trivial, fun _ => hdel _⟩

theorem handle_expected (r : WsReq) : (handle r).run.Follows (Expected r) Refuses [] := by
  cases r with
  | createWsTicket userId => exact createWsTicket_expected userId
  | connect ticket =>
    refine Prog.follows_run_bind.mpr ((wsHandler_expected ticket).mono (fun _ _ h => h) ?_)
    intro hist out hout
    cases out with
    | error e => exact hout
    | ok userId =>
      obtain ⟨value, n, hfound, hlast, hn⟩ := hout
      refine ⟨⟨ticket, value, n, rfl, hfound, hlast, hn⟩, fun socket => ?_⟩
      refine ⟨.inr ⟨userId, rfl⟩, fun _ => ⟨trivial, fun _ => ?_⟩⟩
      refine Prog.follows_bind.mpr (Prog.follows_bind.mpr
        ((closeSocket_expected _ _ _).mono (fun _ _ h => h) ?_))
      rintro _ _ _ ⟨⟩

end Mesty.Ws.Connections
