import Mesty.Chats.Publishing
import Mesty.Ws.Hub

namespace Mesty.Ws.Delivery

open Mesty.Base.Ids Mesty.Base.Error Mesty.Concurrency.Program Mesty.Concurrency.Pool
open Mesty.Chats.Repository Mesty.Chats.Store Mesty.Chats.Handlers Mesty.Chats.Publishing
open Mesty.Ws.Hub

abbrev WsConfig := Config WsCmd WsCmd.Ans WsStore WsReq (Except ApiError WsResponse)

abbrev WsAct := Act WsReq WsChoice

/-- The chat for which an event is published. -/
def WsEvent.chat : WsEvent → Option Uuid
  | .group payload => payload.chatId
  | .chat event => ChatEvent.chat event
  | .typing event => some event.chatId

/-- The event for a chat that a task is about to publish. -/
def announced (c : WsConfig) (i : Nat) : Option (Uuid × WsEvent) := do
  let task ← c.tasks[i]?
  let cmd ← task.2.next
  let (_, event) ← cmd.publication
  let chatId ← WsEvent.chat event
  return (chatId, event)

/-- The socket is live, and its user is an active participant of the chat other than the one
whose request publishes. -/
structure Addressee (c : WsConfig) (i : Nat) (chatId : Uuid) (socket : Socket) : Prop where
  isOpen : socket.isOpen = true
  active : (c.db.activeRow chatId socket.userId).isSome = true
  other : ∀ r ∈ c.request i, r.userId ≠ some socket.userId

/-- An event for a chat reaches all sockets it is meant for. -/
def Delivered (c : WsConfig) : WsAct → Prop
  | .step i ω => ∀ d, wsServer.apply (.step i ω) c = some d → ∀ chatId event,
    announced c i = some (chatId, event) → ∀ (s : Nat) socket, c.db.sockets[s]? = some socket →
      Addressee c i chatId socket →
        ∃ socket' : Socket, d.db.sockets[s]? = some socket' ∧
          socket'.received = socket.received ++ [event]
  | _ => True

/-- An event for a chat is meant for nobody. -/
def NoAddressee (c : WsConfig) : WsAct → Prop
  | .step i _ => ∀ chatId event, announced c i = some (chatId, event) →
    ∀ socket ∈ c.db.sockets, ¬ Addressee c i chatId socket
  | _ => True

def userChannel (userId : Uuid) : String := "user:" ++ userId.toString ++ ":events"

theorem chatChannel_ne_userChannel (chatId userId : Uuid) :
    chatChannel chatId ≠ userChannel userId := by
  intro h
  have hlist := congrArg (fun s => s.toList.head?) h
  simp [chatChannel, userChannel] at hlist

/-- The socket listens to the channel of a user, if at all. -/
def Personal (s : Socket) : Prop :=
  ∀ channel, s.subscription = some channel → ∃ userId, channel = userChannel userId

/-- What is published for a chat goes to its channel, subscriptions are to users' channels. -/
def WsAddressed : WsCmd → Prop
  | .store c => Addressed c
  | .subscribe _ channel => ∃ userId, channel = userChannel userId
  | .publishTyping channel event => channel = chatChannel event.chatId
  | _ => True

section Addressed

variable {α : Type}

theorem issues_ofStore {p : Prog StoreCmd StoreCmd.Ans α} (h : p.Issues Addressed) :
    (WsTask.ofStore p).Issues WsAddressed := by
  induction p with
  | ret a => trivial
  | call c k ih => exact ⟨h.1, fun r => ih r (h.2 r)⟩

theorem okOrWs_addressed {o : Option α} {e : DomainError} :
    (WsTask.okOr o e).run.Issues WsAddressed := by
  cases o <;> trivial

theorem wsHandler_addressed (ticket : String) : (wsHandler ticket).run.Issues WsAddressed := by
  refine ⟨trivial, fun userIdStr => okOrWs_addressed.tryBind fun userIdStr => ⟨trivial, fun _ => ?_⟩⟩
  apply okOrWs_addressed.tryBind
  refine fun userId => ⟨trivial, fun active => ?_⟩
  change Prog.Issues _ (ExceptT.run (if _ then _ else _))
  split_ifs <;> trivial

theorem publishTyping_addressed (userId chatId : Uuid) (type : String) :
    (publishTyping userId chatId type).run.Issues WsAddressed :=
  ⟨trivial, fun _ => ⟨rfl, fun _ => trivial⟩⟩

theorem ws_addressed (r : WsReq) : (wsServer.handler r).Issues WsAddressed := by
  cases r with
  | chat userId req => exact (issues_ofStore (handle_addressed userId req)).tryBind fun _ => trivial
  | createWsTicket userId => exact ⟨trivial, fun _ => ⟨trivial, fun _ => trivial⟩⟩
  | connect ticket =>
    apply (wsHandler_addressed ticket).tryBind
    exact fun userId => ⟨trivial, fun _ => ⟨trivial, fun _ => ⟨⟨userId, rfl⟩, fun _ => trivial⟩⟩⟩
  | typing userId chatId task =>
    cases task with
    | start => exact (publishTyping_addressed userId chatId _).tryBind fun _ => trivial
    | timer => exact ⟨trivial, fun _ => (publishTyping_addressed userId chatId _).tryBind
        fun _ => trivial⟩
    | stop => exact (publishTyping_addressed userId chatId _).tryBind fun _ => trivial

theorem channel_of_addressed {cmd : WsCmd} {channel : String} {event : WsEvent} {chatId : Uuid}
    (hc : WsAddressed cmd) (hp : cmd.publication = some (channel, event))
    (hchat : WsEvent.chat event = some chatId) : channel = chatChannel chatId := by
  cases cmd with
  | store c =>
    cases c with
    | chat c =>
      cases c with
      | publish =>
        cases hp
        exact hc chatId hchat
      | _ => cases hp
    | publish =>
      cases hp
      exact hc chatId hchat
    | _ => cases hp
  | publishTyping =>
    cases hp
    obtain rfl := Option.some.inj hchat
    exact hc
  | _ => cases hp

end Addressed

section Sockets

variable {ω : WsChoice} {db db' : WsStore} {cmd : WsCmd} {ans : cmd.Ans}

/-- Only the subscription of a socket and what it has received are not of its own making. -/
theorem deliver_subscription (publication : Option (String × WsEvent)) (s : Socket) :
    (s.deliver publication).subscription = s.subscription := by
  cases publication with
  | none => rfl
  | some p =>
    rw [Socket.deliver]
    split_ifs <;> rfl

/-- A command that publishes does nothing else to the sockets. -/
theorem exec_publishes {channel : String} {event : WsEvent}
    (hp : cmd.publication = some (channel, event)) (h : WsStore.exec ω cmd db = some (ans, db')) :
    db'.sockets = db.sockets.map (Socket.deliver (some (channel, event))) := by
  obtain ⟨⟨ans, db₁⟩, hperform, heq⟩ := Option.map_eq_some_iff.mp h
  obtain ⟨rfl, rfl⟩ := Prod.mk.inj heq
  have hsame : db₁.sockets = db.sockets := by
    cases cmd with
    | store c =>
      obtain ⟨out, -, hout⟩ := Option.map_eq_some_iff.mp hperform
      exact congrArg (fun p => WsStore.sockets p.2) hout.symm
    | publishTyping => exact congrArg WsStore.sockets (Prod.mk.inj (Option.some.inj hperform)).2.symm
    | _ => cases hp
  simp only [hp, hsame]

theorem personal_modify {sockets : List Socket} {i : Nat} {f : Socket → Socket}
    (hf : ∀ s, Personal s → Personal (f s)) (h : ∀ s ∈ sockets, Personal s) :
    ∀ s ∈ sockets.modify i f, Personal s := by
  intro s hs
  obtain ⟨j, hj⟩ := List.mem_iff_getElem?.mp hs
  rw [List.getElem?_modify] at hj
  obtain ⟨s', hs', rfl⟩ := Option.map_eq_some_iff.mp hj
  have hold := h s' (List.mem_of_getElem? hs')
  split_ifs
  · exact hf s' hold
  · exact hold

theorem personal_exec (hc : WsAddressed cmd) (h : ∀ s ∈ db.sockets, Personal s)
    (he : WsStore.exec ω cmd db = some (ans, db')) : ∀ s ∈ db'.sockets, Personal s := by
  obtain ⟨⟨ans, db₁⟩, hperform, heq⟩ := Option.map_eq_some_iff.mp he
  obtain ⟨rfl, rfl⟩ := Prod.mk.inj heq
  have hbefore : ∀ s ∈ db₁.sockets, Personal s := by
    cases cmd with
    | store c =>
      obtain ⟨out, -, hout⟩ := Option.map_eq_some_iff.mp hperform
      obtain ⟨-, rfl⟩ := Prod.mk.inj hout
      exact h
    | connect userId =>
      obtain ⟨-, rfl⟩ := Prod.mk.inj (Option.some.inj hperform)
      intro s hs
      obtain hs | hs := List.mem_append.mp hs
      · exact h s hs
      · obtain rfl := List.mem_singleton.mp hs
        exact nofun
    | subscribe socket channel =>
      obtain ⟨-, rfl⟩ := Prod.mk.inj (Option.some.inj hperform)
      split_ifs
      · refine personal_modify (fun s _ channel' hch => ?_) h
        obtain rfl := Option.some.inj hch
        exact hc
      · exact h
    | _ =>
      obtain ⟨-, rfl⟩ := Prod.mk.inj (Option.some.inj hperform)
      exact h
  intro s hs
  obtain ⟨s', hs', rfl⟩ := List.mem_map.mp hs
  rw [Personal, deliver_subscription]
  exact hbefore s' hs'

theorem personal_tick (h : ∀ s ∈ db.sockets, Personal s) (hs : WsStore.tick ω db = some db') :
    ∀ s ∈ db'.sockets, Personal s := by
  rw [WsStore.tick] at hs
  split at hs
  · obtain ⟨store, -, rfl⟩ := Option.map_eq_some_iff.mp hs
    exact h
  · obtain rfl := Option.some.inj hs
    exact h
  · obtain rfl := Option.some.inj hs
    exact personal_modify (fun s hp => hp) h
  · obtain rfl := Option.some.inj hs
    exact personal_modify (fun s hp => hp) h

end Sockets

theorem ws_outline : Outline wsServer (fun _ _ => True) (fun w => ∀ s ∈ w.db.sockets, Personal s)
    (fun _ _ _ p => p.Issues WsAddressed) where
  spawn _ r _ := ws_addressed r
  step hc _ ht he :=
    have hissues := hc.2 _ _ _ ht
    ⟨personal_exec hissues.1 hc.1 he, hissues.2 _, fun _ _ _ _ hp => hp⟩
  tick hc _ hs := ⟨personal_tick hc.1 hs, fun _ _ _ hp => hp⟩

theorem ws_start (users : List Uuid) : (System.start (.empty users) : WsConfig).Meets
    (fun w => ∀ s ∈ w.db.sockets, Personal s) (fun _ _ _ p => p.Issues WsAddressed) :=
  Outline.start fun _ hs => absurd hs List.not_mem_nil

theorem announced_some {c : WsConfig} {i : Nat} {chatId : Uuid} {event : WsEvent}
    (h : announced c i = some (chatId, event)) : ∃ r cmd k channel,
      c.tasks[i]? = some (r, .call cmd k) ∧ cmd.publication = some (channel, event) ∧
        WsEvent.chat event = some chatId := by
  obtain ⟨⟨r, p⟩, ht, h⟩ := Option.bind_eq_some_iff.mp h
  obtain ⟨cmd, hnext, h⟩ := Option.bind_eq_some_iff.mp h
  obtain ⟨⟨channel, event'⟩, hp, h⟩ := Option.bind_eq_some_iff.mp h
  obtain ⟨chatId', hchat, heq⟩ := Option.bind_eq_some_iff.mp h
  obtain ⟨rfl, rfl⟩ := Prod.mk.inj (Option.some.inj heq)
  cases p with
  | ret a => cases hnext
  | call cmd' k =>
    obtain rfl := Option.some.inj hnext
    exact ⟨r, cmd', k, channel, ht, hp, hchat⟩

/-- What is published for a chat reaches no socket. -/
theorem sockets_of_announced {c d : WsConfig} {i : Nat} {ω : WsChoice} {chatId : Uuid}
    {event : WsEvent} (hc : c.Meets (fun w => ∀ s ∈ w.db.sockets, Personal s)
      (fun _ _ _ p => p.Issues WsAddressed))
    (ha : wsServer.apply (.step i ω) c = some d) (h : announced c i = some (chatId, event)) :
    d.db.sockets = c.db.sockets := by
  obtain ⟨r, cmd, k, channel, ht, hp, hchat⟩ := announced_some h
  obtain ⟨r', h', -⟩ | ⟨i', ω', r', cmd', k', ans, s, h', ht', he, rfl⟩ | ⟨ω', s, h', -⟩ :=
    System.apply_cases ha
  · cases h'
  · obtain ⟨rfl, rfl⟩ := Act.step.inj h'
    obtain ⟨-, heq⟩ := Prod.mk.inj (Option.some.inj (ht.symm.trans ht'))
    cases heq
    have hchannel := channel_of_addressed (hc.2 _ _ _ ht).1 hp hchat
    change s.sockets = _
    rw [exec_publishes hp he]
    refine (List.map_congr_left fun socket hmem => ?_).trans (List.map_id _)
    refine if_neg fun hsub => ?_
    obtain ⟨userId, huser⟩ := hc.1 socket hmem channel hsub
    exact chatChannel_ne_userChannel chatId userId (hchannel.symm.trans huser)
  · cases h'

/-- A move delivers what it publishes exactly if it publishes for nobody. -/
theorem delivered_iff_noAddressee {c d : WsConfig} {a : WsAct}
    (hc : c.Meets (fun w => ∀ s ∈ w.db.sockets, Personal s) (fun _ _ _ p => p.Issues WsAddressed))
    (ha : wsServer.apply a c = some d) : Delivered c a ↔ NoAddressee c a := by
  cases a with
  | spawn r => exact Iff.rfl
  | tick ω => exact Iff.rfl
  | step i ω =>
    constructor
    · intro h chatId event hannounced socket hmem haddressee
      obtain ⟨s, hs⟩ := List.mem_iff_getElem?.mp hmem
      obtain ⟨socket', hs', hreceived⟩ := h d ha chatId event hannounced s socket hs haddressee
      rw [sockets_of_announced hc ha hannounced, hs] at hs'
      obtain rfl := Option.some.inj hs'
      exact absurd hreceived (by simp)
    · intro h d' ha' chatId event hannounced s socket hs haddressee
      exact absurd haddressee (h chatId event hannounced socket (List.mem_of_getElem? hs))

/-- In a run every event for a chat reaches all live sockets of its other active participants
exactly if there never is such a socket. -/
theorem chat_events_delivered_iff (users : List Uuid) (acts : List WsAct) :
    wsServer.Every Delivered acts (System.start (.empty users)) ↔
      wsServer.Every NoAddressee acts (System.start (.empty users)) := by
  exact System.every_iff_every (fun hc ha => ws_outline.apply hc trivial ha)
    (fun hc ha => delivered_iff_noAddressee hc ha) acts (ws_start users)

def alice : Uuid := .ofNat 1

def bob : Uuid := .ofNat 2

def choose (n : Nat) : WsChoice := ⟨⟨⟨.ofNat n, n, ""⟩, true, [], true⟩, .users⟩

instance (c : WsConfig) (i : Nat) (chatId : Uuid) (socket : Socket) :
    Decidable (Addressee c i chatId socket) :=
  decidable_of_iff (socket.isOpen = true ∧ (c.db.activeRow chatId socket.userId).isSome = true ∧
      ∀ r ∈ c.request i, r.userId ≠ some socket.userId)
    ⟨fun ⟨h, h', h''⟩ => ⟨h, h', h''⟩, fun h => ⟨h.isOpen, h.active, h.other⟩⟩

instance (c : WsConfig) : (a : WsAct) → Decidable (NoAddressee c a)
  | .step i _ => decidable_of_iff (∀ x ∈ announced c i, ∀ socket ∈ c.db.sockets,
      ¬ Addressee c i x.1 socket) ⟨fun h _ _ hx => h _ hx, fun h x hx => h x.1 x.2 hx⟩
  | .spawn _ | .tick _ => .isTrue trivial

/-- Alice opens a chat with Bob, Bob connects, and Alice starts typing. -/
def typingUnheard : List WsAct :=
  [.spawn (.chat alice (.createPrivateChat bob)),
    .step 0 (choose 9), .step 0 (choose 10), .step 0 (choose 11),
    .spawn (.createWsTicket bob), .step 1 (choose 20), .step 1 (choose 21),
    .spawn (.connect (Uuid.ofNat 20).toString), .step 2 (choose 22), .step 2 (choose 23),
    .step 2 (choose 24), .step 2 (choose 25), .step 2 (choose 26), .step 2 (choose 27),
    .spawn (.typing alice (.ofNat 10) .start), .step 3 (choose 30), .step 3 (choose 31)]

theorem typing_unheard :
    ¬ wsServer.Every Delivered typingUnheard (System.start (.empty [alice, bob])) := by
  rw [System.every_iff_every (fun hc ha => ws_outline.apply hc trivial ha)
    (fun hc ha => delivered_iff_noAddressee hc ha) typingUnheard (ws_start [alice, bob])]
  decide +kernel

end Mesty.Ws.Delivery
