import Mesty.Chats.Erasure

namespace Mesty.Chats.Retry

open Mesty.Base.Ids Mesty.Base.Error Mesty.Concurrency.Program
open Mesty.Chats Mesty.Chats.Messages Mesty.Chats.Store
open Mesty.Chats.Changes (Accepts sendMessage_cases)
open Mesty.Chats.Erasure (alice bob theChat)
open Mesty.Chats.Handlers (Response)

inductive Service where
  | redis
  | postgres
  | clock

def service : StoreCmd → Service
  | .checkRateLimit _ | .isOnline _ | .publish .. | .enqueuePush _ => .redis
  | .utcNow => .clock
  | _ => .postgres

/-- Of a Redis error the handlers use the text. The clock does not fail. -/
abbrev Service.Fault : Service → Type
  | redis => String
  | postgres => SqlError
  | clock => Empty

/-- The task of a request whose calls may fail. -/
abbrev FaultyTask := ExceptT DomainError (Prog StoreCmd (fun c => Except (service c).Fault c.Ans))

namespace FaultyTask

/-- `.await.map_err(onFault)?` -/
def call (c : StoreCmd) (onFault : (service c).Fault → DomainError) : FaultyTask c.Ans :=
  ExceptT.mk (Prog.call c (fun r => .ret (r.mapError onFault)))

/-- `.await.unwrap_or(default)` -/
def callOr (c : StoreCmd) (default : c.Ans) : FaultyTask c.Ans :=
  ExceptT.lift (Prog.call c (fun r => .ret (r.toOption.getD default)))

end FaultyTask

open FaultyTask

def isMuted (settings : Option ChatSettings) : FaultyTask Bool := do
  match settings with
  | none => return false
  | some settings =>
    if settings.isMuted then
      return true
    else match settings.mutedUntil with
      | none => return false
      | some until_ => return decide (until_ > (← call .utcNow Empty.elim))

/-- A failed push is only written to the log. -/
def notifyParticipant (message : ChatMessage) (senderId participantId : Uuid) :
    FaultyTask Unit := do
  if participantId ≠ senderId then
    call (.publish ("user:" ++ participantId.toString ++ ":events")
      (.messageContent message.chatId message.id message.senderId message.contentEncrypted
        message.contentIv message.messageType message.createdAt)) (fun (e : String) =>
        .internal ("failed to publish user event: " ++ e))
    if !(← callOr (.isOnline participantId) false) then
      let muted ← isMuted (← callOr (.getChatSettings participantId message.chatId) none)
      if !muted then
        callOr (.enqueuePush ⟨participantId, "new_message", message.chatId, message.id,
          message.senderId⟩) ()

def publishMessageEvent (message : ChatMessage) (senderId : Uuid) : FaultyTask Unit := do
  call (.publish ("chat:" ++ message.chatId.toString ++ ":events")
    (.newMessage message.chatId message.id message.senderId message.createdAt))
    (fun (e : String) => .internal ("failed to publish message event: " ++ e))
  (← call (.getChatParticipants message.chatId) (fun (e : SqlError) =>
      .internal ("failed to get participants: " ++ (DomainError.fromSqlx e).toString))).forM
    (notifyParticipant message senderId)

/-- The method of the repository, whose transaction may fail for outside reasons. -/
def storeMessage (senderId chatId : Uuid) (message : NewMessage) : FaultyTask ChatMessage :=
  ExceptT.mk (Prog.call (.sendMessage senderId chatId message)
    (fun r => .ret ((r.mapError .fromSqlx).bind id)))

/-- The handler `send_message`. -/
def sendMessage (userId chatId : Uuid) (message : NewMessage) : FaultyTask Response := do
  if ← call (.checkRateLimit ("msg:" ++ userId.toString)) .internal then
    let message ← storeMessage userId chatId message
    publishMessageEvent message userId
    return ⟨201, .message message⟩
  else
    return ⟨429, .error "Too many messages sent. Please slow down."⟩

/-- The task when none of its calls fails. -/
def answered {C α : Type} {R F : C → Type} : Prog C (fun c => Except (F c) (R c)) α → Prog C R α
  | .ret a => .ret a
  | .call c k => .call c (fun a => answered (k (.ok a)))

theorem answered_bind {C α β : Type} {R F : C → Type} (p : Prog C (fun c => Except (F c) (R c)) α)
    (f : α → Prog C (fun c => Except (F c) (R c)) β) :
    answered (p >>= f) = answered p >>= fun a => answered (f a) := by
  induction p with
  | ret a => rfl
  | call c k ih => exact congrArg (Prog.call c) (funext fun a => ih (.ok a))

namespace FaultyTask

variable {α β : Type}

def clean (x : FaultyTask α) : Handlers.StoreTask α := ExceptT.mk (answered x.run)

theorem clean_pure (a : α) : clean (pure a) = pure a := rfl

theorem clean_bind (x : FaultyTask α) (f : α → FaultyTask β) :
    clean (x >>= f) = clean x >>= fun a => clean (f a) := by
  change answered (x.run >>= ExceptT.bindCont f) = _
  rw [answered_bind]
  refine congrArg (answered x.run >>= ·) (funext fun r => ?_)
  cases r <;> rfl

theorem clean_ite (p : Prop) [Decidable p] (x y : FaultyTask α) :
    clean (if p then x else y) = if p then clean x else clean y := by
  split_ifs <;> rfl

theorem clean_forM (xs : List α) (f : α → FaultyTask Unit) :
    clean (xs.forM f) = xs.forM (fun x => clean (f x)) := by
  induction xs with
  | nil => rfl
  | cons x xs ih =>
    change clean (f x >>= fun _ => xs.forM f) = clean (f x) >>= fun _ => xs.forM (fun x => clean (f x))
    rw [clean_bind, ih]

end FaultyTask

theorem clean_isMuted (settings : Option ChatSettings) :
    (isMuted settings).clean = Handlers.isMuted settings := by
  unfold isMuted Handlers.isMuted
  cases settings with
  | none => rfl
  | some settings =>
    obtain ⟨isMuted, mutedUntil, _⟩ := settings
    cases isMuted with
    | true => rfl
    | false =>
      cases mutedUntil with
      | none => rfl
      | some until_ => exact clean_bind _ _

theorem clean_notifyParticipant (message : ChatMessage) (senderId participantId : Uuid) :
    (notifyParticipant message senderId participantId).clean =
      Handlers.notifyParticipant message senderId participantId := by
  rw [notifyParticipant, Handlers.notifyParticipant]
  split_ifs
  · simp only [clean_bind, clean_isMuted, clean_ite, clean_pure]
    rfl
  · rfl

theorem clean_publishMessageEvent (message : ChatMessage) (senderId : Uuid) :
    (publishMessageEvent message senderId).clean = Handlers.publishMessageEvent message senderId := by
  simp only [publishMessageEvent, clean_bind, clean_forM, clean_notifyParticipant]
  rfl

/-- Without failures the handler is the one of the chat server. -/
theorem clean_sendMessage (userId chatId : Uuid) (message : NewMessage) :
    (sendMessage userId chatId message).clean = Handlers.sendMessage userId chatId message := by
  simp only [sendMessage, clean_bind, clean_ite, clean_publishMessageEvent, clean_pure]
  rfl

/-- How a call fails: before the command has been executed, or its answer is lost. -/
structure Failure where
  redis : String
  postgres : SqlError
  executed : Bool

def Failure.fault (f : Failure) : (s : Service) → Option s.Fault
  | .redis => some f.redis
  | .postgres => some f.postgres
  | .clock => none

/-- `others` is what the other requests make of the tables before the call. -/
structure CallChoice extends StoreChoice where
  others : ChatStore → ChatStore
  failure : Option Failure

/-- The tables, the rows of `messages` that the request has stored, and those of its calls
that have failed. -/
structure World where
  db : ChatStore
  stored : List ChatMessage
  failed : List StoreCmd

def newMessages (db db' : ChatStore) : List ChatMessage :=
  db'.messages.filter (fun m => m.id ∉ db.messages.map ChatMessage.id)

namespace World

def executed (w : World) (ω : CallChoice) (c : StoreCmd) : Option (c.Ans × World) :=
  (ChatStore.exec ω.toStoreChoice c (ω.others w.db)).map (fun out =>
    (out.1, ⟨out.2, w.stored ++ newMessages (ω.others w.db) out.2, w.failed⟩))

def fail (w : World) (c : StoreCmd) : World := { w with failed := w.failed ++ [c] }

def exec (ω : CallChoice) (c : StoreCmd) (w : World) :
    Option (Except (service c).Fault c.Ans × World) :=
  match ω.failure.bind (fun f => (f.fault (service c)).map (f.executed, ·)) with
  | none => (w.executed ω c).map (fun out => (.ok out.1, out.2))
  | some (true, e) => (w.executed ω c).map (fun out => (.error e, out.2.fail c))
  | some (false, e) => some (.error e, { w with db := ω.others w.db }.fail c)

end World

/-- The calls whose failure the handler passes on after the message has been stored. -/
def Fatal : StoreCmd → Prop
  | .sendMessage .. | .publish .. | .getChatParticipants _ => True
  | _ => False

def NoFatal (w : World) : Prop := ∀ c ∈ w.failed, ¬ Fatal c

/-- The calls around the INSERT, which leave the tables alone. -/
def Quiet : StoreCmd → Prop
  | .checkRateLimit _ | .isOnline _ | .utcNow | .publish .. | .enqueuePush _
  | .getChatParticipants _ | .getChatSettings .. => True
  | _ => False

def statusOf : Except ApiError Response → Nat
  | .ok r => r.status
  | .error e => e.intoResponse.1

theorem error_status (e : ApiError) : 400 ≤ e.intoResponse.1 := by
  cases e <;> simp [ApiError.intoResponse]

section Fanout

variable {α : Type} {w w' : World} {ω : CallChoice} {c : StoreCmd} {stored : List ChatMessage}

theorem newMessages_eq_nil {db db' : ChatStore} (h : db'.messages = db.messages) :
    newMessages db db' = [] := by
  rw [newMessages, h, List.filter_eq_nil_iff]
  intro m hm
  simpa using ⟨m, hm, rfl⟩

theorem newMessages_eq_singleton {db db' : ChatStore} {m : ChatMessage}
    (h : db'.messages = db.messages ++ [m]) (hfresh : m.id ∉ db.messages.map ChatMessage.id) :
    newMessages db db' = [m] := by
  have hold : newMessages db db = [] := newMessages_eq_nil rfl
  rw [newMessages] at hold ⊢
  rw [h, List.filter_append, hold, List.nil_append, List.filter_singleton]
  simp only [hfresh, not_false_eq_true, decide_true, cond_true]

theorem quiet_same {ω : StoreChoice} {db db' : ChatStore} {ans : c.Ans} (hc : Quiet c)
    (h : ChatStore.exec ω c db = some (ans, db')) : db' = db := by
  cases c <;> first | exact hc.elim | exact (Prod.mk.inj (Option.some.inj h)).2.symm

theorem executed_quiet {ans : c.Ans} (hc : Quiet c) (h : w.executed ω c = some (ans, w')) :
    w'.stored = w.stored ∧ w'.failed = w.failed := by
  obtain ⟨⟨ans', db'⟩, he, heq⟩ := Option.map_eq_some_iff.mp h
  obtain ⟨-, rfl⟩ := Prod.mk.inj heq
  obtain rfl := quiet_same hc he
  exact ⟨by rw [newMessages_eq_nil rfl, List.append_nil], rfl⟩

/-- A call either answers or is one more failed call. -/
theorem exec_quiet {r : Except (service c).Fault c.Ans} (hc : Quiet c)
    (h : World.exec ω c w = some (r, w')) : w'.stored = w.stored ∧
      ((∃ a, r = .ok a ∧ w'.failed = w.failed) ∨ ∃ e, r = .error e ∧ w'.failed = w.failed ++ [c]) := by
  rw [World.exec] at h
  split at h
  · obtain ⟨⟨a, w₁⟩, he, heq⟩ := Option.map_eq_some_iff.mp h
    obtain ⟨rfl, rfl⟩ := Prod.mk.inj heq
    obtain ⟨hstored, hfailed⟩ := executed_quiet hc he
    exact ⟨hstored, .inl ⟨a, rfl, hfailed⟩⟩
  · next e _ =>
    obtain ⟨⟨a, w₁⟩, he, heq⟩ := Option.map_eq_some_iff.mp h
    obtain ⟨rfl, rfl⟩ := Prod.mk.inj heq
    obtain ⟨hstored, hfailed⟩ := executed_quiet hc he
    exact ⟨hstored, .inr ⟨e, rfl, congrArg (· ++ [c]) hfailed⟩⟩
  · next e _ =>
    obtain ⟨rfl, rfl⟩ := Prod.mk.inj (Option.some.inj h)
    exact ⟨rfl, .inr ⟨e, rfl, rfl⟩⟩

/-- What a part of the handler after the INSERT ends with: an error exactly if a call that
matters has failed. -/
def FannedOut (stored : List ChatMessage) (r : Except DomainError α) (w : World) : Prop :=
  w.stored = stored ∧ (r.isOk ↔ NoFatal w)

theorem noFatal_of_failed (hw : NoFatal w) (hc : ¬ Fatal c) (h : w'.failed = w.failed ++ [c]) :
    NoFatal w' := by
  intro c' hc'
  rw [h, List.mem_append, List.mem_singleton] at hc'
  obtain hc' | rfl := hc'
  · exact hw c' hc'
  · exact hc

/-- The rule for `?`. -/
theorem wp_tryBind {β : Type} {x : FaultyTask β} {f : β → FaultyTask α}
    (hx : x.run.wp World.exec (FannedOut stored) w)
    (hf : ∀ b w', w'.stored = stored → NoFatal w' → (f b).run.wp World.exec (FannedOut stored) w') :
    (x >>= f).run.wp World.exec (FannedOut stored) w := by
  refine Prog.wp_run_bind.mpr (hx.mono fun r w' hr => ?_)
  obtain ⟨hs, hok⟩ := hr
  cases r with
  | ok b => exact hf b w' hs (hok.mp rfl)
  | error e => exact ⟨hs, hok⟩

theorem wp_pure {a : α} (hs : w.stored = stored) (hw : NoFatal w) :
    (pure a : FaultyTask α).run.wp World.exec (FannedOut stored) w :=
  ⟨hs, iff_of_true rfl hw⟩

/-- A call whose failure ends the handler. -/
theorem wp_call {onFault : (service c).Fault → DomainError} (hquiet : Quiet c) (hfatal : Fatal c)
    (hs : w.stored = stored) (hw : NoFatal w) :
    (call c onFault).run.wp World.exec (FannedOut stored) w := by
  intro ω r w' he
  obtain ⟨hstored, ⟨a, rfl, hfailed⟩ | ⟨e, rfl, hfailed⟩⟩ := exec_quiet hquiet he
  · refine wp_pure (hstored.trans hs) ?_
    rwa [NoFatal, hfailed]
  · have hnot : ¬ NoFatal w' := fun h =>
      h c (hfailed ▸ List.mem_append_right _ (List.mem_singleton.mpr rfl)) hfatal
    exact ⟨hstored.trans hs, iff_of_false Bool.false_ne_true hnot⟩

/-- A call of whose failure the handler makes nothing. -/
theorem wp_callOr {default : c.Ans} (hquiet : Quiet c) (hfatal : ¬ Fatal c)
    (hs : w.stored = stored) (hw : NoFatal w) :
    (callOr c default).run.wp World.exec (FannedOut stored) w := by
  intro ω r w' he
  obtain ⟨hstored, ⟨a, rfl, hfailed⟩ | ⟨e, rfl, hfailed⟩⟩ := exec_quiet hquiet he
  · refine wp_pure (hstored.trans hs) ?_
    rwa [NoFatal, hfailed]
  · exact wp_pure (hstored.trans hs) (noFatal_of_failed hw hfatal hfailed)

theorem wp_utcNow (hs : w.stored = stored) (hw : NoFatal w) :
    (call .utcNow Empty.elim).run.wp World.exec (FannedOut stored) w := by
  intro ω r w' he
  have hquiet : Quiet .utcNow := trivial
  obtain ⟨hstored, ⟨a, rfl, hfailed⟩ | ⟨e, rfl, -⟩⟩ := exec_quiet hquiet he
  · refine wp_pure (hstored.trans hs) ?_
    rwa [NoFatal, hfailed]
  · exact e.elim

theorem isMuted_wp (settings : Option ChatSettings) (hs : w.stored = stored) (hw : NoFatal w) :
    (isMuted settings).run.wp World.exec (FannedOut stored) w := by
  unfold isMuted
  split
  · exact wp_pure hs hw
  · split_ifs
    · exact wp_pure hs hw
    · split
      · exact wp_pure hs hw
      · exact wp_tryBind (wp_utcNow hs hw) fun _ _ hs' hw' => wp_pure hs' hw'

theorem notifyParticipant_wp (message : ChatMessage) (senderId participantId : Uuid)
    (hs : w.stored = stored) (hw : NoFatal w) :
    (notifyParticipant message senderId participantId).run.wp World.exec (FannedOut stored) w := by
  rw [notifyParticipant]
  split_ifs
  · refine wp_tryBind (wp_call trivial trivial hs hw) fun _ w₁ hs hw => ?_
    refine wp_tryBind (wp_callOr trivial id hs hw) fun online w₂ hs hw => ?_
    split_ifs
    · refine wp_tryBind (wp_callOr trivial id hs hw) fun settings w₃ hs hw => ?_
      refine wp_tryBind (isMuted_wp settings hs hw) fun muted w₄ hs hw => ?_
      split_ifs
      · exact wp_callOr trivial id hs hw
      · exact wp_pure hs hw
    · exact wp_pure hs hw
  · exact wp_pure hs hw

theorem forM_wp {β : Type} {f : β → FaultyTask Unit}
    (hf : ∀ b w', w'.stored = stored → NoFatal w' → (f b).run.wp World.exec (FannedOut stored) w')
    (xs : List β) (hs : w.stored = stored) (hw : NoFatal w) :
    (xs.forM f).run.wp World.exec (FannedOut stored) w := by
  induction xs generalizing w with
  | nil => exact wp_pure hs hw
  | cons x xs ih => exact wp_tryBind (hf x w hs hw) fun _ w' hs' hw' => ih hs' hw'

theorem publishMessageEvent_wp (message : ChatMessage) (senderId : Uuid) (hs : w.stored = stored)
    (hw : NoFatal w) :
    (publishMessageEvent message senderId).run.wp World.exec (FannedOut stored) w := by
  refine wp_tryBind (wp_call trivial trivial hs hw) fun _ w₁ hs hw => ?_
  refine wp_tryBind (wp_call trivial trivial hs hw) fun members w₂ hs hw => ?_
  exact forM_wp (fun _ _ => notifyParticipant_wp message senderId _) members hs hw

end Fanout

/-- The limit lets the request pass, and its transaction is executed and accepts the message. -/
def Commits (userId chatId : Uuid) (message : NewMessage) (db : ChatStore) : List CallChoice → Prop
  | limit :: tx :: _ => limit.failure = none ∧ limit.flag ∧ (∀ f ∈ tx.failure, f.executed) ∧
      Accepts (tx.others (limit.others db)) userId chatId message
  | _ => False

/-- After the INSERT the answer is an error exactly if a call that matters has failed. -/
def Retryable (committed : Prop) (r : Except ApiError Response) (w : World) : Prop :=
  (400 ≤ statusOf r → w.stored = []) ↔ (committed → NoFatal w)

section Retryable

variable {w w' : World} {ω : CallChoice} {r : Except ApiError Response} {committed : Prop}
  {userId chatId : Uuid} {message : NewMessage}

theorem retryable_of_not (h : ¬ committed) (hs : w.stored = []) : Retryable committed r w :=
  iff_of_true (fun _ => hs) (fun hc => absurd hc h)

theorem retryable_error {e : ApiError} (hc : committed) (h : w.stored ≠ []) (hfatal : ¬ NoFatal w) :
    Retryable committed (.error e) w :=
  iff_of_false (fun hs => h (hs (error_status e))) (fun hn => hfatal (hn hc))

theorem executed_sendMessage {senderId chatId : Uuid} {message : NewMessage}
    {ans : Except DomainError ChatMessage}
    (h : w.executed ω (.sendMessage senderId chatId message) = some (ans, w')) :
    w'.failed = w.failed ∧ w'.stored = w.stored ++ ans.toOption.toList ∧
      (ans.isOk ↔ Accepts (ω.others w.db) senderId chatId message) := by
  obtain ⟨⟨ans', db'⟩, he, heq⟩ := Option.map_eq_some_iff.mp h
  obtain ⟨rfl, rfl⟩ := Prod.mk.inj heq
  obtain ⟨haccepts, hfresh, rfl, rfl⟩ | ⟨hrefused, ⟨e, rfl⟩, rfl⟩ := sendMessage_cases he
  · refine ⟨rfl, congrArg (w.stored ++ ·) ?_, iff_of_true rfl haccepts⟩
    exact newMessages_eq_singleton rfl hfresh
  · refine ⟨rfl, congrArg (w.stored ++ ·) (newMessages_eq_nil rfl), ?_⟩
    exact iff_of_false Bool.false_ne_true hrefused

/-- The transaction and what follows it. -/
theorem stored_alone {tx : CallChoice} {ωs : List CallChoice} (hs : w.stored = [])
    (hfailed : w.failed = [])
    (h : (storeMessage userId chatId message >>= fun m => do
      publishMessageEvent m userId
      return ⟨201, .message m⟩).run.alone World.exec (tx :: ωs) w = some (r, w')) :
    Retryable ((∀ f ∈ tx.failure, f.executed) ∧ Accepts (tx.others w.db) userId chatId message)
      r w' := by
  obtain ⟨⟨answer, w₁⟩, he, hrest⟩ := Option.bind_eq_some_iff.mp h
  refine Prog.wp.of_alone ?_ hrest
  rw [World.exec] at he
  cases hfailure : tx.failure with
  | none =>
    rw [hfailure] at he
    obtain ⟨⟨ans, w₂⟩, hexec, heq⟩ := Option.map_eq_some_iff.mp he
    obtain ⟨rfl, rfl⟩ := Prod.mk.inj heq
    obtain ⟨hfailed', hstored, hok⟩ := executed_sendMessage hexec
    rw [hs, List.nil_append] at hstored
    cases ans with
    | error e => exact retryable_of_not (fun hc => Bool.false_ne_true (hok.mpr hc.2)) hstored
    | ok m =>
      have hw : NoFatal w₂ := by simp [NoFatal, hfailed', hfailed]
      refine Prog.wp_run_bind.mpr ((publishMessageEvent_wp m userId hstored hw).mono ?_)
      intro r w₃ hr
      obtain ⟨hs₃, hiff⟩ := hr
      have hne : w₃.stored ≠ [] := by
        rw [hs₃]
        exact List.cons_ne_nil m []
      cases r with
      | ok _ => exact iff_of_true (fun h => absurd h (by simp [statusOf])) (fun _ => hiff.mp rfl)
      | error e =>
        refine retryable_error ⟨by rintro _ ⟨⟩, hok.mp rfl⟩ hne ?_
        exact fun h => Bool.false_ne_true (hiff.mpr h)
  | some f =>
    rw [hfailure] at he
    obtain ⟨redis, postgres, executed⟩ := f
    cases executed with
    | false =>
      obtain ⟨rfl, rfl⟩ := Prod.mk.inj (Option.some.inj he)
      exact retryable_of_not (fun hc => Bool.false_ne_true (hc.1 _ rfl)) hs
    | true =>
      obtain ⟨⟨ans, w₂⟩, hexec, heq⟩ := Option.map_eq_some_iff.mp he
      obtain ⟨rfl, rfl⟩ := Prod.mk.inj heq
      obtain ⟨-, hstored, hok⟩ := executed_sendMessage hexec
      rw [hs, List.nil_append] at hstored
      cases ans with
      | error e => exact retryable_of_not (fun hc => Bool.false_ne_true (hok.mpr hc.2)) hstored
      | ok m =>
        -- the row is there, but the handler does not learn of it
        have hne : w₂.stored ≠ [] := by
          rw [hstored]
          exact List.cons_ne_nil m []
        refine retryable_error ⟨by rintro _ ⟨⟩; rfl, hok.mp rfl⟩ hne ?_
        exact fun h => h _ (List.mem_append_right _ (List.mem_singleton.mpr rfl)) trivial

/-- What the answer about the limit says of the choice. -/
theorem exec_checkRateLimit {key : String} {answer : Except String Bool}
    (h : World.exec ω (.checkRateLimit key) w = some (answer, w')) :
    w'.stored = w.stored ∧ (answer = .ok true ↔ ω.failure = none ∧ ω.flag) ∧
      (answer = .ok true → w'.db = ω.others w.db ∧ w'.failed = w.failed) := by
  have hquiet : Quiet (.checkRateLimit key) := trivial
  refine ⟨(exec_quiet hquiet h).1, ?_⟩
  rw [World.exec] at h
  cases hfailure : ω.failure with
  | none =>
    rw [hfailure] at h
    obtain ⟨rfl, rfl⟩ := Prod.mk.inj (Option.some.inj h)
    refine ⟨⟨fun heq => ⟨rfl, Except.ok.inj heq⟩, fun hpass => ?_⟩, fun _ => ⟨rfl, rfl⟩⟩
    exact congrArg Except.ok hpass.2
  | some f =>
    rw [hfailure] at h
    obtain ⟨redis, postgres, executed⟩ := f
    cases executed with
    | true | false =>
      obtain ⟨rfl, -⟩ := Prod.mk.inj (Option.some.inj h)
      simp

theorem allowed_of_commits {limit : CallChoice} {ωs : List CallChoice} {db : ChatStore}
    (h : Commits userId chatId message db (limit :: ωs)) : limit.failure = none ∧ limit.flag := by
  cases ωs with
  | nil => exact h.elim
  | cons tx ωs => exact ⟨h.1, h.2.1⟩

/-- However the calls of a request fail and whatever other requests do in the meantime: an error
status means that no message is stored exactly if, once the message is committed, the answer of
its transaction is not lost and neither a PUBLISH nor the query for the participants fails. -/
theorem failed_send_stores_nothing_iff {ωs : List CallChoice} {db : ChatStore}
    (h : (sendMessage userId chatId message).run.alone World.exec ωs ⟨db, [], []⟩ = some (r, w')) :
    (400 ≤ statusOf r → w'.stored = []) ↔
      (Commits userId chatId message db ωs → NoFatal w') := by
  cases ωs with
  | nil => cases h
  | cons limit ωs =>
    obtain ⟨⟨answer, w₁⟩, he, hrest⟩ := Option.bind_eq_some_iff.mp h
    obtain ⟨hstored, hanswer, hkept⟩ := exec_checkRateLimit he
    by_cases hallowed : answer = .ok true
    · obtain ⟨hfailure, hflag⟩ := hanswer.mp hallowed
      obtain ⟨hdb, hfailed⟩ := hkept hallowed
      subst hallowed
      cases ωs with
      | nil => cases hrest
      | cons tx ωs =>
        have hcommits : Commits userId chatId message db (limit :: tx :: ωs) ↔
            (∀ f ∈ tx.failure, f.executed) ∧ Accepts (tx.others w₁.db) userId chatId message := by
          simp [Commits, hfailure, hflag, hdb]
        rw [hcommits]
        exact stored_alone hstored hfailed hrest
    · have hrefused : ¬ Commits userId chatId message db (limit :: ωs) :=
        fun hc => hallowed (hanswer.mpr (allowed_of_commits hc))
      change Retryable (Commits userId chatId message db (limit :: ωs)) r w'
      refine Prog.wp.of_alone ?_ hrest
      cases answer with
      | error e => exact retryable_of_not hrefused hstored
      | ok allowed =>
        cases allowed with
        | false => exact retryable_of_not hrefused hstored
        | true => exact absurd rfl hallowed

end Retryable

/-- No other request, and the given failure. -/
def choose (n : Nat) (failure : Option Failure) : CallChoice :=
  ⟨⟨⟨.ofNat n, n, ""⟩, true, [], true⟩, id, failure⟩

def broken : Failure := ⟨"broken pipe", .unexpected, false⟩

def hello : NewMessage := ⟨some "hello", some "iv", "text", none, false, none⟩

/-- Alice and Bob share a private chat. -/
def aliceAndBob : ChatStore :=
  ((ChatStore.empty [alice, bob]).createPrivateChat ⟨⟨theChat, 10, ""⟩, true, [], true⟩ alice bob).elim
    (.empty []) Prod.snd

/-- Redis breaks down right after the transaction: Alice gets an error for a message that is there. -/
theorem unannounced_message_stored :
    ¬ ∀ (ωs : List CallChoice) (r : Except ApiError Response) (w : World),
      (sendMessage alice theChat hello).run.alone World.exec ωs ⟨aliceAndBob, [], []⟩ = some (r, w) →
        400 ≤ statusOf r → w.stored = [] := by
  intro h
  have hstored := h [choose 11 none, choose 12 none, choose 13 (some broken)] _ _ rfl (by decide)
  cases hstored

/-- Redis breaks down when Bob's presence is asked for, and again when his push is queued. -/
def pushLost : List CallChoice :=
  [choose 11 none, choose 12 none, choose 13 none, choose 14 none, choose 15 none,
    choose 16 (some broken), choose 17 none, choose 18 (some broken)]

theorem push_lost : ∃ r w,
    (sendMessage alice theChat hello).run.alone World.exec pushLost ⟨aliceAndBob, [], []⟩ =
      some (r, w) ∧ statusOf r = 201 ∧
        ((400 ≤ statusOf r → w.stored = []) ↔
          (Commits alice theChat hello aliceAndBob pushLost → NoFatal w)) := by
  have hstatus : ((sendMessage alice theChat hello).run.alone World.exec pushLost
      ⟨aliceAndBob, [], []⟩).map (fun out => statusOf out.1) = some 201 := rfl
  obtain ⟨⟨r, w⟩, hrun, hr⟩ := Option.map_eq_some_iff.mp hstatus
  exact ⟨r, w, hrun, hr, failed_send_stores_nothing_iff hrun⟩

end Mesty.Chats.Retry
