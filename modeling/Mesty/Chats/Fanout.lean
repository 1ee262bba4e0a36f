import Mesty.Chats.Members
import Mesty.Ws.Connections
import Mesty.Ws.Delivery

namespace Mesty.Chats.Fanout

open Mesty.Base.Ids Mesty.Base.Error Mesty.Concurrency.Program
open Mesty.Chats.Entities Mesty.Chats.Messages Mesty.Chats.Store Mesty.Chats.Handlers
open Mesty.Chats.Members
open Mesty.Ws.Connections (presenceKey)
open Mesty.Ws.Delivery (userChannel chatChannel_ne_userChannel)
open Mesty.Chats.Publishing (chatChannel)

/-- The tables and Redis. The clock is read in the order of `readings`. -/
structure Broker where
  tables : ChatStore
  keys : List String
  events : List (String × ChatEvent)
  pushQueue : List PushNotificationJob
  readings : Nat → Timestamp

namespace Broker

/-- `EXISTS`, `PUBLISH` and `LPUSH` that succeed, and the statements of the repository. -/
def exec (ω : StoreChoice) : (c : StoreCmd) → Broker → Option (c.Ans × Broker)
  | .isOnline userId, s => some (decide (presenceKey userId ∈ s.keys), s)
  | .publish channel event, s => some ((), { s with events := s.events ++ [(channel, event)] })
  | .enqueuePush job, s => some ((), { s with pushQueue := job :: s.pushQueue })
  | .utcNow, s => some (s.readings 0, { s with readings := fun n => s.readings (n + 1) })
  | c, s => (ChatStore.exec ω c s.tables).map (fun out => (out.1, { s with tables := out.2 }))

end Broker

/-- `is_muted`, or `muted_until` in the future. -/
def Muted (settings : Option ChatSettings) (now : Timestamp) : Prop :=
  ∃ s ∈ settings, s.isMuted ∨ ∃ until_ ∈ s.mutedUntil, until_ > now

instance (settings : Option ChatSettings) (now : Timestamp) : Decidable (Muted settings now) := by
  unfold Muted
  infer_instance

/-- Offline and not muted. -/
def Due (s : Broker) (chatId userId : Uuid) (now : Timestamp) : Prop :=
  presenceKey userId ∉ s.keys ∧ ¬ Muted (s.tables.settings.lookup (userId, chatId)) now

instance (s : Broker) (chatId userId : Uuid) (now : Timestamp) : Decidable (Due s chatId userId now) :=
  inferInstanceAs (Decidable (_ ∧ _))

def userEvent (m : ChatMessage) : ChatEvent :=
  .messageContent m.chatId m.id m.senderId m.contentEncrypted m.contentIv m.messageType m.createdAt

/-- A job names the message and has nothing of its content. -/
def pushJob (chatId messageId : Uuid) (senderId : Option Uuid) (userId : Uuid) :
    PushNotificationJob := ⟨userId, "new_message", chatId, messageId, senderId⟩

/-- What has been made of the queue and of the events, and nothing else. -/
structure Pushed (s : Broker) (events : List (String × ChatEvent)) (jobs : List PushNotificationJob)
    (s' : Broker) : Prop where
  tables : s'.tables = s.tables
  keys : s'.keys = s.keys
  events : s'.events = s.events ++ events
  pushQueue : s'.pushQueue = jobs ++ s.pushQueue
  readings : ∃ k, s'.readings = fun n => s.readings (n + k)

section Run

variable {ω : StoreChoice} {s s' s'' : Broker} {m : ChatMessage} {senderId userId : Uuid}

theorem Pushed.refl (s : Broker) : Pushed s [] [] s :=
  ⟨rfl, rfl, (List.append_nil _).symm, rfl, 0, rfl⟩

theorem Pushed.trans {events events' : List (String × ChatEvent)}
    {jobs jobs' : List PushNotificationJob} (h : Pushed s events jobs s')
    (h' : Pushed s' events' jobs' s'') : Pushed s (events ++ events') (jobs' ++ jobs) s'' := by
  obtain ⟨k, hk⟩ := h.readings
  obtain ⟨k', hk'⟩ := h'.readings
  refine ⟨h'.tables.trans h.tables, h'.keys.trans h.keys, ?_, ?_, k' + k, ?_⟩
  · rw [h'.events, h.events, List.append_assoc]
  · rw [h'.pushQueue, h.pushQueue, List.append_assoc]
  · funext n
    rw [hk', hk]
    exact congrArg s.readings (Nat.add_assoc n k' k)

theorem complete_ask {α : Type} {c : StoreCmd} {r : c.Ans} {f : c.Ans → StoreTask α}
    (h : Broker.exec ω c s = some (r, s')) :
    (StoreTask.ask c >>= f).run.complete (Broker.exec ω) s =
      (f r).run.complete (Broker.exec ω) s' := Prog.complete_call h

/-- The clock is read once, if at all. -/
theorem isMuted_complete (settings : Option ChatSettings) (s : Broker) :
    ∃ s', (isMuted settings).run.complete (Broker.exec ω) s =
      some (.ok (decide (Muted settings (s.readings 0))), s') ∧ Pushed s [] [] s' := by
  unfold isMuted
  cases settings with
  | none =>
    have hno : ¬ Muted none (s.readings 0) := by simp [Muted]
    rw [decide_eq_false hno]
    exact ⟨s, rfl, .refl s⟩
  | some settings =>
    obtain ⟨isMuted, mutedUntil, isPinned, pinOrder, isArchived⟩ := settings
    cases isMuted with
    | true =>
      have hyes : Muted (some ⟨true, mutedUntil, isPinned, pinOrder, isArchived⟩) (s.readings 0) :=
        ⟨_, rfl, .inl rfl⟩
      rw [decide_eq_true hyes]
      exact ⟨s, rfl, .refl s⟩
    | false =>
      cases mutedUntil with
      | none =>
        have hno : ¬ Muted (some ⟨false, none, isPinned, pinOrder, isArchived⟩) (s.readings 0) := by
          simp [Muted]
        rw [decide_eq_false hno]
        exact ⟨s, rfl, .refl s⟩
      | some until_ =>
        have hiff : Muted (some ⟨false, some until_, isPinned, pinOrder, isArchived⟩) (s.readings 0) ↔
            until_ > s.readings 0 := by simp [Muted]
        rw [decide_eq_decide.mpr hiff]
        exact ⟨{ s with readings := fun n => s.readings (n + 1) }, rfl, rfl, rfl,
          (List.append_nil _).symm, rfl, 1, rfl⟩

theorem notifyParticipant_complete (m : ChatMessage) (senderId userId : Uuid) (s : Broker) :
    ∃ s', (notifyParticipant m senderId userId).run.complete (Broker.exec ω) s = some (.ok (), s') ∧
      Pushed s (if userId ≠ senderId then [(userChannel userId, userEvent m)] else [])
        (if userId ≠ senderId ∧ Due s m.chatId userId (s.readings 0) then
          [pushJob m.chatId m.id m.senderId userId] else []) s' := by
  rw [notifyParticipant]
  by_cases hself : userId = senderId
  · rw [if_neg (not_not.mpr hself), if_neg (not_not.mpr hself), if_neg (fun h => h.1 hself)]
    exact ⟨s, rfl, .refl s⟩
  · let s₁ : Broker := { s with events := s.events ++ [(userChannel userId, userEvent m)] }
    have hpublished : Pushed s [(userChannel userId, userEvent m)] [] s₁ :=
      ⟨rfl, rfl, rfl, rfl, 0, rfl⟩
    rw [if_pos hself, if_pos hself]
    by_cases honline : presenceKey userId ∈ s.keys
    · have hexec : Broker.exec ω (.isOnline userId) s₁ = some (true, s₁) :=
        congrArg (fun b => some (b, s₁)) (decide_eq_true honline)
      rw [if_neg (fun h => h.2.1 honline)]
      exact ⟨s₁, (complete_ask rfl).trans (complete_ask hexec), hpublished⟩
    · have hexec : Broker.exec ω (.isOnline userId) s₁ = some (false, s₁) :=
        congrArg (fun b => some (b, s₁)) (decide_eq_false honline)
      obtain ⟨s₂, hmuted, hs₂⟩ := isMuted_complete (ω := ω)
        (s.tables.settings.lookup (userId, m.chatId)) s₁
      by_cases hdue : Muted (s.tables.settings.lookup (userId, m.chatId)) (s.readings 0)
      · rw [if_neg (fun h => h.2.2 hdue)]
        rw [decide_eq_true hdue] at hmuted
        exact ⟨s₂, (complete_ask rfl).trans ((complete_ask hexec).trans ((complete_ask rfl).trans
          (Prog.complete_tryBind hmuted))), hpublished.trans hs₂⟩
      · rw [if_pos ⟨hself, honline, hdue⟩]
        rw [decide_eq_false hdue] at hmuted
        let s₃ : Broker := { s₂ with
          pushQueue := pushJob m.chatId m.id m.senderId userId :: s₂.pushQueue }
        have hqueued : Pushed s₂ [] [pushJob m.chatId m.id m.senderId userId] s₃ :=
          ⟨rfl, rfl, (List.append_nil _).symm, rfl, 0, rfl⟩
        exact ⟨s₃, (complete_ask rfl).trans ((complete_ask hexec).trans ((complete_ask rfl).trans
          (Prog.complete_tryBind hmuted))), (hpublished.trans hs₂).trans hqueued⟩

theorem Pushed.due_iff {events : List (String × ChatEvent)} {jobs : List PushNotificationJob}
    (h : Pushed s events jobs s') {chatId : Uuid} {now : Timestamp} :
    Due s' chatId userId now ↔ Due s chatId userId now := by
  rw [Due, Due, h.tables, h.keys]

/-- The users of the list to be told, each with one event, and those of them who get a push. -/
theorem forM_complete (m : ChatMessage) (senderId : Uuid) (users : List Uuid) (hnodup : users.Nodup)
    (s : Broker) :
    ∃ (s' : Broker) (clock : Uuid → Timestamp), (∀ userId, ∃ n, clock userId = s.readings n) ∧
      (users.forM (notifyParticipant m senderId)).run.complete (Broker.exec ω) s =
        some (.ok (), s') ∧
      Pushed s ((users.filter (· ≠ senderId)).map (fun userId => (userChannel userId, userEvent m)))
        ((users.filter (fun userId => userId ≠ senderId ∧
          Due s m.chatId userId (clock userId))).reverse.map (pushJob m.chatId m.id m.senderId))
        s' := by
  induction users generalizing s with
  | nil => exact ⟨s, fun _ => s.readings 0, fun _ => ⟨0, rfl⟩, rfl, .refl s⟩
  | cons userId users ih =>
    obtain ⟨hnotin, hnodup⟩ := List.nodup_cons.mp hnodup
    obtain ⟨s₁, hrun, hs₁⟩ := notifyParticipant_complete (ω := ω) m senderId userId s
    obtain ⟨s₂, clock, hclock, hrest, hs₂⟩ := ih hnodup s₁
    obtain ⟨k, hk⟩ := hs₁.readings
    refine ⟨s₂, Function.update clock userId (s.readings 0), fun u => ?_,
      (Prog.complete_tryBind hrun).trans hrest, ?_⟩
    · by_cases hu : u = userId
      · exact ⟨0, by rw [hu, Function.update_self]⟩
      · obtain ⟨n, hn⟩ := hclock u
        exact ⟨n + k, by rw [Function.update_of_ne hu, hn, hk]⟩
    · have hsame : users.filter (fun u => u ≠ senderId ∧ Due s₁ m.chatId u (clock u)) =
          users.filter (fun u => u ≠ senderId ∧
            Due s m.chatId u (Function.update clock userId (s.readings 0) u)) := by
        refine List.filter_congr fun u hu => ?_
        have hne : u ≠ userId := by
          rintro rfl
          exact hnotin hu
        rw [Function.update_of_ne hne, decide_eq_decide, hs₁.due_iff]
      have hpushed := hs₁.trans hs₂
      rw [hsame] at hpushed
      convert hpushed using 1
      · by_cases hself : userId = senderId <;> simp [hself]
      · by_cases hdue : userId ≠ senderId ∧ Due s m.chatId userId (s.readings 0)
        · rw [if_pos hdue, List.filter_cons_of_pos (by simpa using hdue), List.reverse_cons,
            List.map_append, List.map_singleton]
        · rw [if_neg hdue, List.filter_cons_of_neg (by simpa using hdue), List.append_nil]

/-- The active participants of the message's chat but the sender. -/
def Recipient (s : Broker) (m : ChatMessage) (senderId userId : Uuid) : Prop :=
  (s.tables.activeRow m.chatId userId).isSome ∧ userId ≠ senderId

instance (s : Broker) (m : ChatMessage) (senderId userId : Uuid) :
    Decidable (Recipient s m senderId userId) := inferInstanceAs (Decidable (_ ∧ _))

/-- What announcing a message makes of Redis, and nothing else. A user's mute is compared with
the one reading of the clock that is made for the user. -/
structure Announced (s : Broker) (m : ChatMessage) (senderId : Uuid) (s' : Broker) : Prop where
  tables : s'.tables = s.tables
  keys : s'.keys = s.keys
  events : ∃ users : List Uuid, users.Nodup ∧
    (∀ userId, userId ∈ users ↔ Recipient s m senderId userId) ∧
    s'.events = s.events ++
      (chatChannel m.chatId, .newMessage m.chatId m.id m.senderId m.createdAt) ::
        users.map (fun userId => (userChannel userId, userEvent m))
  jobs : ∃ (users : List Uuid) (clock : Uuid → Timestamp), users.Nodup ∧
    (∀ userId, ∃ n, clock userId = s.readings n) ∧
    (∀ userId, userId ∈ users ↔
      Recipient s m senderId userId ∧ Due s m.chatId userId (clock userId)) ∧
    s'.pushQueue = users.map (pushJob m.chatId m.id m.senderId) ++ s.pushQueue

theorem userChannel_injective : Function.Injective userChannel := fun _ _ h =>
  Uuid.toString_injective ((String.append_right_inj _).mp ((String.append_left_inj _).mp h))

/-- Of the events for several users one is on the channel of each. -/
theorem filter_userChannel {users : List Uuid} (hnodup : users.Nodup) (event : ChatEvent)
    (userId : Uuid) :
    (users.map (fun u => (userChannel u, event))).filter (fun e => e.1 = userChannel userId) =
      if userId ∈ users then [(userChannel userId, event)] else [] := by
  induction users with
  | nil => rfl
  | cons u users ih =>
    obtain ⟨hnotin, hnodup⟩ := List.nodup_cons.mp hnodup
    rw [List.map_cons]
    by_cases hu : u = userId
    · subst hu
      rw [List.filter_cons_of_pos (by simp), ih hnodup, if_neg hnotin,
        if_pos List.mem_cons_self]
    · have hchannel : userChannel u ≠ userChannel userId := fun h => hu (userChannel_injective h)
      rw [List.filter_cons_of_neg (by simpa using hchannel), ih hnodup]
      simp [Ne.symm hu]

/-- Whatever the message, the tables, the presence keys and the clock are: every recipient
gets one event, those who are offline and not muted one job, and nobody else anything. -/
theorem announcement_exact (ω : StoreChoice) (m : ChatMessage) (senderId : Uuid) (s : Broker) :
    ∃ s', (publishMessageEvent m senderId).run.complete (Broker.exec ω) s = some (.ok (), s') ∧
      Announced s m senderId s' ∧ ∀ userId,
        (s'.events.drop s.events.length).filter (fun e => e.1 = userChannel userId) =
          if Recipient s m senderId userId then [(userChannel userId, userEvent m)] else [] := by
  let s₁ : Broker := { s with events := s.events ++
    [(chatChannel m.chatId, .newMessage m.chatId m.id m.senderId m.createdAt)] }
  have hchat : Pushed s [(chatChannel m.chatId, .newMessage m.chatId m.id m.senderId m.createdAt)]
      [] s₁ := ⟨rfl, rfl, rfl, rfl, 0, rfl⟩
  obtain ⟨s₂, clock, hclock, hrun, hs₂⟩ := forM_complete (ω := ω) m senderId
    (s.tables.activeMembers m.chatId) (nodup_activeMembers s.tables m.chatId) s₁
  have hpushed := hchat.trans hs₂
  have hnodup := nodup_activeMembers s.tables m.chatId
  have hrecipients : ∀ userId,
      userId ∈ (s.tables.activeMembers m.chatId).filter (· ≠ senderId) ↔
        Recipient s m senderId userId := by
    intro userId
    rw [List.mem_filter, mem_activeMembers, decide_eq_true_iff, Recipient]
  refine ⟨s₂, (complete_ask rfl).trans ((complete_ask rfl).trans hrun), ⟨hpushed.tables,
    hpushed.keys, ⟨_, hnodup.filter _, hrecipients, hpushed.events⟩, ?_⟩, fun userId => ?_⟩
  · have hjobs := hpushed.pushQueue
    rw [List.append_nil] at hjobs
    refine ⟨_, clock, List.nodup_reverse.mpr (hnodup.filter _), hclock, fun userId => ?_, hjobs⟩
    rw [List.mem_reverse, List.mem_filter, mem_activeMembers, decide_eq_true_iff, ← and_assoc]
    exact Iff.rfl
  · have hother : chatChannel m.chatId ≠ userChannel userId := chatChannel_ne_userChannel _ _
    rw [hpushed.events, List.drop_left, List.singleton_append,
      List.filter_cons_of_neg (by simpa using hother), filter_userChannel (hnodup.filter _)]
    simp only [hrecipients]

end Run

end Mesty.Chats.Fanout
