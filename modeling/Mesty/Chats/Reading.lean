import Mesty.Chats.Erasure
import Mesty.Chats.Listing
import Mesty.Chats.Members

namespace Mesty.Chats.Reading

open Mesty.Base.Ids Mesty.Base.Error Mesty.Concurrency.Program Mesty.Concurrency.Pool
open Mesty.Chats.Entities Mesty.Chats.Repository Mesty.Chats.Messages Mesty.Chats.Store
open Mesty.Chats.Handlers Mesty.Chats.Members Mesty.Chats.Changes
open Mesty.Chats.Listing (ChatPreview chatPreviews unreadCount)
open Mesty.Chats.Erasure (ChatConfig ChatAct alice bob theChat choose)

/-- The UPDATE of `mark_messages_read` takes the row. -/
def Marks (db : ChatStore) (userId chatId : Uuid) (upTo : Timestamp) (k : Uuid × Uuid) : Prop :=
  k.2 = userId ∧ k.1 ∈ db.unreadUpTo userId chatId upTo ∧
    ∃ row, db.statuses.lookup k = some row ∧ (row.status ≠ .read ∨ upTo < row.updatedAt)

section Marking

variable {db : ChatStore} {userId chatId : Uuid} {upTo now : Timestamp} {k : Uuid × Uuid}

/-- The keys of the rows that the UPDATE takes. -/
def marked (db : ChatStore) (userId chatId : Uuid) (upTo : Timestamp) : List (Uuid × Uuid) :=
  (db.statuses.entries.filter (fun e => e.1.2 = userId ∧ e.1.1 ∈ db.unreadUpTo userId chatId upTo ∧
    (e.2.status ≠ .read ∨ upTo < e.2.updatedAt))).map Sigma.fst

theorem markMessagesRead_eq : db.markMessagesRead now userId chatId upTo =
    ((marked db userId chatId upTo).length, { db with
      statuses := (marked db userId chatId upTo).foldl
        (fun statuses k => statuses.insert k ⟨.read, now⟩) db.statuses }) := rfl

theorem mem_marked : k ∈ marked db userId chatId upTo ↔ Marks db userId chatId upTo k := by
  rw [marked, List.mem_map]
  constructor
  · rintro ⟨⟨k', row⟩, he, rfl⟩
    obtain ⟨hentry, hsel⟩ := List.mem_filter.mp he
    obtain ⟨huser, hunread, hrow⟩ := of_decide_eq_true hsel
    exact ⟨huser, hunread, row, AList.mem_lookup_iff.mpr hentry, hrow⟩
  · rintro ⟨huser, hunread, row, hlookup, hrow⟩
    exact ⟨⟨k, row⟩, List.mem_filter.mpr ⟨AList.mem_lookup_iff.mp hlookup,
      decide_eq_true ⟨huser, hunread, hrow⟩⟩, rfl⟩

instance : Decidable (Marks db userId chatId upTo k) := decidable_of_iff _ mem_marked

theorem lookup_markMessagesRead (k : Uuid × Uuid) :
    (db.markMessagesRead now userId chatId upTo).2.statuses.lookup k =
      if Marks db userId chatId upTo k then some ⟨.read, now⟩ else db.statuses.lookup k := by
  rw [markMessagesRead_eq, lookup_foldl_insert]
  simp only [mem_marked]

theorem marked_eq_nil : marked db userId chatId upTo = [] ↔ ∀ k, ¬ Marks db userId chatId upTo k := by
  rw [List.eq_nil_iff_forall_not_mem]
  simp only [mem_marked]

theorem mem_unreadUpTo {messageId : Uuid} : messageId ∈ db.unreadUpTo userId chatId upTo ↔
    (db.activeRow chatId userId).isSome ∧ ∃ m ∈ db.messages, m.id = messageId ∧ m.chatId = chatId ∧
      (∃ s, m.senderId = some s ∧ s ≠ userId) ∧ m.createdAt ≤ upTo ∧ m.deletedAt = none := by
  rw [ChatStore.unreadUpTo]
  split_ifs with hactive
  · simp only [List.mem_map, List.mem_filter, decide_eq_true_eq, Option.mem_def, hactive, true_and]
    constructor
    · rintro ⟨m, ⟨hm, hchat, hsender, hold, hlive⟩, hid⟩
      exact ⟨m, hm, hid, hchat, hsender, hold, hlive⟩
    · rintro ⟨m, hm, hid, hchat, hsender, hold, hlive⟩
      exact ⟨m, ⟨hm, hchat, hsender, hold, hlive⟩, hid⟩
  · simp [hactive]

/-- Of the rows that a second call looks at, those that the first one takes are written at or before
the second timestamp, and the others were written at or before it. -/
def Settled (db : ChatStore) (now : Timestamp) (userId chatId : Uuid) (upTo upTo' : Timestamp) :
    Prop :=
  ∀ messageId ∈ db.unreadUpTo userId chatId upTo', ∀ row,
    db.statuses.lookup (messageId, userId) = some row →
      if row.status ≠ .read ∨ upTo < row.updatedAt then now ≤ upTo' else row.updatedAt ≤ upTo'

theorem unreadUpTo_mono {upTo' : Timestamp} (hle : upTo' ≤ upTo) {messageId : Uuid}
    (h : messageId ∈ db.unreadUpTo userId chatId upTo') :
    messageId ∈ db.unreadUpTo userId chatId upTo := by
  obtain ⟨hactive, m, hm, hid, hchat, hsender, hold, hlive⟩ := mem_unreadUpTo.mp h
  exact mem_unreadUpTo.mpr ⟨hactive, m, hm, hid, hchat, hsender, hold.trans hle, hlive⟩

/-- Whether the first call takes the row of a message that the second call looks at. -/
theorem marks_iff {upTo' : Timestamp} (hle : upTo' ≤ upTo) {messageId : Uuid} {row : StatusRow}
    (hunread : messageId ∈ db.unreadUpTo userId chatId upTo')
    (hrow : db.statuses.lookup (messageId, userId) = some row) :
    Marks db userId chatId upTo (messageId, userId) ↔
      row.status ≠ .read ∨ upTo < row.updatedAt := by
  constructor
  · rintro ⟨-, -, row', hrow', hsel⟩
    obtain rfl := Option.some.inj (hrow.symm.trans hrow')
    exact hsel
  · exact fun hsel => ⟨rfl, unreadUpTo_mono hle hunread, row, hrow, hsel⟩

theorem not_marks_again_iff {upTo' : Timestamp} (hle : upTo' ≤ upTo) :
    (∀ k, ¬ Marks (db.markMessagesRead now userId chatId upTo).2 userId chatId upTo' k) ↔
      Settled db now userId chatId upTo upTo' := by
  constructor
  · intro h messageId hunread row hrow
    have hlookup : (db.markMessagesRead now userId chatId upTo).2.statuses.lookup
        (messageId, userId) = _ := lookup_markMessagesRead _
    have hmarks := marks_iff hle hunread hrow
    split_ifs with hsel
    · rw [if_pos (hmarks.mpr hsel)] at hlookup
      exact not_lt.mp fun hlt => h _ ⟨rfl, hunread, _, hlookup, .inr hlt⟩
    · rw [if_neg (fun hm => hsel (hmarks.mp hm)), hrow] at hlookup
      exact not_lt.mp fun hlt => h _ ⟨rfl, hunread, _, hlookup, .inr hlt⟩
  · rintro h ⟨messageId, userId⟩ ⟨rfl, hunread, row', hrow', hsel'⟩
    have hunread : messageId ∈ db.unreadUpTo userId chatId upTo' := hunread
    rw [lookup_markMessagesRead] at hrow'
    split_ifs at hrow' with hmarks
    · obtain ⟨-, -, row, hrow, hsel⟩ := hmarks
      have hnow := h messageId hunread row hrow
      rw [if_pos hsel] at hnow
      obtain rfl := Option.some.inj hrow'
      obtain hread | hlt := hsel'
      · exact hread rfl
      · exact absurd hnow (not_le.mpr hlt)
    · have hold := h messageId hunread row' hrow'
      have hsel : ¬ (row'.status ≠ .read ∨ upTo < row'.updatedAt) :=
        fun hsel => hmarks ((marks_iff hle hunread hrow').mpr hsel)
      rw [if_neg hsel] at hold
      obtain hread | hlt := hsel'
      · exact hsel (.inl hread)
      · exact absurd hold (not_le.mpr hlt)

/-- For every two calls, the second not for a later timestamp: it returns 0 and leaves all rows
exactly if the rows that it looks at are settled. -/
theorem marking_idempotent_iff (db : ChatStore) (userId chatId : Uuid) (now now' : Timestamp)
    {upTo upTo' : Timestamp} (hle : upTo' ≤ upTo) :
    (db.markMessagesRead now userId chatId upTo).2.markMessagesRead now' userId chatId upTo' =
        (0, (db.markMessagesRead now userId chatId upTo).2) ↔
      Settled db now userId chatId upTo upTo' := by
  rw [← not_marks_again_iff hle, ← marked_eq_nil]
  constructor
  · intro h
    exact List.length_eq_zero_iff.mp (congrArg Prod.fst h)
  · intro h
    refine markMessagesRead_eq.trans ?_
    rw [h]
    rfl

end Marking

/-- Every status is of a message, and the sender of a message has one that is not `read`. -/
structure Tracked (db : ChatStore) : Prop where
  keys : ∀ k row, db.statuses.lookup k = some row → k.1 ∈ db.messages.map ChatMessage.id
  senders : ∀ m ∈ db.messages, ∃ s row, m.senderId = some s ∧
    db.statuses.lookup (m.id, s) = some row ∧ row.status ≠ .read

section Tracked

variable {ω : StoreChoice} {db db' : ChatStore} {c : StoreCmd} {ans : c.Ans}

/-- An UPDATE that leaves the identifier and the sender. -/
theorem Tracked.update (h : Tracked db) {messageId : Uuid} {f : ChatMessage → ChatMessage}
    (hid : ∀ m, (f m).id = m.id) (hsender : ∀ m, (f m).senderId = m.senderId) :
    Tracked (db.updateMessage messageId f hid) where
  keys k row hrow := by
    obtain ⟨m, hm, hk⟩ := List.mem_map.mp (h.keys k row hrow)
    by_cases hmid : m.id = messageId
    · exact List.mem_map.mpr ⟨f m, mem_updateMessage.mpr (.inr ⟨m, hm, hmid, rfl⟩), (hid m).trans hk⟩
    · exact List.mem_map.mpr ⟨m, mem_updateMessage.mpr (.inl ⟨hm, hmid⟩), hk⟩
  senders m' hm' := by
    obtain ⟨hm, -⟩ | ⟨m, hm, -, rfl⟩ := mem_updateMessage.mp hm'
    · exact h.senders m' hm
    · rw [hid, hsender]
      exact h.senders m hm

theorem Tracked.send (h : Tracked db) {m : ChatMessage} {senderId chatId : Uuid} {now : Timestamp}
    (hsender : m.senderId = some senderId) (hactive : (db.activeRow chatId senderId).isSome)
    (hfresh : m.id ∉ db.messages.map ChatMessage.id) :
    Tracked ((db.insertMessage m hfresh).insertStatuses now m.id chatId) := by
  have hnone : ∀ userId, (db.insertMessage m hfresh).statuses.lookup (m.id, userId) = none := by
    intro userId
    by_contra hrow
    obtain ⟨row, hrow⟩ := Option.ne_none_iff_exists'.mp hrow
    exact hfresh (h.keys _ row hrow)
  have hlookup : ∀ k, ((db.insertMessage m hfresh).insertStatuses now m.id chatId).statuses.lookup k =
      _ := lookup_insertStatuses_of_fresh hnone
  refine ⟨fun k row hrow => ?_, fun m' hm' => ?_⟩
  · rw [hlookup] at hrow
    have hids : k.1 ∈ (db.messages ++ [m]).map ChatMessage.id := by
      rw [List.map_append, List.mem_append]
      split_ifs at hrow with hk
      · exact .inr (List.mem_singleton.mpr hk.1)
      · exact .inl (h.keys k row hrow)
    exact hids
  · obtain hm' | hm' := List.mem_append.mp hm'
    · obtain ⟨s, row, hs, hrow, hunread⟩ := h.senders m' hm'
      have hne : m'.id ≠ m.id := fun heq => hfresh (heq ▸ List.mem_map_of_mem hm')
      refine ⟨s, row, hs, ?_, hunread⟩
      rw [hlookup, if_neg (fun hk => hne hk.1)]
      exact hrow
    · obtain rfl := List.mem_singleton.mp hm'
      refine ⟨senderId, ⟨.sent, now⟩, hsender, ?_, by simp⟩
      rw [hlookup, if_pos ⟨rfl, hactive⟩]

/-- The UPDATE leaves out the messages of the user. -/
theorem not_marks_own {userId chatId senderId : Uuid} {upTo : Timestamp} {m : ChatMessage}
    (hm : m ∈ db.messages) (hsender : m.senderId = some senderId) :
    ¬ Marks db userId chatId upTo (m.id, senderId) := by
  rintro ⟨rfl, hunread, -⟩
  obtain ⟨-, m', hm', hid, -, ⟨s, hs, hne⟩, -⟩ := mem_unreadUpTo.mp hunread
  obtain rfl := List.inj_on_of_nodup_map db.uniqueIds hm' hm hid
  exact hne (Option.some.inj (hs.symm.trans hsender))

theorem Tracked.mark (h : Tracked db) (now : Timestamp) (userId chatId : Uuid) (upTo : Timestamp) :
    Tracked (db.markMessagesRead now userId chatId upTo).2 where
  keys k row hrow := by
    rw [lookup_markMessagesRead] at hrow
    split_ifs at hrow with hmarks
    · obtain ⟨-, -, old, hold, -⟩ := hmarks
      exact h.keys k old hold
    · exact h.keys k row hrow
  senders m hm := by
    have hm : m ∈ db.messages := hm
    obtain ⟨s, row, hs, hrow, hunread⟩ := h.senders m hm
    refine ⟨s, row, hs, ?_, hunread⟩
    rw [lookup_markMessagesRead, if_neg (not_marks_own hm hs)]
    exact hrow

theorem Tracked.change (h : Tracked db) (hc : Change ω db c ans db') : Tracked db' := by
  cases hc with
  | same hm hs => exact ⟨by rw [hm, hs]; exact h.keys, by rw [hm, hs]; exact h.senders⟩
  | sent hm hactive hfresh => exact h.send (by rw [hm, insertedRow]) hactive hfresh
  | edited => exact h.update _ (fun _ => rfl)
  | deleted => exact h.update _ (fun _ => rfl)
  | marked => exact h.mark _ _ _ _

theorem tracked_apply {c d : ChatConfig} {a : ChatAct} (h : Tracked c.db)
    (ha : chatServer.apply a c = some d) : Tracked d.db := by
  obtain ⟨r, rfl, rfl⟩ | ⟨i, ω, r, cmd, k, ans, s, rfl, ht, he, rfl⟩ | ⟨ω, s, rfl, hs, rfl⟩ :=
    System.apply_cases ha
  · exact h
  · exact h.change (change_of_exec he)
  · obtain rfl := Option.some.inj hs
    exact ⟨h.keys, h.senders⟩

theorem tracked_of_reach {users : List Uuid} {d : ChatConfig}
    (h : chatServer.Reach (fun _ _ => True) (System.start (.empty users)) d) : Tracked d.db := by
  refine h.invariant (J := fun c => Tracked c.db) (fun hJ _ ha => tracked_apply hJ ha) ⟨?_, ?_⟩
  · intro k row hrow
    cases hrow
  · intro m hm
    cases hm

/-- What the count of unread messages counts. -/
theorem unreadCount_eq_zero {userId chatId : Uuid} : unreadCount db userId chatId = 0 ↔
    ∀ m ∈ db.live chatId, ∀ row, db.statuses.lookup (m.id, userId) = some row →
      row.status = .read := by
  rw [unreadCount, List.countP_eq_zero]
  constructor
  · intro h m hm row hrow
    by_contra hunread
    exact h _ (AList.mem_lookup_iff.mp hrow)
      (decide_eq_true ⟨rfl, hunread, List.mem_map_of_mem hm⟩)
  · rintro h ⟨⟨messageId, userId'⟩, row⟩ he hsel
    obtain ⟨rfl, hunread, hlive⟩ := of_decide_eq_true hsel
    obtain ⟨m, hm, rfl⟩ := List.mem_map.mp hlive
    exact hunread (h m hm row (AList.mem_lookup_iff.mpr he))

theorem unread_after_marking_iff {userId chatId : Uuid} {upTo : Timestamp} (now : Timestamp)
    (h : Tracked db) (hactive : (db.activeRow chatId userId).isSome)
    (hupTo : ∀ m ∈ db.messages, m.chatId = chatId → m.createdAt ≤ upTo) :
    unreadCount (db.markMessagesRead now userId chatId upTo).2 userId chatId = 0 ↔
      ∀ m ∈ db.live chatId, m.senderId ≠ some userId := by
  rw [unreadCount_eq_zero]
  refine forall₂_congr fun m hm => ?_
  obtain ⟨hmem, hsel⟩ := List.mem_filter.mp hm
  obtain ⟨hchat, hlive⟩ := of_decide_eq_true hsel
  have hstored : m ∈ db.messages := hmem
  obtain ⟨s, own, hs, hown, hunread⟩ := h.senders m hstored
  constructor
  · rintro hread hself
    obtain rfl := Option.some.inj (hs.symm.trans hself)
    apply hunread
    apply hread
    rw [lookup_markMessagesRead, if_neg (not_marks_own hstored hs)]
    exact hown
  · intro hother row hrow
    have hne : s ≠ userId := fun heq => hother (heq ▸ hs)
    have hselected : m.id ∈ db.unreadUpTo userId chatId upTo :=
      mem_unreadUpTo.mpr ⟨hactive, m, hstored, rfl, hchat, ⟨s, hs, hne⟩, hupTo m hstored hchat, hlive⟩
    rw [lookup_markMessagesRead] at hrow
    split_ifs at hrow with hmarks
    · rw [← Option.some.inj hrow]
    · by_contra hstill
      exact hmarks ⟨rfl, hselected, row, hrow, .inl hstill⟩

/-- In every reachable state, after a user has marked all messages of a chat as read, its preview
counts no unread message exactly if the user has sent none of its messages that are there. -/
theorem unread_count_zero_iff {users : List Uuid} {d : ChatConfig}
    (hreach : chatServer.Reach (fun _ _ => True) (System.start (.empty users)) d)
    {userId chatId : Uuid} (hactive : (d.db.activeRow chatId userId).isSome) {upTo : Timestamp}
    (hupTo : ∀ m ∈ d.db.messages, m.chatId = chatId → m.createdAt ≤ upTo) (now : Timestamp)
    {p : ChatPreview}
    (hp : p ∈ chatPreviews (d.db.markMessagesRead now userId chatId upTo).2 userId)
    (hchat : p.chatId = chatId) :
    p.unreadCount = 0 ↔ ∀ m ∈ d.db.live chatId, m.senderId ≠ some userId := by
  obtain ⟨e, -, he⟩ := List.mem_filterMap.mp hp
  rw [Option.ite_none_right_eq_some] at he
  obtain ⟨row, -, rfl⟩ := Option.map_eq_some_iff.mp he.2
  obtain rfl : e.1.1 = chatId := hchat
  exact unread_after_marking_iff now (tracked_of_reach hreach) hactive hupTo

end Tracked

/-- A user writes into a private chat of Alice and Bob. -/
def writes (userId : Uuid) : List ChatAct :=
  [.spawn (alice, .createPrivateChat bob), .step 0 (choose 10), .step 0 (choose 11),
    .spawn (userId, .sendMessage theChat ⟨some "hello", some "iv", "text", none, false, none⟩),
    .step 1 (choose 12), .step 1 (choose 12)]

def after (userId : Uuid) : ChatConfig :=
  chatServer.run (writes userId) (System.start (.empty [alice, bob]))

theorem reach_after (userId : Uuid) :
    chatServer.Reach (fun _ _ => True) (System.start (.empty [alice, bob])) (after userId) :=
  System.reach_run _ _

theorem messages_after (userId : Uuid) (h : userId = alice ∨ userId = bob) :
    (after userId).db.messages = [⟨.ofNat 12, theChat, some userId, none, some "hello",
      some "iv", "text", none, false, 12, none, none⟩] := by
  obtain rfl | rfl := h <;> rfl

/-- Alice's own message stays unread for her. -/
theorem own_message_counted : ¬ ∀ (users : List Uuid) (d : ChatConfig),
    chatServer.Reach (fun _ _ => True) (System.start (.empty users)) d →
    ∀ userId chatId, (d.db.activeRow chatId userId).isSome → ∀ upTo,
      (∀ m ∈ d.db.messages, m.chatId = chatId → m.createdAt ≤ upTo) → ∀ now,
        ∀ p ∈ chatPreviews (d.db.markMessagesRead now userId chatId upTo).2 userId,
          p.chatId = chatId → p.unreadCount = 0 := by
  intro h
  have hupTo : ∀ m ∈ (after alice).db.messages, m.chatId = theChat → m.createdAt ≤ 12 := by
    rw [messages_after alice (.inl rfl)]
    simp
  have hzero := h _ _ (reach_after alice) alice theChat rfl 12 hupTo 13 _
    (List.mem_singleton.mpr rfl) rfl
  cases hzero

/-- Alice has read what Bob wrote. -/
theorem bob_read :
    ∃ p ∈ chatPreviews ((after bob).db.markMessagesRead 13 alice theChat 12).2 alice,
      p.chatId = theChat ∧
        (p.unreadCount = 0 ↔
          ∀ m ∈ (after bob).db.live theChat, m.senderId ≠ some alice) := by
  have hupTo : ∀ m ∈ (after bob).db.messages, m.chatId = theChat → m.createdAt ≤ 12 := by
    rw [messages_after bob (.inr rfl)]
    simp
  obtain ⟨p, hp, hchat⟩ :
      ∃ p ∈ chatPreviews ((after bob).db.markMessagesRead 13 alice theChat 12).2 alice,
        p.chatId = theChat :=
    ⟨_, List.mem_singleton.mpr rfl, rfl⟩
  exact ⟨p, hp, hchat, unread_count_zero_iff (reach_after bob) rfl hupTo 13 hp hchat⟩

/-- Alice reads at 13 what Bob wrote at 12, and the client of a second request has the same
timestamp: the row is written again. -/
theorem row_marked_again :
    ¬ ∀ (db : ChatStore) (userId chatId : Uuid) (now now' upTo : Timestamp),
      (db.markMessagesRead now userId chatId upTo).2.markMessagesRead now' userId chatId upTo =
        (0, (db.markMessagesRead now userId chatId upTo).2) := by
  intro h
  have hcount := congrArg Prod.fst (h (after bob).db alice theChat 13 14 12)
  cases hcount

/-- With the timestamp of a client whose clock is ahead nothing is written again. -/
theorem row_not_marked_again :
    ((after bob).db.markMessagesRead 13 alice theChat 20).2.markMessagesRead 14 alice theChat 15 =
        (0, ((after bob).db.markMessagesRead 13 alice theChat 20).2) ↔
      Settled (after bob).db 13 alice theChat 20 15 :=
  marking_idempotent_iff _ _ _ _ _ (by decide)

end Mesty.Chats.Reading
