import Mesty.Chats.Store

namespace Mesty.Chats.Changes

open Mesty.Base.Ids Mesty.Base.Error Mesty.Chats.Entities Mesty.Chats.Repository
open Mesty.Chats.Messages Mesty.Chats.Store

/-- What RETURNING gives of a message that has just been inserted. -/
def insertedRow (message : NewMessage) (id chatId senderId : Uuid) (now : Timestamp) : ChatMessage :=
  ⟨id, chatId, some senderId, message.replyToId, message.contentEncrypted, message.contentIv,
    message.messageType, message.metadata, message.isForwarded, now, none, none⟩

variable {ω : StoreChoice} {db db' : ChatStore} {c : StoreCmd} {ans : c.Ans} {m : ChatMessage}

theorem findMessage_eq_some {messageId : Uuid} :
    db.findMessage messageId = some m ↔ m ∈ db.messages ∧ m.id = messageId := by
  constructor
  · intro h
    exact ⟨List.mem_of_find?_eq_some h, by simpa using List.find?_some h⟩
  · rintro ⟨hm, rfl⟩
    cases hfind : db.findMessage m.id with
    | none => simpa using List.find?_eq_none.mp hfind m hm
    | some m' =>
      have hid : m'.id = m.id := by simpa using List.find?_some hfind
      exact congrArg some (List.inj_on_of_nodup_map db.uniqueIds (List.mem_of_find?_eq_some hfind) hm hid)

theorem mem_updateMessage {messageId : Uuid} {f : ChatMessage → ChatMessage}
    {hf : ∀ m, (f m).id = m.id} :
    m ∈ (db.updateMessage messageId f hf).messages ↔
      (m ∈ db.messages ∧ m.id ≠ messageId) ∨ ∃ old ∈ db.messages, old.id = messageId ∧ m = f old := by
  simp only [ChatStore.updateMessage, List.mem_map]
  constructor
  · rintro ⟨old, hold, rfl⟩
    by_cases hid : old.id = messageId
    · exact .inr ⟨old, hold, hid, if_pos hid⟩
    · rw [if_neg hid]
      exact .inl ⟨hold, hid⟩
  · rintro (⟨hm, hid⟩ | ⟨old, hold, hid, rfl⟩)
    · exact ⟨m, hm, if_neg hid⟩
    · exact ⟨old, hold, if_pos hid⟩

/-- What the transaction of `send_message` checks. -/
structure Accepts (db : ChatStore) (senderId chatId : Uuid) (message : NewMessage) : Prop where
  member : ∃ chat, db.memberOfLiveChat senderId chatId = some chat ∧
    ¬ (chat.chatType = .private ∧ db.blockedInPrivateChat senderId chatId)
  text : message.messageType = "text" →
    message.contentEncrypted.isSome ∧ message.contentIv.isSome
  type : message.messageType ∈ messageTypes
  pair : message.contentEncrypted.isNone ↔ message.contentIv.isNone
  reply : ∀ replyToId ∈ message.replyToId, replyToId ∈ db.messages.map ChatMessage.id

theorem checkMessage_insertedRow {message : NewMessage} {id chatId senderId : Uuid}
    {now : Timestamp} : checkMessage (insertedRow message id chatId senderId now) = true ↔
      (message.messageType = "text" →
        message.contentEncrypted.isSome ∧ message.contentIv.isSome) ∧
      (message.contentEncrypted.isNone ↔ message.contentIv.isNone) := by
  rw [checkMessage, decide_eq_true_iff]
  refine and_congr_left fun _ => ⟨fun h htext => ?_, fun h => ?_⟩
  · obtain hother | hdeleted | hboth := h
    · exact absurd htext hother
    · cases hdeleted
    · exact hboth
  · by_cases htext : message.messageType = "text"
    · exact .inr (.inr (h htext))
    · exact .inl htext

/-- The transaction accepts the message and stores it, or refuses it and changes nothing. -/
theorem sendMessage_cases {senderId chatId : Uuid} {message : NewMessage}
    {ans : Except DomainError ChatMessage}
    (h : db.sendMessage ω senderId chatId message = some (ans, db')) :
    (Accepts db senderId chatId message ∧ ∃ hfresh : ω.uuid ∉ db.messages.map ChatMessage.id,
      ans = .ok (insertedRow message ω.uuid chatId senderId ω.now) ∧
        db' = (db.insertMessage (insertedRow message ω.uuid chatId senderId ω.now)
          hfresh).insertStatuses ω.now ω.uuid chatId) ∨
    ¬ Accepts db senderId chatId message ∧ (∃ e, ans = .error e) ∧ db' = db := by
  simp only [ChatStore.sendMessage] at h
  split at h
  · next hmember =>
    cases h
    refine .inr ⟨fun ha => ?_, ⟨_, rfl⟩, rfl⟩
    obtain ⟨chat, hchat, -⟩ := ha.member
    rw [hmember] at hchat
    cases hchat
  · next chat hmember =>
    split_ifs at h with hblocked htext htype hcheck hreply hfresh <;> cases h
    · refine .inr ⟨fun ha => ?_, ⟨_, rfl⟩, rfl⟩
      obtain ⟨chat', hchat', hopen⟩ := ha.member
      rw [hmember] at hchat'
      obtain rfl := Option.some.inj hchat'
      exact hopen hblocked
    · refine .inr ⟨fun ha => ?_, ⟨_, rfl⟩, rfl⟩
      obtain ⟨hcontent, hiv⟩ := ha.text htext.1
      obtain hnone | hnone := htext.2
      · rw [Option.isNone_iff_eq_none.mp hnone] at hcontent
        cases hcontent
      · rw [Option.isNone_iff_eq_none.mp hnone] at hiv
        cases hiv
    · refine .inr ⟨fun ha => ?_, ⟨_, rfl⟩, rfl⟩
      exact absurd (checkMessage_insertedRow.mpr ⟨ha.text, ha.pair⟩) (Bool.eq_false_iff.mp hcheck)
    · obtain ⟨replyToId, hreply, hgone⟩ := hreply
      exact .inr ⟨fun ha => hgone (ha.reply replyToId hreply), ⟨_, rfl⟩, rfl⟩
    · obtain ⟨hboth, hpair⟩ := checkMessage_insertedRow.mp (Bool.of_not_eq_false hcheck)
      refine .inl ⟨⟨⟨chat, hmember, hblocked⟩, hboth, htype, hpair, ?_⟩, hfresh, rfl, rfl⟩
      intro replyToId hid
      by_contra hgone
      exact hreply ⟨replyToId, hid, hgone⟩
    · exact .inr ⟨fun ha => htype ha.type, ⟨_, rfl⟩, rfl⟩

/-- The transaction creates a chat of two known users, or it changes nothing. -/
theorem createPrivateChat_cases {creatorId participantId : Uuid} {ans : Except DomainError Uuid}
    (h : db.createPrivateChat ω creatorId participantId = some (ans, db')) :
    (∃ e, ans = .error e) ∧ db' = db ∧
        (creatorId = participantId ∨ creatorId ∉ db.users ∨ participantId ∉ db.users) ∨
      ans = .ok ω.uuid ∧ ω.uuid ∉ db.chats ∧ creatorId ≠ participantId ∧ creatorId ∈ db.users ∧
        participantId ∈ db.users ∧
        db' = db.withChats (({ db.toChatsDb with
            chats := db.chats.insert ω.uuid
              ⟨.private, none, none, none, some creatorId, none, ω.now, none⟩ }.setParticipant
          ω.uuid creatorId ⟨.member, none, some creatorId, ω.now, none⟩).setParticipant
            ω.uuid participantId ⟨.member, none, some creatorId, ω.now, none⟩) := by
  rw [ChatStore.createPrivateChat] at h
  split_ifs at h with hfresh hcreator hself hother <;> cases h
  · exact .inl ⟨⟨_, rfl⟩, rfl, .inl hself⟩
  · exact .inr ⟨rfl, hfresh, hself, hcreator, hother, rfl⟩
  · exact .inl ⟨⟨_, rfl⟩, rfl, .inr (.inr hother)⟩
  · exact .inl ⟨⟨_, rfl⟩, rfl, .inr (.inl hcreator)⟩

/-- What a command makes of the messages and of the statuses. -/
inductive Change (ω : StoreChoice) (db : ChatStore) : (c : StoreCmd) → c.Ans → ChatStore → Prop where
  | same {c : StoreCmd} {ans : c.Ans} {db' : ChatStore} (hm : db'.messages = db.messages)
    (hs : db'.statuses = db.statuses) : Change ω db c ans db'
  | sent {senderId chatId : Uuid} {message : NewMessage} {m : ChatMessage}
    (hm : m = insertedRow message ω.uuid chatId senderId ω.now)
    (hactive : (db.activeRow chatId senderId).isSome)
    (hfresh : m.id ∉ db.messages.map ChatMessage.id) :
    Change ω db (.sendMessage senderId chatId message) (.ok m)
      ((db.insertMessage m hfresh).insertStatuses ω.now m.id chatId)
  | edited {m : ChatMessage} {contentEncrypted contentIv : Option String} (hm : m ∈ db.messages)
    (hcheck : checkMessage (ChatStore.editedMessage ω.now contentEncrypted contentIv m)) :
    Change ω db (.editMessage m.id contentEncrypted contentIv)
      (.ok (ChatStore.editedMessage ω.now contentEncrypted contentIv m))
      (db.updateMessage m.id (ChatStore.editedMessage ω.now contentEncrypted contentIv)
        (fun _ => rfl))
  | deleted {m : ChatMessage} {userId : Uuid} (hm : m ∈ db.messages) (hlive : m.deletedAt = none) :
    Change ω db (.deleteMessage m.id userId) true
      (db.updateMessage m.id (ChatStore.deletedMessage ω.now) (fun _ => rfl))
  | marked {userId chatId : Uuid} {upTo : Timestamp} :
    Change ω db (.markMessagesRead userId chatId upTo)
      (db.markMessagesRead ω.now userId chatId upTo).1
      (db.markMessagesRead ω.now userId chatId upTo).2

theorem change_of_exec (h : ChatStore.exec ω c db = some (ans, db')) : Change ω db c ans db' := by
  cases c with
  | sendMessage senderId chatId message =>
    obtain ⟨haccepts, hfresh, rfl, rfl⟩ | ⟨-, -, rfl⟩ := sendMessage_cases h
    · obtain ⟨row, hrow, -⟩ := haccepts.member
      exact .sent rfl (Option.filter_eq_some_iff.mp hrow).2 hfresh
    · exact .same rfl rfl
  | editMessage messageId contentEncrypted contentIv =>
    simp only [ChatStore.exec, ChatStore.editMessage] at h
    split at h
    · cases h
      exact .same rfl rfl
    · next m hfind =>
      obtain ⟨hm, rfl⟩ := findMessage_eq_some.mp hfind
      split_ifs at h with hcheck <;> cases h
      · exact .edited hm hcheck
      · exact .same rfl rfl
  | deleteMessage messageId userId =>
    simp only [ChatStore.exec, ChatStore.deleteMessage] at h
    split at h
    · cases h
      exact .same rfl rfl
    · next m hown =>
      obtain ⟨hfind, hlive⟩ := Option.filter_eq_some_iff.mp hown
      obtain ⟨hm, rfl⟩ := findMessage_eq_some.mp hfind
      cases h
      exact .deleted hm (of_decide_eq_true hlive).2
  | markMessagesRead userId chatId upTo =>
    cases h
    exact .marked
  | chat c =>
    obtain ⟨⟨_, chats⟩, -, heq⟩ := Option.map_eq_some_iff.mp h
    obtain ⟨-, rfl⟩ := Prod.mk.inj heq
    exact .same rfl rfl
  | findPrivateChat =>
    simp only [ChatStore.exec, ChatStore.findPrivateChat] at h
    split_ifs at h <;> cases h <;> exact .same rfl rfl
  | createPrivateChat =>
    obtain ⟨-, rfl, -⟩ | ⟨-, -, -, -, -, rfl⟩ := createPrivateChat_cases h
    · exact .same rfl rfl
    · exact .same rfl rfl
  | addReaction | removeReaction | upsertChatSettings =>
    simp only [ChatStore.exec, ChatStore.addReaction, ChatStore.removeReaction,
      ChatStore.upsertChatSettings] at h
    split_ifs at h <;> cases h <;> exact .same rfl rfl
  | updateChat =>
    simp only [ChatStore.exec, ChatStore.updateChatRow] at h
    split at h
    · cases h
      exact .same rfl rfl
    · split_ifs at h <;> cases h <;> exact .same rfl rfl
  | verifyParticipant | verifyMessageInChat | selectChat | selectOwnMessage
  | rotateKeys | getChatParticipants | getChatSettings | checkRateLimit | isOnline | utcNow
  | publish | enqueuePush =>
    obtain ⟨-, rfl⟩ := Prod.mk.inj (Option.some.inj h)
    exact .same rfl rfl

end Mesty.Chats.Changes
