import Mesty.Chats.Publishing
import Mesty.Chats.Reading
import Mesty.Concurrency.Provenance

namespace Mesty.Chats.Authorship

open Mesty.Base.Ids Mesty.Base.Error Mesty.Concurrency.Program Mesty.Concurrency.Pool
open Mesty.Concurrency.Visits Mesty.Concurrency.Provenance
open Mesty.Chats.Entities Mesty.Chats.Repository Mesty.Chats.Messages Mesty.Chats.Store
open Mesty.Chats.Handlers Mesty.Chats.Changes Mesty.Chats.Reading
open Mesty.Chats.Erasure (ChatConfig ChatAct StoreEvent)
open Mesty.Chats.Members (lookup_insertStatuses)
open Mesty.Chats.Effects (exec_findPrivateChat reactions_of_exec WritesReactions Announces issues_ofChat issues_messageEvent)

abbrev Asked := List ((c : StoreCmd) × c.Ans)

/-- A request makes the writes it is for, under the name of its user, and edits what it has found
to be a message of this user. -/
def ActsAs (r : Uuid × ChatReq) (h : Asked) : StoreCmd → Prop
  | .sendMessage userId chatId message => r = (userId, .sendMessage chatId message)
  | .editMessage messageId contentEncrypted contentIv =>
    (∃ chatId, r.2 = .editMessage chatId messageId contentEncrypted contentIv) ∧
      ∃ chatId, ⟨.selectOwnMessage messageId r.1, some chatId⟩ ∈ h
  | .deleteMessage messageId userId => ∃ chatId, r = (userId, .deleteMessage chatId messageId)
  | .markMessagesRead userId chatId upTo => r = (userId, .markMessagesRead chatId upTo)
  | .addReaction messageId userId reaction =>
    ∃ chatId, r = (userId, .addReaction chatId messageId reaction)
  | .removeReaction messageId userId reaction =>
    ∃ chatId, r = (userId, .removeReaction chatId messageId (some reaction))
  | .upsertChatSettings userId chatId settings => r = (userId, .updateChatSettings chatId settings)
  | _ => True

section Protocol

variable {userId chatId : Uuid} {r : Uuid × ChatReq}

/-- Without what an edit has to ask before. -/
def Signs (r : Uuid × ChatReq) (c : StoreCmd) : Prop := ∀ h, ActsAs r h c

theorem signs_of_announces {m : ChatMessage} (c : StoreCmd) (hc : Announces m c) : Signs r c := by
  cases c with
  | publish | getChatParticipants | isOnline | getChatSettings | utcNow | enqueuePush =>
    exact fun _ => trivial
  | _ => exact absurd hc id

theorem verifyParticipant_signs : (verifyParticipant userId chatId).run.Issues (Signs r) := by
  refine ⟨fun _ => trivial, fun found => ?_⟩
  cases found <;> trivial

theorem verifyMessage_signs {messageId : Uuid} :
    (verifyMessageInChat messageId chatId).run.Issues (Signs r) := by
  refine ⟨fun _ => trivial, fun found => ?_⟩
  cases found <;> trivial

theorem okOr_signs {β : Type} {o : Option β} {e : DomainError} :
    (StoreTask.okOr o e).run.Issues (Signs r) := by
  cases o <;> trivial

theorem createPrivateChat_signs {participantId : Uuid} :
    (createPrivateChat userId participantId).run.Issues (Signs r) := by
  rw [createPrivateChat]
  split_ifs
  · trivial
  refine ⟨fun _ => trivial, fun found => ?_⟩
  cases found with
  | some chatId => exact ⟨fun _ => trivial, fun chat => okOr_signs.tryBind fun _ => trivial⟩
  | none =>
    refine ⟨fun _ => trivial, fun created => ?_⟩
    cases created with
    | error e => trivial
    | ok chatId => exact ⟨fun _ => trivial, fun chat => okOr_signs.tryBind fun _ => trivial⟩

theorem sendMessage_signs {message : NewMessage} :
    (sendMessage userId chatId message).run.Issues (Signs (userId, .sendMessage chatId message)) := by
  refine ⟨fun _ => trivial, fun allowed => ?_⟩
  cases allowed
  · trivial
  refine ⟨fun _ => rfl, fun sent => ?_⟩
  cases sent with
  | error e => trivial
  | ok m => exact ((issues_messageEvent m userId).mono signs_of_announces).tryBind fun _ => trivial

theorem rotateGroupKey_signs {keys : List (Uuid × String)} :
    (rotateGroupKey userId chatId keys).run.Issues (Signs r) := by
  rw [rotateGroupKey]
  split_ifs
  · trivial
  refine ⟨fun _ => trivial, fun role => okOr_signs.tryBind fun role => ?_⟩
  split_ifs
  · trivial
  exact ⟨fun _ => trivial, fun _ => ⟨fun _ => trivial, fun _ => trivial⟩⟩

theorem editMessage_follows {messageId : Uuid} {contentEncrypted contentIv : Option String} :
    (editMessage userId chatId messageId contentEncrypted contentIv).run.Follows
      (ActsAs (userId, .editMessage chatId messageId contentEncrypted contentIv)) (fun _ _ => True) [] := by
  refine ⟨trivial, fun found => ?_⟩
  cases found
  · trivial
  refine ⟨trivial, fun own => ?_⟩
  cases own with
  | none => trivial
  | some messageChat =>
    refine ⟨trivial, fun found => ?_⟩
    cases found
    · trivial
    by_cases hnone : contentEncrypted.isNone ∧ contentIv.isNone
    · simp only [hnone]
      trivial
    · simp only [hnone]
      refine ⟨⟨⟨chatId, rfl⟩, messageChat, by simp⟩, fun edited => ?_⟩
      cases edited <;> trivial

theorem handle_signs {req : ChatReq} (hedit : ∀ chatId messageId contentEncrypted contentIv,
    req ≠ .editMessage chatId messageId contentEncrypted contentIv) :
    (handle userId req).run.Issues (Signs (userId, req)) := by
  cases req with
  | group req =>
    have hgroup : (StoreTask.ofChat (Groups.Handlers.handle userId req).run).Issues
        (Signs (userId, .group req)) :=
      issues_ofChat (Prog.issues_of_forall (fun _ _ => trivial) _)
    exact hgroup.tryBind fun _ => trivial
  | rotateGroupKey chatId keys => exact rotateGroupKey_signs
  | createPrivateChat participantId => exact createPrivateChat_signs
  | sendMessage chatId message => exact sendMessage_signs
  | markMessagesRead chatId upTo =>
    refine verifyParticipant_signs.tryBind fun _ => ?_
    exact ⟨fun _ => rfl, fun _ => ⟨fun _ => trivial, fun _ => trivial⟩⟩
  | addReaction chatId messageId reaction =>
    refine verifyParticipant_signs.tryBind fun _ => verifyMessage_signs.tryBind fun _ => ?_
    refine ⟨fun _ => ⟨chatId, rfl⟩, fun added => ?_⟩
    cases added with
    | error e => trivial
    | ok added => exact ⟨fun _ => trivial, fun _ => trivial⟩
  | removeReaction chatId messageId emoji =>
    cases emoji with
    | none => trivial
    | some reaction =>
      refine verifyParticipant_signs.tryBind fun _ => verifyMessage_signs.tryBind fun _ => ?_
      refine ⟨fun _ => ⟨chatId, rfl⟩, fun removed => ?_⟩
      cases removed with
      | error e => trivial
      | ok removed =>
        cases removed with
        | false => trivial
        | true => exact ⟨fun _ => trivial, fun _ => trivial⟩
  | updateChat chatId name description avatarUrl =>
    refine ⟨fun _ => trivial, fun row => okOr_signs.tryBind fun row => ?_⟩
    refine ⟨fun _ => trivial, fun updated => ?_⟩
    cases updated <;> trivial
  | editMessage chatId messageId contentEncrypted contentIv => exact absurd rfl (hedit _ _ _ _)
  | deleteMessage chatId messageId =>
    refine verifyParticipant_signs.tryBind fun _ => ?_
    refine ⟨fun _ => ⟨chatId, rfl⟩, fun deleted => ?_⟩
    cases deleted <;> trivial
  | updateChatSettings chatId settings =>
    refine verifyParticipant_signs.tryBind fun _ => ⟨fun _ => rfl, fun updated => ?_⟩
    cases updated with
    | error e => trivial
    | ok _ => exact ⟨fun _ => trivial, fun settings => okOr_signs.tryBind fun _ => trivial⟩

theorem handler_follows (r : Uuid × ChatReq) :
    (chatServer.handler r).Follows (ActsAs r) (fun _ _ => True) [] := by
  obtain ⟨userId, req⟩ := r
  by_cases hedit : ∃ chatId messageId contentEncrypted contentIv,
      req = .editMessage chatId messageId contentEncrypted contentIv
  · obtain ⟨chatId, messageId, contentEncrypted, contentIv, rfl⟩ := hedit
    exact editMessage_follows
  · simp only [not_exists] at hedit
    exact (handle_signs hedit).follows (fun h _ hc => hc h) (fun _ _ => trivial)

end Protocol

/-- What no statement changes of a message. -/
structure Header where
  id : Uuid
  chatId : Uuid
  senderId : Option Uuid
  replyToId : Option Uuid
  metadata : Option String
  isForwarded : Bool
  createdAt : Timestamp

def header (m : ChatMessage) : Header :=
  ⟨m.id, m.chatId, m.senderId, m.replyToId, m.metadata, m.isForwarded, m.createdAt⟩

/-- The statement has stored the message, or has changed it. -/
def WritesMessage (messageId : Uuid) : StoreEvent → Prop
  | ⟨_, .sendMessage .., .ok m⟩ => m.id = messageId
  | ⟨_, .editMessage messageId' .., .ok _⟩ | ⟨_, .deleteMessage messageId' _, true⟩ =>
    messageId' = messageId
  | _ => False

def WritesReaction (key : Uuid × Uuid × String) : StoreEvent → Prop
  | ⟨_, .addReaction messageId userId reaction, .ok _⟩ => (messageId, userId, reaction) = key
  | ⟨_, .removeReaction messageId userId reaction, .ok true⟩ => (messageId, userId, reaction) = key
  | _ => False

/-- The key has the user first, then the chat. -/
def WritesSettings (key : Uuid × Uuid) : StoreEvent → Prop
  | ⟨_, .upsertChatSettings userId chatId _, .ok _⟩ => (userId, chatId) = key
  | _ => False

def MarksRead (userId : Uuid) : StoreEvent → Prop
  | ⟨_, .markMessagesRead userId' .., _⟩ => userId' = userId
  | _ => False

section Statements

variable {ω : StoreChoice} {db db' : ChatStore} {cmd : StoreCmd} {ans : cmd.Ans} {i : Nat}
  {messageId userId chatId : Uuid} {reaction : String} {m : ChatMessage}

theorem findMessage_congr (h : db'.messages = db.messages) :
    db'.findMessage messageId = db.findMessage messageId := by
  rw [ChatStore.findMessage, h, ChatStore.findMessage]

theorem findMessage_updateMessage {f : ChatMessage → ChatMessage} {hf : ∀ m, (f m).id = m.id}
    (hne : m.id ≠ messageId) :
    (db.updateMessage m.id f hf).findMessage messageId = db.findMessage messageId := by
  refine Option.ext fun x => ?_
  rw [findMessage_eq_some, findMessage_eq_some, mem_updateMessage]
  constructor
  · rintro ⟨⟨hx, -⟩ | ⟨old, -, hid, rfl⟩, rfl⟩
    · exact ⟨hx, rfl⟩
    · exact absurd (hid.symm.trans (hf old).symm) hne
  · rintro ⟨hx, rfl⟩
    exact ⟨.inl ⟨hx, Ne.symm hne⟩, rfl⟩

theorem findMessage_of_exec (he : ChatStore.exec ω cmd db = some (ans, db')) :
    db'.findMessage messageId = db.findMessage messageId ∨ WritesMessage messageId ⟨i, cmd, ans⟩ := by
  cases change_of_exec he with
  | same hm => exact .inl (findMessage_congr hm)
  | marked => exact .inl rfl
  | @sent senderId chatId message m hm hactive hfresh =>
    by_cases hid : m.id = messageId
    · exact .inr hid
    · refine .inl ?_
      change (db.messages ++ [m]).find? _ = _
      rw [List.find?_append, List.find?_singleton, if_neg (by simpa using hid), Option.or_none]
      rfl
  | @edited m =>
    by_cases hid : m.id = messageId
    · exact .inr hid
    · exact .inl (findMessage_updateMessage hid)
  | @deleted m =>
    by_cases hid : m.id = messageId
    · exact .inr hid
    · exact .inl (findMessage_updateMessage hid)

theorem headers_of_exec (he : ChatStore.exec ω cmd db = some (ans, db')) :
    db.messages.map header <+: db'.messages.map header := by
  have hupdate {m : ChatMessage} {f : ChatMessage → ChatMessage} {hf : ∀ m, (f m).id = m.id}
      (hheader : ∀ m, header (f m) = header m) :
      db.messages.map header <+: (db.updateMessage m.id f hf).messages.map header := by
    have hsame : (db.updateMessage m.id f hf).messages.map header = db.messages.map header := by
      rw [ChatStore.updateMessage, List.map_map]
      refine List.map_congr_left fun x _ => ?_
      rw [Function.comp_apply]
      split_ifs
      · exact hheader x
      · rfl
    rw [hsame]
  cases change_of_exec he with
  | same hm => rw [hm]
  | marked => exact List.prefix_refl _
  | sent =>
    change _ <+: (db.messages ++ [_]).map header
    rw [List.map_append]
    exact List.prefix_append _ _
  | edited => exact hupdate fun _ => rfl
  | deleted => exact hupdate fun _ => rfl

theorem reaction_of_exec {key : Uuid × Uuid × String}
    (he : ChatStore.exec ω cmd db = some (ans, db')) :
    db'.reactions.lookup key = db.reactions.lookup key ∨ WritesReaction key ⟨i, cmd, ans⟩ := by
  by_cases hwrites : WritesReactions cmd
  · cases cmd with
    | addReaction messageId userId reaction =>
      obtain ⟨e, heq⟩ | ⟨-, heq⟩ := db.addReaction_cases ω messageId userId reaction
      · obtain ⟨rfl, rfl⟩ := Prod.mk.inj (heq.symm.trans (Option.some.inj he))
        exact .inl rfl
      · obtain ⟨rfl, rfl⟩ := Prod.mk.inj (heq.symm.trans (Option.some.inj he))
        by_cases hkey : (messageId, userId, reaction) = key
        · exact .inr hkey
        · exact .inl (AList.lookup_insert_ne (Ne.symm hkey))
    | removeReaction messageId userId reaction =>
      obtain ⟨e, heq⟩ | heq := db.removeReaction_cases messageId userId reaction
      · obtain ⟨rfl, rfl⟩ := Prod.mk.inj (heq.symm.trans (Option.some.inj he))
        exact .inl rfl
      obtain ⟨rfl, rfl⟩ := Prod.mk.inj (heq.symm.trans (Option.some.inj he))
      by_cases hkey : (messageId, userId, reaction) = key
      · subst hkey
        by_cases hstored : (messageId, userId, reaction) ∈ db.reactions
        · exact .inr (by simp [WritesReaction, hstored])
        · refine .inl ?_
          rw [AList.lookup_erase, AList.lookup_eq_none.mpr hstored]
      · exact .inl (AList.lookup_erase_ne (Ne.symm hkey))
    | _ => exact absurd hwrites id
  · exact .inl (congrArg (AList.lookup key) (reactions_of_exec hwrites he))

theorem settings_of_exec {key : Uuid × Uuid} (he : ChatStore.exec ω cmd db = some (ans, db')) :
    db'.settings.lookup key = db.settings.lookup key ∨ WritesSettings key ⟨i, cmd, ans⟩ := by
  cases cmd with
  | upsertChatSettings userId chatId settings =>
    simp only [ChatStore.exec, ChatStore.upsertChatSettings] at he
    split_ifs at he
    · obtain ⟨rfl, rfl⟩ := Prod.mk.inj (Option.some.inj he)
      exact .inl rfl
    · obtain ⟨rfl, rfl⟩ := Prod.mk.inj (Option.some.inj he)
      exact .inl rfl
    · obtain ⟨rfl, rfl⟩ := Prod.mk.inj (Option.some.inj he)
      by_cases hkey : (userId, chatId) = key
      · exact .inr hkey
      · exact .inl (AList.lookup_insert_ne (Ne.symm hkey))
  | chat c =>
    obtain ⟨⟨_, chats⟩, -, heq⟩ := Option.map_eq_some_iff.mp he
    obtain ⟨-, rfl⟩ := Prod.mk.inj heq
    exact .inl rfl
  | findPrivateChat =>
    obtain rfl := exec_findPrivateChat he
    exact .inl rfl
  | createPrivateChat =>
    obtain ⟨-, rfl, -⟩ | ⟨-, -, -, -, -, rfl⟩ := createPrivateChat_cases he <;> exact .inl rfl
  | sendMessage =>
    obtain ⟨-, -, -, rfl⟩ | ⟨-, -, rfl⟩ := sendMessage_cases he <;> exact .inl rfl
  | addReaction | removeReaction =>
    simp only [ChatStore.exec, ChatStore.addReaction, ChatStore.removeReaction] at he
    split_ifs at he <;> obtain ⟨-, rfl⟩ := Prod.mk.inj (Option.some.inj he) <;> exact .inl rfl
  | updateChat =>
    simp only [ChatStore.exec, ChatStore.updateChatRow] at he
    split at he
    · obtain ⟨-, rfl⟩ := Prod.mk.inj (Option.some.inj he)
      exact .inl rfl
    · split_ifs at he <;> obtain ⟨-, rfl⟩ := Prod.mk.inj (Option.some.inj he) <;> exact .inl rfl
  | editMessage =>
    simp only [ChatStore.exec, ChatStore.editMessage] at he
    split at he
    · obtain ⟨-, rfl⟩ := Prod.mk.inj (Option.some.inj he)
      exact .inl rfl
    · split_ifs at he <;> obtain ⟨-, rfl⟩ := Prod.mk.inj (Option.some.inj he) <;> exact .inl rfl
  | deleteMessage =>
    simp only [ChatStore.exec, ChatStore.deleteMessage] at he
    split at he <;> obtain ⟨-, rfl⟩ := Prod.mk.inj (Option.some.inj he) <;> exact .inl rfl
  | _ =>
    obtain ⟨-, rfl⟩ := Prod.mk.inj (Option.some.inj he)
    exact .inl rfl

/-- A row stays with its message until its user marks what he has read. -/
theorem status_of_exec {row : StatusRow} (hrow : db.statuses.lookup (messageId, userId) = some row)
    (he : ChatStore.exec ω cmd db = some (ans, db')) :
    db'.statuses.lookup (messageId, userId) = some row ∨ MarksRead userId ⟨i, cmd, ans⟩ := by
  cases change_of_exec he with
  | same _ hs => exact .inl (hs ▸ hrow)
  | edited | deleted => exact .inl hrow
  | sent hm hactive hfresh =>
    have hkept : (db.insertMessage _ hfresh).statuses.lookup (messageId, userId) = some row := hrow
    exact .inl (by rw [lookup_insertStatuses, hkept, Option.some_or])
  | @marked userId' chatId upTo =>
    by_cases huser : userId' = userId
    · exact .inr huser
    · refine .inl ?_
      rw [lookup_markMessagesRead, if_neg fun hmarks => huser hmarks.1.symm]
      exact hrow

/-- The message is there, and the user has sent it. -/
def SentBy (db : ChatStore) (messageId userId : Uuid) : Prop :=
  ∃ m ∈ db.messages, m.id = messageId ∧ m.senderId = some userId

theorem SentBy.later (h : SentBy db messageId userId)
    (hkept : db.messages.map header <+: db'.messages.map header) : SentBy db' messageId userId := by
  obtain ⟨m, hm, rfl, hsender⟩ := h
  obtain ⟨m', hm', hheader⟩ := List.mem_map.mp (hkept.subset (List.mem_map_of_mem hm))
  exact ⟨m', hm', congrArg Header.id hheader, (congrArg Header.senderId hheader).trans hsender⟩

theorem sentBy_of_own
    (h : (db.ownMessage messageId userId).map ChatMessage.chatId = some chatId) :
    SentBy db messageId userId := by
  obtain ⟨m, hown, -⟩ := Option.map_eq_some_iff.mp h
  obtain ⟨hfind, hsender⟩ := Option.filter_eq_some_iff.mp hown
  obtain ⟨hm, hid⟩ := findMessage_eq_some.mp hfind
  exact ⟨m, hm, hid, (of_decide_eq_true hsender).1⟩

theorem sentBy_of_exec {r : Uuid × ChatReq} {h : Asked} (he : ChatStore.exec ω cmd db = some (ans, db'))
    (hacts : ActsAs r h cmd) (hasked : ∀ messageId chatId,
      ⟨.selectOwnMessage messageId r.1, some chatId⟩ ∈ h → SentBy db messageId r.1)
    (hwrites : WritesMessage messageId ⟨i, cmd, ans⟩) : SentBy db' messageId r.1 := by
  cases cmd with
  | sendMessage senderId chatId message =>
    obtain rfl := hacts
    obtain ⟨-, hfresh, rfl, rfl⟩ | ⟨-, ⟨e, rfl⟩, -⟩ := sendMessage_cases he
    · exact ⟨_, List.mem_append_right _ (List.mem_singleton_self _), hwrites, rfl⟩
    · exact absurd hwrites id
  | editMessage messageId' contentEncrypted contentIv =>
    obtain ⟨-, chatId, hown⟩ := hacts
    cases ans with
    | error e => exact absurd hwrites id
    | ok m =>
      obtain rfl := hwrites
      exact (hasked _ _ hown).later (headers_of_exec he)
  | deleteMessage messageId' userId' =>
    obtain ⟨chatId, rfl⟩ := hacts
    cases ans with
    | false => exact absurd hwrites id
    | true =>
      obtain rfl := hwrites
      refine SentBy.later ?_ (headers_of_exec he)
      simp only [ChatStore.exec, ChatStore.deleteMessage] at he
      split at he
      · cases he
      · next m hown => exact sentBy_of_own (by rw [hown]; rfl)
  | _ => exact absurd hwrites id

end Statements

/-- A run of the chat server from one state to another. -/
abbrev Runs : ChatConfig → ChatConfig → Prop := chatServer.Reach (fun _ _ => True)

/-- Since `c` a statement that does this has been executed for a request of the user. -/
abbrev DoneBy (userId : Uuid) (W : StoreEvent → Prop) : ChatConfig → ChatConfig → Prop :=
  ExecutedSince (fun r ev => r.1 = userId ∧ W ev)

section Runs

variable {c d : ChatConfig} {db : ChatStore} {messageId userId : Uuid}

theorem headers_kept (h : Runs c d) : c.db.messages.map header <+: d.db.messages.map header := by
  induction h with
  | refl => exact List.prefix_refl _
  | tail _ _ ha ih =>
    obtain ⟨r, rfl, rfl⟩ | ⟨i, ω, r, cmd, k, ans, s, rfl, ht, he, rfl⟩ | ⟨ω, s, rfl, hs, rfl⟩ :=
      System.apply_cases ha
    · exact ih
    · exact ih.trans (headers_of_exec he)
    · obtain rfl := Option.some.inj hs
      exact ih

/-- Whatever was executed on a message was executed for its sender. -/
theorem sentBy_of_written (hc : Runs (System.start db) c) {ev : StoreEvent} (hev : ev ∈ c.log)
    (hwrites : WritesMessage messageId ev) :
    ∃ r, c.request ev.task = some r ∧ SentBy c.db messageId r.1 := by
  obtain ⟨before, later, hlog⟩ := List.append_of_mem hev
  obtain ⟨r, hr, hacts⟩ := followed_of_mem hc.replays handler_follows hlog
  obtain ⟨e, e', ω, hse, hee, hec, rfl, -, hexec⟩ := executed hc hlog (Nat.zero_le _)
  refine ⟨r, hr, (sentBy_of_exec hexec hacts (fun messageId chatId hasked => ?_) hwrites).later
    (headers_kept hec)⟩
  -- the edit has found the message before, and a message keeps its sender
  obtain ⟨before', later', hlog'⟩ := List.append_of_mem (mem_eventsOf.mp hasked)
  obtain ⟨a, a', ω', -, haa, hae, -, -, hfound⟩ := executed hse hlog' (Nat.zero_le _)
  have hown := (Prod.mk.inj (Option.some.inj hfound)).1
  exact (sentBy_of_own hown).later ((headers_kept haa).trans (headers_kept hae))

/-- What is executed under a name is executed for a request of this user. -/
theorem doneBy_of_executed {W : StoreEvent → Prop} (hd : chatServer.Replays d)
    (hname : ∀ ev, W ev → ∀ h r, ActsAs r h ev.cmd → r.1 = userId)
    (h : ExecutedSince (fun _ => W) c d) : DoneBy userId W c d := by
  obtain ⟨ev, hev, r, hr, hwrites⟩ := h
  obtain ⟨before, later, hlog⟩ := List.append_of_mem (List.mem_of_mem_drop hev)
  obtain ⟨r', hr', hacts⟩ := followed_of_mem hd handler_follows hlog
  obtain rfl := Option.some.inj (hr.symm.trans hr')
  exact ⟨ev, hev, r, hr, hname ev hwrites _ _ hacts, hwrites⟩

/-- Other requests register users and block them only. -/
theorem rows_tick {ω : StoreChoice} {s s' : ChatStore} (h : chatServer.tick ω s = some s') :
    s'.messages = s.messages ∧ s'.reactions = s.reactions ∧ s'.settings = s.settings ∧
      s'.statuses = s.statuses := by
  obtain rfl := Option.some.inj h
  exact ⟨rfl, rfl, rfl, rfl⟩

theorem message_written (hc : Runs (System.start db) c) (h : Runs c d) (messageId : Uuid) :
    d.db.findMessage messageId = c.db.findMessage messageId ∨
      ∃ userId, SentBy d.db messageId userId ∧ DoneBy userId (WritesMessage messageId) c d := by
  have hwritten := unchanged_or_executed (W := fun _ => WritesMessage messageId)
    (fun db => db.findMessage messageId) (fun _ _ he => findMessage_of_exec he)
    (fun hs => findMessage_congr (rows_tick hs).1) h
  refine hwritten.imp_right fun ⟨ev, hev, r, hr, hwrites⟩ => ?_
  obtain ⟨r', hr', hsent⟩ := sentBy_of_written (hc.trans h) (List.mem_of_mem_drop hev) hwrites
  obtain rfl := Option.some.inj (hr.symm.trans hr')
  exact ⟨r.1, hsent, ev, hev, r, hr, rfl, hwrites⟩

theorem reaction_written (hd : chatServer.Replays d) (h : Runs c d) (messageId userId : Uuid)
    (reaction : String) :
    d.db.reactions.lookup (messageId, userId, reaction) =
        c.db.reactions.lookup (messageId, userId, reaction) ∨
      DoneBy userId (WritesReaction (messageId, userId, reaction)) c d := by
  refine (unchanged_or_executed (W := fun _ => WritesReaction (messageId, userId, reaction))
    (fun db => db.reactions.lookup (messageId, userId, reaction)) (fun _ _ he => reaction_of_exec he)
    (fun hs => by rw [(rows_tick hs).2.1]) h).imp_right (doneBy_of_executed hd ?_)
  rintro ⟨i, cmd, ans⟩ hwrites h r hacts
  cases cmd with
  | addReaction =>
    cases ans with
    | error e => exact absurd hwrites id
    | ok row =>
      obtain ⟨chatId, rfl⟩ := hacts
      exact (Prod.mk.inj (Prod.mk.inj hwrites).2).1
  | removeReaction =>
    cases ans with
    | error e => exact absurd hwrites id
    | ok removed =>
      cases removed with
      | false => exact absurd hwrites id
      | true =>
        obtain ⟨chatId, rfl⟩ := hacts
        exact (Prod.mk.inj (Prod.mk.inj hwrites).2).1
  | _ => exact absurd hwrites id

theorem settings_written (hd : chatServer.Replays d) (h : Runs c d) (userId chatId : Uuid) :
    d.db.settings.lookup (userId, chatId) = c.db.settings.lookup (userId, chatId) ∨
      DoneBy userId (WritesSettings (userId, chatId)) c d := by
  refine (unchanged_or_executed (W := fun _ => WritesSettings (userId, chatId))
    (fun db => db.settings.lookup (userId, chatId)) (fun _ _ he => settings_of_exec he)
    (fun hs => by rw [(rows_tick hs).2.2.1]) h).imp_right (doneBy_of_executed hd ?_)
  rintro ⟨i, cmd, ans⟩ hwrites h r hacts
  cases cmd with
  | upsertChatSettings =>
    cases ans with
    | error e => exact absurd hwrites id
    | ok _ =>
      obtain rfl := hacts
      exact (Prod.mk.inj hwrites).1
  | _ => exact absurd hwrites id

theorem status_written (hd : chatServer.Replays d) (h : Runs c d) {messageId userId : Uuid}
    {row : StatusRow} (hrow : c.db.statuses.lookup (messageId, userId) = some row) :
    d.db.statuses.lookup (messageId, userId) = some row ∨ DoneBy userId (MarksRead userId) c d := by
  refine (kept_or_executed (W := fun _ => MarksRead userId)
    (I := fun db => db.statuses.lookup (messageId, userId) = some row)
    (fun _ _ he hI => status_of_exec hI he) (fun hs hI => by rw [(rows_tick hs).2.2.2, hI]) hrow
    h).imp_right (doneBy_of_executed hd ?_)
  rintro ⟨i, cmd, ans⟩ hwrites h r hacts
  cases cmd with
  | markMessagesRead =>
    obtain rfl := hacts
    exact hwrites
  | _ => exact absurd hwrites id

end Runs

/-- Between the two states messages have only been added, and whatever else has changed of a
message, a reaction, a user's settings of a chat or what he has read, a request of this user (of
the sender, for a message) has changed. -/
structure ChangedByOwners (c d : ChatConfig) : Prop where
  headers : c.db.messages.map header <+: d.db.messages.map header
  message : ∀ messageId, d.db.findMessage messageId = c.db.findMessage messageId ∨
    ∃ userId, SentBy d.db messageId userId ∧ DoneBy userId (WritesMessage messageId) c d
  reaction : ∀ messageId userId reaction, d.db.reactions.lookup (messageId, userId, reaction) =
      c.db.reactions.lookup (messageId, userId, reaction) ∨
    DoneBy userId (WritesReaction (messageId, userId, reaction)) c d
  settings : ∀ userId chatId,
    d.db.settings.lookup (userId, chatId) = c.db.settings.lookup (userId, chatId) ∨
      DoneBy userId (WritesSettings (userId, chatId)) c d
  status : ∀ messageId userId row, c.db.statuses.lookup (messageId, userId) = some row →
    d.db.statuses.lookup (messageId, userId) = some row ∨ DoneBy userId (MarksRead userId) c d

theorem changed_by_owners (db : ChatStore) (acts acts' : List ChatAct) :
    let c := chatServer.run acts (System.start db)
    ChangedByOwners c (chatServer.run acts' c) := by
  intro c
  have hc : Runs (System.start db) c := System.reach_run acts _
  have h : Runs c (chatServer.run acts' c) := System.reach_run acts' c
  have hd : chatServer.Replays (chatServer.run acts' c) := (hc.trans h).replays
  exact {
    headers := headers_kept h
    message := message_written hc h
    reaction := reaction_written hd h
    settings := settings_written hd h
    status := fun _ _ _ hrow => status_written hd h hrow }

end Mesty.Chats.Authorship
