import Mesty.Chats.Changes
import Mesty.Chats.Members

namespace Mesty.Chats.Sending

open Mesty.Base.Ids Mesty.Base.Error Mesty.Concurrency.Program
open Mesty.Chats.Entities Mesty.Chats.Repository Mesty.Chats.Messages Mesty.Chats.Store
open Mesty.Chats.Members Mesty.Chats.Changes

/-- The tables under the constraints of the schema that sending rests on. -/
structure Tables extends ChatStore where
  participantUsers : ∀ k ∈ participants, k.2 ∈ users
  statusMessages : ∀ k ∈ statuses, k.1 ∈ messages.map ChatMessage.id
  /-- `CHECK (blocker_id <> blocked_id)` -/
  noSelfBlock : ∀ userId, (userId, userId) ∉ blocks

namespace Tables

def insertMessage (db : Tables) (m : ChatMessage) (h : m.id ∉ db.messages.map ChatMessage.id) :
    Tables where
  toChatStore := db.toChatStore.insertMessage m h
  participantUsers := db.participantUsers
  statusMessages := by
    intro k hk
    rw [ChatStore.insertMessage, List.map_append]
    exact List.mem_append_left _ (db.statusMessages k hk)
  noSelfBlock := db.noSelfBlock

def insertStatuses (db : Tables) (now : Timestamp) (messageId chatId : Uuid)
    (h : messageId ∈ db.messages.map ChatMessage.id) : Tables where
  toChatStore := db.toChatStore.insertStatuses now messageId chatId
  participantUsers := db.participantUsers
  statusMessages := by
    intro k hk
    rw [← AList.lookup_isSome, lookup_insertStatuses] at hk
    cases hold : db.statuses.lookup k with
    | some row => exact db.statusMessages k (AList.lookup_isSome.mp (by simp [hold]))
    | none =>
      obtain ⟨rfl, -⟩ : k.1 = messageId ∧ (db.activeRow chatId k.2).isSome := by
        by_contra hne
        simp [hold, hne] at hk
      exact h
  noSelfBlock := db.noSelfBlock

end Tables

/-- The statements that the method `send_message` issues on its transaction. -/
inductive TxCmd where
  | begin
  | selectMembership (userId chatId : Uuid)
  | selectBlock (senderId chatId : Uuid)
  | insertMessage (chatId senderId : Uuid) (message : NewMessage)
  | insertStatuses (messageId chatId : Uuid)
  | commit

abbrev TxCmd.Rows : TxCmd → Type
  | begin | insertStatuses .. | commit => Unit
  | selectMembership .. => Option String
  | selectBlock .. => Bool
  | insertMessage .. => ChatMessage

/-- A method of the repository: every statement may fail. -/
abbrev TxTask := ExceptT DomainError (Prog TxCmd (fun c => Except SqlError c.Rows))

/-- `.map_err(DomainError::from_sqlx)?` -/
def query (c : TxCmd) : TxTask c.Rows :=
  ExceptT.mk (Prog.call c (fun r => .ret (r.mapError .fromSqlx)))

def ensureActiveMembership (userId chatId : Uuid) : TxTask String := do
  match ← query (.selectMembership userId chatId) with
  | none => throw ChatStore.notAParticipant
  | some chatType => return chatType

def ensureNotBlockedInPrivateChat (senderId chatId : Uuid) : TxTask Unit := do
  if ← query (.selectBlock senderId chatId) then
    throw (.unauthorized "cannot send messages in blocked private chat")
  else
    return ()

def ensureTextHasContent (message : NewMessage) : TxTask Unit :=
  if message.messageType = "text" ∧
      (message.contentEncrypted.isNone ∨ message.contentIv.isNone) then
    throw (.validation "text messages require content_encrypted and content_iv")
  else
    return ()

/-- The method `send_message` of the repository. -/
def sendMessage (senderId chatId : Uuid) (message : NewMessage) : TxTask ChatMessage := do
  query .begin
  let chatType ← ensureActiveMembership senderId chatId
  (if chatType = "private" then ensureNotBlockedInPrivateChat senderId chatId else return ())
  ensureTextHasContent message
  let inserted ← query (.insertMessage chatId senderId message)
  query (.insertStatuses inserted.id chatId)
  query .commit
  return inserted

/-- The committed tables, and what an open transaction sees. -/
structure Session where
  tables : Tables
  copy : Tables
  now : Timestamp

/-- A fault is an error that the statement reports for no reason of the tables. -/
structure TxChoice where
  fault : Option SqlError
  uuid : Uuid
  now : Timestamp

namespace Session

/-- INSERT INTO messages … RETURNING. The foreign keys are looked at last. -/
def insertMessage (s : Session) (uuid chatId senderId : Uuid) (message : NewMessage) :
    Except SqlError ChatMessage × Session :=
  let m := insertedRow message uuid chatId senderId s.now
  if message.messageType ∉ messageTypes then (.error .other, s)
  else if checkMessage m = false then (.error .checkViolation, s)
  else if h : m.id ∈ s.copy.messages.map ChatMessage.id then (.error .uniqueViolation, s)
  else if chatId ∉ s.copy.chats ∨ senderId ∉ s.copy.users ∨
      ∃ replyToId ∈ message.replyToId, replyToId ∉ s.copy.messages.map ChatMessage.id then
    (.error .foreignKeyViolation, s)
  else (.ok m, { s with copy := s.copy.insertMessage m h })

/-- The users of the new rows are there because they are participants. -/
def insertStatuses (s : Session) (messageId chatId : Uuid) : Except SqlError Unit × Session :=
  if h : messageId ∈ s.copy.messages.map ChatMessage.id then
    (.ok (), { s with copy := s.copy.insertStatuses s.now messageId chatId h })
  else (.error .foreignKeyViolation, s)

/-- `NOW()` is the start of the transaction. -/
def perform (ω : TxChoice) (s : Session) : (c : TxCmd) → Except SqlError c.Rows × Session
  | .begin => (.ok (), { s with copy := s.tables, now := ω.now })
  | .selectMembership userId chatId =>
    (.ok ((s.copy.memberOfLiveChat userId chatId).map (fun row => row.chatType.asDbStr)), s)
  | .selectBlock senderId chatId => (.ok (s.copy.blockedInPrivateChat senderId chatId), s)
  | .insertMessage chatId senderId message => s.insertMessage ω.uuid chatId senderId message
  | .insertStatuses messageId chatId => s.insertStatuses messageId chatId
  | .commit => (.ok (), { s with tables := s.copy })

def exec (ω : TxChoice) (c : TxCmd) (s : Session) : Option (Except SqlError c.Rows × Session) :=
  some (match ω.fault with
    | some e => (.error e, s)
    | none => s.perform ω c)

end Session

/-- What an error leaves as it was, and what holds of a result. -/
def AllOrNothing {α : Type} (old : Tables) (Q : α → Session → Prop) :
    Except DomainError α → Session → Prop
  | .ok a, s => Q a s
  | .error _, s => s.tables = old

section Rules

variable {α : Type} {old : Tables} {s : Session} {Q : α → Session → Prop}
  {userId senderId chatId : Uuid}

theorem wp_throw {e : DomainError} (hs : s.tables = old) :
    (throw e : TxTask α).run.wp Session.exec (AllOrNothing old Q) s := hs

theorem perform_tables (ω : TxChoice) {c : TxCmd} (hc : c ≠ .commit) :
    (s.perform ω c).2.tables = s.tables := by
  cases c with
  | begin | selectMembership | selectBlock => rfl
  | insertMessage =>
    simp only [Session.perform, Session.insertMessage]
    split_ifs <;> rfl
  | insertStatuses =>
    simp only [Session.perform, Session.insertStatuses]
    split_ifs <;> rfl
  | commit => exact absurd rfl hc

/-- Before the commit the tables are as they were. -/
theorem wp_query {c : TxCmd} {f : c.Rows → TxTask α} (hc : c ≠ .commit) (hs : s.tables = old)
    (hok : ∀ ω a s', s.perform ω c = (.ok a, s') → s'.tables = old →
      (f a).run.wp Session.exec (AllOrNothing old Q) s') :
    (query c >>= f).run.wp Session.exec (AllOrNothing old Q) s := by
  intro ω r s' he
  obtain ⟨fault, uuid, now⟩ := ω
  cases fault with
  | some e =>
    cases he
    exact hs
  | none =>
    have hperform : s.perform ⟨none, uuid, now⟩ c = (r, s') := Option.some.inj he
    have hs' : s'.tables = old := by
      have htables := perform_tables (s := s) ⟨none, uuid, now⟩ hc
      rw [hperform] at htables
      exact htables.trans hs
    cases r with
    | error e => exact hs'
    | ok a => exact hok _ a s' hperform hs'

theorem wp_commit {a : α} (hs : s.tables = old) (hQ : Q a { s with tables := s.copy }) :
    (query .commit >>= fun _ => (pure a : TxTask α)).run.wp Session.exec (AllOrNothing old Q) s := by
  intro ω r s' he
  obtain ⟨fault, uuid, now⟩ := ω
  cases fault <;> cases he
  · exact hQ
  · exact hs

theorem wp_ensureActiveMembership {f : String → TxTask α} (hs : s.tables = old)
    (hok : ∀ row, s.copy.memberOfLiveChat userId chatId = some row →
      (f row.chatType.asDbStr).run.wp Session.exec (AllOrNothing old Q) s) :
    (ensureActiveMembership userId chatId >>= f).run.wp Session.exec (AllOrNothing old Q) s := by
  rw [ensureActiveMembership, bind_assoc]
  refine wp_query (by simp) hs fun ω r s' he hs' => ?_
  obtain ⟨hr, rfl⟩ := Prod.mk.inj he
  obtain rfl := Except.ok.inj hr
  cases hrow : s.copy.memberOfLiveChat userId chatId with
  | none => exact hs
  | some row => exact hok row hrow

theorem wp_ensureNotBlockedInPrivateChat {f : Unit → TxTask α} (hs : s.tables = old)
    (hok : s.copy.blockedInPrivateChat senderId chatId = false →
      (f ()).run.wp Session.exec (AllOrNothing old Q) s) :
    (ensureNotBlockedInPrivateChat senderId chatId >>= f).run.wp Session.exec
      (AllOrNothing old Q) s := by
  rw [ensureNotBlockedInPrivateChat, bind_assoc]
  refine wp_query (by simp) hs fun ω r s' he hs' => ?_
  obtain ⟨hr, rfl⟩ := Prod.mk.inj he
  obtain rfl := Except.ok.inj hr
  cases hblocked : s.copy.blockedInPrivateChat senderId chatId with
  | true => exact hs
  | false => exact hok hblocked

theorem wp_ensureTextHasContent {message : NewMessage} {f : Unit → TxTask α}
    (hs : s.tables = old) (hok : (f ()).run.wp Session.exec (AllOrNothing old Q) s) :
    (ensureTextHasContent message >>= f).run.wp Session.exec (AllOrNothing old Q) s := by
  rw [ensureTextHasContent]
  split_ifs
  · exact hs
  · exact hok

end Rules

/-- What a successful call has made of the tables. -/
structure Sent (senderId chatId : Uuid) (message : NewMessage) (old : Tables) (m : ChatMessage)
    (new : Tables) : Prop where
  live : (old.liveChat chatId).isSome
  sender : (old.activeRow chatId senderId).isSome
  message : ∃ id now, m = insertedRow message id chatId senderId now
  messages : new.messages = old.messages ++ [m]
  /-- There was no status of the message before. -/
  fresh : ∀ userId, old.statuses.lookup (m.id, userId) = none
  statuses : ∀ k, new.statuses.lookup k =
    if k.1 = m.id ∧ (old.activeRow chatId k.2).isSome then some ⟨.sent, m.createdAt⟩
    else old.statuses.lookup k
  unblocked : (old.liveChat chatId).map ChatRow.chatType = some .private →
    ∀ userId, (old.activeRow chatId userId).isSome →
      (senderId, userId) ∉ old.blocks ∧ (userId, senderId) ∉ old.blocks
  others : new.toChatStore = { old.toChatStore with
    messages := new.messages, uniqueIds := new.uniqueIds, statuses := new.statuses }

theorem lookup_fresh {db : Tables} {messageId : Uuid} (h : messageId ∉ db.messages.map ChatMessage.id)
    (userId : Uuid) : db.statuses.lookup (messageId, userId) = none :=
  AList.lookup_eq_none.mpr fun hk => h (db.statusMessages _ hk)

theorem not_blocked {db : Tables} {senderId chatId : Uuid}
    (h : db.blockedInPrivateChat senderId chatId = false) (userId : Uuid)
    (hactive : (db.activeRow chatId userId).isSome) :
    (senderId, userId) ∉ db.blocks ∧ (userId, senderId) ∉ db.blocks := by
  by_cases hself : userId = senderId
  · subst hself
    exact ⟨db.noSelfBlock userId, db.noSelfBlock userId⟩
  · rw [← not_or]
    intro hblock
    have hblocked := blockedInPrivateChat_iff.mpr ⟨userId, hactive, hself, hblock⟩
    rw [h] at hblocked
    cases hblocked

theorem asDbStr_eq_private {chatType : ChatType} :
    chatType.asDbStr = "private" ↔ chatType = .private := by
  cases chatType <;> simp [ChatType.asDbStr]

/-- The two INSERTs and the COMMIT. -/
theorem sent_of_inserts {db : Tables} {senderId chatId : Uuid} {message : NewMessage} {row : ChatRow}
    {m : ChatMessage} {now : Timestamp} (hrow : db.memberOfLiveChat senderId chatId = some row)
    (hblocked : row.chatType = .private → db.blockedInPrivateChat senderId chatId = false)
    (hm : ∃ id, m = insertedRow message id chatId senderId now)
    (hfresh : m.id ∉ db.messages.map ChatMessage.id)
    (hmem : m.id ∈ (db.insertMessage m hfresh).messages.map ChatMessage.id) :
    Sent senderId chatId message db m ((db.insertMessage m hfresh).insertStatuses now m.id chatId hmem) := by
  obtain ⟨hlive, hsender⟩ := Option.filter_eq_some_iff.mp hrow
  obtain ⟨id, rfl⟩ := hm
  have hnone := lookup_fresh hfresh
  refine ⟨by simp [hlive], hsender, ⟨id, now, rfl⟩, rfl, hnone, fun k => ?_, ?_, rfl⟩
  · apply lookup_insertStatuses_of_fresh
    exact hnone
  · intro hprivate
    rw [hlive, Option.map_some, Option.some.injEq] at hprivate
    exact not_blocked (hblocked hprivate)

/-- Whatever statement fails and for whatever reason: an error has changed no table, and a
result is exactly one message with a status for each active participant. -/
theorem sendMessage_wp (senderId chatId : Uuid) (message : NewMessage) (s : Session) :
    (sendMessage senderId chatId message).run.wp Session.exec (AllOrNothing s.tables
      fun m s' => Sent senderId chatId message s.tables m s'.tables) s := by
  rw [sendMessage]
  refine wp_query (by simp) rfl ?_
  rintro ω _ s₁ ⟨⟩ -
  refine wp_ensureActiveMembership rfl fun row hrow => ?_
  have hinsert : (row.chatType = .private → s.tables.blockedInPrivateChat senderId chatId = false) →
      (do
        ensureTextHasContent message
        let inserted ← query (.insertMessage chatId senderId message)
        query (.insertStatuses inserted.id chatId)
        query .commit
        return inserted : TxTask ChatMessage).run.wp Session.exec (AllOrNothing s.tables
          fun m s' => Sent senderId chatId message s.tables m s'.tables) ⟨s.tables, s.tables, ω.now⟩ := by
    intro hblocked
    refine wp_ensureTextHasContent rfl (wp_query (by simp) rfl fun ω m s₂ he hs₂ => ?_)
    simp only [Session.perform, Session.insertMessage] at he
    split_ifs at he with htype hcheck hid hforeign <;> cases he
    refine wp_query (by simp) rfl fun ω _ s₃ he hs₃ => ?_
    simp only [Session.perform, Session.insertStatuses] at he
    split_ifs at he with hmem <;> cases he
    exact wp_commit rfl (sent_of_inserts hrow hblocked ⟨_, rfl⟩ hid hmem)
  by_cases hprivate : row.chatType = .private
  · rw [if_pos (asDbStr_eq_private.mpr hprivate)]
    exact wp_ensureNotBlockedInPrivateChat rfl fun hfalse => hinsert fun _ => hfalse
  · rw [if_neg (fun h => hprivate (asDbStr_eq_private.mp h))]
    exact hinsert fun h => absurd h hprivate

/-- Whatever statement fails and for whatever reason, an error has changed no table, and a
result is one message with one status for each active participant. -/
theorem send_message_exact {senderId chatId : Uuid} {message : NewMessage} {ωs : List TxChoice}
    {s s' : Session} {r : Except DomainError ChatMessage}
    (h : (sendMessage senderId chatId message).run.alone Session.exec ωs s = some (r, s')) :
    AllOrNothing s.tables
      (fun m s' => Sent senderId chatId message s.tables m s'.tables) r s' :=
  (sendMessage_wp senderId chatId message s).of_alone h

def alice : Uuid := .ofNat 1

def bob : Uuid := .ofNat 2

def theChat : Uuid := .ofNat 11

/-- Alice and Bob share a private chat without messages. -/
def aliceAndBob : ChatStore :=
  (ChatStore.empty [alice, bob]).withChats
    (({ ChatsDb.empty [alice, bob] with
        chats := (∅ : AList (fun _ : Uuid => ChatRow)).insert theChat
          ⟨.private, none, none, none, some alice, none, 10, none⟩ }.setParticipant theChat alice
      ⟨.member, none, some alice, 10, none⟩).setParticipant theChat bob
      ⟨.member, none, some alice, 10, none⟩)

theorem aliceAndBob_users : ∀ k ∈ aliceAndBob.participants, k.2 ∈ aliceAndBob.users := by
  intro k hk
  obtain rfl | hk := (AList.mem_insert _).mp hk
  · exact List.mem_cons_of_mem _ (List.mem_singleton.mpr rfl)
  · obtain rfl | hk := (AList.mem_insert _).mp hk
    · exact List.mem_cons_self
    · cases hk

def privateChat : Tables where
  toChatStore := aliceAndBob
  participantUsers := aliceAndBob_users
  statusMessages := by
    intro k hk
    cases hk
  noSelfBlock := by
    intro userId h
    cases h

def hello : NewMessage := ⟨some "hello", some "iv", "text", none, false, none⟩

/-- Alice writes to Bob. -/
theorem alice_writes : ∃ s', (sendMessage alice theChat hello).run.alone Session.exec
      (List.replicate 6 ⟨none, .ofNat 12, 12⟩) ⟨privateChat, privateChat, 0⟩ =
        some (.ok (insertedRow hello (.ofNat 12) theChat alice 12), s') ∧
    Sent alice theChat hello privateChat (insertedRow hello (.ofNat 12) theChat alice 12)
      s'.tables := by
  have hresult : ((sendMessage alice theChat hello).run.alone Session.exec
      (List.replicate 6 ⟨none, .ofNat 12, 12⟩) ⟨privateChat, privateChat, 0⟩).map Prod.fst =
        some (.ok (insertedRow hello (.ofNat 12) theChat alice 12)) := rfl
  obtain ⟨⟨r, s'⟩, hrun, rfl⟩ := Option.map_eq_some_iff.mp hresult
  exact ⟨s', hrun, send_message_exact hrun⟩

section Complete

variable {α : Type} {uuid : Uuid} {now : Timestamp} {s s' : Session}

theorem complete_query {c : TxCmd} {f : c.Rows → TxTask α} {a : c.Rows}
    (h : s.perform ⟨none, uuid, now⟩ c = (.ok a, s')) :
    (query c >>= f).run.complete (Session.exec ⟨none, uuid, now⟩) s =
      (f a).run.complete (Session.exec ⟨none, uuid, now⟩) s' := by
  have hexec : Session.exec ⟨none, uuid, now⟩ c s = some (.ok a, s') := congrArg some h
  exact Prog.complete_call hexec

theorem complete_query_error {c : TxCmd} {f : c.Rows → TxTask α} {e : SqlError}
    (h : s.perform ⟨none, uuid, now⟩ c = (.error e, s')) :
    (query c >>= f).run.complete (Session.exec ⟨none, uuid, now⟩) s =
      some (.error (.fromSqlx e), s') := by
  have hexec : Session.exec ⟨none, uuid, now⟩ c s = some (.error e, s') := congrArg some h
  exact Prog.complete_call hexec

variable {senderId chatId : Uuid} {message : NewMessage}

theorem insertMessage_other (s : Session) (htype : message.messageType ∉ messageTypes) :
    s.perform ⟨none, uuid, now⟩ (.insertMessage chatId senderId message) = (.error .other, s) := by
  rw [Session.perform, Session.insertMessage, if_pos htype]

theorem insertMessage_checkViolation (s : Session) (htype : message.messageType ∈ messageTypes)
    (hcheck : checkMessage (insertedRow message uuid chatId senderId s.now) = false) :
    s.perform ⟨none, uuid, now⟩ (.insertMessage chatId senderId message) =
      (.error .checkViolation, s) := by
  rw [Session.perform, Session.insertMessage, if_neg (not_not.mpr htype), if_pos hcheck]

theorem insertMessage_foreignKeyViolation (s : Session)
    (htype : message.messageType ∈ messageTypes)
    (hcheck : checkMessage (insertedRow message uuid chatId senderId s.now) ≠ false)
    (hfresh : (insertedRow message uuid chatId senderId s.now).id ∉
      s.copy.messages.map ChatMessage.id)
    (hreply : ∃ replyToId ∈ message.replyToId, replyToId ∉ s.copy.messages.map ChatMessage.id) :
    s.perform ⟨none, uuid, now⟩ (.insertMessage chatId senderId message) =
      (.error .foreignKeyViolation, s) := by
  rw [Session.perform, Session.insertMessage, if_neg (not_not.mpr htype), if_neg hcheck,
    dif_neg hfresh, if_pos (.inr (.inr hreply))]

theorem insertMessage_ok (s : Session) (htype : message.messageType ∈ messageTypes)
    (hcheck : checkMessage (insertedRow message uuid chatId senderId s.now) ≠ false)
    (hfresh : (insertedRow message uuid chatId senderId s.now).id ∉
      s.copy.messages.map ChatMessage.id)
    (hchat : chatId ∈ s.copy.chats) (hsender : senderId ∈ s.copy.users)
    (hreply : ¬ ∃ replyToId ∈ message.replyToId, replyToId ∉ s.copy.messages.map ChatMessage.id) :
    s.perform ⟨none, uuid, now⟩ (.insertMessage chatId senderId message) =
      (.ok (insertedRow message uuid chatId senderId s.now),
        { s with copy := s.copy.insertMessage _ hfresh }) := by
  rw [Session.perform, Session.insertMessage, if_neg (not_not.mpr htype), if_neg hcheck,
    dif_neg hfresh, if_neg]
  rintro (hno | hno | hno)
  · exact hno hchat
  · exact hno hsender
  · exact hreply hno

theorem insertStatuses_ok (s : Session) {messageId : Uuid}
    (h : messageId ∈ s.copy.messages.map ChatMessage.id) :
    s.perform ⟨none, uuid, now⟩ (.insertStatuses messageId chatId) =
      (.ok (), { s with copy := s.copy.insertStatuses s.now messageId chatId h }) := dif_pos h

theorem references_exist {db : Tables} {row : ChatRow}
    (hrow : db.memberOfLiveChat senderId chatId = some row) :
    chatId ∈ db.chats ∧ senderId ∈ db.users := by
  obtain ⟨hlive, hsender⟩ := Option.filter_eq_some_iff.mp hrow
  obtain ⟨hchat, -⟩ := Option.filter_eq_some_iff.mp hlive
  obtain ⟨part, hpart, -⟩ := activeRow_isSome.mp hsender
  exact ⟨AList.lookup_isSome.mp (Option.isSome_of_mem hchat),
    db.participantUsers _ (AList.lookup_isSome.mp (Option.isSome_of_mem hpart))⟩

/-- When no statement fails for outside reasons, the statements make up the transaction that
the handlers see. -/
theorem sendMessage_complete {ω : StoreChoice}
    {r : Except DomainError ChatMessage} {db' : ChatStore}
    (hfresh : ω.uuid ∉ s.tables.messages.map ChatMessage.id)
    (h : s.tables.toChatStore.sendMessage ω senderId chatId message = some (r, db')) :
    ∃ s', (sendMessage senderId chatId message).run.complete
        (Session.exec ⟨none, ω.uuid, ω.now⟩) s = some (r, s') ∧ s'.tables.toChatStore = db' := by
  rw [sendMessage, complete_query rfl, ensureActiveMembership, bind_assoc, complete_query rfl]
  simp only [ChatStore.sendMessage] at h
  split at h
  · next hrow =>
    cases h
    simp only [hrow]
    exact ⟨_, rfl, rfl⟩
  · next row hrow =>
    obtain ⟨hchat, hsender⟩ := references_exist hrow
    simp only [hrow, Option.map_some, pure_bind, asDbStr_eq_private]
    by_cases hblock : row.chatType = .private ∧ s.tables.blockedInPrivateChat senderId chatId
    · rw [if_pos hblock] at h
      cases h
      rw [if_pos hblock.1, ensureNotBlockedInPrivateChat, bind_assoc, complete_query rfl, hblock.2]
      exact ⟨_, rfl, rfl⟩
    · rw [if_neg hblock] at h
      have hpass : ∀ (f : Unit → TxTask ChatMessage) (now : Timestamp),
          ((if row.chatType = .private then ensureNotBlockedInPrivateChat senderId chatId
            else pure ()) >>= f).run.complete (Session.exec ⟨none, ω.uuid, ω.now⟩)
              ⟨s.tables, s.tables, now⟩ =
          (f ()).run.complete (Session.exec ⟨none, ω.uuid, ω.now⟩) ⟨s.tables, s.tables, now⟩ := by
        intro f now
        by_cases hprivate : row.chatType = .private
        · have hfalse : s.tables.blockedInPrivateChat senderId chatId = false := by
            simpa [hprivate] using hblock
          rw [if_pos hprivate, ensureNotBlockedInPrivateChat, bind_assoc, complete_query rfl, hfalse]
          rfl
        · rw [if_neg hprivate, pure_bind]
      rw [hpass, ensureTextHasContent]
      let s₁ : Session := ⟨s.tables, s.tables, ω.now⟩
      split_ifs at h with htext htype hcheck hreply <;> cases h
      · rw [if_pos htext]
        exact ⟨_, rfl, rfl⟩
      · rw [if_neg htext, pure_bind,
          complete_query_error (insertMessage_checkViolation s₁ htype hcheck)]
        exact ⟨_, rfl, rfl⟩
      · rw [if_neg htext, pure_bind,
          complete_query_error (insertMessage_foreignKeyViolation s₁ htype hcheck hfresh hreply)]
        exact ⟨_, rfl, rfl⟩
      · let s₂ : Session := ⟨s.tables, s.tables.insertMessage (insertedRow message ω.uuid chatId
          senderId ω.now) hfresh, ω.now⟩
        have hmem : ω.uuid ∈ s₂.copy.messages.map ChatMessage.id :=
          List.mem_map.mpr ⟨_, List.mem_append_right _ (List.mem_singleton.mpr rfl), rfl⟩
        rw [if_neg htext, pure_bind]
        have hmessage : s₁.perform ⟨none, ω.uuid, ω.now⟩ (.insertMessage chatId senderId message) =
            (.ok (insertedRow message ω.uuid chatId senderId ω.now), s₂) :=
          insertMessage_ok s₁ htype hcheck hfresh hchat hsender hreply
        have hstatuses : s₂.perform ⟨none, ω.uuid, ω.now⟩ (.insertStatuses ω.uuid chatId) =
            (.ok (), { s₂ with copy := s₂.copy.insertStatuses ω.now ω.uuid chatId hmem }) :=
          insertStatuses_ok s₂ hmem
        exact ⟨_, (complete_query hmessage).trans ((complete_query hstatuses).trans
          (complete_query rfl)), rfl⟩
      · rw [if_neg htext, pure_bind, complete_query_error (insertMessage_other s₁ htype)]
        exact ⟨_, rfl, rfl⟩

end Complete

end Mesty.Chats.Sending
