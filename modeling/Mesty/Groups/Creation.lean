import Mesty.Chats.Ownership
import Mesty.Concurrency.Faults
import Mesty.Groups.Handlers

namespace Mesty.Groups.Creation

open Mesty.Base.Ids Mesty.Base.Error Mesty.Base.Text Mesty.Concurrency.Program
open Mesty.Concurrency.Faults Mesty.Chats Mesty.Chats.Entities Mesty.Chats.Repository Mesty.Chats.Ownership
open Mesty.Groups.Handlers (Response chatToResponse)

/-- The tables under the foreign keys of `chat_participants`. -/
structure Tables extends ChatsDb where
  rooted : Rooted toChatsDb

namespace Tables

def insertChat (db : Tables) (id : Uuid) (row : ChatRow) : Tables where
  toChatsDb := { db.toChatsDb with chats := db.chats.insert id row }
  rooted := by
    intro chatId userId part hpart
    obtain ⟨hchat, huser⟩ := db.rooted chatId userId part hpart
    exact ⟨(AList.mem_insert _).mpr (.inr hchat), huser⟩

def insertParticipant (db : Tables) (chatId userId : Uuid) (row : ParticipantRow)
    (h : chatId ∈ db.chats ∧ userId ∈ db.users) : Tables where
  toChatsDb := db.setParticipant chatId userId row
  rooted := rooted_setParticipant db.rooted h.1 h.2

/-- The users for whom the INSERT from UNNEST adds a row. -/
def newMembers (db : Tables) (chatId creatorId : Uuid) (participantIds : List Uuid) : List Uuid :=
  participantIds.filter (fun userId => userId ≠ creatorId ∧ db.participant chatId userId = none)

def insertMembers (db : Tables) (now : Timestamp) (chatId creatorId : Uuid)
    (participantIds : List Uuid)
    (h : ∀ userId ∈ db.newMembers chatId creatorId participantIds,
      chatId ∈ db.chats ∧ creatorId ∈ db.users ∧ userId ∈ db.users) : Tables where
  toChatsDb := participantIds.foldl (ChatsDb.insertMember now chatId creatorId) db.toChatsDb
  rooted := by
    refine rooted_foldl_insertMember db.rooted fun userId hmem hne hnone => ?_
    obtain ⟨hchat, -, huser⟩ := h userId (by simp [newMembers, hmem, hne, hnone])
    exact ⟨hchat, huser⟩

end Tables

/-- The statements of the method `create_group_chat`. All but the last one go to its
transaction. -/
inductive TxCmd where
  | begin
  | insertChat (name : String) (creatorId : Uuid)
  | insertOwner (chatId creatorId : Uuid)
  | insertMembers (chatId creatorId : Uuid) (participantIds : List Uuid)
  | commit
  | getChatForUser (userId chatId : Uuid)

abbrev TxCmd.Rows : TxCmd → Type
  | begin | insertOwner .. | insertMembers .. | commit => Unit
  | insertChat .. => Uuid
  | getChatForUser .. => Option Chat

/-- A method of the repository: every statement may fail. -/
abbrev TxTask := ExceptT DomainError (Prog TxCmd (fun c => Except SqlError c.Rows))

/-- `.map_err(DomainError::from_sqlx)?` -/
def query (c : TxCmd) : TxTask c.Rows :=
  ExceptT.mk (Prog.call c (fun r => .ret (r.mapError .fromSqlx)))

def okOr {α : Type} (o : Option α) (e : DomainError) : TxTask α :=
  match o with
  | none => throw e
  | some a => pure a

/-- The method `create_group_chat` of the repository. -/
def createGroupChat (creatorId : Uuid) (name : String) (participantIds : List Uuid) :
    TxTask Chat := do
  query .begin
  let chatId ← query (.insertChat name creatorId)
  query (.insertOwner chatId creatorId)
  (if participantIds.isEmpty then return ()
    else query (.insertMembers chatId creatorId participantIds))
  query .commit
  okOr (← query (.getChatForUser creatorId chatId)) (.notFound "chat not found")

/-- The branch of `create_chat` for a group. -/
def createGroup (userId : Uuid) (name : String) (participantIds : List Uuid) :
    TxTask Response := do
  if trim name = "" then
    throw (.validation "group name cannot be empty")
  else
    let chat ← createGroupChat userId (trim name) participantIds
    return ⟨201, .chat (chatToResponse chat)⟩

/-- The committed tables, and what an open transaction sees. -/
structure Session where
  tables : Tables
  copy : Tables
  now : Timestamp

structure TxChoice where
  uuid : Uuid
  now : Timestamp

namespace Session

variable (s : Session)

/-- The id is one that no chat has. -/
def insertChat (uuid : Uuid) (name : String) (creatorId : Uuid) :
    Option (Except SqlError Uuid × Session) :=
  if uuid ∈ s.copy.chats then none
  else if name = "" then some (.error .checkViolation, s)
  else if creatorId ∉ s.copy.users then some (.error .foreignKeyViolation, s)
  else
    let chat : ChatRow := ⟨.group, some name, none, none, some creatorId, none, s.now, none⟩
    some (.ok uuid, { s with copy := s.copy.insertChat uuid chat })

def insertOwner (chatId creatorId : Uuid) : Except SqlError Unit × Session :=
  if s.copy.privateChatFull chatId then (.error .checkViolation, s)
  else if (s.copy.participant chatId creatorId).isSome then (.error .uniqueViolation, s)
  else if h : chatId ∈ s.copy.chats ∧ creatorId ∈ s.copy.users then
    let owner : ParticipantRow := ⟨.owner, none, some creatorId, s.now, none⟩
    (.ok (), { s with copy := s.copy.insertParticipant chatId creatorId owner h })
  else (.error .foreignKeyViolation, s)

/-- The foreign keys are looked at when all rows are there. -/
def insertMembers (chatId creatorId : Uuid) (participantIds : List Uuid) :
    Except SqlError Unit × Session :=
  if s.copy.privateChatFull chatId then (.error .checkViolation, s)
  else if h : ∀ userId ∈ s.copy.newMembers chatId creatorId participantIds,
      chatId ∈ s.copy.chats ∧ creatorId ∈ s.copy.users ∧ userId ∈ s.copy.users then
    (.ok (), { s with copy := s.copy.insertMembers s.now chatId creatorId participantIds h })
  else (.error .foreignKeyViolation, s)

/-- `NOW()` is the start of the transaction. The method reads the chat that it has created
after the COMMIT. -/
def exec (ω : TxChoice) : (c : TxCmd) → Session → Option (Except SqlError c.Rows × Session)
  | .begin, s => some (.ok (), { s with copy := s.tables, now := ω.now })
  | .insertChat name creatorId, s => s.insertChat ω.uuid name creatorId
  | .insertOwner chatId creatorId, s => some (s.insertOwner chatId creatorId)
  | .insertMembers chatId creatorId participantIds, s =>
    some (s.insertMembers chatId creatorId participantIds)
  | .commit, s => some (.ok (), { s with tables := s.copy })
  | .getChatForUser userId chatId, s =>
    some (.ok ((s.tables.liveChat chatId).bind (fun row =>
      (s.tables.activeRow chatId userId).map (fun _ => row.toChat chatId))), s)

end Session

/-- The row of a new group. -/
abbrev groupRow (name : String) (creatorId : Uuid) (now : Timestamp) : ChatRow :=
  ⟨.group, some name, none, none, some creatorId, none, now, none⟩

/-- What a group can be made of. -/
structure Valid (db : ChatsDb) (creatorId : Uuid) (name : String) (participantIds : List Uuid) :
    Prop where
  named : name ≠ ""
  creator : creatorId ∈ db.users
  participants : ∀ userId ∈ participantIds, userId ∈ db.users

/-- There is one chat more, with one active participant for each of its users, and nothing else
has changed. -/
structure Created (creatorId : Uuid) (name : String) (participantIds : List Uuid) (chat : Chat)
    (db db' : ChatsDb) : Prop where
  fresh : chat.id ∉ db.chats
  answer : chat = ⟨chat.id, .group, some name, none, none, some creatorId, chat.createdAt⟩
  chats : db'.chats = db.chats.insert chat.id (groupRow name creatorId chat.createdAt)
  owner : db'.participant chat.id creatorId =
    some ⟨.owner, none, some creatorId, chat.createdAt, none⟩
  members : ∀ userId ∈ participantIds, userId ≠ creatorId →
    db'.participant chat.id userId = some ⟨.member, none, some creatorId, chat.createdAt, none⟩
  nobodyElse : ∀ userId, userId ≠ creatorId → userId ∉ participantIds →
    db'.participant chat.id userId = none
  others : ∀ chatId userId, chatId ≠ chat.id →
    db'.participant chatId userId = db.participant chatId userId
  tables : db' = { db with chats := db'.chats, participants := db'.participants }

/-- What a call is to do. -/
def Outcome (creatorId : Uuid) (name : String) (participantIds : List Uuid) (db : ChatsDb)
    (out : Except DomainError Chat) (db' : ChatsDb) : Prop :=
  (Valid db creatorId name participantIds →
    ∃ chat, out = .ok chat ∧ Created creatorId name participantIds chat db db') ∧
  (¬ Valid db creatorId name participantIds → (∃ e, out = .error e) ∧ db' = db)

/-- The group is there, or nothing has changed. -/
def AllOrNothing (creatorId : Uuid) (name : String) (participantIds : List Uuid)
    (db db' : ChatsDb) : Prop :=
  db' = db ∨ ∃ chat, Created creatorId name participantIds chat db db'

section Tables

variable {db : ChatsDb} {chatId creatorId : Uuid} {name : String} {participantIds : List Uuid}
  {now : Timestamp}

/-- The tables after the three INSERTs. -/
def withGroup (db : ChatsDb) (now : Timestamp) (chatId creatorId : Uuid) (name : String)
    (participantIds : List Uuid) : ChatsDb :=
  let db' := { db with chats := db.chats.insert chatId (groupRow name creatorId now) }
  participantIds.foldl (ChatsDb.insertMember now chatId creatorId)
    (db'.setParticipant chatId creatorId ⟨.owner, none, some creatorId, now, none⟩)

theorem participant_fresh (hrooted : Rooted db) (hfresh : chatId ∉ db.chats) (userId : Uuid) :
    db.participant chatId userId = none := by
  cases h : db.participant chatId userId with
  | none => rfl
  | some row => exact absurd (hrooted chatId userId row h).1 hfresh

theorem created_withGroup (now : Timestamp) (creatorId : Uuid) (name : String)
    (participantIds : List Uuid) (hrooted : Rooted db) (hfresh : chatId ∉ db.chats) :
    Created creatorId name participantIds
      ⟨chatId, .group, some name, none, none, some creatorId, now⟩ db
      (withGroup db now chatId creatorId name participantIds) where
  fresh := hfresh
  answer := rfl
  chats := by
    rw [withGroup, foldl_insertMember_eq]
    rfl
  owner := by
    rw [withGroup, participant_foldl_insertMember, participant_setParticipant_self]
    rfl
  members := by
    intro userId hmem hne
    rw [withGroup, participant_foldl_insertMember, if_pos ⟨rfl, hne, hmem⟩,
      participant_setParticipant_ne fun h => hne h.2]
    exact congrArg (Option.or · _) (participant_fresh hrooted hfresh userId)
  nobodyElse := by
    intro userId hne hno
    rw [withGroup, participant_foldl_insertMember, if_neg fun h => hno h.2.2,
      participant_setParticipant_ne fun h => hne h.2, Option.or_none]
    exact participant_fresh hrooted hfresh userId
  others := by
    intro chatId' userId hne
    rw [withGroup, participant_foldl_insertMember, if_neg fun h => hne h.1,
      participant_setParticipant_ne fun h => hne h.1, Option.or_none]
    rfl
  tables := by
    rw [withGroup, foldl_insertMember_eq]
    rfl

/-- The creator finds the chat as it has been made. -/
theorem getChatForUser_withGroup (hrooted : Rooted db) (hfresh : chatId ∉ db.chats) :
    ((withGroup db now chatId creatorId name participantIds).liveChat chatId).bind (fun row =>
      ((withGroup db now chatId creatorId name participantIds).activeRow chatId creatorId).map
        (fun _ => row.toChat chatId)) =
      some ⟨chatId, .group, some name, none, none, some creatorId, now⟩ := by
  have hcreated := created_withGroup now creatorId name participantIds hrooted hfresh
  have hlive : (withGroup db now chatId creatorId name participantIds).liveChat chatId =
      some (groupRow name creatorId now) := by
    rw [ChatsDb.liveChat, hcreated.chats, AList.lookup_insert]
    rfl
  have hactive : (withGroup db now chatId creatorId name participantIds).activeRow chatId
      creatorId = some ⟨.owner, none, some creatorId, now, none⟩ := by
    rw [ChatsDb.activeRow, hcreated.owner]
    rfl
  rw [hlive, Option.bind_some, hactive, Option.map_some]
  rfl

end Tables

section Statements

variable {α : Type} {s : Session} {J : Session → Prop} {Q : Except DomainError α → Session → Prop}
  {uuid chatId creatorId : Uuid} {name : String} {participantIds : List Uuid}

theorem passes_query {c : TxCmd} {f : c.Rows → TxTask α} (hJ : J s)
    (hok : ∀ ω a s', Session.exec ω c s = some (.ok a, s') → Passes Session.exec J Q (f a).run s')
    (herror : ∀ ω e s', Session.exec ω c s = some (.error e, s') →
      J s' ∧ Q (.error (.fromSqlx e)) s') :
    Passes Session.exec J Q (query c >>= f).run s := by
  refine ⟨hJ, fun ω r s' he => ?_⟩
  cases r with
  | ok a => exact hok ω a s' he
  | error e => exact herror ω e s' he

theorem insertChat_cases {r : Except SqlError Uuid} {s' : Session}
    (h : s.insertChat uuid name creatorId = some (r, s')) :
    ((∃ e, r = .error e) ∧ s' = s ∧ (name = "" ∨ creatorId ∉ s.copy.users)) ∨
      (r = .ok uuid ∧ uuid ∉ s.copy.chats ∧ name ≠ "" ∧ creatorId ∈ s.copy.users) ∧
        ∃ copy : Tables, s' = { s with copy := copy } ∧
          copy.toChatsDb = { s.copy.toChatsDb with
            chats := s.copy.chats.insert uuid (groupRow name creatorId s.now) } := by
  rw [Session.insertChat] at h
  split_ifs at h with hfresh hname hcreator <;> cases h
  · exact .inl ⟨⟨_, rfl⟩, rfl, .inl hname⟩
  · exact .inr ⟨⟨rfl, hfresh, hname, hcreator⟩, _, rfl, rfl⟩
  · exact .inl ⟨⟨_, rfl⟩, rfl, .inr hcreator⟩

/-- A group has no limit on its participants. -/
theorem privateChatFull_of_group {db : ChatsDb} {chat : ChatRow}
    (h : db.chats.lookup chatId = some chat) (htype : chat.chatType = .group) :
    db.privateChatFull chatId = false := by
  simp [ChatsDb.privateChatFull, h, htype]

theorem insertOwner_ok {chat : ChatRow} (hchat : s.copy.chats.lookup chatId = some chat)
    (htype : chat.chatType = .group) (hnone : s.copy.participant chatId creatorId = none)
    (hcreator : creatorId ∈ s.copy.users) :
    ∃ copy : Tables, s.insertOwner chatId creatorId = (.ok (), { s with copy := copy }) ∧
      copy.toChatsDb = s.copy.setParticipant chatId creatorId
        ⟨.owner, none, some creatorId, s.now, none⟩ := by
  have hmem : chatId ∈ s.copy.chats := AList.lookup_isSome.mp (Option.isSome_of_mem hchat)
  refine ⟨s.copy.insertParticipant chatId creatorId ⟨.owner, none, some creatorId, s.now, none⟩
    ⟨hmem, hcreator⟩, ?_, rfl⟩
  rw [Session.insertOwner, privateChatFull_of_group hchat htype, if_neg Bool.false_ne_true, hnone,
    Option.isSome_none, if_neg Bool.false_ne_true, dif_pos ⟨hmem, hcreator⟩]

/-- The rows that the INSERT from UNNEST adds are those of the listed users other than the
creator, who must be there. -/
theorem insertMembers_cases {chat : ChatRow} (participantIds : List Uuid)
    (hchat : s.copy.chats.lookup chatId = some chat) (htype : chat.chatType = .group)
    (hcreator : creatorId ∈ s.copy.users)
    (hnone : ∀ userId, userId ≠ creatorId → s.copy.participant chatId userId = none) :
    ((∃ e, s.insertMembers chatId creatorId participantIds = (.error e, s)) ∧
        ∃ userId ∈ participantIds, userId ∉ s.copy.users) ∨
      (∀ userId ∈ participantIds, userId ∈ s.copy.users) ∧
        ∃ copy : Tables, s.insertMembers chatId creatorId participantIds =
            (.ok (), { s with copy := copy }) ∧
          copy.toChatsDb = participantIds.foldl (ChatsDb.insertMember s.now chatId creatorId)
            s.copy.toChatsDb := by
  have hmem : chatId ∈ s.copy.chats := AList.lookup_isSome.mp (Option.isSome_of_mem hchat)
  have hnew : ∀ userId, userId ∈ s.copy.newMembers chatId creatorId participantIds ↔
      userId ∈ participantIds ∧ userId ≠ creatorId := by
    intro userId
    rw [Tables.newMembers, List.mem_filter, decide_eq_true_iff]
    exact ⟨fun h => ⟨h.1, h.2.1⟩, fun h => ⟨h.1, h.2, hnone userId h.2⟩⟩
  rw [Session.insertMembers, privateChatFull_of_group hchat htype, if_neg Bool.false_ne_true]
  split_ifs with hkeys
  · refine .inr ⟨fun userId hlisted => ?_, _, rfl, rfl⟩
    by_cases hself : userId = creatorId
    · exact hself ▸ hcreator
    · exact (hkeys userId ((hnew userId).mpr ⟨hlisted, hself⟩)).2.2
  · push Not at hkeys
    obtain ⟨userId, hadded, hunknown⟩ := hkeys
    exact .inl ⟨⟨_, rfl⟩, userId, ((hnew userId).mp hadded).1, hunknown hmem hcreator⟩

end Statements

section Calls

variable {db : Tables} {s : Session} {now : Timestamp} {chatId creatorId : Uuid} {name : String}
  {participantIds : List Uuid}

/-- The property of each state that a call passes, and the one of its end. -/
abbrev Lawful (db : ChatsDb) (creatorId : Uuid) (name : String) (participantIds : List Uuid)
    (call : TxTask Chat) (s : Session) : Prop :=
  Passes Session.exec
    (fun s' => AllOrNothing creatorId name participantIds db s'.tables.toChatsDb)
    (fun out s' => Outcome creatorId name participantIds db out s'.tables.toChatsDb) call.run s

/-- An error before the COMMIT, for a reason. -/
theorem refused (hs : s.tables = db) (hinvalid : ¬ Valid db.toChatsDb creatorId name participantIds)
    (e : DomainError) :
    AllOrNothing creatorId name participantIds db.toChatsDb s.tables.toChatsDb ∧
      Outcome creatorId name participantIds db.toChatsDb (.error e) s.tables.toChatsDb := by
  subst hs
  exact ⟨.inl rfl, fun hvalid => absurd hvalid hinvalid, fun _ => ⟨⟨e, rfl⟩, rfl⟩⟩

/-- The COMMIT and what follows it. -/
theorem lawful_commit (hs : s.tables = db) (hfresh : chatId ∉ db.chats)
    (hvalid : Valid db.toChatsDb creatorId name participantIds)
    (hcopy : s.copy.toChatsDb = withGroup db.toChatsDb now chatId creatorId name participantIds) :
    Lawful db.toChatsDb creatorId name participantIds (do
      query .commit
      okOr (← query (.getChatForUser creatorId chatId)) (.notFound "chat not found")) s := by
  have hcreated := created_withGroup now creatorId name participantIds db.rooted hfresh
  refine passes_query (.inl (congrArg _ hs)) ?_ (by rintro ω e s' ⟨⟩)
  rintro ω _ s' ⟨⟩
  have hdone : AllOrNothing creatorId name participantIds db.toChatsDb s.copy.toChatsDb :=
    .inr ⟨_, hcopy ▸ hcreated⟩
  refine passes_query hdone ?_ (by rintro ω e s' ⟨⟩)
  intro ω a s' he
  rw [Session.exec, hcopy, getChatForUser_withGroup db.rooted hfresh] at he
  cases he
  exact ⟨hdone, fun _ => ⟨_, rfl, hcopy ▸ hcreated⟩, fun hinvalid => absurd hvalid hinvalid⟩

/-- The rows of the listed users and the COMMIT. -/
theorem lawful_members (hs : s.tables = db) (hfresh : chatId ∉ db.chats) (hname : name ≠ "")
    (hcreator : creatorId ∈ db.users) (hnow : s.now = now)
    (hcopy : s.copy.toChatsDb = withGroup db.toChatsDb now chatId creatorId name []) :
    Lawful db.toChatsDb creatorId name participantIds (do
      (if participantIds.isEmpty then return ()
        else query (.insertMembers chatId creatorId participantIds))
      query .commit
      okOr (← query (.getChatForUser creatorId chatId)) (.notFound "chat not found")) s := by
  have hcreated := created_withGroup now creatorId name [] db.rooted hfresh
  split_ifs with hempty
  · rw [List.isEmpty_iff] at hempty
    subst hempty
    rw [pure_bind]
    exact lawful_commit hs hfresh ⟨hname, hcreator, List.forall_mem_nil _⟩ hcopy
  have hchat : s.copy.chats.lookup chatId = some (groupRow name creatorId now) := by
    rw [hcopy, hcreated.chats, AList.lookup_insert]
  have hnone : ∀ userId, userId ≠ creatorId → s.copy.participant chatId userId = none := by
    intro userId hne
    rw [hcopy]
    exact hcreated.nobodyElse userId hne List.not_mem_nil
  have husers : s.copy.users = db.users := by rw [hcopy, withGroup]; rfl
  have hcases := insertMembers_cases participantIds hchat rfl
    (husers ▸ hcreator) hnone
  refine passes_query (.inl (congrArg _ hs)) ?_ ?_
  · intro ω _ s' he
    obtain ⟨⟨e, herror⟩, -⟩ | ⟨hmembers, copy, hok, hrows⟩ := hcases
    · rw [Session.exec, herror] at he
      cases he
    · rw [Session.exec, hok] at he
      cases he
      have hgroup : copy.toChatsDb =
          withGroup db.toChatsDb now chatId creatorId name participantIds := by
        rw [hrows, hcopy, hnow]
        rfl
      exact lawful_commit hs hfresh ⟨hname, hcreator, husers ▸ hmembers⟩ hgroup
  · intro ω e s' he
    obtain ⟨⟨e', herror⟩, userId, hlisted, hunknown⟩ | ⟨-, copy, hok, -⟩ := hcases
    · rw [Session.exec, herror] at he
      cases he
      exact refused hs (fun hvalid => hunknown (husers ▸ hvalid.participants userId hlisted)) _
    · rw [Session.exec, hok] at he
      cases he

theorem createGroupChat_lawful (creatorId : Uuid) (name : String) (participantIds : List Uuid)
    (s : Session) : Lawful s.tables.toChatsDb creatorId name participantIds
      (createGroupChat creatorId name participantIds) s := by
  rw [createGroupChat]
  refine passes_query (.inl rfl) ?_ (by rintro ω e s' ⟨⟩)
  rintro ω _ s₁ ⟨⟩
  refine passes_query (.inl rfl) ?_ ?_
  · intro ω' chatId s₂ he
    obtain ⟨⟨e, he⟩, -⟩ | ⟨⟨hid, hfresh, hname, hcreator⟩, copy, rfl, hcopy⟩ := insertChat_cases he
    · cases he
    obtain rfl := Except.ok.inj hid
    have hchat : copy.chats.lookup ω'.uuid = some (groupRow name creatorId ω.now) := by
      rw [hcopy, AList.lookup_insert]
    have hnone : copy.participant ω'.uuid creatorId = none := by
      rw [hcopy]
      exact participant_fresh s.tables.rooted hfresh creatorId
    obtain ⟨copy', hok, hcopy'⟩ := insertOwner_ok (s := ⟨s.tables, copy, ω.now⟩) hchat rfl hnone
      (by rw [hcopy]; exact hcreator)
    refine passes_query (.inl rfl) ?_ ?_
    · intro ω'' _ s₃ he
      rw [Session.exec, hok] at he
      cases he
      refine lawful_members rfl hfresh hname hcreator rfl (hcopy'.trans ?_)
      rw [hcopy]
      rfl
    · intro ω'' e s₃ he
      rw [Session.exec, hok] at he
      cases he
  · intro ω' e s₂ he
    obtain ⟨-, rfl, hreason⟩ | ⟨⟨hid, -⟩, -⟩ := insertChat_cases he
    · exact refused rfl (fun hvalid => hreason.elim hvalid.named (· hvalid.creator)) _
    · cases hid

theorem query_answered {ω : TxChoice} {c : TxCmd} (h : ∀ s, (Session.exec ω c s).isSome) :
    (query c).run.Issues (fun c => ∀ s, (Session.exec ω c s).isSome) :=
  ⟨h, fun _ => trivial⟩

/-- Only the id of a chat that is there is refused. -/
theorem createGroupChat_answered {ω : TxChoice} (hfresh : ω.uuid ∉ s.tables.chats) :
    ((createGroupChat creatorId name participantIds).run.complete (Session.exec ω) s).isSome := by
  let s₁ : Session := ⟨s.tables, s.tables, ω.now⟩
  have hbegin : Session.exec ω .begin s = some (.ok (), s₁) := rfl
  have hinsert : (Session.exec ω (.insertChat name creatorId) s₁).isSome := by
    rw [Session.exec, Session.insertChat, if_neg hfresh]
    split_ifs <;> rfl
  obtain ⟨⟨r, s₂⟩, hr⟩ := Option.isSome_iff_exists.mp hinsert
  refine (congrArg Option.isSome ((Prog.complete_call hbegin).trans
    (Prog.complete_call hr))).trans (Prog.isSome_complete ?_ s₂)
  cases r with
  | error e => trivial
  | ok chatId =>
    refine (query_answered fun s => rfl).tryBind fun _ => ?_
    have hmembers : (if participantIds.isEmpty then (return () : TxTask Unit)
        else query (.insertMembers chatId creatorId participantIds)).run.Issues
          (fun c => ∀ s, (Session.exec ω c s).isSome) := by
      split_ifs
      · trivial
      · exact query_answered fun s => rfl
    refine hmembers.tryBind fun _ => ?_
    refine (query_answered fun s => rfl).tryBind fun _ => ?_
    refine (query_answered fun s => rfl).tryBind fun chat => ?_
    cases chat <;> trivial

/-- What the handler is to do, which trims the name. -/
def Answer (creatorId : Uuid) (name : String) (participantIds : List Uuid) (db : ChatsDb)
    (out : Except DomainError Response) (db' : ChatsDb) : Prop :=
  (Valid db creatorId (trim name) participantIds →
    ∃ chat, out = .ok ⟨201, .chat (chatToResponse chat)⟩ ∧
      Created creatorId (trim name) participantIds chat db db') ∧
  (¬ Valid db creatorId (trim name) participantIds → (∃ e, out = .error e) ∧ db' = db)

theorem createGroup_answer (creatorId : Uuid) (name : String) (participantIds : List Uuid)
    (s : Session) : (createGroup creatorId name participantIds).run.wp Session.exec
      (fun out s' => Answer creatorId name participantIds s.tables.toChatsDb out
        s'.tables.toChatsDb) s := by
  rw [createGroup]
  split_ifs with hname
  · exact ⟨fun hvalid => absurd hname hvalid.named, fun _ => ⟨⟨_, rfl⟩, rfl⟩⟩
  · refine Prog.wp_run_bind.mpr ((createGroupChat_lawful creatorId (trim name) participantIds
      s).wp.mono fun out s' houtcome => ?_)
    obtain ⟨hvalid, hinvalid⟩ := houtcome
    cases out with
    | ok chat =>
      refine ⟨fun h => ?_, fun h => ?_⟩
      · obtain ⟨_, ⟨⟩, hcreated⟩ := hvalid h
        exact ⟨chat, rfl, hcreated⟩
      · obtain ⟨⟨e, ⟨⟩⟩, -⟩ := hinvalid h
    | error e =>
      refine ⟨fun h => ?_, fun h => ⟨⟨e, rfl⟩, (hinvalid h).2⟩⟩
      obtain ⟨_, ⟨⟩, -⟩ := hvalid h

end Calls

/-- The command that stands for the whole transaction elsewhere does the same. -/
theorem command_outcome {db : ChatsDb} (hrooted : Rooted db) (creatorId : Uuid) (name : String)
    (participantIds : List Uuid) :
    (Participants.createGroupChat creatorId name participantIds).run.wp ChatsDb.exec
      (Outcome creatorId name participantIds db) db := by
  intro ω r db' he
  have he : db.createGroupChat ω creatorId name participantIds = some (r, db') := he
  rw [ChatsDb.createGroupChat] at he
  split_ifs at he with hfresh hname hkeys <;> cases he
  · exact ⟨fun hvalid => absurd hname hvalid.named, fun _ => ⟨⟨_, rfl⟩, rfl⟩⟩
  · refine ⟨fun hvalid => ?_, fun _ => ⟨⟨_, rfl⟩, rfl⟩⟩
    obtain hcreator | ⟨userId, hlisted, hunknown⟩ := hkeys
    · exact absurd hvalid.creator hcreator
    · exact absurd (hvalid.participants userId hlisted) hunknown
  · simp only [not_or, not_not, not_exists, not_and] at hkeys
    rintro ω' r _ he
    have hread : r = some ⟨ω.uuid, .group, some name, none, none, some creatorId, ω.now⟩ :=
      (Prod.mk.inj (Option.some.inj he)).1.symm.trans (getChatForUser_withGroup hrooted hfresh)
    obtain rfl := (Prod.mk.inj (Option.some.inj he)).2
    subst hread
    exact ⟨fun _ => ⟨_, rfl, created_withGroup ω.now creatorId name participantIds hrooted hfresh⟩,
      fun hinvalid => absurd ⟨hname, hkeys.1, hkeys.2⟩ hinvalid⟩

/-- What the method makes of a failed call. -/
def onFault (_ : TxCmd) (e : SqlError) : DomainError := .fromSqlx e

/-- Every call with a name and known users creates the group with exactly these users, and every
other call fails and changes nothing, and so do the calls of the handler. Where calls to the
database fail there is either the whole group or no change. -/
theorem group_created_exactly (creatorId : Uuid) (name : String) (participantIds : List Uuid)
    (s : Session) :
    ((createGroupChat creatorId name participantIds).run.wp Session.exec
        (fun out s' => Outcome creatorId name participantIds s.tables.toChatsDb out
          s'.tables.toChatsDb) s ∧
      ∀ ω, ω.uuid ∉ s.tables.chats →
        ((createGroupChat creatorId name participantIds).run.complete (Session.exec ω) s).isSome) ∧
    (createGroup creatorId name participantIds).run.wp Session.exec
      (fun out s' => Answer creatorId name participantIds s.tables.toChatsDb out
        s'.tables.toChatsDb) s ∧
    (failing onFault (createGroupChat creatorId name participantIds).run).wp
      (faulty Session.exec) (fun _ s' => AllOrNothing creatorId name participantIds
        s.tables.toChatsDb s'.tables.toChatsDb) s := by
  have hlawful := createGroupChat_lawful creatorId name participantIds s
  refine ⟨⟨hlawful.wp, fun ω => createGroupChat_answered⟩, ?_, hlawful.failing⟩
  exact createGroup_answer creatorId name participantIds s

end Mesty.Groups.Creation
