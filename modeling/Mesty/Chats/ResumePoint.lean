import Mesty.Chats.Listing

namespace Mesty.Chats.ResumePoint

open Mesty.Base.Ids Mesty.Base.Error Mesty.Chats.Entities Mesty.Chats.Messages Mesty.Chats.Store
open Mesty.Paging.Keyset Mesty.Paging.LookAhead
open Mesty.Chats.Listing

/-- A row of `v_chat_previews` with the count of unread messages. -/
structure PreviewRow where
  chatId : Uuid
  type : ChatType
  name : Option String
  avatarUrl : Option String
  lastMessageId : Option Uuid
  lastMessageEncrypted : Option String
  lastSenderId : Option Uuid
  lastMessageAt : Option Timestamp
  isPinned : Option Bool
  pinOrder : Option Int32
  isMuted : Option Bool
  isArchived : Option Bool
  unreadCount : Option Nat

namespace PreviewRow

/-- The columns of the SELECT. -/
def preview (v : PreviewRow) : ChatPreview where
  chatId := v.chatId
  chatType := v.type
  name := v.name
  avatarUrl := v.avatarUrl
  lastMessageId := v.lastMessageId
  lastMessageEncrypted := v.lastMessageEncrypted
  lastSenderId := v.lastSenderId
  lastMessageAt := v.lastMessageAt
  isPinned := v.isPinned.getD false
  pinOrder := v.pinOrder.getD 0
  isMuted := v.isMuted.getD false
  isArchived := v.isArchived.getD false
  unreadCount := v.unreadCount.getD 0

def parse (v : PreviewRow) : Except DomainError ChatPreview :=
  match ChatType.fromDbStr v.type.asDbStr with
  | none => .error (.internal ("invalid chat type in preview: " ++ v.type.asDbStr))
  | some parsedType => .ok { v.preview with chatType := parsedType }

/-- `COALESCE(v.is_pinned, false)::int` -/
def pinned (v : PreviewRow) : Int := if v.isPinned.getD false then 1 else 0

/-- `COALESCE(v.last_message_at, 'epoch'::timestamptz)` -/
def activeAt (v : PreviewRow) : Timestamp := v.lastMessageAt.getD 0

/-- The condition on the cursor. -/
def qualifies (v : PreviewRow) (hasCursor : Bool) (cursorPinned : Int)
    (cursorLastMessageAt : Option Timestamp) (cursorChatId : Uuid) : Bool :=
  hasCursor = false ∨
    (v.pinned < cursorPinned ∨
      (v.pinned = cursorPinned ∧ v.activeAt < cursorLastMessageAt.getD 0) ∨
      (v.pinned = cursorPinned ∧ v.activeAt = cursorLastMessageAt.getD 0 ∧ v.chatId < cursorChatId))

/-- `ORDER BY` three columns, each `DESC`. -/
def order (v : PreviewRow) : (Bool ×ₗ Int ×ₗ Uuid)ᵒᵈ :=
  OrderDual.toDual (toLex (v.isPinned.getD false, toLex (v.activeAt, v.chatId)))

end PreviewRow

/-- The repository method on the rows of the user. -/
def listChatsForUser (rows : List PreviewRow) (cursor : Option ChatCursor) (limit : Int) :
    Except DomainError (List ChatPreview) :=
  let pageSize := clamp limit 50
  let hasCursor := cursor.isSome
  let cursorPinned := cursor.elim false ChatCursor.isPinned
  let cursorLastMessageAt := cursor.bind ChatCursor.lastMessageAt
  let cursorChatId := cursor.map ChatCursor.chatId
  ((sortBy PreviewRow.order (rows.filter (fun v => v.qualifies hasCursor
    (if cursorPinned then 1 else 0) cursorLastMessageAt (cursorChatId.getD .nil)))).take
      pageSize.toNat).mapM PreviewRow.parse

def decodeCursor (codec : Codec ChatCursor) (raw : Option String) :
    Except ApiError (Option ChatCursor) :=
  codec.read chatCursorErrors raw

def buildCursor (codec : Codec ChatCursor) (item : ChatPreview) : Except ApiError String :=
  codec.write chatCursorErrors item.cursor

section Query

variable {rows : List PreviewRow} {v : PreviewRow}

theorem parse_eq (v : PreviewRow) : v.parse = .ok v.preview := by
  rw [PreviewRow.parse, ChatType.fromDbStr_asDbStr]
  rfl

/-- The three cases of the condition are the order of the list. -/
theorem qualifies_cursor (c : ChatCursor) :
    v.qualifies true (if c.isPinned then 1 else 0) c.lastMessageAt c.chatId = true ↔
      c.rank < v.order := by
  have hpinned (b b' : Bool) : ((if b then 1 else 0 : Int) < if b' then 1 else 0) ↔ b < b' := by
    cases b <;> cases b' <;> decide
  have hsame (b b' : Bool) : ((if b then 1 else 0 : Int) = if b' then 1 else 0) ↔ b = b' := by
    cases b <;> cases b' <;> decide
  rw [ChatCursor.rank, PreviewRow.order, OrderDual.toDual_lt_toDual, Prod.Lex.toLex_lt_toLex,
    Prod.Lex.toLex_lt_toLex, PreviewRow.qualifies, PreviewRow.pinned, decide_eq_true_eq, hpinned,
    hsame, ← and_or_left]
  exact or_iff_right Bool.true_eq_false.mp

theorem listChatsForUser_eq (cursor : Option ChatCursor) (limit : Int) :
    listChatsForUser rows cursor limit = .ok (select ChatPreview.rank (cursor.map ChatCursor.rank)
      (clamp limit 50).toNat (rows.map PreviewRow.preview)) := by
  have hfilter : (fun v : PreviewRow => v.qualifies cursor.isSome
      (if cursor.elim false ChatCursor.isPinned then 1 else 0) (cursor.bind ChatCursor.lastMessageAt)
      ((cursor.map ChatCursor.chatId).getD .nil)) =
        fun v => decide (∀ k ∈ cursor.map ChatCursor.rank, k < v.order) := by
    funext v
    cases cursor with
    | none => simp [PreviewRow.qualifies]
    | some c =>
      rw [Bool.eq_iff_iff, decide_eq_true_eq]
      exact (qualifies_cursor c).trans (by simp)
  rw [select_map, listChatsForUser, hfilter]
  exact mapM_ok fun v _ => parse_eq v

end Query

section Tables

variable (db : ChatStore) (userId : Uuid)

/-- The row of the view without the defaults of the query. -/
def viewRow (chatId : Uuid) (row : ChatRow) : PreviewRow :=
  let last := lastMessage db chatId
  let settings := db.settings.lookup (userId, chatId)
  { chatId := chatId
    type := row.chatType
    name := row.name
    avatarUrl := row.avatarUrl
    lastMessageId := last.map ChatMessage.id
    lastMessageEncrypted := last.bind ChatMessage.contentEncrypted
    lastSenderId := last.bind ChatMessage.senderId
    lastMessageAt := last.map ChatMessage.createdAt
    isPinned := settings.map ChatSettings.isPinned
    pinOrder := settings.map ChatSettings.pinOrder
    isMuted := settings.map ChatSettings.isMuted
    isArchived := settings.map ChatSettings.isArchived
    unreadCount := some (unreadCount db userId chatId) }

def viewRows : List PreviewRow :=
  db.participants.entries.filterMap (fun e =>
    if e.1.2 = userId ∧ e.2.leftAt = none then
      (db.liveChat e.1.1).map (viewRow db userId e.1.1)
    else none)

variable {db userId}

theorem preview_viewRow (chatId : Uuid) (row : ChatRow) :
    (viewRow db userId chatId row).preview = chatPreview db userId chatId row := by
  rw [viewRow, chatPreview]
  cases db.settings.lookup (userId, chatId) <;> rfl

theorem preview_viewRows : (viewRows db userId).map PreviewRow.preview = chatPreviews db userId := by
  rw [viewRows, chatPreviews, List.map_filterMap]
  refine List.filterMap_congr fun e _ => ?_
  rw [apply_ite (Option.map PreviewRow.preview), Option.map_map]
  simp only [Function.comp_def, preview_viewRow, Option.map_none]

/-- The list of chats that the handler reads its pages from. -/
theorem listChatsForUser_viewRows (cursor : Option ChatCursor) (limit : Int) :
    listChatsForUser (viewRows db userId) cursor limit =
      Listing.listChatsForUser db userId cursor limit := by
  rw [listChatsForUser_eq, preview_viewRows]
  rfl

theorem viewRows_nodup : ((viewRows db userId).map PreviewRow.chatId).Nodup := by
  have hids := chatIds_nodup db userId
  rwa [← preview_viewRows, List.map_map] at hids

end Tables

/-- The first `n` previews after `r` in the order of the list. -/
def FirstAfter (previews : List ChatPreview) (r : ChatPreview) (n : Nat) (page : List ChatPreview) :
    Prop :=
  ∃ earlier later, sortBy ChatPreview.rank previews = earlier ++ r :: later ∧ page = later.take n

/-- The cursor that is built from a preview stands for the place right after it in the list, and no
cursor for its beginning. -/
theorem cursor_resumes {codec : Codec ChatCursor} (hcodec : codec.RoundTrips)
    {rows : List PreviewRow} (hids : (rows.map PreviewRow.chatId).Nodup) (limit : Int) :
    (∀ v ∈ rows, ∃ text cursor, buildCursor codec v.preview = .ok text ∧
      decodeCursor codec (some text) = .ok (some cursor) ∧
      ∃ page, listChatsForUser rows (some cursor) limit = .ok page ∧
        FirstAfter (rows.map PreviewRow.preview) v.preview (clamp limit 50).toNat page) ∧
    listChatsForUser rows none limit =
      .ok ((sortBy ChatPreview.rank (rows.map PreviewRow.preview)).take (clamp limit 50).toNat) := by
  have hranks : ((rows.map PreviewRow.preview).map ChatPreview.rank).Nodup :=
    ranks_nodup (by rwa [List.map_map])
  constructor
  · intro v hv
    obtain ⟨text, hwrite, hread⟩ := hcodec.read_write chatCursorErrors v.preview.cursor
    refine ⟨text, _, hwrite, hread, _, listChatsForUser_eq _ limit, ?_⟩
    have hmem : v.preview ∈ sortBy ChatPreview.rank (rows.map PreviewRow.preview) :=
      (sortBy_perm _).mem_iff.mpr (List.mem_map_of_mem hv)
    obtain ⟨earlier, later, hsplit⟩ := List.append_of_mem hmem
    refine ⟨earlier, later, hsplit, ?_⟩
    rw [select_eq hranks]
    exact congrArg (List.take _) (filter_after (sortBy_sorted hranks) hsplit)
  · rw [listChatsForUser_eq, select_eq hranks, Option.map_none, filter_none]

theorem two_chats_resumed :
    (∀ v ∈ viewRows (groupsOf 2) alice, ∃ text cursor,
      buildCursor chatTable.codec v.preview = .ok text ∧
      decodeCursor chatTable.codec (some text) = .ok (some cursor) ∧
      ∃ page, listChatsForUser (viewRows (groupsOf 2) alice) (some cursor) 1 = .ok page ∧
        FirstAfter ((viewRows (groupsOf 2) alice).map PreviewRow.preview) v.preview
          (clamp 1 50).toNat page) ∧
    listChatsForUser (viewRows (groupsOf 2) alice) none 1 =
      .ok ((sortBy ChatPreview.rank ((viewRows (groupsOf 2) alice).map PreviewRow.preview)).take
        (clamp 1 50).toNat) :=
  cursor_resumes chatTable_roundTrips viewRows_nodup 1

end Mesty.Chats.ResumePoint
