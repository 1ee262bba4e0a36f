import Mathlib.Logic.Equiv.List
import Mesty.Chats.Store
import Mesty.Paging.LookAhead

namespace Mesty.Chats.Listing

open Mesty.Base.Ids Mesty.Base.Error Mesty.Chats.Entities Mesty.Chats.Messages Mesty.Chats.Store
open Mesty.Paging.Keyset Mesty.Paging.LookAhead

structure ListQuery where
  cursor : Option String
  limit : Option Int

section Chats

structure ChatPreview where
  chatId : Uuid
  chatType : ChatType
  name : Option String
  avatarUrl : Option String
  lastMessageId : Option Uuid
  lastMessageEncrypted : Option String
  lastSenderId : Option Uuid
  lastMessageAt : Option Timestamp
  isPinned : Bool
  pinOrder : Int32
  isMuted : Bool
  isArchived : Bool
  unreadCount : Nat
  deriving DecidableEq

structure ChatPreviewResponse where
  chatId : Uuid
  chatType : String
  name : Option String
  avatarUrl : Option String
  lastMessageId : Option Uuid
  lastMessageEncrypted : Option String
  lastSenderId : Option Uuid
  lastMessageAt : Option Timestamp
  isPinned : Bool
  pinOrder : Int32
  isMuted : Bool
  isArchived : Bool
  unreadCount : Nat
  deriving DecidableEq

def previewToResponse (p : ChatPreview) : ChatPreviewResponse :=
  ⟨p.chatId, p.chatType.asDbStr, p.name, p.avatarUrl, p.lastMessageId, p.lastMessageEncrypted,
    p.lastSenderId, p.lastMessageAt, p.isPinned, p.pinOrder, p.isMuted, p.isArchived, p.unreadCount⟩

/-- `ORDER BY created_at DESC LIMIT 1`. Of messages with the same timestamp the first
of the table is taken. -/
def lastMessage (db : ChatStore) (chatId : Uuid) : Option ChatMessage :=
  ((db.live chatId).insertionSort (fun x y => y.createdAt ≤ x.createdAt)).head?

/-- The statuses of undeleted messages of the chat that the user has not read. -/
def unreadCount (db : ChatStore) (userId chatId : Uuid) : Nat :=
  db.statuses.entries.countP (fun e => e.1.2 = userId ∧ e.2.status ≠ .read ∧
    e.1.1 ∈ (db.live chatId).map ChatMessage.id)

/-- A row of the view `v_chat_previews`, with its defaults, and the unread messages. -/
def chatPreview (db : ChatStore) (userId chatId : Uuid) (row : ChatRow) : ChatPreview :=
  let last := lastMessage db chatId
  let settings := db.settings.lookup (userId, chatId)
  { chatId := chatId
    chatType := row.chatType
    name := row.name
    avatarUrl := row.avatarUrl
    lastMessageId := last.map ChatMessage.id
    lastMessageEncrypted := last.bind ChatMessage.contentEncrypted
    lastSenderId := last.bind ChatMessage.senderId
    lastMessageAt := last.map ChatMessage.createdAt
    isPinned := settings.elim false ChatSettings.isPinned
    pinOrder := settings.elim 0 ChatSettings.pinOrder
    isMuted := settings.elim false ChatSettings.isMuted
    isArchived := settings.elim false ChatSettings.isArchived
    unreadCount := unreadCount db userId chatId }

def chatPreviews (db : ChatStore) (userId : Uuid) : List ChatPreview :=
  db.participants.entries.filterMap (fun e =>
    if e.1.2 = userId ∧ e.2.leftAt = none then
      (db.liveChat e.1.1).map (chatPreview db userId e.1.1)
    else none)

structure ChatCursor where
  isPinned : Bool
  lastMessageAt : Option Timestamp
  chatId : Uuid
  deriving DecidableEq

/-- The place in the list, the largest first: pinned chats, then the last activity, where
a chat without messages counts as active at the epoch, then the id. -/
def ChatCursor.rank (c : ChatCursor) : (Bool ×ₗ Int ×ₗ Uuid)ᵒᵈ :=
  OrderDual.toDual (toLex (c.isPinned, toLex (c.lastMessageAt.getD 0, c.chatId)))

def ChatPreview.cursor (p : ChatPreview) : ChatCursor := ⟨p.isPinned, p.lastMessageAt, p.chatId⟩

def ChatPreview.rank (p : ChatPreview) : (Bool ×ₗ Int ×ₗ Uuid)ᵒᵈ := p.cursor.rank

/-- The repository method. -/
def listChatsForUser (db : ChatStore) (userId : Uuid) (cursor : Option ChatCursor) (limit : Int) :
    Except DomainError (List ChatPreview) :=
  .ok (select ChatPreview.rank (cursor.map ChatCursor.rank) (clamp limit 50).toNat
    (chatPreviews db userId))

def chatCursorErrors : CursorErrors ApiError where
  encoding := .validation "invalid cursor encoding"
  payload := .validation "invalid cursor payload"
  serialize e := .internal ("failed to serialize cursor: " ++ e)

/-- The handler `list_chats`. -/
def listChats (codec : Codec ChatCursor) (db : ChatStore) (userId : Uuid) (query : ListQuery) :
    Except ApiError (Page ChatPreviewResponse String) :=
  listing codec chatCursorErrors ChatPreview.cursor (listChatsForUser db userId) previewToResponse
    (clamp (query.limit.getD 20) 50) query.cursor

theorem chatIds_nodup (db : ChatStore) (userId : Uuid) :
    ((chatPreviews db userId).map ChatPreview.chatId).Nodup := by
  have hkeys : db.participants.entries.Pairwise (fun e e' => e.1 ≠ e'.1) :=
    List.pairwise_map.mp db.participants.nodupKeys
  refine List.pairwise_map.mpr ?_
  rw [chatPreviews, List.pairwise_filterMap]
  refine hkeys.imp fun {e e'} hne p hp q hq heq => hne ?_
  simp only [Option.ite_none_right_eq_some, Option.map_eq_some_iff] at hp hq
  obtain ⟨⟨hu, -⟩, _, -, rfl⟩ := hp
  obtain ⟨⟨hu', -⟩, _, -, rfl⟩ := hq
  exact Prod.ext heq (hu.trans hu'.symm)

/-- The id decides between chats of equal rank otherwise. -/
theorem ranks_nodup {previews : List ChatPreview} (h : (previews.map ChatPreview.chatId).Nodup) :
    (previews.map ChatPreview.rank).Nodup := by
  refine List.Nodup.of_map (fun k => (ofLex (ofLex (OrderDual.ofDual k)).2).2) ?_
  rwa [List.map_map]

theorem previews_nodup (db : ChatStore) (userId : Uuid) :
    ((chatPreviews db userId).map ChatPreview.rank).Nodup :=
  ranks_nodup (chatIds_nodup db userId)

end Chats

section Notifications

inductive NotificationType where
  | newMessage
  | storyReaction
  | storyView
  | participantAdded
  | callIncoming
  deriving DecidableEq

namespace NotificationType

def asDbStr : NotificationType → String
  | newMessage => "new_message"
  | storyReaction => "story_reaction"
  | storyView => "story_view"
  | participantAdded => "participant_added"
  | callIncoming => "call"

def fromDbStr (value : String) : Option NotificationType :=
  if value = "new_message" then some newMessage
  else if value = "story_reaction" then some storyReaction
  else if value = "story_view" then some storyView
  else if value = "participant_added" then some participantAdded
  else if value = "call" then some callIncoming
  else none

end NotificationType

structure Notification where
  id : Uuid
  userId : Uuid
  notificationType : NotificationType
  data : String
  isRead : Bool
  readAt : Option Timestamp
  createdAt : Timestamp
  deriving DecidableEq

structure NotificationResponse where
  id : Uuid
  notificationType : String
  data : String
  isRead : Bool
  readAt : Option Timestamp
  createdAt : Timestamp
  deriving DecidableEq

def notificationToResponse (n : Notification) : NotificationResponse :=
  ⟨n.id, n.notificationType.asDbStr, n.data, n.isRead, n.readAt, n.createdAt⟩

def parseNotification (row : NotificationRow) : Option Notification :=
  (NotificationType.fromDbStr row.type).map (fun nt =>
    ⟨row.id, row.userId, nt, row.data, row.isRead, row.readAt, row.createdAt⟩)

structure NotificationCursor where
  createdAt : Timestamp
  id : Uuid
  deriving DecidableEq

/-- The newest first. -/
def NotificationCursor.rank (c : NotificationCursor) : (Int ×ₗ Uuid)ᵒᵈ :=
  OrderDual.toDual (toLex (c.createdAt, c.id))

def Notification.cursor (n : Notification) : NotificationCursor := ⟨n.createdAt, n.id⟩

def Notification.rank (n : Notification) : (Int ×ₗ Uuid)ᵒᵈ := n.cursor.rank

def notificationRank (row : NotificationRow) : (Int ×ₗ Uuid)ᵒᵈ :=
  NotificationCursor.rank ⟨row.createdAt, row.id⟩

def notificationsOf (db : ChatStore) (userId : Uuid) : List NotificationRow :=
  db.notifications.filter (fun row => row.userId = userId)

/-- The repository method. It reads the type of each row back. -/
def listNotificationRows (db : ChatStore) (userId : Uuid) (cursor : Option NotificationCursor)
    (limit : Int) : Except DomainError (List Notification) :=
  (select notificationRank (cursor.map NotificationCursor.rank) (clamp limit 50).toNat
    (notificationsOf db userId)).mapM (fun row =>
      match parseNotification row with
      | none => .error (.internal ("invalid notification type: " ++ row.type))
      | some n => .ok n)

def notificationCursorErrors : CursorErrors ApiError where
  encoding := .validation "invalid notification cursor encoding"
  payload := .validation "invalid notification cursor payload"
  serialize e := .internal ("failed to serialize notification cursor: " ++ e)

/-- The handler `list_notifications`. -/
def listNotifications (codec : Codec NotificationCursor) (db : ChatStore) (userId : Uuid)
    (query : ListQuery) : Except ApiError (Page NotificationResponse String) :=
  listing codec notificationCursorErrors Notification.cursor (listNotificationRows db userId)
    notificationToResponse (clamp (query.limit.getD 20) 50) query.cursor

end Notifications

/-- Following the cursors yields all chats of the user once: pinned chats first, then by
their last activity, then by id. -/
def ChatsListed (codec : Codec ChatCursor) (db : ChatStore) (userId : Uuid) (limit : Option Int) :
    Prop :=
  Complete ChatPreview.rank previewToResponse
    (fun cursor => listChats codec db userId ⟨cursor, limit⟩) (chatPreviews db userId)

/-- Following the cursors yields all notifications of the user once, the newest first. -/
def NotificationsListed (codec : Codec NotificationCursor) (db : ChatStore) (userId : Uuid)
    (limit : Option Int) : Prop :=
  ∃ fuel pages, walk (fun cursor =>
      (listNotifications codec db userId ⟨cursor, limit⟩).toOption) fuel none = some pages ∧
    pages.flatten.map some = (sortBy notificationRank (notificationsOf db userId)).map
      (fun row => (parseNotification row).map notificationToResponse)

variable {db : ChatStore} {userId : Uuid}

theorem notifications_nodup (db : ChatStore) (userId : Uuid) :
    ((notificationsOf db userId).map notificationRank).Nodup := by
  have hids : ((notificationsOf db userId).map NotificationRow.id).Nodup :=
    db.uniqueNotifications.sublist (List.filter_sublist.map _)
  refine List.Nodup.of_map (fun k => (ofLex (OrderDual.ofDual k)).2) ?_
  rwa [List.map_map]

theorem limit_bounds (limit : Option Int) :
    1 ≤ clamp (limit.getD 20) 50 ∧ clamp (limit.getD 20) 50 ≤ 50 := by
  simp only [clamp]
  omega

theorem listChatsForUser_eq (bound : Option ChatCursor) (m : Int) :
    listChatsForUser db userId bound m = .ok (select ChatPreview.rank (bound.map ChatCursor.rank)
      (clamp m (50 : Nat)).toNat (chatPreviews db userId)) := rfl

theorem chatsListed_iff {codec : Codec ChatCursor} (hcodec : codec.RoundTrips) (limit : Option Int) :
    ChatsListed codec db userId limit ↔
      clamp (limit.getD 20) 50 < 50 ∨ (chatPreviews db userId).length ≤ 50 := by
  obtain ⟨hpos, hcap⟩ := limit_bounds limit
  have hcast : ((50 : Nat) : Int) = 50 := rfl
  have hiff := complete_iff chatCursorErrors previewToResponse hcodec (previews_nodup db userId)
    (fun _ => rfl) listChatsForUser_eq hpos (hcap.trans_eq hcast.symm)
  rw [hcast] at hiff
  exact hiff

/-- What a row is read as if its type can be read. -/
def readBack (row : NotificationRow) : Notification :=
  ⟨row.id, row.userId, (NotificationType.fromDbStr row.type).getD .newMessage, row.data, row.isRead,
    row.readAt, row.createdAt⟩

theorem parseNotification_eq {row : NotificationRow} (h : (parseNotification row).isSome) :
    parseNotification row = some (readBack row) := by
  rw [parseNotification, Option.isSome_map] at h
  obtain ⟨nt, hnt⟩ := Option.isSome_iff_exists.mp h
  simp only [parseNotification, readBack, hnt, Option.map_some, Option.getD_some]

theorem mapM_ok {α β ε : Type} {f : α → Except ε β} {g : α → β} {xs : List α}
    (h : ∀ x ∈ xs, f x = .ok (g x)) : xs.mapM f = .ok (xs.map g) := by
  induction xs with
  | nil => rfl
  | cons x xs ih =>
    rw [List.mapM_cons, h x List.mem_cons_self, ih fun y hy => h y (List.mem_cons_of_mem x hy)]
    rfl

/-- The types of the rows that the server itself can read back. -/
def Readable (db : ChatStore) (userId : Uuid) : Prop :=
  ∀ row ∈ notificationsOf db userId, (parseNotification row).isSome

theorem listNotificationRows_eq (h : Readable db userId) (bound : Option NotificationCursor)
    (m : Int) :
    listNotificationRows db userId bound m =
      .ok (select Notification.rank (bound.map NotificationCursor.rank) (clamp m (50 : Nat)).toNat
        ((notificationsOf db userId).map readBack)) := by
  rw [select_map]
  refine mapM_ok fun row hrow => ?_
  have hrow : row ∈ notificationsOf db userId := (mem_select hrow).1
  simp only [parseNotification_eq (h row hrow)]

theorem readable_of_listed {codec : Codec NotificationCursor} {limit : Option Int}
    (h : NotificationsListed codec db userId limit) : Readable db userId := by
  obtain ⟨_, pages, -, hflat⟩ := h
  intro row hrow
  have hmem : (parseNotification row).map notificationToResponse ∈ pages.flatten.map some := by
    rw [hflat]
    exact List.mem_map_of_mem ((sortBy_perm _).mem_iff.mpr hrow)
  obtain ⟨item, -, hitem⟩ := List.mem_map.mp hmem
  rw [← Option.isSome_map (f := notificationToResponse), ← hitem]
  rfl

theorem notificationsListed_iff_complete {codec : Codec NotificationCursor} {limit : Option Int}
    (h : Readable db userId) :
    NotificationsListed codec db userId limit ↔
      Complete Notification.rank notificationToResponse
        (fun cursor => listNotifications codec db userId ⟨cursor, limit⟩)
        ((notificationsOf db userId).map readBack) := by
  have hrows : (sortBy notificationRank (notificationsOf db userId)).map
        (fun row => (parseNotification row).map notificationToResponse) =
      ((sortBy Notification.rank ((notificationsOf db userId).map readBack)).map
        notificationToResponse).map some := by
    rw [sortBy_map, List.map_map, List.map_map]
    refine List.map_congr_left fun row hrow => ?_
    rw [parseNotification_eq (h row ((sortBy_perm _).mem_iff.mp hrow))]
    rfl
  rw [NotificationsListed, hrows]
  simp only [(List.map_injective_iff.mpr (Option.some_injective _)).eq_iff]
  rfl

theorem notificationsListed_iff {codec : Codec NotificationCursor} (hcodec : codec.RoundTrips)
    (limit : Option Int) :
    NotificationsListed codec db userId limit ↔ Readable db userId ∧
      (clamp (limit.getD 20) 50 < 50 ∨ (notificationsOf db userId).length ≤ 50) := by
  obtain ⟨hpos, hcap⟩ := limit_bounds limit
  have hcast : ((50 : Nat) : Int) = 50 := rfl
  have hiff (h : Readable db userId) := complete_iff notificationCursorErrors
    notificationToResponse hcodec
    (show (((notificationsOf db userId).map readBack).map Notification.rank).Nodup by
      rw [List.map_map]
      exact notifications_nodup db userId)
    (fun _ => rfl) (listNotificationRows_eq h) hpos (hcap.trans_eq hcast.symm)
  rw [hcast, List.length_map] at hiff
  constructor
  · intro hlisted
    have h := readable_of_listed hlisted
    exact ⟨h, (hiff h).mp ((notificationsListed_iff_complete h).mp hlisted)⟩
  · rintro ⟨h, hlimit⟩
    exact (notificationsListed_iff_complete h).mpr ((hiff h).mpr hlimit)

/-- Both listings ask the repository for one row more than a page holds, and the repository
caps the number it is asked for at the largest page. Hence a full page of 50 is always taken
for the last one. Moreover one notification of a type that is unknown to the server fails
the request that reaches it. -/
theorem listings_complete_iff {chatCodec : Codec ChatCursor}
    {notificationCodec : Codec NotificationCursor} (hchats : chatCodec.RoundTrips)
    (hnotifications : notificationCodec.RoundTrips) (db : ChatStore) (userId : Uuid)
    (limit : Option Int) :
    (ChatsListed chatCodec db userId limit ↔
      clamp (limit.getD 20) 50 < 50 ∨ (chatPreviews db userId).length ≤ 50) ∧
    (NotificationsListed notificationCodec db userId limit ↔
      Readable db userId ∧
        (clamp (limit.getD 20) 50 < 50 ∨ (notificationsOf db userId).length ≤ 50)) :=
  ⟨chatsListed_iff hchats limit, notificationsListed_iff hnotifications limit⟩

section Table

variable {γ : Type} [DecidableEq γ] [Encodable γ]

/-- Cursors with their JSON and its base64. -/
abbrev CursorTable (γ : Type) := List (γ × String × String)

def CursorTable.toJson (table : CursorTable γ) (c : γ) : String :=
  match table.find? (fun e => e.1 = c) with
  | some e => e.2.1
  | none => String.ofList (List.replicate (Encodable.encode c) '0')

def CursorTable.fromJson (table : CursorTable γ) (json : String) : Option γ :=
  match table.find? (fun e => e.2.1 = json) with
  | some e => some e.1
  | none => Encodable.decode json.toList.length

def CursorTable.toBase64 (table : CursorTable γ) (json : String) : String :=
  match table.find? (fun e => e.2.1 = json) with
  | some e => e.2.2
  | none => "=" ++ json

def CursorTable.fromBase64 (table : CursorTable γ) (text : String) : Option String :=
  match table.find? (fun e => e.2.2 = text) with
  | some e => some e.2.1
  | none => some (String.ofList text.toList.tail)

def CursorTable.codec (table : CursorTable γ) : Codec γ where
  Bytes := String
  toVec c := .ok (table.toJson c)
  fromSlice := table.fromJson
  encode := table.toBase64
  decode := table.fromBase64

theorem find_unique {α β : Type} [DecidableEq β] {f : α → β} {xs : List α}
    (h : (xs.map f).Nodup) {x : α} (hx : x ∈ xs) : xs.find? (fun y => f y = f x) = some x := by
  have hsome : (xs.find? (fun y => f y = f x)).isSome := by
    rw [List.find?_isSome]
    exact ⟨x, hx, by simp⟩
  obtain ⟨y, hy⟩ := Option.isSome_iff_exists.mp hsome
  have heq : f y = f x := by simpa using List.find?_some hy
  rw [hy, List.inj_on_of_nodup_map h (List.mem_of_find?_eq_some hy) hx heq]

theorem find_none {α β : Type} [DecidableEq β] {f : α → β} {xs : List α} {b : β}
    (h : ∀ x ∈ xs, f x ≠ b) : xs.find? (fun y => f y = b) = none := by
  rw [List.find?_eq_none]
  exact fun x hx => by simpa using h x hx

theorem CursorTable.fromJson_toJson {table : CursorTable γ}
    (hjson : (table.map (fun e => e.2.1)).Nodup) (hbrace : ∀ e ∈ table, '\x7b' ∈ e.2.1.toList)
    (c : γ) : table.fromJson (table.toJson c) = some c := by
  cases hfind : table.find? (fun e => e.1 = c) with
  | some e =>
    have hc : e.1 = c := by simpa using List.find?_some hfind
    simp only [toJson, fromJson, hfind, find_unique hjson (List.mem_of_find?_eq_some hfind), hc]
  | none =>
    have hne : ∀ e ∈ table, e.2.1 ≠ String.ofList (List.replicate (Encodable.encode c) '0') := by
      intro e he heq
      have hmem := hbrace e he
      rw [heq] at hmem
      simp at hmem
    simp only [toJson, fromJson, hfind, find_none hne, String.toList_ofList,
      List.length_replicate, Encodable.encodek]

omit [DecidableEq γ] [Encodable γ] in
theorem CursorTable.fromBase64_toBase64 {table : CursorTable γ}
    (htext : (table.map (fun e => e.2.2)).Nodup) (hpad : ∀ e ∈ table, '=' ∉ e.2.2.toList)
    (json : String) : table.fromBase64 (table.toBase64 json) = some json := by
  cases hfind : table.find? (fun e => e.2.1 = json) with
  | some e =>
    have hj : e.2.1 = json := by simpa using List.find?_some hfind
    simp only [toBase64, fromBase64, hfind, find_unique htext (List.mem_of_find?_eq_some hfind), hj]
  | none =>
    have hne : ∀ e ∈ table, e.2.2 ≠ "=" ++ json := by
      intro e he heq
      have hmem := hpad e he
      rw [heq] at hmem
      simp at hmem
    simp only [toBase64, fromBase64, hfind, find_none hne]
    simp

theorem CursorTable.codec_roundTrips {table : CursorTable γ}
    (hjson : (table.map (fun e => e.2.1)).Nodup) (htext : (table.map (fun e => e.2.2)).Nodup)
    (hbrace : ∀ e ∈ table, '\x7b' ∈ e.2.1.toList) (hpad : ∀ e ∈ table, '=' ∉ e.2.2.toList) :
    table.codec.RoundTrips :=
  ⟨fun c => ⟨table.toJson c, rfl, fromJson_toJson hjson hbrace c⟩, fromBase64_toBase64 htext hpad⟩

end Table

instance : Encodable ChatCursor :=
  Encodable.ofLeftInverse (fun c => (c.isPinned, c.lastMessageAt, c.chatId.val))
    (fun t => ⟨t.1, t.2.1, ⟨t.2.2⟩⟩) (fun _ => rfl)

instance : Encodable NotificationCursor :=
  Encodable.ofLeftInverse (fun c => (c.createdAt, c.id.val)) (fun t => ⟨t.1, ⟨t.2⟩⟩) (fun _ => rfl)

def alice : Uuid := .ofNat 1

def chatTable : CursorTable ChatCursor :=
  [(⟨false, none, .ofNat 2⟩,
      "\x7b\"is_pinned\":false,\"last_message_at\":null,\"chat_id\":\"00000000-0000-0000-0000-000000000002\"\x7d",
      "eyJpc19waW5uZWQiOmZhbHNlLCJsYXN0X21lc3NhZ2VfYXQiOm51bGwsImNoYXRfaWQiOiIwMDAwMDAwMC0wMDAwLTAwMDAtMDAwMC0wMDAwMDAwMDAwMDIifQ"),
    (⟨false, none, .ofNat 3⟩,
      "\x7b\"is_pinned\":false,\"last_message_at\":null,\"chat_id\":\"00000000-0000-0000-0000-000000000003\"\x7d",
      "eyJpc19waW5uZWQiOmZhbHNlLCJsYXN0X21lc3NhZ2VfYXQiOm51bGwsImNoYXRfaWQiOiIwMDAwMDAwMC0wMDAwLTAwMDAtMDAwMC0wMDAwMDAwMDAwMDMifQ")]

theorem chatTable_roundTrips : chatTable.codec.RoundTrips :=
  CursorTable.codec_roundTrips (by decide +kernel) (by decide +kernel) (by decide +kernel)
    (by decide +kernel)

def notificationTable : CursorTable NotificationCursor :=
  [(⟨1700000000000000, .ofNat 5⟩,
      "\x7b\"created_at\":\"2023-11-14T22:13:20Z\",\"id\":\"00000000-0000-0000-0000-000000000005\"\x7d",
      "eyJjcmVhdGVkX2F0IjoiMjAyMy0xMS0xNFQyMjoxMzoyMFoiLCJpZCI6IjAwMDAwMDAwLTAwMDAtMDAwMC0wMDAwLTAwMDAwMDAwMDAwNSJ9"),
    (⟨1700000001000000, .ofNat 6⟩,
      "\x7b\"created_at\":\"2023-11-14T22:13:21Z\",\"id\":\"00000000-0000-0000-0000-000000000006\"\x7d",
      "eyJjcmVhdGVkX2F0IjoiMjAyMy0xMS0xNFQyMjoxMzoyMVoiLCJpZCI6IjAwMDAwMDAwLTAwMDAtMDAwMC0wMDAwLTAwMDAwMDAwMDAwNiJ9")]

theorem notificationTable_roundTrips : notificationTable.codec.RoundTrips :=
  CursorTable.codec_roundTrips (by decide +kernel) (by decide +kernel) (by decide +kernel)
    (by decide +kernel)

/-- Groups without messages, of which alice is the owner. -/
def groupsOf (n : Nat) : ChatStore where
  toMessagesDb := { (ChatStore.empty [alice]).toMessagesDb with
    chats := (List.range n).foldl (fun chats k => chats.insert (.ofNat (k + 2))
      ⟨.group, some "friends", none, none, some alice, none, 0, none⟩) ∅
    participants := (List.range n).foldl (fun participants k =>
      participants.insert (.ofNat (k + 2), alice) ⟨.owner, none, some alice, 0, none⟩) ∅ }
  statuses := ∅
  reactions := ∅
  settings := ∅
  blocks := []
  notifications :=
    [⟨.ofNat 5, alice, "call", "\x7b\x7d", false, none, 1700000000000000⟩,
      ⟨.ofNat 6, alice, "story_view", "\x7b\x7d", false, none, 1700000001000000⟩]
  uniqueNotifications := by decide

theorem two_of_each_listed :
    ChatsListed chatTable.codec (groupsOf 2) alice (some 1) ∧
      NotificationsListed notificationTable.codec (groupsOf 2) alice (some 1) := by
  have h := listings_complete_iff chatTable_roundTrips notificationTable_roundTrips (groupsOf 2)
    alice (some 1)
  have hreadable : Readable (groupsOf 2) alice := by
    unfold Readable
    decide +kernel
  exact ⟨h.1.mpr (.inl (by decide)), h.2.mpr ⟨hreadable, .inl (by decide)⟩⟩

/-- With 51 chats and the largest limit the first page says that there is no more. -/
theorem last_chat_unreachable : ¬ ChatsListed chatTable.codec (groupsOf 51) alice (some 50) := by
  have hlength : (chatPreviews (groupsOf 51) alice).length = 51 := by decide +kernel
  rw [chatsListed_iff chatTable_roundTrips, hlength]
  decide

end Mesty.Chats.Listing
