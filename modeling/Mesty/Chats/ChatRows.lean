import Mesty.Chats.Effects
import Mesty.Chats.Ownership

namespace Mesty.Chats.ChatRows

open Mesty.Base.Ids Mesty.Base.Error Mesty.Chats.Entities Mesty.Chats.Repository Mesty.Chats.Store
open Mesty.Chats.Changes Mesty.Chats.Ownership

section Tables

variable {db : ChatsDb} {chatId chatId' userId : Uuid} {row : ChatRow}

theorem chats_updateParticipant {f : ParticipantRow → ParticipantRow} :
    (db.updateParticipant chatId userId f).chats = db.chats := by
  rw [ChatsDb.updateParticipant]
  split <;> rfl

theorem lookup_updateChat_map {f : ChatRow → ChatRow} :
    (db.updateChat chatId' f).chats.lookup chatId =
      (db.chats.lookup chatId).map (fun row => if chatId' = chatId then f row else row) := by
  by_cases hid : chatId' = chatId
  · subst hid
    rw [ChatsDb.updateChat]
    cases hrow : db.chats.lookup chatId' <;> simp [AList.lookup_insert, hrow]
  · simp only [if_neg hid, Option.map_id']
    rw [ChatsDb.updateChat]
    cases db.chats.lookup chatId' with
    | none => rfl
    | some row' => exact AList.lookup_insert_ne (Ne.symm hid)

theorem lookup_updateChat (hrow : db.chats.lookup chatId = some row) {f : ChatRow → ChatRow} :
    (db.updateChat chatId' f).chats.lookup chatId =
      some (if chatId' = chatId then f row else row) := by
  rw [lookup_updateChat_map, hrow, Option.map_some]

/-- A chat that is there is not the new one. -/
theorem lookup_insert_fresh {newId : Uuid} {new : ChatRow} (hrow : db.chats.lookup chatId = some row)
    (hfresh : newId ∉ db.chats) : (db.chats.insert newId new).lookup chatId = some row := by
  rw [AList.lookup_insert_ne, hrow]
  rintro rfl
  exact hfresh (AList.lookup_isSome.mp (by rw [hrow, Option.isSome_some]))

end Tables

/-- What a statement makes of the table of chats. A new chat has no link, and nothing removes a chat. -/
inductive ChatsStep (now : Timestamp) (db : ChatsDb) :
    StoreCmd → AList (fun _ : Uuid => ChatRow) → Prop where
  | same (c : StoreCmd) : ChatsStep now db c db.chats
  | created (c : StoreCmd) {newId : Uuid} {new : ChatRow} (hfresh : newId ∉ db.chats)
    (hlink : new.inviteLink = none) : ChatsStep now db c (db.chats.insert newId new)
  | deleted (chatId : Uuid) : ChatsStep now db (.chat (.markDeleted chatId))
      (db.updateChat chatId (fun row => { row with deletedAt := some now })).chats
  | linked (chatId : Uuid) (slug : String) : ChatsStep now db (.chat (.setInviteLink chatId slug))
      (db.updateChat chatId (fun row => { row with inviteLink := some slug })).chats
  | updated (chatId : Uuid) (name description avatarUrl : Option String) :
    ChatsStep now db (.updateChat chatId name description avatarUrl)
      (db.updateChat chatId (fun row =>
        { row with name := name, description := description, avatarUrl := avatarUrl })).chats

theorem chatsStep_of_chatCmd {db db' : ChatsDb} {ω : Choice} {c : ChatCmd} {ans : c.Ans}
    (he : db.exec ω c = some (ans, db')) : ChatsStep ω.now db (.chat c) db'.chats := by
  have hsame : db'.chats = db.chats → ChatsStep ω.now db (.chat c) db'.chats :=
    fun h => h ▸ .same _
  cases c with
  | createGroupChat =>
    obtain ⟨-, rfl⟩ | ⟨-, hfresh, -, -, rfl⟩ := createGroupChat_cases he
    · exact .same _
    · rw [foldl_insertMember_eq]
      exact .created _ hfresh rfl
  | upsertParticipant | rejoin =>
    obtain ⟨-, rfl⟩ := Prod.ext_iff.mp (Option.some.inj he)
    apply hsame
    rw [ChatsDb.upsertRow]
    split_ifs <;> rfl
  | leaveActive | leave =>
    obtain ⟨-, rfl⟩ := Prod.mk.inj (Option.some.inj he)
    exact hsame chats_updateParticipant
  | setRole =>
    obtain ⟨-, rfl⟩ := Prod.ext_iff.mp (Option.some.inj he)
    apply hsame
    rw [ChatsDb.setRole]
    split <;> rfl
  | transferRoles =>
    obtain ⟨-, rfl⟩ := Prod.mk.inj (Option.some.inj he)
    exact hsame (chats_updateParticipant.trans chats_updateParticipant)
  | markDeleted chatId =>
    obtain ⟨-, rfl⟩ := Prod.mk.inj (Option.some.inj he)
    exact .deleted chatId
  | setInviteLink chatId slug =>
    obtain ⟨-, rfl⟩ := Prod.ext_iff.mp (Option.some.inj he)
    rw [ChatsDb.setInviteLink]
    split
    · exact .same _
    · split_ifs
      · exact .same _
      · exact .same _
      · exact .linked chatId slug
  | randomSlug =>
    obtain ⟨-, he⟩ := Option.ite_none_right_eq_some.mp he
    obtain ⟨-, rfl⟩ := Prod.mk.inj (Option.some.inj he)
    exact .same _
  | _ =>
    obtain ⟨-, rfl⟩ := Prod.mk.inj (Option.some.inj he)
    exact .same _

theorem chatsStep_of_exec {ω : StoreChoice} {c : StoreCmd} {ans : c.Ans} {db db' : ChatStore}
    (he : ChatStore.exec ω c db = some (ans, db')) :
    ChatsStep ω.now db.toChatsDb c db'.chats := by
  cases c with
  | chat c =>
    obtain ⟨⟨r, chats⟩, hexec, heq⟩ := Option.map_eq_some_iff.mp he
    obtain ⟨rfl, rfl⟩ := Prod.mk.inj heq
    exact chatsStep_of_chatCmd hexec
  | createPrivateChat =>
    obtain ⟨-, rfl, -⟩ | ⟨-, hfresh, -, -, -, rfl⟩ := createPrivateChat_cases he
    · exact .same _
    · exact .created _ hfresh rfl
  | updateChat chatId name description avatarUrl =>
    obtain ⟨-, rfl⟩ := Prod.ext_iff.mp (Option.some.inj he)
    rw [ChatStore.updateChatRow]
    split
    · exact .same _
    · split_ifs
      · exact .updated chatId name description avatarUrl
      · exact .same _
  | rotateKeys chatId keys =>
    obtain ⟨-, rfl⟩ := Prod.mk.inj (Option.some.inj he)
    have hchats := congrArg ChatsDb.chats (foldl_rotateKey_eq chatId keys (0, db.toChatsDb))
    exact hchats ▸ .same _
  | _ => exact congrArg ChatsDb.chats (Effects.chats_of_exec id he) ▸ .same _

/-- What a statement makes of the row of a chat that is there. No statement removes it. -/
inductive RowStep (now : Timestamp) (chatId : Uuid) (row : ChatRow) : StoreCmd → ChatRow → Prop where
  | same (c : StoreCmd) : RowStep now chatId row c row
  | deleted : RowStep now chatId row (.chat (.markDeleted chatId)) { row with deletedAt := some now }
  | linked (slug : String) :
    RowStep now chatId row (.chat (.setInviteLink chatId slug)) { row with inviteLink := some slug }
  | updated (name description avatarUrl : Option String) :
    RowStep now chatId row (.updateChat chatId name description avatarUrl)
      { row with name := name, description := description, avatarUrl := avatarUrl }

theorem ChatsStep.row {now : Timestamp} {db : ChatsDb} {c : StoreCmd}
    {chats : AList (fun _ : Uuid => ChatRow)} {chatId : Uuid} {row : ChatRow}
    (h : ChatsStep now db c chats) (hrow : db.chats.lookup chatId = some row) :
    ∃ row', chats.lookup chatId = some row' ∧ RowStep now chatId row c row' := by
  cases h with
  | same => exact ⟨row, hrow, .same _⟩
  | created _ hfresh => exact ⟨row, lookup_insert_fresh hrow hfresh, .same _⟩
  | deleted chatId' =>
    refine ⟨_, lookup_updateChat hrow, ?_⟩
    split_ifs with hid
    · exact hid ▸ .deleted
    · exact .same _
  | linked chatId' slug =>
    refine ⟨_, lookup_updateChat hrow, ?_⟩
    split_ifs with hid
    · exact hid ▸ .linked slug
    · exact .same _
  | updated chatId' name description avatarUrl =>
    refine ⟨_, lookup_updateChat hrow, ?_⟩
    split_ifs with hid
    · exact hid ▸ .updated name description avatarUrl
    · exact .same _

theorem rowStep_of_exec {ω : StoreChoice} {c : StoreCmd} {ans : c.Ans} {db db' : ChatStore}
    {chatId : Uuid} {row : ChatRow} (hrow : db.chats.lookup chatId = some row)
    (he : ChatStore.exec ω c db = some (ans, db')) :
    ∃ row', db'.chats.lookup chatId = some row' ∧ RowStep ω.now chatId row c row' :=
  (chatsStep_of_exec he).row hrow

end Mesty.Chats.ChatRows
