import Mesty.Chats.Effects
import Mesty.Groups.SingleOwner

namespace Mesty.Chats.References

open Mesty.Base.Ids Mesty.Base.Error Mesty.Chats.Entities Mesty.Chats.Repository Mesty.Chats.Store
open Mesty.Chats.Changes Mesty.Chats.Effects Mesty.Chats.Ownership

section Users

variable {chats chats' : ChatsDb} {chatId userId : Uuid}

theorem users_updateParticipant {f : ParticipantRow → ParticipantRow} :
    (chats.updateParticipant chatId userId f).users = chats.users := by
  rw [ChatsDb.updateParticipant]
  split <;> rfl

theorem users_updateChat {f : ChatRow → ChatRow} :
    (chats.updateChat chatId f).users = chats.users := by
  rw [ChatsDb.updateChat]
  split <;> rfl

/-- No statement of a group request touches the users. -/
theorem users_exec {ω : Choice} {c : ChatCmd} {r : c.Ans} (h : chats.exec ω c = some (r, chats')) :
    chats'.users = chats.users := by
  cases c with
  | createGroupChat =>
    obtain ⟨-, rfl⟩ | ⟨-, -, -, -, rfl⟩ := createGroupChat_cases h
    · rfl
    · rw [foldl_insertMember_eq]
      rfl
  | upsertParticipant | rejoin =>
    obtain ⟨-, rfl⟩ := Prod.ext_iff.mp (Option.some.inj h)
    rw [ChatsDb.upsertRow]
    split_ifs <;> rfl
  | leaveActive | leave =>
    obtain ⟨-, rfl⟩ := Prod.mk.inj (Option.some.inj h)
    exact users_updateParticipant
  | setRole =>
    obtain ⟨-, rfl⟩ := Prod.ext_iff.mp (Option.some.inj h)
    rw [ChatsDb.setRole]
    split <;> rfl
  | transferRoles =>
    obtain ⟨-, rfl⟩ := Prod.mk.inj (Option.some.inj h)
    exact users_updateParticipant.trans users_updateParticipant
  | markDeleted =>
    obtain ⟨-, rfl⟩ := Prod.mk.inj (Option.some.inj h)
    exact users_updateChat
  | setInviteLink =>
    obtain ⟨-, rfl⟩ := Prod.ext_iff.mp (Option.some.inj h)
    rw [ChatsDb.setInviteLink]
    split
    · rfl
    · split_ifs
      · rfl
      · rfl
      · exact users_updateChat
  | randomSlug =>
    obtain ⟨-, h⟩ := Option.ite_none_right_eq_some.mp h
    obtain ⟨-, rfl⟩ := Prod.mk.inj (Option.some.inj h)
    rfl
  | _ =>
    obtain ⟨-, rfl⟩ := Prod.mk.inj (Option.some.inj h)
    rfl

theorem users_store {ω : StoreChoice} {db db' : ChatStore} {cmd : StoreCmd} {r : cmd.Ans}
    (h : ChatStore.exec ω cmd db = some (r, db')) : db'.users = db.users := by
  cases cmd with
  | chat c =>
    obtain ⟨⟨r', chats⟩, hexec, heq⟩ := Option.map_eq_some_iff.mp h
    obtain ⟨rfl, rfl⟩ := Prod.mk.inj heq
    exact users_exec hexec
  | createPrivateChat =>
    obtain ⟨-, rfl, -⟩ | ⟨-, -, -, -, -, rfl⟩ := createPrivateChat_cases h <;> rfl
  | rotateKeys chatId keys =>
    obtain ⟨-, rfl⟩ := Prod.mk.inj (Option.some.inj h)
    have husers := congrArg ChatsDb.users (foldl_rotateKey_eq chatId keys (0, db.toChatsDb))
    exact husers
  | updateChat =>
    obtain ⟨-, rfl⟩ := Prod.ext_iff.mp (Option.some.inj h)
    rw [ChatStore.updateChatRow]
    split
    · rfl
    · split_ifs
      · exact users_updateChat
      · rfl
  | _ => exact congrArg ChatsDb.users (chats_of_exec id h)

end Users

theorem rooted_rotateKeys {chatId : Uuid} (keys : List (Uuid × String)) (acc : Nat × ChatsDb)
    (h : Rooted acc.2) : Rooted (keys.foldl (rotateKey chatId) acc).2 := by
  induction keys generalizing acc with
  | nil => exact h
  | cons entry keys ih =>
    apply ih
    rw [rotateKey]
    cases hrow : acc.2.activeRow chatId entry.1 with
    | none => exact h
    | some row =>
      obtain ⟨hchat, huser⟩ := h _ _ _ (Option.filter_eq_some_iff.mp hrow).1
      exact rooted_setParticipant h hchat huser

theorem rooted_store {ω : StoreChoice} {db db' : ChatStore} {cmd : StoreCmd} {r : cmd.Ans}
    (hrooted : Rooted db.toChatsDb) (h : ChatStore.exec ω cmd db = some (r, db')) :
    Rooted db'.toChatsDb := by
  cases cmd with
  | createPrivateChat a b =>
    obtain ⟨-, rfl, -⟩ | ⟨-, -, -, ha, hb, rfl⟩ := createPrivateChat_cases h
    · exact hrooted
    · have hmem : ∀ row : ChatRow, ω.uuid ∈ db.chats.insert ω.uuid row :=
        fun row => (AList.mem_insert _).mpr (.inl rfl)
      refine rooted_setParticipant (rooted_setParticipant ?_ (hmem _) ha) (hmem _) hb
      intro chatId userId p hp
      obtain ⟨hchat, huser⟩ := hrooted chatId userId p hp
      exact ⟨(AList.mem_insert _).mpr (.inr hchat), huser⟩
  | chat c =>
    obtain ⟨⟨r', chats⟩, hexec, heq⟩ := Option.map_eq_some_iff.mp h
    obtain ⟨rfl, rfl⟩ := Prod.mk.inj heq
    exact Groups.SingleOwner.rooted_exec hrooted hexec
  | updateChat =>
    obtain ⟨-, rfl⟩ := Prod.ext_iff.mp (Option.some.inj h)
    rw [ChatStore.updateChatRow]
    split
    · exact hrooted
    · split_ifs
      · exact rooted_updateChat hrooted
      · exact hrooted
  | rotateKeys chatId keys =>
    obtain ⟨-, rfl⟩ := Prod.ext_iff.mp (Option.some.inj h)
    exact rooted_rotateKeys keys _ hrooted
  | _ =>
    rw [chats_of_exec id h]
    exact hrooted

end Mesty.Chats.References
