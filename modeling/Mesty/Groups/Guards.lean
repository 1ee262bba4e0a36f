import Mesty.Groups.KeyRotation

namespace Mesty.Groups.Guards

open Mesty.Base.Ids Mesty.Base.Error Mesty.Concurrency.Program
open Mesty.Concurrency.Pool (System)
open Mesty.Chats Mesty.Chats.Entities Mesty.Chats.Repository Mesty.Chats.Store Mesty.Chats.Handlers
open Mesty.Chats.Effects (wp_ask wp_okOr wp_ofChat lookup_of_memberOfLiveChat)
open Mesty.Chats.Participants (requireRole)
open Mesty.Groups.Effects (roleOf wp_requireRole)
open Mesty.Groups.Deletion (isAdmin alice bob theGroup at_)
open Mesty.Groups.KeyRotation (rotateGroupKey_outcome)
open StoreTask

/-- The repository function. -/
def updateChat (userId chatId : Uuid) (name description avatarUrl : Option String) :
    StoreTask Chat := do
  let row ← okOr (← ask (.selectChat userId chatId)) (.fromSqlx .rowNotFound)
  let updatedAt ← attempt (Prog.cmd (StoreCmd.updateChat chatId (name.or row.name)
    (description.or row.description) (avatarUrl.or row.avatarUrl)))
  return ⟨chatId, row.chatType, name.or row.name, description.or row.description,
    avatarUrl.or row.avatarUrl, row.createdBy, updatedAt⟩

def updateChatResponse (chat : Chat) : Response :=
  ⟨200, .chatUpdated ⟨chat.id, chat.chatType.asDbStr, chat.name, chat.description, chat.avatarUrl,
    chat.createdAt⟩⟩

/-- The handler calls the repository. -/
theorem handler_eq {userId chatId : Uuid} {name description avatarUrl : Option String} :
    Handlers.updateChat userId chatId name description avatarUrl = (do
      let chat ← updateChat userId chatId name description avatarUrl
      return updateChatResponse chat) := by
  rw [Handlers.updateChat, updateChat]
  simp only [bind_assoc, pure_bind]
  rfl

/-- The operations that change a group. -/
inductive GroupChange where
  | updateChat (name description avatarUrl : Option String)
  | addParticipant (userId : Uuid) (encryptionKeyEnc : Option String)
  | setInviteLink (slug : Option String)
  | rotateGroupKey (keys : List (Uuid × String))

section Changes

variable (db : ChatStore) (chatId requesterId : Uuid)

/-- Whenever the call succeeds, the requester is an active admin or owner. -/
def ForAdmins {α : Type} (call : StoreTask α) : Prop :=
  call.run.wp ChatStore.exec (fun out _ => ∀ a, out = .ok a → isAdmin db requesterId chatId) db

def GroupChange.ForAdmins : GroupChange → Prop
  | updateChat name description avatarUrl =>
    Guards.ForAdmins db chatId requesterId
      (Guards.updateChat requesterId chatId name description avatarUrl)
  | addParticipant userId encryptionKeyEnc =>
    Guards.ForAdmins db chatId requesterId
      (attempt (ofChat (Participants.addParticipant chatId requesterId userId encryptionKeyEnc).run))
  | setInviteLink slug =>
    Guards.ForAdmins db chatId requesterId
      (attempt (ofChat (Participants.setInviteLink chatId requesterId slug).run))
  | rotateGroupKey keys =>
    Guards.ForAdmins db chatId requesterId (KeyRotation.rotateGroupKey chatId requesterId keys)

/-- The change is an update that leaves the chat with a name that the table takes, and the
requester takes part in the chat, but below the admins. -/
def GroupChange.Unguarded : GroupChange → Prop
  | updateChat name _ _ => ¬ isAdmin db requesterId chatId ∧
    ∃ row, db.memberOfLiveChat requesterId chatId = some row ∧
      checkChat { row with name := name.or row.name } = true
  | _ => False

variable {db chatId requesterId}

/-- What follows a check of the role. -/
theorem forAdmins_requireRole {α : Type} {e e' : DomainError} {f : ParticipantRole → ChatTask α} :
    ForAdmins db chatId requesterId (attempt (ofChat (requireRole requesterId chatId e >>= fun role =>
      if role < .admin then throw e' else f role).run)) := by
  refine wp_ofChat (wp_requireRole.mpr ⟨fun _ => by rintro _ ⟨⟩, fun role hrole => ?_⟩)
  split_ifs with hrank
  · rintro _ ⟨⟩
  · have hadmin : isAdmin db requesterId chatId := ⟨role, hrole, le_of_not_gt hrank⟩
    exact Prog.wp_of_forall (fun _ _ _ _ => hadmin) _

theorem forAdmins_addParticipant (userId : Uuid) (encryptionKeyEnc : Option String) :
    (GroupChange.addParticipant userId encryptionKeyEnc).ForAdmins db chatId requesterId :=
  forAdmins_requireRole

theorem forAdmins_setInviteLink (slug : Option String) :
    (GroupChange.setInviteLink slug).ForAdmins db chatId requesterId :=
  forAdmins_requireRole

theorem forAdmins_rotateGroupKey (keys : List (Uuid × String)) :
    (GroupChange.rotateGroupKey keys).ForAdmins db chatId requesterId := by
  refine rotateGroupKey_outcome.mono fun out db' houtcome count hout => ?_
  by_contra hno
  obtain ⟨⟨e, he⟩, -⟩ := houtcome.2 hno
  cases hout.symm.trans he

/-- The check that the other operations make is missing. -/
theorem forAdmins_updateChat_iff {name description avatarUrl : Option String} :
    (GroupChange.updateChat name description avatarUrl).ForAdmins db chatId requesterId ↔
      ∀ row, db.memberOfLiveChat requesterId chatId = some row →
        checkChat { row with name := name.or row.name } = true → isAdmin db requesterId chatId := by
  rw [GroupChange.ForAdmins, ForAdmins, updateChat, wp_ask]
  constructor
  · intro h row hrow hcheck
    have ω : StoreChoice := Classical.arbitrary StoreChoice
    have hupdate := (wp_okOr.mp (h ω _ db rfl)).2 row hrow
    refine hupdate ω (.ok ω.now) (db.withChats (db.toChatsDb.updateChat chatId (fun old =>
      { old with name := name.or row.name, description := description.or row.description,
                 avatarUrl := avatarUrl.or row.avatarUrl }))) ?_ _ rfl
    simp only [ChatStore.exec, ChatStore.updateChatRow, lookup_of_memberOfLiveChat hrow, hcheck,
      if_true]
  · intro h ω row db₁ he
    obtain ⟨rfl, rfl⟩ := Prod.mk.inj (Option.some.inj he)
    refine wp_okOr.mpr ⟨fun _ => by rintro _ ⟨⟩, fun row hrow => ?_⟩
    intro ω out db' he
    cases out with
    | error e => rintro _ ⟨⟩
    | ok updatedAt =>
      rintro chat -
      refine h row hrow ?_
      by_contra hcheck
      simp [ChatStore.exec, ChatStore.updateChatRow, lookup_of_memberOfLiveChat hrow, hcheck] at he

end Changes

/-- In every state a change that succeeds is one of an active admin or owner, unless it is an
update of the name, the description or the avatar by somebody else who takes part in the chat. -/
theorem changed_by_admins_iff (db : ChatStore) (chatId requesterId : Uuid) (change : GroupChange) :
    change.ForAdmins db chatId requesterId ↔ ¬ change.Unguarded db chatId requesterId := by
  cases change with
  | updateChat name description avatarUrl =>
    rw [forAdmins_updateChat_iff, GroupChange.Unguarded]
    push Not
    constructor
    · intro h hno row hrow hcheck
      exact hno (h row hrow hcheck)
    · intro h row hrow hcheck
      by_contra hno
      exact h hno row hrow hcheck
  | addParticipant userId encryptionKeyEnc =>
    exact iff_of_true (forAdmins_addParticipant userId encryptionKeyEnc) id
  | setInviteLink slug => exact iff_of_true (forAdmins_setInviteLink slug) id
  | rotateGroupKey keys => exact iff_of_true (forAdmins_rotateGroupKey keys) id

/-- Alice has created a group with Bob, who is a member. -/
def friends : ChatStore := (chatServer.run
  [.spawn (alice, .group (.createGroup "friends" [bob])), .step 0 (at_ 1), .step 0 (at_ 2)]
  (System.start (.empty [alice, bob]))).db

/-- Bob gives the group another name. -/
theorem renamed_by_member : (friends.liveChat theGroup).map ChatRow.chatType = some .group ∧
    roleOf friends.toChatsDb theGroup bob = some .member ∧
    ¬ (GroupChange.updateChat (some "enemies") none none).ForAdmins friends theGroup bob := by
  refine ⟨rfl, rfl, fun h => ?_⟩
  have hadmin := forAdmins_updateChat_iff.mp h _ rfl (by decide)
  exact absurd hadmin (by decide)

end Mesty.Groups.Guards
