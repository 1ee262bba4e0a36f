import Mesty.Chats.Ownership
import Mesty.Groups.Handlers

namespace Mesty.Groups.SingleOwner

open Mesty.Base.Ids Mesty.Base.Error Mesty.Concurrency.Program Mesty.Concurrency.Pool
open Mesty.Chats.Entities Mesty.Chats.Repository Mesty.Chats.Ownership Mesty.Groups.Handlers

abbrev GroupConfig := Config ChatCmd ChatCmd.Ans ChatsDb (Uuid × GroupReq) (Except ApiError Response)

abbrev GroupAct := Act (Uuid × GroupReq) Choice

/-- What the checks of the handlers are meant to ensure at the moment of the write: in a
live group the active owner is not removed, not added again and not given another role,
and a transfer makes an active member the owner in place of the owner. -/
def KeepsOwner (db : ChatsDb) : ChatCmd → Prop
  | .leaveActive chatId userId | .leave chatId userId | .rejoin chatId userId =>
    LiveGroup db chatId → ¬ Owns db chatId userId
  | .upsertParticipant chatId userId _ addedBy =>
    addedBy ∈ db.users → LiveGroup db chatId → ¬ Owns db chatId userId
  | .setRole chatId userId role =>
    LiveGroup db chatId → Active db chatId userId → (role = .owner ↔ Owns db chatId userId)
  | .transferRoles chatId currentOwnerId newOwnerId =>
    LiveGroup db chatId → (Active db chatId newOwnerId ↔
      Owns db chatId currentOwnerId ∨ Owns db chatId newOwnerId)
  | _ => True

/-- A statement leaves each live group one owner exactly if it keeps the owner. -/
theorem exec_keepsOwner_iff {ω : Choice} {db db' : ChatsDb} {c : ChatCmd} {ans : c.Ans}
    (h : OneOwner db) (hr : Rooted db) (he : db.exec ω c = some (ans, db')) :
    KeepsOwner db c ↔ OneOwner db' := by
  cases c with
  | createGroupChat creatorId name participantIds =>
    simpa [KeepsOwner] using oneOwner_createGroupChat h hr he
  | upsertParticipant chatId userId encryptionKeyEnc addedBy =>
    obtain ⟨-, rfl⟩ := Prod.ext_iff.mp (Option.some.inj he)
    rw [oneOwner_upsertRow_iff h hr rfl (fun _ => rfl)]
    simp [KeepsOwner]
  | rejoin chatId userId =>
    obtain ⟨-, rfl⟩ := Prod.ext_iff.mp (Option.some.inj he)
    rw [oneOwner_upsertRow_iff h hr rfl (fun _ => rfl)]
    simp [KeepsOwner]
  | leaveActive chatId userId =>
    obtain ⟨-, rfl⟩ := Prod.ext_iff.mp (Option.some.inj he)
    refine (oneOwner_updateParticipant_iff h fun row => ?_).symm
    cases row.leftAt <;> simp
  | leave chatId userId =>
    obtain ⟨-, rfl⟩ := Prod.ext_iff.mp (Option.some.inj he)
    exact (oneOwner_updateParticipant_iff h (by simp)).symm
  | setRole chatId userId role =>
    obtain ⟨-, rfl⟩ := Prod.ext_iff.mp (Option.some.inj he)
    exact (oneOwner_setRole_iff h).symm
  | transferRoles chatId currentOwnerId newOwnerId =>
    obtain ⟨-, rfl⟩ := Prod.ext_iff.mp (Option.some.inj he)
    exact (oneOwner_transferRoles_iff h).symm
  | markDeleted chatId =>
    obtain ⟨-, rfl⟩ := Prod.ext_iff.mp (Option.some.inj he)
    simpa [KeepsOwner] using oneOwner_updateChat h (by simp)
  | setInviteLink chatId slug =>
    obtain ⟨-, rfl⟩ := Prod.ext_iff.mp (Option.some.inj he)
    simp only [KeepsOwner, true_iff, ChatsDb.setInviteLink]
    split
    · exact h
    · split_ifs
      · exact h
      · exact h
      · exact oneOwner_updateChat h (by simp)
  | publish channel payload =>
    obtain ⟨-, rfl⟩ := Prod.ext_iff.mp (Option.some.inj he)
    exact iff_of_true trivial (h.congr (fun _ => id) (fun _ _ => Iff.rfl))
  | randomSlug =>
    simp only [ChatsDb.exec, Option.ite_none_right_eq_some] at he
    obtain ⟨-, rfl⟩ := Prod.ext_iff.mp (Option.some.inj he.2)
    simpa [KeepsOwner] using h
  | getChatForUser | getParticipantRole | selectChatType | isActiveMember |
      selectTypeForParticipant | isOwner | findChatBySlug =>
    obtain ⟨-, rfl⟩ := Prod.ext_iff.mp (Option.some.inj he)
    simpa [KeepsOwner] using h

theorem rooted_exec {ω : Choice} {db db' : ChatsDb} {c : ChatCmd} {ans : c.Ans} (h : Rooted db)
    (he : db.exec ω c = some (ans, db')) : Rooted db' := by
  cases c with
  | createGroupChat creatorId name participantIds => exact rooted_createGroupChat h he
  | upsertParticipant | rejoin =>
    obtain ⟨-, rfl⟩ := Prod.ext_iff.mp (Option.some.inj he)
    exact rooted_upsertRow h
  | leaveActive | leave =>
    obtain ⟨-, rfl⟩ := Prod.ext_iff.mp (Option.some.inj he)
    exact rooted_updateParticipant h
  | setRole chatId userId role =>
    obtain ⟨-, rfl⟩ := Prod.ext_iff.mp (Option.some.inj he)
    exact rooted_setRole h
  | transferRoles chatId currentOwnerId newOwnerId =>
    obtain ⟨-, rfl⟩ := Prod.ext_iff.mp (Option.some.inj he)
    exact rooted_updateParticipant (rooted_updateParticipant h)
  | markDeleted chatId =>
    obtain ⟨-, rfl⟩ := Prod.ext_iff.mp (Option.some.inj he)
    exact rooted_updateChat h
  | setInviteLink chatId slug =>
    obtain ⟨-, rfl⟩ := Prod.ext_iff.mp (Option.some.inj he)
    simp only [ChatsDb.setInviteLink]
    split
    · exact h
    · split_ifs
      · exact h
      · exact h
      · exact rooted_updateChat h
  | randomSlug =>
    simp only [ChatsDb.exec, Option.ite_none_right_eq_some] at he
    obtain ⟨-, rfl⟩ := Prod.ext_iff.mp (Option.some.inj he.2)
    exact h
  | publish | getChatForUser | getParticipantRole | selectChatType | isActiveMember |
      selectTypeForParticipant | isOwner | findChatBySlug =>
    obtain ⟨-, rfl⟩ := Prod.ext_iff.mp (Option.some.inj he)
    exact h

/-- A move is in step if the statement it executes, if any, keeps the owner. -/
def InStep (c : GroupConfig) : GroupAct → Prop
  | .step i _ => ∀ cmd, c.tasks[i]?.bind (fun t => t.2.next) = some cmd → KeepsOwner c.db cmd
  | _ => True

theorem rooted_outline : Outline groupServer (fun _ _ => True) (fun w => Rooted w.db)
    (fun _ _ _ _ => True) where
  spawn _ _ _ := trivial
  step hc _ _ he := ⟨rooted_exec hc.1 he, trivial, fun _ _ _ _ _ => trivial⟩
  tick _ _ h := nomatch h

theorem step_oneOwner_iff {c d : GroupConfig} {a : GroupAct} (hr : Rooted c.db) (h : OneOwner c.db)
    (ha : groupServer.apply a c = some d) : InStep c a ↔ OneOwner d.db := by
  obtain ⟨r, rfl, rfl⟩ | ⟨i, ω, r, cmd, k, ans, s, rfl, ht, he, rfl⟩ | ⟨ω, s, -, hs, -⟩ :=
    System.apply_cases ha
  · simpa [InStep] using h
  · simpa [InStep, ht] using exec_keepsOwner_iff h hr he
  · exact nomatch hs

/-- In a run from an empty database every live group always has one active owner exactly
if every write finds the roles as its checks want them. -/
theorem one_owner_iff_in_step (users : List Uuid) (acts : List GroupAct) :
    groupServer.Every InStep acts (System.start (.empty users)) ↔
      ∀ c ∈ groupServer.trace acts (System.start (.empty users)), OneOwner c.db := by
  refine System.every_iff_forall (J := Config.Meets (fun w => Rooted w.db) (fun _ _ _ _ => True))
    (G := fun c => OneOwner c.db) (fun hc ha => rooted_outline.apply hc trivial ha)
    (fun hc h ha => step_oneOwner_iff hc.1 h ha) acts (Outline.start ?_) ?_
  · intro chatId userId row hrow
    simp [ChatsDb.empty, ChatsDb.participant] at hrow
  · rintro chatId ⟨row, hrow, -⟩
    simp [System.start, ChatsDb.empty] at hrow

def alice : Uuid := .ofNat 1

def bob : Uuid := .ofNat 2

def carol : Uuid := .ofNat 3

def theGroup : Uuid := .ofNat 4

def clockAt (now : Timestamp) : Choice := ⟨theGroup, now, ""⟩

/-- The owner of a group of three transfers it to both others at the same time: both
requests read the roles before one of them commits. -/
def transferTwice : List GroupAct :=
  [.spawn (alice, .createGroup "friends" [bob, carol]), .step 0 (clockAt 1), .step 0 (clockAt 2),
    .spawn (alice, .transferOwnership theGroup bob),
    .spawn (alice, .transferOwnership theGroup carol),
    .step 1 (clockAt 3), .step 1 (clockAt 4), .step 2 (clockAt 5), .step 2 (clockAt 6),
    .step 1 (clockAt 7), .step 2 (clockAt 8)]

theorem two_owners_after_transfers :
    ¬ ∀ c ∈ groupServer.trace transferTwice (System.start (.empty [alice, bob, carol])),
      OneOwner c.db := by
  intro h
  have hlen : (groupServer.trace transferTwice
      (System.start (.empty [alice, bob, carol]))).length = 12 := rfl
  have hone := h _ (List.getElem_mem (n := 11) (by omega)) theGroup
    ⟨⟨.group, some "friends", none, none, some alice, none, 1, none⟩, rfl, rfl, rfl⟩
  have hbob : Owns (groupServer.trace transferTwice
      (System.start (.empty [alice, bob, carol])))[11].db theGroup bob :=
    ⟨⟨.owner, none, some alice, 1, none⟩, rfl, rfl, rfl⟩
  have hcarol : Owns (groupServer.trace transferTwice
      (System.start (.empty [alice, bob, carol])))[11].db theGroup carol :=
    ⟨⟨.owner, none, some alice, 1, none⟩, rfl, rfl, rfl⟩
  exact absurd (hone.unique hbob hcarol) (by decide)

end Mesty.Groups.SingleOwner
