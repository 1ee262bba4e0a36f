import Mesty.Chats.Effects
import Mesty.Chats.Ownership
import Mesty.Concurrency.Sequential

namespace Mesty.Groups.Authority

open Mesty.Base.Ids Mesty.Base.Error Mesty.Concurrency.Pool Mesty.Concurrency.Sequential
open Mesty.Chats.Entities Mesty.Chats.Repository Mesty.Chats.Store Mesty.Chats.Handlers
open Mesty.Chats.Changes (createPrivateChat_cases)
open Mesty.Chats.Effects (SameTables)
open Mesty.Chats.Ownership (createGroupChat_cases participant_setParticipant_self
  participant_setParticipant_ne participant_foldl_insertMember)
open Mesty.Groups.Effects
open Mesty.Groups.Handlers (GroupReq)

/-- The rank of the active role; who is not a member has the lowest. -/
def standing (db : ChatsDb) (chatId userId : Uuid) : Nat :=
  (roleOf db chatId userId).elim 0 ParticipantRole.rank

/-- `actor` is an active member whose role is strictly above the rank `n`. -/
def Above (db : ChatsDb) (chatId actor : Uuid) (n : Nat) : Prop :=
  ∃ r, roleOf db chatId actor = some r ∧ n < r.rank

/-- Why a request of `actor` may raise the role of `userId` to `new`. -/
def MayRaise (db : ChatsDb) (actor chatId userId : Uuid) (new : Option ParticipantRole) :
    ChatReq → Prop
  | .group (.joinBySlug slug) =>
    actor = userId ∧ (db.findChatBySlug slug).map Chat.id = some chatId ∧ new = some .member
  | .group (.addParticipant chatId' userId' _) =>
    chatId' = chatId ∧ userId' = userId ∧ new = some .member ∧
      ∃ r, roleOf db chatId actor = some r ∧ .admin ≤ r
  | .group (.updateParticipantRole chatId' userId' _) =>
    chatId' = chatId ∧ userId' = userId ∧ Above db chatId actor (standing db chatId userId) ∧
      Above db chatId actor (new.elim 0 ParticipantRole.rank)
  | .group (.transferOwnership chatId' userId') =>
    chatId' = chatId ∧ userId' = userId ∧ roleOf db chatId actor = some .owner
  | _ => False

/-- What a request of `actor` may do to the roles in a chat that exists. -/
def Authorized (db db' : ChatsDb) (actor : Uuid) (req : ChatReq) (chatId userId : Uuid) : Prop :=
  (standing db chatId userId < standing db' chatId userId →
    MayRaise db actor chatId userId (roleOf db' chatId userId) req) ∧
  (standing db' chatId userId < standing db chatId userId →
    actor = userId ∨ Above db chatId actor (standing db chatId userId))

variable {db db' : ChatsDb} {actor chatId userId chatId' userId' : Uuid} {req : ChatReq}

theorem roleOf_setParticipant {row : ParticipantRow} :
    roleOf (db.setParticipant chatId' userId' row) chatId userId =
      if chatId = chatId' ∧ userId = userId' then
        if row.leftAt = none then some row.role else none
      else roleOf db chatId userId := by
  split_ifs with h hleft
  · obtain ⟨rfl, rfl⟩ := h
    simp [roleOf, ChatsDb.activeRow, hleft]
  · obtain ⟨rfl, rfl⟩ := h
    simp [roleOf, ChatsDb.activeRow, Option.isNone_iff_eq_none, hleft]
  · rw [roleOf, roleOf, ChatsDb.activeRow, ChatsDb.activeRow, participant_setParticipant_ne h]

theorem roleOf_congr (h : db'.participants = db.participants) :
    roleOf db' chatId userId = roleOf db chatId userId := by
  simp only [roleOf, ChatsDb.activeRow, ChatsDb.participant, h]

theorem participants_updateChat (db : ChatsDb) (chatId : Uuid) (f : ChatRow → ChatRow) :
    (db.updateChat chatId f).participants = db.participants := by
  rw [ChatsDb.updateChat]
  split <;> rfl

theorem standing_congr (h : roleOf db' chatId userId = roleOf db chatId userId) :
    standing db' chatId userId = standing db chatId userId := by
  rw [standing, standing, h]

/-- Nothing needs authority where the role stays. -/
theorem Authorized.same (h : roleOf db' chatId userId = roleOf db chatId userId) :
    Authorized db db' actor req chatId userId := by
  have := standing_congr h
  exact ⟨fun hlt => by omega, fun hlt => by omega⟩

theorem standing_of_none (h : db.activeRow chatId userId = none) : standing db chatId userId = 0 := by
  rw [standing, roleOf, h]
  rfl

/-- One row is written: only the role of this user in this chat needs authority. -/
theorem authorized_setParticipant {row : ParticipantRow}
    (h : Authorized db (db.setParticipant chatId' userId' row) actor req chatId' userId') :
    Authorized db (db.setParticipant chatId' userId' row) actor req chatId userId := by
  by_cases hkey : chatId = chatId' ∧ userId = userId'
  · obtain ⟨rfl, rfl⟩ := hkey
    exact h
  · exact .same (by rw [roleOf_setParticipant, if_neg hkey])

theorem authorized_updateParticipant {f : ParticipantRow → ParticipantRow}
    (h : ∀ row, db.participant chatId' userId' = some row →
      Authorized db (db.setParticipant chatId' userId' (f row)) actor req chatId' userId') :
    Authorized db (db.updateParticipant chatId' userId' f) actor req chatId userId := by
  rw [ChatsDb.updateParticipant]
  cases hrow : db.participant chatId' userId' with
  | none => exact .same rfl
  | some row => exact authorized_setParticipant (h row hrow)

theorem roleOf_updateParticipant {f : ParticipantRow → ParticipantRow} :
    roleOf (db.updateParticipant chatId' userId' f) chatId userId =
      if chatId = chatId' ∧ userId = userId' then
        (db.participant chatId' userId').bind (fun row =>
          if (f row).leftAt = none then some (f row).role else none)
      else roleOf db chatId userId := by
  rw [ChatsDb.updateParticipant]
  cases hrow : db.participant chatId' userId' with
  | some row => exact roleOf_setParticipant
  | none =>
    split_ifs with h
    · obtain ⟨rfl, rfl⟩ := h
      simp [roleOf, ChatsDb.activeRow, hrow]
    · rfl

theorem rank_le_owner (r : ParticipantRole) : r.rank ≤ ParticipantRole.owner.rank := by
  cases r <;> decide

theorem standing_le_owner (db : ChatsDb) (chatId userId : Uuid) :
    standing db chatId userId ≤ ParticipantRole.owner.rank := by
  rw [standing]
  cases roleOf db chatId userId with
  | none => exact Nat.zero_le _
  | some r => exact rank_le_owner r

/-- The owner and an active member change places, and nobody else is touched. -/
theorem authorized_transferRoles {newOwnerId : Uuid} {row : ParticipantRow}
    (hactor : roleOf db chatId' actor = some .owner)
    (hnew : db.activeRow chatId' newOwnerId = some row) (hne : newOwnerId ≠ actor) :
    Authorized db (db.transferRoles chatId' actor newOwnerId) actor
      (.group (.transferOwnership chatId' newOwnerId)) chatId userId := by
  obtain ⟨hrow, hleft⟩ := activeRow_eq.mp hnew
  have hother : (db.updateParticipant chatId' actor
      (fun row => { row with role := .admin })).participant chatId' newOwnerId = some row := by
    rw [ChatsDb.updateParticipant]
    cases db.participant chatId' actor with
    | none => exact hrow
    | some _ => rwa [participant_setParticipant_ne (by simp [hne])]
  by_cases hnewer : chatId = chatId' ∧ userId = newOwnerId
  · obtain ⟨rfl, rfl⟩ := hnewer
    have hrole : roleOf (db.transferRoles chatId actor userId) chatId userId = some .owner := by
      rw [ChatsDb.transferRoles, roleOf_updateParticipant, if_pos ⟨rfl, rfl⟩, hother]
      simp [hleft]
    refine ⟨fun _ => ⟨rfl, rfl, hactor⟩, fun hlt => ?_⟩
    have hle := standing_le_owner db chatId userId
    rw [standing, hrole, Option.elim_some] at hlt
    omega
  · have hrole : roleOf (db.transferRoles chatId' actor newOwnerId) chatId userId =
        roleOf (db.updateParticipant chatId' actor (fun row => { row with role := .admin })) chatId
          userId := by
      rw [ChatsDb.transferRoles, roleOf_updateParticipant, if_neg hnewer]
    by_cases hself : chatId = chatId' ∧ userId = actor
    · obtain ⟨rfl, rfl⟩ := hself
      refine ⟨fun hlt => ?_, fun _ => .inl rfl⟩
      have hle := standing_le_owner (db.transferRoles chatId userId newOwnerId) chatId userId
      rw [standing, hactor, Option.elim_some] at hlt
      omega
    · exact .same (by rw [hrole, roleOf_updateParticipant, if_neg hself])

theorem participant_createGroupChat {ω : Choice} {name : String} {participantIds : List Uuid}
    {newId : Uuid} (hchat : chatId ∈ db.chats)
    (h : db.createGroupChat ω actor name participantIds = some (.ok newId, db')) :
    db'.participant chatId userId = db.participant chatId userId := by
  obtain ⟨⟨e, he⟩, -⟩ | ⟨-, hfresh, -, -, rfl⟩ := createGroupChat_cases h
  · cases he
  · have hne : chatId ≠ ω.uuid := fun heq => hfresh (heq ▸ hchat)
    rw [participant_foldl_insertMember, if_neg (fun h => hne h.1), Option.or_none,
      participant_setParticipant_ne (by simp [hne])]
    rfl

/-- Who leaves has no role, so that only somebody else who makes them leave needs authority. -/
theorem authorized_leave {f : ParticipantRow → ParticipantRow} (hleft : ∀ row, (f row).leftAt ≠ none)
    (hactor : actor = userId' ∨ Above db chatId' actor (standing db chatId' userId')) :
    Authorized db (db.updateParticipant chatId' userId' f) actor req chatId userId := by
  refine authorized_updateParticipant fun row _ => ⟨fun hlt => ?_, fun _ => hactor⟩
  rw [standing, standing, roleOf_setParticipant, if_pos ⟨rfl, rfl⟩, if_neg (hleft row)] at hlt
  exact absurd hlt (Nat.not_lt_zero _)

theorem standing_of_role {r : ParticipantRole} (h : roleOf db chatId userId = some r) :
    standing db chatId userId = r.rank := by
  rw [standing, h, Option.elim_some]

theorem above_of_lt {r old : ParticipantRole} (hactor : roleOf db chatId actor = some r)
    (hold : roleOf db chatId userId = some old) (hlt : old < r) :
    Above db chatId actor (standing db chatId userId) :=
  ⟨r, hactor, by rwa [standing_of_role hold]⟩

/-- A request of the group handlers acts within the authority of its user. -/
theorem group_authorized {req : GroupReq} (hchat : chatId ∈ db.chats)
    (h : Effect db actor req db') : Authorized db db' actor (.group req) chatId userId := by
  cases h with
  | nothing => exact .same rfl
  | createGroup h =>
    refine .same ?_
    simp only [roleOf, ChatsDb.activeRow, participant_createGroupChat hchat h]
  | addParticipant hactor hrank hchat htype hidle hrow =>
    refine authorized_setParticipant ⟨fun _ => ?_, fun hlt => ?_⟩
    · rw [roleOf_setParticipant, if_pos ⟨rfl, rfl⟩, if_pos hrow.2, hrow.1]
      exact ⟨rfl, rfl, rfl, _, hactor, hrank⟩
    · rw [standing_of_none hidle] at hlt
      omega
  | joinBySlug hslug hchat hidle hrow =>
    refine authorized_setParticipant ⟨fun _ => ?_, fun _ => .inl rfl⟩
    rw [roleOf_setParticipant, if_pos ⟨rfl, rfl⟩, if_pos hrow.2, hrow.1]
    exact ⟨rfl, hslug, rfl⟩
  | removeParticipant hactor htarget hrank =>
    refine authorized_leave (fun row => by cases row.leftAt <;> simp) ?_
    split_ifs at hrank with hself
    · exact .inl hself
    · exact .inr (above_of_lt hactor htarget hrank)
  | setRole hactor htarget hnew hrank =>
    have hold : roleOf db _ _ = some _ := congrArg (Option.map ParticipantRow.role) htarget
    have habove := above_of_lt hactor hold hrank.1
    refine authorized_setParticipant ⟨fun _ => ?_, fun _ => .inr habove⟩
    rw [roleOf_setParticipant, if_pos ⟨rfl, rfl⟩, if_pos (activeRow_eq.mp htarget).2]
    exact ⟨rfl, rfl, habove, _, hactor, hrank.2⟩
  | setInviteLink => exact .same (roleOf_congr (participants_updateChat _ _ _))
  | transferOwnership hactor hnew hne => exact authorized_transferRoles hactor hnew hne
  | leave => exact authorized_leave (fun row => by simp) (.inl rfl)
  | deleteChat => exact .same (roleOf_congr (participants_updateChat _ _ _))

theorem roleOf_rotateKeys (keys : List (Uuid × String)) (n : Nat) :
    roleOf (keys.foldl (rotateKey chatId') (n, db)).2 chatId userId = roleOf db chatId userId := by
  induction keys generalizing n db with
  | nil => rfl
  | cons entry rest ih =>
    rw [List.foldl_cons, rotateKey]
    cases hrow : db.activeRow chatId' entry.1 with
    | none => exact ih n
    | some row =>
      refine (ih (n + 1)).trans ?_
      rw [roleOf_setParticipant]
      split_ifs with hkey hleft
      · obtain ⟨rfl, rfl⟩ := hkey
        rw [roleOf, hrow, Option.map_some]
      · exact absurd (activeRow_eq.mp hrow).2 hleft
      · rfl

section Requests

open Mesty.Chats.Effects (Done handle_done)

variable {db db' : ChatStore}

theorem participant_createPrivateChat {ω : StoreChoice} {participantId newId : Uuid}
    (hchat : chatId ∈ db.chats)
    (h : db.createPrivateChat ω actor participantId = some (.ok newId, db')) :
    db'.participant chatId userId = db.participant chatId userId := by
  obtain ⟨⟨e, he⟩, -⟩ | ⟨-, hfresh, -, -, -, rfl⟩ := createPrivateChat_cases h
  · cases he
  · have hne : chatId ≠ ω.uuid := fun heq => hfresh (heq ▸ hchat)
    change ((ChatsDb.setParticipant _ _ _ _).setParticipant _ _ _).participant _ _ = _
    rw [participant_setParticipant_ne (by simp [hne]),
      participant_setParticipant_ne (by simp [hne])]
    rfl

theorem effect_authorized (hchat : chatId ∈ db.chats) (h : Chats.Effects.Effect db actor req db') :
    Authorized db.toChatsDb db'.toChatsDb actor req chatId userId := by
  cases h with
  | group h => exact group_authorized hchat h
  | rotateGroupKey => exact .same (roleOf_rotateKeys _ 0)
  | createPrivateChat h =>
    refine .same ?_
    simp only [roleOf, ChatsDb.activeRow, participant_createPrivateChat hchat h]
  | updateChat => exact .same (roleOf_congr (participants_updateChat _ _ _))
  | nothing | sendMessage | editMessage | deleteMessage => exact .same rfl

theorem done_authorized (hchat : chatId ∈ db.chats) (h : Done db actor req db') :
    Authorized db.toChatsDb db'.toChatsDb actor req chatId userId := by
  obtain ⟨db₁, heffect, ⟨-, hparticipants⟩, -⟩ := h
  have hrole : roleOf db'.toChatsDb chatId userId = roleOf db₁.toChatsDb chatId userId :=
    roleOf_congr hparticipants
  simpa only [Authorized, standing, hrole] using effect_authorized hchat heffect

abbrev ChatConfig := Config (Uuid × ChatReq) (fun _ => Except ApiError Response) ChatStore
  (Uuid × ChatReq) (Except ApiError Response)

abbrev ChatAct := Act (Uuid × ChatReq) (List StoreChoice)

/-- Whenever the move changes a role in a chat that exists, it runs a request whose user has
the authority for that. -/
def Lawful (c : ChatConfig) (a : ChatAct) : Prop :=
  ∀ d, (atomic chatServer).apply a c = some d → ∀ chatId ∈ c.db.chats, ∀ userId,
    roleOf d.db.toChatsDb chatId userId = roleOf c.db.toChatsDb chatId userId ∨
    ∃ i ωs actor req, a = .step i ωs ∧ c.tasks[i]?.bind (fun t => t.2.next) = some (actor, req) ∧
      Authorized c.db.toChatsDb d.db.toChatsDb actor req chatId userId

theorem lawful_move (c : ChatConfig) (a : ChatAct) : Lawful c a := by
  intro d ha chatId hchat userId
  obtain h | ⟨i, ωs, ⟨actor, req⟩, out, rfl, hnext, hrun⟩ | ⟨ω, htick⟩ := atomic_cases ha
  · exact .inl (by rw [h])
  · have hdone : Done c.db actor req d.db := (handle_done c.db actor req).of_alone hrun
    exact .inr ⟨i, ωs, actor, req, rfl, hnext, done_authorized hchat hdone⟩
  · obtain hdb := Option.some.inj htick
    exact .inl (roleOf_congr (by rw [← hdb]))

/-- Every role change in a run is made by somebody with the authority for it. -/
theorem no_privilege_escalation (users : List Uuid) (acts : List ChatAct) :
    (atomic chatServer).Every Lawful acts (System.start (.empty users)) :=
  System.every_of_forall lawful_move acts _

end Requests

end Mesty.Groups.Authority
