import Mesty.Chats.Repository

namespace Mesty.Chats.Ownership

open Mesty.Base.Ids Mesty.Chats.Entities Mesty.Chats.Repository

variable {db : ChatsDb} {chatId userId : Uuid} {row : ParticipantRow}

def LiveGroup (db : ChatsDb) (chatId : Uuid) : Prop :=
  ∃ row, db.chats.lookup chatId = some row ∧ row.chatType = .group ∧ row.deletedAt = none

def Active (db : ChatsDb) (chatId userId : Uuid) : Prop :=
  ∃ row, db.participant chatId userId = some row ∧ row.leftAt = none

def Owns (db : ChatsDb) (chatId userId : Uuid) : Prop :=
  ∃ row, db.participant chatId userId = some row ∧ row.leftAt = none ∧ row.role = .owner

/-- Every group that is not deleted has exactly one active owner. -/
def OneOwner (db : ChatsDb) : Prop := ∀ chatId, LiveGroup db chatId → ∃! userId, Owns db chatId userId

/-- The foreign keys of `chat_participants`. -/
def Rooted (db : ChatsDb) : Prop :=
  ∀ chatId userId row, db.participant chatId userId = some row → chatId ∈ db.chats ∧ userId ∈ db.users

theorem Owns.active (h : Owns db chatId userId) : Active db chatId userId := by
  obtain ⟨row, hrow, hl, -⟩ := h
  exact ⟨row, hrow, hl⟩

/-- Only the live groups and their owners matter. -/
theorem OneOwner.congr {db' : ChatsDb} (h : OneOwner db)
    (hlive : ∀ chatId, LiveGroup db' chatId → LiveGroup db chatId)
    (howns : ∀ chatId userId, Owns db' chatId userId ↔ Owns db chatId userId) : OneOwner db' := by
  intro chatId hl
  simpa only [howns] using h chatId (hlive chatId hl)

@[simp] theorem participant_setParticipant_self :
    (db.setParticipant chatId userId row).participant chatId userId = some row := by
  simp [ChatsDb.setParticipant, ChatsDb.participant]

theorem participant_setParticipant_ne {chatId' userId' : Uuid}
    (h : ¬ (chatId' = chatId ∧ userId' = userId)) :
    (db.setParticipant chatId userId row).participant chatId' userId' =
      db.participant chatId' userId' := by
  rw [ChatsDb.setParticipant, ChatsDb.participant, AList.lookup_insert_ne (by simpa using h),
    ChatsDb.participant]

theorem owns_setParticipant {chatId' userId' : Uuid} :
    Owns (db.setParticipant chatId userId row) chatId' userId' ↔
      if chatId' = chatId ∧ userId' = userId then row.leftAt = none ∧ row.role = .owner
      else Owns db chatId' userId' := by
  split_ifs with h
  · obtain ⟨rfl, rfl⟩ := h
    simp [Owns]
  · simp only [Owns, participant_setParticipant_ne h]

theorem existsUnique_replace_iff {α : Type} [DecidableEq α] {S : α → Prop} (h : ∃! a, S a)
    {old new : α} {A : Prop} :
    (∃! a, if a = new then A else a ≠ old ∧ S a) ↔ (A ↔ S old ∨ S new) := by
  obtain ⟨o, ho, huniq⟩ := h
  constructor
  · rintro ⟨a, ha, hua⟩
    constructor
    · intro hA
      by_contra hnot
      obtain ⟨hold, hnew⟩ := not_or.mp hnot
      have hon : o ≠ new := fun he => hnew (he ▸ ho)
      have hoo : o ≠ old := fun he => hold (he ▸ ho)
      have h1 := hua o (by simp [hon, hoo, ho])
      have h2 := hua new (by simp [hA])
      exact hon (h1.trans h2.symm)
    · intro hS
      by_cases han : a = new
      · simpa [han] using ha
      · simp only [han, if_false] at ha
        obtain rfl := huniq a ha.2
        rcases hS with hS | hS
        · exact absurd (huniq _ hS).symm ha.1
        · exact absurd (huniq _ hS).symm han
  · intro hA
    by_cases hS : S old ∨ S new
    · refine ⟨new, by simp [hA.mpr hS], fun a ha => ?_⟩
      by_contra han
      simp only [han, if_false] at ha
      obtain rfl := huniq a ha.2
      rcases hS with hS | hS
      · exact ha.1 (huniq _ hS).symm
      · exact han (huniq _ hS).symm
    · obtain ⟨hold, hnew⟩ := not_or.mp hS
      have hon : o ≠ new := fun he => hnew (he ▸ ho)
      have hoo : o ≠ old := fun he => hold (he ▸ ho)
      refine ⟨o, by simp [hon, hoo, ho], fun a ha => ?_⟩
      by_cases han : a = new
      · simp only [han, if_true] at ha
        exact absurd (hA.mp ha) hS
      · simp only [han, if_false] at ha
        exact huniq a ha.2

/-- Writing one row leaves the chat one owner exactly if the row agrees with the owner
that the chat had. -/
theorem oneOwner_setParticipant_iff (h : OneOwner db) (row : ParticipantRow) :
    OneOwner (db.setParticipant chatId userId row) ↔
      (LiveGroup db chatId →
        ((row.leftAt = none ∧ row.role = .owner) ↔ Owns db chatId userId)) := by
  have key : ∀ userId', Owns (db.setParticipant chatId userId row) chatId userId' ↔
      if userId' = userId then row.leftAt = none ∧ row.role = .owner
      else userId' ≠ userId ∧ Owns db chatId userId' := by
    intro userId'
    rw [owns_setParticipant]
    by_cases hu : userId' = userId <;> simp [hu]
  have hunique : LiveGroup db chatId →
      ((∃! userId', Owns (db.setParticipant chatId userId row) chatId userId') ↔
        ((row.leftAt = none ∧ row.role = .owner) ↔ Owns db chatId userId)) := fun hl => by
    simp only [key]
    rw [existsUnique_replace_iff (h chatId hl), or_self]
  constructor
  · exact fun h' hl => (hunique hl).mp (h' chatId hl)
  · intro hagree chatId' hl
    by_cases hc : chatId' = chatId
    · subst hc
      exact (hunique hl).mpr (hagree hl)
    · simpa only [owns_setParticipant, hc, false_and, if_false] using h chatId' hl

theorem oneOwner_updateParticipant_iff {f : ParticipantRow → ParticipantRow} (h : OneOwner db)
    (hf : ∀ row, ¬ ((f row).leftAt = none ∧ (f row).role = .owner)) :
    OneOwner (db.updateParticipant chatId userId f) ↔
      (LiveGroup db chatId → ¬ Owns db chatId userId) := by
  rw [ChatsDb.updateParticipant]
  cases hrow : db.participant chatId userId with
  | some row => simpa only [hf, false_iff] using oneOwner_setParticipant_iff h (f row)
  | none => simp [h, Owns, hrow]

theorem oneOwner_setRole_iff {role : ParticipantRole} (h : OneOwner db) :
    OneOwner (db.setRole chatId userId role).2 ↔
      (LiveGroup db chatId → Active db chatId userId →
        (role = .owner ↔ Owns db chatId userId)) := by
  rw [ChatsDb.setRole]
  cases hrow : db.activeRow chatId userId with
  | some row =>
    obtain ⟨hp, hl⟩ := Option.filter_eq_some_iff.mp hrow
    rw [Option.isNone_iff_eq_none] at hl
    have hactive : Active db chatId userId := ⟨row, hp, hl⟩
    simpa only [hactive, hl, true_and, forall_const] using
      oneOwner_setParticipant_iff h { row with role := role }
  | none =>
    have hnot : ¬ Active db chatId userId := by
      rintro ⟨row, hp, hl⟩
      simp [ChatsDb.activeRow, hp, hl] at hrow
    simp [h, hnot]

/-- An upsert that takes effect makes the user a plain member. -/
theorem oneOwner_upsertRow_iff {onConflict : ParticipantRow → ParticipantRow} (h : OneOwner db)
    (hr : Rooted db) (hrow : row.role = .member) (hf : ∀ row, (onConflict row).role = .member) :
    OneOwner (db.upsertRow chatId userId row onConflict).2 ↔
      ((∀ a ∈ row.addedBy, a ∈ db.users) → LiveGroup db chatId → ¬ Owns db chatId userId) := by
  have hrole : ((db.participant chatId userId).elim row onConflict).role ≠ .owner := by
    cases db.participant chatId userId <;> simp [hrow, hf]
  rw [ChatsDb.upsertRow]
  split_ifs with hfull hkeys
  · simp only [h, true_iff]
    rintro - ⟨chat, hchat, ht, -⟩ -
    simp [ChatsDb.privateChatFull, hchat, ht] at hfull
  · simp only [h, true_iff]
    rintro hadded ⟨chat, hchat, -⟩ ⟨p, hp, -⟩
    obtain ⟨hc, hu⟩ := hr _ _ _ hp
    rcases hkeys with hk | hk | ⟨a, ha, hk⟩
    · exact hk hc
    · exact hk hu
    · exact hk (hadded a ha)
  · simp only [not_or, not_not, not_exists, not_and] at hkeys
    rw [oneOwner_setParticipant_iff h]
    simp only [hrole, and_false, false_iff]
    exact ⟨fun hnot _ => hnot, fun hnot => hnot hkeys.2.2⟩

theorem owns_updateParticipant {f : ParticipantRow → ParticipantRow} {chatId' userId' : Uuid} :
    Owns (db.updateParticipant chatId userId f) chatId' userId' ↔
      if chatId' = chatId ∧ userId' = userId then
        ∃ row, db.participant chatId userId = some row ∧ (f row).leftAt = none ∧
          (f row).role = .owner
      else Owns db chatId' userId' := by
  rw [ChatsDb.updateParticipant]
  cases hrow : db.participant chatId userId with
  | some row =>
    rw [owns_setParticipant]
    simp
  | none =>
    split_ifs with h
    · simp [Owns, h.1, h.2, hrow]
    · rfl

theorem active_updateParticipant {f : ParticipantRow → ParticipantRow} {userId' : Uuid}
    (hf : ∀ row, (f row).leftAt = row.leftAt) :
    Active (db.updateParticipant chatId userId f) chatId userId' ↔ Active db chatId userId' := by
  rw [ChatsDb.updateParticipant]
  cases hrow : db.participant chatId userId with
  | none => rfl
  | some row =>
    by_cases hu : userId' = userId
    · subst hu
      simp [Active, hf, hrow]
    · simp only [Active]
      rw [participant_setParticipant_ne (by simp [hu])]

theorem liveGroup_updateParticipant {f : ParticipantRow → ParticipantRow} {chatId' : Uuid} :
    LiveGroup (db.updateParticipant chatId userId f) chatId' ↔ LiveGroup db chatId' := by
  rw [ChatsDb.updateParticipant]
  cases db.participant chatId userId <;> rfl

theorem owns_transferRoles {currentOwnerId newOwnerId chatId' userId' : Uuid} :
    Owns (db.transferRoles chatId currentOwnerId newOwnerId) chatId' userId' ↔
      if chatId' = chatId ∧ userId' = newOwnerId then Active db chatId newOwnerId
      else ¬ (chatId' = chatId ∧ userId' = currentOwnerId) ∧ Owns db chatId' userId' := by
  have hactive : (∃ row, (db.updateParticipant chatId currentOwnerId
      (fun row => { row with role := .admin })).participant chatId newOwnerId = some row ∧
        row.leftAt = none) ↔ Active db chatId newOwnerId :=
    active_updateParticipant (fun _ => rfl)
  rw [ChatsDb.transferRoles, owns_updateParticipant]
  split_ifs
  · simpa using hactive
  · rw [owns_updateParticipant]
    split_ifs with h <;> simp [h]

/-- The transaction of `transfer_ownership` leaves the chat one owner exactly if it makes
an active member the owner in place of the owner. -/
theorem oneOwner_transferRoles_iff {currentOwnerId newOwnerId : Uuid} (h : OneOwner db) :
    OneOwner (db.transferRoles chatId currentOwnerId newOwnerId) ↔
      (LiveGroup db chatId → (Active db chatId newOwnerId ↔
        Owns db chatId currentOwnerId ∨ Owns db chatId newOwnerId)) := by
  have hlive : ∀ chatId', LiveGroup (db.transferRoles chatId currentOwnerId newOwnerId) chatId' ↔
      LiveGroup db chatId' := fun chatId' => by
    rw [ChatsDb.transferRoles, liveGroup_updateParticipant, liveGroup_updateParticipant]
  constructor
  · intro h' hl
    have := h' chatId ((hlive chatId).mpr hl)
    simp only [owns_transferRoles, true_and] at this
    exact (existsUnique_replace_iff (h chatId hl)).mp this
  · intro hnew chatId' hl
    rw [hlive] at hl
    by_cases hc : chatId' = chatId
    · subst hc
      simp only [owns_transferRoles, true_and]
      exact (existsUnique_replace_iff (h chatId' hl)).mpr (hnew hl)
    · simpa only [owns_transferRoles, hc, false_and, if_false, not_false_eq_true, true_and]
        using h chatId' hl

theorem oneOwner_updateChat {f : ChatRow → ChatRow} (h : OneOwner db)
    (hf : ∀ row, (f row).chatType = row.chatType ∧ ((f row).deletedAt = none → row.deletedAt = none)) :
    OneOwner (db.updateChat chatId f) := by
  rw [ChatsDb.updateChat]
  cases hrow : db.chats.lookup chatId with
  | none => exact h
  | some row =>
    refine h.congr (fun chatId' => ?_) (fun _ _ => Iff.rfl)
    rintro ⟨row', hrow', ht, hd⟩
    by_cases hc : chatId' = chatId
    · subst hc
      obtain rfl : f row = row' := by simpa using hrow'
      exact ⟨row, hrow, (hf row).1 ▸ ht, (hf row).2 hd⟩
    · exact ⟨row', by simpa [AList.lookup_insert_ne hc] using hrow', ht, hd⟩

theorem owns_insertMember {now : Timestamp} {creatorId chatId' userId' : Uuid} :
    Owns (ChatsDb.insertMember now chatId creatorId db userId) chatId' userId' ↔
      Owns db chatId' userId' := by
  rw [ChatsDb.insertMember]
  split_ifs with h
  · rfl
  · rw [owns_setParticipant]
    split_ifs with hc
    · obtain ⟨rfl, rfl⟩ := hc
      simp only [not_or, Option.not_isSome_iff_eq_none] at h
      simp [Owns, h.2]
    · rfl

theorem owns_foldl_insertMember {now : Timestamp} {creatorId chatId' userId' : Uuid}
    (participantIds : List Uuid) :
    Owns (participantIds.foldl (ChatsDb.insertMember now chatId creatorId) db) chatId' userId' ↔
      Owns db chatId' userId' := by
  induction participantIds generalizing db with
  | nil => rfl
  | cons userId rest ih => rw [List.foldl_cons, ih, owns_insertMember]

/-- The INSERT from UNNEST writes to the participants only. -/
theorem foldl_insertMember_eq {now : Timestamp} {creatorId : Uuid} (participantIds : List Uuid) :
    participantIds.foldl (ChatsDb.insertMember now chatId creatorId) db =
      { db with participants :=
          (participantIds.foldl (ChatsDb.insertMember now chatId creatorId) db).participants } := by
  induction participantIds generalizing db with
  | nil => rfl
  | cons userId rest ih =>
    rw [List.foldl_cons, ih, ChatsDb.insertMember]
    split_ifs <;> rfl

theorem participant_insertMember {now : Timestamp} {creatorId chatId' userId' : Uuid} :
    (ChatsDb.insertMember now chatId creatorId db userId).participant chatId' userId' =
      (db.participant chatId' userId').or
        (if chatId' = chatId ∧ userId' ≠ creatorId ∧ userId' = userId then
          some ⟨.member, none, some creatorId, now, none⟩ else none) := by
  rw [ChatsDb.insertMember]
  by_cases hkey : chatId' = chatId ∧ userId' = userId
  · obtain ⟨rfl, rfl⟩ := hkey
    by_cases hself : userId' = creatorId
    · simp [hself]
    · cases hold : db.participant chatId' userId' with
      | none => simp [hself]
      | some row => simp [hold]
  · have hother : ¬ (chatId' = chatId ∧ userId' ≠ creatorId ∧ userId' = userId) :=
      fun h => hkey ⟨h.1, h.2.2⟩
    rw [if_neg hother, Option.or_none]
    split_ifs
    · rfl
    · exact participant_setParticipant_ne hkey

/-- The first row for a user is kept, and the others are in conflict with it. -/
theorem participant_foldl_insertMember {now : Timestamp} {creatorId chatId' userId' : Uuid}
    (participantIds : List Uuid) :
    (participantIds.foldl (ChatsDb.insertMember now chatId creatorId) db).participant chatId' userId' =
      (db.participant chatId' userId').or
        (if chatId' = chatId ∧ userId' ≠ creatorId ∧ userId' ∈ participantIds then
          some ⟨.member, none, some creatorId, now, none⟩ else none) := by
  induction participantIds generalizing db with
  | nil => simp
  | cons userId rest ih =>
    rw [List.foldl_cons, ih, participant_insertMember, Option.or_assoc]
    refine congrArg _ ?_
    by_cases hu : userId' = userId
    · simp only [hu, List.mem_cons_self, and_true]
      split_ifs <;> simp_all
    · simp only [hu, and_false, if_false, Option.none_or, List.mem_cons, false_or]

/-- The transaction creates a group of known users, or it changes nothing. -/
theorem createGroupChat_cases {db' : ChatsDb} {ω : Choice} {creatorId : Uuid} {name : String}
    {participantIds : List Uuid} {ans}
    (h : db.createGroupChat ω creatorId name participantIds = some (ans, db')) :
    (∃ e, ans = .error e) ∧ db' = db ∨
      ans = .ok ω.uuid ∧ ω.uuid ∉ db.chats ∧ creatorId ∈ db.users ∧
        (∀ userId ∈ participantIds, userId ∈ db.users) ∧
        db' = participantIds.foldl (ChatsDb.insertMember ω.now ω.uuid creatorId)
          ({ db with
              chats := db.chats.insert ω.uuid
                ⟨.group, some name, none, none, some creatorId, none, ω.now, none⟩ }.setParticipant
            ω.uuid creatorId ⟨.owner, none, some creatorId, ω.now, none⟩) := by
  rw [ChatsDb.createGroupChat] at h
  split_ifs at h with hfresh hname hkeys <;> cases h
  · exact .inl ⟨⟨_, rfl⟩, rfl⟩
  · exact .inl ⟨⟨_, rfl⟩, rfl⟩
  · simp only [not_or, not_not, not_exists, not_and] at hkeys
    exact .inr ⟨rfl, hfresh, hkeys.1, hkeys.2, rfl⟩

theorem oneOwner_createGroupChat {db' : ChatsDb} {ω : Choice} {creatorId : Uuid} {name : String}
    {participantIds : List Uuid} {ans} (h : OneOwner db) (hr : Rooted db)
    (he : db.createGroupChat ω creatorId name participantIds = some (ans, db')) : OneOwner db' := by
  obtain ⟨-, rfl⟩ | ⟨-, hfresh, -, -, rfl⟩ := createGroupChat_cases he
  · exact h
  · intro chatId hl
    simp only [owns_foldl_insertMember, owns_setParticipant, and_true]
    by_cases hc : chatId = ω.uuid
    · refine ⟨creatorId, by simp [hc], fun userId hu => ?_⟩
      by_contra hne
      simp only [hc, hne, and_false, if_false] at hu
      obtain ⟨row, hrow, -⟩ := hu
      exact hfresh (hr _ _ _ hrow).1
    · simp only [hc, false_and, if_false]
      refine h chatId ?_
      obtain ⟨row, hrow, ht⟩ := hl
      refine ⟨row, ?_, ht⟩
      rw [foldl_insertMember_eq] at hrow
      simpa [ChatsDb.setParticipant, AList.lookup_insert_ne hc] using hrow

theorem rooted_setParticipant (h : Rooted db) (hc : chatId ∈ db.chats) (hu : userId ∈ db.users) :
    Rooted (db.setParticipant chatId userId row) := by
  intro chatId' userId' row' hrow'
  by_cases hk : chatId' = chatId ∧ userId' = userId
  · obtain ⟨rfl, rfl⟩ := hk
    exact ⟨hc, hu⟩
  · rw [participant_setParticipant_ne hk] at hrow'
    exact h chatId' userId' row' hrow'

theorem rooted_updateParticipant {f : ParticipantRow → ParticipantRow} (h : Rooted db) :
    Rooted (db.updateParticipant chatId userId f) := by
  rw [ChatsDb.updateParticipant]
  cases hrow : db.participant chatId userId with
  | none => exact h
  | some row => exact rooted_setParticipant h (h _ _ _ hrow).1 (h _ _ _ hrow).2

theorem rooted_setRole {role : ParticipantRole} (h : Rooted db) :
    Rooted (db.setRole chatId userId role).2 := by
  rw [ChatsDb.setRole]
  cases hrow : db.activeRow chatId userId with
  | none => exact h
  | some row =>
    obtain ⟨hrow, -⟩ := Option.filter_eq_some_iff.mp hrow
    exact rooted_setParticipant h (h _ _ _ hrow).1 (h _ _ _ hrow).2

theorem rooted_upsertRow {onConflict : ParticipantRow → ParticipantRow} (h : Rooted db) :
    Rooted (db.upsertRow chatId userId row onConflict).2 := by
  rw [ChatsDb.upsertRow]
  split_ifs with hfull hkeys
  · exact h
  · exact h
  · simp only [not_or, not_not] at hkeys
    exact rooted_setParticipant h hkeys.1 hkeys.2.1

theorem rooted_updateChat {f : ChatRow → ChatRow} (h : Rooted db) :
    Rooted (db.updateChat chatId f) := by
  rw [ChatsDb.updateChat]
  cases db.chats.lookup chatId with
  | none => exact h
  | some row =>
    intro chatId' userId' row' hrow'
    exact ⟨(AList.mem_insert _).mpr (.inr (h _ _ _ hrow').1), (h _ _ _ hrow').2⟩

theorem rooted_foldl_insertMember {now : Timestamp} {creatorId : Uuid} {participantIds : List Uuid}
    (h : Rooted db) (hnew : ∀ userId ∈ participantIds, userId ≠ creatorId →
      db.participant chatId userId = none → chatId ∈ db.chats ∧ userId ∈ db.users) :
    Rooted (participantIds.foldl (ChatsDb.insertMember now chatId creatorId) db) := by
  intro chatId' userId' row' hrow'
  rw [participant_foldl_insertMember] at hrow'
  rw [foldl_insertMember_eq]
  cases hold : db.participant chatId' userId' with
  | some old => exact h chatId' userId' old hold
  | none =>
    rw [hold, Option.none_or] at hrow'
    split_ifs at hrow' with hkey
    obtain ⟨rfl, hne, hmem⟩ := hkey
    exact hnew userId' hmem hne hold

theorem rooted_createGroupChat {db' : ChatsDb} {ω : Choice} {creatorId : Uuid} {name : String}
    {participantIds : List Uuid} {ans} (h : Rooted db)
    (he : db.createGroupChat ω creatorId name participantIds = some (ans, db')) : Rooted db' := by
  obtain ⟨-, rfl⟩ | ⟨-, -, hcreator, hmembers, rfl⟩ := createGroupChat_cases he
  · exact h
  · have hchat : ω.uuid ∈ db.chats.insert ω.uuid
        ⟨.group, some name, none, none, some creatorId, none, ω.now, none⟩ :=
      (AList.mem_insert _).mpr (.inl rfl)
    refine rooted_foldl_insertMember (rooted_setParticipant ?_ hchat hcreator)
      fun userId hmem _ _ => ⟨hchat, hmembers userId hmem⟩
    exact fun chatId userId row hrow =>
      ⟨(AList.mem_insert _).mpr (.inr (h chatId userId row hrow).1), (h chatId userId row hrow).2⟩

end Mesty.Chats.Ownership
