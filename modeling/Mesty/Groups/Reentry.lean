import Mesty.Groups.Deletion

namespace Mesty.Groups.Reentry

open Mesty.Base.Ids Mesty.Base.Error Mesty.Concurrency.Program Mesty.Concurrency.Pool
open Mesty.Chats.Entities Mesty.Chats.Repository Mesty.Chats.Store Mesty.Chats.Handlers
open Mesty.Chats.Participants (okOr requireRole joinByInvite addParticipant)
open Mesty.Groups.Effects (roleOf)
open Mesty.Groups.Deletion (alice bob theGroup at_)
open Mesty.Chats.Ownership (participant_setParticipant_self)

/-- The row of a member without a key, however and whenever added. -/
def Fresh (row : ParticipantRow) : Prop := row = ⟨.member, none, row.addedBy, row.joinedAt, none⟩

/-- The user has got in with such a row, and the answer reports it. -/
def Entered (chatId userId : Uuid) (out : Except DomainError ParticipantDetail) (db : ChatsDb) : Prop :=
  ∃ row, out = .ok (row.toDetail chatId userId) ∧ db.participant chatId userId = some row ∧ Fresh row

/-- The actor may add the user, who is not a member at the moment. -/
structure CanEnter (db : ChatsDb) (chatId actorId userId : Uuid) : Prop where
  group : ∃ chat, db.liveChat chatId = some chat ∧ chat.chatType ≠ .private
  rank : ∃ role, roleOf db chatId actorId = some role ∧ .admin ≤ role
  known : actorId ∈ db.users ∧ userId ∈ db.users
  idle : db.activeRow chatId userId = none

/-- The user has no key of an earlier membership. -/
def Keyless (db : ChatsDb) (chatId userId : Uuid) : Prop :=
  ∀ row, db.participant chatId userId = some row → row.encryptionKeyEnc = none

section Upserts

variable {db : ChatsDb} {chatId actorId userId : Uuid}

/-- In a group the statement inserts the row or updates the one in its way. -/
theorem upsertRow_eq {fresh : ParticipantRow} {onConflict : ParticipantRow → ParticipantRow}
    (hgroup : ∃ chat, db.liveChat chatId = some chat ∧ chat.chatType ≠ .private)
    (huser : userId ∈ db.users) (hadded : ∀ a ∈ fresh.addedBy, a ∈ db.users) :
    db.upsertRow chatId userId fresh onConflict =
      (.ok (((db.participant chatId userId).elim fresh onConflict).toDetail chatId userId),
        db.setParticipant chatId userId ((db.participant chatId userId).elim fresh onConflict)) := by
  obtain ⟨chat, hlive, htype⟩ := hgroup
  have hchat : db.chats.lookup chatId = some chat := (Option.filter_eq_some_iff.mp hlive).1
  have hmem : chatId ∈ db.chats := AList.lookup_isSome.mp (by rw [hchat, Option.isSome_some])
  have hfull : db.privateChatFull chatId = false := by simp [ChatsDb.privateChatFull, hchat, htype]
  have hkeys : ¬ (chatId ∉ db.chats ∨ userId ∉ db.users ∨ ∃ a ∈ fresh.addedBy, a ∉ db.users) := by
    rintro (h | h | ⟨a, ha, h⟩)
    · exact h hmem
    · exact h huser
    · exact h (hadded a ha)
  rw [ChatsDb.upsertRow, hfull, if_neg Bool.false_ne_true, if_neg hkeys]

/-- The row after `join_by_invite`. -/
def rejoined (db : ChatsDb) (chatId userId : Uuid) (now : Timestamp) : ParticipantRow :=
  (db.participant chatId userId).elim ⟨.member, none, none, now, none⟩
    (fun row => { row with leftAt := none, role := .member, joinedAt := now })

end Upserts

section Requests

/-- A SELECT goes on with what it has read. -/
theorem wp_select {α : Type} {Q : Except DomainError α → ChatsDb → Prop} {db : ChatsDb} {c : ChatCmd}
    {r : c.Ans} {f : c.Ans → ChatTask α} (he : ∀ ω, ChatsDb.exec ω c db = some (r, db)) :
    (ChatTask.query c >>= f).run.wp ChatsDb.exec Q db ↔ (f r).run.wp ChatsDb.exec Q db :=
  (Prog.wp_call_iff he).trans (forall_const Choice)

variable {Q : Except DomainError ParticipantDetail → ChatsDb → Prop} {db : ChatsDb}
  {chatId actorId userId : Uuid}

theorem isActiveMember_eq (h : db.activeRow chatId userId = none) (ω : Choice) :
    ChatsDb.exec ω (.isActiveMember chatId userId) db = some (false, db) := by
  rw [ChatsDb.exec, h, Option.isSome_none]

theorem wp_joinByInvite (h : CanEnter db chatId actorId userId) :
    (joinByInvite chatId userId).run.wp ChatsDb.exec Q db ↔ ∀ ω : Choice,
      Q (.ok ((rejoined db chatId userId ω.now).toDetail chatId userId))
        (db.setParticipant chatId userId (rejoined db chatId userId ω.now)) := by
  have hrejoin : ∀ ω, ChatsDb.exec ω (.rejoin chatId userId) db =
      some (.ok ((rejoined db chatId userId ω.now).toDetail chatId userId),
        db.setParticipant chatId userId (rejoined db chatId userId ω.now)) := by
    intro ω
    rw [ChatsDb.exec, upsertRow_eq h.group h.known.2 (by rintro _ ⟨⟩)]
    rfl
  rw [joinByInvite, wp_select (isActiveMember_eq h.idle), if_neg Bool.false_ne_true]
  exact Prog.wp_call_iff hrejoin

/-- After `add_participant` nothing is left of an earlier row. -/
theorem wp_addParticipant {key : Option String} (h : CanEnter db chatId actorId userId) :
    (addParticipant chatId actorId userId key).run.wp ChatsDb.exec Q db ↔ ∀ ω : Choice,
      Q (.ok (ParticipantRow.toDetail ⟨.member, key, some actorId, ω.now, none⟩ chatId userId))
        (db.setParticipant chatId userId ⟨.member, key, some actorId, ω.now, none⟩) := by
  obtain ⟨role, hrole, hrank⟩ := h.rank
  obtain ⟨chat, hlive, htype⟩ := h.group
  have hread : ∀ ω, ChatsDb.exec ω (.getParticipantRole actorId chatId) db = some (some role, db) := by
    intro ω
    rw [← hrole]
    rfl
  have hselect : ∀ ω, ChatsDb.exec ω (.selectChatType chatId) db = some (some chat.chatType, db) := by
    intro ω
    rw [ChatsDb.exec, hlive, Option.map_some]
  have hupsert : ∀ ω, ChatsDb.exec ω (.upsertParticipant chatId userId key actorId) db =
      some (.ok (ParticipantRow.toDetail ⟨.member, key, some actorId, ω.now, none⟩ chatId userId),
        db.setParticipant chatId userId ⟨.member, key, some actorId, ω.now, none⟩) := by
    intro ω
    rw [ChatsDb.exec, upsertRow_eq h.group h.known.2 (by rintro _ ⟨⟩; exact h.known.1)]
    cases db.participant chatId userId <;> rfl
  rw [addParticipant, requireRole, bind_assoc, wp_select hread]
  simp only [okOr, pure_bind, if_neg (not_lt_of_ge hrank)]
  rw [wp_select hselect]
  simp only [pure_bind, if_neg htype]
  rw [wp_select (isActiveMember_eq h.idle), if_neg Bool.false_ne_true]
  exact Prog.wp_call_iff hupsert

theorem entered_iff {row : ParticipantRow} :
    Entered chatId userId (.ok (row.toDetail chatId userId)) (db.setParticipant chatId userId row) ↔
      Fresh row := by
  constructor
  · rintro ⟨row', -, hrow, hfresh⟩
    rw [participant_setParticipant_self] at hrow
    exact Option.some.inj hrow ▸ hfresh
  · exact fun hfresh => ⟨row, rfl, participant_setParticipant_self, hfresh⟩

/-- `join_by_invite` keeps the key of the row that it finds. -/
theorem fresh_rejoined_iff {now : Timestamp} :
    Fresh (rejoined db chatId userId now) ↔ Keyless db chatId userId := by
  rw [Fresh, Keyless, rejoined]
  cases db.participant chatId userId with
  | none => simp
  | some row => simp

end Requests

/-- For every earlier row of a user who is not in the group: both ways let the user in as a member
without a key, with rows that are the same but for who added the user and when, exactly if
the earlier row, if any, holds no key. -/
theorem reentry_agrees_iff {db : ChatsDb} {chatId actorId userId : Uuid}
    (h : CanEnter db chatId actorId userId) :
    ((joinByInvite chatId userId).run.wp ChatsDb.exec (Entered chatId userId) db ∧
      (addParticipant chatId actorId userId none).run.wp ChatsDb.exec (Entered chatId userId) db) ↔
        Keyless db chatId userId := by
  rw [wp_joinByInvite h, wp_addParticipant h]
  simp only [entered_iff, fresh_rejoined_iff, forall_const]
  exact and_iff_left fun _ => rfl

def carol : Uuid := .ofNat 3

/-- Alice creates a group with Bob, gives him a key, and removes him. -/
def kicked : ChatsDb := (chatServer.run
  [.spawn (alice, .group (.createGroup "friends" [bob])), .step 0 (at_ 1), .step 0 (at_ 2),
    .spawn (alice, .rotateGroupKey theGroup [(bob, "first key")]), .step 1 (at_ 3),
    .step 1 (at_ 4), .step 1 (at_ 5), .spawn (alice, .group (.removeParticipant theGroup bob)),
    .step 2 (at_ 6), .step 2 (at_ 7), .step 2 (at_ 8), .step 2 (at_ 9), .step 2 (at_ 10)]
  (System.start (.empty [alice, bob, carol]))).db.toChatsDb

/-- Bob has his first key again when he joins by the link. -/
theorem first_key_kept : CanEnter kicked theGroup alice bob ∧
    ¬ ((joinByInvite theGroup bob).run.wp ChatsDb.exec (Entered theGroup bob) kicked ∧
      (addParticipant theGroup alice bob none).run.wp ChatsDb.exec (Entered theGroup bob) kicked) := by
  have henter : CanEnter kicked theGroup alice bob :=
    ⟨⟨_, rfl, by decide⟩, ⟨.owner, rfl, by decide⟩, by decide, rfl⟩
  refine ⟨henter, ?_⟩
  rintro ⟨hjoin, -⟩
  rw [wp_joinByInvite henter] at hjoin
  have hkeyless := fresh_rejoined_iff.mp (entered_iff.mp (hjoin (at_ 11).toChoice))
  cases hkeyless _ rfl

/-- Carol is new. -/
theorem newcomer_enters :
    (joinByInvite theGroup carol).run.wp ChatsDb.exec (Entered theGroup carol) kicked ∧
      (addParticipant theGroup alice carol none).run.wp ChatsDb.exec (Entered theGroup carol) kicked :=
  (reentry_agrees_iff ⟨⟨_, rfl, by decide⟩, ⟨.owner, rfl, by decide⟩, by decide, rfl⟩).mpr
    (by rintro _ ⟨⟩)

end Mesty.Groups.Reentry
