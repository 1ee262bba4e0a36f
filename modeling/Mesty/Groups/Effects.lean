import Mesty.Chats.Ownership
import Mesty.Groups.Handlers

namespace Mesty.Groups.Effects

open Mesty.Base.Ids Mesty.Base.Error Mesty.Base.Text Mesty.Concurrency.Program
open Mesty.Chats Mesty.Chats.Entities Mesty.Chats.Repository
open Mesty.Chats.Participants (okOr requireRole)
open Mesty.Groups.Handlers (GroupReq)

/-- The role of an active member. -/
def roleOf (db : ChatsDb) (chatId userId : Uuid) : Option ParticipantRole :=
  (db.activeRow chatId userId).map ParticipantRow.role

/-- The same rows in `chats` and `chat_participants`. -/
def SameRows (db db' : ChatsDb) : Prop :=
  db'.chats = db.chats ∧ db'.participants = db.participants

/-- What a request of `userId` makes of the tables when it runs alone, with what its checks
have found. -/
inductive Effect (db : ChatsDb) (userId : Uuid) : GroupReq → ChatsDb → Prop where
  | nothing (req) : Effect db userId req db
  | createGroup {name participantIds ω chatId db'}
    (h : db.createGroupChat ω userId (trim name) participantIds = some (.ok chatId, db')) :
    Effect db userId (.createGroup name participantIds) db'
  | addParticipant {chatId target key actor row chat}
    (hactor : roleOf db chatId userId = some actor) (hrank : .admin ≤ actor)
    (hchat : db.liveChat chatId = some chat) (htype : chat.chatType ≠ .private)
    (hidle : db.activeRow chatId target = none) (hrow : row.role = .member ∧ row.leftAt = none) :
    Effect db userId (.addParticipant chatId target key) (db.setParticipant chatId target row)
  | removeParticipant {chatId target actor old now}
    (hactor : roleOf db chatId userId = some actor) (htarget : roleOf db chatId target = some old)
    (hrank : if userId = target then actor ≠ .owner else old < actor) :
    Effect db userId (.removeParticipant chatId target)
      (db.updateParticipant chatId target (fun row => { row with leftAt := row.leftAt.or (some now) }))
  | setRole {chatId target role new actor row}
    (hactor : roleOf db chatId userId = some actor) (htarget : db.activeRow chatId target = some row)
    (hnew : ParticipantRole.fromDbStr role = some new) (hrank : row.role < actor ∧ new < actor) :
    Effect db userId (.updateParticipantRole chatId target role)
      (db.setParticipant chatId target { row with role := new })
  | setInviteLink {req chatId slug actor} (hreq : req = .createInviteLink chatId ∨
      req = .deleteInviteLink chatId)
    (hactor : roleOf db chatId userId = some actor) (hrank : .admin ≤ actor) :
    Effect db userId req (db.updateChat chatId (fun row => { row with inviteLink := some slug }))
  | joinBySlug {slug chatId row chat}
    (hslug : (db.findChatBySlug slug).map Chat.id = some chatId)
    (hchat : db.liveChat chatId = some chat) (hidle : db.activeRow chatId userId = none)
    (hrow : row.role = .member ∧ row.leftAt = none) :
    Effect db userId (.joinBySlug slug) (db.setParticipant chatId userId row)
  | transferOwnership {chatId newOwnerId row}
    (hactor : roleOf db chatId userId = some .owner)
    (hnew : db.activeRow chatId newOwnerId = some row) (hne : newOwnerId ≠ userId) :
    Effect db userId (.transferOwnership chatId newOwnerId)
      (db.transferRoles chatId userId newOwnerId)
  | leave {chatId chat row now} (hchat : db.liveChat chatId = some chat)
    (hactive : db.activeRow chatId userId = some row)
    (hrole : chat.chatType ≠ .private → row.role ≠ .owner) :
    Effect db userId (.deleteChat chatId)
      (db.updateParticipant chatId userId (fun row => { row with leftAt := some now }))
  | deleteChat {chatId chat now} (hchat : db.liveChat chatId = some chat)
    (htype : chat.chatType ≠ .private) (hactor : roleOf db chatId userId = some .owner) :
    Effect db userId (.deleteChat chatId)
      (db.updateChat chatId (fun row => { row with deletedAt := some now }))

/-- The effect of a request, up to what it has published. -/
def Done (db : ChatsDb) (userId : Uuid) (req : GroupReq) (db' : ChatsDb) : Prop :=
  ∃ db₁, Effect db userId req db₁ ∧ SameRows db₁ db'

instance : Nonempty Choice := ⟨⟨.nil, 0, ""⟩⟩

variable {db db' : ChatsDb} {chatId userId : Uuid} {req : GroupReq}

section Rules

variable {α β : Type} {Q : Except DomainError α → ChatsDb → Prop}

theorem wp_throw (e : DomainError) :
    (throw e : ChatTask α).run.wp ChatsDb.exec Q db ↔ Q (.error e) db := Iff.rfl

theorem wp_pure (a : α) (h : Q (.ok a) db) : (pure a : ChatTask α).run.wp ChatsDb.exec Q db := h

theorem wp_query {c : ChatCmd} {f : c.Ans → ChatTask α} :
    (ChatTask.query c >>= f).run.wp ChatsDb.exec Q db ↔
      ∀ ω r db', ChatsDb.exec ω c db = some (r, db') → (f r).run.wp ChatsDb.exec Q db' := Iff.rfl

theorem wp_okOr {o : Option β} {e : DomainError} {f : β → ChatTask α} :
    (okOr o e >>= f).run.wp ChatsDb.exec Q db ↔
      (o = none → Q (.error e) db) ∧ ∀ b, o = some b → (f b).run.wp ChatsDb.exec Q db := by
  cases o with
  | none => exact ⟨fun h => ⟨fun _ => h, nofun⟩, fun h => h.1 rfl⟩
  | some b => exact ⟨fun h => ⟨nofun, fun _ hb => Option.some.inj hb ▸ h⟩, fun h => h.2 b rfl⟩

theorem wp_requireRole {e : DomainError} {f : ParticipantRole → ChatTask α} :
    (requireRole userId chatId e >>= f).run.wp ChatsDb.exec Q db ↔
      (roleOf db chatId userId = none → Q (.error e) db) ∧
        ∀ r, roleOf db chatId userId = some r → (f r).run.wp ChatsDb.exec Q db := by
  rw [requireRole, bind_assoc, wp_query]
  constructor
  · intro h
    have ω : Choice := Classical.arbitrary Choice
    exact wp_okOr.mp (h ω _ db rfl)
  · intro h ω r db' he
    obtain ⟨rfl, rfl⟩ := Prod.mk.inj (Option.some.inj he)
    exact wp_okOr.mpr h

end Rules

theorem Done.nothing : Done db userId req db := ⟨db, .nothing req, rfl, rfl⟩

theorem Effect.done (h : Effect db userId req db') : Done db userId req db' := ⟨db', h, rfl, rfl⟩

theorem removeParticipant_done {actorId targetId : Uuid} :
    (Participants.removeParticipant chatId actorId targetId).run.wp ChatsDb.exec
      (fun _ db' => Done db actorId (.removeParticipant chatId targetId) db') db := by
  rw [Participants.removeParticipant, wp_requireRole]
  refine ⟨fun _ => .nothing, fun actor hactor => ?_⟩
  rw [wp_requireRole]
  refine ⟨fun _ => .nothing, fun old hold => ?_⟩
  split_ifs with hself hrank
  · exact Done.nothing
  · exact Done.nothing
  · rw [wp_query]
    rintro ω ⟨⟩ _ ⟨⟩
    refine (Effect.removeParticipant hactor hold ?_).done
    split_ifs with heq
    · exact fun h => hself ⟨heq, h⟩
    · exact lt_of_not_ge fun h => hrank ⟨heq, h⟩

theorem SameRows.refl (db : ChatsDb) : SameRows db db := ⟨rfl, rfl⟩

/-- A write that fails leaves the tables as they are. -/
theorem upsertRow_cases {targetId : Uuid} {fresh : ParticipantRow}
    {onConflict : ParticipantRow → ParticipantRow} {out : Except DomainError ParticipantDetail × ChatsDb}
    (h : db.upsertRow chatId targetId fresh onConflict = out) :
    out.2 = db ∨
      out.2 = db.setParticipant chatId targetId
        ((db.participant chatId targetId).elim fresh onConflict) := by
  subst h
  rw [ChatsDb.upsertRow]
  split_ifs
  · exact .inl rfl
  · exact .inl rfl
  · exact .inr rfl

theorem addParticipant_done {actorId targetId : Uuid} {key : Option String} :
    (Participants.addParticipant chatId actorId targetId key).run.wp ChatsDb.exec
      (fun _ db' => Done db actorId (.addParticipant chatId targetId key) db') db := by
  rw [Participants.addParticipant, wp_requireRole]
  refine ⟨fun _ => .nothing, fun actor hactor => ?_⟩
  split_ifs with hrank
  · exact Done.nothing
  rw [wp_query]
  intro ω r db₁ he
  obtain ⟨rfl, rfl⟩ := Prod.mk.inj (Option.some.inj he)
  rw [wp_okOr]
  refine ⟨fun _ => .nothing, fun chatType hchatType => ?_⟩
  obtain ⟨chat, hchat, rfl⟩ := Option.map_eq_some_iff.mp hchatType
  split_ifs with htype
  · exact Done.nothing
  rw [wp_query]
  intro ω r db₁ he
  obtain ⟨rfl, rfl⟩ := Prod.mk.inj (Option.some.inj he)
  split_ifs with hidle
  · exact Done.nothing
  intro ω r db' he
  obtain h | h := upsertRow_cases (Option.some.inj he)
  · obtain rfl : db' = db := h
    exact Done.nothing
  · obtain rfl := h
    refine (Effect.addParticipant hactor (le_of_not_gt hrank) hchat htype (by simpa using hidle) ?_).done
    cases db.participant chatId targetId <;> exact ⟨rfl, rfl⟩

theorem updateParticipantRole_done {actorId targetId : Uuid} {role : String} {newRole : ParticipantRole}
    (hrole : ParticipantRole.fromDbStr role = some newRole) :
    (Participants.updateParticipantRole chatId actorId targetId newRole).run.wp ChatsDb.exec
      (fun _ db' => Done db actorId (.updateParticipantRole chatId targetId role) db') db := by
  rw [Participants.updateParticipantRole, wp_requireRole]
  refine ⟨fun _ => .nothing, fun actor hactor => ?_⟩
  rw [wp_requireRole]
  refine ⟨fun _ => .nothing, fun old hold => ?_⟩
  split_ifs with hrank
  · exact Done.nothing
  rw [not_or, not_le, not_le] at hrank
  obtain ⟨row, hrow, rfl⟩ := Option.map_eq_some_iff.mp hold
  intro ω r db' he
  simp only [ChatsDb.exec, ChatsDb.setRole, hrow, Option.some.injEq, Prod.mk.injEq] at he
  obtain ⟨-, rfl⟩ := he
  exact (Effect.setRole hactor hrow hrole hrank).done

theorem setInviteLink_done {actorId : Uuid} {slug : Option String}
    (hreq : req = .createInviteLink chatId ∨ req = .deleteInviteLink chatId) :
    (Participants.setInviteLink chatId actorId slug).run.wp ChatsDb.exec
      (fun _ db' => Done db actorId req db') db := by
  have hwrite : ∀ newSlug actor, roleOf db chatId actorId = some actor → .admin ≤ actor →
      (ChatTask.attempt (Prog.cmd (ChatCmd.setInviteLink chatId newSlug))).run.wp ChatsDb.exec
        (fun _ db' => Done db actorId req db') db := by
    intro newSlug actor hactor hrank ω r db' he
    simp only [ChatsDb.exec, ChatsDb.setInviteLink] at he
    split at he
    · obtain ⟨-, rfl⟩ := Prod.mk.inj (Option.some.inj he)
      exact Done.nothing
    · split_ifs at he
      · obtain ⟨-, rfl⟩ := Prod.mk.inj (Option.some.inj he)
        exact Done.nothing
      · obtain ⟨-, rfl⟩ := Prod.mk.inj (Option.some.inj he)
        exact Done.nothing
      · obtain ⟨-, rfl⟩ := Prod.mk.inj (Option.some.inj he)
        exact (Effect.setInviteLink hreq hactor hrank).done
  rw [Participants.setInviteLink, wp_requireRole]
  refine ⟨fun _ => .nothing, fun actor hactor => ?_⟩
  split_ifs with hrank
  · exact Done.nothing
  have hstore : ∀ newSlug, (do
      ChatTask.attempt (Prog.cmd (ChatCmd.setInviteLink chatId newSlug))
      pure (some newSlug) : ChatTask (Option String)).run.wp ChatsDb.exec
        (fun _ db' => Done db actorId req db') db :=
    fun newSlug => (hwrite newSlug actor hactor (le_of_not_gt hrank)).tryBind
      (fun _ _ h => wp_pure _ h)
  have hrandom : ∀ ω r db', ChatsDb.exec ω .randomSlug db = some (r, db') → db' = db := by
    intro ω r db' he
    simp only [ChatsDb.exec, Option.ite_none_right_eq_some, Option.some.injEq, Prod.mk.injEq] at he
    exact he.2.2.symm
  split <;> simp only [pure_bind]
  · rw [wp_query]
    intro ω r db' he
    obtain rfl := hrandom ω r db' he
    exact hstore _
  · rw [wp_query]
    intro ω r db' he
    obtain rfl := hrandom ω r db' he
    exact hstore _
  · exact hstore _

theorem joinByInvite_done {slug : String} {chat : ChatRow}
    (hslug : (db.findChatBySlug slug).map Chat.id = some chatId)
    (hchat : db.liveChat chatId = some chat) :
    (Participants.joinByInvite chatId userId).run.wp ChatsDb.exec
      (fun _ db' => Done db userId (.joinBySlug slug) db') db := by
  rw [Participants.joinByInvite, wp_query]
  intro ω r db₁ he
  obtain ⟨rfl, rfl⟩ := Prod.mk.inj (Option.some.inj he)
  split_ifs with hidle
  · exact Done.nothing
  intro ω r db' he
  obtain h | h := upsertRow_cases (Option.some.inj he)
  · obtain rfl : db' = db := h
    exact Done.nothing
  · obtain rfl := h
    refine (Effect.joinBySlug hslug hchat (by simpa using hidle) ?_).done
    cases db.participant chatId userId <;> exact ⟨rfl, rfl⟩

theorem row_of_slug {slug : String} {chat : Chat} (h : db.findChatBySlug slug = some chat) :
    ∃ row, db.liveChat chat.id = some row ∧ row.inviteLink = some slug := by
  obtain ⟨⟨chatId, row⟩, hfind, rfl⟩ := Option.map_eq_some_iff.mp h
  have hlink : row.inviteLink = some slug ∧ row.deletedAt = none := by
    simpa using List.find?_some hfind
  have hlookup : db.chats.lookup chatId = some row :=
    AList.mem_lookup_iff.mpr (List.mem_of_find?_eq_some hfind)
  exact ⟨row, Option.filter_eq_some_iff.mpr ⟨hlookup, by simp [hlink.2]⟩, hlink.1⟩

theorem liveChat_of_slug {slug : String} {chat : Chat} (h : db.findChatBySlug slug = some chat) :
    ∃ row, db.liveChat chat.id = some row :=
  (row_of_slug h).imp fun _ hrow => hrow.1

theorem transferOwnership_done {newOwnerId : Uuid} (hne : newOwnerId ≠ userId) :
    (Participants.transferOwnership chatId userId newOwnerId).run.wp ChatsDb.exec
      (fun _ db' => Done db userId (.transferOwnership chatId newOwnerId) db') db := by
  rw [Participants.transferOwnership, wp_requireRole]
  refine ⟨fun _ => .nothing, fun actor hactor => ?_⟩
  split_ifs with howner
  · exact Done.nothing
  rw [not_not] at howner
  subst howner
  rw [wp_requireRole]
  refine ⟨fun _ => .nothing, fun old hold => ?_⟩
  obtain ⟨row, hrow, -⟩ := Option.map_eq_some_iff.mp hold
  rintro ω ⟨⟩ _ ⟨⟩
  exact (Effect.transferOwnership hactor hrow hne).done

theorem activeRow_eq {row : ParticipantRow} :
    db.activeRow chatId userId = some row ↔
      db.participant chatId userId = some row ∧ row.leftAt = none := by
  rw [ChatsDb.activeRow, Option.filter_eq_some_iff, Option.isNone_iff_eq_none]

theorem deleteChat_done :
    (Participants.deleteChat userId chatId).run.wp ChatsDb.exec
      (fun _ db' => Done db userId (.deleteChat chatId) db') db := by
  rw [Participants.deleteChat, wp_query]
  intro ω r db₁ he
  obtain ⟨rfl, rfl⟩ := Prod.mk.inj (Option.some.inj he)
  rw [wp_okOr]
  refine ⟨fun _ => .nothing, fun chatType hchatType => ?_⟩
  obtain ⟨chat, hchat, hmap⟩ := Option.bind_eq_some_iff.mp hchatType
  obtain ⟨row, hrow, rfl⟩ := Option.map_eq_some_iff.mp hmap
  obtain ⟨hparticipant, -⟩ := activeRow_eq.mp hrow
  split_ifs with htype
  · rintro ω ⟨⟩ _ ⟨⟩
    exact (Effect.leave hchat hrow (fun h => absurd htype h)).done
  rw [wp_query]
  intro ω r db₁ he
  obtain ⟨rfl, rfl⟩ := Prod.mk.inj (Option.some.inj he)
  simp only [hparticipant, Option.any_some, decide_eq_true_eq]
  split_ifs with howner
  · rintro ω ⟨⟩ _ ⟨⟩
    exact (Effect.deleteChat hchat htype (by rw [roleOf, hrow, Option.map_some, howner])).done
  · rintro ω ⟨⟩ _ ⟨⟩
    exact (Effect.leave hchat hrow (fun _ => howner)).done

theorem createGroupChat_done {name : String} {participantIds : List Uuid} :
    (Participants.createGroupChat userId (trim name) participantIds).run.wp ChatsDb.exec
      (fun _ db' => Done db userId (.createGroup name participantIds) db') db := by
  rw [Participants.createGroupChat]
  refine Prog.wp.tryBind ?_ fun chatId db' h => ?_
  · intro ω r db' he
    cases r with
    | ok chatId => exact (Effect.createGroup he).done
    | error e =>
      obtain ⟨-, rfl⟩ | ⟨hok, -⟩ := Ownership.createGroupChat_cases he
      · exact Done.nothing
      · cases hok
  · refine wp_query.mpr fun ω r db₁ he => ?_
    obtain ⟨-, rfl⟩ := Prod.mk.inj (Option.some.inj he)
    cases r <;> exact h

def IsPublish (c : ChatCmd) : Prop := ∃ channel payload, c = .publish channel payload

theorem issues_publish (channel : String) (payload : Payload) :
    (ChatTask.query (.publish channel payload)).run.Issues IsPublish :=
  ⟨⟨channel, payload, rfl⟩, fun _ => trivial⟩

theorem issues_event (eventType : String) (extra : List (String × String)) :
    (Handlers.publishGroupEvent chatId eventType extra).run.Issues IsPublish :=
  issues_publish _ _

/-- What is only published leaves the tables as they are. -/
theorem Done.publish {α : Type} {p : ChatTask α}
    (hp : p.run.Issues IsPublish) (h : Done db userId req db') :
    p.run.wp ChatsDb.exec (fun _ db'' => Done db userId req db'') db' := by
  refine hp.wp ?_ h
  rintro ω _ r s s' ⟨channel, payload, rfl⟩ ⟨db₁, heffect, hrows⟩ ⟨⟩
  exact ⟨db₁, heffect, hrows⟩

/-- All that a group request can do when it runs alone. -/
theorem handle_done (db : ChatsDb) (userId : Uuid) (req : GroupReq) :
    (Handlers.handle userId req).run.wp ChatsDb.exec (fun _ db' => Done db userId req db') db := by
  cases req with
  | createGroup name participantIds =>
    rw [Handlers.handle, Handlers.createGroup]
    split_ifs
    · exact Done.nothing
    · exact createGroupChat_done.tryBind fun _ _ h => h
  | addParticipant chatId newUserId key =>
    rw [Handlers.handle, Handlers.addParticipant]
    split_ifs
    · exact Done.nothing
    · exact addParticipant_done.tryBind fun _ _ h => h.publish
        ((issues_event _ _).tryBind fun _ => (issues_publish _ _).tryBind fun _ => trivial)
  | removeParticipant chatId targetId =>
    refine removeParticipant_done.tryBind fun keyRotationRequired _ h => h.publish
      ((issues_event _ _).tryBind fun _ => ?_)
    cases keyRotationRequired
    · trivial
    · exact (issues_event _ _).tryBind fun _ => trivial
  | updateParticipantRole chatId targetId role =>
    rw [Handlers.handle, Handlers.updateParticipantRole, wp_okOr]
    refine ⟨fun _ => .nothing, fun newRole hrole => ?_⟩
    split_ifs
    · exact Done.nothing
    · exact (updateParticipantRole_done hrole).tryBind fun _ _ h => h.publish
        ((issues_event _ _).tryBind fun _ => trivial)
  | createInviteLink chatId =>
    exact (setInviteLink_done (.inl rfl)).tryBind fun _ _ h => wp_okOr.mpr ⟨fun _ => h, fun _ _ => h⟩
  | deleteInviteLink chatId => exact (setInviteLink_done (.inr rfl)).tryBind fun _ _ h => h
  | joinBySlug slug =>
    rw [Handlers.handle, Handlers.joinBySlug, wp_query]
    intro ω r db₁ he
    obtain ⟨rfl, rfl⟩ := Prod.mk.inj (Option.some.inj he)
    rw [wp_okOr]
    refine ⟨fun _ => .nothing, fun chat hfound => ?_⟩
    obtain ⟨row, hlive⟩ := liveChat_of_slug hfound
    exact (joinByInvite_done (by rw [hfound, Option.map_some]) hlive).tryBind fun _ _ h => h.publish
      ((issues_event _ _).tryBind fun _ => trivial)
  | transferOwnership chatId newOwnerId =>
    rw [Handlers.handle, Handlers.transferOwnership]
    split_ifs with hself
    · exact Done.nothing
    · exact (transferOwnership_done hself).tryBind fun _ _ h => h.publish
        ((issues_event _ _).tryBind fun _ => trivial)
  | deleteChat chatId => exact deleteChat_done.tryBind fun _ _ h => h

end Mesty.Groups.Effects
