import Mesty.Chats.References

namespace Mesty.Chats.PrivateChats

open Mesty.Base.Ids Mesty.Base.Error Mesty.Concurrency.Program Mesty.Concurrency.Pool
open Mesty.Chats.Entities Mesty.Chats.Repository Mesty.Chats.Store Mesty.Chats.Handlers
open Mesty.Chats.Changes (createPrivateChat_cases)
open Mesty.Chats.Effects (SameTables exec_findPrivateChat issues_ofChat)
open Mesty.Chats.Ownership
open Mesty.Chats.References (rooted_store)

inductive PrivateReq where
  | createPrivateChat (participantId : Uuid)
  | deleteChat (chatId : Uuid)

/-- The two requests on their own, one statement at a time. -/
def privateServer :
    System StoreCmd StoreCmd.Ans ChatStore StoreChoice (Uuid × PrivateReq)
      (Except ApiError Response) where
  exec := ChatStore.exec
  tick := ChatStore.tick
  handler req := match req.2 with
    | .createPrivateChat participantId => (createPrivateChat req.1 participantId).run
    | .deleteChat chatId => (handleGroup req.1 (.deleteChat chatId)).run

abbrev PrivateConfig := Config StoreCmd StoreCmd.Ans ChatStore (Uuid × PrivateReq)
  (Except ApiError Response)

abbrev PrivateAct := Act (Uuid × PrivateReq) StoreChoice

abbrev StoreEvent := Event StoreCmd StoreCmd.Ans

/-- For every pair of users there is at most one private chat that is not deleted and in
which both are active. -/
def AtMostOnePrivate (db : ChatStore) : Prop :=
  ∀ userId userId' chatId chatId', userId ≠ userId' → db.isPrivateChatOf userId userId' chatId →
    db.isPrivateChatOf userId userId' chatId' → chatId = chatId'

/-- The statement by which `create_private_chat` of `creatorId` and `participantId` settles
on a chat: the lookup that finds one, or else the transaction. -/
def Settles (e : StoreEvent) (creatorId participantId chatId : Uuid) : Prop :=
  match e with
  | ⟨_, .findPrivateChat u v, r⟩ => u = creatorId ∧ v = participantId ∧ r = some chatId
  | ⟨_, .createPrivateChat u v, r⟩ => u = creatorId ∧ v = participantId ∧ r = .ok chatId
  | _ => False

/-- The statement by which `delete_chat` acts. -/
def IsDelete (e : StoreEvent) : Prop :=
  match e.cmd with
  | .chat (.leave ..) | .chat (.markDeleted _) => True
  | _ => False

/-- The same two users, in either order. -/
def SamePair (u v u' v' : Uuid) : Prop := (u = u' ∧ v = v') ∨ (u = v' ∧ v = u')

/-- No `delete_chat` acts between the statements by which the requests settle. -/
def NoDeleteBetween (c : PrivateConfig) (i j : Nat) : Prop :=
  ∀ before e mid e' later, c.log = before ++ e :: (mid ++ e' :: later) →
    (e.task = i ∧ e'.task = j ∨ e.task = j ∧ e'.task = i) →
    (∃ u v x, Settles e u v x) → (∃ u v x, Settles e' u v x) → ∀ x ∈ mid, ¬ IsDelete x

def Returns (c : PrivateConfig) (i : Nat) (creatorId participantId : Uuid) (chatId : Uuid) : Prop :=
  ∃ status chat, c.tasks[i]? = some ((creatorId, .createPrivateChat participantId),
    .ret (.ok ⟨status, .chat chat⟩)) ∧ chat.id = chatId

/-- Requests for the same pair with no `delete_chat` between them return the same chat. -/
def SameAnswer (c : PrivateConfig) : Prop :=
  ∀ i j u v u' v' chatId chatId', Returns c i u v chatId → Returns c j u' v' chatId' →
    SamePair u v u' v' → NoDeleteBetween c i j → chatId = chatId'

/-- When the transaction of `create_private_chat` is about to insert a chat, its users do not
have one. -/
def NoneYet (c : PrivateConfig) : PrivateAct → Prop
  | .step i _ => ∀ u v, c.tasks[i]?.bind (fun t => t.2.next) = some (.createPrivateChat u v) →
      u ∈ c.db.users → v ∈ c.db.users → ∀ chatId, ¬ c.db.isPrivateChatOf u v chatId
  | _ => True

section State

variable {db db' : ChatStore} {u v chatId : Uuid}

theorem isPrivateChatOf_iff :
    db.isPrivateChatOf u v chatId ↔ ∃ row, db.liveChat chatId = some row ∧
      row.chatType = .private ∧ (db.activeRow chatId u).isSome ∧ (db.activeRow chatId v).isSome := by
  simp only [ChatStore.isPrivateChatOf, Bool.and_eq_true, Option.any_eq_true, decide_eq_true_eq]
  constructor
  · rintro ⟨⟨⟨row, hrow, ht⟩, hu⟩, hv⟩
    exact ⟨row, hrow, ht, hu, hv⟩
  · rintro ⟨row, hrow, ht, hu, hv⟩
    exact ⟨⟨⟨row, hrow, ht⟩, hu⟩, hv⟩

theorem isPrivateChatOf_symm (h : db.isPrivateChatOf u v chatId) :
    db.isPrivateChatOf v u chatId := by
  rw [isPrivateChatOf_iff] at h ⊢
  obtain ⟨row, hrow, ht, hu, hv⟩ := h
  exact ⟨row, hrow, ht, hv, hu⟩

theorem isPrivateChatOf_pair {u' v' : Uuid} (hpair : SamePair u v u' v')
    (h : db.isPrivateChatOf u v chatId) : db.isPrivateChatOf u' v' chatId := by
  obtain ⟨rfl, rfl⟩ | ⟨rfl, rfl⟩ := hpair
  · exact h
  · exact isPrivateChatOf_symm h

theorem isPrivateChatOf_mem (h : db.isPrivateChatOf u v chatId) : chatId ∈ db.chats := by
  obtain ⟨row, hrow, -⟩ := isPrivateChatOf_iff.mp h
  exact AList.lookup_isSome.mp (by rw [(Option.filter_eq_some_iff.mp hrow).1, Option.isSome_some])

/-- Leaving a chat makes no chat private to two users. -/
theorem isPrivateChatOf_of_leave {x w : Uuid} {now : Timestamp}
    (h : (db.withChats (db.updateParticipant x w (fun row =>
      { row with leftAt := some now }))).isPrivateChatOf u v chatId) :
    db.isPrivateChatOf u v chatId := by
  rw [isPrivateChatOf_iff] at h ⊢
  obtain ⟨row, hrow, ht, hu, hv⟩ := h
  have hactive : ∀ a, ((db.updateParticipant x w (fun row =>
      { row with leftAt := some now })).activeRow chatId a).isSome → (db.activeRow chatId a).isSome := by
    intro a ha
    rw [ChatsDb.updateParticipant] at ha
    cases hp : db.participant x w with
    | none => simpa only [hp] using ha
    | some row =>
      simp only [hp, ChatsDb.activeRow] at ha
      by_cases hkey : chatId = x ∧ a = w
      · obtain ⟨rfl, rfl⟩ := hkey
        simp at ha
      · rwa [participant_setParticipant_ne hkey] at ha
  refine ⟨row, ?_, ht, hactive u hu, hactive v hv⟩
  rw [← hrow]
  change _ = (db.updateParticipant x w _).liveChat chatId
  rw [ChatsDb.updateParticipant]
  split <;> rfl

theorem isPrivateChatOf_of_markDeleted {x : Uuid} {now : Timestamp}
    (h : (db.withChats (db.toChatsDb.updateChat x (fun row =>
      { row with deletedAt := some now }))).isPrivateChatOf u v chatId) :
    db.isPrivateChatOf u v chatId := by
  rw [isPrivateChatOf_iff] at h ⊢
  obtain ⟨row, hrow, ht, hu, hv⟩ := h
  change (db.toChatsDb.updateChat x _).liveChat chatId = some row at hrow
  change ((db.toChatsDb.updateChat x _).activeRow chatId u).isSome at hu
  change ((db.toChatsDb.updateChat x _).activeRow chatId v).isSome at hv
  rw [ChatsDb.updateChat] at hrow hu hv
  cases hx : db.chats.lookup x with
  | none => exact ⟨row, by simpa only [hx] using hrow, ht, by simpa only [hx] using hu,
      by simpa only [hx] using hv⟩
  | some old =>
    simp only [hx] at hrow hu hv
    refine ⟨row, ?_, ht, hu, hv⟩
    by_cases hne : chatId = x
    · subst hne
      simp only [ChatsDb.liveChat, AList.lookup_insert, Option.filter_eq_some_iff] at hrow
      obtain ⟨hdeleted, hnone⟩ := hrow
      obtain rfl := Option.some.inj hdeleted
      cases hnone
    · simpa only [ChatsDb.liveChat, AList.lookup_insert_ne hne] using hrow

theorem activeRow_setParticipant {db : ChatsDb} {x w a : Uuid} {row : ParticipantRow}
    (hrow : row.leftAt = none) :
    (db.setParticipant x w row).activeRow chatId a =
      if chatId = x ∧ a = w then some row else db.activeRow chatId a := by
  split_ifs with hkey
  · obtain ⟨rfl, rfl⟩ := hkey
    simp [ChatsDb.activeRow, hrow]
  · rw [ChatsDb.activeRow, participant_setParticipant_ne hkey, ChatsDb.activeRow]

theorem activeRow_two {db : ChatsDb} {x w a b : Uuid} {row : ParticipantRow}
    (hrow : row.leftAt = none) (hnone : ∀ w, db.activeRow x w = none) :
    (((db.setParticipant x a row).setParticipant x b row).activeRow chatId w).isSome ↔
      if chatId = x then w = a ∨ w = b else (db.activeRow chatId w).isSome := by
  rw [activeRow_setParticipant hrow, activeRow_setParticipant hrow]
  by_cases hx : chatId = x
  · subst hx
    by_cases hwb : w = b
    · simp [hwb]
    · by_cases hwa : w = a <;> simp [hwa, hwb, hnone]
  · simp [hx]

/-- The chat that was just created is private to its two users, all others are as before. -/
theorem isPrivateChatOf_create {ω : StoreChoice} {a b newId : Uuid} (hrooted : Rooted db.toChatsDb)
    (h : db.createPrivateChat ω a b = some (.ok newId, db')) :
    newId ∉ db.chats ∧ a ≠ b ∧ a ∈ db.users ∧ b ∈ db.users ∧
      ∀ u v chatId, db'.isPrivateChatOf u v chatId ↔
        if chatId = newId then (u = a ∨ u = b) ∧ (v = a ∨ v = b)
        else db.isPrivateChatOf u v chatId := by
  obtain ⟨⟨e, he⟩, -⟩ | ⟨hok, hfresh, hab, ha, hb, rfl⟩ := createPrivateChat_cases h
  · cases he
  obtain rfl := Except.ok.inj hok
  refine ⟨hfresh, hab, ha, hb, fun u v chatId => ?_⟩
  have hnone : ∀ chats w, ChatsDb.activeRow { db.toChatsDb with chats := chats } ω.uuid w = none := by
    intro chats w
    rw [ChatsDb.activeRow, Option.filter_eq_none_iff]
    exact fun row hrow => absurd (hrooted _ _ _ hrow).1 hfresh
  rw [isPrivateChatOf_iff]
  change (∃ row, ChatsDb.liveChat _ _ = _ ∧ _ ∧
    ((ChatsDb.setParticipant (ChatsDb.setParticipant _ _ _ _) _ _ _).activeRow _ _).isSome ∧
    ((ChatsDb.setParticipant (ChatsDb.setParticipant _ _ _ _) _ _ _).activeRow _ _).isSome) ↔ _
  rw [activeRow_two rfl (hnone _), activeRow_two rfl (hnone _)]
  by_cases hx : chatId = ω.uuid
  · subst hx
    simp [ChatStore.withChats, ChatsDb.liveChat, ChatsDb.setParticipant]
  · rw [if_neg hx, if_neg hx, if_neg hx, isPrivateChatOf_iff]
    simp [ChatStore.withChats, ChatsDb.liveChat, ChatsDb.setParticipant, AList.lookup_insert_ne hx,
      ChatsDb.activeRow, ChatsDb.participant]

end State

/-- What the two requests ask of the database. -/
def PrivateCmd : StoreCmd → Prop
  | .findPrivateChat creatorId participantId | .createPrivateChat creatorId participantId =>
    creatorId ≠ participantId
  | .chat (.getChatForUser ..) | .chat (.selectTypeForParticipant ..) | .chat (.isOwner ..) |
    .chat (.leave ..) | .chat (.markDeleted _) => True
  | _ => False

theorem issues_createPrivateChat (userId participantId : Uuid) :
    (createPrivateChat userId participantId).run.Issues PrivateCmd := by
  have hread : ∀ chatId, (do
      let chat ← StoreTask.okOr (← StoreTask.ask (.chat (.getChatForUser userId chatId)))
        (.notFound "chat not found")
      return ⟨201, .chat (Groups.Handlers.chatToResponse chat)⟩ :
        StoreTask Response).run.Issues PrivateCmd := by
    refine fun chatId => ⟨trivial, fun r => ?_⟩
    cases r <;> trivial
  rw [createPrivateChat]
  split_ifs with hself
  · trivial
  refine ⟨fun h => hself h.symm, fun r => ?_⟩
  cases r with
  | some chatId => exact hread chatId
  | none =>
    refine Prog.Issues.tryBind ?_ hread
    exact ⟨fun h => hself h.symm, fun _ => trivial⟩

theorem issues_deleteChat (userId chatId : Uuid) :
    (handleGroup userId (.deleteChat chatId)).run.Issues PrivateCmd := by
  have hdelete : (Participants.deleteChat userId chatId).run.Issues
      (fun c => PrivateCmd (.chat c)) := by
    refine ⟨trivial, fun r => ?_⟩
    cases r with
    | none => trivial
    | some chatType =>
      by_cases hprivate : chatType = .private
      · subst hprivate
        exact ⟨trivial, fun _ => trivial⟩
      · change Prog.Issues _ (ExceptT.run (if _ then _ else _))
        rw [if_neg hprivate]
        refine ⟨trivial, fun isOwner => ?_⟩
        cases isOwner <;> exact ⟨trivial, fun _ => trivial⟩
  refine Prog.Issues.tryBind ?_ fun _ => trivial
  refine issues_ofChat ?_
  exact hdelete.tryBind fun _ => trivial

theorem private_issues (r : Uuid × PrivateReq) : (privateServer.handler r).Issues PrivateCmd := by
  obtain ⟨userId, participantId | chatId⟩ := r
  · exact issues_createPrivateChat userId participantId
  · exact issues_deleteChat userId chatId

/-- All that a statement of the two requests can do to the private chats. -/
theorem exec_cases {ω : StoreChoice} {db db' : ChatStore} {e : StoreEvent}
    (hc : PrivateCmd e.cmd) (hrooted : Rooted db.toChatsDb)
    (h : ChatStore.exec ω e.cmd db = some (e.ans, db')) :
    ((∀ a b, e.cmd = .createPrivateChat a b → ¬ (a ∈ db.users ∧ b ∈ db.users)) ∧
      ∀ u v chatId, db'.isPrivateChatOf u v chatId ↔ db.isPrivateChatOf u v chatId) ∨
    (IsDelete e ∧ ∀ u v chatId, db'.isPrivateChatOf u v chatId → db.isPrivateChatOf u v chatId) ∨
    ∃ i a b newId, e = ⟨i, .createPrivateChat a b, .ok newId⟩ ∧ newId ∉ db.chats ∧
      a ∈ db.users ∧ b ∈ db.users ∧ ∀ u v chatId, db'.isPrivateChatOf u v chatId ↔
        if chatId = newId then (u = a ∨ u = b) ∧ (v = a ∨ v = b)
        else db.isPrivateChatOf u v chatId := by
  obtain ⟨i, cmd, r⟩ := e
  cases cmd with
  | findPrivateChat a b =>
    obtain rfl := Effects.exec_findPrivateChat h
    exact .inl ⟨by rintro _ _ ⟨⟩, fun u v chatId => Iff.rfl⟩
  | createPrivateChat a b =>
    cases r with
    | ok newId =>
      obtain ⟨hfresh, -, ha, hb, hiff⟩ := isPrivateChatOf_create hrooted h
      exact .inr (.inr ⟨i, a, b, newId, rfl, hfresh, ha, hb, hiff⟩)
    | error err =>
      obtain ⟨-, rfl, hno⟩ | ⟨hok, -⟩ := createPrivateChat_cases h
      · refine .inl ⟨fun a' b' heq hmem => ?_, fun u v chatId => Iff.rfl⟩
        obtain ⟨rfl, rfl⟩ := StoreCmd.createPrivateChat.inj heq
        obtain hself | ha | hb := hno
        · exact hc hself
        · exact ha hmem.1
        · exact hb hmem.2
      · cases hok
  | chat c =>
    cases c with
    | leave x w =>
      obtain ⟨-, rfl⟩ := Prod.mk.inj (Option.some.inj h)
      exact .inr (.inl ⟨trivial, fun u v chatId => isPrivateChatOf_of_leave⟩)
    | markDeleted x =>
      obtain ⟨-, rfl⟩ := Prod.mk.inj (Option.some.inj h)
      exact .inr (.inl ⟨trivial, fun u v chatId => isPrivateChatOf_of_markDeleted⟩)
    | getChatForUser | selectTypeForParticipant | isOwner =>
      obtain ⟨-, rfl⟩ := Prod.mk.inj (Option.some.inj h)
      exact .inl ⟨by rintro _ _ ⟨⟩, fun u v chatId => Iff.rfl⟩
    | _ => exact absurd hc id
  | _ => exact absurd hc id

theorem private_outline : Outline privateServer (fun _ _ => True)
    (fun w => Rooted w.db.toChatsDb) (fun _ _ _ p => p.Issues PrivateCmd) where
  spawn _ r _ := private_issues r
  step hc _ ht he :=
    have hissues := hc.2 _ _ _ ht
    ⟨rooted_store hc.1 he, hissues.2 _, fun _ _ _ _ hp => hp⟩
  tick hc _ hs := by
    obtain rfl := Option.some.inj hs
    exact ⟨fun chatId userId row hrow => (hc.1 chatId userId row hrow).imp_right
      (List.mem_cons_of_mem _), fun _ _ _ hp => hp⟩

theorem atMostOne_of_sub {db db' : ChatStore} (h : AtMostOnePrivate db)
    (hsub : ∀ u v chatId, db'.isPrivateChatOf u v chatId → db.isPrivateChatOf u v chatId) :
    AtMostOnePrivate db' :=
  fun u v x y hne hx hy => h u v x y hne (hsub u v x hx) (hsub u v y hy)

/-- Another chat of two users is one too many exactly if they already have one. -/
theorem atMostOne_create_iff {db db' : ChatStore} {a b newId : Uuid} (h : AtMostOnePrivate db)
    (hab : a ≠ b) (hfresh : newId ∉ db.chats)
    (hiff : ∀ u v chatId, db'.isPrivateChatOf u v chatId ↔
      if chatId = newId then (u = a ∨ u = b) ∧ (v = a ∨ v = b)
      else db.isPrivateChatOf u v chatId) :
    AtMostOnePrivate db' ↔ ∀ chatId, ¬ db.isPrivateChatOf a b chatId := by
  have hold : ∀ {u v chatId}, db.isPrivateChatOf u v chatId → chatId ≠ newId := by
    rintro u v chatId hp rfl
    exact hfresh (isPrivateChatOf_mem hp)
  constructor
  · intro h' chatId hp
    have hne := hold hp
    refine hne (h' a b chatId newId hab ?_ ?_)
    · exact (hiff a b chatId).mpr (by rwa [if_neg hne])
    · exact (hiff a b newId).mpr (by simp)
  · intro hnone u v x y huv hx hy
    -- a pair that has the new chat is the pair `a`, `b`, which has no old one
    have hpair : ∀ {z}, db'.isPrivateChatOf u v newId → db.isPrivateChatOf u v z → False := by
      intro z hnew hz
      rw [hiff, if_pos rfl] at hnew
      obtain ⟨rfl | rfl, rfl | rfl⟩ := hnew
      · exact huv rfl
      · exact hnone z hz
      · exact hnone z (isPrivateChatOf_symm hz)
      · exact huv rfl
    by_cases hxn : x = newId
    · subst hxn
      by_cases hyn : y = x
      · exact hyn.symm
      · rw [hiff, if_neg hyn] at hy
        exact (hpair hx hy).elim
    · have hx' := (hiff u v x).mp hx
      rw [if_neg hxn] at hx'
      by_cases hyn : y = newId
      · subst hyn
        exact (hpair hy hx').elim
      · have hy' := (hiff u v y).mp hy
        rw [if_neg hyn] at hy'
        exact h u v x y huv hx' hy'

/-- One move keeps the private chats unique exactly if it satisfies the condition. -/
theorem noneYet_iff {c d : PrivateConfig} {a : PrivateAct}
    (hc : c.Meets (fun w => Rooted w.db.toChatsDb) (fun _ _ _ p => p.Issues PrivateCmd))
    (h : AtMostOnePrivate c.db) (ha : privateServer.apply a c = some d) :
    NoneYet c a ↔ AtMostOnePrivate d.db := by
  obtain ⟨r, rfl, rfl⟩ | ⟨i, ω, r, cmd, k, ans, s, rfl, ht, he, rfl⟩ | ⟨ω, s, rfl, hs, rfl⟩ :=
    System.apply_cases ha
  · exact iff_of_true trivial h
  · have hcmd : PrivateCmd cmd := (hc.2 _ _ _ ht).1
    have hnext : NoneYet c (.step i ω) ↔ ∀ u v, cmd = .createPrivateChat u v → u ∈ c.db.users →
        v ∈ c.db.users → ∀ chatId, ¬ c.db.isPrivateChatOf u v chatId := by
      simp [NoneYet, ht]
    rw [hnext]
    obtain ⟨hno, hsame⟩ | ⟨hdelete, hsub⟩ | ⟨j, a, b, newId, heq, hfresh, hu, hv, hiff⟩ :=
      exec_cases (e := ⟨i, cmd, ans⟩) hcmd hc.1 he
    · refine iff_of_true ?_ (atMostOne_of_sub h fun u v x => (hsame u v x).mp)
      exact fun u v heq hu hv => absurd ⟨hu, hv⟩ (hno u v heq)
    · refine iff_of_true ?_ (atMostOne_of_sub h hsub)
      rintro u v rfl
      exact absurd hdelete id
    · cases heq
      refine Iff.trans ?_ (atMostOne_create_iff h hcmd hfresh hiff).symm
      refine ⟨fun hnone => hnone a b rfl hu hv, fun hnone u v heq _ _ => ?_⟩
      obtain ⟨rfl, rfl⟩ := StoreCmd.createPrivateChat.inj heq
      exact hnone
  · obtain rfl := Option.some.inj hs
    exact iff_of_true trivial h

/-- A chat on which a request has settled is private to its users until a chat is deleted. -/
def SettledLive (w : World StoreCmd StoreCmd.Ans ChatStore) : Prop :=
  ∀ before e later u v x, w.log = before ++ e :: later → Settles e u v x →
    (∀ y ∈ later, ¬ IsDelete y) → u ≠ v ∧ w.db.isPrivateChatOf u v x

/-- A request settles on the chat on which the last one for the pair has settled. -/
def SameSettled (log : List StoreEvent) (e' : StoreEvent) : Prop :=
  ∀ before e mid u v x u' v' x', log = before ++ e :: mid → Settles e u v x →
    Settles e' u' v' x' → SamePair u v u' v' → (∀ y ∈ mid, ¬ IsDelete y) → x = x'

section Step

variable {ω : StoreChoice} {db db' : ChatStore} {e : StoreEvent} {u v x : Uuid}

theorem settles_cases (h : Settles e u v x) :
    (∃ i, e = ⟨i, .findPrivateChat u v, some x⟩) ∨
    ∃ i, e = ⟨i, .createPrivateChat u v, .ok x⟩ := by
  obtain ⟨i, cmd, r⟩ := e
  cases cmd with
  | findPrivateChat =>
    obtain ⟨rfl, rfl, rfl⟩ := h
    exact .inl ⟨i, rfl⟩
  | createPrivateChat =>
    obtain ⟨rfl, rfl, rfl⟩ := h
    exact .inr ⟨i, rfl⟩
  | _ => exact absurd h id

theorem exec_findPrivateChat_some (h : db.findPrivateChat ω u v = some (some x, db')) :
    db.isPrivateChatOf u v x := by
  rw [ChatStore.findPrivateChat] at h
  split_ifs at h with hfound <;> cases h
  exact hfound

theorem settles_private (hc : PrivateCmd e.cmd) (hrooted : Rooted db.toChatsDb)
    (he : ChatStore.exec ω e.cmd db = some (e.ans, db')) (h : Settles e u v x) :
    u ≠ v ∧ db'.isPrivateChatOf u v x := by
  obtain ⟨i, rfl⟩ | ⟨i, rfl⟩ := settles_cases h
  · obtain rfl := Effects.exec_findPrivateChat he
    exact ⟨hc, exec_findPrivateChat_some he⟩
  · obtain ⟨-, hne, -, -, hiff⟩ := isPrivateChatOf_create hrooted he
    exact ⟨hne, (hiff u v x).mpr (by simp)⟩

theorem isPrivateChatOf_kept (hc : PrivateCmd e.cmd) (hrooted : Rooted db.toChatsDb)
    (he : ChatStore.exec ω e.cmd db = some (e.ans, db')) (hdelete : ¬ IsDelete e)
    (h : db.isPrivateChatOf u v x) : db'.isPrivateChatOf u v x := by
  obtain ⟨-, hsame⟩ | ⟨hd, -⟩ | ⟨i, a, b, newId, rfl, hfresh, -, -, hiff⟩ :=
    exec_cases hc hrooted he
  · exact (hsame u v x).mpr h
  · exact absurd hd hdelete
  · rw [hiff, if_neg]
    · exact h
    · rintro rfl
      exact hfresh (isPrivateChatOf_mem h)

theorem settledLive_after {w : World StoreCmd StoreCmd.Ans ChatStore}
    (hc : PrivateCmd e.cmd) (hrooted : Rooted w.db.toChatsDb)
    (he : ChatStore.exec ω e.cmd w.db = some (e.ans, db')) (h : SettledLive w) :
    SettledLive (w.after e.task e.cmd e.ans db') := by
  intro before e' later u v x hlog hsettles hdelete
  obtain ⟨-, -, rfl⟩ | ⟨later, rfl, hold⟩ := snoc_eq_split hlog
  · exact settles_private hc hrooted he hsettles
  · have hmid : ∀ y ∈ later, ¬ IsDelete y := fun y hy => hdelete y (List.mem_append_left _ hy)
    have hnew : ¬ IsDelete e := hdelete e (List.mem_append_right _ (List.mem_singleton_self e))
    obtain ⟨hne, hprivate⟩ := h before e' later u v x hold hsettles hmid
    exact ⟨hne, isPrivateChatOf_kept hc hrooted he hnew hprivate⟩

theorem sameSettled_after {w : World StoreCmd StoreCmd.Ans ChatStore}
    (he : ChatStore.exec ω e.cmd w.db = some (e.ans, db')) (hrooted : Rooted w.db.toChatsDb)
    (hunique : AtMostOnePrivate w.db) (hlive : SettledLive w)
    (hnone : ∀ u v, e.cmd = .createPrivateChat u v → u ∈ w.db.users → v ∈ w.db.users →
      ∀ chatId, ¬ w.db.isPrivateChatOf u v chatId) : SameSettled w.log e := by
  intro before e₀ mid u v x u' v' x' hlog h₀ h hpair hdelete
  obtain ⟨hne, hprivate⟩ := hlive before e₀ mid u v x hlog h₀ hdelete
  have hprivate' : w.db.isPrivateChatOf u' v' x := isPrivateChatOf_pair hpair hprivate
  have hne' : u' ≠ v' := by
    obtain ⟨rfl, rfl⟩ | ⟨rfl, rfl⟩ := hpair
    · exact hne
    · exact hne.symm
  obtain ⟨i, rfl⟩ | ⟨i, rfl⟩ := settles_cases h
  · exact hunique u' v' x x' hne' hprivate' (exec_findPrivateChat_some he)
  · obtain ⟨-, -, hu, hv, -⟩ := isPrivateChatOf_create hrooted he
    exact absurd hprivate' (hnone u' v' rfl hu hv x)

end Step

/-- What holds in all runs in which no create finds that another one was faster. -/
structure Unraced (c : PrivateConfig) : Prop where
  meets : c.Meets (fun w => Rooted w.db.toChatsDb) (fun _ _ _ p => p.Issues PrivateCmd)
  unique : AtMostOnePrivate c.db
  live : SettledLive c.toWorld
  settled : Backed SameSettled c.log

theorem unraced_apply {c d : PrivateConfig} {a : PrivateAct} (hc : Unraced c) (hp : NoneYet c a)
    (ha : privateServer.apply a c = some d) : Unraced d := by
  have hmeets := private_outline.apply hc.meets trivial ha
  have hunique := (noneYet_iff hc.meets hc.unique ha).mp hp
  suffices h : SettledLive d.toWorld ∧ Backed SameSettled d.log from ⟨hmeets, hunique, h.1, h.2⟩
  obtain ⟨r, rfl, rfl⟩ | ⟨i, ω, r, cmd, k, ans, s, rfl, ht, he, rfl⟩ | ⟨ω, s, rfl, hs, rfl⟩ :=
    System.apply_cases ha
  · exact ⟨hc.live, hc.settled⟩
  · have hcmd : PrivateCmd cmd := (hc.meets.2 _ _ _ ht).1
    have hnone : ∀ u v, cmd = .createPrivateChat u v → u ∈ c.db.users → v ∈ c.db.users →
        ∀ chatId, ¬ c.db.isPrivateChatOf u v chatId := by
      rintro u v rfl
      exact hp u v (by simp [ht])
    refine ⟨settledLive_after (e := ⟨i, cmd, ans⟩) hcmd hc.meets.1 he hc.live, ?_⟩
    exact hc.settled.snoc (sameSettled_after (e := ⟨i, cmd, ans⟩) he hc.meets.1 hc.unique hc.live
      hnone)
  · obtain rfl := Option.some.inj hs
    exact ⟨hc.live, hc.settled⟩

theorem unraced_start (users : List Uuid) : Unraced (System.start (.empty users)) where
  meets := Outline.start fun chatId userId row hrow => by
    simp [ChatStore.empty, ChatsDb.empty, ChatsDb.participant] at hrow
  unique u v x y hne h := absurd (isPrivateChatOf_mem h) (AList.notMem_empty x)
  live before e later u v x h := absurd h (by simp [System.start])
  settled := backed_nil _

/-- A returned chat is the one that was read by the identifier on which the request settled. -/
def Read (userId participantId : Uuid) (h : List ((c : StoreCmd) × c.Ans)) :
    Except ApiError Response → Prop
  | .ok ⟨_, .chat chat⟩ => ∃ chatId found,
    (⟨.findPrivateChat userId participantId, some chatId⟩ ∈ h ∨
      ⟨.createPrivateChat userId participantId, .ok chatId⟩ ∈ h) ∧
    ⟨.chat (.getChatForUser userId chatId), some found⟩ ∈ h ∧
    chat = Groups.Handlers.chatToResponse found
  | _ => True

theorem createPrivateChat_reads (userId participantId : Uuid) :
    (createPrivateChat userId participantId).run.Follows (fun _ _ => True)
      (Read userId participantId) [] := by
  have hread : ∀ chatId h, (⟨.findPrivateChat userId participantId, some chatId⟩ ∈ h ∨
      ⟨.createPrivateChat userId participantId, .ok chatId⟩ ∈ h) → (do
        let chat ← StoreTask.okOr (← StoreTask.ask (.chat (.getChatForUser userId chatId)))
          (.notFound "chat not found")
        return ⟨201, .chat (Groups.Handlers.chatToResponse chat)⟩ :
          StoreTask Response).run.Follows (fun _ _ => True) (Read userId participantId) h := by
    refine fun chatId h hsettled => ⟨trivial, fun r => ?_⟩
    cases r with
    | none => trivial
    | some found =>
      refine ⟨chatId, found, hsettled.imp (List.mem_append_left _) (List.mem_append_left _), ?_, rfl⟩
      exact List.mem_append_right _ (List.mem_singleton_self _)
  rw [createPrivateChat]
  split_ifs with hself
  · trivial
  refine ⟨trivial, fun r => ?_⟩
  cases r with
  | some chatId => exact hread chatId _ (.inl List.mem_cons_self)
  | none =>
    refine Prog.follows_run_bind.mpr ⟨trivial, fun r => ?_⟩
    cases r with
    | error e => trivial
    | ok chatId => exact hread chatId _ (.inr (List.mem_append_right _ (List.mem_singleton_self _)))

theorem getChatForUser_id {ω : StoreChoice} {db db' : ChatStore} {u x : Uuid} {found : Chat}
    (he : ChatStore.exec ω (.chat (.getChatForUser u x)) db = some (some found, db')) :
    found.id = x := by
  obtain ⟨hfound, -⟩ := Prod.mk.inj (Option.some.inj he)
  obtain ⟨row, -, hrow⟩ := Option.bind_eq_some_iff.mp hfound
  obtain ⟨p, -, rfl⟩ := Option.map_eq_some_iff.mp hrow
  rfl

/-- A request that returns a chat has settled on it. -/
theorem returns_settles {P : PrivateConfig → PrivateAct → Prop} {s : ChatStore} {c : PrivateConfig}
    {i : Nat} {u v x : Uuid} (h : privateServer.Reach P (System.start s) c) (hr : Returns c i u v x) :
    ∃ e ∈ c.log, e.task = i ∧ Settles e u v x := by
  obtain ⟨status, chat, ht, rfl⟩ := hr
  have hreads := (h.replays.2 _ _ _ ht).follows (createPrivateChat_reads u v)
  obtain ⟨chatId, found, hsettled, hread, rfl⟩ := hreads
  rw [List.nil_append] at hsettled hread
  obtain ⟨before, later, hlog⟩ := List.append_of_mem (World.mem_history.mp hread)
  obtain ⟨ω, db, db', -, he⟩ := h.explained (J := fun _ => True) (fun _ => trivial) _ _ _ hlog
  obtain rfl : found.id = chatId := getChatForUser_id (ω := ω) he
  obtain hfound | hcreated := hsettled
  · exact ⟨_, World.mem_history.mp hfound, rfl, rfl, rfl, rfl⟩
  · exact ⟨_, World.mem_history.mp hcreated, rfl, rfl, rfl, rfl⟩

theorem SamePair.symm {u v u' v' : Uuid} (h : SamePair u v u' v') : SamePair u' v' u v := by
  obtain ⟨rfl, rfl⟩ | ⟨rfl, rfl⟩ := h
  · exact .inl ⟨rfl, rfl⟩
  · exact .inr ⟨rfl, rfl⟩

theorem sameAnswer_of_settled {P : PrivateConfig → PrivateAct → Prop} {s : ChatStore}
    {c : PrivateConfig} (h : privateServer.Reach P (System.start s) c)
    (hsettled : Backed SameSettled c.log) : SameAnswer c := by
  have hordered : ∀ {i j u v u' v' x x' before e mid e' later}, SamePair u v u' v' →
      NoDeleteBetween c i j → (e.task = i ∧ e'.task = j ∨ e.task = j ∧ e'.task = i) →
      c.log = before ++ e :: (mid ++ e' :: later) → Settles e u v x → Settles e' u' v' x' →
      x = x' := by
    intro i j u v u' v' x x' before e mid e' later hpair hbetween htasks hlog he he'
    have hdelete := hbetween before e mid e' later hlog htasks ⟨u, v, x, he⟩ ⟨u', v', x', he'⟩
    exact hsettled (before ++ e :: mid) e' later (by simp [hlog]) before e mid u v x u' v' x' rfl
      he he' hpair hdelete
  intro i j u v u' v' x x' hi hj hpair hbetween
  obtain ⟨e, he, hei, hsettles⟩ := returns_settles h hi
  obtain ⟨e', he', hej, hsettles'⟩ := returns_settles h hj
  by_cases heq : e = e'
  · -- an event settles on one chat
    subst heq
    obtain ⟨k, rfl⟩ | ⟨k, rfl⟩ := settles_cases hsettles
    · exact Option.some.inj hsettles'.2.2
    · exact Except.ok.inj hsettles'.2.2
  · obtain ⟨before, later, hlog⟩ := List.append_of_mem he
    rw [hlog, List.mem_append, List.mem_cons] at he'
    obtain hbefore | rfl | hlater := he'
    · obtain ⟨before, mid, rfl⟩ := List.append_of_mem hbefore
      exact (hordered hpair.symm hbetween (.inr ⟨hej, hei⟩) (by simpa using hlog) hsettles'
        hsettles).symm
    · exact absurd rfl heq
    · obtain ⟨mid, later, rfl⟩ := List.append_of_mem hlater
      exact hordered hpair hbetween (.inl ⟨hei, hej⟩) hlog hsettles hsettles'

/-- In a run of the two requests the users always have one private chat at most, and requests
for the same pair return the same one, exactly if no transaction inserts a chat for users who
have got one since the lookup. -/
theorem one_private_chat_iff (users : List Uuid) (acts : List PrivateAct) :
    privateServer.Every NoneYet acts (System.start (.empty users)) ↔
      ∀ c ∈ privateServer.trace acts (System.start (.empty users)),
        AtMostOnePrivate c.db ∧ SameAnswer c := by
  have hstart := unraced_start users
  have hunique := System.every_iff_forall (S := privateServer)
    (J := Config.Meets (fun w => Rooted w.db.toChatsDb) (fun _ _ _ p => p.Issues PrivateCmd))
    (G := fun c => AtMostOnePrivate c.db) (fun hc ha => private_outline.apply hc trivial ha)
    (fun hc h ha => noneYet_iff hc h ha) acts hstart.meets hstart.unique
  constructor
  · intro h c hmem
    have hreach := System.reach_of_mem_trace h hmem
    have hc : Unraced c := hreach.invariant (fun hc hp ha => unraced_apply hc hp ha) hstart
    exact ⟨hc.unique, sameAnswer_of_settled hreach hc.settled⟩
  · exact fun h => hunique.mpr fun c hmem => (h c hmem).1

def alice : Uuid := .ofNat 1

def bob : Uuid := .ofNat 2

def choose (n : Nat) : StoreChoice := ⟨⟨.ofNat n, n, ""⟩, false, [], true⟩

/-- Two users open a chat with each other at the same time. -/
def openTwice : List PrivateAct :=
  [.spawn (alice, .createPrivateChat bob), .spawn (bob, .createPrivateChat alice),
    .step 0 (choose 10), .step 1 (choose 11), .step 0 (choose 12), .step 1 (choose 13),
    .step 0 (choose 14), .step 1 (choose 15)]

theorem two_chats_opened :
    ∃ c ∈ privateServer.trace openTwice (System.start (.empty [alice, bob])),
      ¬ AtMostOnePrivate c.db := by
  have hchats : (privateServer.trace openTwice (System.start (.empty [alice, bob])))[8]?.any
      (fun c => c.db.isPrivateChatOf alice bob (.ofNat 12) &&
        c.db.isPrivateChatOf alice bob (.ofNat 13)) := by decide +kernel
  obtain ⟨c, hc, hboth⟩ := (Option.any_eq_true _ _).mp hchats
  obtain ⟨hfirst, hsecond⟩ := Bool.and_eq_true_iff.mp hboth
  refine ⟨c, List.mem_of_getElem? hc, fun h => ?_⟩
  exact absurd (h alice bob _ _ (by decide) hfirst hsecond) (by decide)

end Mesty.Chats.PrivateChats
