import Mathlib.Data.List.Induction
import Mesty.Groups.Authority

namespace Mesty.Groups.Deletion

open Mesty.Base.Ids Mesty.Base.Error Mesty.Concurrency.Pool Mesty.Concurrency.Sequential
open Mesty.Chats.Entities Mesty.Chats.Repository Mesty.Chats.Messages Mesty.Chats.Store
open Mesty.Chats.Handlers
open Mesty.Chats.Changes (createPrivateChat_cases)
open Mesty.Chats.Effects (SameTables)
open Mesty.Chats.Ownership (createGroupChat_cases participant_setParticipant_self
  participant_setParticipant_ne foldl_insertMember_eq)
open Mesty.Groups.Effects
open Mesty.Groups.Handlers (GroupReq)

/-- `deleted_at` is set, as `delete_chat` by the owner of a group does. -/
def Deleted (db : ChatStore) (chatId : Uuid) : Prop :=
  ∃ row, db.chats.lookup chatId = some row ∧ row.deletedAt.isSome

instance (db : ChatStore) (chatId : Uuid) : Decidable (Deleted db chatId) :=
  decidable_of_iff (∃ row ∈ db.chats.lookup chatId, row.deletedAt.isSome) Iff.rfl

/-- The row of the chat with its invite link, its participants and its messages are the same. -/
structure Frozen (db db' : ChatStore) (chatId : Uuid) : Prop where
  chat : db'.chats.lookup chatId = db.chats.lookup chatId
  participants : ∀ userId, db'.participant chatId userId = db.participant chatId userId
  messages : db'.messages.filter (fun m => m.chatId = chatId) =
    db.messages.filter (fun m => m.chatId = chatId)

section Reached

variable (db : ChatStore) (actor : Uuid)

def isAdmin (chatId : Uuid) : Prop := ∃ r ∈ roleOf db.toChatsDb chatId actor, .admin ≤ r

/-- The check of `remove_participant`. -/
def mayRemove (chatId targetId : Uuid) : Prop :=
  ∃ r ∈ roleOf db.toChatsDb chatId actor, ∃ old ∈ roleOf db.toChatsDb chatId targetId,
    if actor = targetId then r ≠ .owner else old < r

/-- The check of `update_participant_role`, and that the role is a new one. -/
def mayChangeRole (chatId targetId : Uuid) (role : String) : Prop :=
  ∃ r ∈ roleOf db.toChatsDb chatId actor, ∃ old ∈ roleOf db.toChatsDb chatId targetId,
    ∃ new ∈ ParticipantRole.fromDbStr role, old < r ∧ new < r ∧ new ≠ old

/-- The last key that the request has for a member is a new one. -/
def hasNewKey (chatId : Uuid) (keys : List (Uuid × String)) : Prop :=
  ∃ entry ∈ keys, ∃ row ∈ db.activeRow chatId entry.1,
    (keys.filter (fun e => e.1 = entry.1)).getLast?.map Prod.snd ≠ row.encryptionKeyEnc

def mayTransfer (chatId newOwnerId : Uuid) : Prop :=
  newOwnerId ≠ actor ∧ roleOf db.toChatsDb chatId actor = some .owner ∧
    (db.activeRow chatId newOwnerId).isSome

instance (chatId : Uuid) : Decidable (isAdmin db actor chatId) :=
  inferInstanceAs (Decidable (∃ r ∈ _, _))

instance (chatId targetId : Uuid) : Decidable (mayRemove db actor chatId targetId) :=
  inferInstanceAs (Decidable (∃ r ∈ _, ∃ old ∈ _, _))

instance (chatId targetId : Uuid) (role : String) :
    Decidable (mayChangeRole db actor chatId targetId role) :=
  inferInstanceAs (Decidable (∃ r ∈ _, ∃ old ∈ _, ∃ new ∈ _, _))

instance (chatId : Uuid) (keys : List (Uuid × String)) : Decidable (hasNewKey db chatId keys) :=
  inferInstanceAs (Decidable (∃ entry ∈ keys, ∃ row ∈ _, _))

instance (chatId newOwnerId : Uuid) : Decidable (mayTransfer db actor chatId newOwnerId) :=
  inferInstanceAs (Decidable (_ ∧ _ ∧ _))

/-- The chat of a write that is made without a look at the `deleted_at` of this chat. -/
def reached : ChatReq → Option Uuid
  | .group (.removeParticipant chatId targetId) =>
    if mayRemove db actor chatId targetId then some chatId else none
  | .group (.updateParticipantRole chatId targetId role) =>
    if mayChangeRole db actor chatId targetId role then some chatId else none
  | .group (.createInviteLink chatId) | .group (.deleteInviteLink chatId) =>
    if isAdmin db actor chatId then some chatId else none
  | .group (.transferOwnership chatId newOwnerId) =>
    if mayTransfer db actor chatId newOwnerId then some chatId else none
  | .rotateGroupKey chatId keys =>
    if isAdmin db actor chatId ∧ hasNewKey db chatId keys then some chatId else none
  | .deleteMessage chatId messageId =>
    if (db.memberOfLiveChat actor chatId).isSome then
      (db.ownMessage messageId actor).map ChatMessage.chatId
    else none
  | _ => none

end Reached

variable {db db' : ChatStore} {actor chatId chatId' userId userId' : Uuid} {req : ChatReq}

theorem Frozen.refl (db : ChatStore) (chatId : Uuid) : Frozen db db chatId :=
  ⟨rfl, fun _ => rfl, rfl⟩

theorem Frozen.trans {db₁ db₂ db₃ : ChatStore} (h : Frozen db₁ db₂ chatId)
    (h' : Frozen db₂ db₃ chatId) : Frozen db₁ db₃ chatId :=
  ⟨h'.chat.trans h.chat, fun u => (h'.participants u).trans (h.participants u),
    h'.messages.trans h.messages⟩

theorem Frozen.deleted (h : Frozen db db' chatId) (hd : Deleted db chatId) : Deleted db' chatId := by
  obtain ⟨row, hrow, hdeleted⟩ := hd
  exact ⟨row, h.chat.trans hrow, hdeleted⟩

/-- Only the three tables matter. -/
theorem Frozen.congr {db₁ : ChatStore} (h : Frozen db db₁ chatId) (htables : SameTables db₁ db') :
    Frozen db db' chatId := by
  obtain ⟨⟨hchats, hparticipants⟩, hmessages⟩ := htables
  refine ⟨by rw [hchats, h.chat], fun u => ?_, by rw [hmessages, h.messages]⟩
  rw [← h.participants u, ChatsDb.participant, hparticipants, ChatsDb.participant]

theorem Deleted.mem (h : Deleted db chatId) : chatId ∈ db.chats := by
  obtain ⟨row, hrow, -⟩ := h
  exact AList.lookup_isSome.mp (by rw [hrow, Option.isSome_some])

/-- A chat that a check has seen is not deleted. -/
theorem Deleted.ne_live (h : Deleted db chatId) {row : ChatRow}
    (hlive : db.liveChat chatId' = some row) : chatId ≠ chatId' := by
  rintro rfl
  obtain ⟨row', hrow', hdeleted⟩ := h
  obtain ⟨hrow, hnone⟩ := Option.filter_eq_some_iff.mp hlive
  obtain rfl := Option.some.inj (hrow'.symm.trans hrow)
  rw [Option.isNone_iff_eq_none] at hnone
  simp [hnone] at hdeleted

/-- The owner of a live group who runs `delete_chat` sets `deleted_at`. -/
theorem deleted_of_deleteChat {chat : ChatRow} {ωs : List StoreChoice}
    {out : Except ApiError Response} (hchat : db.liveChat chatId = some chat)
    (htype : chat.chatType ≠ .private) (howner : roleOf db.toChatsDb chatId actor = some .owner)
    (hrun : (handle actor (.group (.deleteChat chatId))).run.alone ChatStore.exec ωs db =
      some (out, db')) : Deleted db' chatId := by
  obtain ⟨row, hrow, hrole⟩ := Option.map_eq_some_iff.mp howner
  have hlookup : db.chats.lookup chatId = some chat := (Option.filter_eq_some_iff.mp hchat).1
  have hdelete : (Chats.Participants.deleteChat actor chatId).run.wp ChatsDb.exec
      (fun _ chats => Deleted (db.withChats chats) chatId) db.toChatsDb := by
    rw [Chats.Participants.deleteChat, wp_query]
    intro ω r db₁ he
    obtain ⟨rfl, rfl⟩ := Prod.mk.inj (Option.some.inj he)
    rw [wp_okOr, hchat, Option.bind_some, hrow, Option.map_some]
    refine ⟨by rintro ⟨⟩, fun chatType hchatType => ?_⟩
    obtain rfl := Option.some.inj hchatType
    rw [if_neg htype, wp_query]
    intro ω r db₁ he
    obtain ⟨rfl, rfl⟩ := Prod.mk.inj (Option.some.inj he)
    rw [if_pos (by simp [(activeRow_eq.mp hrow).1, hrole])]
    rintro ω ⟨⟩ _ ⟨⟩
    refine ⟨{ chat with deletedAt := some ω.now }, ?_, rfl⟩
    change (db.toChatsDb.updateChat chatId _).chats.lookup chatId = _
    rw [ChatsDb.updateChat, hlookup, AList.lookup_insert]
  have hgroup : (Groups.Handlers.handle actor (.deleteChat chatId)).run.wp ChatsDb.exec
      (fun _ chats => Deleted (db.withChats chats) chatId) db.toChatsDb :=
    hdelete.tryBind fun _ _ h => h
  have hwp : (handle actor (.group (.deleteChat chatId))).run.wp ChatStore.exec
      (fun _ db' => Deleted db' chatId) db :=
    (Chats.Effects.wp_ofChat hgroup).tryBind fun _ _ h => h
  exact hwp.of_alone hrun

theorem frozen_setParticipant {row : ParticipantRow}
    (h : chatId = chatId' → db.participant chatId userId' = some row) :
    Frozen db (db.withChats (db.setParticipant chatId' userId' row)) chatId := by
  refine ⟨rfl, fun u => ?_, rfl⟩
  by_cases hkey : chatId = chatId' ∧ u = userId'
  · obtain ⟨rfl, rfl⟩ := hkey
    exact participant_setParticipant_self.trans (h rfl).symm
  · exact participant_setParticipant_ne hkey

theorem frozen_updateParticipant {f : ParticipantRow → ParticipantRow} (hne : chatId ≠ chatId') :
    Frozen db (db.withChats (db.updateParticipant chatId' userId' f)) chatId := by
  rw [ChatsDb.updateParticipant]
  split
  · exact .refl db chatId
  · exact frozen_setParticipant fun heq => absurd heq hne

theorem frozen_updateChat {f : ChatRow → ChatRow} (hne : chatId ≠ chatId') :
    Frozen db (db.withChats (db.toChatsDb.updateChat chatId' f)) chatId := by
  rw [ChatsDb.updateChat]
  split
  · exact .refl db chatId
  · exact ⟨AList.lookup_insert_ne hne, fun _ => rfl, rfl⟩

/-- A message is written in another chat. -/
theorem frozen_updateMessage {m : ChatMessage} {messageId : Uuid} {f : ChatMessage → ChatMessage}
    (hf : ∀ m, (f m).id = m.id) (hchat : ∀ m, (f m).chatId = m.chatId)
    (hfind : db.findMessage messageId = some m) (hne : chatId ≠ m.chatId) :
    Frozen db (db.updateMessage messageId f hf) chatId := by
  refine ⟨rfl, fun _ => rfl, ?_⟩
  have hid : m.id = messageId := by simpa using List.find?_some hfind
  change (db.messages.map _).filter _ = _
  rw [List.filter_map]
  have hkeep : ∀ x ∈ db.messages.filter (fun x => x.chatId = chatId),
      (if x.id = messageId then f x else x) = x := by
    intro x hx
    obtain ⟨hmem, hx⟩ := List.mem_filter.mp hx
    refine if_neg fun heq => hne ?_
    -- messages with the same id are the same
    have : x = m := List.inj_on_of_nodup_map db.uniqueIds hmem (List.mem_of_find?_eq_some hfind)
      (heq.trans hid.symm)
    rw [← this]
    simpa using (of_decide_eq_true hx).symm
  have hfilter : db.messages.filter ((fun x => decide (x.chatId = chatId)) ∘
      (fun x => if x.id = messageId then f x else x)) =
      db.messages.filter (fun x => x.chatId = chatId) := by
    refine List.filter_congr fun x _ => ?_
    simp only [Function.comp_apply]
    split_ifs
    · rw [hchat]
    · rfl
  rw [hfilter]
  exact (List.map_congr_left hkeep).trans (List.map_id' _)

theorem participant_rotateKey_ne {acc : Nat × ChatsDb} {entry : Uuid × String}
    (hne : ¬ (chatId = chatId' ∧ userId = entry.1)) :
    (rotateKey chatId' acc entry).2.participant chatId userId = acc.2.participant chatId userId := by
  rw [rotateKey]
  split
  · rfl
  · exact participant_setParticipant_ne hne

theorem participant_rotateKey_self {acc : Nat × ChatsDb} {entry : Uuid × String} :
    (rotateKey chatId acc entry).2.participant chatId entry.1 =
      (acc.2.participant chatId entry.1).map (fun row =>
        if row.leftAt = none then { row with encryptionKeyEnc := some entry.2 } else row) := by
  rw [rotateKey]
  cases hrow : acc.2.activeRow chatId entry.1 with
  | some row =>
    obtain ⟨hp, hleft⟩ := activeRow_eq.mp hrow
    simp [hp, hleft]
  | none =>
    cases hp : acc.2.participant chatId entry.1 with
    | none => rfl
    | some row =>
      have hleft : row.leftAt ≠ none := by
        intro hleft
        rw [activeRow_eq.mpr ⟨hp, hleft⟩] at hrow
        cases hrow
      simp [hleft]

/-- A member gets the last key that the request has for them. -/
theorem participant_rotateKeys (db : ChatsDb) (chatId userId : Uuid) (n : Nat)
    (keys : List (Uuid × String)) :
    (keys.foldl (rotateKey chatId) (n, db)).2.participant chatId userId =
      match (keys.filter (fun e => e.1 = userId)).getLast? with
      | none => db.participant chatId userId
      | some entry => (db.participant chatId userId).map (fun row =>
          if row.leftAt = none then { row with encryptionKeyEnc := some entry.2 } else row) := by
  induction keys using List.reverseRecOn with
  | nil => rfl
  | append_singleton keys entry ih =>
    rw [List.foldl_append, List.foldl_cons, List.foldl_nil, List.filter_append]
    by_cases hu : userId = entry.1
    · subst hu
      rw [participant_rotateKey_self, ih]
      have hlast : (keys.filter (fun e => e.1 = entry.1) ++
          [entry].filter (fun e => e.1 = entry.1)).getLast? = some entry := by simp
      rw [hlast]
      split
      · rfl
      · rw [Option.map_map]
        refine congrArg (fun f => Option.map f _) (funext fun row => ?_)
        by_cases hleft : row.leftAt = none <;> simp [hleft]
    · rw [participant_rotateKey_ne (by simp [hu]), ih]
      simp [Ne.symm hu]

theorem participant_rotateKeys_ne (db : ChatsDb) (n : Nat) (keys : List (Uuid × String))
    (hne : chatId ≠ chatId') :
    (keys.foldl (rotateKey chatId') (n, db)).2.participant chatId userId =
      db.participant chatId userId := by
  induction keys using List.reverseRecOn with
  | nil => rfl
  | append_singleton keys entry ih =>
    rw [List.foldl_append, List.foldl_cons, List.foldl_nil, participant_rotateKey_ne (by simp [hne]),
      ih]

theorem frozen_rotateKeys {keys : List (Uuid × String)}
    (h : chatId = chatId' → ¬ hasNewKey db chatId' keys) :
    Frozen db (db.withChats (keys.foldl (rotateKey chatId') (0, db.toChatsDb)).2) chatId := by
  have hchats := congrArg ChatsDb.chats (foldl_rotateKey_eq chatId' keys (0, db.toChatsDb))
  refine ⟨congrArg (AList.lookup chatId) hchats, fun u => ?_, rfl⟩
  by_cases hc : chatId = chatId'
  · have hold := h hc
    subst hc
    refine (participant_rotateKeys db.toChatsDb chatId u 0 keys).trans ?_
    split
    · rfl
    · next entry hlast =>
      cases hp : db.participant chatId u with
      | none => rfl
      | some row =>
        refine congrArg some ?_
        dsimp only
        split_ifs with hleft
        · have hmem := List.mem_filter.mp (List.mem_of_getLast? hlast)
          have hu : entry.1 = u := by simpa using hmem.2
          have hkey : some entry.2 = row.encryptionKeyEnc := by
            by_contra hne
            refine hold ⟨entry, hmem.1, row, ?_, ?_⟩
            · exact activeRow_eq.mpr ⟨hu ▸ hp, hleft⟩
            · rwa [hu, hlast, Option.map_some]
          rw [hkey]
        · rfl
  · exact participant_rotateKeys_ne db.toChatsDb 0 keys hc

theorem lookup_createGroupChat {db db' : ChatsDb} {ω : Choice} {name : String}
    {participantIds : List Uuid} {newId : Uuid} (hchat : chatId ∈ db.chats)
    (h : db.createGroupChat ω actor name participantIds = some (.ok newId, db')) :
    db'.chats.lookup chatId = db.chats.lookup chatId := by
  obtain ⟨⟨e, he⟩, -⟩ | ⟨-, hfresh, -, -, rfl⟩ := createGroupChat_cases h
  · cases he
  · rw [foldl_insertMember_eq]
    exact AList.lookup_insert_ne fun heq => hfresh (heq ▸ hchat)

/-- A group request leaves a deleted chat as it is unless its write is one that does not look
whether the chat is deleted. -/
theorem group_frozen {req : GroupReq} {chats : ChatsDb} (hd : Deleted db chatId)
    (hreached : reached db actor (.group req) ≠ some chatId)
    (h : Effect db.toChatsDb actor req chats) : Frozen db (db.withChats chats) chatId := by
  cases h with
  | nothing => exact .refl db chatId
  | createGroup h =>
    exact ⟨lookup_createGroupChat hd.mem h, fun u => Authority.participant_createGroupChat hd.mem h,
      rfl⟩
  | addParticipant hactor hrank hchat =>
    exact frozen_setParticipant fun heq => absurd heq (hd.ne_live hchat)
  | joinBySlug hslug hchat => exact frozen_setParticipant fun heq => absurd heq (hd.ne_live hchat)
  | removeParticipant hactor htarget hrank =>
    refine frozen_updateParticipant ?_
    rintro rfl
    exact hreached (if_pos ⟨_, hactor, _, htarget, hrank⟩)
  | @setRole _ _ _ new _ row hactor htarget hnew hrank =>
    refine frozen_setParticipant ?_
    rintro rfl
    have hsame : new = row.role := not_not.mp fun hne => hreached (if_pos ⟨_, hactor, _,
      congrArg (Option.map ParticipantRow.role) htarget, _, hnew, hrank.1, hrank.2, hne⟩)
    rw [hsame]
    exact (activeRow_eq.mp htarget).1
  | setInviteLink hreq hactor hrank =>
    refine frozen_updateChat ?_
    rintro rfl
    obtain rfl | rfl := hreq
    · exact hreached (if_pos ⟨_, hactor, hrank⟩)
    · exact hreached (if_pos ⟨_, hactor, hrank⟩)
  | @transferOwnership chatId' _ _ hactor hnew hne =>
    have hother : chatId ≠ chatId' := by
      rintro rfl
      exact hreached (if_pos ⟨hne, hactor, by rw [hnew, Option.isSome_some]⟩)
    exact (frozen_updateParticipant hother).trans (frozen_updateParticipant hother)
  | leave hchat => exact frozen_updateParticipant (hd.ne_live hchat)
  | deleteChat hchat => exact frozen_updateChat (hd.ne_live hchat)

theorem liveChat_of_member {row : ChatRow} (h : db.memberOfLiveChat userId chatId' = some row) :
    db.liveChat chatId' = some row :=
  (Option.filter_eq_some_iff.mp h).1

theorem frozen_createPrivateChat {ω : StoreChoice} {participantId newId : Uuid}
    (hd : Deleted db chatId)
    (h : db.createPrivateChat ω actor participantId = some (.ok newId, db')) :
    Frozen db db' chatId := by
  have hkept : ∀ u, db'.participant chatId u = db.participant chatId u :=
    fun u => Authority.participant_createPrivateChat hd.mem h
  obtain ⟨⟨e, he⟩, -⟩ | ⟨-, hfresh, -, -, -, rfl⟩ := createPrivateChat_cases h
  · cases he
  · exact ⟨AList.lookup_insert_ne fun heq => hfresh (heq ▸ hd.mem), hkept, rfl⟩

theorem effect_frozen (hd : Deleted db chatId) (hreached : reached db actor req ≠ some chatId)
    (h : Chats.Effects.Effect db actor req db') : Frozen db db' chatId := by
  cases h with
  | nothing => exact .refl db chatId
  | group h => exact group_frozen hd hreached h
  | rotateGroupKey hactor hrank =>
    refine frozen_rotateKeys ?_
    rintro rfl hkeys
    exact hreached (if_pos ⟨⟨_, hactor, hrank⟩, hkeys⟩)
  | createPrivateChat h => exact frozen_createPrivateChat hd h
  | sendMessage hchat hm hfresh =>
    have hne := hd.ne_live (liveChat_of_member hchat)
    refine ⟨rfl, fun _ => rfl, ?_⟩
    change (db.messages ++ [_]).filter _ = _
    rw [List.filter_append]
    simp [hm, Ne.symm hne]
  | updateChat hchat => exact frozen_updateChat (hd.ne_live (liveChat_of_member hchat))
  | editMessage hown hchat =>
    exact frozen_updateMessage _ (fun _ => rfl) (Option.filter_eq_some_iff.mp hown).1
      (hd.ne_live (liveChat_of_member hchat))
  | deleteMessage hchat hown =>
    refine frozen_updateMessage _ (fun _ => rfl) (Option.filter_eq_some_iff.mp hown).1 ?_
    rintro rfl
    refine hreached ((if_pos ?_).trans ?_)
    · rw [hchat, Option.isSome_some]
    · rw [hown, Option.map_some]

abbrev ChatConfig := Authority.ChatConfig

abbrev ChatAct := Authority.ChatAct

/-- The request that the move runs makes no unguarded write in a deleted chat. -/
def Spares (c : ChatConfig) : ChatAct → Prop
  | .step i _ => ∀ r ∈ c.tasks[i]?.bind (fun t => t.2.next), ∀ chatId ∈ reached c.db r.1 r.2,
      ¬ Deleted c.db chatId
  | _ => True

instance (c : ChatConfig) : (a : ChatAct) → Decidable (Spares c a)
  | .step i _ => inferInstanceAs (Decidable (∀ r ∈ c.tasks[i]?.bind (fun t => t.2.next),
      ∀ chatId ∈ reached c.db r.1 r.2, ¬ Deleted c.db chatId))
  | .spawn _ | .tick _ => .isTrue trivial

theorem frozen_move {c d : ChatConfig} {a : ChatAct} (hspares : Spares c a)
    (ha : (atomic chatServer).apply a c = some d) (hd : Deleted c.db chatId) :
    Frozen c.db d.db chatId := by
  obtain h | ⟨i, ωs, ⟨actor, req⟩, out, rfl, hnext, hrun⟩ | ⟨ω, htick⟩ := atomic_cases ha
  · exact h ▸ .refl c.db chatId
  · obtain ⟨db₁, heffect, htables⟩ := (Chats.Effects.handle_done c.db actor req).of_alone hrun
    refine (effect_frozen hd ?_ heffect).congr htables
    exact fun hreached => hspares _ hnext _ hreached hd
  · have hdb := Option.some.inj htick
    rw [← hdb]
    exact ⟨rfl, fun _ => rfl, rfl⟩

/-- What is deleted stays as it is as long as no request that looks only at roles, or only at
the sender of a message, is made in a deleted chat. -/
theorem frozen_after_deletion {users : List Uuid} {acts : List ChatAct}
    (h : (atomic chatServer).Every Spares acts (System.start (.empty users))) :
    ((atomic chatServer).trace acts (System.start (.empty users))).Pairwise
      (fun c d => ∀ chatId, Deleted c.db chatId → Frozen c.db d.db chatId) := by
  refine h.pairwise (fun c chatId _ => .refl c.db chatId) ?_
  intro c d e a hcd hspares ha chatId hd
  have hfrozen := hcd chatId hd
  exact hfrozen.trans (frozen_move hspares ha (hfrozen.deleted hd))

def alice : Uuid := .ofNat 1

def bob : Uuid := .ofNat 2

def theGroup : Uuid := .ofNat 4

def at_ (now : Timestamp) : StoreChoice := ⟨⟨theGroup, now, ""⟩, false, [], true⟩

/-- Alice creates a group with Bob and deletes it. Then she makes a last request. -/
def deleteThen (last : ChatReq) (ωs : List StoreChoice) : List ChatAct :=
  [.spawn (alice, .group (.createGroup "friends" [bob])), .step 0 [at_ 1, at_ 2],
    .spawn (alice, .group (.deleteChat theGroup)), .step 1 [at_ 3, at_ 4, at_ 5],
    .spawn (alice, last), .step 2 ωs]

/-- An invitation into the deleted group is refused. -/
theorem frozen_without_invitations :
    ((atomic chatServer).trace
      (deleteThen (.group (.addParticipant theGroup (.ofNat 3) none)) [at_ 6, at_ 7])
      (System.start (.empty [alice, bob, .ofNat 3]))).Pairwise
        (fun c d => ∀ chatId, Deleted c.db chatId → Frozen c.db d.db chatId) :=
  frozen_after_deletion (by decide +kernel)

/-- The owner still removes a member. -/
def removeBob : List ChatAct :=
  deleteThen (.group (.removeParticipant theGroup bob)) [at_ 6, at_ 7, at_ 8, at_ 9, at_ 10]

theorem removed_after_deletion :
    ¬ ((atomic chatServer).trace removeBob (System.start (.empty [alice, bob]))).Pairwise
        (fun c d => ∀ chatId, Deleted c.db chatId → Frozen c.db d.db chatId) := by
  intro h
  have hlen : ((atomic chatServer).trace removeBob
      (System.start (.empty [alice, bob]))).length = 7 := by decide +kernel
  have hchange : ∀ c ∈ ((atomic chatServer).trace removeBob (System.start (.empty [alice, bob])))[4]?,
      ∀ d ∈ ((atomic chatServer).trace removeBob (System.start (.empty [alice, bob])))[6]?,
        Deleted c.db theGroup ∧
          d.db.participant theGroup bob ≠ c.db.participant theGroup bob := by decide +kernel
  obtain ⟨hdeleted, hne⟩ := hchange _ (List.getElem?_eq_getElem (by omega)) _
    (List.getElem?_eq_getElem (by omega))
  have hfrozen := List.pairwise_iff_getElem.mp h 4 6 (by omega) (by omega) (by omega) theGroup hdeleted
  exact hne (hfrozen.participants bob)

end Mesty.Groups.Deletion
