import Mesty.Groups.Deletion

namespace Mesty.Groups.KeyRotation

open Mesty.Base.Ids Mesty.Base.Error Mesty.Concurrency.Program
open Mesty.Chats Mesty.Chats.Entities Mesty.Chats.Repository Mesty.Chats.Store Mesty.Chats.Handlers
open Mesty.Groups.Effects (roleOf activeRow_eq)
open Mesty.Groups.Authority (roleOf_rotateKeys)
open Mesty.Groups.Deletion (isAdmin participant_rotateKeys participant_rotateKeys_ne)
open Mesty.Chats.Effects (wp_ask wp_okOr wp_throw)
open StoreTask

/-- The repository function, which the handler calls with a list that is not empty. -/
def rotateGroupKey (chatId actorId : Uuid) (keys : List (Uuid × String)) : StoreTask Nat := do
  let actorRole ← okOr (← ask (.chat (.getParticipantRole actorId chatId))) Participants.notAMember
  if actorRole < .admin then
    throw (.unauthorized "only admins and owners can rotate the group key")
  else
    ask (.rotateKeys chatId keys)

def keyRotated (chatId : Uuid) : String × Payload :=
  ("chat:" ++ chatId.toString ++ ":events",
    ⟨"key_rotated", some chatId, [("chat_id", chatId.toString)]⟩)

/-- The handler calls the repository and publishes the event. -/
theorem handler_eq {userId chatId : Uuid} {keys : List (Uuid × String)} (hkeys : keys ≠ []) :
    Handlers.rotateGroupKey userId chatId keys = (do
      let updatedCount ← rotateGroupKey chatId userId keys
      ask (.chat (.publish (keyRotated chatId).1 (keyRotated chatId).2))
      return ⟨200, .keyRotated updatedCount⟩) := by
  rw [Handlers.rotateGroupKey, if_neg hkeys, rotateGroupKey]
  simp only [bind_assoc]
  refine congrArg _ (funext fun role => congrArg _ (funext fun actorRole => ?_))
  split_ifs <;> rfl

/-- The key of the last pair for the user. -/
def lastKey (keys : List (Uuid × String)) (userId : Uuid) : Option String :=
  (keys.filter (fun e => e.1 = userId)).getLast?.map Prod.snd

/-- The number of pairs that name an active participant. -/
def named (db : ChatsDb) (chatId : Uuid) (keys : List (Uuid × String)) : Nat :=
  keys.countP (fun e => (db.activeRow chatId e.1).isSome)

/-- The active participants have their new keys, and nothing else has changed. -/
structure Rotated (chatId : Uuid) (keys : List (Uuid × String)) (db db' : ChatStore) : Prop where
  active : ∀ userId row, db.activeRow chatId userId = some row →
    db'.participant chatId userId =
      some { row with encryptionKeyEnc := (lastKey keys userId).or row.encryptionKeyEnc }
  others : ∀ chatId' userId, ¬ (chatId' = chatId ∧ (db.activeRow chatId userId).isSome) →
    db'.participant chatId' userId = db.participant chatId' userId
  tables : db' = { db with participants := db'.participants }

section Loop

variable {db : ChatsDb} {chatId : Uuid}

theorem isSome_activeRow {userId : Uuid} :
    (db.activeRow chatId userId).isSome = (roleOf db chatId userId).isSome :=
  Option.isSome_map.symm

/-- Each pair that names an active participant is counted: the loop leaves who is active. -/
theorem count_rotateKeys (chatId : Uuid) (keys : List (Uuid × String)) (n : Nat) :
    (keys.foldl (rotateKey chatId) (n, db)).1 = n + named db chatId keys := by
  induction keys using List.reverseRecOn with
  | nil => rfl
  | append_singleton keys entry ih =>
    have hactive : ((keys.foldl (rotateKey chatId) (n, db)).2.activeRow chatId entry.1).isSome =
        (db.activeRow chatId entry.1).isSome := by
      rw [isSome_activeRow, isSome_activeRow, roleOf_rotateKeys]
    rw [List.foldl_append, List.foldl_cons, List.foldl_nil, rotateKey, named, List.countP_append,
      List.countP_singleton, ← hactive]
    cases hrow : (keys.foldl (rotateKey chatId) (n, db)).2.activeRow chatId entry.1 with
    | none => exact ih
    | some row => exact congrArg (· + 1) ih

theorem rotated_rotateKeys (db : ChatStore) (keys : List (Uuid × String)) :
    Rotated chatId keys db (db.withChats (keys.foldl (rotateKey chatId) (0, db.toChatsDb)).2) where
  active userId row hrow := by
    obtain ⟨hparticipant, hleft⟩ := activeRow_eq.mp hrow
    refine (participant_rotateKeys db.toChatsDb chatId userId 0 keys).trans ?_
    rw [hparticipant, lastKey]
    cases (keys.filter (fun e => e.1 = userId)).getLast? with
    | none => rfl
    | some entry => simp [hleft]
  others chatId' userId hne := by
    by_cases hchat : chatId' = chatId
    · subst hchat
      refine (participant_rotateKeys db.toChatsDb chatId' userId 0 keys).trans ?_
      cases (keys.filter (fun e => e.1 = userId)).getLast? with
      | none => rfl
      | some entry =>
        cases hp : db.participant chatId' userId with
        | none => rfl
        | some row =>
          refine congrArg some (if_neg fun hleft => hne ⟨rfl, ?_⟩)
          rw [activeRow_eq.mpr ⟨hp, hleft⟩, Option.isSome_some]
    · exact participant_rotateKeys_ne db.toChatsDb 0 keys hchat
  tables := by
    rw [foldl_rotateKey_eq]
    rfl

end Loop

/-- What a rotation of the repository is to do. -/
def Outcome (db : ChatStore) (chatId actorId : Uuid) (keys : List (Uuid × String))
    (out : Except DomainError Nat) (db' : ChatStore) : Prop :=
  (isAdmin db actorId chatId →
    out = .ok (named db.toChatsDb chatId keys) ∧ Rotated chatId keys db db') ∧
  (¬ isAdmin db actorId chatId → (∃ e, out = .error e) ∧ db' = db)

/-- The request does the same with a list that is not empty, and publishes that it has. -/
def Answer (db : ChatStore) (chatId actorId : Uuid) (keys : List (Uuid × String))
    (out : Except DomainError Response) (db' : ChatStore) : Prop :=
  (isAdmin db actorId chatId → keys ≠ [] →
    out = .ok ⟨200, .keyRotated (named db.toChatsDb chatId keys)⟩ ∧
      ∃ rotated, Rotated chatId keys db rotated ∧
        db' = rotated.withChats
          { rotated.toChatsDb with published := rotated.published ++ [keyRotated chatId] }) ∧
  (¬ isAdmin db actorId chatId ∨ keys = [] → (∃ e, out = .error e) ∧ db' = db)

section Requests

variable {db : ChatStore} {chatId actorId : Uuid} {keys : List (Uuid × String)}

theorem isAdmin_iff {role : ParticipantRole} (h : roleOf db.toChatsDb chatId actorId = some role) :
    isAdmin db actorId chatId ↔ .admin ≤ role := by
  simp [isAdmin, h]

theorem rotateGroupKey_outcome : (rotateGroupKey chatId actorId keys).run.wp ChatStore.exec
    (Outcome db chatId actorId keys) db := by
  have hrefused : ∀ e, ¬ isAdmin db actorId chatId → Outcome db chatId actorId keys (.error e) db :=
    fun e hno => ⟨fun hadmin => absurd hadmin hno, fun _ => ⟨⟨e, rfl⟩, rfl⟩⟩
  rw [rotateGroupKey, wp_ask]
  intro ω role db' he
  obtain ⟨rfl, rfl⟩ := Prod.mk.inj (Option.some.inj he)
  rw [wp_okOr]
  refine ⟨fun hnone => hrefused _ ?_, fun role hrole => ?_⟩
  · rintro ⟨role, hrole, -⟩
    cases hnone.symm.trans hrole
  · split_ifs with hrank
    · exact (wp_throw _).mpr (hrefused _ (mt (isAdmin_iff hrole).mp (not_le_of_gt hrank)))
    · rintro ω _ _ ⟨⟩
      have hadmin := (isAdmin_iff hrole).mpr (le_of_not_gt hrank)
      have hcount := (count_rotateKeys chatId keys 0).trans (Nat.zero_add (named db.toChatsDb chatId keys))
      exact ⟨fun _ => ⟨congrArg Except.ok hcount, rotated_rotateKeys db keys⟩,
        fun hno => absurd hadmin hno⟩

theorem handler_answer : (Handlers.rotateGroupKey actorId chatId keys).run.wp ChatStore.exec
    (Answer db chatId actorId keys) db := by
  by_cases hkeys : keys = []
  · rw [Handlers.rotateGroupKey, if_pos hkeys, wp_throw]
    exact ⟨fun _ hne => absurd hkeys hne, fun _ => ⟨⟨_, rfl⟩, rfl⟩⟩
  rw [handler_eq hkeys, Prog.wp_run_bind]
  refine rotateGroupKey_outcome.mono fun out rotated houtcome => ?_
  obtain ⟨hdone, hrefused⟩ := houtcome
  by_cases hadmin : isAdmin db actorId chatId
  · obtain ⟨rfl, hrotated⟩ := hdone hadmin
    rintro ω _ _ ⟨⟩
    exact ⟨fun _ _ => ⟨rfl, rotated, hrotated, rfl⟩,
      fun hno => absurd hno (not_or.mpr ⟨not_not.mpr hadmin, hkeys⟩)⟩
  · obtain ⟨⟨e, rfl⟩, rfl⟩ := hrefused hadmin
    exact ⟨fun h => absurd h hadmin, fun _ => ⟨⟨e, rfl⟩, rfl⟩⟩

theorem issues_answered (ω : StoreChoice) : (rotateGroupKey chatId actorId keys).run.Issues
    (fun c => ∀ db, (ChatStore.exec ω c db).isSome) := by
  refine ⟨fun db => rfl, fun role => ?_⟩
  cases role with
  | none => trivial
  | some role =>
    cases role with
    | member | moderator => trivial
    | admin | owner => exact ⟨fun db => rfl, fun _ => trivial⟩

theorem handler_answered (ω : StoreChoice) : (Handlers.rotateGroupKey actorId chatId keys).run.Issues
    (fun c => ∀ db, (ChatStore.exec ω c db).isSome) := by
  by_cases hkeys : keys = []
  · rw [Handlers.rotateGroupKey, if_pos hkeys]
    trivial
  · rw [handler_eq hkeys]
    exact (issues_answered ω).tryBind fun _ => ⟨fun db => rfl, fun _ => trivial⟩

end Requests

/-- In every state and for every list of pairs the function of the repository comes to its end, and
so does the request, and they do what was asked for: for an active admin or owner each active
participant has the key of the last pair, no other row and no other column changes, and the
answer counts the pairs that name an active participant; for anybody else there is an error and nothing
changes. -/
theorem rotates_what_was_asked (db : ChatStore) (chatId actorId : Uuid) (keys : List (Uuid × String)) :
    ((∀ ω, ((rotateGroupKey chatId actorId keys).run.complete (ChatStore.exec ω) db).isSome) ∧
      (rotateGroupKey chatId actorId keys).run.wp ChatStore.exec (Outcome db chatId actorId keys) db) ∧
    ((∀ ω, ((Handlers.rotateGroupKey actorId chatId keys).run.complete (ChatStore.exec ω) db).isSome) ∧
      (Handlers.rotateGroupKey actorId chatId keys).run.wp ChatStore.exec
        (Answer db chatId actorId keys) db) := by
  refine ⟨⟨fun ω => ?_, rotateGroupKey_outcome⟩, fun ω => ?_, handler_answer⟩
  · exact Prog.isSome_complete (issues_answered ω) db
  · exact Prog.isSome_complete (handler_answered ω) db

end Mesty.Groups.KeyRotation
