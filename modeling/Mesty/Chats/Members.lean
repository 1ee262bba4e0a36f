import Mesty.Chats.Store

namespace Mesty.Chats.Members

open Mesty.Base.Ids Mesty.Chats.Entities Mesty.Chats.Repository Mesty.Chats.Messages
open Mesty.Chats.Store

section Lookup

variable {α β : Type} [DecidableEq α] {k : α} {b : β}

/-- An UPDATE that sets the same value at each of some keys. -/
theorem lookup_foldl_insert (keys : List α) (s : AList (fun _ : α => β)) :
    (keys.foldl (fun s k => s.insert k b) s).lookup k =
      if k ∈ keys then some b else s.lookup k := by
  induction keys generalizing s with
  | nil => simp
  | cons x keys ih =>
    rw [List.foldl_cons, ih]
    by_cases hk : k = x
    · subst hk
      simp [AList.lookup_insert]
    · simp [AList.lookup_insert_ne hk, hk]

/-- INSERT … ON CONFLICT DO NOTHING of one row for each of some keys. -/
theorem lookup_foldl_insertNew {γ : Type} (key : γ → α) (rows : List γ)
    (s : AList (fun _ : α => β)) :
    (rows.foldl (fun s x => if key x ∈ s then s else s.insert (key x) b) s).lookup k =
      (s.lookup k).or (if k ∈ rows.map key then some b else none) := by
  induction rows generalizing s with
  | nil => simp
  | cons x rows ih =>
    rw [List.foldl_cons, ih]
    by_cases hk : k = key x
    · subst hk
      by_cases hmem : key x ∈ s
      · obtain ⟨y, hy⟩ := Option.isSome_iff_exists.mp (AList.lookup_isSome.mpr hmem)
        simp [hmem, hy]
      · simp [hmem, AList.lookup_eq_none.mpr hmem, AList.lookup_insert]
    · by_cases hmem : key x ∈ s
      · simp [hmem, hk]
      · simp [hmem, hk, AList.lookup_insert_ne hk]

end Lookup

variable {db : ChatStore} {chatId userId messageId : Uuid} {now : Timestamp}

theorem activeRow_isSome : (db.activeRow chatId userId).isSome ↔
    ∃ row, db.participants.lookup (chatId, userId) = some row ∧ row.leftAt = none := by
  simp [ChatsDb.activeRow, ChatsDb.participant, Option.isSome_filter, Option.any_eq_true]

theorem mem_activeMembers :
    userId ∈ db.activeMembers chatId ↔ (db.activeRow chatId userId).isSome := by
  rw [activeRow_isSome]
  simp only [ChatStore.activeMembers, List.mem_filterMap, Option.ite_none_right_eq_some,
    Option.some.injEq]
  constructor
  · rintro ⟨⟨⟨chatId', userId'⟩, row⟩, he, ⟨rfl, hleft⟩, rfl⟩
    exact ⟨row, AList.mem_lookup_iff.mpr he, hleft⟩
  · rintro ⟨row, hrow, hleft⟩
    exact ⟨⟨(chatId, userId), row⟩, AList.mem_lookup_iff.mp hrow, ⟨rfl, hleft⟩, rfl⟩

/-- Two rows of a chat are of two users. -/
theorem nodup_activeMembers (db : ChatStore) (chatId : Uuid) : (db.activeMembers chatId).Nodup := by
  have hkeys : db.participants.keys.Nodup := db.participants.keys_nodup
  rw [AList.keys, List.keys, List.Nodup, List.pairwise_map] at hkeys
  refine List.Pairwise.filterMap _ (fun e e' hne u hu u' hu' => ?_) hkeys
  simp only [Option.ite_none_right_eq_some, Option.some.injEq] at hu hu'
  rintro rfl
  exact hne (Prod.ext (hu.1.1.trans hu'.1.1.symm) (hu.2.trans hu'.2.symm))

theorem blockedInPrivateChat_iff : db.blockedInPrivateChat userId chatId ↔
    ∃ other, (db.activeRow chatId other).isSome ∧ other ≠ userId ∧
      ((userId, other) ∈ db.blocks ∨ (other, userId) ∈ db.blocks) := by
  simp [ChatStore.blockedInPrivateChat, List.any_eq_true, mem_activeMembers]

/-- Each active member gets a row unless there is one. -/
theorem lookup_insertStatuses (k : Uuid × Uuid) :
    (db.insertStatuses now messageId chatId).statuses.lookup k =
      (db.statuses.lookup k).or
        (if k.1 = messageId ∧ (db.activeRow chatId k.2).isSome then some ⟨.sent, now⟩ else none) := by
  have hmem : k ∈ (db.activeMembers chatId).map (messageId, ·) ↔
      k.1 = messageId ∧ (db.activeRow chatId k.2).isSome := by
    rw [List.mem_map]
    constructor
    · rintro ⟨u, hu, rfl⟩
      exact ⟨rfl, mem_activeMembers.mp hu⟩
    · rintro ⟨rfl, hu⟩
      exact ⟨k.2, mem_activeMembers.mpr hu, rfl⟩
  rw [ChatStore.insertStatuses, lookup_foldl_insertNew (messageId, ·)]
  simp only [hmem]

theorem lookup_insertStatuses_of_fresh
    (hfresh : ∀ userId, db.statuses.lookup (messageId, userId) = none) (k : Uuid × Uuid) :
    (db.insertStatuses now messageId chatId).statuses.lookup k =
      if k.1 = messageId ∧ (db.activeRow chatId k.2).isSome then some ⟨.sent, now⟩
      else db.statuses.lookup k := by
  rw [lookup_insertStatuses]
  split_ifs with hnew
  · obtain ⟨messageId', userId'⟩ := k
    obtain ⟨rfl, -⟩ := hnew
    rw [hfresh, Option.none_or]
  · rw [Option.or_none]

end Mesty.Chats.Members
