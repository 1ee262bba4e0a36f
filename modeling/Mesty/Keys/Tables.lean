import Mathlib.Data.List.Nodup
import Mesty.Base.Ids

namespace Mesty.Keys.Tables

open Mesty.Base.Ids

structure SignedPrekey where
  id : Int32
  key : String
  signature : String
  deriving DecidableEq

structure OneTimePrekey where
  id : Int32
  key : String
  deriving DecidableEq

structure KeyBundleWithOpk where
  identityKey : String
  signedPrekey : String
  signedPrekeyId : Int32
  signedPrekeySig : String
  oneTimePrekeyId : Option Int32
  oneTimePrekey : Option String
  deriving DecidableEq

structure UserKeysRow where
  identityKey : String
  signedPrekey : SignedPrekey
  prekeyCount : Nat
  deriving DecidableEq

structure PrekeyRow where
  id : Nat
  userId : Uuid
  keyId : Int32
  publicKey : String
  isConsumed : Bool
  deriving DecidableEq

def PrekeyRow.slot (r : PrekeyRow) : Uuid × Int32 := (r.userId, r.keyId)

/-- The table `one_time_prekeys`, in the order of its serial `id`, with its UNIQUE
constraint on `(user_id, key_id)`. -/
structure PrekeyTable where
  rows : List PrekeyRow
  nextId : Nat
  sorted : rows.Pairwise (fun r s => r.id < s.id)
  below : ∀ r ∈ rows, r.id < nextId
  unique : (rows.map PrekeyRow.slot).Nodup

namespace PrekeyTable

def empty : PrekeyTable := ⟨[], 0, .nil, by simp, .nil⟩

variable {t : PrekeyTable}

/-- One row of the INSERT. A conflict does nothing, but uses up a serial. -/
def insertRow (t : PrekeyTable) (userId : Uuid) (p : OneTimePrekey) : PrekeyTable :=
  if h : (userId, p.id) ∈ t.rows.map PrekeyRow.slot then
    { t with nextId := t.nextId + 1, below := fun r hr => Nat.lt_succ_of_lt (t.below r hr) }
  else
    { rows := t.rows ++ [⟨t.nextId, userId, p.id, p.key, false⟩]
      nextId := t.nextId + 1
      sorted := List.pairwise_append.mpr ⟨t.sorted, List.pairwise_singleton _ _, by
        simpa using t.below⟩
      below := by
        intro r hr
        rcases List.mem_append.mp hr with hr | hr
        · exact Nat.lt_succ_of_lt (t.below r hr)
        · simp [List.mem_singleton.mp hr]
      unique := by
        rw [List.map_append, List.map_singleton, ← List.concat_eq_append]
        exact t.unique.concat h }

def insertRows (t : PrekeyTable) (userId : Uuid) (prekeys : List OneTimePrekey) : PrekeyTable :=
  prekeys.foldl (fun t p => t.insertRow userId p) t

theorem mem_insertRow {userId : Uuid} {p : OneTimePrekey} {r : PrekeyRow} :
    r ∈ (t.insertRow userId p).rows ↔ r ∈ t.rows ∨
      ((userId, p.id) ∉ t.rows.map PrekeyRow.slot ∧ r = ⟨t.nextId, userId, p.id, p.key, false⟩) := by
  rw [insertRow]
  split <;> simp_all

theorem insertRow_taken {userId : Uuid} {p : OneTimePrekey}
    (h : (userId, p.id) ∈ t.rows.map PrekeyRow.slot) : (t.insertRow userId p).rows = t.rows := by
  rw [insertRow, dif_pos h]

theorem slot_mem_insertRow {userId : Uuid} {p : OneTimePrekey} {keyId : Int32} :
    (userId, keyId) ∈ (t.insertRow userId p).rows.map PrekeyRow.slot ↔
      (userId, keyId) ∈ t.rows.map PrekeyRow.slot ∨ keyId = p.id := by
  by_cases htaken : (userId, p.id) ∈ t.rows.map PrekeyRow.slot
  · rw [insertRow_taken htaken]
    refine ⟨.inl, fun h => h.elim id fun hid => ?_⟩
    rw [hid]
    exact htaken
  · rw [insertRow, dif_neg htaken, List.map_append, List.mem_append]
    simp [PrekeyRow.slot]

theorem subset_insertRows {userId : Uuid} {prekeys : List OneTimePrekey} :
    t.rows ⊆ (t.insertRows userId prekeys).rows := by
  induction prekeys generalizing t with
  | nil => exact fun r hr => hr
  | cons p prekeys ih => exact fun r hr => ih (mem_insertRow.mpr (.inl hr))

/-- A row of the table after the INSERT was there before, or is a fresh copy of a prekey. -/
theorem mem_insertRows {userId : Uuid} {prekeys : List OneTimePrekey} {r : PrekeyRow}
    (h : r ∈ (t.insertRows userId prekeys).rows) :
    r ∈ t.rows ∨ (r.userId = userId ∧ ⟨r.keyId, r.publicKey⟩ ∈ prekeys ∧ r.isConsumed = false) := by
  induction prekeys generalizing t with
  | nil => exact .inl h
  | cons p prekeys ih =>
    rcases ih h with h | ⟨hu, hp, hc⟩
    · rcases mem_insertRow.mp h with h | ⟨-, rfl⟩
      · exact .inl h
      · exact .inr ⟨rfl, List.mem_cons_self, rfl⟩
    · exact .inr ⟨hu, List.mem_cons_of_mem p hp, hc⟩

/-- `SELECT … WHERE NOT is_consumed ORDER BY id LIMIT 1 FOR UPDATE SKIP LOCKED`. -/
def firstAvailable (t : PrekeyTable) (userId : Uuid) (locked : List Nat) : Option PrekeyRow :=
  t.rows.find? (fun r => r.userId = userId ∧ r.isConsumed = false ∧ r.id ∉ locked)

def consume (t : PrekeyTable) (id : Nat) : PrekeyTable where
  rows := t.rows.map (fun r => if r.id = id then { r with isConsumed := true } else r)
  nextId := t.nextId
  sorted := by
    rw [List.pairwise_map]
    refine t.sorted.imp fun {r s} h => ?_
    split_ifs <;> exact h
  below := by
    intro r hr
    obtain ⟨s, hs, rfl⟩ := List.mem_map.mp hr
    have := t.below s hs
    split_ifs <;> exact this
  unique := by
    have hslot : PrekeyRow.slot ∘ (fun r : PrekeyRow =>
        if r.id = id then { r with isConsumed := true } else r) = PrekeyRow.slot := by
      funext r
      simp only [Function.comp]
      split_ifs <;> rfl
    rw [List.map_map, hslot]
    exact t.unique

theorem mem_consume {id : Nat} {r : PrekeyRow} :
    r ∈ (t.consume id).rows ↔
      ∃ s ∈ t.rows, (if s.id = id then { s with isConsumed := true } else s) = r := by
  simp [consume]

theorem mem_consume_of_consumed {id : Nat} {r : PrekeyRow} (hr : r ∈ t.rows)
    (hc : r.isConsumed = true) : r ∈ (t.consume id).rows := by
  refine mem_consume.mpr ⟨r, hr, ?_⟩
  split_ifs
  · rw [← hc]
  · rfl

theorem slot_unique {r s : PrekeyRow} (hr : r ∈ t.rows) (hs : s ∈ t.rows)
    (hu : r.userId = s.userId) (hk : r.keyId = s.keyId) : r = s :=
  List.inj_on_of_nodup_map t.unique hr hs (Prod.ext hu hk)

theorem firstAvailable_eq_some {userId : Uuid} {locked : List Nat} {r : PrekeyRow}
    (h : t.firstAvailable userId locked = some r) :
    r ∈ t.rows ∧ r.userId = userId ∧ r.isConsumed = false ∧
      ∀ s ∈ t.rows, s.userId = userId → s.isConsumed = false → s.id ∉ locked → r.id ≤ s.id := by
  obtain ⟨hp, before, later, heq, hbefore⟩ := List.find?_eq_some_iff_append.mp h
  rw [decide_eq_true_eq] at hp
  refine ⟨heq ▸ by simp, hp.1, hp.2.1, fun s hs hu hc hl => ?_⟩
  rw [heq, List.mem_append, List.mem_cons] at hs
  rcases hs with hs | rfl | hs
  · have := hbefore s hs
    simp [hu, hc, hl] at this
  · exact Nat.le_refl _
  · have hsorted := t.sorted
    rw [heq, List.pairwise_append, List.pairwise_cons] at hsorted
    exact Nat.le_of_lt (hsorted.2.1.1 s hs)

def countAvailable (t : PrekeyTable) (userId : Uuid) : Nat :=
  t.rows.countP (fun r => r.userId = userId ∧ r.isConsumed = false)

theorem countAvailable_insertRow_ne {userId owner : Uuid} (h : owner ≠ userId) (p : OneTimePrekey) :
    (t.insertRow userId p).countAvailable owner = t.countAvailable owner := by
  rw [insertRow]
  split
  · rfl
  · simp [countAvailable, List.countP_append, h.symm]

/-- The INSERT leaves the prekeys of other users alone. -/
theorem countAvailable_insertRows_ne {userId owner : Uuid} (h : owner ≠ userId)
    (prekeys : List OneTimePrekey) :
    (t.insertRows userId prekeys).countAvailable owner = t.countAvailable owner := by
  induction prekeys generalizing t with
  | nil => rfl
  | cons p prekeys ih => exact ih.trans (countAvailable_insertRow_ne h p)

theorem countAvailable_consume {userId owner : Uuid} {locked : List Nat} {r : PrekeyRow}
    (h : t.firstAvailable userId locked = some r) :
    (t.consume r.id).countAvailable owner =
      if owner = userId then t.countAvailable owner - 1 else t.countAvailable owner := by
  obtain ⟨hmem, hu, hc, -⟩ := firstAvailable_eq_some h
  obtain ⟨before, later, hrows⟩ := List.append_of_mem hmem
  have hsorted := t.sorted
  rw [hrows, List.pairwise_append, List.pairwise_cons] at hsorted
  obtain ⟨-, ⟨hlater, -⟩, hbefore⟩ := hsorted
  -- no other row has the id of the consumed one
  have hsame : ∀ xs : List PrekeyRow, (∀ s ∈ xs, s.id ≠ r.id) →
      xs.map (fun s => if s.id = r.id then { s with isConsumed := true } else s) = xs := by
    intro xs hxs
    refine (List.map_congr_left fun s hs => ?_).trans (List.map_id xs)
    exact if_neg (hxs s hs)
  simp only [countAvailable, consume, hrows, List.map_append, List.map_cons, List.countP_append,
    List.countP_cons, hsame before fun s hs => (hbefore s hs r List.mem_cons_self).ne,
    hsame later fun s hs => (hlater s hs).ne']
  by_cases hown : owner = userId
  · simp [hown, hu, hc]
  · simp [hown, hu, hc, Ne.symm hown]

end PrekeyTable

end Mesty.Keys.Tables
