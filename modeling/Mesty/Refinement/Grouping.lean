import Mathlib.Data.List.Basic
import Mathlib.Data.List.Induction
import Mathlib.Data.List.Nodup

namespace Mesty.Refinement.Grouping

variable {α γ κ : Type} [DecidableEq κ] (key : α → κ)

/-- The elements whose key has not come before. -/
def firsts : List α → List α
  | [] => []
  | x :: xs => x :: (firsts xs).filter (fun y => key y ≠ key x)

/-- The elements with the key of `x`. -/
def like (xs : List α) (x : α) : List α := xs.filter (fun y => key y = key x)

section Loop

variable (keyOf : γ → κ) (start : α → γ) (push : γ → α → γ)

/-- One step of the loop: the element goes to the first group with its key, or to a new one at
the end. -/
def place (x : α) : List γ → List γ
  | [] => [push (start x) x]
  | g :: gs => if keyOf g = key x then push g x :: gs else g :: place x gs

/-- The group that starts with `x`. -/
def groupOf (xs : List α) (x : α) : γ := (like key xs x).foldl push (start x)

end Loop

section Firsts

variable {key} {xs : List α} {x : α}

theorem firsts_sublist (xs : List α) : (firsts key xs).Sublist xs := by
  induction xs with
  | nil => exact .slnil
  | cons x xs ih => exact .cons_cons x (List.filter_sublist.trans ih)

theorem nodup_firsts (xs : List α) : ((firsts key xs).map key).Nodup := by
  induction xs with
  | nil => exact .nil
  | cons x xs ih =>
    refine List.nodup_cons.mpr ⟨?_, ih.sublist (List.filter_sublist.map key)⟩
    intro h
    obtain ⟨y, hy, hkey⟩ := List.mem_map.mp h
    exact absurd hkey (by simpa using (List.mem_filter.mp hy).2)

theorem key_mem_firsts {k : κ} : k ∈ (firsts key xs).map key ↔ k ∈ xs.map key := by
  induction xs with
  | nil => rfl
  | cons x xs ih =>
    by_cases h : k = key x
    · subst h
      simp [firsts]
    · rw [firsts, List.map_cons, List.mem_cons, List.map_cons, List.mem_cons, ← ih]
      refine or_congr_right ?_
      simp only [List.mem_map, List.mem_filter, decide_eq_true_eq]
      constructor
      · rintro ⟨y, ⟨hy, -⟩, rfl⟩
        exact ⟨y, hy, rfl⟩
      · rintro ⟨y, hy, rfl⟩
        exact ⟨y, ⟨hy, h⟩, rfl⟩

theorem firsts_append_singleton (xs : List α) (x : α) :
    firsts key (xs ++ [x]) =
      if key x ∈ xs.map key then firsts key xs else firsts key xs ++ [x] := by
  induction xs with
  | nil => rfl
  | cons y xs ih =>
    rw [List.cons_append, firsts, ih, firsts, List.map_cons]
    by_cases hmem : key x ∈ xs.map key
    · rw [if_pos hmem, if_pos (List.mem_cons_of_mem _ hmem)]
    · rw [if_neg hmem, List.filter_append, List.filter_singleton]
      by_cases hy : key x = key y
      · rw [if_pos (hy ▸ List.mem_cons_self)]
        simp [hy]
      · rw [if_neg (List.not_mem_cons_of_ne_of_not_mem hy hmem)]
        simp [hy]

/-- The keys come in the order of their first elements. -/
theorem firsts_order (xs : List α) : (firsts key xs).Pairwise
    (fun x y => (xs.map key).idxOf (key x) < (xs.map key).idxOf (key y)) := by
  induction xs with
  | nil => exact .nil
  | cons z xs ih =>
    have hne : ∀ y ∈ (firsts key xs).filter (fun y => key y ≠ key z),
        ((z :: xs).map key).idxOf (key y) = (xs.map key).idxOf (key y) + 1 := by
      intro y hy
      have hkey : key z ≠ key y := by simpa using Ne.symm (by simpa using (List.mem_filter.mp hy).2)
      rw [List.map_cons, List.idxOf_cons_ne _ hkey]
    refine List.pairwise_cons.mpr ⟨fun y hy => ?_, ?_⟩
    · rw [hne y hy, List.map_cons, List.idxOf_cons_self]
      exact Nat.succ_pos _
    · refine (ih.filter _).imp_of_mem fun hx hy hlt => ?_
      rw [hne _ hx, hne _ hy]
      exact Nat.succ_lt_succ hlt

/-- In a sorted list the first element of a key is the least one. -/
theorem firsts_le {R : α → α → Prop} (hrefl : ∀ x, R x x) (h : xs.Pairwise R)
    (hx : x ∈ firsts key xs) : ∀ y ∈ like key xs x, R x y := by
  induction xs with
  | nil => cases hx
  | cons z xs ih =>
    obtain ⟨hz, hrest⟩ := List.pairwise_cons.mp h
    intro y hy
    obtain ⟨hmem, hkey⟩ : y ∈ z :: xs ∧ key y = key x := by simpa [like] using hy
    rcases List.mem_cons.mp hx with rfl | hx
    · rcases List.mem_cons.mp hmem with rfl | hmem
      · exact hrefl y
      · exact hz y hmem
    · obtain ⟨hfirst, hne⟩ := List.mem_filter.mp hx
      have hne : key x ≠ key z := by simpa using hne
      rcases List.mem_cons.mp hmem with rfl | hmem
      · exact absurd hkey.symm hne
      · exact ih hrest hfirst y (by simpa [like] using ⟨hmem, hkey⟩)

/-- Every element is in the group of its key, and in no other. -/
theorem flatMap_like_perm (xs : List α) : ((firsts key xs).flatMap (like key xs)).Perm xs := by
  have hgroups : ∀ l : List α, (l.map key).Nodup →
      (l.flatMap (like key xs)).Perm (xs.filter (fun y => key y ∈ l.map key)) := by
    intro l hl
    induction l with
    | nil => simp
    | cons x l ih =>
      obtain ⟨hx, hl⟩ := List.nodup_cons.mp hl
      rw [List.flatMap_cons]
      have hsplit := List.filter_append_perm (fun y => key y = key x)
        (xs.filter (fun y => key y ∈ (x :: l).map key))
      refine List.Perm.trans ?_ hsplit
      refine List.Perm.append (.of_eq ?_) ((ih hl).trans (.of_eq ?_))
      · rw [like, List.filter_filter]
        refine List.filter_congr fun y _ => ?_
        by_cases h : key y = key x <;> simp [h]
      · rw [List.filter_filter]
        refine List.filter_congr fun y _ => ?_
        by_cases h : key y = key x
        · simp only [h, decide_true, Bool.not_true, Bool.false_and, decide_eq_false_iff_not]
          exact hx
        · simp [h]
  refine (hgroups _ (nodup_firsts xs)).trans (.of_eq (List.filter_eq_self.mpr fun y hy => ?_))
  exact decide_eq_true (key_mem_firsts.mpr (List.mem_map_of_mem hy))

end Firsts

section Groups

variable {key} {keyOf : γ → κ} {start : α → γ} {push : γ → α → γ} {xs : List α} {x y : α}

theorem keyOf_groupOf (hstart : ∀ x, keyOf (start x) = key x) (hpush : ∀ g x, keyOf (push g x) = keyOf g)
    (xs : List α) (x : α) : keyOf (groupOf key start push xs x) = key x := by
  have hfold : ∀ (ys : List α) (g : γ), keyOf (ys.foldl push g) = keyOf g := by
    intro ys
    induction ys with
    | nil => exact fun _ => rfl
    | cons y ys ih => exact fun g => (ih (push g y)).trans (hpush g y)
  rw [groupOf, hfold, hstart]

theorem groupOf_append_eq (h : key y = key x) : groupOf key start push (xs ++ [y]) x =
    push (groupOf key start push xs x) y := by
  rw [groupOf, like, List.filter_append, List.filter_singleton, decide_eq_true h]
  exact List.foldl_append

theorem groupOf_append_ne (h : key y ≠ key x) :
    groupOf key start push (xs ++ [y]) x = groupOf key start push xs x := by
  rw [groupOf, like, List.filter_append, List.filter_singleton, decide_eq_false h]
  exact congrArg (List.foldl push (start x)) (List.append_nil _)

theorem place_groups (hstart : ∀ x, keyOf (start x) = key x)
    (hpush : ∀ g x, keyOf (push g x) = keyOf g) {l : List α} (hl : (l.map key).Nodup) :
    place key keyOf start push y (l.map (groupOf key start push xs)) =
      l.map (groupOf key start push (xs ++ [y])) ++
        if key y ∈ l.map key then [] else [push (start y) y] := by
  induction l with
  | nil => rfl
  | cons x l ih =>
    obtain ⟨hx, hl⟩ := List.nodup_cons.mp hl
    rw [List.map_cons, place, keyOf_groupOf hstart hpush]
    by_cases hkey : key x = key y
    · have hrest : l.map (groupOf key start push xs) = l.map (groupOf key start push (xs ++ [y])) := by
        refine List.map_congr_left fun z hz => (groupOf_append_ne fun h => hx ?_).symm
        rw [hkey, h]
        exact List.mem_map_of_mem hz
      rw [if_pos hkey, if_pos (by simp [hkey]), List.append_nil, List.map_cons,
        groupOf_append_eq hkey.symm, hrest]
    · rw [if_neg hkey, ih hl, List.map_cons, groupOf_append_ne (Ne.symm hkey), List.cons_append]
      simp [Ne.symm hkey]

/-- The loop makes a group of each key, in the order of the first elements. -/
theorem foldl_place (hstart : ∀ x, keyOf (start x) = key x)
    (hpush : ∀ g x, keyOf (push g x) = keyOf g) (xs : List α) :
    xs.foldl (fun groups x => place key keyOf start push x groups) [] =
      (firsts key xs).map (groupOf key start push xs) := by
  induction xs using List.reverseRecOn with
  | nil => rfl
  | append_singleton xs y ih =>
    rw [List.foldl_append, List.foldl_cons, List.foldl_nil, ih,
      place_groups hstart hpush (nodup_firsts xs), firsts_append_singleton]
    by_cases hkey : key y ∈ xs.map key
    · rw [if_pos (key_mem_firsts.mpr hkey), if_pos hkey, List.append_nil]
    · rw [if_neg (mt key_mem_firsts.mp hkey), if_neg hkey, List.map_append, List.map_singleton,
        groupOf_append_eq rfl]
      have hnone : like key xs y = [] := by
        rw [like, List.filter_eq_nil_iff]
        intro z hz h
        exact hkey (List.mem_map.mpr ⟨z, hz, by simpa using h⟩)
      rw [groupOf, hnone, List.foldl_nil]

end Groups

end Mesty.Refinement.Grouping
