import Mathlib.Data.List.Basic
import Mathlib.Data.Set.Function

namespace Mesty.Refinement.Hashing

variable {α β : Type}

/-- The elements whose flags are set. -/
def flagged (xs : List β) (flags : List Bool) : List β :=
  (xs.zipIdx.filter (fun e => flags.getD e.2 false)).map Prod.fst

theorem flagged_drop (xs : List β) (flags : List Bool) (n : Nat) :
    ((xs.zipIdx n).filter (fun e => flags.getD e.2 false)).map Prod.fst =
      flagged xs (flags.drop n) := by
  rw [flagged, List.zipIdx_eq_map_add (i := n), List.filter_map, List.map_map]
  refine congrArg₂ List.map rfl (List.filter_congr fun e _ => ?_)
  simp [List.getD_eq_getElem?_getD]

/-- The flags of a predicate filter by it. -/
theorem flagged_map (p : β → Bool) (xs : List β) : flagged xs (xs.map p) = xs.filter p := by
  induction xs with
  | nil => rfl
  | cons x xs ih =>
    have htail := flagged_drop xs ((x :: xs).map p) 1
    rw [List.map_cons, List.drop_succ_cons, List.drop_zero, ih] at htail
    rw [flagged, List.zipIdx_cons, List.filter_cons, List.filter_cons, List.map_cons,
      List.getD_cons_zero]
    split_ifs
    · exact congrArg (x :: ·) htail
    · exact htail

variable [DecidableEq β]

/-- The first key with the hash. -/
def keyOf (keys : List α) (hashes : List β) (b : β) : Option α :=
  ((keys.zip hashes).find? (fun e => e.2 = b)).map Prod.fst

/-- A hash that does not collide leads back to its key. -/
theorem keyOf_hash {hash : α → β} {keys : List α} {key : α} (hmem : key ∈ keys)
    (hinj : ∀ k ∈ keys, hash k = hash key → k = key) :
    keyOf keys (keys.map hash) (hash key) = some key := by
  induction keys with
  | nil => cases hmem
  | cons k keys ih =>
    rw [keyOf, List.map_cons, List.zip_cons_cons, List.find?_cons]
    by_cases heq : hash k = hash key
    · rw [decide_eq_true heq, hinj k List.mem_cons_self heq]
      rfl
    · rw [decide_eq_false heq]
      have hne : key ≠ k := fun he => heq (congrArg hash he.symm)
      exact ih (List.mem_of_ne_of_mem hne hmem) fun k' hk' => hinj k' (List.mem_cons_of_mem k hk')

end Mesty.Refinement.Hashing
