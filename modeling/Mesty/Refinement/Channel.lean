import Mathlib.Data.List.Basic

namespace Mesty.Refinement.Channel

variable {α : Type}

/-- `seen` is a part of `all` in the same order, from which at most `lost` elements are missing. -/
structure Partly (seen all : List α) (lost : Nat) : Prop where
  sublist : seen.Sublist all
  length_le : all.length ≤ seen.length + lost

namespace Partly

variable {seen all : List α} {lost : Nat} {x : α}

theorem nil : Partly ([] : List α) [] 0 := ⟨.refl _, Nat.le_refl _⟩

theorem snoc (h : Partly seen all lost) : Partly (seen ++ [x]) (all ++ [x]) lost :=
  ⟨h.sublist.append (.refl _), by simpa [Nat.add_right_comm] using Nat.succ_le_succ h.length_le⟩

theorem miss (h : Partly seen all lost) : Partly seen (all ++ [x]) (lost + 1) :=
  ⟨h.sublist.trans (List.sublist_append_left _ _), by
    simpa [← Nat.add_assoc] using Nat.succ_le_succ h.length_le⟩

/-- What has been lost may have been nothing. -/
theorem mono {lost' : Nat} (h : Partly seen all lost) (hle : lost ≤ lost') : Partly seen all lost' :=
  ⟨h.sublist, Nat.le_trans h.length_le (Nat.add_le_add_left hle _)⟩

theorem append_toList (h : Partly seen all lost) (x : Option α) :
    Partly (seen ++ x.toList) (all ++ x.toList) lost := by
  cases x with
  | none => simpa using h
  | some x => exact h.snoc

theorem miss_toList (h : Partly seen all lost) (x : Option α) :
    Partly seen (all ++ x.toList) (lost + 1) := by
  cases x with
  | none => simpa using h.mono (Nat.le_succ lost)
  | some x => exact h.miss

theorem countP_le (h : Partly seen all lost) (p : α → Bool) : seen.countP p ≤ all.countP p :=
  h.sublist.countP_le

end Partly

/-- What comes out of a channel, and what is still in it, went in, in this order. -/
def Passes (entered left inside : List α) : Prop := left ++ inside = entered

namespace Passes

variable {entered left inside : List α} {x : α}

theorem start (inside : List α) : Passes inside [] inside := rfl

theorem enter (h : Passes entered left inside) : Passes (entered ++ [x]) left (inside ++ [x]) := by
  rw [Passes, ← List.append_assoc, h]

theorem leave (h : Passes entered left (x :: inside)) : Passes entered (left ++ [x]) inside := by
  rw [Passes, List.append_assoc]
  exact h

theorem countP_left_le (h : Passes entered left inside) (p : α → Bool) :
    left.countP p ≤ entered.countP p := by
  rw [← h, List.countP_append]
  exact Nat.le_add_right _ _

end Passes

end Mesty.Refinement.Channel
