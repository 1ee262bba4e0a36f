import Mathlib.Computability.RegularExpressions

namespace Mesty.Refinement.Repetition

open RegularExpression

variable {α : Type} {cs : List α} {w : List α} {m n : Nat}

/-- A bracket expression. -/
def oneOf (cs : List α) : RegularExpression α := (cs.map char).sum

/-- The bound `{m,n}` of a repetition. -/
def between (r : RegularExpression α) (m n : Nat) : RegularExpression α := r ^ m * (1 + r) ^ (n - m)

theorem mem_oneOf : w ∈ (oneOf cs).matches' ↔ ∃ c ∈ cs, w = [c] := by
  induction cs with
  | nil => simp [oneOf]
  | cons d cs ih =>
    have hcons : (oneOf (d :: cs)).matches' = {[d]} + (oneOf cs).matches' := rfl
    rw [hcons, Language.mem_add, ih, List.exists_mem_cons_iff]
    exact Iff.rfl

theorem singleton_mem_oneOf {c : α} : [c] ∈ (oneOf cs).matches' ↔ c ∈ cs := by
  simp [mem_oneOf]

theorem mem_pow_oneOf : w ∈ (oneOf cs ^ n).matches' ↔ w.length = n ∧ ∀ c ∈ w, c ∈ cs := by
  rw [matches'_pow]
  induction n generalizing w with
  | zero => simp +contextual [Language.mem_one]
  | succ n ih =>
    rw [pow_succ', Language.mem_mul]
    constructor
    · rintro ⟨u, hu, v, hv, rfl⟩
      obtain ⟨c, hc, rfl⟩ := mem_oneOf.mp hu
      obtain ⟨hlength, hmem⟩ := ih.mp hv
      exact ⟨congrArg Nat.succ hlength, List.forall_mem_cons.mpr ⟨hc, hmem⟩⟩
    · rintro ⟨hlength, hmem⟩
      obtain ⟨c, v, rfl⟩ := List.exists_cons_of_length_eq_add_one hlength
      obtain ⟨hc, hv⟩ := List.forall_mem_cons.mp hmem
      exact ⟨[c], singleton_mem_oneOf.mpr hc, v, ih.mpr ⟨Nat.succ.inj hlength, hv⟩, rfl⟩

theorem mem_pow_optional : w ∈ ((1 + oneOf cs) ^ n).matches' ↔ w.length ≤ n ∧ ∀ c ∈ w, c ∈ cs := by
  rw [matches'_pow]
  induction n generalizing w with
  | zero => simp +contextual [Language.mem_one]
  | succ n ih =>
    rw [pow_succ', Language.mem_mul]
    constructor
    · rintro ⟨u, hu, v, hv, rfl⟩
      obtain ⟨hlength, hmem⟩ := ih.mp hv
      obtain rfl | hu := hu
      · exact ⟨Nat.le_succ_of_le hlength, hmem⟩
      · obtain ⟨c, hc, rfl⟩ := mem_oneOf.mp hu
        exact ⟨Nat.succ_le_succ hlength, List.forall_mem_cons.mpr ⟨hc, hmem⟩⟩
    · rintro ⟨hlength, hmem⟩
      cases w with
      | nil => exact ⟨[], .inl rfl, [], ih.mpr ⟨Nat.zero_le n, hmem⟩, rfl⟩
      | cons c v =>
        obtain ⟨hc, hv⟩ := List.forall_mem_cons.mp hmem
        exact ⟨[c], .inr (singleton_mem_oneOf.mpr hc), v,
          ih.mpr ⟨Nat.le_of_succ_le_succ hlength, hv⟩, rfl⟩

theorem mem_between (h : m ≤ n) : w ∈ (between (oneOf cs) m n).matches' ↔
    m ≤ w.length ∧ w.length ≤ n ∧ ∀ c ∈ w, c ∈ cs := by
  rw [between, matches'_mul, Language.mem_mul]
  constructor
  · rintro ⟨u, hu, v, hv, rfl⟩
    obtain ⟨hulength, hu⟩ := mem_pow_oneOf.mp hu
    obtain ⟨hvlength, hv⟩ := mem_pow_optional.mp hv
    rw [List.length_append]
    exact ⟨by omega, by omega, List.forall_mem_append.mpr ⟨hu, hv⟩⟩
  · rintro ⟨hlower, hupper, hmem⟩
    refine ⟨w.take m, mem_pow_oneOf.mpr ⟨List.length_take_of_le hlower, ?_⟩, w.drop m,
      mem_pow_optional.mpr ⟨?_, ?_⟩, List.take_append_drop m w⟩
    · exact fun c hc => hmem c (List.mem_of_mem_take hc)
    · rw [List.length_drop]
      omega
    · exact fun c hc => hmem c (List.mem_of_mem_drop hc)

end Mesty.Refinement.Repetition
