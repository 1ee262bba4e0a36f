import Mathlib.Init

namespace Mesty.Refinement.Lockstep

variable {I O σ τ : Type}

/-- A machine answers each input and goes on in its next state. -/
abbrev Machine (I O σ : Type) := I → σ → O × σ

def outputs (m : Machine I O σ) : List I → σ → List O
  | [], _ => []
  | i :: is, s => (m i s).1 :: outputs m is (m i s).2

/-- Two machines that get the same inputs satisfy `P` before each of them. -/
def Along (P : I → σ → τ → Prop) (m : Machine I O σ) (n : Machine I O τ) :
    List I → σ → τ → Prop
  | [], _, _ => True
  | i :: is, s, t => P i s t ∧ Along P m n is (m i s).2 (n i t).2

/-- Where related states answer alike exactly under `P`, and are related again after
they did, the machines answer alike on a whole run along which `W` holds exactly if `P` holds
along it. -/
theorem along_iff_outputs_eq_of {P W : I → σ → τ → Prop} {R : σ → τ → Prop} {m : Machine I O σ}
    {n : Machine I O τ}
    (agree : ∀ i s t, R s t → W i s t → (P i s t ↔ (m i s).1 = (n i t).1))
    (next : ∀ i s t, R s t → W i s t → P i s t → R (m i s).2 (n i t).2) (is : List I) {s : σ} {t : τ}
    (h : R s t) (hw : Along W m n is s t) : Along P m n is s t ↔ outputs m is s = outputs n is t := by
  induction is generalizing s t with
  | nil => simp [Along, outputs]
  | cons i is ih =>
    obtain ⟨hwi, hwrest⟩ := hw
    simp only [Along, outputs, List.cons.injEq]
    constructor
    · rintro ⟨hp, hrest⟩
      exact ⟨(agree i s t h hwi).mp hp, (ih (next i s t h hwi hp) hwrest).mp hrest⟩
    · rintro ⟨heq, hrest⟩
      have hp := (agree i s t h hwi).mpr heq
      exact ⟨hp, (ih (next i s t h hwi hp) hwrest).mpr hrest⟩

theorem along_of_forall {P : I → σ → τ → Prop} (h : ∀ i s t, P i s t) (m : Machine I O σ)
    (n : Machine I O τ) (is : List I) (s : σ) (t : τ) : Along P m n is s t := by
  induction is generalizing s t with
  | nil => trivial
  | cons i is ih => exact ⟨h i s t, ih _ _⟩

theorem along_iff_outputs_eq {P : I → σ → τ → Prop} {R : σ → τ → Prop} {m : Machine I O σ}
    {n : Machine I O τ}
    (agree : ∀ i s t, R s t → (P i s t ↔ (m i s).1 = (n i t).1))
    (next : ∀ i s t, R s t → P i s t → R (m i s).2 (n i t).2) (is : List I) {s : σ} {t : τ}
    (h : R s t) : Along P m n is s t ↔ outputs m is s = outputs n is t :=
  along_iff_outputs_eq_of (W := fun _ _ _ => True) (fun i s t h _ => agree i s t h)
    (fun i s t h _ hp => next i s t h hp) is h (along_of_forall (fun _ _ _ => trivial) m n is s t)

end Mesty.Refinement.Lockstep
