import Mathlib.Algebra.Order.Group.Nat
import Mesty.Refinement.Lockstep

namespace Mesty.Refinement.Potential

open Mesty.Refinement.Lockstep

variable {I O σ : Type} {m : Machine I O σ}

/-- The state in which a machine is after the inputs. -/
def final (m : Machine I O σ) : List I → σ → σ
  | [], s => s
  | i :: is, s => final m is (m i s).2

/-- What every input keeps holds in the end. -/
theorem final_keeps {J : σ → Prop} (step : ∀ i s, J s → J (m i s).2) (is : List I) {s : σ} (hs : J s) :
    J (final m is s) := by
  induction is generalizing s with
  | nil => exact hs
  | cons i is ih => exact ih (step i s hs)

/-- If each costly answer is paid from a potential, there are at most as many of them as the
potential is worth at the start. -/
theorem countP_outputs_le {cost : O → Bool} {J : σ → Prop} {ok : I → Prop} {potential : σ → Nat}
    (step : ∀ i s, ok i → J s → J (m i s).2 ∧
      (cost (m i s).1).toNat + potential (m i s).2 ≤ potential s)
    (is : List I) (hok : ∀ i ∈ is, ok i) {s : σ} (hs : J s) :
    (outputs m is s).countP cost ≤ potential s := by
  induction is generalizing s with
  | nil => exact Nat.zero_le _
  | cons i is ih =>
    obtain ⟨hi, his⟩ := List.forall_mem_cons.mp hok
    obtain ⟨hJ, hpaid⟩ := step i s hi hs
    have hrest := ih his hJ
    rw [outputs, List.countP_cons]
    cases hcost : cost (m i s).1 <;> simp only [hcost, Bool.toNat_true, Bool.toNat_false] at hpaid <;>
      simp <;> omega

end Mesty.Refinement.Potential
