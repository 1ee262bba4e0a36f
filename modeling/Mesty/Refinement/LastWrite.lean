import Mesty.Concurrency.Pool

namespace Mesty.Refinement.LastWrite

open Mesty.Concurrency.Pool

variable {α : Type}

/-- What a register holds that starts with `a`: the last value written to it. `none`
stands for a step that does not write. -/
def latest (a : α) (ws : List (Option α)) : α := ws.foldl (fun b w => w.getD b) a

section Latest

variable {a : α} {ws ws' : List (Option α)}

@[simp] theorem latest_nil : latest a [] = a := rfl

@[simp] theorem latest_singleton {w : Option α} : latest a [w] = w.getD a := rfl

theorem latest_append : latest a (ws ++ ws') = latest (latest a ws) ws' := by
  rw [latest, List.foldl_append]
  rfl

end Latest

section Runs

variable {C : Type} {R : C → Type} {σ Ω Req Out ι : Type} {S : System C R σ Ω Req Out}
  {c : Config C R σ Req Out}

/-- In all states of a run each register holds what has been written to it last exactly
if no move of the run lets one hold anything else. -/
theorem every_iff_latest {P : Config C R σ Req Out → Act Req Ω → Prop}
    {J : Config C R σ Req Out → Prop} {read : Config C R σ Req Out → ι → α}
    {writes : Config C R σ Req Out → ι → List (Option α)} {a : ι → α}
    (inv : ∀ {c act d}, J c → S.apply act c = some d → J d)
    (step : ∀ {c act d}, J c → S.apply act c = some d →
      ∃ w : ι → List (Option α), (∀ k, writes d k = writes c k ++ w k) ∧
        (P c act ↔ ∀ k, read d k = latest (read c k) (w k)))
    (acts : List (Act Req Ω)) (hJ : J c) (hstart : ∀ k, read c k = latest (a k) (writes c k)) :
    S.Every P acts c ↔ ∀ d ∈ S.trace acts c, ∀ k, read d k = latest (a k) (writes d k) := by
  refine System.every_iff_forall (J := J)
    (G := fun d => ∀ k, read d k = latest (a k) (writes d k)) inv ?_ acts hJ hstart
  intro c act d hc hG ha
  obtain ⟨w, hw, hiff⟩ := step hc ha
  rw [hiff]
  refine forall_congr' fun k => ?_
  rw [hw, latest_append, ← hG k]

/-- The registers that no move lets hold anything else. -/
theorem forall_eq_latest {J : Config C R σ Req Out → Prop} {read : Config C R σ Req Out → ι → α}
    {writes : Config C R σ Req Out → ι → List (Option α)} {a : ι → α}
    (inv : ∀ {c act d}, J c → S.apply act c = some d → J d)
    (step : ∀ {c act d}, J c → S.apply act c = some d →
      ∃ w : ι → List (Option α), (∀ k, writes d k = writes c k ++ w k) ∧
        ∀ k, read d k = latest (read c k) (w k))
    (acts : List (Act Req Ω)) (hJ : J c) (hstart : ∀ k, read c k = latest (a k) (writes c k)) :
    ∀ d ∈ S.trace acts c, ∀ k, read d k = latest (a k) (writes d k) := by
  refine (every_iff_latest (P := fun _ _ => True) inv ?_ acts hJ hstart).mp
    (System.every_of_forall (fun _ _ => trivial) acts c)
  intro c act d hc ha
  obtain ⟨w, hw, heq⟩ := step hc ha
  exact ⟨w, hw, iff_of_true trivial heq⟩

end Runs

end Mesty.Refinement.LastWrite
