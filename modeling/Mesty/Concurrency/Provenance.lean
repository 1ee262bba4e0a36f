import Mesty.Concurrency.Visits

namespace Mesty.Concurrency.Provenance

open Mesty.Concurrency.Program Mesty.Concurrency.Pool Mesty.Concurrency.Pool.System
open Mesty.Concurrency.Visits

variable {C : Type} {R : C → Type} {σ Ω Req Out V : Type} {S : System C R σ Ω Req Out}
  {P : Config C R σ Req Out → Act Req Ω → Prop} {c d e : Config C R σ Req Out}
  {W : Req → Event C R → Prop}

/-- Since `c` an event has been executed for a request, both as `W` says. -/
def ExecutedSince (W : Req → Event C R → Prop) (c d : Config C R σ Req Out) : Prop :=
  ∃ ev ∈ d.log.drop c.log.length, ∃ r, d.request ev.task = some r ∧ W r ev

theorem drop_subset (h : S.Reach P d e) (n : Nat) : d.log.drop n ⊆ e.log.drop n := by
  obtain ⟨later, hlog⟩ := log_le h
  rw [← hlog, List.drop_append]
  exact List.subset_append_left _ _

theorem ExecutedSince.later (h : ExecutedSince W c d) (hde : S.Reach P d e) : ExecutedSince W c e := by
  obtain ⟨ev, hev, r, hr, hW⟩ := h
  obtain ⟨t, ht, -⟩ := Option.map_eq_some_iff.mp hr
  refine ⟨ev, drop_subset hde _ hev, r, ?_, hW⟩
  exact (request_kept hde (List.getElem?_eq_some_iff.mp ht).1).1.trans hr

theorem ExecutedSince.mono {W' : Req → Event C R → Prop} (h : ExecutedSince W c d)
    (hW : ∀ r ev, W r ev → W' r ev) : ExecutedSince W' c d := by
  obtain ⟨ev, hev, r, hr, hwrote⟩ := h
  exact ⟨ev, hev, r, hr, hW r ev hwrote⟩

/-- What only certain events end still holds, or one of them has been executed in between. -/
theorem kept_or_executed {I : σ → Prop}
    (step : ∀ {d : Config C R σ Req Out} {i ω r cmd k ans s}, S.Reach P c d →
      d.tasks[i]? = some (r, .call cmd k) → S.exec ω cmd d.db = some (ans, s) → I d.db →
      I s ∨ W r ⟨i, cmd, ans⟩)
    (tick : ∀ {ω s s'}, S.tick ω s = some s' → I s → I s') (hstart : I c.db) (h : S.Reach P c d) :
    I d.db ∨ ExecutedSince W c d := by
  induction h with
  | refl => exact .inl hstart
  | tail hcd hp ha ih =>
    have hlater := fun hsince : ExecutedSince W c _ => hsince.later (.tail .refl hp ha)
    obtain ⟨r, rfl, rfl⟩ | ⟨i, ω, r, cmd, k, ans, s, rfl, ht, he, rfl⟩ | ⟨ω, s, rfl, hs, rfl⟩ :=
      apply_cases ha
    · exact ih.imp_right hlater
    · obtain hI | hsince := ih
      · refine (step hcd ht he hI).imp id fun hwrote => ⟨⟨i, cmd, ans⟩, ?_, r, ?_, hwrote⟩
        · rw [World.after_log, List.drop_append_of_le_length (log_le hcd).length_le]
          exact List.mem_append_right _ (List.mem_singleton_self _)
        · rw [Config.request_set ht]
          exact Config.request_eq ht
      · exact .inr (hlater hsince)
    · exact ih.imp (tick hs) hlater

/-- A part of the state that only certain events change has stayed as it was, or one of them has
been executed in between. -/
theorem unchanged_or_executed (view : σ → V)
    (step : ∀ {d : Config C R σ Req Out} {i ω r cmd k ans s}, S.Reach P c d →
      d.tasks[i]? = some (r, .call cmd k) → S.exec ω cmd d.db = some (ans, s) →
      view s = view d.db ∨ W r ⟨i, cmd, ans⟩)
    (tick : ∀ {ω s s'}, S.tick ω s = some s' → view s' = view s) (h : S.Reach P c d) :
    view d.db = view c.db ∨ ExecutedSince W c d :=
  kept_or_executed (I := fun s => view s = view c.db)
    (fun hcd ht he hI => (step hcd ht he).imp_left fun hsame => hsame.trans hI)
    (fun hs hI => (tick hs).trans hI) rfl h

/-- What was answered to a request was asked by it in accordance with its protocol. -/
theorem followed_of_mem {N : Req → List ((c : C) × R c) → C → Prop}
    {Q : Req → List ((c : C) × R c) → Out → Prop} (hc : S.Replays c)
    (hspec : ∀ r, (S.handler r).Follows (N r) (Q r) []) {before later : List (Event C R)}
    {ev : Event C R} (hlog : c.log = before ++ ev :: later) :
    ∃ r, c.request ev.task = some r ∧ N r (eventsOf ev.task before) ev.cmd := by
  obtain ⟨i, cmd, ans⟩ := ev
  obtain ⟨r, p, ht, hN⟩ := hc.followed hspec hlog
  exact ⟨r, Config.request_eq ht, hN⟩

/-- Between `c` and `d` a command has been executed, as `K` says of the state before it. -/
def Performed (S : System C R σ Ω Req Out) (P : Config C R σ Req Out → Act Req Ω → Prop)
    (K : σ → Req → Event C R → Prop) (c d : Config C R σ Req Out) : Prop :=
  ∃ e i ω r cmd k ans s, S.Reach P c e ∧ P e (.step i ω) ∧ e.tasks[i]? = some (r, .call cmd k) ∧
    S.exec ω cmd e.db = some (ans, s) ∧
    S.Reach P ⟨e.after i cmd ans s, e.tasks.set i (r, k ans)⟩ d ∧ K e.db r ⟨i, cmd, ans⟩

theorem Performed.later {K : σ → Req → Event C R → Prop} (h : Performed S P K c d)
    (hde : S.Reach P d e) : Performed S P K c e := by
  obtain ⟨m, i, ω, r, cmd, k, ans, s, hcm, hp, ht, he, hmd, hK⟩ := h
  exact ⟨m, i, ω, r, cmd, k, ans, s, hcm, hp, ht, he, hmd.trans hde, hK⟩

/-- What holds in the end but not at the start was brought about by a command. -/
theorem performed_of_holds {I : σ → Prop} {K : σ → Req → Event C R → Prop}
    (step : ∀ {d : Config C R σ Req Out} {i ω r cmd k ans s}, S.Reach P c d →
      d.tasks[i]? = some (r, .call cmd k) → S.exec ω cmd d.db = some (ans, s) → I s →
      I d.db ∨ K d.db r ⟨i, cmd, ans⟩)
    (tick : ∀ {ω s s'}, S.tick ω s = some s' → I s' → I s) (hstart : ¬ I c.db) (h : S.Reach P c d)
    (hI : I d.db) : Performed S P K c d := by
  induction h with
  | refl => exact absurd hI hstart
  | tail hcd hp ha ih =>
    obtain ⟨r, rfl, rfl⟩ | ⟨i, ω, r, cmd, k, ans, s, rfl, ht, he, rfl⟩ | ⟨ω, s, rfl, hs, rfl⟩ :=
      apply_cases ha
    · exact (ih hI).later (.tail .refl hp ha)
    · obtain hold | hK := step hcd ht he hI
      · exact (ih hold).later (.tail .refl hp ha)
      · exact ⟨_, i, ω, r, cmd, k, ans, s, hcd, hp, ht, he, .refl, hK⟩
    · exact (ih (tick hs hI)).later (.tail .refl hp ha)

/-- What holds at the start still holds, or a command has ended it. -/
theorem kept_or_ended {I : σ → Prop} (tick : ∀ {ω s s'}, S.tick ω s = some s' → I s → I s')
    (hstart : I c.db) (h : S.Reach P c d) : I d.db ∨
      ∃ e i ω r cmd k ans s, S.Reach P c e ∧ P e (.step i ω) ∧ e.tasks[i]? = some (r, .call cmd k) ∧
        S.exec ω cmd e.db = some (ans, s) ∧
        S.Reach P ⟨e.after i cmd ans s, e.tasks.set i (r, k ans)⟩ d ∧ I e.db ∧ ¬ I s := by
  induction h with
  | refl => exact .inl hstart
  | tail hcd hp ha ih =>
    obtain hI | ⟨e, i, ω, r, cmd, k, ans, s, hce, hpe, ht, he, hed, hends⟩ := ih
    · obtain ⟨r, rfl, rfl⟩ | ⟨i, ω, r, cmd, k, ans, s, rfl, ht, he, rfl⟩ | ⟨ω, s, rfl, hs, rfl⟩ :=
        apply_cases ha
      · exact .inl hI
      · by_cases hI' : I s
        · exact .inl hI'
        · exact .inr ⟨_, i, ω, r, cmd, k, ans, s, hcd, hp, ht, he, .refl, hI, hI'⟩
      · exact .inl (tick hs hI)
    · exact .inr ⟨e, i, ω, r, cmd, k, ans, s, hce, hpe, ht, he, hed.tail hp ha, hends⟩

/-- What no move ends holds for good. -/
theorem kept_of_forall {I : σ → Prop}
    (step : ∀ {ω cmd ans s s'}, S.exec ω cmd s = some (ans, s') → I s → I s')
    (tick : ∀ {ω s s'}, S.tick ω s = some s' → I s → I s') (hstart : I c.db) (h : S.Reach P c d) :
    I d.db := by
  refine h.invariant (J := fun c => I c.db) (fun hI _ ha => ?_) hstart
  obtain ⟨r, rfl, rfl⟩ | ⟨i, ω, r, cmd, k, ans, s, rfl, ht, he, rfl⟩ | ⟨ω, s, rfl, hs, rfl⟩ :=
    apply_cases ha
  · exact hI
  · exact step he hI
  · exact tick hs hI

end Mesty.Concurrency.Provenance
