import Mesty.Concurrency.Program

namespace Mesty.Concurrency.Faults

open Mesty.Concurrency.Program

variable {C σ Ω α ε : Type} {R F : C → Type}

def onAnswer {A E B : Type} (onOk : A → B) (onError : E → B) : Except E A → B
  | .ok a => onOk a
  | .error e => onError e

/-- The task whose calls may fail. A failed call ends it with an error. -/
def failing (onFault : (c : C) → F c → ε) :
    Prog C R (Except ε α) → Prog C (fun c => Except (F c) (R c)) (Except ε α)
  | .ret r => .ret r
  | .call c k => .call c (onAnswer (fun a => failing onFault (k a))
      (fun e => .ret (.error (onFault c e))))

/-- How a call fails: the command has not been executed, or its answer is lost.
A command without a fault does not fail. -/
structure Failure (F : C → Type) where
  fault : (c : C) → Option (F c)
  executed : Bool

/-- What the environment makes of a call. -/
structure CallChoice (Ω : Type) (F : C → Type) where
  choice : Ω
  failure : Option (Failure F)

def CallChoice.executes (ω : CallChoice Ω F) : Bool := ω.failure.all Failure.executed

def faulty (exec : Ω → (c : C) → σ → Option (R c × σ)) (ω : CallChoice Ω F) (c : C) (s : σ) :
    Option (Except (F c) (R c) × σ) :=
  match ω.failure with
  | none => (exec ω.choice c s).map (fun out => (.ok out.1, out.2))
  | some f => (f.fault c).bind (fun e =>
      if f.executed then (exec ω.choice c s).map (fun out => (.error e, out.2))
      else some (.error e, s))

/-- The state after the first commands of the task. -/
def after (exec : Ω → (c : C) → σ → Option (R c × σ)) : Nat → Prog C R α → List Ω → σ → Option σ
  | 0, _, _, s => some s
  | n + 1, .call c k, ω :: ωs, s =>
    (exec ω c s).bind (fun out => after exec n (k out.1) ωs out.2)
  | _, _, _, _ => none

/-- Every run of the task alone satisfies `J` in each state that it passes, and `Q` at its end. -/
def Passes (exec : Ω → (c : C) → σ → Option (R c × σ)) (J : σ → Prop) (Q : α → σ → Prop) :
    Prog C R α → σ → Prop
  | .ret a, s => J s ∧ Q a s
  | .call c k, s => J s ∧ ∀ ω r s', exec ω c s = some (r, s') → Passes exec J Q (k r) s'

section Runs

variable {onFault : (c : C) → F c → ε} {exec : Ω → (c : C) → σ → Option (R c × σ)}
  {ω : CallChoice Ω F} {c : C} {s s' : σ} {p : Prog C R (Except ε α)} {r : Except ε α}
  {ωs : List (CallChoice Ω F)}

theorem faulty_cases {answer : Except (F c) (R c)} (h : faulty exec ω c s = some (answer, s')) :
    (ω.failure = none ∧ ∃ a, answer = .ok a ∧ exec ω.choice c s = some (a, s')) ∨
    ω.failure ≠ none ∧ ∃ e, answer = .error e ∧
      ((ω.executes = true ∧ ∃ a, exec ω.choice c s = some (a, s')) ∨ ω.executes = false ∧ s' = s) := by
  rw [faulty] at h
  split at h
  · next hnone =>
    obtain ⟨⟨a, s₁⟩, he, heq⟩ := Option.map_eq_some_iff.mp h
    obtain ⟨rfl, rfl⟩ := Prod.mk.inj heq
    exact .inl ⟨hnone, a, rfl, he⟩
  · next f hf =>
    obtain ⟨e, -, h⟩ := Option.bind_eq_some_iff.mp h
    have hexecutes : ω.executes = f.executed := by rw [CallChoice.executes, hf, Option.all_some]
    refine .inr ⟨by rw [hf]; rintro ⟨⟩, e, ?_⟩
    split_ifs at h with hexecuted
    · obtain ⟨⟨a, s₁⟩, he, heq⟩ := Option.map_eq_some_iff.mp h
      obtain ⟨rfl, rfl⟩ := Prod.mk.inj heq
      exact ⟨rfl, .inl ⟨hexecutes.trans hexecuted, a, he⟩⟩
    · obtain ⟨rfl, rfl⟩ := Prod.mk.inj (Option.some.inj h)
      exact ⟨rfl, .inr ⟨hexecutes.trans (Bool.eq_false_iff.mpr hexecuted), rfl⟩⟩

/-- Where no call fails the task runs as it does without failures; otherwise it ends with an error. -/
theorem failing_alone (h : (failing onFault p).alone (faulty exec) ωs s = some (r, s')) :
    ((∀ ω ∈ ωs, ω.failure = none) ∧ p.alone exec (ωs.map CallChoice.choice) s = some (r, s')) ∨
    (∃ ω ∈ ωs, ω.failure ≠ none) ∧ ∃ e, r = .error e := by
  induction p generalizing s ωs with
  | ret a =>
    cases ωs with
    | nil => exact .inl ⟨by rintro _ ⟨⟩, h⟩
    | cons ω ωs => cases h
  | call c k ih =>
    cases ωs with
    | nil => cases h
    | cons ω ωs =>
      obtain ⟨⟨answer, s₁⟩, he, hrest⟩ := Option.bind_eq_some_iff.mp h
      obtain ⟨hnone, a, rfl, hexec⟩ | ⟨hsome, e, rfl, -⟩ := faulty_cases he
      · obtain ⟨hall, hclean⟩ | ⟨⟨ω', hω', hfails⟩, herror⟩ := ih a hrest
        · refine .inl ⟨List.forall_mem_cons.mpr ⟨hnone, hall⟩, ?_⟩
          exact Option.bind_eq_some_iff.mpr ⟨_, hexec, hclean⟩
        · exact .inr ⟨⟨ω', List.mem_cons_of_mem _ hω', hfails⟩, herror⟩
      · refine .inr ⟨⟨ω, List.mem_cons_self, hsome⟩, onFault c e, ?_⟩
        cases ωs with
        | nil => exact (Prod.mk.inj (Option.some.inj hrest)).1.symm
        | cons => cases hrest

/-- The first call: nothing has happened, or the command is executed and the task ends, or goes on. -/
theorem failing_call {k : R c → Prog C R (Except ε α)}
    (h : (failing onFault (.call c k)).alone (faulty exec) ωs s = some (r, s')) :
    ∃ ω ωs', ωs = ω :: ωs' ∧ ((ω.executes = false ∧ s' = s) ∨
      ω.executes = true ∧ ∃ a mid, exec ω.choice c s = some (a, mid) ∧
        (s' = mid ∨ (failing onFault (k a)).alone (faulty exec) ωs' mid = some (r, s'))) := by
  obtain ⟨ω, ωs', answer, mid, rfl, he, hrest⟩ := Prog.alone_call h
  refine ⟨ω, ωs', rfl, ?_⟩
  obtain ⟨hnone, a, rfl, hexec⟩ | ⟨-, e, rfl, ⟨hexecutes, a, hexec⟩ | ⟨hexecutes, rfl⟩⟩ := faulty_cases he
  · exact .inr ⟨by rw [CallChoice.executes, hnone]; rfl, a, mid, hexec, .inr hrest⟩
  · exact .inr ⟨hexecutes, a, mid, hexec, .inl (Prog.alone_ret hrest).2.2⟩
  · exact .inl ⟨hexecutes, (Prog.alone_ret hrest).2.2⟩

/-- A run with a failing call ends where the task without failures is after the commands that have
been executed. -/
theorem failing_state (h : (failing onFault p).alone (faulty exec) ωs s = some (r, s'))
    (hfails : ∃ ω ∈ ωs, ω.failure ≠ none) :
    after exec (ωs.countP CallChoice.executes) p (ωs.map CallChoice.choice) s = some s' := by
  induction p generalizing s ωs with
  | ret a =>
    obtain ⟨rfl, -, -⟩ := Prog.alone_ret h
    obtain ⟨ω, hω, -⟩ := hfails
    cases hω
  | call c k ih =>
    obtain ⟨ω, ωs, answer, mid, rfl, he, hrest⟩ := Prog.alone_call h
    obtain ⟨hnone, a, rfl, hexec⟩ | ⟨hsome, e, rfl, hend⟩ := faulty_cases he
    · have hexecutes : ω.executes = true := by rw [CallChoice.executes, hnone, Option.all_none]
      have hlater : ∃ ω' ∈ ωs, ω'.failure ≠ none := by
        obtain ⟨ω', hω', hω's⟩ := hfails
        obtain rfl | hω' := List.mem_cons.mp hω'
        · exact absurd hnone hω's
        · exact ⟨ω', hω', hω's⟩
      rw [List.countP_cons_of_pos hexecutes]
      exact Option.bind_eq_some_iff.mpr ⟨_, hexec, ih a hrest hlater⟩
    · obtain ⟨rfl, -, rfl⟩ := Prog.alone_ret hrest
      obtain ⟨hexecutes, a, hexec⟩ | ⟨hexecutes, rfl⟩ := hend
      · rw [List.countP_cons_of_pos hexecutes]
        exact Option.bind_eq_some_iff.mpr ⟨_, hexec, rfl⟩
      · rw [List.countP_cons_of_neg (by rw [hexecutes]; exact Bool.false_ne_true)]
        rfl

section After

variable {n : Nat} {choices : List Ω}

theorem after_ret {a : α} (h : after exec n (.ret a : Prog C R α) choices s = some s') :
    n = 0 ∧ s' = s := by
  cases n with
  | zero => exact ⟨rfl, (Option.some.inj h).symm⟩
  | succ n => cases h

theorem after_call {k : R c → Prog C R α} (h : after exec n (.call c k) choices s = some s') :
    (n = 0 ∧ s' = s) ∨ ∃ m ω choices' a mid, n = m + 1 ∧ choices = ω :: choices' ∧
      exec ω c s = some (a, mid) ∧ after exec m (k a) choices' mid = some s' := by
  cases n with
  | zero => exact .inl ⟨rfl, (Option.some.inj h).symm⟩
  | succ m =>
    cases choices with
    | nil => cases h
    | cons ω choices =>
      obtain ⟨⟨a, mid⟩, he, hrest⟩ := Option.bind_eq_some_iff.mp h
      exact .inr ⟨m, ω, choices, a, mid, rfl, rfl, he, hrest⟩

end After

theorem failing_issues {P : C → Prop} (h : p.Issues P) : (failing onFault p).Issues P := by
  induction p with
  | ret a => trivial
  | call c k ih =>
    refine ⟨h.1, fun answer => ?_⟩
    cases answer with
    | ok a => exact ih a (h.2 a)
    | error e => trivial

/-- What all commands of a task preserve it preserves up to each failure. -/
theorem failing_wp {P : C → Prop} {I : σ → Prop}
    (hI : ∀ ω c a s s', P c → I s → exec ω c s = some (a, s') → I s') (hp : p.Issues P) (hs : I s) :
    (failing onFault p).wp (faulty exec) (fun _ => I) s := by
  refine Prog.Issues.wp (fun ω c answer s₁ s₂ hc hs₁ he => ?_) (failing_issues hp) hs
  obtain ⟨-, a, -, hexec⟩ | ⟨-, e, -, ⟨-, a, hexec⟩ | ⟨-, rfl⟩⟩ := faulty_cases he
  · exact hI ω.choice c a s₁ s₂ hc hs₁ hexec
  · exact hI ω.choice c a s₁ s₂ hc hs₁ hexec
  · exact hs₁

variable {J : σ → Prop} {Q : Except ε α → σ → Prop}

theorem Passes.now (h : Passes exec J Q p s) : J s := by
  cases p with
  | ret a => exact h.1
  | call c k => exact h.1

theorem Passes.wp (h : Passes exec J Q p s) : p.wp exec Q s := by
  induction p generalizing s with
  | ret a => exact h.2
  | call c k ih => exact fun ω a s' he => ih a (h.2 ω a s' he)

/-- A call that fails leaves the task in a state that it passes. -/
theorem Passes.failing (h : Passes exec J Q p s) :
    (failing onFault p).wp (faulty exec) (fun _ => J) s := by
  induction p generalizing s with
  | ret a => exact h.1
  | call c k ih =>
    intro ω answer s' he
    obtain ⟨-, a, rfl, hexec⟩ | ⟨-, e, rfl, ⟨-, a, hexec⟩ | ⟨-, rfl⟩⟩ := faulty_cases he
    · exact ih a (h.2 _ a s' hexec)
    · exact (h.2 _ a s' hexec).now
    · exact h.1

end Runs

end Mesty.Concurrency.Faults
