import Mathlib
import Mesty.Concurrency.Pool

namespace Mesty.Concurrency.Ledger

open Mesty.Concurrency.Program Mesty.Concurrency.Pool Mesty.Concurrency.Pool.System

variable {C : Type} {R : C → Type} {σ Ω Req Out α : Type} {S : System C R σ Ω Req Out}
  {P : Config C R σ Req Out → Act Req Ω → Prop} {c : Config C R σ Req Out}

section Sums

variable (amount : (cmd : C) → R cmd → Nat)

/-- What the answers to the commands of a task are worth together. -/
def earned (h : List ((cmd : C) × R cmd)) : Nat := (h.map (fun e => amount e.1 e.2)).sum

/-- What all answers of a log are worth together. -/
def total (log : List (Event C R)) : Nat := (log.map (fun e => amount e.cmd e.ans)).sum

@[simp] theorem earned_nil : earned amount [] = 0 := rfl

@[simp] theorem earned_append (h h' : List ((cmd : C) × R cmd)) :
    earned amount (h ++ h') = earned amount h + earned amount h' := by
  simp [earned]

@[simp] theorem earned_singleton (cmd : C) (ans : R cmd) :
    earned amount [⟨cmd, ans⟩] = amount cmd ans := by
  simp [earned]

@[simp] theorem total_nil : total amount [] = 0 := rfl

@[simp] theorem total_snoc (log : List (Event C R)) (e : Event C R) :
    total amount (log ++ [e]) = total amount log + amount e.cmd e.ans := by
  simp [total]

variable {amount}

/-- Only the part of the task itself counts. -/
theorem sum_range_ite {n k : Nat} (hk : k < n) (x : Nat) :
    ((List.range n).map (fun i => if k = i then x else 0)).sum = x := by
  induction n with
  | zero => omega
  | succ n ih =>
    rw [List.range_succ, List.map_append, List.sum_append]
    obtain hlt | rfl := Nat.lt_succ_iff_lt_or_eq.mp hk
    · simp [ih hlt, Nat.ne_of_lt hlt]
    · have hnone : (List.range k).map (fun i => if k = i then x else 0) =
          (List.range k).map (fun _ => 0) :=
        List.map_congr_left fun i hi => if_neg (Nat.ne_of_gt (List.mem_range.mp hi))
      simp [hnone]

/-- A log is shared out among the tasks. -/
theorem total_eq_sum_earned {n : Nat} {log : List (Event C R)} (h : ∀ e ∈ log, e.task < n) :
    total amount log = ((List.range n).map (fun i => earned amount (eventsOf i log))).sum := by
  induction log using List.reverseRecOn with
  | nil => simp [eventsOf]
  | append_singleton log e ih =>
    have hsplit : ∀ i, earned amount (eventsOf i (log ++ [e])) =
        earned amount (eventsOf i log) + if e.task = i then amount e.cmd e.ans else 0 := by
      intro i
      rw [eventsOf_append, earned_append]
      by_cases hi : e.task = i <;> simp [eventsOf, hi]
    simp only [hsplit, List.sum_map_add, total_snoc]
    rw [sum_range_ite (h e (by simp)), ← ih fun e' he' => h e' (List.mem_append_left _ he')]

/-- The items of a log that a test passes. -/
theorem countP_filterMap {f : Event C R → Option α} {p : α → Bool} {log : List (Event C R)}
    (h : ∀ e, ((f e).elim false p).toNat = amount e.cmd e.ans) :
    (log.filterMap f).countP p = total amount log := by
  induction log using List.reverseRecOn with
  | nil => rfl
  | append_singleton log e ih =>
    rw [List.filterMap_append, List.countP_append, ih, total_snoc, ← h e]
    cases hf : f e with
    | none => simp [hf]
    | some x => cases hp : p x <;> simp [hf, hp]

end Sums

section Bounds

variable {amount amount' : (cmd : C) → R cmd → Nat} {bound : Req → Nat}

/-- What holds of each task holds of all. -/
theorem total_le_total (hc : S.Replays c)
    (h : ∀ i t, c.tasks[i]? = some t → earned amount (c.history i) ≤ earned amount' (c.history i)) :
    total amount c.log ≤ total amount' c.log := by
  rw [total_eq_sum_earned hc.1, total_eq_sum_earned hc.1]
  refine List.sum_le_sum fun i hi => ?_
  exact h i _ (List.getElem?_eq_getElem (List.mem_range.mp hi))

theorem total_le_sum (hc : S.Replays c)
    (h : ∀ i r p, c.tasks[i]? = some (r, p) → earned amount (c.history i) ≤ bound r) :
    total amount c.log ≤ (c.tasks.map (fun t => bound t.1)).sum := by
  have hlist : c.tasks.map (fun t => bound t.1) =
      (List.range c.tasks.length).map (fun i => (c.request i).elim 0 bound) := by
    refine List.ext_getElem (by simp) fun i hi hi' => ?_
    have ht := List.getElem?_eq_getElem (l := c.tasks) (by simpa using hi)
    rw [List.getElem_map, List.getElem_map, List.getElem_range, Config.request_eq ht]
    rfl
  rw [total_eq_sum_earned hc.1, hlist]
  refine List.sum_le_sum fun i hi => ?_
  have ht := List.getElem?_eq_getElem (l := c.tasks) (List.mem_range.mp hi)
  rw [Config.request_eq ht]
  exact h i _ _ ht

end Bounds

section Answers

variable {amount : (cmd : C) → R cmd → Nat} {worth : Req → Out → Nat}

/-- What a task has been told with its answer. -/
def told (worth : Req → Out → Nat) : Req × Prog C R Out → Nat
  | (r, .ret a) => worth r a
  | (_, .call ..) => 0

/-- A task that earns nothing on its way keeps the account. -/
theorem follows_of_free {Q : List ((cmd : C) × R cmd) → α → Prop} {p : Prog C R α}
    (hp : p.Issues (fun cmd => ∀ ans, amount cmd ans = 0)) (hQ : ∀ h a, earned amount h = 0 → Q h a)
    {h : List ((cmd : C) × R cmd)} (hh : earned amount h = 0) :
    p.Follows (fun h _ => earned amount h = 0) Q h := by
  induction p generalizing h with
  | ret a => exact hQ h a hh
  | call cmd k ih => exact ⟨hh, fun ans => ih ans (hp.2 ans) (by simp [hh, hp.1 ans])⟩

/-- If each task has earned nothing when it issues a command and is told in the end what it has
earned, the answers of all tasks add up to what has been executed. -/
theorem total_eq_told (hspec : ∀ r, (S.handler r).Follows (fun h _ => earned amount h = 0)
      (fun h a => earned amount h = worth r a) []) (hc : S.Replays c) :
    total amount c.log = (c.tasks.map (told worth)).sum := by
  have htask : ∀ i t, c.tasks[i]? = some t → earned amount (c.history i) = told worth t := by
    rintro i ⟨r, p⟩ ht
    have hp := hc.follows hspec ht
    cases p with
    | ret a => exact hp
    | call cmd k => exact hp.1
  have hlist : c.tasks.map (told worth) =
      (List.range c.tasks.length).map (fun i => earned amount (c.history i)) := by
    refine List.ext_getElem (by simp) fun i hi hi' => ?_
    rw [List.getElem_map, List.getElem_map, List.getElem_range]
    exact (htask i _ (List.getElem?_eq_getElem _)).symm
  rw [hlist]
  exact total_eq_sum_earned hc.1

end Answers

/-- What every command keeps up to what it adds and takes, a run keeps up to the totals. -/
theorem balanced {view : σ → Nat} {gain loss : (cmd : C) → R cmd → Nat} {s : σ}
    (step : ∀ {ω cmd ans s s'}, S.exec ω cmd s = some (ans, s') →
      view s' + loss cmd ans = view s + gain cmd ans)
    (tick : ∀ {ω s s'}, S.tick ω s = some s' → view s' = view s) (h : S.Reach P (start s) c) :
    view c.db + total loss c.log = view s + total gain c.log := by
  refine h.invariant (J := fun c => view c.db + total loss c.log = view s + total gain c.log)
    (fun hJ _ ha => ?_) rfl
  obtain ⟨r, rfl, rfl⟩ | ⟨i, ω, r, cmd, k, ans, s', rfl, ht, he, rfl⟩ | ⟨ω, s', rfl, hs, rfl⟩ :=
    apply_cases ha
  · exact hJ
  · simp only [World.after_db, World.after_log, total_snoc]
    have := step he
    omega
  · simp only [tick hs]
    exact hJ

end Mesty.Concurrency.Ledger
