import Mesty.Concurrency.Pool

namespace Mesty.Concurrency.Visits

open Mesty.Concurrency.Program Mesty.Concurrency.Pool Mesty.Concurrency.Pool.System

variable {C : Type} {R : C → Type} {σ Ω Req Out : Type} {S : System C R σ Ω Req Out}
  {P : Config C R σ Req Out → Act Req Ω → Prop} {c d e : Config C R σ Req Out}

/-- What a task has answered. -/
def answerOf (c : Config C R σ Req Out) (i : Nat) : Option Out :=
  c.tasks[i]?.bind (fun t => match t.2 with
    | .ret a => some a
    | .call .. => none)

theorem answerOf_eq_some {i : Nat} {a : Out} (h : answerOf c i = some a) :
    ∃ r, c.request i = some r ∧ c.tasks[i]? = some (r, .ret a) := by
  obtain ⟨⟨r, p⟩, ht, hp⟩ := Option.bind_eq_some_iff.mp h
  cases p with
  | call => cases hp
  | ret b =>
    obtain rfl := Option.some.inj hp
    exact ⟨r, Config.request_eq ht, ht⟩

/-- The log only grows. -/
theorem log_le (h : S.Reach P c d) : c.log <+: d.log := by
  induction h with
  | refl => exact List.prefix_refl _
  | tail _ _ ha ih =>
    obtain ⟨r, rfl, rfl⟩ | ⟨i, ω, r, cmd, k, ans, s, rfl, ht, he, rfl⟩ | ⟨ω, s, rfl, hs, rfl⟩ :=
      apply_cases ha
    · exact ih
    · exact ih.trans (List.prefix_append _ _)
    · exact ih

/-- A request stays the request of its task. -/
theorem request_kept (h : S.Reach P c d) {i : Nat} (hi : i < c.tasks.length) :
    d.request i = c.request i ∧ c.tasks.length ≤ d.tasks.length := by
  induction h with
  | refl => exact ⟨rfl, Nat.le_refl _⟩
  | tail _ _ ha ih =>
    obtain ⟨hreq, hle⟩ := ih
    obtain ⟨r, rfl, rfl⟩ | ⟨j, ω, r, cmd, k, ans, s, rfl, ht, he, rfl⟩ | ⟨ω, s, rfl, hs, rfl⟩ :=
      apply_cases ha
    · rw [Config.request_spawn (by omega)]
      exact ⟨hreq, by simpa using Nat.le_succ_of_le hle⟩
    · rw [Config.request_set ht]
      exact ⟨hreq, by simpa using hle⟩
    · exact ⟨hreq, hle⟩

theorem length_le (h : S.Reach P c d) : c.tasks.length ≤ d.tasks.length := by
  obtain hnil | hpos := Nat.eq_zero_or_pos c.tasks.length
  · exact hnil ▸ Nat.zero_le _
  · exact (request_kept h hpos).2

/-- A task that has finished stays as it is. -/
theorem finished_kept (h : S.Reach P c d) {i : Nat} {r : Req} {p : Prog C R Out}
    (hi : c.tasks[i]? = some (r, p)) (hp : p.finished) : d.tasks[i]? = some (r, p) := by
  induction h with
  | refl => exact hi
  | tail _ _ ha ih =>
    obtain ⟨r', rfl, rfl⟩ | ⟨j, ω, r', cmd, k, ans, s, rfl, ht, he, rfl⟩ | ⟨ω, s, rfl, hs, rfl⟩ :=
      apply_cases ha
    · exact List.getElem?_append_left (List.getElem?_eq_some_iff.mp ih).1 ▸ ih
    · have hne : j ≠ i := by
        rintro rfl
        obtain ⟨-, rfl⟩ := Prod.mk.inj (Option.some.inj (ht.symm.trans ih))
        cases hp
      exact (List.getElem?_set_ne hne).trans ih
    · exact ih

/-- An event that has been logged since `c` was executed by a move in between. -/
theorem executed (h : S.Reach P c d) {before later : List (Event C R)} {ev : Event C R}
    (hlog : d.log = before ++ ev :: later) (hsince : c.log.length ≤ before.length) :
    ∃ e e' ω, S.Reach P c e ∧ S.Reach P e e' ∧ S.Reach P e' d ∧ e.log = before ∧
      ev.task < e.tasks.length ∧ S.exec ω ev.cmd e.db = some (ev.ans, e'.db) := by
  induction h generalizing later with
  | refl =>
    have := congrArg List.length hlog
    simp only [List.length_append, List.length_cons] at this
    omega
  | tail hcd hp ha ih =>
    obtain ⟨r, rfl, rfl⟩ | ⟨i, ω, r, cmd, k, ans, s, rfl, ht, he, rfl⟩ | ⟨ω, s, rfl, hs, rfl⟩ :=
      apply_cases ha
    · obtain ⟨e, e', ω, hce, hee, hed, hrest⟩ := ih hlog
      exact ⟨e, e', ω, hce, hee, hed.tail hp ha, hrest⟩
    · obtain ⟨-, rfl, rfl⟩ | ⟨later', -, hlog'⟩ := snoc_eq_split hlog
      · exact ⟨_, _, ω, hcd, .tail .refl hp ha, .refl, rfl, (List.getElem?_eq_some_iff.mp ht).1, he⟩
      · obtain ⟨e, e', ω', hce, hee, hed, hrest⟩ := ih hlog'
        exact ⟨e, e', ω', hce, hee, hed.tail hp ha, hrest⟩
    · obtain ⟨e, e', ω', hce, hee, hed, hrest⟩ := ih hlog
      exact ⟨e, e', ω', hce, hee, hed.tail hp ha, hrest⟩

/-- The events of a task that arrived after `c` come after the log of `c`. -/
theorem since_of_later (hreplays : S.Replays c) (h : S.Reach P c d)
    {before later : List (Event C R)} {ev : Event C R} (hlog : d.log = before ++ ev :: later)
    (hi : c.tasks.length ≤ ev.task) : c.log.length ≤ before.length := by
  by_contra hlt
  have hold : ev ∈ c.log := by
    obtain ⟨rest, hrest⟩ := log_le h
    have hget : c.log[before.length]? = some ev := by
      have hkept : (c.log ++ rest)[before.length]? = c.log[before.length]? :=
        List.getElem?_append_left (by omega)
      rw [← hkept, hrest, hlog]
      simp
    exact List.mem_of_getElem? hget
  exact absurd (hreplays.1 _ hold) (Nat.not_lt.mpr hi)

/-- What a task that arrived after `c` has been answered was executed since `c`. -/
theorem executed_since (hreplays : S.Replays c) (h : S.Reach P c d) {i : Nat}
    (hi : c.tasks.length ≤ i) {cmd : C} {ans : R cmd} (hmem : ⟨cmd, ans⟩ ∈ d.history i) :
    ∃ e e' ω, S.Reach P c e ∧ S.Reach P e e' ∧ S.Reach P e' d ∧
      S.exec ω cmd e.db = some (ans, e'.db) := by
  obtain ⟨before, later, hlog⟩ := List.append_of_mem (World.mem_history.mp hmem)
  obtain ⟨e, e', ω, hce, hee, hed, -, -, hexec⟩ :=
    executed h hlog (since_of_later hreplays h hlog hi)
  exact ⟨e, e', ω, hce, hee, hed, hexec⟩

/-- Two answers to a task in their order are two events of the log in that order. -/
theorem split_of_sublist {i : Nat} {log : List (Event C R)} {x y : (c : C) × R c}
    (h : List.Sublist [x, y] (eventsOf i log)) : ∃ before between later,
      log = before ++ ⟨i, x.1, x.2⟩ :: (between ++ ⟨i, y.1, y.2⟩ :: later) := by
  obtain ⟨pair, hpair, heq⟩ := List.sublist_map_iff.mp h
  obtain _ | ⟨ev, _ | ⟨ev', _ | ⟨_, _⟩⟩⟩ := pair
  all_goals cases heq
  have htask : ∀ e ∈ [ev, ev'], e.task = i :=
    fun e he => of_decide_eq_true (List.mem_filter.mp (hpair.subset he)).2
  obtain rfl := htask ev (by simp)
  have htask' := htask ev' (by simp)
  obtain ⟨before, rest, hlog, hev, hrest⟩ := List.cons_sublist_iff.mp (hpair.trans List.filter_sublist)
  obtain ⟨before₁, before₂, rfl⟩ := List.append_of_mem hev
  obtain ⟨between, later, rfl⟩ := List.append_of_mem (List.singleton_sublist.mp hrest)
  have hlater : (⟨ev.task, ev'.cmd, ev'.ans⟩ : Event C R) = ev' := by rw [← htask']
  refine ⟨before₁, before₂ ++ between, later, ?_⟩
  rw [hlog, hlater]
  simp

section Runs

theorem run_append (as as' : List (Act Req Ω)) (c : Config C R σ Req Out) :
    S.run (as ++ as') c = S.run as' (S.run as c) := by
  induction as generalizing c with
  | nil => rfl
  | cons a as ih => exact ih _

/-- What holds after a run but not before it was brought about by one of its moves. -/
theorem move_of_holds {J : Config C R σ Req Out → Prop} {as : List (Act Req Ω)} (hc : ¬ J c)
    (hd : J (S.run as c)) : ∃ as₁ a as₂ e, as = as₁ ++ a :: as₂ ∧
      S.apply a (S.run as₁ c) = some e ∧ ¬ J (S.run as₁ c) ∧ J e := by
  induction as generalizing c with
  | nil => exact absurd hd hc
  | cons a as ih =>
    by_cases hnext : J ((S.apply a c).getD c)
    · cases ha : S.apply a c with
      | none =>
        rw [ha] at hnext
        exact absurd hnext hc
      | some e =>
        rw [ha] at hnext
        exact ⟨[], a, as, e, rfl, ha, hc, hnext⟩
    · obtain ⟨as₁, b, as₂, e, rfl, hb, hbefore, hafter⟩ := ih hnext hd
      exact ⟨a :: as₁, b, as₂, e, rfl, hb, hbefore, hafter⟩

/-- The state of the run in which an event of its log was executed. -/
theorem executed_at {as : List (Act Req Ω)} {before later : List (Event C R)} {ev : Event C R}
    (hlog : (S.run as c).log = before ++ ev :: later) (hsince : c.log.length ≤ before.length) :
    ∃ as₁ ω s, as₁ <+: as ∧ (S.run as₁ c).log = before ∧ ev.task < (S.run as₁ c).tasks.length ∧
      S.exec ω ev.cmd (S.run as₁ c).db = some (ev.ans, s) := by
  obtain ⟨as₁, a, as₂, e, rfl, ha, hbefore, hafter⟩ := move_of_holds
    (J := fun d : Config C R σ Req Out => before.length < d.log.length) (Nat.not_lt.mpr hsince)
    (by rw [hlog]; simp)
  have hle : e.log <+: before ++ ev :: later := by
    rw [← hlog, run_append]
    have hnext : S.run (a :: as₂) (S.run as₁ c) = S.run as₂ e := by rw [run, ha, Option.getD_some]
    exact hnext ▸ log_le (reach_run as₂ e)
  obtain ⟨r, rfl, rfl⟩ | ⟨i, ω, r, cmd, k, ans, s, rfl, ht, he, rfl⟩ | ⟨ω, s, rfl, hs, rfl⟩ :=
    apply_cases ha
  · exact absurd hafter hbefore
  · rw [World.after_log] at hle hafter
    have hlength : (S.run as₁ c).log.length = before.length := by
      simp only [List.length_append, List.length_singleton] at hafter
      omega
    obtain ⟨rest, hrest⟩ := hle
    rw [List.append_assoc, List.singleton_append] at hrest
    obtain ⟨hold, hnew⟩ := List.append_inj hrest hlength
    obtain rfl := (List.cons.inj hnew).1
    exact ⟨as₁, ω, s, List.prefix_append _ _, hold, (List.getElem?_eq_some_iff.mp ht).1, he⟩
  · exact absurd hafter hbefore

/-- What a task has been answered was executed in a state of the run, the task being there. -/
theorem answered_at (hreplays : S.Replays c) {as : List (Act Req Ω)} {i : Nat} {cmd : C} {ans : R cmd}
    (hi : c.tasks.length ≤ i) (hmem : ⟨cmd, ans⟩ ∈ (S.run as c).history i) : ∃ as₁ ω s, as₁ <+: as ∧
      i < (S.run as₁ c).tasks.length ∧ S.exec ω cmd (S.run as₁ c).db = some (ans, s) := by
  obtain ⟨before, later, hlog⟩ := List.append_of_mem (World.mem_history.mp hmem)
  obtain ⟨as₁, ω, s, hle, -, hthere, hexec⟩ :=
    executed_at hlog (since_of_later hreplays (reach_run as c) hlog hi)
  exact ⟨as₁, ω, s, hle, hthere, hexec⟩

/-- Two answers to one task were given in their order. -/
theorem answered_in_order (hreplays : S.Replays c) {as : List (Act Req Ω)} {i : Nat}
    (hi : c.tasks.length ≤ i) {cmd cmd' : C} {ans : R cmd} {ans' : R cmd'}
    (hsub : List.Sublist [⟨cmd, ans⟩, ⟨cmd', ans'⟩] ((S.run as c).history i)) :
    ∃ as₁ as₂ ω ω' s s', as₁ <+: as₂ ∧ as₂ <+: as ∧
      S.exec ω cmd (S.run as₁ c).db = some (ans, s) ∧
      S.exec ω' cmd' (S.run as₂ c).db = some (ans', s') := by
  obtain ⟨before, between, later, hlog⟩ := split_of_sublist hsub
  have hsince := since_of_later hreplays (reach_run as c) hlog hi
  have hlog' : (S.run as c).log = (before ++ ⟨i, cmd, ans⟩ :: between) ++ ⟨i, cmd', ans'⟩ :: later := by
    rw [hlog, List.append_assoc, List.cons_append]
  obtain ⟨as₂, ω', s', hle₂, hlog₂, -, hexec'⟩ := executed_at hlog' (Nat.le_trans hsince (by simp))
  obtain ⟨as₁, ω, s, hle₁, -, -, hexec⟩ := executed_at hlog₂ hsince
  exact ⟨as₁, as₂, ω, ω', s, s', hle₁, hle₂, hexec, hexec'⟩

end Runs

end Mesty.Concurrency.Visits
