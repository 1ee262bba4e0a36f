import Mesty.Concurrency.Program

namespace Mesty.Concurrency.Pool

open Mesty.Concurrency.Program

variable {C : Type} {R : C → Type} {σ Ω Req Out : Type}

/-- A command that has been executed, the task that issued it, and its answer. -/
structure Event (C : Type) (R : C → Type) where
  task : Nat
  cmd : C
  ans : R cmd

/-- The shared state. `log` is its history: it lists the executed commands,
the oldest first, and no task reads it. -/
structure World (C : Type) (R : C → Type) (σ : Type) where
  db : σ
  log : List (Event C R)

def World.after (w : World C R σ) (i : Nat) (cmd : C) (ans : R cmd) (s : σ) : World C R σ :=
  ⟨s, w.log ++ [⟨i, cmd, ans⟩]⟩

@[simp] theorem World.after_db (w : World C R σ) (i : Nat) (cmd : C) (ans : R cmd) (s : σ) :
    (w.after i cmd ans s).db = s := rfl

@[simp] theorem World.after_log (w : World C R σ) (i : Nat) (cmd : C) (ans : R cmd) (s : σ) :
    (w.after i cmd ans s).log = w.log ++ [⟨i, cmd, ans⟩] := rfl

/-- The commands that task `i` executes in a log, with their answers. -/
def eventsOf (i : Nat) (log : List (Event C R)) : List ((c : C) × R c) :=
  (log.filter (fun e => e.task = i)).map (fun e => ⟨e.cmd, e.ans⟩)

theorem eventsOf_append (i : Nat) (log log' : List (Event C R)) :
    eventsOf i (log ++ log') = eventsOf i log ++ eventsOf i log' := by
  simp [eventsOf]

theorem mem_eventsOf {i : Nat} {log : List (Event C R)} {cmd : C} {ans : R cmd} :
    ⟨cmd, ans⟩ ∈ eventsOf i log ↔ ⟨i, cmd, ans⟩ ∈ log := by
  simp only [eventsOf, List.mem_map, List.mem_filter, decide_eq_true_eq]
  constructor
  · rintro ⟨⟨j, c, a⟩, ⟨hm, rfl⟩, he⟩
    cases he
    exact hm
  · exact fun h => ⟨_, ⟨h, rfl⟩, rfl⟩

def World.history (w : World C R σ) (i : Nat) : List ((c : C) × R c) := eventsOf i w.log

theorem World.history_after (w : World C R σ) (i j : Nat) (cmd : C) (ans : R cmd) (s : σ) :
    (w.after i cmd ans s).history j = w.history j ++ if i = j then [⟨cmd, ans⟩] else [] := by
  by_cases h : i = j <;> simp [World.history, eventsOf, h]

theorem World.mem_history {w : World C R σ} {i : Nat} {cmd : C} {ans : R cmd} :
    ⟨cmd, ans⟩ ∈ w.history i ↔ ⟨i, cmd, ans⟩ ∈ w.log := mem_eventsOf

/-- An event of a log that has grown is the new one or one of before. -/
theorem snoc_eq_split {log before later : List (Event C R)} {e e' : Event C R}
    (h : log ++ [e] = before ++ e' :: later) : (later = [] ∧ before = log ∧ e' = e) ∨
      ∃ later', later = later' ++ [e] ∧ log = before ++ e' :: later' := by
  obtain rfl | ⟨later', last, rfl⟩ := List.eq_nil_or_concat later
  · obtain ⟨rfl, he⟩ := List.append_inj' h rfl
    exact .inl ⟨rfl, rfl, (List.singleton_inj.mp he).symm⟩
  · rw [List.concat_eq_append, ← List.cons_append, ← List.append_assoc] at h
    obtain ⟨hlog, he⟩ := List.append_inj' h rfl
    obtain rfl := List.singleton_inj.mp he
    exact .inr ⟨later', List.concat_eq_append, hlog⟩

/-- Every event of the log stands in `N` to the events before it. -/
def Backed (N : List (Event C R) → Event C R → Prop) (log : List (Event C R)) : Prop :=
  ∀ before e later, log = before ++ e :: later → N before e

theorem backed_nil (N : List (Event C R) → Event C R → Prop) : Backed N [] :=
  fun before e later h => by simp at h

theorem Backed.snoc {N : List (Event C R) → Event C R → Prop} {log : List (Event C R)}
    (h : Backed N log) {e : Event C R} (he : N log e) : Backed N (log ++ [e]) := by
  intro before e' later heq
  obtain ⟨-, rfl, rfl⟩ | ⟨later, -, hlog⟩ := snoc_eq_split heq
  · exact he
  · exact h before e' later hlog

/-- Some event of the log stands in `N` to the events before it. -/
def Occurs (N : List (Event C R) → Event C R → Prop) (log : List (Event C R)) : Prop :=
  ∃ before e later, log = before ++ e :: later ∧ N before e

theorem occurs_snoc {N : List (Event C R) → Event C R → Prop} {log : List (Event C R)}
    {e : Event C R} : Occurs N (log ++ [e]) ↔ Occurs N log ∨ N log e := by
  constructor
  · rintro ⟨before, e', later, heq, hN⟩
    obtain ⟨-, rfl, rfl⟩ | ⟨later, -, hlog⟩ := snoc_eq_split heq
    · exact .inr hN
    · exact .inl ⟨before, e', later, hlog, hN⟩
  · rintro (⟨before, e', later, rfl, hN⟩ | hN)
    · exact ⟨before, e', later ++ [e], by simp, hN⟩
    · exact ⟨log, e, [], rfl, hN⟩

theorem occurs_iff_getElem {N : List (Event C R) → Event C R → Prop} {log : List (Event C R)} :
    Occurs N log ↔ ∃ n : Fin log.length, N (log.take n) log[n] := by
  constructor
  · rintro ⟨before, e, later, rfl, hN⟩
    exact ⟨⟨before.length, by simp⟩, by simpa using hN⟩
  · rintro ⟨n, hN⟩
    exact ⟨log.take n, log[n], log.drop (n + 1), by simp, hN⟩

instance {N : List (Event C R) → Event C R → Prop} [∀ before e, Decidable (N before e)]
    (log : List (Event C R)) : Decidable (Occurs N log) := decidable_of_iff' _ occurs_iff_getElem

/-- Requests in flight over a shared state. -/
structure Config (C : Type) (R : C → Type) (σ Req Out : Type) extends World C R σ where
  tasks : List (Req × Prog C R Out)

namespace Config

def request (c : Config C R σ Req Out) (i : Nat) : Option Req := c.tasks[i]?.map Prod.fst

variable {c : Config C R σ Req Out} {i : Nat} {r : Req} {p : Prog C R Out}

theorem request_eq (h : c.tasks[i]? = some (r, p)) : c.request i = some r := by simp [request, h]

theorem request_set (h : c.tasks[i]? = some (r, p)) (w : World C R σ) (q : Prog C R Out) (j : Nat) :
    request ⟨w, c.tasks.set i (r, q)⟩ j = c.request j := by
  rcases eq_or_ne i j with rfl | hne
  · simp [request, h, List.getElem?_set_self (List.getElem?_eq_some_iff.mp h).1]
  · simp [request, List.getElem?_set_ne hne]

theorem request_spawn (h : i < c.tasks.length) (t : Req × Prog C R Out) :
    request { c with tasks := c.tasks ++ [t] } i = c.request i := by
  simp [request, List.getElem?_append_left h]

end Config

/-- `exec` answers one command atomically. Its first argument holds the choices that
are not the program's (fresh identifiers, the clock); `none` rejects a choice. -/
structure System (C : Type) (R : C → Type) (σ Ω Req Out : Type) where
  exec : Ω → (c : C) → σ → Option (R c × σ)
  tick : Ω → σ → Option σ
  handler : Req → Prog C R Out

inductive Act (Req Ω : Type) where
  | spawn (r : Req)
  | step (i : Nat) (ω : Ω)
  | tick (ω : Ω)

namespace System

variable (S : System C R σ Ω Req Out)

def start (s : σ) : Config C R σ Req Out := ⟨⟨s, []⟩, []⟩

/-- One move of the system: a request arrives, some task executes its next
command, or the environment acts. -/
def apply : Act Req Ω → Config C R σ Req Out → Option (Config C R σ Req Out)
  | .spawn r, c => some { c with tasks := c.tasks ++ [(r, S.handler r)] }
  | .step i ω, c =>
    match c.tasks[i]? with
    | some (r, .call cmd k) => (S.exec ω cmd c.db).map (fun out =>
        ⟨c.after i cmd out.1 out.2, c.tasks.set i (r, k out.1)⟩)
    | _ => none
  | .tick ω, c => (S.tick ω c.db).map (fun s => { c with db := s })

variable {S}

/-- All that one move can do. -/
theorem apply_cases {a : Act Req Ω} {c d : Config C R σ Req Out} (h : S.apply a c = some d) :
    (∃ r, a = .spawn r ∧ d = { c with tasks := c.tasks ++ [(r, S.handler r)] }) ∨
    (∃ i ω r cmd k ans s, a = .step i ω ∧ c.tasks[i]? = some (r, .call cmd k) ∧
      S.exec ω cmd c.db = some (ans, s) ∧
      d = ⟨c.after i cmd ans s, c.tasks.set i (r, k ans)⟩) ∨
    (∃ ω s, a = .tick ω ∧ S.tick ω c.db = some s ∧ d = { c with db := s }) := by
  cases a with
  | spawn r => exact .inl ⟨r, rfl, (Option.some.inj h).symm⟩
  | step i ω =>
    refine .inr (.inl ?_)
    simp only [apply] at h
    split at h
    · next r cmd k ht =>
      obtain ⟨⟨ans, s⟩, he, rfl⟩ := Option.map_eq_some_iff.mp h
      exact ⟨i, ω, r, cmd, k, ans, s, rfl, ht, he, rfl⟩
    · cases h
  | tick ω =>
    obtain ⟨s, hs, rfl⟩ := Option.map_eq_some_iff.mp h
    exact .inr (.inr ⟨ω, s, rfl, hs, rfl⟩)

variable (S) in
/-- The configurations that a list of moves passes through. It stops at a
move that is not possible. -/
def trace : List (Act Req Ω) → Config C R σ Req Out → List (Config C R σ Req Out)
  | [], c => [c]
  | a :: as, c => c :: match S.apply a c with
    | none => []
    | some d => trace as d

variable (S) in
/-- Every move made along the list satisfies `P` where it is made. -/
def Every (P : Config C R σ Req Out → Act Req Ω → Prop) :
    List (Act Req Ω) → Config C R σ Req Out → Prop
  | [], _ => True
  | a :: as, c => match S.apply a c with
    | none => True
    | some d => P c a ∧ Every P as d

section Congr

variable {handler : Req → Prog C R Out} {as : List (Act Req Ω)}

theorem apply_congr {a : Act Req Ω} (h : ∀ r, a = .spawn r → S.handler r = handler r)
    (c : Config C R σ Req Out) : S.apply a c = { S with handler }.apply a c := by
  cases a with
  | spawn r => simp only [apply, h r rfl]
  | step i ω => rfl
  | tick ω => rfl

/-- A run depends on the handler only where requests arrive. -/
theorem trace_congr (h : ∀ r, .spawn r ∈ as → S.handler r = handler r)
    (c : Config C R σ Req Out) : S.trace as c = { S with handler }.trace as c := by
  induction as generalizing c with
  | nil => rfl
  | cons a as ih =>
    simp only [trace, apply_congr (fun r ha => h r (ha ▸ List.mem_cons_self)) c]
    cases { S with handler }.apply a c with
    | none => rfl
    | some d => exact congrArg (c :: ·) (ih (fun r hr => h r (List.mem_cons_of_mem a hr)) d)

theorem every_congr (h : ∀ r, .spawn r ∈ as → S.handler r = handler r)
    (c : Config C R σ Req Out) : S.Every P as c ↔ { S with handler }.Every P as c := by
  induction as generalizing c with
  | nil => exact Iff.rfl
  | cons a as ih =>
    simp only [Every, apply_congr (fun r ha => h r (ha ▸ List.mem_cons_self)) c]
    cases { S with handler }.apply a c with
    | none => exact Iff.rfl
    | some d => exact and_congr_right fun _ => ih (fun r hr => h r (List.mem_cons_of_mem a hr)) d

end Congr

theorem every_of_forall (h : ∀ c a, P c a) (as : List (Act Req Ω)) (c : Config C R σ Req Out) :
    S.Every P as c := by
  induction as generalizing c with
  | nil => trivial
  | cons a as ih =>
    rw [Every]
    split
    · trivial
    · exact ⟨h c a, ih _⟩

theorem Every.mono {Q : Config C R σ Req Out → Act Req Ω → Prop} (hPQ : ∀ c a, P c a → Q c a)
    {as : List (Act Req Ω)} (h : S.Every P as c) : S.Every Q as c := by
  induction as generalizing c with
  | nil => trivial
  | cons a as ih =>
    simp only [Every] at h ⊢
    split
    · trivial
    · next d hd =>
      rw [hd] at h
      exact ⟨hPQ c a h.1, ih h.2⟩

instance instDecidableEvery [∀ c a, Decidable (P c a)] :
    (as : List (Act Req Ω)) → (c : Config C R σ Req Out) → Decidable (S.Every P as c)
  | [], _ => .isTrue trivial
  | a :: as, c =>
    match h : S.apply a c with
    | none => .isTrue (by simp [Every, h])
    | some d =>
      have : Decidable (S.Every P as d) := instDecidableEvery as d
      decidable_of_iff (P c a ∧ S.Every P as d) (by simp [Every, h])

variable (S) in
/-- `Reach P c d`: some run leads from `c` to `d` with moves that satisfy `P`. -/
inductive Reach (P : Config C R σ Req Out → Act Req Ω → Prop) (c : Config C R σ Req Out) :
    Config C R σ Req Out → Prop where
  | refl : Reach P c c
  | tail {d e a} : Reach P c d → P d a → S.apply a d = some e → Reach P c e

variable {P : Config C R σ Req Out → Act Req Ω → Prop} {c d e : Config C R σ Req Out}

theorem Reach.trans (h : S.Reach P c d) (h' : S.Reach P d e) : S.Reach P c e := by
  induction h' with
  | refl => exact h
  | tail _ hp ha ih => exact ih.tail hp ha

theorem Reach.invariant {J : Config C R σ Req Out → Prop}
    (step : ∀ {c a d}, J c → P c a → S.apply a c = some d → J d)
    (h : S.Reach P c d) (hc : J c) : J d := by
  induction h with
  | refl => exact hc
  | tail _ hp ha ih => exact step ih hp ha

variable (S) in
/-- Where a list of moves leads when the impossible ones are skipped. -/
def run : List (Act Req Ω) → Config C R σ Req Out → Config C R σ Req Out
  | [], c => c
  | a :: as, c => run as ((S.apply a c).getD c)

theorem reach_run (as : List (Act Req Ω)) (c : Config C R σ Req Out) :
    S.Reach (fun _ _ => True) c (S.run as c) := by
  induction as generalizing c with
  | nil => exact .refl
  | cons a as ih =>
    rw [run]
    cases ha : S.apply a c with
    | none => exact ih c
    | some d => exact (Reach.refl.tail trivial ha).trans (ih d)

theorem mem_trace_self (as : List (Act Req Ω)) (c : Config C R σ Req Out) : c ∈ S.trace as c := by
  cases as <;> simp [trace]

/-- A list of moves reaches what it passes through. -/
theorem reach_of_mem_trace {as : List (Act Req Ω)} (h : S.Every P as c) (hd : d ∈ S.trace as c) :
    S.Reach P c d := by
  induction as generalizing c with
  | nil =>
    obtain rfl : d = c := by simpa [trace] using hd
    exact .refl
  | cons a as ih =>
    simp only [trace, List.mem_cons] at hd
    rcases hd with rfl | hd
    · exact .refl
    · simp only [Every] at h
      cases ha : S.apply a c with
      | none => simp [ha] at hd
      | some e =>
        simp only [ha] at h hd
        exact (Reach.refl.tail h.1 ha).trans (ih h.2 hd)

theorem reach_of_trace {as : List (Act Req Ω)} {m n : Nat} (h : S.Every P as c) (hmn : m ≤ n)
    (hd : (S.trace as c)[m]? = some d) (he : (S.trace as c)[n]? = some e) : S.Reach P d e := by
  induction as generalizing c m n with
  | nil =>
    obtain ⟨-, rfl⟩ := List.getElem?_eq_some_iff.mp hd
    obtain ⟨-, rfl⟩ := List.getElem?_eq_some_iff.mp he
    simp only [trace, List.getElem_singleton]
    exact .refl
  | cons a as ih =>
    cases m with
    | zero =>
      obtain rfl : c = d := by simpa [trace] using hd
      exact reach_of_mem_trace h (List.mem_of_getElem? he)
    | succ m =>
      obtain ⟨n, rfl⟩ : ∃ k, n = k + 1 := ⟨n - 1, by omega⟩
      simp only [trace, List.getElem?_cons_succ, Every] at h hd he
      cases ha : S.apply a c with
      | none => simp [ha] at hd
      | some c' =>
        simp only [ha] at h hd he
        exact ih h.2 (Nat.le_of_succ_le_succ hmn) hd he

/-- What all moves between two states of a run preserve, relates these states. -/
theorem Every.pairwise {K : Config C R σ Req Out → Config C R σ Req Out → Prop}
    (refl : ∀ c, K c c)
    (step : ∀ {c d e a}, K c d → P d a → S.apply a d = some e → K c e)
    {as : List (Act Req Ω)} (h : S.Every P as c) : (S.trace as c).Pairwise K := by
  have hreach : ∀ {d e}, S.Reach P d e → K d e := by
    intro d e hr
    induction hr with
    | refl => exact refl d
    | tail _ hp ha ih => exact step ih hp ha
  rw [List.pairwise_iff_getElem]
  intro m n hm hn hmn
  exact hreach (reach_of_trace h (Nat.le_of_lt hmn) (List.getElem?_eq_getElem hm)
    (List.getElem?_eq_getElem hn))

/-- What holds of the moves that satisfy `P` where a run can get with such moves. -/
theorem Every.mono_of_reach {Q : Config C R σ Req Out → Act Req Ω → Prop}
    (hPQ : ∀ {d e a}, S.Reach P c d → P d a → S.apply a d = some e → Q d a)
    {as : List (Act Req Ω)} (h : S.Every P as c) : S.Every Q as c := by
  suffices hall : ∀ d, S.Reach P c d → S.Every P as d → S.Every Q as d from hall c .refl h
  clear h
  induction as with
  | nil => exact fun _ _ _ => trivial
  | cons a as ih =>
    intro d hd h
    simp only [Every] at h ⊢
    cases ha : S.apply a d with
    | none => trivial
    | some e =>
      simp only [ha] at h
      exact ⟨hPQ hd h.1 ha, ih e (hd.tail h.1 ha) h.2⟩

/-- Neighbours in a trace are one move apart. -/
theorem apply_of_trace {as : List (Act Req Ω)} {m : Nat} (h : S.Every P as c)
    (hd : (S.trace as c)[m]? = some d) (he : (S.trace as c)[m + 1]? = some e) :
    ∃ a, P d a ∧ S.apply a d = some e := by
  induction as generalizing c m with
  | nil => simp [trace] at he
  | cons a as ih =>
    simp only [trace, List.getElem?_cons_succ, Every] at h hd he
    cases ha : S.apply a c with
    | none => simp [ha] at he
    | some c' =>
      simp only [ha] at h hd he
      cases m with
      | zero =>
        obtain rfl : c = d := by simpa using hd
        obtain rfl : c' = e := by cases as <;> simpa [trace] using he
        exact ⟨a, h.1, ha⟩
      | succ m => exact ih h.2 hd he

/-- Conditions that agree on the moves from states that satisfy the invariant. -/
theorem every_iff_every {Q : Config C R σ Req Out → Act Req Ω → Prop}
    {J : Config C R σ Req Out → Prop} (inv : ∀ {c a d}, J c → S.apply a c = some d → J d)
    (step : ∀ {c a d}, J c → S.apply a c = some d → (P c a ↔ Q c a))
    (as : List (Act Req Ω)) (hJ : J c) : S.Every P as c ↔ S.Every Q as c := by
  induction as generalizing c with
  | nil => exact Iff.rfl
  | cons a as ih =>
    simp only [Every]
    cases ha : S.apply a c with
    | none => exact Iff.rfl
    | some d => exact and_congr (step hJ ha) (ih (inv hJ ha))

/-- Moves that lead to good states satisfy `P`. -/
theorem every_of_trace {J G : Config C R σ Req Out → Prop}
    (inv : ∀ {c a d}, J c → S.apply a c = some d → J d)
    (step : ∀ {c a d}, J c → S.apply a c = some d → G d → P c a)
    (as : List (Act Req Ω)) (hJ : J c) (h : ∀ d ∈ S.trace as c, G d) : S.Every P as c := by
  induction as generalizing c with
  | nil => trivial
  | cons a as ih =>
    simp only [Every, trace, List.forall_mem_cons] at h ⊢
    cases ha : S.apply a c with
    | none => trivial
    | some d =>
      simp only [ha] at h
      exact ⟨step hJ ha (h.2 d (mem_trace_self as d)), ih (inv hJ ha) h.2⟩

/-- Where one good state leads to a good state exactly if the move satisfies `P`,
all states of a run are good exactly if all its moves satisfy `P`. -/
theorem every_iff_forall {J G : Config C R σ Req Out → Prop}
    (inv : ∀ {c a d}, J c → S.apply a c = some d → J d)
    (step : ∀ {c a d}, J c → G c → S.apply a c = some d → (P c a ↔ G d))
    (as : List (Act Req Ω)) (hJ : J c) (hG : G c) :
    S.Every P as c ↔ ∀ d ∈ S.trace as c, G d := by
  induction as generalizing c with
  | nil => simpa [Every, trace] using hG
  | cons a as ih =>
    simp only [Every, trace, List.forall_mem_cons, hG, true_and]
    cases ha : S.apply a c with
    | none => simp
    | some d =>
      constructor
      · rintro ⟨hp, hr⟩
        have hd := (step hJ hG ha).mp hp
        exact (ih (inv hJ ha) hd).mp hr
      · intro h
        have hd := h d (mem_trace_self as d)
        exact ⟨(step hJ hG ha).mpr hd, (ih (inv hJ ha) hd).mpr h⟩

/-- The same for a transitive relation between the earlier and the later states of a run. -/
theorem every_iff_pairwise {J : Config C R σ Req Out → Prop}
    {K : Config C R σ Req Out → Config C R σ Req Out → Prop}
    (inv : ∀ {c a d}, J c → S.apply a c = some d → J d)
    (trans : ∀ {c d e}, K c d → K d e → K c e)
    (step : ∀ {c a d}, J c → S.apply a c = some d → (P c a ↔ K c d))
    (as : List (Act Req Ω)) (hJ : J c) :
    S.Every P as c ↔ (S.trace as c).Pairwise K := by
  induction as generalizing c with
  | nil => simp [Every, trace]
  | cons a as ih =>
    simp only [Every, trace, List.pairwise_cons]
    cases ha : S.apply a c with
    | none => simp
    | some d =>
      change (P c a ∧ S.Every P as d) ↔
        (∀ e ∈ S.trace as d, K c e) ∧ (S.trace as d).Pairwise K
      rw [ih (inv hJ ha), step hJ ha]
      refine and_congr_left fun hr => ⟨fun hcd e he => ?_, fun h => h d (mem_trace_self as d)⟩
      cases as with
      | nil =>
        obtain rfl : e = d := by simpa [trace] using he
        exact hcd
      | cons b bs =>
        simp only [trace, List.mem_cons] at he hr
        rcases he with rfl | he
        · exact hcd
        · exact trans hcd ((List.pairwise_cons.mp hr).1 e he)

end System

/-- The shared state satisfies `J`, and every task its own assertion `T`. -/
def Config.Meets (J : World C R σ → Prop) (T : Nat → World C R σ → Req → Prog C R Out → Prop)
    (c : Config C R σ Req Out) : Prop :=
  J c.toWorld ∧ ∀ i r p, c.tasks[i]? = some (r, p) → T i c.toWorld r p

/-- A proof outline: what a task knows at each of its await points survives
its own commands and the commands of the other tasks. -/
structure Outline (S : System C R σ Ω Req Out) (P : Config C R σ Req Out → Act Req Ω → Prop)
    (J : World C R σ → Prop) (T : Nat → World C R σ → Req → Prog C R Out → Prop) : Prop where
  spawn : ∀ {w} i r, J w → T i w r (S.handler r)
  step : ∀ {c : Config C R σ Req Out} {i ω r cmd k ans s}, c.Meets J T → P c (.step i ω) →
    c.tasks[i]? = some (r, .call cmd k) → S.exec ω cmd c.db = some (ans, s) →
    J (c.after i cmd ans s) ∧ T i (c.after i cmd ans s) r (k ans) ∧
      ∀ j r' p, j ≠ i → T j c.toWorld r' p → T j (c.after i cmd ans s) r' p
  tick : ∀ {c : Config C R σ Req Out} {ω s}, c.Meets J T → P c (.tick ω) →
    S.tick ω c.db = some s →
    J { c.toWorld with db := s } ∧
      ∀ j r p, T j c.toWorld r p → T j { c.toWorld with db := s } r p

namespace Outline

variable {S : System C R σ Ω Req Out} {P : Config C R σ Req Out → Act Req Ω → Prop}
  {J : World C R σ → Prop} {T : Nat → World C R σ → Req → Prog C R Out → Prop}
  {c d : Config C R σ Req Out}

theorem apply (O : Outline S P J T) {a : Act Req Ω} (hc : c.Meets J T) (hp : P c a)
    (ha : S.apply a c = some d) : d.Meets J T := by
  obtain ⟨r, rfl, rfl⟩ | ⟨i, ω, r, cmd, k, ans, s, rfl, ht, he, rfl⟩ | ⟨ω, s, rfl, hs, rfl⟩ :=
    System.apply_cases ha
  · refine ⟨hc.1, fun j r' p hj => ?_⟩
    rw [List.getElem?_append] at hj
    split at hj
    · exact hc.2 j r' p hj
    · obtain ⟨hlt, heq⟩ := List.getElem?_eq_some_iff.mp hj
      rw [List.getElem_singleton, Prod.mk.injEq] at heq
      obtain ⟨rfl, rfl⟩ := heq
      exact O.spawn j r hc.1
  · obtain ⟨hJ, hT, hrest⟩ := O.step hc hp ht he
    refine ⟨hJ, fun j r' p hj => ?_⟩
    rcases eq_or_ne i j with rfl | hne
    · rw [List.getElem?_set_self (List.getElem?_eq_some_iff.mp ht).1, Option.some.injEq,
        Prod.mk.injEq] at hj
      obtain ⟨rfl, rfl⟩ := hj
      exact hT
    · rw [List.getElem?_set_ne hne] at hj
      exact hrest j r' p hne.symm (hc.2 j r' p hj)
  · obtain ⟨hJ, hT⟩ := O.tick hc hp hs
    exact ⟨hJ, fun j r p hj => hT j r p (hc.2 j r p hj)⟩

theorem start (hJ : J ⟨s, []⟩) : (System.start s : Config C R σ Req Out).Meets J T :=
  ⟨hJ, fun i r p h => by simp [System.start] at h⟩

/-- The rule for whole runs. -/
theorem reach (O : Outline S P J T) (hc : c.Meets J T) (h : S.Reach P c d) : d.Meets J T :=
  h.invariant (fun hm hp ha => O.apply hm hp ha) hc

/-- What the handlers can issue, the tasks can issue at every point. -/
theorem issues {Q : C → Prop} (h : ∀ r, (S.handler r).Issues Q) :
    Outline S P (fun _ => True) (fun _ _ _ p => p.Issues Q) where
  spawn _ r _ := h r
  step hc _ ht _ := ⟨trivial, (hc.2 _ _ _ ht).2 _, fun _ _ _ _ hp => hp⟩
  tick _ _ _ := ⟨trivial, fun _ _ _ hp => hp⟩

end Outline

namespace System

variable {S : System C R σ Ω Req Out} {P : Config C R σ Req Out → Act Req Ω → Prop}
  {c d : Config C R σ Req Out}

/-- What is left of a task is determined by its request and its own history. -/
def Replays (S : System C R σ Ω Req Out) (c : Config C R σ Req Out) : Prop :=
  (∀ e ∈ c.log, e.task < c.tasks.length) ∧
    ∀ i r p, c.tasks[i]? = some (r, p) → Prog.Ran (S.handler r) (c.history i) p

theorem replays_apply {a : Act Req Ω} (hc : S.Replays c) (ha : S.apply a c = some d) :
    S.Replays d := by
  obtain ⟨r, rfl, rfl⟩ | ⟨i, ω, r, cmd, k, ans, s, rfl, ht, he, rfl⟩ | ⟨ω, s, rfl, hs, rfl⟩ :=
    apply_cases ha
  · refine ⟨fun e he => ?_, fun j r' p hj => ?_⟩
    · have := hc.1 e he
      simp only [List.length_append, List.length_singleton]
      omega
    · rw [List.getElem?_append] at hj
      split at hj
      · exact hc.2 j r' p hj
      · next hlt =>
        obtain ⟨_, heq⟩ := List.getElem?_eq_some_iff.mp hj
        rw [List.getElem_singleton, Prod.mk.injEq] at heq
        obtain ⟨rfl, rfl⟩ := heq
        have hnone : c.history j = [] := by
          simp only [World.history, eventsOf, List.map_eq_nil_iff, List.filter_eq_nil_iff,
            decide_eq_true_eq]
          intro e he hej
          exact hlt (hej ▸ hc.1 e he)
        change Prog.Ran _ (c.history j) _
        rw [hnone]
        exact .nil _
  · have hi := (List.getElem?_eq_some_iff.mp ht).1
    refine ⟨fun e he => ?_, fun j r' p hj => ?_⟩
    · rw [List.length_set]
      rcases List.mem_append.mp he with he | he
      · exact hc.1 e he
      · rw [List.mem_singleton.mp he]
        exact hi
    · change Prog.Ran _ ((c.after i cmd ans s).history j) _
      rw [World.history_after]
      rcases eq_or_ne i j with rfl | hne
      · rw [List.getElem?_set_self hi, Option.some.injEq, Prod.mk.injEq] at hj
        obtain ⟨rfl, rfl⟩ := hj
        simpa using (hc.2 _ _ _ ht).snoc ans
      · rw [List.getElem?_set_ne hne] at hj
        simpa [hne] using hc.2 j r' p hj
  · exact hc

theorem replays_start (s : σ) : S.Replays (start s) :=
  ⟨by simp [start], fun i r p h => by simp [start] at h⟩

theorem Reach.replays {s : σ} (h : S.Reach P (start s) c) : S.Replays c :=
  h.invariant (fun hc _ ha => replays_apply hc ha) (replays_start s)

/-- A command in the log was issued by the request of its task. -/
theorem Replays.origin (hc : S.Replays c) {Q : Req → C → Prop}
    (h : ∀ r, (S.handler r).Issues (Q r)) {i : Nat} {cmd : C} {ans : R cmd}
    (he : ⟨i, cmd, ans⟩ ∈ c.log) : ∃ r p, c.tasks[i]? = some (r, p) ∧ Q r cmd := by
  have hlt := hc.1 _ he
  obtain ⟨⟨r, p⟩, ht⟩ : ∃ t, c.tasks[i]? = some t := ⟨_, List.getElem?_eq_getElem hlt⟩
  exact ⟨r, p, ht, ((hc.2 i r p ht).issues (h r)).1 _ (World.mem_history.mpr he)⟩

section Follows

variable {N : Req → List ((c : C) × R c) → C → Prop} {Q : Req → List ((c : C) × R c) → Out → Prop}

theorem Replays.follows (hc : S.Replays c) (h : ∀ r, (S.handler r).Follows (N r) (Q r) [])
    {i : Nat} {r : Req} {p : Prog C R Out} (ht : c.tasks[i]? = some (r, p)) :
    p.Follows (N r) (Q r) (c.history i) := by
  simpa using (hc.2 i r p ht).follows (h r)

/-- A command in the log was in accordance with its request. -/
theorem Replays.followed (hc : S.Replays c) (h : ∀ r, (S.handler r).Follows (N r) (Q r) [])
    {before later : List (Event C R)} {i : Nat} {cmd : C} {ans : R cmd}
    (hlog : c.log = before ++ ⟨i, cmd, ans⟩ :: later) :
    ∃ r p, c.tasks[i]? = some (r, p) ∧ N r (eventsOf i before) cmd := by
  obtain ⟨⟨r, p⟩, ht⟩ : ∃ t, c.tasks[i]? = some t :=
    ⟨_, List.getElem?_eq_getElem (hc.1 ⟨i, cmd, ans⟩ (by simp [hlog]))⟩
  have hran := hc.2 i r p ht
  have hhist : c.history i = eventsOf i before ++ ⟨cmd, ans⟩ :: eventsOf i later := by
    rw [World.history, hlog, eventsOf_append]
    simp [eventsOf]
  rw [hhist] at hran
  exact ⟨r, p, ht, by simpa using hran.followed (h r)⟩

/-- The rule for invariants of tasks that follow a protocol. -/
theorem Reach.preserves {s : σ} {J : Config C R σ Req Out → Prop}
    (hspec : ∀ r, (S.handler r).Follows (N r) (Q r) []) (hstart : J (start s))
    (spawn : ∀ {c : Config C R σ Req Out} (r), S.Replays c → J c →
      J { c with tasks := c.tasks ++ [(r, S.handler r)] })
    (step : ∀ {c : Config C R σ Req Out} {i ω r cmd k ans s}, S.Replays c → J c →
      P c (.step i ω) → c.tasks[i]? = some (r, .call cmd k) → N r (c.history i) cmd →
      S.exec ω cmd c.db = some (ans, s) →
      S.Replays ⟨c.after i cmd ans s, c.tasks.set i (r, k ans)⟩ →
      J ⟨c.after i cmd ans s, c.tasks.set i (r, k ans)⟩)
    (tick : ∀ {c : Config C R σ Req Out} {ω s}, J c → P c (.tick ω) → S.tick ω c.db = some s →
      J { c with db := s })
    (h : S.Reach P (start s) c) : J c := by
  refine (h.invariant (J := fun c => S.Replays c ∧ J c) ?_ ⟨replays_start s, hstart⟩).2
  intro c a d ⟨hr, hJ⟩ hp ha
  refine ⟨replays_apply hr ha, ?_⟩
  obtain ⟨r, rfl, rfl⟩ | ⟨i, ω, r, cmd, k, ans, s, rfl, ht, he, rfl⟩ | ⟨ω, s, rfl, hs, rfl⟩ :=
    apply_cases ha
  · exact spawn r hr hJ
  · exact step hr hJ hp ht (hr.follows hspec ht).1 he (replays_apply hr ha)
  · exact tick hJ hp hs

end Follows

/-- A request arrives only when the others have finished. -/
def Alone (c : Config C R σ Req Out) : Act Req Ω → Prop
  | .spawn _ => ∀ t ∈ c.tasks, t.2.finished
  | _ => True

instance (c : Config C R σ Req Out) : (a : Act Req Ω) → Decidable (Alone c a)
  | .spawn _ => inferInstanceAs (Decidable (∀ t ∈ c.tasks, t.2.finished))
  | .step .. | .tick _ => .isTrue trivial

/-- The tasks run one after the other. -/
structure Serial (c : Config C R σ Req Out) : Prop where
  finished : ∀ i r p, c.tasks[i]? = some (r, p) → i + 1 < c.tasks.length → p.finished
  sorted : c.log.Pairwise (fun e e' => e.task ≤ e'.task)

theorem Serial.le_of_unfinished (hc : Serial c) {i j : Nat} {r : Req} {p : Prog C R Out}
    (hi : c.tasks[i]? = some (r, p)) (hp : p.finished = false) (hj : j < c.tasks.length) : j ≤ i := by
  by_contra hlt
  have := hc.finished i r p hi (by omega)
  simp [hp] at this

theorem serial_apply {a : Act Req Ω} (hr : S.Replays c) (hc : Serial c) (hp : Alone c a)
    (ha : S.apply a c = some d) : Serial d := by
  obtain ⟨r, rfl, rfl⟩ | ⟨i, ω, r, cmd, k, ans, s, rfl, ht, he, rfl⟩ | ⟨ω, s, rfl, hs, rfl⟩ :=
    apply_cases ha
  · refine ⟨fun i r' p hi hlt => ?_, hc.sorted⟩
    rw [List.length_append, List.length_singleton, Nat.add_lt_add_iff_right] at hlt
    rw [List.getElem?_append_left hlt] at hi
    exact hp _ (List.mem_of_getElem? hi)
  · refine ⟨fun j r' p hj hlt => ?_, ?_⟩
    · rw [List.length_set] at hlt
      -- only the last task can still be unfinished, and this one is
      have hle := hc.le_of_unfinished ht rfl (Nat.lt_of_lt_of_le hlt (Nat.le_refl _))
      rw [List.getElem?_set_ne (by omega)] at hj
      exact hc.finished j r' p hj hlt
    · refine List.pairwise_append.mpr ⟨hc.sorted, List.pairwise_singleton _ _, fun e he e' he' => ?_⟩
      rw [List.mem_singleton.mp he']
      exact hc.le_of_unfinished ht rfl (hr.1 e he)
  · exact ⟨hc.finished, hc.sorted⟩

theorem Reach.serial {s : σ} (hP : ∀ c a, P c a → Alone c a) (h : S.Reach P (start s) c) :
    Serial c := by
  refine (h.invariant (J := fun c => S.Replays c ∧ Serial c)
    (fun hc hp ha => ⟨replays_apply hc.1 ha, serial_apply hc.1 hc.2 (hP _ _ hp) ha⟩) ?_).2
  exact ⟨replays_start s, fun i r p h => by simp [start] at h, .nil⟩

/-- Every answer in the log was given by `exec` in a world that some run leads to. -/
theorem Reach.explained {s : σ} {J : World C R σ → Prop}
    (hJ : ∀ {c}, S.Reach P (start s) c → J c.toWorld) (h : S.Reach P (start s) c) :
    Backed (fun before e => ∃ ω db db', J ⟨db, before⟩ ∧
      S.exec ω e.cmd db = some (e.ans, db')) c.log := by
  induction h with
  | refl => exact backed_nil _
  | tail hc _ ha ih =>
    obtain ⟨r, rfl, rfl⟩ | ⟨i, ω, r, cmd, k, ans, s, rfl, ht, he, rfl⟩ | ⟨ω, s, rfl, hs, rfl⟩ :=
      apply_cases ha
    · exact ih
    · exact ih.snoc ⟨ω, _, s, hJ hc, he⟩
    · exact ih

end System

end Mesty.Concurrency.Pool
