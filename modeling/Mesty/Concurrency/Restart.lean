import Mesty.Concurrency.Program

namespace Mesty.Concurrency.Restart

open Mesty.Concurrency.Program

variable {C : Type} {R : C → Type} {σ Ω Req Out : Type}

/-- A process runs `boot` when it starts and serves requests after that. The store
outlives it, and its tasks do not. -/
structure Service (C : Type) (R : C → Type) (σ Ω Req Out : Type) where
  exec : Ω → (c : C) → σ → Option (R c × σ)
  boot : Prog C R Unit
  handler : Req → Prog C R Out

inductive Phase (C : Type) (R : C → Type) (Out : Type) where
  | down
  | starting (main : Prog C R Unit)
  | serving (tasks : List (Prog C R Out))

structure Host (C : Type) (R : C → Type) (σ Out : Type) where
  db : σ
  phase : Phase C R Out

inductive Act (Req Ω : Type) where
  | start
  | boot (ω : Ω)
  | serve
  | spawn (r : Req)
  | step (i : Nat) (ω : Ω)
  | stop

/-- The command that a move executes. -/
def Host.next (h : Host C R σ Out) : Act Req Ω → Option C
  | .boot _ => match h.phase with
    | .starting main => main.next
    | _ => none
  | .step i _ => match h.phase with
    | .serving tasks => tasks[i]?.bind Prog.next
    | _ => none
  | _ => none

@[simp] theorem Host.next_boot (db : σ) (main : Prog C R Unit) (ω : Ω) :
    (⟨db, .starting main⟩ : Host C R σ Out).next (.boot ω : Act Req Ω) = main.next := rfl

theorem Host.next_step {db : σ} {tasks : List (Prog C R Out)} {i : Nat} {t : Prog C R Out}
    (ht : tasks[i]? = some t) (ω : Ω) :
    (⟨db, .serving tasks⟩ : Host C R σ Out).next (.step i ω : Act Req Ω) = t.next := by
  simp [next, ht]

namespace Service

variable (S : Service C R σ Ω Req Out)

/-- One move. A process can stop at any time, and a new one can start when it has. -/
def apply : Act Req Ω → Host C R σ Out → Option (Host C R σ Out)
  | .start, ⟨db, .down⟩ => some ⟨db, .starting S.boot⟩
  | .boot ω, ⟨db, .starting (.call c k)⟩ =>
    (S.exec ω c db).map (fun out => ⟨out.2, .starting (k out.1)⟩)
  | .serve, ⟨db, .starting (.ret ())⟩ => some ⟨db, .serving []⟩
  | .spawn r, ⟨db, .serving tasks⟩ => some ⟨db, .serving (tasks ++ [S.handler r])⟩
  | .step i ω, ⟨db, .serving tasks⟩ =>
    match tasks[i]? with
    | some (.call c k) =>
      (S.exec ω c db).map (fun out => ⟨out.2, .serving (tasks.set i (k out.1))⟩)
    | _ => none
  | .stop, h => some ⟨h.db, .down⟩
  | _, _ => none

/-- All that one move can do. -/
inductive Moves : Host C R σ Out → Act Req Ω → Host C R σ Out → Prop where
  | start (db : σ) : Moves ⟨db, .down⟩ .start ⟨db, .starting S.boot⟩
  | boot {ω : Ω} {c : C} {k : R c → Prog C R Unit} {db db' : σ} {r : R c}
      (he : S.exec ω c db = some (r, db')) :
      Moves ⟨db, .starting (.call c k)⟩ (.boot ω) ⟨db', .starting (k r)⟩
  | serve (db : σ) : Moves ⟨db, .starting (.ret ())⟩ .serve ⟨db, .serving []⟩
  | spawn (db : σ) (tasks : List (Prog C R Out)) (r : Req) :
      Moves ⟨db, .serving tasks⟩ (.spawn r) ⟨db, .serving (tasks ++ [S.handler r])⟩
  | step {i : Nat} {ω : Ω} {c : C} {k : R c → Prog C R Out} {tasks : List (Prog C R Out)}
      {db db' : σ} {r : R c} (ht : tasks[i]? = some (.call c k))
      (he : S.exec ω c db = some (r, db')) :
      Moves ⟨db, .serving tasks⟩ (.step i ω) ⟨db', .serving (tasks.set i (k r))⟩
  | stop (db : σ) (phase : Phase C R Out) : Moves ⟨db, phase⟩ .stop ⟨db, .down⟩

variable {S} {h h' : Host C R σ Out} {a : Act Req Ω}

theorem moves_of_apply (ha : S.apply a h = some h') : S.Moves h a h' := by
  obtain ⟨db, phase⟩ := h
  cases a with
  | start =>
    cases phase with
    | down => exact Option.some.inj ha ▸ .start db
    | starting | serving => cases ha
  | boot ω =>
    obtain _ | ⟨_ | ⟨c, k⟩⟩ | _ := phase
    · cases ha
    · cases ha
    · obtain ⟨⟨r, db'⟩, he, rfl⟩ := Option.map_eq_some_iff.mp ha
      exact .boot he
    · cases ha
  | serve =>
    obtain _ | ⟨⟨⟩ | _⟩ | _ := phase
    · cases ha
    · exact Option.some.inj ha ▸ .serve db
    · cases ha
    · cases ha
  | spawn r =>
    cases phase with
    | serving tasks => exact Option.some.inj ha ▸ .spawn db tasks r
    | down | starting => cases ha
  | step i ω =>
    cases phase with
    | serving tasks =>
      simp only [apply] at ha
      split at ha
      · next c k ht =>
        obtain ⟨⟨r, db'⟩, he, rfl⟩ := Option.map_eq_some_iff.mp ha
        exact .step ht he
      · cases ha
    | down | starting => cases ha
  | stop => exact Option.some.inj ha ▸ .stop db phase

variable (S) in
def run : List (Act Req Ω) → Host C R σ Out → Option (Host C R σ Out)
  | [], h => some h
  | a :: as, h => (S.apply a h).bind (run as)

variable (S) in
/-- Every move made along the list satisfies `P` where it is made. -/
def Every (P : Host C R σ Out → Act Req Ω → Prop) : List (Act Req Ω) → Host C R σ Out → Prop
  | [], _ => True
  | a :: as, h => P h a ∧ ∀ h' ∈ S.apply a h, Every P as h'

variable {P : Host C R σ Out → Act Req Ω → Prop} {J G : Host C R σ Out → Prop}
  {as : List (Act Req Ω)}

theorem invariant_run (inv : ∀ {h a h'}, J h → S.Moves h a h' → J h') (hJ : J h)
    (hrun : S.run as h = some h') : J h' := by
  induction as generalizing h with
  | nil => exact Option.some.inj hrun ▸ hJ
  | cons a as ih =>
    obtain ⟨h₁, ha, hrest⟩ := Option.bind_eq_some_iff.mp hrun
    exact ih (inv hJ (moves_of_apply ha)) hrest

theorem every_of_forall (hP : ∀ a ∈ as, ∀ h, P h a) : S.Every P as h := by
  induction as generalizing h with
  | nil => trivial
  | cons a as ih =>
    exact ⟨hP a List.mem_cons_self h, fun h' _ => ih fun b hb => hP b (List.mem_cons_of_mem a hb)⟩

/-- Where a move leads to a good state exactly if it satisfies `P` in a good one, a run ends
in a good state exactly if all its moves satisfy `P`. -/
theorem good_iff_every (inv : ∀ {h a h'}, J h → S.Moves h a h' → J h')
    (step : ∀ {h a h'}, J h → S.Moves h a h' → (G h' ↔ G h ∧ P h a)) (hJ : J h)
    (hrun : S.run as h = some h') : G h' ↔ G h ∧ S.Every P as h := by
  induction as generalizing h with
  | nil =>
    obtain rfl := Option.some.inj hrun
    simp [Every]
  | cons a as ih =>
    obtain ⟨h₁, ha, hrest⟩ := Option.bind_eq_some_iff.mp hrun
    have hm := moves_of_apply ha
    rw [ih (inv hJ hm) hrest, step hJ hm, Every, ha, and_assoc]
    simp

end Service

end Mesty.Concurrency.Restart
