import Mathlib.Data.List.Basic

namespace Mesty.Concurrency.Program

/-- A task between two await points: it has finished, or it issues a command
to the outside and continues with the answer. -/
inductive Prog (C : Type) (R : C → Type) (α : Type) where
  | ret (a : α)
  | call (c : C) (k : R c → Prog C R α)

namespace Prog

variable {C : Type} {R : C → Type} {α β γ : Type}

def bind : Prog C R α → (α → Prog C R β) → Prog C R β
  | ret a, f => f a
  | call c k, f => call c (fun r => bind (k r) f)

def cmd (c : C) : Prog C R (R c) := call c ret

instance : Monad (Prog C R) where
  pure := ret
  bind := bind

@[simp] theorem pure_eq (a : α) : (pure a : Prog C R α) = ret a := rfl

@[simp] theorem ret_bind (a : α) (f : α → Prog C R β) : (ret a >>= f) = f a := rfl

@[simp] theorem call_bind (c : C) (k : R c → Prog C R α) (f : α → Prog C R β) :
    (call c k >>= f) = call c (fun r => k r >>= f) := rfl

@[simp] theorem cmd_bind (c : C) (f : R c → Prog C R β) : (cmd c >>= f) = call c f := rfl

theorem bind_assoc (p : Prog C R α) (f : α → Prog C R β) (g : β → Prog C R γ) :
    (p >>= f) >>= g = p >>= fun a => f a >>= g := by
  induction p with
  | ret a => rfl
  | call c k ih =>
    simp only [call_bind, call.injEq, heq_eq_eq, true_and]
    exact funext ih

instance : LawfulMonad (Prog C R) := LawfulMonad.mk' _
  (by
    intro α p
    induction p with
    | ret a => rfl
    | call c k ih => exact congrArg (call c) (funext ih))
  (fun _ _ => rfl) bind_assoc

/-- The command the task is about to issue. -/
def next : Prog C R α → Option C
  | ret _ => none
  | call c _ => some c

@[simp] theorem next_ret (a : α) : (ret a : Prog C R α).next = none := rfl

@[simp] theorem next_call (c : C) (k : R c → Prog C R α) : (call c k).next = some c := rfl

def finished : Prog C R α → Bool
  | ret _ => true
  | call .. => false

@[simp] theorem finished_ret (a : α) : (ret a : Prog C R α).finished = true := rfl

@[simp] theorem finished_call (c : C) (k : R c → Prog C R α) : (call c k).finished = false := rfl

/-- Every command that the task can ever issue, on whatever answers, satisfies `P`. -/
def Issues (P : C → Prop) : Prog C R α → Prop
  | ret _ => True
  | call c k => P c ∧ ∀ r, (k r).Issues P

@[simp] theorem issues_ret (P : C → Prop) (a : α) : (ret a : Prog C R α).Issues P := trivial

@[simp] theorem issues_call (P : C → Prop) (c : C) (k : R c → Prog C R α) :
    (call c k).Issues P ↔ P c ∧ ∀ r, (k r).Issues P := Iff.rfl

@[simp] theorem issues_cmd (P : C → Prop) (c : C) : (cmd c : Prog C R (R c)).Issues P ↔ P c :=
  ⟨fun h => h.1, fun h => ⟨h, fun _ => trivial⟩⟩

theorem Issues.bind {P : C → Prop} {p : Prog C R α} (hp : p.Issues P)
    {f : α → Prog C R β} (hf : ∀ a, (f a).Issues P) : (p >>= f).Issues P := by
  induction p with
  | ret a => exact hf a
  | call c k ih => exact ⟨hp.1, fun r => ih r (hp.2 r)⟩

/-- The rule for `?`. -/
theorem Issues.tryBind {P : C → Prop} {ε : Type} {x : ExceptT ε (Prog C R) α}
    (hx : x.run.Issues P) {f : α → ExceptT ε (Prog C R) β} (hf : ∀ a, (f a).run.Issues P) :
    (x >>= f).run.Issues P := by
  rw [ExceptT.run_bind]
  refine hx.bind fun r => ?_
  cases r with
  | ok a => exact hf a
  | error e => trivial

theorem Issues.mono {P Q : C → Prop} (h : ∀ c, P c → Q c) {p : Prog C R α}
    (hp : p.Issues P) : p.Issues Q := by
  induction p with
  | ret a => trivial
  | call c k ih => exact ⟨h c hp.1, fun r => ih r (hp.2 r)⟩

theorem issues_of_forall {P : C → Prop} (h : ∀ c, P c) (p : Prog C R α) : p.Issues P := by
  induction p with
  | ret a => trivial
  | call c k ih => exact ⟨h c, ih⟩

/-- The task with its commands among those of a larger system. -/
def embed {C' : Type} {R' : C' → Type} (f : C → C') (g : ∀ c, R' (f c) → R c) :
    Prog C R α → Prog C' R' α
  | ret a => ret a
  | call c k => call (f c) (fun r => (k (g c r)).embed f g)

theorem Issues.embed {C' : Type} {R' : C' → Type} {f : C → C'} {g : ∀ c, R' (f c) → R c}
    {P : C' → Prop} {p : Prog C R α} (hp : p.Issues (fun c => P (f c))) :
    (p.embed f g).Issues P := by
  induction p with
  | ret a => trivial
  | call c k ih => exact ⟨hp.1, fun r => ih (g c r) (hp.2 (g c r))⟩

/-- `Ran p es q`: the task started as `p`, the outside gave the answers `es` to its
commands, and what is left of it is `q`. -/
inductive Ran : Prog C R α → List ((c : C) × R c) → Prog C R α → Prop where
  | nil (p) : Ran p [] p
  | cons {c k a es q} : Ran (k a) es q → Ran (call c k) (⟨c, a⟩ :: es) q

/-- A task that has finished has got an answer to its first command. -/
theorem ran_call_ret {c : C} {k : R c → Prog C R α} {a : α} {es : List ((c : C) × R c)} :
    Ran (call c k) es (ret a) ↔ ∃ r es', es = ⟨c, r⟩ :: es' ∧ Ran (k r) es' (ret a) := by
  constructor
  · rintro (_ | h)
    exact ⟨_, _, rfl, h⟩
  · rintro ⟨r, es', rfl, h⟩
    exact .cons h

theorem Ran.snoc {p : Prog C R α} {es : List ((c : C) × R c)} {c : C} {k : R c → Prog C R α}
    (h : Ran p es (call c k)) (a : R c) : Ran p (es ++ [⟨c, a⟩]) (k a) := by
  generalize hq : call c k = q at h
  induction h with
  | nil p =>
    subst hq
    exact .cons (.nil _)
  | cons _ ih => exact .cons (ih hq)

theorem Ran.issues {P : C → Prop} {p q : Prog C R α} {es : List ((c : C) × R c)}
    (h : Ran p es q) (hp : p.Issues P) : (∀ e ∈ es, P e.1) ∧ q.Issues P := by
  induction h with
  | nil p => exact ⟨by simp, hp⟩
  | cons _ ih =>
    obtain ⟨hes, hq⟩ := ih (hp.2 _)
    exact ⟨List.forall_mem_cons.mpr ⟨hp.1, hes⟩, hq⟩

/-- The task issues each command in accordance with `N`, which is told what it has got
answered so far, and ends in accordance with `Q`. -/
def Follows (N : List ((c : C) × R c) → C → Prop) (Q : List ((c : C) × R c) → α → Prop) :
    Prog C R α → List ((c : C) × R c) → Prop
  | ret a, h => Q h a
  | call c k, h => N h c ∧ ∀ r, (k r).Follows N Q (h ++ [⟨c, r⟩])

section Follows

variable {N : List ((c : C) × R c) → C → Prop} {Q : List ((c : C) × R c) → α → Prop}
  {h : List ((c : C) × R c)}

@[simp] theorem follows_ret (a : α) : (ret a : Prog C R α).Follows N Q h ↔ Q h a := Iff.rfl

@[simp] theorem follows_call (c : C) (k : R c → Prog C R α) :
    (call c k).Follows N Q h ↔ N h c ∧ ∀ r, (k r).Follows N Q (h ++ [⟨c, r⟩]) := Iff.rfl

theorem Follows.mono {N' : List ((c : C) × R c) → C → Prop} {Q' : List ((c : C) × R c) → α → Prop}
    {p : Prog C R α} (hp : p.Follows N Q h) (hN : ∀ h c, N h c → N' h c)
    (hQ : ∀ h a, Q h a → Q' h a) : p.Follows N' Q' h := by
  induction p generalizing h with
  | ret a => exact hQ h a hp
  | call c k ih => exact ⟨hN h c hp.1, fun r => ih r (hp.2 r)⟩

theorem Follows.issues {P : C → Prop} {p : Prog C R α} (hp : p.Follows N Q h)
    (hN : ∀ h c, N h c → P c) : p.Issues P := by
  induction p generalizing h with
  | ret a => trivial
  | call c k ih => exact ⟨hN h c hp.1, fun r => ih r (hp.2 r)⟩

theorem Issues.follows {P : C → Prop} {p : Prog C R α} (hp : p.Issues P)
    (hN : ∀ h c, P c → N h c) (hQ : ∀ h a, Q h a) : p.Follows N Q h := by
  induction p generalizing h with
  | ret a => exact hQ h a
  | call c k ih => exact ⟨hN h c hp.1, fun r => ih r (hp.2 r)⟩

/-- What holds whatever the history, an embedded task keeps to. -/
theorem Follows.embed {C' : Type} {R' : C' → Type} {f : C → C'} {g : ∀ c, R' (f c) → R c}
    {P : C → Prop} {Q : α → Prop} {N' : List ((c : C') × R' c) → C' → Prop}
    {Q' : List ((c : C') × R' c) → α → Prop} {p : Prog C R α}
    (hp : p.Follows (fun _ c => P c) (fun _ a => Q a) h) (hN : ∀ c, P c → ∀ h', N' h' (f c))
    (hQ : ∀ a, Q a → ∀ h', Q' h' a) {h' : List ((c : C') × R' c)} :
    (p.embed f g).Follows N' Q' h' := by
  induction p generalizing h h' with
  | ret a => exact hQ a hp h'
  | call c k ih => exact ⟨hN c hp.1 h', fun r => ih (g c r) (hp.2 (g c r))⟩

/-- An embedded task keeps to what it did, read off the answers that are its own. -/
theorem Follows.embedded {C' : Type} {R' : C' → Type} {f : C → C'} {g : ∀ c, R' (f c) → R c}
    (own : List ((c : C') × R' c) → List ((c : C) × R c))
    (hown : ∀ h' c r, own (h' ++ [⟨f c, r⟩]) = own h' ++ [⟨c, g c r⟩])
    {N' : List ((c : C') × R' c) → C' → Prop} {Q' : List ((c : C') × R' c) → α → Prop}
    (hN : ∀ h' c, N (own h') c → N' h' (f c)) (hQ : ∀ h' a, Q (own h') a → Q' h' a) {p : Prog C R α}
    {h' : List ((c : C') × R' c)} (hp : p.Follows N Q (own h')) : (p.embed f g).Follows N' Q' h' := by
  induction p generalizing h' with
  | ret a => exact hQ h' a hp
  | call c k ih =>
    refine ⟨hN h' c hp.1, fun r => ih (g c r) ?_⟩
    rw [hown]
    exact hp.2 (g c r)

/-- What holds however the history goes on, a task keeps to. -/
theorem follows_of_prefix (hN : ∀ h' c, h <+: h' → N h' c) (hQ : ∀ h' a, h <+: h' → Q h' a)
    (p : Prog C R α) : p.Follows N Q h := by
  induction p generalizing h with
  | ret a => exact hQ h a (List.prefix_refl h)
  | call c k ih =>
    refine ⟨hN h c (List.prefix_refl h), fun r => ih r (fun h' c' hle => ?_) (fun h' a hle => ?_)⟩
    · exact hN h' c' ((List.prefix_append _ _).trans hle)
    · exact hQ h' a ((List.prefix_append _ _).trans hle)

theorem follows_bind {p : Prog C R β} {f : β → Prog C R α} :
    (p >>= f).Follows N Q h ↔ p.Follows N (fun h' b => (f b).Follows N Q h') h := by
  induction p generalizing h with
  | ret b => exact Iff.rfl
  | call c k ih => exact and_congr_right fun _ => forall_congr' fun r => ih r

/-- The rule for `?`. -/
theorem follows_run_bind {ε : Type} {Q : List ((c : C) × R c) → Except ε α → Prop}
    {x : ExceptT ε (Prog C R) β} {f : β → ExceptT ε (Prog C R) α} :
    (x >>= f).run.Follows N Q h ↔ x.run.Follows N (fun h' r => match r with
      | .ok b => (f b).run.Follows N Q h'
      | .error e => Q h' (.error e)) h := by
  rw [ExceptT.run_bind, follows_bind]
  refine iff_of_eq (congrArg (fun Q' => x.run.Follows N Q' h) ?_)
  funext h' r
  cases r <;> rfl

/-- What holds of the start of a task and the answers it got holds of what is left of it. -/
theorem Ran.follows {p q : Prog C R α} {es : List ((c : C) × R c)} (hr : Ran p es q)
    (hp : p.Follows N Q h) : q.Follows N Q (h ++ es) := by
  induction hr generalizing h with
  | nil p => simpa using hp
  | cons _ ih => simpa using ih (hp.2 _)

theorem Ran.followed {p q : Prog C R α} {es₁ es₂ : List ((c : C) × R c)} {c : C} {a : R c}
    (hr : Ran p (es₁ ++ ⟨c, a⟩ :: es₂) q) (hp : p.Follows N Q h) : N (h ++ es₁) c := by
  induction es₁ generalizing p h with
  | nil =>
    cases hr
    simpa using hp.1
  | cons e es₁ ih =>
    cases hr with
    | cons hr => simpa using ih hr (hp.2 _)

end Follows

/-- Run a task alone to its end. The answers come from `exec`, which may
refuse a command; `ωs` are the choices of the environment, one for each command. -/
def alone {σ Ω : Type} (exec : Ω → (c : C) → σ → Option (R c × σ)) :
    Prog C R α → List Ω → σ → Option (α × σ)
  | ret a, [], s => some (a, s)
  | call c k, ω :: ωs, s => (exec ω c s).bind (fun out => alone exec (k out.1) ωs out.2)
  | _, _, _ => none

section Alone

variable {σ Ω ε : Type} {exec : Ω → (c : C) → σ → Option (R c × σ)} {Q : α → σ → Prop} {s : σ}

/-- Every run of the task alone that comes to its end satisfies `Q` there. -/
def wp (exec : Ω → (c : C) → σ → Option (R c × σ)) : Prog C R α → (α → σ → Prop) → σ → Prop
  | ret a, Q, s => Q a s
  | call c k, Q, s => ∀ ω r s', exec ω c s = some (r, s') → (k r).wp exec Q s'

@[simp] theorem wp_ret (a : α) : (ret a : Prog C R α).wp exec Q s ↔ Q a s := Iff.rfl

@[simp] theorem wp_call (c : C) (k : R c → Prog C R α) :
    (call c k).wp exec Q s ↔
      ∀ ω r s', exec ω c s = some (r, s') → (k r).wp exec Q s' := Iff.rfl

/-- The rule for a command that is never refused. -/
theorem wp_call_iff {c : C} {k : R c → Prog C R α} {out : Ω → R c × σ}
    (he : ∀ ω, exec ω c s = some (out ω)) :
    (call c k).wp exec Q s ↔ ∀ ω, (k (out ω).1).wp exec Q (out ω).2 := by
  constructor
  · exact fun h ω => h ω _ _ (he ω)
  · intro h ω r s' he'
    have hout : out ω = (r, s') := Option.some.inj ((he ω).symm.trans he')
    have hk := h ω
    rwa [hout] at hk

theorem wp_bind {p : Prog C R β} {f : β → Prog C R α} :
    (p >>= f).wp exec Q s ↔ p.wp exec (fun b s' => (f b).wp exec Q s') s := by
  induction p generalizing s with
  | ret b => exact Iff.rfl
  | call c k ih =>
    exact forall_congr' fun ω => forall_congr' fun r => forall_congr' fun s' =>
      imp_congr_right fun _ => ih r

/-- The rule for `?`. -/
theorem wp_run_bind {Q : Except ε α → σ → Prop} {x : ExceptT ε (Prog C R) β}
    {f : β → ExceptT ε (Prog C R) α} :
    (x >>= f).run.wp exec Q s ↔ x.run.wp exec (fun r s' => match r with
      | .ok b => (f b).run.wp exec Q s'
      | .error e => Q (.error e) s') s := by
  rw [ExceptT.run_bind, wp_bind]
  refine iff_of_eq (congrArg (fun Q' => x.run.wp exec Q' s) ?_)
  funext r s'
  cases r <;> rfl

theorem wp.mono {Q' : α → σ → Prop} {p : Prog C R α} (h : p.wp exec Q s)
    (hQ : ∀ a s', Q a s' → Q' a s') : p.wp exec Q' s := by
  induction p generalizing s with
  | ret a => exact hQ a s h
  | call c k ih => exact fun ω r s' he => ih r (h ω r s' he)

theorem wp_of_forall (hQ : ∀ a s', Q a s') (p : Prog C R α) : p.wp exec Q s := by
  induction p generalizing s with
  | ret a => exact hQ a s
  | call c k ih => exact fun ω r s' _ => ih r

/-- The rule for `?` when both parts lead to the same assertion. -/
theorem wp.tryBind {I : σ → Prop} {x : ExceptT ε (Prog C R) β} {f : β → ExceptT ε (Prog C R) α}
    (hx : x.run.wp exec (fun _ => I) s) (hf : ∀ b s', I s' → (f b).run.wp exec (fun _ => I) s') :
    (x >>= f).run.wp exec (fun _ => I) s := by
  refine wp_run_bind.mpr (hx.mono fun r s' hs' => ?_)
  cases r with
  | ok b => exact hf b s' hs'
  | error e => exact hs'

/-- What all commands of a task preserve, the task preserves. -/
theorem Issues.wp {P : C → Prop} {I : σ → Prop}
    (hI : ∀ ω c r s s', P c → I s → exec ω c s = some (r, s') → I s') {p : Prog C R α}
    (hp : p.Issues P) (hs : I s) : p.wp exec (fun _ => I) s := by
  induction p generalizing s with
  | ret a => exact hs
  | call c k ih => exact fun ω r s' he => ih r (hp.2 r) (hI ω c r s s' hp.1 hs he)

/-- The result of a run is one that `wp` speaks of. -/
theorem wp.of_alone {p : Prog C R α} (h : p.wp exec Q s) {ωs : List Ω} {a : α} {s' : σ}
    (hrun : p.alone exec ωs s = some (a, s')) : Q a s' := by
  induction p generalizing s ωs with
  | ret b =>
    cases ωs with
    | nil =>
      obtain ⟨rfl, rfl⟩ := Prod.mk.inj (Option.some.inj hrun)
      exact h
    | cons ω ωs => cases hrun
  | call c k ih =>
    cases ωs with
    | nil => cases hrun
    | cons ω ωs =>
      obtain ⟨⟨r, s₁⟩, he, hrest⟩ := Option.bind_eq_some_iff.mp hrun
      exact ih r (h ω r s₁ he) hrest

theorem alone_ret {ωs : List Ω} {a b : α} {s' : σ}
    (h : (ret a : Prog C R α).alone exec ωs s = some (b, s')) : ωs = [] ∧ b = a ∧ s' = s := by
  cases ωs with
  | nil =>
    obtain ⟨rfl, rfl⟩ := Prod.mk.inj (Option.some.inj h)
    exact ⟨rfl, rfl, rfl⟩
  | cons ω ωs => cases h

theorem alone_call {c : C} {k : R c → Prog C R α} {ωs : List Ω} {a : α} {s' : σ}
    (h : (call c k).alone exec ωs s = some (a, s')) :
    ∃ ω ωs' r mid, ωs = ω :: ωs' ∧ exec ω c s = some (r, mid) ∧
      (k r).alone exec ωs' mid = some (a, s') := by
  cases ωs with
  | nil => cases h
  | cons ω ωs =>
    obtain ⟨⟨r, mid⟩, he, hrest⟩ := Option.bind_eq_some_iff.mp h
    exact ⟨ω, ωs, r, mid, rfl, he, hrest⟩

theorem alone_bind {p : Prog C R β} {f : β → Prog C R α} {ωs : List Ω} {a : α} {s' : σ}
    (h : (p >>= f).alone exec ωs s = some (a, s')) :
    ∃ ωs₁ ωs₂ b mid, ωs = ωs₁ ++ ωs₂ ∧ p.alone exec ωs₁ s = some (b, mid) ∧
      (f b).alone exec ωs₂ mid = some (a, s') := by
  induction p generalizing s ωs with
  | ret b => exact ⟨[], ωs, b, s, rfl, rfl, h⟩
  | call c k ih =>
    cases ωs with
    | nil => cases h
    | cons ω ωs =>
      obtain ⟨⟨r, s₁⟩, he, hrest⟩ := Option.bind_eq_some_iff.mp h
      obtain ⟨ωs₁, ωs₂, b, mid, rfl, hp, hf⟩ := ih r hrest
      exact ⟨ω :: ωs₁, ωs₂, b, mid, rfl, Option.bind_eq_some_iff.mpr ⟨_, he, hp⟩, hf⟩

theorem alone_tryBind {x : ExceptT ε (Prog C R) β} {f : β → ExceptT ε (Prog C R) α} {ωs : List Ω}
    {r : Except ε α} {s' : σ} (h : (x >>= f).run.alone exec ωs s = some (r, s')) :
    ∃ ωs₁ ωs₂ b mid, ωs = ωs₁ ++ ωs₂ ∧ x.run.alone exec ωs₁ s = some (b, mid) ∧
      ((∃ e, b = .error e ∧ r = .error e ∧ ωs₂ = []) ∨
        ∃ a, b = .ok a ∧ (f a).run.alone exec ωs₂ mid = some (r, s')) := by
  rw [ExceptT.run_bind] at h
  obtain ⟨ωs₁, ωs₂, b, mid, hωs, hx, hf⟩ := alone_bind h
  refine ⟨ωs₁, ωs₂, b, mid, hωs, hx, ?_⟩
  cases b with
  | ok a => exact .inr ⟨a, rfl, hf⟩
  | error e =>
    obtain ⟨rfl, rfl, -⟩ := alone_ret hf
    exact .inl ⟨e, rfl, rfl, rfl⟩

theorem alone_cmd {c : C} {ωs : List Ω} {r : R c} {s' : σ}
    (h : (cmd c : Prog C R (R c)).alone exec ωs s = some (r, s')) :
    ∃ ω, ωs = [ω] ∧ exec ω c s = some (r, s') := by
  cases ωs with
  | nil => cases h
  | cons ω ωs =>
    obtain ⟨⟨r', s₁⟩, he, hrest⟩ := Option.bind_eq_some_iff.mp h
    cases ωs with
    | nil =>
      obtain ⟨rfl, rfl⟩ := Prod.mk.inj (Option.some.inj hrest)
      exact ⟨ω, rfl, he⟩
    | cons ω' ωs => cases hrest

end Alone

/-- The result of a task that runs alone with one choice for all its commands. -/
def complete {σ : Type} (exec : (c : C) → σ → Option (R c × σ)) : Prog C R α → σ → Option (α × σ)
  | ret a, s => some (a, s)
  | call c k, s => (exec c s).bind (fun out => (k out.1).complete exec out.2)

/-- A task whose commands are never refused comes to its end. -/
theorem isSome_complete {σ : Type} {exec : (c : C) → σ → Option (R c × σ)} {p : Prog C R α}
    (h : p.Issues (fun c => ∀ s, (exec c s).isSome)) (s : σ) : (p.complete exec s).isSome := by
  induction p generalizing s with
  | ret a => rfl
  | call c k ih =>
    obtain ⟨out, hout⟩ := Option.isSome_iff_exists.mp (h.1 s)
    rw [complete, hout, Option.bind_some]
    exact ih out.1 (h.2 out.1) out.2

theorem complete_call {σ : Type} {exec : (c : C) → σ → Option (R c × σ)} {c : C}
    {k : R c → Prog C R α} {s s' : σ} {r : R c} (he : exec c s = some (r, s')) :
    (call c k).complete exec s = (k r).complete exec s' := by
  rw [complete, he, Option.bind_some]

theorem complete_bind {σ : Type} {exec : (c : C) → σ → Option (R c × σ)} {p : Prog C R β}
    {f : β → Prog C R α} {s s' : σ} {b : β} (h : p.complete exec s = some (b, s')) :
    (p >>= f).complete exec s = (f b).complete exec s' := by
  induction p generalizing s with
  | ret a =>
    cases h
    rfl
  | call c k ih =>
    obtain ⟨⟨r, s₁⟩, he, hrest⟩ := Option.bind_eq_some_iff.mp h
    exact (complete_call he).trans (ih r hrest)

/-- The rule for `?`. -/
theorem complete_tryBind {σ ε : Type} {exec : (c : C) → σ → Option (R c × σ)}
    {x : ExceptT ε (Prog C R) β} {f : β → ExceptT ε (Prog C R) α} {s s' : σ} {b : β}
    (h : x.run.complete exec s = some (.ok b, s')) :
    (x >>= f).run.complete exec s = (f b).run.complete exec s' := by
  rw [ExceptT.run_bind]
  exact complete_bind h

theorem alone_of_complete {σ Ω : Type} (exec : Ω → (c : C) → σ → Option (R c × σ)) (ω : Ω)
    {p : Prog C R α} {s : σ} {out : α × σ} (h : p.complete (exec ω) s = some out) :
    ∃ n, p.alone exec (List.replicate n ω) s = some out := by
  induction p generalizing s with
  | ret a => exact ⟨0, h⟩
  | call c k ih =>
    obtain ⟨⟨r, s'⟩, he, hrest⟩ := Option.bind_eq_some_iff.mp h
    obtain ⟨n, hn⟩ := ih r hrest
    exact ⟨n + 1, Option.bind_eq_some_iff.mpr ⟨_, he, hn⟩⟩

/-- The result of a task that runs alone and to which nothing is refused. -/
def result {σ : Type} (exec : (c : C) → σ → R c × σ) : Prog C R α → σ → α × σ
  | ret a, s => (a, s)
  | call c k, s => (k (exec c s).1).result exec (exec c s).2

theorem result_bind {σ : Type} (exec : (c : C) → σ → R c × σ) (p : Prog C R α)
    (f : α → Prog C R β) (s : σ) :
    (p >>= f).result exec s = (f (p.result exec s).1).result exec (p.result exec s).2 := by
  induction p generalizing s with
  | ret a => rfl
  | call c k ih => exact ih _ _

end Prog

end Mesty.Concurrency.Program
