import Mesty.Concurrency.Pool

namespace Mesty.Concurrency.Episodes

open Mesty.Concurrency.Program Mesty.Concurrency.Pool

variable {C : Type} {R : C → Type} {σ Ω Req Out : Type} {S : System C R σ Ω Req Out}
  {P : Config C R σ Req Out → Act Req Ω → Prop} {c d : Config C R σ Req Out}

/-- The event is one of `L`, which is told the request of its task. -/
def Labelled (L : Req → (cmd : C) → R cmd → Prop) (c : Config C R σ Req Out) (e : Event C R) : Prop :=
  ∃ r, c.request e.task = some r ∧ L r e.cmd e.ans

theorem labelled_congr {L : Req → (cmd : C) → R cmd → Prop} {e : Event C R}
    (h : d.request e.task = c.request e.task) : Labelled L d e ↔ Labelled L c e := by
  rw [Labelled, Labelled, h]

/-- The log has an event of `opens` and since then none of `closes`. -/
structure Since (opens closes : Req → (cmd : C) → R cmd → Prop) (c : Config C R σ Req Out)
    (before : List (Event C R)) (e : Event C R) (later : List (Event C R)) : Prop where
  log_eq : c.log = before ++ e :: later
  opened : Labelled opens c e
  unclosed : ∀ e' ∈ later, ¬ Labelled closes c e'

section Log

variable {opens closes : Req → (cmd : C) → R cmd → Prop} {before later : List (Event C R)}
  {e : Event C R}

theorem Since.congr (h : Since opens closes d before e later) (hlog : d.log = c.log)
    (hreq : ∀ e ∈ c.log, d.request e.task = c.request e.task) : Since opens closes c before e later := by
  have hsplit : c.log = before ++ e :: later := hlog ▸ h.log_eq
  refine ⟨hsplit, (labelled_congr (hreq e (by simp [hsplit]))).mp h.opened, fun e' he' hcloses => ?_⟩
  have hmem : e' ∈ c.log := by simp [hsplit, he']
  exact h.unclosed e' he' ((labelled_congr (hreq e' hmem)).mpr hcloses)

theorem Since.spawn (hc : S.Replays c) {t : Req × Prog C R Out}
    (h : Since opens closes { c with tasks := c.tasks ++ [t] } before e later) :
    Since opens closes c before e later :=
  h.congr rfl fun e he => Config.request_spawn (hc.1 e he) t

variable {i : Nat} {r : Req} {cmd : C} {k : R cmd → Prog C R Out} {ans : R cmd} {s : σ}

/-- After a command either it opens, or it does not close what has been opened before. -/
theorem since_step (ht : c.tasks[i]? = some (r, .call cmd k))
    (h : Since opens closes ⟨c.after i cmd ans s, c.tasks.set i (r, k ans)⟩ before e later) :
    (before = c.log ∧ later = [] ∧ e = ⟨i, cmd, ans⟩ ∧ opens r cmd ans) ∨
      ∃ later', later = later' ++ [⟨i, cmd, ans⟩] ∧ Since opens closes c before e later' ∧
        ¬ closes r cmd ans := by
  have hreq : ∀ j, Config.request ⟨c.after i cmd ans s, c.tasks.set i (r, k ans)⟩ j = c.request j :=
    fun j => Config.request_set ht _ _ j
  have hi := Config.request_eq ht
  obtain ⟨rfl, rfl, rfl⟩ | ⟨later', rfl, hlog⟩ := snoc_eq_split h.log_eq
  · obtain ⟨r', hr', hopens⟩ := h.opened
    obtain rfl := Option.some.inj (hi.symm.trans ((hreq i).symm.trans hr'))
    exact .inl ⟨rfl, rfl, rfl, hopens⟩
  · refine .inr ⟨later', rfl, ⟨hlog, (labelled_congr (hreq _)).mp h.opened, fun e' he' hcloses => ?_⟩,
      fun hcloses => ?_⟩
    · exact h.unclosed e' (List.mem_append_left _ he') ((labelled_congr (hreq _)).mpr hcloses)
    · exact h.unclosed _ (List.mem_append_right _ (List.mem_singleton_self _))
        ⟨r, (hreq i).trans hi, hcloses⟩

end Log

/-- What the opening commands establish and all but the closing ones preserve holds in between,
and the commands in between were executed where it held. -/
theorem reach_since {opens closes : Req → (cmd : C) → R cmd → Prop} {J : σ → Prop} {s : σ}
    (opened : ∀ {c : Config C R σ Req Out} {i : Nat} {ω r cmd} {k : R cmd → Prog C R Out} {ans s},
      S.Replays c → P c (.step i ω) → c.tasks[i]? = some (r, .call cmd k) →
      S.exec ω cmd c.db = some (ans, s) → opens r cmd ans → J s)
    (kept : ∀ {c : Config C R σ Req Out} {i : Nat} {ω r cmd} {k : R cmd → Prog C R Out} {ans s},
      S.Replays c → J c.db → c.tasks[i]? = some (r, .call cmd k) →
      S.exec ω cmd c.db = some (ans, s) → ¬ opens r cmd ans → ¬ closes r cmd ans → J s)
    (tick : ∀ {ω db s}, J db → S.tick ω db = some s → J s)
    (h : S.Reach P (System.start s) d) {before later : List (Event C R)} {e : Event C R}
    (hd : Since opens closes d before e later) :
    J d.db ∧ ∀ e' ∈ later, ∃ ω db db', J db ∧ S.exec ω e'.cmd db = some (e'.ans, db') := by
  induction h generalizing later with
  | refl => exact absurd hd.log_eq (by simp [System.start])
  | @tail c d a hreach hp ha ih =>
    have hreplays := hreach.replays
    obtain ⟨r, rfl, rfl⟩ | ⟨i, ω, r, cmd, k, ans, s, rfl, ht, he, rfl⟩ | ⟨ω, s, rfl, hs, rfl⟩ :=
      System.apply_cases ha
    · exact ih (hd.spawn hreplays)
    · obtain ⟨-, rfl, -, hopens⟩ | ⟨later', rfl, hc, hopen⟩ := since_step ht hd
      · exact ⟨opened hreplays hp ht he hopens, by simp⟩
      · obtain ⟨hJ, hlater⟩ := ih hc
        refine ⟨?_, fun e' he' => ?_⟩
        · by_cases hopens : opens r cmd ans
          · exact opened hreplays hp ht he hopens
          · exact kept hreplays hJ ht he hopens hopen
        · obtain he' | he' := List.mem_append.mp he'
          · exact hlater e' he'
          · obtain rfl := List.mem_singleton.mp he'
            exact ⟨ω, _, s, hJ, he⟩
    · obtain ⟨hJ, hlater⟩ := ih (hd.congr rfl fun _ _ => rfl)
      exact ⟨tick hJ hs, hlater⟩

end Mesty.Concurrency.Episodes
