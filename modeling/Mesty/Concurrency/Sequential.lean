import Mesty.Concurrency.Pool

namespace Mesty.Concurrency.Sequential

open Mesty.Concurrency.Program Mesty.Concurrency.Pool

variable {C : Type} {R : C → Type} {σ Ω Req Out : Type}

/-- The same system when each request is executed alone, as one command. -/
def atomic (S : System C R σ Ω Req Out) : System Req (fun _ => Out) σ (List Ω) Req Out where
  exec ωs r s := (S.handler r).alone S.exec ωs s
  tick ωs s := ωs.head?.bind (fun ω => S.tick ω s)
  handler r := Prog.cmd r

variable {S : System C R σ Ω Req Out} {c d : Config Req (fun _ => Out) σ Req Out}

/-- All that one move of the atomic system can do to the shared state. -/
theorem atomic_cases {a : Act Req (List Ω)} (h : (atomic S).apply a c = some d) :
    d.db = c.db ∨ (∃ i ωs r out, a = .step i ωs ∧
      c.tasks[i]?.bind (fun t => t.2.next) = some r ∧
      (S.handler r).alone S.exec ωs c.db = some (out, d.db)) ∨
    ∃ ω, S.tick ω c.db = some d.db := by
  obtain ⟨r, rfl, rfl⟩ | ⟨i, ωs, r, cmd, k, ans, s, rfl, ht, he, rfl⟩ | ⟨ωs, s, rfl, hs, rfl⟩ :=
    System.apply_cases h
  · exact .inl rfl
  · exact .inr (.inl ⟨i, ωs, cmd, ans, rfl, by simp [ht], he⟩)
  · obtain ⟨ω, -, hω⟩ := Option.bind_eq_some_iff.mp hs
    exact .inr (.inr ⟨ω, hω⟩)

end Mesty.Concurrency.Sequential
