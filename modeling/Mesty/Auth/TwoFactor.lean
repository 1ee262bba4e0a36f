import Mesty.Auth.Records

namespace Mesty.Auth.TwoFactor

open Mesty.Base.Ids Mesty.Base.Error Mesty.Concurrency.Program Mesty.Concurrency.Pool
open Mesty.Auth.Entities Mesty.Auth.Repository Mesty.Auth.Services Mesty.Auth.Handlers
open Mesty.Auth.Middleware Mesty.Auth.Permits Mesty.Auth.Records

variable {state : AuthState} {ω : Choice} {c : AuthCmd} {ans : c.Ans} {start db db' : AuthDb}
  {w : AuthWorld} {log log' : List AuthEvent} {userId : Uuid}

/-- The user had `two_fa_enabled` at the start, or an UPDATE has set it. -/
def TwoFaSet (start : AuthDb) (log : List AuthEvent) (userId : Uuid) : Prop :=
  (∃ row, start.users.lookup userId = some row ∧ row.twoFaEnabled = true) ∨
    ∃ i user, ⟨i, .updateUser user, .ok ()⟩ ∈ log ∧ user.id = userId ∧ user.twoFaEnabled = true

theorem TwoFaSet.mono (h : TwoFaSet start log userId) (hsub : log ⊆ log') :
    TwoFaSet start log' userId :=
  h.imp id fun ⟨i, user, hm, hrest⟩ => ⟨i, user, hsub hm, hrest⟩

theorem isSome_findById_iff :
    (db.findById userId).isSome ↔ ∃ row, db.users.lookup userId = some row ∧ row.deletedAt = none := by
  simp [AuthDb.findById, Option.isSome_filter, Option.any_eq_true]

/-- A row with a property that updates keep stays. -/
theorem row_exec (h : AuthDb.exec ω c db = some (ans, db')) {R : UserRow → Prop}
    (hup : ∀ user old, c = .updateUser user → user.id = userId → db.findById userId = some old →
      R { user.toUserRow with deletedAt := old.deletedAt })
    (hrow : ∃ row, db.users.lookup userId = some row ∧ R row) :
    ∃ row, db'.users.lookup userId = some row ∧ R row := by
  obtain hsame | ⟨user, rfl, hnew, hins⟩ | ⟨user, old, rfl, hold, hins⟩ := AuthDb.exec_users h
  · rwa [hsame]
  · obtain ⟨row, hl, -⟩ := id hrow
    have hmem : userId ∈ db.users := AList.lookup_isSome.mp (by simp [hl])
    have hne : userId ≠ user.id := by
      rintro rfl
      exact hnew hmem
    rw [hins, AList.lookup_insert_ne hne]
    exact hrow
  · by_cases heq : userId = user.id
    · subst heq
      exact ⟨_, hins ▸ AList.lookup_insert _, hup user old rfl rfl hold⟩
    · rw [hins, AList.lookup_insert_ne heq]
      exact hrow

/-- Whom a task has found by id can be found again, and `two_fa_enabled` is not withdrawn. -/
structure Enrolment (start : AuthDb) (w : AuthWorld) : Prop where
  found : ∀ i id user, ⟨i, .findById id, some user⟩ ∈ w.log →
    user.id = id ∧ (w.db.findById id).isSome
  enabled : ∀ userId, TwoFaSet start w.log userId →
    ∃ row, w.db.users.lookup userId = some row ∧ row.twoFaEnabled = true

theorem enrolment_after (hw : Enrolment start w) (h : AuthDb.exec ω c w.db = some (ans, db'))
    (hup : ∀ user, c = .updateUser user → user.twoFaEnabled = true ∧ (w.db.findById user.id).isSome)
    (i : Nat) : Enrolment start (w.after i c ans db') where
  found := by
    have hstays : ∀ id, (w.db.findById id).isSome → (db'.findById id).isSome := by
      intro id hid
      rw [isSome_findById_iff] at hid ⊢
      refine row_exec h (fun user old _ _ hold => ?_) hid
      obtain ⟨row, hl, hnone⟩ := hid
      obtain ⟨-, hold⟩ := AuthDb.findById_eq_some hold
      obtain rfl := Option.some.inj (hl.symm.trans hold)
      exact hnone
    intro j id user hm
    rw [World.after_log, List.mem_append, List.mem_singleton] at hm
    obtain hm | heq := hm
    · exact (hw.found j id user hm).imp_right (hstays id)
    · cases heq
      obtain ⟨hans, rfl⟩ := Prod.mk.inj (Option.some.inj h)
      exact ⟨(AuthDb.findById_eq_some hans).1, by simp [hans]⟩
  enabled := by
    intro userId hset
    simp only [TwoFaSet, World.after_log, List.mem_append, List.mem_singleton, or_and_right,
      exists_or, ← or_assoc] at hset
    obtain hset | ⟨j, user, heq, rfl, htwo⟩ := hset
    · exact row_exec h (fun user old hc _ _ => (hup user hc).1) (hw.enabled userId hset)
    · cases heq
      obtain ⟨old, hold⟩ := Option.isSome_iff_exists.mp (hup user rfl).2
      exact ⟨_, AuthDb.updateUser_ok hold h, htwo⟩

variable {P : AuthConfig → AuthAct → Prop} {cfg : AuthConfig} {now : Nat}
  {users : AList (fun _ : Uuid => UserRow)} {sessions : AList (fun _ : Uuid × String => SessionRow)}

theorem reach_enrolment
    (h : (authServer state).Reach P (System.start (.init now users sessions)) cfg) :
    Enrolment (.init now users sessions) cfg.toWorld := by
  refine System.Reach.preserves (J := fun c => Enrolment _ c.toWorld) (handle_permitted state)
    ⟨fun i id user hm => absurd hm List.not_mem_nil, fun userId hset => ?_⟩ (fun _ _ hc => hc) ?_ ?_ h
  · obtain hrow | ⟨i, user, hm, -⟩ := hset
    · exact hrow
    · exact absurd hm List.not_mem_nil
  · intro c i ω r cmd k ans s _ hc _ _ hperm he _
    refine enrolment_after hc he (fun user hcmd => ?_) i
    subst hcmd
    obtain ⟨id, old, hm, rfl⟩ := hperm
    obtain ⟨rfl, hfound⟩ := hc.found i id old (World.mem_history.mp hm)
    exact ⟨rfl, hfound⟩
  · intro c ω s hc _ ht
    obtain rfl := Option.some.inj ht
    exact ⟨hc.found, hc.enabled⟩

/-- Whom a task finds without `two_fa_enabled` has never had it before. -/
theorem not_twoFaSet_of_found
    (h : (authServer state).Reach P (System.start (.init now users sessions)) cfg)
    {before later : List AuthEvent} {i : Nat} {phone : PhoneNumber} {user : User}
    (hlog : cfg.log = before ++ ⟨i, .findByPhone phone, some user⟩ :: later)
    (htwo : user.twoFaEnabled = false) : ¬ TwoFaSet (.init now users sessions) before user.id := by
  intro hset
  obtain ⟨ω, db, db', hJ, he⟩ := h.explained reach_enrolment _ _ _ hlog
  obtain ⟨hans, -⟩ := Prod.mk.inj (Option.some.inj he)
  obtain ⟨row, hl, hrow⟩ := hJ.enabled user.id hset
  obtain rfl := Option.some.inj (hl.symm.trans (AuthDb.findByPhone_eq_some hans).2)
  exact Bool.noConfusion (htwo.symm.trans hrow)

end Mesty.Auth.TwoFactor
