import Mesty.Redis.Server

namespace Mesty.Redis.Agreement

open Mesty.Concurrency.Program Mesty.Redis.Server Mesty.Redis.Server.Store

/-- Two stores differ in what they have under keys that are `hidden`, and in the values, but
not the lifetimes, of those under keys that are `masked`. -/
structure Agree (hidden masked : String → Prop) (s t : Store) : Prop where
  now : s.now = t.now
  expiry : ∀ k, ¬ hidden k → (s.strings k).map Entry.expiry = (t.strings k).map Entry.expiry
  entry : ∀ k, ¬ hidden k → ¬ masked k → s.strings k = t.strings k

variable {hidden masked : String → Prop} {s t : Store} {k : String}

theorem Agree.refl (hidden masked : String → Prop) (s : Store) : Agree hidden masked s s :=
  ⟨rfl, fun _ _ => rfl, fun _ _ _ => rfl⟩

theorem Agree.symm (h : Agree hidden masked s t) : Agree hidden masked t s :=
  ⟨h.now.symm, fun k hk => (h.expiry k hk).symm, fun k hk hm => (h.entry k hk hm).symm⟩

theorem Agree.wait (h : Agree hidden masked s t) (ms : Nat) :
    Agree hidden masked (s.wait ms) (t.wait ms) :=
  ⟨congrArg (· + ms) h.now, h.expiry, h.entry⟩

theorem Agree.lookup (h : Agree hidden masked s t) (hk : ¬ hidden k) (hm : ¬ masked k) :
    s.lookup k = t.lookup k := by
  rw [Store.lookup, Store.lookup, h.entry k hk hm, h.now]

theorem lookup_map_expiry (s : Store) (k : String) : (s.lookup k).map Entry.expiry =
    ((s.strings k).map Entry.expiry).filter (fun expiry => expiry.all (s.now < ·)) := by
  rw [Store.lookup, Option.filter_map]
  rfl

theorem Agree.lookup_expiry (h : Agree hidden masked s t) (hk : ¬ hidden k) :
    (s.lookup k).map Entry.expiry = (t.lookup k).map Entry.expiry := by
  rw [lookup_map_expiry, lookup_map_expiry, h.expiry k hk, h.now]

theorem ttl_eq (s : Store) (k : String) : s.ttl k = (((s.lookup k).map Entry.expiry).elim (-2)
    (fun expiry => expiry.elim (-1) (fun t => ((t - s.now + 500) / 1000 : Nat))) : Int) := by
  rw [Store.ttl]
  cases s.lookup k <;> rfl

theorem Agree.ttl (h : Agree hidden masked s t) (hk : ¬ hidden k) : s.ttl k = t.ttl k := by
  rw [ttl_eq, ttl_eq, h.lookup_expiry hk, h.now]

/-- Something under a hidden key is stored on one side. -/
theorem Agree.put_left (h : Agree hidden masked s t) (hk : hidden k) (e : Option Entry) :
    Agree hidden masked (s.put k e) t := by
  have hput : ∀ k', ¬ hidden k' → (s.put k e).strings k' = s.strings k' :=
    fun k' hk' => Function.update_of_ne (fun heq : k' = k => hk' (heq ▸ hk)) _ _
  exact ⟨h.now, fun k' hk' => (congrArg _ (hput k' hk')).trans (h.expiry k' hk'),
    fun k' hk' hm => (hput k' hk').trans (h.entry k' hk' hm)⟩

theorem Agree.put_right (h : Agree hidden masked s t) (hk : hidden k) (e : Option Entry) :
    Agree hidden masked s (t.put k e) :=
  (h.symm.put_left hk e).symm

/-- Something is stored on both sides. -/
theorem Agree.put_masked (h : Agree hidden masked s t) (hm : masked k) {e e' : Option Entry}
    (he : e.map Entry.expiry = e'.map Entry.expiry) :
    Agree hidden masked (s.put k e) (t.put k e') := by
  refine ⟨h.now, fun k' hk' => ?_, fun k' hk' hm' => ?_⟩
  · by_cases heq : k' = k
    · subst heq
      simpa [Store.put] using he
    · simpa [Store.put, heq] using h.expiry k' hk'
  · have hne : k' ≠ k := fun heq => hm' (heq ▸ hm)
    simpa [Store.put, hne] using h.entry k' hk' hm'

theorem Agree.put (h : Agree hidden masked s t) (e : Option Entry) :
    Agree hidden masked (s.put k e) (t.put k e) := by
  refine ⟨h.now, fun k' hk' => ?_, fun k' hk' hm' => ?_⟩
  · by_cases heq : k' = k
    · simp [Store.put, heq]
    · simpa [Store.put, heq] using h.expiry k' hk'
  · by_cases heq : k' = k
    · simp [Store.put, heq]
    · simpa [Store.put, heq] using h.entry k' hk' hm'

/-- A command on a key that is neither hidden nor masked answers the same on both sides. -/
theorem Agree.exec (h : Agree hidden masked s t) {c : RedisCmd} (hc : c.key = some k)
    (hk : ¬ hidden k) (hm : ¬ masked k) :
    (exec c s).1 = (exec c t).1 ∧ Agree hidden masked (exec c s).2 (exec c t).2 := by
  have hlookup := h.lookup hk hm
  cases c with
  | sadd => cases hc
  | get k' =>
    obtain rfl := Option.some.inj hc
    exact ⟨congrArg (Option.map Entry.value) hlookup, h⟩
  | ttl k' =>
    obtain rfl := Option.some.inj hc
    exact ⟨h.ttl hk, h⟩
  | del k' =>
    obtain rfl := Option.some.inj hc
    exact ⟨by simp only [Store.exec, hlookup], h.put none⟩
  | setEx k' value seconds =>
    obtain rfl := Option.some.inj hc
    simp only [Store.exec, h.now]
    split
    · exact ⟨rfl, h⟩
    · exact ⟨rfl, h.put _⟩
  | incr k' =>
    obtain rfl := Option.some.inj hc
    simp only [Store.exec, Store.incr, hlookup]
    split
    · exact ⟨rfl, h.put _⟩
    · exact ⟨rfl, h⟩
  | expire k' seconds =>
    obtain rfl := Option.some.inj hc
    simp only [Store.exec, Store.expire, hlookup, h.now]
    split
    · exact ⟨rfl, h⟩
    · split
      · exact ⟨rfl, h.put _⟩
      · exact ⟨rfl, h.put _⟩

/-- A script on such a key does the same on both sides. -/
theorem Agree.result {α : Type} (h : Agree hidden masked s t) {p : Prog RedisCmd RedisCmd.Ans α}
    (hp : p.Issues (fun c => c.key = some k)) (hk : ¬ hidden k) (hm : ¬ masked k) :
    (p.result Store.exec s).1 = (p.result Store.exec t).1 ∧
      Agree hidden masked (p.result Store.exec s).2 (p.result Store.exec t).2 := by
  induction p generalizing s t with
  | ret a => exact ⟨rfl, h⟩
  | call c f ih =>
    obtain ⟨hans, hnext⟩ := h.exec hp.1 hk hm
    simp only [Prog.result]
    rw [hans]
    exact ih _ hnext (hp.2 _)

end Mesty.Redis.Agreement
