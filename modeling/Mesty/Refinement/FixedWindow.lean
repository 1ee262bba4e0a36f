import Mathlib.Algebra.Order.Monoid.Defs
import Mathlib.Data.List.Chain
import Mathlib.Data.List.Count

namespace Mesty.Refinement.FixedWindow

variable {T : Type} [AddCommMonoid T] [LinearOrder T]

/-- The time comes before the end of the lifetime that has had these times so far. -/
def Within (width : T) (current : List T) (t : T) : Prop :=
  ∃ start ∈ current.head?, t < start + width

instance (width : T) (current : List T) (t : T) : Decidable (Within width current t) :=
  match h : current.head? with
  | none => .isFalse (by rw [Within, h]; rintro ⟨_, ⟨⟩, -⟩)
  | some start => decidable_of_iff (t < start + width) (by simp [Within, h])

/-- The lifetimes of a counter that starts again with the first time after its end. -/
def lifetimes (width : T) : (current : List T) → List T → List (List T)
  | current, [] => [current]
  | current, t :: ts =>
    if Within width current t then lifetimes width (current ++ [t]) ts
    else current :: lifetimes width [t] ts

/-- The first times of each lifetime. -/
def admitted (cap : Nat) (gs : List (List T)) : List T := gs.flatMap (List.take cap)

/-- No interval of the width has more than so many times. -/
def Limited (width : T) (limit : Nat) (ts : List T) : Prop :=
  ∀ start, ts.countP (fun t => start ≤ t ∧ t < start + width) ≤ limit

/-- When the next lifetime admits its time number `j + 1`, so many of the times that this one
has admitted are old enough that both together keep the limit. -/
def Spaced (width : T) (cap limit : Nat) (g g' : List T) : Prop :=
  ∀ (j : Nat) t, (g'.take cap)[j]? = some t →
    (g.take cap).countP (fun a => t < a + width) + (j + 1) ≤ limit

section Limited

variable [IsOrderedAddMonoid T] {width : T} {limit : Nat} {ts : List T} {t : T}

omit [IsOrderedAddMonoid T] in
theorem Limited.sublist {ts' : List T} (h : Limited width limit ts') (hsub : ts.Sublist ts') :
    Limited width limit ts := fun start => hsub.countP_le.trans (h start)

/-- One more time is allowed if those that are less than the width before it leave room. -/
theorem limited_snoc_iff (hlimit : 0 < limit) (hsorted : ∀ a ∈ ts, a ≤ t)
    (hts : ts.Pairwise (· ≤ ·)) : Limited width limit (ts ++ [t]) ↔
      Limited width limit ts ∧ ts.countP (fun a => t < a + width) + 1 ≤ limit := by
  constructor
  · intro h
    refine ⟨h.sublist (List.sublist_append_left _ _), ?_⟩
    cases hrecent : ts.filter (fun a => t < a + width) with
    | nil =>
      rw [List.countP_eq_length_filter, hrecent]
      exact hlimit
    | cons a recent =>
      have hmem : a ∈ ts.filter (fun a => t < a + width) := hrecent ▸ List.mem_cons_self
      obtain ⟨ha, hta⟩ := List.mem_filter.mp hmem
      have hta := of_decide_eq_true hta
      have hfirst : ∀ b ∈ ts, t < b + width → a ≤ b := by
        intro b hb hbt
        have hmem : b ∈ a :: recent := hrecent ▸ List.mem_filter.mpr ⟨hb, by simpa using hbt⟩
        have hpair : (a :: recent).Pairwise (· ≤ ·) := hrecent ▸ hts.filter _
        obtain rfl | hmem := List.mem_cons.mp hmem
        · exact le_rfl
        · exact List.rel_of_pairwise_cons hpair hmem
      have hle := h a
      rw [List.countP_append, List.countP_singleton, if_pos (by simp [hta, hsorted a ha])] at hle
      refine le_trans (Nat.add_le_add_right (List.countP_mono_left fun b hb hbt => ?_) 1) hle
      have hbt : t < b + width := by simpa using hbt
      simp [hfirst b hb hbt, lt_of_le_of_lt (hsorted b hb) hta]
  · rintro ⟨hold, hroom⟩ start
    rw [List.countP_append, List.countP_singleton]
    split_ifs with ht
    · have ht : start ≤ t ∧ t < start + width := by simpa using ht
      refine le_trans (Nat.add_le_add_right (List.countP_mono_left fun a _ ha => ?_) 1) hroom
      have ha : start ≤ a ∧ a < start + width := by simpa using ha
      simpa using lt_of_lt_of_le ht.2 (add_le_add_left ha.1 width)
    · exact hold start

end Limited

section Lifetimes

variable {width : T} {cap limit : Nat} {g g' current previous more ts : List T} {t : T}

theorem exists_lifetimes_eq (width : T) (current ts : List T) :
    ∃ more rest, lifetimes width current ts = (current ++ more) :: rest := by
  induction ts generalizing current with
  | nil => exact ⟨[], [], by rw [lifetimes, List.append_nil]⟩
  | cons t ts ih =>
    rw [lifetimes]
    split_ifs
    · obtain ⟨more, rest, heq⟩ := ih (current ++ [t])
      exact ⟨t :: more, rest, by rw [heq, List.append_assoc, List.singleton_append]⟩
    · exact ⟨[], _, by rw [List.append_nil]⟩

theorem Spaced.of_append (h : Spaced width cap limit g (g' ++ more)) :
    Spaced width cap limit g g' := by
  intro j t hget
  refine h j t ?_
  rw [List.getElem?_take] at hget ⊢
  split_ifs at hget ⊢ with hlt
  rw [List.getElem?_append_left (List.getElem?_eq_some_iff.mp hget).1, hget]

theorem spaced_nil (hcap : cap ≤ limit) : Spaced width cap limit [] g := by
  intro j t hget
  have hlt := (List.getElem?_eq_some_iff.mp hget).1
  rw [List.length_take] at hlt
  rw [List.take_nil, List.countP_nil]
  omega

/-- One more time of the next lifetime. -/
theorem spaced_snoc_iff : Spaced width cap limit g (g' ++ [t]) ↔ Spaced width cap limit g g' ∧
    (g'.length < cap → (g.take cap).countP (fun a => t < a + width) + (g'.length + 1) ≤ limit) := by
  constructor
  · intro h
    refine ⟨h.of_append, fun hlt => h g'.length t ?_⟩
    rw [List.getElem?_take_of_lt hlt, List.getElem?_concat_length]
  · rintro ⟨hold, hnew⟩ j u hget
    rw [List.getElem?_take] at hget
    split_ifs at hget with hlt
    rw [List.getElem?_append] at hget
    split_ifs at hget with hj
    · exact hold j u (by rw [List.getElem?_take_of_lt hlt, hget])
    · rw [List.getElem?_singleton] at hget
      split_ifs at hget with hzero
      obtain rfl := Option.some.inj hget
      have hlast : j = g'.length := by omega
      exact hlast ▸ hnew (hlast ▸ hlt)

omit [AddCommMonoid T] [LinearOrder T] in
theorem admitted_cons (g : List T) (gs : List (List T)) :
    admitted cap (g :: gs) = g.take cap ++ admitted cap gs := List.flatMap_cons

/-- One more time in the current lifetime breaks the limit exactly if it comes too early after
the lifetime before. -/
theorem limited_step_iff [IsOrderedAddMonoid T] {pre : List T} (hcap : cap ≤ limit)
    (hlimited : Limited width limit (pre ++ previous.take cap ++ current.take cap))
    (hspaced : Spaced width cap limit previous current) (hold : ∀ a ∈ pre, a + width ≤ t)
    (hrecent : ∀ a ∈ current, t < a + width)
    (hsorted : (pre ++ previous.take cap ++ current.take cap ++ [t]).Pairwise (· ≤ ·)) :
    Limited width limit (pre ++ previous.take cap ++ (current ++ [t]).take cap) ↔
      Spaced width cap limit previous (current ++ [t]) := by
  rw [spaced_snoc_iff, and_iff_right hspaced]
  by_cases hlt : current.length < cap
  · have hnone : pre.countP (fun a => t < a + width) = 0 := by
      rw [List.countP_eq_zero]
      exact fun a ha => by simpa using hold a ha
    have hall : current.countP (fun a => t < a + width) = current.length := by
      rw [List.countP_eq_length]
      exact fun a ha => by simpa using hrecent a ha
    have htake : (current ++ [t]).take cap = current ++ [t] :=
      List.take_of_length_le (by rw [List.length_append, List.length_singleton]; omega)
    rw [List.take_of_length_le hlt.le] at hlimited hsorted
    obtain ⟨hts, -, hle⟩ := List.pairwise_append.mp hsorted
    rw [htake, ← List.append_assoc, limited_snoc_iff (by omega)
      (fun a ha => hle a ha t (List.mem_singleton_self t)) hts, and_iff_right hlimited,
      List.countP_append, List.countP_append, hnone, hall, Nat.zero_add, Nat.add_assoc]
    exact (imp_iff_right hlt).symm
  · rw [List.take_append_of_le_length (not_lt.mp hlt)]
    exact iff_of_true hlimited fun h => absurd h hlt

/-- What is left to see after a step, if it was harmless. -/
theorem limited_lifetimes_of_step {pre : List T} (current : List T)
    (hstep : Limited width limit (pre ++ previous.take cap ++ current.take cap) ↔
      Spaced width cap limit previous current)
    (ih : Limited width limit (pre ++ previous.take cap ++ current.take cap) →
      Spaced width cap limit previous current →
        (Limited width limit (pre ++ admitted cap (previous :: lifetimes width current ts)) ↔
          (previous :: lifetimes width current ts).IsChain (Spaced width cap limit))) :
    Limited width limit (pre ++ admitted cap (previous :: lifetimes width current ts)) ↔
      (previous :: lifetimes width current ts).IsChain (Spaced width cap limit) := by
  by_cases hspaced : Spaced width cap limit previous current
  · exact ih (hstep.mpr hspaced) hspaced
  · obtain ⟨more, rest, heq⟩ := exists_lifetimes_eq width current ts
    rw [heq]
    refine iff_of_false (fun h => hspaced (hstep.mp (h.sublist ?_))) fun h => ?_
    · rw [admitted_cons, admitted_cons, ← List.append_assoc, ← List.append_assoc]
      refine List.Sublist.trans ?_ (List.sublist_append_left _ _)
      rw [List.take_append]
      exact (List.sublist_append_left _ _).append_left _
    · exact hspaced (List.isChain_cons_cons.mp h).1.of_append

/-- All times of a lifetime are younger than the width until it ends. -/
theorem recent_of_within [IsOrderedAddMonoid T] (hsorted : current.Pairwise (· ≤ ·))
    (h : Within width current t) : ∀ a ∈ current, t < a + width := by
  obtain ⟨start, hstart, hlt⟩ := h
  intro a ha
  obtain ⟨rest, rfl⟩ := List.head?_eq_some_iff.mp hstart
  have hfirst : start ≤ a := by
    obtain rfl | ha := List.mem_cons.mp ha
    · exact le_rfl
    · exact List.rel_of_pairwise_cons hsorted ha
  exact lt_of_lt_of_le hlt (add_le_add_left hfirst width)

/-- When it has ended, what came before it is older than the width. -/
theorem old_of_not_within [IsOrderedAddMonoid T] (hsorted : (previous ++ current).Pairwise (· ≤ ·))
    (hempty : current = [] → previous = []) (h : ¬ Within width current t) :
    ∀ a ∈ previous, a + width ≤ t := by
  intro a ha
  cases current with
  | nil =>
    rw [hempty rfl] at ha
    cases ha
  | cons start current =>
    have hstart : a ≤ start := (List.pairwise_append.mp hsorted).2.2 a ha start List.mem_cons_self
    have hend : start + width ≤ t := not_lt.mp fun hlt => h ⟨start, rfl, hlt⟩
    exact (add_le_add_left hstart width).trans hend

theorem limited_lifetimes_iff [IsOrderedAddMonoid T] {pre : List T} (hcap : cap ≤ limit)
    (hsorted : (pre ++ previous ++ current ++ ts).Pairwise (· ≤ ·))
    (hold : ∀ a ∈ pre, ∀ u ∈ ts, a + width ≤ u) (hempty : current = [] → previous = [])
    (hlimited : Limited width limit (pre ++ previous.take cap ++ current.take cap))
    (hspaced : Spaced width cap limit previous current) :
    Limited width limit (pre ++ admitted cap (previous :: lifetimes width current ts)) ↔
      (previous :: lifetimes width current ts).IsChain (Spaced width cap limit) := by
  induction ts generalizing pre previous current with
  | nil =>
    rw [lifetimes, admitted_cons, admitted_cons, ← List.append_assoc, ← List.append_assoc]
    refine iff_of_true ?_ (List.isChain_pair.mpr hspaced)
    rwa [admitted, List.flatMap_nil, List.append_nil]
  | cons t ts ih =>
    have hsub : (pre ++ previous.take cap ++ current.take cap ++ [t]).Pairwise (· ≤ ·) := by
      refine hsorted.sublist (List.Sublist.append ?_ ((List.nil_sublist ts).cons_cons t))
      exact ((List.take_sublist _ _).append_left pre).append (List.take_sublist _ _)
    obtain ⟨hdone, hrest, hle⟩ := List.pairwise_append.mp hsorted
    by_cases hin : Within width current t
    · have hrecent := recent_of_within (List.pairwise_append.mp hdone).2.1 hin
      rw [lifetimes, if_pos hin]
      refine limited_lifetimes_of_step (current ++ [t]) (limited_step_iff hcap hlimited hspaced
        (fun a ha => hold a ha t List.mem_cons_self) hrecent hsub) fun hl hs => ?_
      refine ih ?_ (fun a ha u hu => hold a ha u (List.mem_cons_of_mem t hu)) (by simp) hl hs
      rwa [← List.append_assoc, List.append_assoc _ [t], List.singleton_append]
    · have hprevious : ∀ a ∈ previous, ∀ u ∈ t :: ts, a + width ≤ u := by
        intro a ha u hu
        rw [List.append_assoc] at hdone
        have hat := old_of_not_within (List.pairwise_append.mp hdone).2.1 hempty hin a ha
        obtain rfl | hu := List.mem_cons.mp hu
        · exact hat
        · exact hat.trans (List.rel_of_pairwise_cons hrest hu)
      have hold' : ∀ a ∈ pre ++ previous.take cap, ∀ u ∈ t :: ts, a + width ≤ u := by
        intro a ha u hu
        obtain ha | ha := List.mem_append.mp ha
        · exact hold a ha u hu
        · exact hprevious a (List.mem_of_mem_take ha) u hu
      rw [lifetimes, if_neg hin, admitted_cons, ← List.append_assoc, List.isChain_cons_cons,
        and_iff_right hspaced]
      have hnil : (pre ++ previous.take cap) ++ current.take cap ++ ([] : List T).take cap =
          pre ++ previous.take cap ++ current.take cap := by rw [List.take_nil, List.append_nil]
      have hrecent : ∀ a ∈ ([] : List T), t < a + width := fun a ha => absurd ha List.not_mem_nil
      have hstep := limited_step_iff hcap (by rwa [hnil]) (fun j u hget => by simp at hget)
        (fun a ha => hold' a ha t List.mem_cons_self) hrecent (by rwa [hnil])
      refine limited_lifetimes_of_step [t] hstep fun hl hs => ?_
      refine ih ?_ (fun a ha u hu => hold' a ha u (List.mem_cons_of_mem t hu)) (by simp) hl hs
      rw [List.append_assoc _ [t], List.singleton_append]
      refine hsorted.sublist (List.Sublist.append_right ?_ _)
      exact ((List.take_sublist _ _).append_left pre).append_right _

/-- A counter that starts again after each lifetime keeps the limit in all intervals of the width
exactly if consecutive lifetimes are spaced. -/
theorem limited_iff_spaced [IsOrderedAddMonoid T] (width : T) (hcap : cap ≤ limit)
    (hsorted : ts.Pairwise (· ≤ ·)) :
    Limited width limit (admitted cap (lifetimes width [] ts)) ↔
      (lifetimes width [] ts).IsChain (Spaced width cap limit) := by
  have hempty : Limited width limit ([] : List T) := fun _ => Nat.zero_le limit
  have hold : ∀ a ∈ ([] : List T), ∀ u ∈ ts, a + width ≤ u := fun a ha => absurd ha List.not_mem_nil
  have hspaced : Spaced width cap limit [] ([] : List T) := spaced_nil hcap
  have hiff := limited_lifetimes_iff hcap hsorted hold (fun _ => rfl) (by simpa using hempty) hspaced
  obtain ⟨more, rest, heq⟩ := exists_lifetimes_eq width ([] : List T) ts
  rw [heq, List.isChain_cons_cons, and_iff_right (spaced_nil hcap), ← heq] at hiff
  rwa [admitted_cons, List.take_nil, List.nil_append, List.nil_append] at hiff

end Lifetimes

end Mesty.Refinement.FixedWindow
