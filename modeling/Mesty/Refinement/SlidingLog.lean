import Mathlib.Data.List.Dedup
import Mathlib.Order.Lattice

namespace Mesty.Refinement.SlidingLog

variable {T M N : Type} [Add T] [LinearOrder T]

/-- The times that are less than the width before `t`. -/
def recent (width t : T) (log : List T) : List T := log.filter (fun a => t < a + width)

/-- A time is admitted if the recent admitted ones leave room. -/
def record (width : T) (limit : Nat) (log : List T) (t : T) : List T :=
  if (recent width t log).length < limit then log ++ [t] else log

/-- The log of a sliding window. -/
def admitted (width : T) (limit : Nat) (log ts : List T) : List T :=
  ts.foldl (record width limit) log

/-- The answers of a window that counts the marks of the times in its log. -/
def answers [DecidableEq M] (mark : T → M) (width : T) (limit : Nat) :
    (log : List T) → List T → List (T × Bool)
  | _, [] => []
  | log, t :: ts =>
    if ((recent width t log).map mark).dedup.length < limit then
      (t, true) :: answers mark width limit (log ++ [t]) ts
    else (t, false) :: answers mark width limit log ts

/-- The times that are answered with yes. -/
def allowedTimes (as : List (T × Bool)) : List T := (as.filter Prod.snd).map Prod.fst

/-- A time is allowed exactly if fewer than `limit` of the times that are allowed before it lie in
the half-open interval of the width that ends with it. -/
def Exact (width : T) (limit : Nat) (log : List T) (as : List (T × Bool)) : Prop :=
  ∀ before t allowed after, as = before ++ (t, allowed) :: after → (allowed = true ↔
    (log ++ allowedTimes before).countP (fun a => t < a + width ∧ a ≤ t) < limit)

/-- Where a time is refused, the marks of those that leave no room for it are different. -/
def ToldApart (mark : T → M) (width : T) (limit : Nat) (log ts : List T) : Prop :=
  ∀ before t after, ts = before ++ t :: after →
    limit ≤ (recent width t (admitted width limit log before)).length →
      ((recent width t (admitted width limit log before)).map mark).Nodup

variable {mark : T → M} {width t : T} {limit : Nat} {log ts : List T}

theorem exact_cons_iff {allowed : Bool} {as : List (T × Bool)} :
    Exact width limit log ((t, allowed) :: as) ↔
      (allowed = true ↔ log.countP (fun a => t < a + width ∧ a ≤ t) < limit) ∧
        Exact width limit (if allowed then log ++ [t] else log) as := by
  have hnext : ∀ before : List (T × Bool), log ++ allowedTimes ((t, allowed) :: before) =
      (if allowed then log ++ [t] else log) ++ allowedTimes before := by
    intro before
    cases allowed with
    | false => rfl
    | true => exact (List.append_assoc log [t] _).symm
  constructor
  · intro h
    refine ⟨?_, fun before u b after heq => ?_⟩
    · have hfirst := h [] t allowed as rfl
      rwa [allowedTimes, List.filter_nil, List.map_nil, List.append_nil] at hfirst
    · rw [← hnext]
      exact h ((t, allowed) :: before) u b after (congrArg _ heq)
  · rintro ⟨hfirst, hrest⟩ before u b after heq
    cases before with
    | nil =>
      cases heq
      rwa [allowedTimes, List.filter_nil, List.map_nil, List.append_nil]
    | cons a before =>
      obtain ⟨rfl, htail⟩ := List.cons_eq_cons.mp heq
      rw [hnext]
      exact hrest before u b after htail

theorem toldApart_cons_iff : ToldApart mark width limit log (t :: ts) ↔
    (limit ≤ (recent width t log).length → ((recent width t log).map mark).Nodup) ∧
      ToldApart mark width limit (record width limit log t) ts := by
  constructor
  · intro h
    refine ⟨h [] t ts rfl, fun before u after heq => ?_⟩
    exact h (t :: before) u after (congrArg _ heq)
  · rintro ⟨hfirst, hrest⟩ before u after heq
    cases before with
    | nil =>
      cases heq
      exact hfirst
    | cons a before =>
      obtain ⟨rfl, htail⟩ := List.cons_eq_cons.mp heq
      exact hrest before u after htail

/-- Only the equality of marks counts. -/
theorem toldApart_comp_iff {f : M → N} (hf : Function.Injective f) :
    ToldApart (f ∘ mark) width limit log ts ↔ ToldApart mark width limit log ts := by
  simp only [ToldApart, ← List.map_map, List.nodup_map_iff hf]

theorem recent_append (a : T) :
    recent width t (log ++ [a]) = recent width t log ++ if t < a + width then [a] else [] := by
  rw [recent, List.filter_append, List.filter_singleton, Bool.cond_decide]
  rfl

theorem recent_length_le {u : T} (h : t ≤ u) :
    (recent width u log).length ≤ (recent width t log).length := by
  refine (List.monotone_filter_right log fun a ha => ?_).length_le
  rw [decide_eq_true_eq] at ha ⊢
  exact lt_of_le_of_lt h ha

/-- The window never holds more than the limit. -/
theorem length_recent_record {u : T} (h : t ≤ u) (hlog : (recent width t log).length ≤ limit) :
    (recent width u (record width limit log t)).length ≤ limit := by
  have hle : (recent width u log).length ≤ (recent width t log).length := recent_length_le h
  rw [record]
  split_ifs with hroom
  · rw [recent_append]
    split_ifs
    · rw [List.length_append, List.length_singleton]
      omega
    · rw [List.append_nil]
      omega
  · omega

variable [DecidableEq M]

theorem le_dedup_length_iff {marks : List M} (h : marks.length ≤ limit) :
    limit ≤ marks.dedup.length ↔ limit ≤ marks.length ∧ marks.Nodup := by
  have hle := marks.dedup_sublist.length_le
  constructor
  · intro hlimit
    refine ⟨hlimit.trans hle, List.dedup_eq_self.mp ?_⟩
    exact marks.dedup_sublist.eq_of_length (le_antisymm hle (h.trans hlimit))
  · rintro ⟨hlimit, hnodup⟩
    rwa [hnodup.dedup]

theorem countP_recent (h : ∀ a ∈ log, a ≤ t) :
    log.countP (fun a => t < a + width ∧ a ≤ t) = (recent width t log).length := by
  rw [recent, ← List.countP_eq_length_filter]
  refine List.countP_congr fun a ha => ?_
  rw [decide_eq_true_eq, decide_eq_true_eq, and_iff_left (h a ha)]

/-- One answer is right if the marks count as many times as there are. -/
theorem exact_answers_cons_iff (hlog : ∀ a ∈ log, a ≤ t)
    (hcap : (recent width t log).length ≤ limit) :
    Exact width limit log (answers mark width limit log (t :: ts)) ↔
      (limit ≤ (recent width t log).length → ((recent width t log).map mark).Nodup) ∧
        Exact width limit (record width limit log t)
          (answers mark width limit (record width limit log t) ts) := by
  have hmarks : ((recent width t log).map mark).length ≤ limit := by rwa [List.length_map]
  have hroom := le_dedup_length_iff hmarks
  rw [List.length_map] at hroom
  rw [answers, record]
  split_ifs with hmarked hfree hfree
  · rw [exact_cons_iff, countP_recent hlog, if_pos rfl]
    exact and_congr_left fun _ => iff_of_true (iff_of_true rfl hfree) fun h => absurd hfree h.not_gt
  · rw [exact_cons_iff, countP_recent hlog]
    have hnodup : ¬ ((recent width t log).map mark).Nodup :=
      fun h => hmarked.not_ge (hroom.mpr ⟨not_lt.mp hfree, h⟩)
    exact iff_of_false (fun h => hfree (h.1.mp rfl)) fun h => hnodup (h.1 (not_lt.mp hfree))
  · exact absurd (hroom.mp (not_lt.mp hmarked)).1 hfree.not_ge
  · rw [exact_cons_iff, countP_recent hlog, if_neg Bool.false_ne_true]
    have hnodup := (hroom.mp (not_lt.mp hmarked)).2
    exact and_congr_left fun _ => iff_of_true (iff_of_false Bool.false_ne_true hfree) fun _ => hnodup

theorem exact_iff_of_log (hlog : ∀ a ∈ log, ∀ u ∈ ts, a ≤ u) (hts : ts.Pairwise (· ≤ ·))
    (hcap : ∀ u ∈ ts, (recent width u log).length ≤ limit) :
    Exact width limit log (answers mark width limit log ts) ↔
      ToldApart mark width limit log ts := by
  induction ts generalizing log with
  | nil =>
    refine iff_of_true (fun before u b after heq => ?_) fun before u after heq => ?_
    · cases before <;> cases heq
    · cases before <;> cases heq
  | cons t ts ih =>
    obtain ⟨hfirst, hrest⟩ := List.pairwise_cons.mp hts
    have hnow := hcap t List.mem_cons_self
    have hpast : ∀ a ∈ log, a ≤ t := fun a ha => hlog a ha t List.mem_cons_self
    rw [exact_answers_cons_iff hpast hnow, toldApart_cons_iff]
    refine and_congr_right fun _ => ih ?_ hrest fun u hu => length_recent_record (hfirst u hu) hnow
    intro a ha u hu
    rw [record] at ha
    split_ifs at ha
    · obtain ha | ha := List.mem_append.mp ha
      · exact (hpast a ha).trans (hfirst u hu)
      · exact List.mem_singleton.mp ha ▸ hfirst u hu
    · exact (hpast a ha).trans (hfirst u hu)

/-- A window that counts marks is exact if and only if it tells the times apart that are in its
way. -/
theorem exact_iff_toldApart (mark : T → M) (width : T) (limit : Nat) (hts : ts.Pairwise (· ≤ ·)) :
    Exact width limit [] (answers mark width limit [] ts) ↔
      ToldApart mark width limit [] ts := by
  refine exact_iff_of_log (fun a ha => absurd ha List.not_mem_nil) hts fun u _ => ?_
  exact Nat.zero_le limit

end Mesty.Refinement.SlidingLog
