import Mesty.Paging.Keyset

namespace Mesty.Paging.Drift

open Mesty.Paging.Keyset

variable {α κ : Type} [LinearOrder κ]

/-- Pages of at most `n` rows that a client gets one after the other, each from behind the last row
of the page before. Every page is read from some state of the table, and the last one leaves nothing
behind in its own. -/
def Drifting (key : α → κ) (Table : List α → Prop) (n : Nat) : Option κ → List (List α) → Prop
  | _, [] => False
  | bound, items :: pages => ∃ rows, Table rows ∧ items = select key bound n rows ∧
      ((pages = [] ∧ (rows.filter (fun x => ∀ k ∈ bound, k < key x)).length ≤ n) ∨
        ∃ last, items.getLast? = some last ∧ Drifting key Table n (some (key last)) pages)

variable {key : α → κ} {Table : List α → Prop} {n : Nat} {bound : Option κ} {pages : List (List α)}
  {rows : List α}

/-- Every row of a page has been in the table. -/
theorem seen_of_drifting (h : Drifting key Table n bound pages) :
    ∀ x ∈ pages.flatten, ∃ rows, Table rows ∧ x ∈ rows := by
  induction pages generalizing bound with
  | nil => exact absurd h id
  | cons items pages ih =>
    obtain ⟨rows, htable, rfl, hlater⟩ := h
    intro x hx
    rw [List.flatten_cons, List.mem_append] at hx
    obtain hx | hx := hx
    · exact ⟨rows, htable, (mem_select hx).1⟩
    · obtain ⟨rfl, -⟩ | ⟨last, -, hdrift⟩ := hlater
      · cases hx
      · exact ih hdrift x hx

theorem above_of_drifting (h : Drifting key Table n bound pages) :
    ∀ x ∈ pages.flatten, ∀ k ∈ bound, k < key x := by
  induction pages generalizing bound with
  | nil => exact absurd h id
  | cons items pages ih =>
    obtain ⟨rows, htable, rfl, hlater⟩ := h
    intro x hx k hk
    rw [List.flatten_cons, List.mem_append] at hx
    obtain hx | hx := hx
    · exact (mem_select hx).2 k hk
    · obtain ⟨rfl, -⟩ | ⟨last, hlast, hdrift⟩ := hlater
      · cases hx
      · have hbound := (mem_select (List.mem_of_getLast? hlast)).2 k hk
        exact hbound.trans (ih hdrift x hx _ rfl)

section Order

variable (hnodup : ∀ rows, Table rows → (rows.map key).Nodup)
include hnodup

theorem select_sorted (htable : Table rows) (bound : Option κ) :
    (select key bound n rows).Pairwise (fun x y => key x < key y) := by
  have hfilter := (hnodup rows htable).sublist ((List.filter_sublist (p := fun x =>
    decide (∀ k ∈ bound, k < key x))).map key)
  exact (sortBy_sorted hfilter).sublist (List.take_sublist _ _)

theorem le_getLast {last : α} (htable : Table rows)
    (hlast : (select key bound n rows).getLast? = some last) :
    ∀ x ∈ select key bound n rows, key x ≤ key last := by
  obtain ⟨front, hfront⟩ := List.getLast?_eq_some_iff.mp hlast
  have hsorted := select_sorted hnodup htable (n := n) bound
  rw [hfront, List.pairwise_append] at hsorted
  intro x hx
  rw [hfront, List.mem_append, List.mem_singleton] at hx
  obtain hx | rfl := hx
  · exact (hsorted.2.2 x hx last (List.mem_singleton_self _)).le
  · exact le_rfl

/-- Whatever happens to the table, the pages ascend. -/
theorem sorted_of_drifting (h : Drifting key Table n bound pages) :
    pages.flatten.Pairwise (fun x y => key x < key y) := by
  induction pages generalizing bound with
  | nil => exact absurd h id
  | cons items pages ih =>
    obtain ⟨rows, htable, rfl, hlater⟩ := h
    rw [List.flatten_cons, List.pairwise_append]
    refine ⟨select_sorted hnodup htable bound, ?_, ?_⟩
    · obtain ⟨rfl, -⟩ | ⟨last, -, hdrift⟩ := hlater
      · exact List.Pairwise.nil
      · exact ih hdrift
    · intro x hx y hy
      obtain ⟨rfl, -⟩ | ⟨last, hlast, hdrift⟩ := hlater
      · cases hy
      · have habove := above_of_drifting hdrift y hy (key last) rfl
        exact (le_getLast hnodup htable hlast x hx).trans_lt habove

/-- A row that the page has left comes after its rows, and there are more than fit. -/
theorem left_of_select {x : α} (htable : Table rows) (hx : x ∈ rows) (hbound : ∀ k ∈ bound, k < key x)
    (hleft : x ∉ select key bound n rows) :
    n < (rows.filter (fun x => ∀ k ∈ bound, k < key x)).length ∧
      ∀ y ∈ select key bound n rows, key y < key x := by
  have hmem : x ∈ rows.filter (fun x => ∀ k ∈ bound, k < key x) :=
    List.mem_filter.mpr ⟨hx, decide_eq_true hbound⟩
  have hkeys : ((rows.filter (fun x => ∀ k ∈ bound, k < key x)).map key).Nodup :=
    (hnodup rows htable).sublist (List.filter_sublist.map key)
  have hselect : select key none n (rows.filter (fun x => ∀ k ∈ bound, k < key x)) =
      select key bound n rows := by simp [select]
  have hbelow := mem_select_or hkeys hmem n
  rw [hselect] at hbelow
  refine ⟨?_, (hbelow.resolve_left hleft).2⟩
  by_contra hle
  refine hleft ?_
  rw [select, List.take_of_length_le (by rw [(sortBy_perm _).length_eq]; omega)]
  exact (sortBy_perm _).mem_iff.mpr hmem

/-- Whatever else happens to the table, a key that stays in it is on a page. -/
theorem complete_of_drifting (h : Drifting key Table n bound pages) {k : κ}
    (hstays : ∀ rows, Table rows → k ∈ rows.map key) (hbound : ∀ k' ∈ bound, k' < k) :
    k ∈ pages.flatten.map key := by
  induction pages generalizing bound with
  | nil => exact absurd h id
  | cons items pages ih =>
    obtain ⟨rows, htable, rfl, hlater⟩ := h
    obtain ⟨x, hx, rfl⟩ := List.mem_map.mp (hstays rows htable)
    rw [List.flatten_cons, List.map_append, List.mem_append]
    by_cases hshown : x ∈ select key bound n rows
    · exact .inl (List.mem_map_of_mem hshown)
    · obtain ⟨hmore, hbelow⟩ := left_of_select hnodup htable hx hbound hshown
      obtain ⟨-, hlast⟩ | ⟨last, hlast, hdrift⟩ := hlater
      · omega
      · refine .inr (ih hdrift ?_)
        rintro _ ⟨⟩
        exact hbelow last (List.mem_of_getLast? hlast)

end Order

end Mesty.Paging.Drift
