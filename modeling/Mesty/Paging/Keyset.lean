import Mathlib.Data.List.Sort

namespace Mesty.Paging.Keyset

variable {α κ γ : Type}

section Select

variable [LinearOrder κ] (key : α → κ)

def sortBy (rows : List α) : List α := rows.insertionSort (fun x y => key x ≤ key y)

/-- SELECT … WHERE `bound < key` ORDER BY `key` LIMIT `n`. Without a bound all rows qualify. -/
def select (bound : Option κ) (n : Nat) (rows : List α) : List α :=
  (sortBy key (rows.filter (fun x => ∀ k ∈ bound, k < key x))).take n

variable {key} {rows : List α}

theorem sortBy_perm (rows : List α) : (sortBy key rows).Perm rows := List.perm_insertionSort _ _

theorem sortBy_pairwise (rows : List α) :
    (sortBy key rows).Pairwise (fun x y => key x ≤ key y) := by
  have : Std.Total (fun x y => key x ≤ key y) := ⟨fun x y => le_total (key x) (key y)⟩
  have : IsTrans α (fun x y => key x ≤ key y) := ⟨fun _ _ _ => le_trans⟩
  exact List.pairwise_insertionSort _ _

theorem sortBy_sorted (h : (rows.map key).Nodup) :
    (sortBy key rows).Pairwise (fun x y => key x < key y) := by
  have hne : (sortBy key rows).Pairwise (fun x y => key x ≠ key y) := by
    have hperm : (sortBy key rows).Perm rows := sortBy_perm rows
    have := (hperm.map key).nodup_iff.mpr h
    exact List.pairwise_map.mp this
  exact (sortBy_pairwise rows).imp₂ (fun _ _ hle hne => lt_of_le_of_ne hle hne) hne

theorem eq_of_sorted {xs ys : List α} (hperm : xs.Perm ys)
    (hx : xs.Pairwise (fun x y => key x < key y)) (hy : ys.Pairwise (fun x y => key x < key y)) :
    xs = ys :=
  hperm.eq_of_pairwise (fun _ _ _ _ h h' => absurd h (lt_asymm h')) hx hy

theorem sortBy_filter (h : (rows.map key).Nodup) (p : α → Bool) :
    sortBy key (rows.filter p) = (sortBy key rows).filter p :=
  eq_of_sorted ((sortBy_perm _).trans ((sortBy_perm rows).filter p).symm)
    (sortBy_sorted (h.sublist (List.filter_sublist.map key))) ((sortBy_sorted h).filter p)

/-- In the dual order everything stands the other way round. -/
theorem sortBy_dual (h : (rows.map key).Nodup) :
    sortBy (OrderDual.toDual ∘ key) rows = (sortBy key rows).reverse := by
  have hdual : (rows.map (OrderDual.toDual ∘ key)).Nodup := by
    rw [← List.map_map]
    exact h.map OrderDual.toDual.injective
  exact eq_of_sorted ((sortBy_perm _).trans ((List.reverse_perm _).trans (sortBy_perm rows)).symm)
    (sortBy_sorted hdual) (List.pairwise_reverse.mpr (sortBy_sorted h))

theorem select_eq (h : (rows.map key).Nodup) (bound : Option κ) (n : Nat) :
    select key bound n rows =
      ((sortBy key rows).filter (fun x => ∀ k ∈ bound, k < key x)).take n := by
  rw [select, sortBy_filter h]

theorem sortBy_map {β : Type} (f : β → α) (key : α → κ) (rows : List β) :
    sortBy key (rows.map f) = (sortBy (key ∘ f) rows).map f :=
  (List.map_insertionSort _ _ f rows (fun _ _ _ _ => Iff.rfl)).symm

theorem select_map {β : Type} (f : β → α) (key : α → κ) (bound : Option κ) (n : Nat)
    (rows : List β) :
    select key bound n (rows.map f) = (select (key ∘ f) bound n rows).map f := by
  rw [select, select, List.filter_map, sortBy_map, List.map_take]
  rfl

theorem mem_select {bound : Option κ} {n : Nat} {x : α} (h : x ∈ select key bound n rows) :
    x ∈ rows ∧ ∀ k ∈ bound, k < key x := by
  simpa using (sortBy_perm _).mem_iff.mp (List.mem_of_mem_take h)

/-- A row is on the first page, or rows before it fill the page. -/
theorem mem_select_or (h : (rows.map key).Nodup) {x : α} (hx : x ∈ rows) (n : Nat) :
    x ∈ select key none n rows ∨
      ((select key none n rows).length = n ∧ ∀ y ∈ select key none n rows, key y < key x) := by
  have hpage : select key none n rows = (sortBy key rows).take n := by simp [select]
  have hsplit := List.take_append_drop n (sortBy key rows)
  have hmem : x ∈ (sortBy key rows).take n ++ (sortBy key rows).drop n := by
    rw [hsplit]
    exact (sortBy_perm rows).mem_iff.mpr hx
  rw [hpage]
  refine (List.mem_append.mp hmem).imp_right fun hlater => ⟨?_, fun y hy => ?_⟩
  · have hlength := List.length_pos_of_mem hlater
    rw [List.length_drop] at hlength
    rw [List.length_take]
    omega
  · have hsorted := sortBy_sorted h
    rw [← hsplit] at hsorted
    exact (List.pairwise_append.mp hsorted).2.2 y hy x hlater

/-- What comes after an element of a sorted list. -/
theorem filter_after {xs pre post : List α} {x : α}
    (h : xs.Pairwise (fun x y => key x < key y)) (heq : xs = pre ++ x :: post) :
    xs.filter (fun y => ∀ k ∈ some (key x), k < key y) = post := by
  subst heq
  obtain ⟨-, hpost, hpre⟩ := List.pairwise_append.mp h
  have h1 : pre.filter (fun y => ∀ k ∈ some (key x), k < key y) = [] := by
    rw [List.filter_eq_nil_iff]
    intro y hy
    simpa using (hpre y hy x List.mem_cons_self).le
  have h2 : post.filter (fun y => ∀ k ∈ some (key x), k < key y) = post := by
    rw [List.filter_eq_self]
    intro y hy
    simpa using (List.pairwise_cons.mp hpost).1 y hy
  rw [List.filter_append, List.filter_cons, h1, h2]
  simp

/-- The rows after the last row of a page are the ones that the page has left. -/
theorem filter_after_take {xs : List α} {bound : Option κ} {n : Nat} {x : α}
    (h : xs.Pairwise (fun x y => key x < key y))
    (hx : ((xs.filter (fun y => ∀ k ∈ bound, k < key y)).take n).getLast? = some x) :
    xs.filter (fun y => ∀ k ∈ some (key x), k < key y) =
      (xs.filter (fun y => ∀ k ∈ bound, k < key y)).drop n := by
  obtain ⟨front, hfront⟩ := List.getLast?_eq_some_iff.mp hx
  have hsplit : xs.filter (fun y => ∀ k ∈ bound, k < key y) =
      front ++ x :: (xs.filter (fun y => ∀ k ∈ bound, k < key y)).drop n := by
    conv_lhs => rw [← List.take_append_drop n (xs.filter _), hfront]
    simp
  rw [← filter_after (h.filter _) hsplit, List.filter_filter]
  refine List.filter_congr fun y _ => ?_
  have hmem : x ∈ xs.filter (fun y => ∀ k ∈ bound, k < key y) := by rw [hsplit]; simp
  have hbound : ∀ k ∈ bound, k < key x := by simpa using (List.mem_filter.mp hmem).2
  rw [← Bool.decide_and, decide_eq_decide]
  constructor
  · exact fun hy => ⟨hy, fun k hk => (hbound k hk).trans (hy (key x) rfl)⟩
  · exact fun hy => hy.1

end Select

structure Page (α γ : Type) where
  items : List α
  next : Option γ
  hasMore : Bool

/-- A client that follows `next` while there is more, for at most `fuel` requests. -/
def walk (fetch : Option γ → Option (Page α γ)) : Nat → Option γ → Option (List (List α))
  | 0, _ => none
  | fuel + 1, cursor => (fetch cursor).bind (fun p =>
      if p.hasMore then (walk fetch fuel p.next).map (fun pages => p.items :: pages)
      else some [p.items])

variable {fetch : Option γ → Option (Page α γ)} {Good : Option γ → Prop}

/-- If every page is the beginning of what remains, and `next` stands for the rest, the
client gets all that remains. -/
theorem walk_complete {rest : Option γ → List α}
    (h : ∀ cursor, Good cursor → ∃ p, fetch cursor = some p ∧
      ((p.hasMore = false ∧ p.items = rest cursor) ∨
        (p.hasMore = true ∧ p.items ≠ [] ∧ Good p.next ∧ rest cursor = p.items ++ rest p.next)))
    {fuel : Nat} (cursor : Option γ) (hgood : Good cursor) (hfuel : (rest cursor).length < fuel) :
    ∃ pages, walk fetch fuel cursor = some pages ∧ pages.flatten = rest cursor := by
  induction fuel generalizing cursor with
  | zero => omega
  | succ fuel ih =>
    obtain ⟨p, hp, ⟨hmore, hitems⟩ | ⟨hmore, hne, hnext, hrest⟩⟩ := h cursor hgood
    · exact ⟨[p.items], by simp [walk, hp, hmore], by simp [hitems]⟩
    · have hlen : (rest p.next).length < fuel := by
        have := List.length_pos_iff.mpr hne
        rw [hrest, List.length_append] at hfuel
        omega
      obtain ⟨pages, hpages, hflat⟩ := ih p.next hnext hlen
      exact ⟨p.items :: pages, by simp [walk, hp, hmore, hpages], by simp [hflat, hrest]⟩

/-- What all pages have in common, the whole walk has. -/
theorem walk_forall {Q : α → Prop}
    (h : ∀ cursor p, Good cursor → fetch cursor = some p →
      (∀ x ∈ p.items, Q x) ∧ (p.hasMore = true → Good p.next))
    {fuel : Nat} {cursor : Option γ} {pages : List (List α)} (hgood : Good cursor)
    (hwalk : walk fetch fuel cursor = some pages) : ∀ x ∈ pages.flatten, Q x := by
  induction fuel generalizing cursor pages with
  | zero => cases hwalk
  | succ fuel ih =>
    obtain ⟨p, hp, hwalk⟩ := Option.bind_eq_some_iff.mp hwalk
    obtain ⟨hitems, hnext⟩ := h cursor p hgood hp
    split_ifs at hwalk with hmore
    · obtain ⟨rest, hrest, rfl⟩ := Option.map_eq_some_iff.mp hwalk
      intro x hx
      rw [List.flatten_cons, List.mem_append] at hx
      rcases hx with hx | hx
      · exact hitems x hx
      · exact ih (hnext hmore) hrest x hx
    · obtain rfl := Option.some.inj hwalk
      simpa using hitems

/-- Without a bound nothing is filtered out. -/
theorem filter_none [LinearOrder κ] {key : α → κ} (xs : List α) :
    xs.filter (fun x => ∀ k ∈ (none : Option κ), k < key x) = xs := by simp

/-- If every page is cut from what its cursor has left, has more exactly if something stays
behind, and points to its last item, the client gets the whole list. -/
theorem walk_pages [LinearOrder κ] {key : α → κ} {all : List α}
    (hsorted : all.Pairwise (fun x y => key x < key y)) {n : Nat} (hn : 0 < n)
    (decode : Option γ → Option (Option κ)) (hstart : decode none = some none)
    (hfetch : ∀ cursor bound, decode cursor = some bound → ∃ next,
      fetch cursor = some ⟨(all.filter (fun x => ∀ k ∈ bound, k < key x)).take n, next,
        decide (n < (all.filter (fun x => ∀ k ∈ bound, k < key x)).length)⟩ ∧
      ∀ x, ((all.filter (fun x => ∀ k ∈ bound, k < key x)).take n).getLast? = some x →
        decode next = some (some (key x))) :
    ∃ fuel pages, walk fetch fuel none = some pages ∧ pages.flatten = all := by
  let rest (cursor : Option γ) : List α :=
    (decode cursor).elim [] (fun bound => all.filter (fun x => ∀ k ∈ bound, k < key x))
  have hstep : ∀ cursor, (∃ bound, decode cursor = some bound) →
      ∃ p, fetch cursor = some p ∧ ((p.hasMore = false ∧ p.items = rest cursor) ∨
        (p.hasMore = true ∧ p.items ≠ [] ∧ (∃ bound, decode p.next = some bound) ∧
          rest cursor = p.items ++ rest p.next)) := by
    rintro cursor ⟨bound, hbound⟩
    obtain ⟨next, hpage, hnext⟩ := hfetch cursor bound hbound
    have hrest : rest cursor = all.filter (fun x => ∀ k ∈ bound, k < key x) := by
      simp only [rest, hbound, Option.elim_some]
    refine ⟨_, hpage, ?_⟩
    rw [← hrest] at hnext ⊢
    by_cases hlt : n < (rest cursor).length
    · have hne : (rest cursor).take n ≠ [] :=
        List.ne_nil_of_length_pos (by rw [List.length_take]; omega)
      obtain ⟨x, hx⟩ := Option.isSome_iff_exists.mp (List.getLast?_isSome.mpr hne)
      have hdecode := hnext x hx
      have hdrop : rest next = (rest cursor).drop n := by
        rw [hrest] at hx ⊢
        rw [← filter_after_take hsorted hx]
        simp only [rest, hdecode, Option.elim_some]
      refine .inr ⟨by simpa using hlt, hne, ⟨_, hdecode⟩, ?_⟩
      rw [hdrop, List.take_append_drop]
    · refine .inl ⟨by simpa using hlt, List.take_of_length_le (by omega)⟩
  obtain ⟨pages, hwalk, hflat⟩ := walk_complete hstep none ⟨none, hstart⟩ (Nat.lt_succ_self _)
  refine ⟨_, pages, hwalk, hflat.trans ?_⟩
  simp [rest, hstart]

/-- A client stops after a first page that has no more. -/
theorem walk_first {p : Page α γ} (hp : fetch none = some p) (hmore : p.hasMore = false)
    {fuel : Nat} {pages : List (List α)} (h : walk fetch fuel none = some pages) :
    pages = [p.items] := by
  cases fuel with
  | zero => cases h
  | succ fuel =>
    simp only [walk, hp, Option.bind_some, hmore, Bool.false_eq_true, if_false,
      Option.some.injEq] at h
    exact h.symm

theorem walk_map {β : Type} (f : α → β) (fuel : Nat) (cursor : Option γ) :
    walk (fun cursor => (fetch cursor).map (fun p => ⟨p.items.map f, p.next, p.hasMore⟩)) fuel
      cursor = (walk fetch fuel cursor).map (fun pages => pages.map (List.map f)) := by
  induction fuel generalizing cursor with
  | zero => rfl
  | succ fuel ih =>
    simp only [walk]
    cases fetch cursor with
    | none => rfl
    | some p =>
      by_cases hmore : p.hasMore = true <;> simp [hmore, ih, Function.comp_def]

end Mesty.Paging.Keyset
