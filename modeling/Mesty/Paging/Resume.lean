import Mathlib.Data.List.Sort
import Mathlib.Order.Lattice

namespace Mesty.Paging.Resume

variable {α τ : Type} [LinearOrder τ] (stamp : α → τ)

def sortByStamp (rows : List α) : List α := rows.insertionSort (fun x y => stamp x ≤ stamp y)

def selected (rows : List α) (since : τ) : List α := rows.filter (fun x => since < stamp x)

/-- SELECT … WHERE `since < stamp` ORDER BY `stamp` LIMIT `n`. Rows with equal stamps come
in the order in which they are read. -/
def pageAfter (n : Nat) (rows : List α) (since : τ) : List α :=
  (sortByStamp stamp (selected stamp rows since)).take n

theorem mem_pageAfter {n : Nat} {rows : List α} {since : τ} {x : α} (h : x ∈ pageAfter stamp n rows since) :
    x ∈ rows := by
  have hsorted := (List.mem_insertionSort _).mp (List.mem_of_mem_take h)
  exact (List.mem_filter.mp hsorted).1

/-- A client that asks again from the stamp of the last row it got, until nothing comes.
The request number `k` reads the rows in the order `scan k`. -/
def resume (n : Nat) (scan : Nat → List α) : (fuel k : Nat) → τ → Option (List (List α))
  | 0, _, _ => none
  | fuel + 1, k, since =>
    let page := pageAfter stamp n (scan k) since
    match page.getLast? with
    | none => some []
    | some last => (resume n scan fuel (k + 1) (stamp last)).map (fun pages => page :: pages)

/-- The stamps after `since`, in ascending order. -/
def stamps (rows : List α) (since : τ) : List τ :=
  ((selected stamp rows since).map stamp).insertionSort (· ≤ ·)

/-- No two equal stamps stand on both sides of a page boundary. -/
def Uncut (n : Nat) (ts : List τ) : Prop :=
  ∀ k a b, ts[n * k + (n - 1)]? = some a → ts[n * (k + 1)]? = some b → a < b

theorem uncut_nil (n : Nat) : Uncut n ([] : List τ) := fun k a b h => by simp at h

theorem uncut_iff_drop {n : Nat} (ts : List τ) :
    Uncut n ts ↔ (∀ a b, ts[n - 1]? = some a → ts[n]? = some b → a < b) ∧ Uncut n (ts.drop n) := by
  constructor
  · intro h
    refine ⟨fun a b ha hb => h 0 a b (by simpa using ha) (by simpa using hb), fun k a b ha hb => ?_⟩
    rw [List.getElem?_drop] at ha hb
    refine h (k + 1) a b ?_ ?_
    · rwa [Nat.mul_succ, Nat.add_comm (n * k), Nat.add_assoc]
    · rwa [Nat.mul_succ n (k + 1), Nat.add_comm (n * (k + 1))]
  · rintro ⟨hfirst, hrest⟩ k a b ha hb
    cases k with
    | zero => exact hfirst a b (by simpa using ha) (by simpa using hb)
    | succ k =>
      refine hrest k a b ?_ ?_
      · rwa [List.getElem?_drop, ← Nat.add_assoc, Nat.add_comm n, ← Nat.mul_succ]
      · rwa [List.getElem?_drop, Nat.add_comm n, ← Nat.mul_succ]

variable {stamp} {rows sorted : List α} {since : τ} {n : Nat} {x : α}

theorem sortByStamp_perm (rows : List α) : (sortByStamp stamp rows).Perm rows :=
  List.perm_insertionSort _ _

variable (stamp) in
theorem sortByStamp_sorted (rows : List α) :
    (sortByStamp stamp rows).Pairwise (fun x y => stamp x ≤ stamp y) := by
  have : Std.Total (fun x y => stamp x ≤ stamp y) := ⟨fun x y => le_total (stamp x) (stamp y)⟩
  have : IsTrans α (fun x y => stamp x ≤ stamp y) := ⟨fun _ _ _ => le_trans⟩
  exact List.pairwise_insertionSort _ _

/-- All sorted arrangements of the selected rows show the same stamps. -/
theorem stamps_eq (hperm : sorted.Perm (selected stamp rows since))
    (hsorted : sorted.Pairwise (fun x y => stamp x ≤ stamp y)) :
    stamps stamp rows since = sorted.map stamp := by
  have hstamps : (stamps stamp rows since).Pairwise (· ≤ ·) := List.pairwise_insertionSort _ _
  exact List.Perm.eq_of_pairwise (fun _ _ _ _ => le_antisymm) hstamps
    (List.pairwise_map.mpr hsorted) ((List.perm_insertionSort _ _).trans (hperm.map stamp).symm)

theorem le_last (hsorted : sorted.Pairwise (fun x y => stamp x ≤ stamp y))
    (hx : (sorted.take n).getLast? = some x) : ∀ y ∈ sorted.take n, stamp y ≤ stamp x := by
  obtain ⟨front, hfront⟩ := List.getLast?_eq_some_iff.mp hx
  have htake := hsorted.sublist (List.take_sublist n sorted)
  rw [hfront, List.pairwise_append] at htake
  intro y hy
  rw [hfront, List.mem_append, List.mem_singleton] at hy
  obtain hy | rfl := hy
  · exact htake.2.2 y hy x List.mem_cons_self
  · exact le_rfl

/-- What the next request selects: the rows that the page has left, without those that
share the last stamp of the page. -/
theorem selected_next (hperm : sorted.Perm (selected stamp rows since))
    (hsorted : sorted.Pairwise (fun x y => stamp x ≤ stamp y))
    (hx : (sorted.take n).getLast? = some x) :
    (selected stamp rows (stamp x)).Perm ((sorted.drop n).filter (fun y => stamp x < stamp y)) := by
  have hmem : x ∈ selected stamp rows since :=
    hperm.mem_iff.mp (List.mem_of_mem_take (List.mem_of_getLast? hx))
  have hsince : since < stamp x := by simpa [selected] using (List.mem_filter.mp hmem).2
  have hrows : selected stamp rows (stamp x) =
      (selected stamp rows since).filter (fun y => stamp x < stamp y) := by
    rw [selected, selected, List.filter_filter]
    refine List.filter_congr fun y _ => ?_
    rw [← Bool.decide_and, decide_eq_decide]
    exact ⟨fun hy => ⟨hy, hsince.trans hy⟩, fun hy => hy.1⟩
  have htake : (sorted.take n).filter (fun y => stamp x < stamp y) = [] := by
    rw [List.filter_eq_nil_iff]
    intro y hy
    simpa using le_last hsorted hx y hy
  have hsplit : sorted.filter (fun y => stamp x < stamp y) =
      (sorted.drop n).filter (fun y => stamp x < stamp y) := by
    conv_lhs => rw [← List.take_append_drop n sorted, List.filter_append, htake, List.nil_append]
  rw [hrows, ← hsplit]
  exact (hperm.filter _).symm

/-- The page ends between two stamps exactly if all rows it has left come later. -/
theorem boundary_iff (hn : 0 < n) (hsorted : sorted.Pairwise (fun x y => stamp x ≤ stamp y))
    (hx : (sorted.take n).getLast? = some x) :
    (∀ a b, (sorted.map stamp)[n - 1]? = some a → (sorted.map stamp)[n]? = some b → a < b) ↔
      ∀ y ∈ sorted.drop n, stamp x < stamp y := by
  by_cases hlen : n < sorted.length
  · have hlast : sorted[n - 1]? = some x := by
      rw [List.getLast?_eq_getElem?, List.length_take, Nat.min_eq_left hlen.le,
        List.getElem?_take_of_lt (by omega)] at hx
      exact hx
    have hdrop : sorted.drop n = sorted[n] :: sorted.drop (n + 1) := List.drop_eq_getElem_cons hlen
    simp only [List.getElem?_map, hlast, List.getElem?_eq_getElem hlen, Option.map_some,
      Option.some.injEq]
    rw [hdrop]
    constructor
    · intro h y hy
      have hlt := h _ _ rfl rfl
      obtain rfl | hy := List.mem_cons.mp hy
      · exact hlt
      · have hrest := hsorted.sublist (List.drop_sublist n sorted)
        rw [hdrop, List.pairwise_cons] at hrest
        exact hlt.trans_le (hrest.1 y hy)
    · rintro h _ _ rfl rfl
      exact h _ List.mem_cons_self
  · rw [List.drop_eq_nil_of_le (by omega)]
    refine iff_of_true (fun a b _ hb => ?_) (by simp)
    rw [List.getElem?_eq_none (by rw [List.length_map]; omega)] at hb
    cases hb

variable {scan : Nat → List α}

/-- The pages after the first one are those of a client that starts from its last stamp. -/
theorem exists_resume_iff {k : Nat} {pages : List (List α)}
    (hx : (pageAfter stamp n (scan k) since).getLast? = some x) :
    (∃ fuel, resume stamp n scan fuel k since = some pages) ↔
      ∃ fuel rest, resume stamp n scan fuel (k + 1) (stamp x) = some rest ∧
        pages = pageAfter stamp n (scan k) since :: rest := by
  constructor
  · rintro ⟨fuel, hresume⟩
    cases fuel with
    | zero => cases hresume
    | succ fuel =>
      simp only [resume, hx] at hresume
      obtain ⟨rest, hrest, rfl⟩ := Option.map_eq_some_iff.mp hresume
      exact ⟨fuel, rest, hrest, rfl⟩
  · rintro ⟨fuel, rest, hrest, rfl⟩
    exact ⟨fuel + 1, by simp [resume, hx, hrest]⟩

section Complete

variable (hscan : ∀ k, (scan k).Perm rows)
include hscan

variable (stamp) in
theorem sortedScan_perm (k : Nat) (since : τ) :
    (sortByStamp stamp (selected stamp (scan k) since)).Perm (selected stamp rows since) :=
  (sortByStamp_perm _).trans ((hscan k).filter _)

/-- No row comes twice. -/
theorem resume_subperm {fuel k : Nat} {since : τ} {pages : List (List α)}
    (h : resume stamp n scan fuel k since = some pages) :
    pages.flatten.Subperm (selected stamp rows since) := by
  induction fuel generalizing k since pages with
  | zero => cases h
  | succ fuel ih =>
    have hperm := sortedScan_perm stamp hscan k since
    simp only [resume, pageAfter] at h
    split at h
    · obtain rfl := Option.some.inj h
      exact List.nil_subperm
    · next x hx =>
      obtain ⟨rest, hrest, rfl⟩ := Option.map_eq_some_iff.mp h
      have hnext := selected_next hperm (sortByStamp_sorted stamp _) hx
      rw [List.flatten_cons, ← hperm.subperm_left]
      conv_rhs => rw [← List.take_append_drop n (sortByStamp stamp _)]
      refine (List.subperm_append_left _).mpr ?_
      exact ((ih hrest).trans hnext.subperm).trans List.filter_sublist.subperm

variable (stamp) in
/-- A client gets every row exactly once if and only if no page boundary cuts through rows
with equal stamps. -/
theorem resume_complete_iff (hn : 0 < n) (k : Nat) (since : τ) :
    (∃ fuel pages, resume stamp n scan fuel k since = some pages ∧
      pages.flatten.Perm (selected stamp rows since)) ↔ Uncut n (stamps stamp rows since) := by
  induction hm : (selected stamp rows since).length using Nat.strong_induction_on
    generalizing k since with
  | _ m ih =>
  have hperm := sortedScan_perm stamp hscan k since
  have hsorted := sortByStamp_sorted stamp (selected stamp (scan k) since)
  rw [stamps_eq hperm hsorted]
  generalize hs : sortByStamp stamp (selected stamp (scan k) since) = sorted at hperm hsorted
  have hpage : pageAfter stamp n (scan k) since = sorted.take n := by rw [pageAfter, hs]
  cases hx : (sorted.take n).getLast? with
  | none =>
    have hnil : sorted = [] := by
      have := List.getLast?_eq_none_iff.mp hx
      simpa [Nat.pos_iff_ne_zero.mp hn] using this
    refine iff_of_true ⟨1, [], by simp [resume, hpage, hx], ?_⟩ (by simpa [hnil] using uncut_nil n)
    simpa [hnil] using hperm
  | some x =>
    have hnext := selected_next hperm hsorted hx
    have hlast : (pageAfter stamp n (scan k) since).getLast? = some x := by rw [hpage, hx]
    have hne : sorted.take n ≠ [] := by
      rintro hnil
      simp [hnil] at hx
    have hpos := List.length_pos_iff.mpr hne
    have hsum : (sorted.take n).length + (sorted.drop n).length = m := by
      rw [← hm, ← hperm.length_eq, ← List.length_append, List.take_append_drop]
    have hle := List.length_filter_le (fun y => decide (stamp x < stamp y)) (sorted.drop n)
    rw [uncut_iff_drop, boundary_iff hn hsorted hx]
    by_cases hcut : ∀ y ∈ sorted.drop n, stamp x < stamp y
    · -- the next request continues where the page ends
      have hfilter : (sorted.drop n).filter (fun y => stamp x < stamp y) = sorted.drop n := by
        simpa [List.filter_eq_self] using hcut
      rw [hfilter] at hnext
      have hstamps : stamps stamp rows (stamp x) = (sorted.map stamp).drop n := by
        rw [stamps_eq hnext.symm (hsorted.sublist (List.drop_sublist n sorted)), List.map_drop]
      have hsplit : (sorted.take n ++ sorted.drop n).Perm (selected stamp rows since) := by
        rwa [List.take_append_drop]
      rw [← hstamps, ← ih _ (by rw [hnext.length_eq]; omega) (k + 1) (stamp x) rfl]
      rw [and_iff_right hcut]
      constructor
      · rintro ⟨fuel, pages, hresume, hflat⟩
        obtain ⟨fuel', rest, hrest, rfl⟩ := (exists_resume_iff hlast).mp ⟨fuel, hresume⟩
        refine ⟨fuel', rest, hrest, ?_⟩
        rw [List.flatten_cons, hpage] at hflat
        exact ((List.perm_append_left_iff _).mp (hflat.trans hsplit.symm)).trans hnext.symm
      · rintro ⟨fuel, rest, hrest, hflat⟩
        obtain ⟨fuel', hresume⟩ := (exists_resume_iff hlast).mpr ⟨fuel, rest, hrest, rfl⟩
        refine ⟨fuel', _, hresume, ?_⟩
        rw [List.flatten_cons, hpage]
        exact ((hflat.trans hnext).append_left _).trans hsplit
    · -- a row with the last stamp of the page is left out, and no later request asks for it
      refine iff_of_false ?_ (fun h => hcut h.1)
      rintro ⟨fuel, pages, hresume, hflat⟩
      obtain ⟨fuel', rest, hrest, rfl⟩ := (exists_resume_iff hlast).mp ⟨fuel, hresume⟩
      have hlost : ((sorted.drop n).filter (fun y => stamp x < stamp y)).length <
          (sorted.drop n).length := by
        refine lt_of_le_of_ne hle fun heq => hcut ?_
        simpa using List.length_filter_eq_length_iff.mp heq
      have := (resume_subperm hscan hrest).length_le
      have := hflat.length_eq
      rw [List.flatten_cons, List.length_append, hpage] at this
      have := hnext.length_eq
      omega

end Complete

end Mesty.Paging.Resume
