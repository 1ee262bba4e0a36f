import Mesty.Paging.Keyset

namespace Mesty.Paging.LookAhead

open Mesty.Paging.Keyset

variable {α β γ κ ε : Type}

/-- A serialiser of cursors and a text encoder of what it yields. -/
structure Codec (γ : Type) where
  Bytes : Type
  toVec : γ → Except String Bytes
  fromSlice : Bytes → Option γ
  encode : Bytes → String
  decode : String → Option Bytes

/-- Decoders undo the encoders, which always succeed on a cursor. -/
structure Codec.RoundTrips (codec : Codec γ) : Prop where
  fromSlice_toVec : ∀ c, ∃ bytes, codec.toVec c = .ok bytes ∧ codec.fromSlice bytes = some c
  decode_encode : ∀ bytes, codec.decode (codec.encode bytes) = some bytes

/-- What the parts of a listing answer when a cursor is bad. -/
structure CursorErrors (ε : Type) where
  encoding : ε
  payload : ε
  serialize : String → ε

def Codec.read (codec : Codec γ) (errors : CursorErrors ε) : Option String → Except ε (Option γ)
  | none => .ok none
  | some raw =>
    match codec.decode raw with
    | none => .error errors.encoding
    | some decoded =>
      match codec.fromSlice decoded with
      | none => .error errors.payload
      | some cursor => .ok (some cursor)

def Codec.write (codec : Codec γ) (errors : CursorErrors ε) (cursor : γ) : Except ε String :=
  match codec.toVec cursor with
  | .error e => .error (errors.serialize e)
  | .ok encoded => .ok (codec.encode encoded)

theorem Codec.RoundTrips.read_write {codec : Codec γ} (h : codec.RoundTrips)
    (errors : CursorErrors ε) (cursor : γ) :
    ∃ text, codec.write errors cursor = .ok text ∧
      codec.read errors (some text) = .ok (some cursor) := by
  obtain ⟨bytes, hto, hfrom⟩ := h.fromSlice_toVec cursor
  refine ⟨codec.encode bytes, by simp only [write, hto], ?_⟩
  simp only [read, h.decode_encode, hfrom]

def clamp (limit cap : Int) : Int := max 1 (min limit cap)

/-- Cut the row that was fetched to look ahead, and point to the last row that stays. -/
def cutPage (limit : Int) (write : α → Except ε String) (rows : List α) :
    Except ε (Page α String) := do
  let hasMore := decide ((rows.length : Int) > limit)
  let items := if hasMore then rows.take limit.toNat else rows
  let nextCursor ← items.getLast?.mapM write
  return ⟨items, nextCursor, hasMore⟩

/-- The page of one request, which asks for one row more than the page holds. -/
def listPage (codec : Codec γ) (errors : CursorErrors ε) (cursorOf : α → γ)
    (fetchRows : Option γ → Int → Except ε (List α)) (limit : Int) (cursor : Option String) :
    Except ε (Page α String) := do
  let decoded ← codec.read errors cursor
  let rows ← fetchRows decoded (limit + 1)
  cutPage limit (fun item => codec.write errors (cursorOf item)) rows

/-- One request of a listing. -/
def listing (codec : Codec γ) (errors : CursorErrors ε) (cursorOf : α → γ)
    (fetchRows : Option γ → Int → Except ε (List α)) (toResponse : α → β) (limit : Int)
    (cursor : Option String) : Except ε (Page β String) := do
  let page ← listPage codec errors cursorOf fetchRows limit cursor
  return ⟨page.items.map toResponse, page.next, page.hasMore⟩

variable {codec : Codec γ} (errors : CursorErrors ε) (cursorOf : α → γ) (toResponse : α → β)

theorem cutPage_eq (hcodec : codec.RoundTrips) {limit : Int} {n : Nat} (hn : limit = n)
    (rows : List α) :
    ∃ next, cutPage limit (fun item => codec.write errors (cursorOf item)) rows =
        .ok ⟨rows.take n, next, decide (n < rows.length)⟩ ∧
      ∀ x, (rows.take n).getLast? = some x →
        codec.read errors next = .ok (some (cursorOf x)) := by
  subst hn
  have hmore : decide ((rows.length : Int) > (n : Int)) = decide (n < rows.length) := by
    rw [decide_eq_decide]
    omega
  have hitems : (if decide (n < rows.length) = true then rows.take n else rows) = rows.take n := by
    split_ifs with h
    · rfl
    · exact (List.take_of_length_le (by simpa using h)).symm
  simp only [cutPage, hmore, Int.toNat_natCast, hitems]
  cases (rows.take n).getLast? with
  | none => exact ⟨none, rfl, by simp⟩
  | some x =>
    obtain ⟨text, hwrite, hread⟩ := hcodec.read_write errors (cursorOf x)
    refine ⟨some text, ?_, by simpa using hread⟩
    simp only [Option.mapM_some, hwrite]
    rfl

theorem cutPage_ok {n : Nat} {write : α → Except ε String} {rows : List α} {page : Page α String}
    (h : cutPage n write rows = .ok page) : page.items = rows.take n ∧
      page.hasMore = decide (n < rows.length) ∧ page.items.getLast?.mapM write = .ok page.next := by
  have hmore : decide ((rows.length : Int) > (n : Int)) = decide (n < rows.length) := by
    rw [decide_eq_decide]
    omega
  have hitems : (if decide (n < rows.length) = true then rows.take n else rows) = rows.take n := by
    split_ifs with hlt
    · rfl
    · exact (List.take_of_length_le (by simpa using hlt)).symm
  simp only [cutPage, hmore, Int.toNat_natCast, hitems] at h
  cases hnext : (rows.take n).getLast?.mapM write with
  | error e =>
    rw [hnext] at h
    cases h
  | ok next =>
    rw [hnext] at h
    obtain rfl := Except.ok.inj h
    exact ⟨rfl, rfl, hnext⟩

theorem cutPage_subset {limit : Int} {write : α → Except ε String} {rows : List α} {page : Page α String}
    (h : cutPage limit write rows = .ok page) : page.items ⊆ rows := by
  rw [cutPage] at h
  cases hnext : (if decide ((rows.length : Int) > limit) then rows.take limit.toNat else rows).getLast?.mapM
      write with
  | error e =>
    rw [hnext] at h
    cases h
  | ok next =>
    rw [hnext] at h
    obtain rfl := Except.ok.inj h
    split_ifs
    · exact List.take_subset _ _
    · exact List.Subset.refl _

section Complete

variable [LinearOrder κ] {key : α → κ} {keyOf : γ → κ} {rows : List α} {cap : Nat}
  {fetchRows : Option γ → Int → Except ε (List α)}

/-- Following the cursors of the pages yields all rows in their order. -/
def Complete (key : α → κ) (toResponse : α → β)
    (fetch : Option String → Except ε (Page β String)) (rows : List α) : Prop :=
  ∃ fuel pages, walk (fun cursor => (fetch cursor).toOption) fuel none = some pages ∧
    pages.flatten = (sortBy key rows).map toResponse

theorem listing_toOption (limit : Int) (cursor : Option String) :
    (listing codec errors cursorOf fetchRows toResponse limit cursor).toOption =
      (listPage codec errors cursorOf fetchRows limit cursor).toOption.map
        (fun p => ⟨p.items.map toResponse, p.next, p.hasMore⟩) := by
  rw [listing]
  cases listPage codec errors cursorOf fetchRows limit cursor <;> rfl

theorem listPage_eq (hcodec : codec.RoundTrips) (hnodup : (rows.map key).Nodup)
    (hfetch : ∀ bound m, fetchRows bound m =
      .ok (select key (bound.map keyOf) (clamp m cap).toNat rows))
    {limit : Int} (n : Nat) (hn : limit = n) {cursor : Option String} {bound : Option γ}
    (hbound : codec.read errors cursor = .ok bound) :
    ∃ next, listPage codec errors cursorOf fetchRows limit cursor =
        .ok ⟨(((sortBy key rows).filter (fun x => ∀ k ∈ bound.map keyOf, k < key x)).take
            (clamp (n + 1) cap).toNat).take n, next,
          decide (n < (((sortBy key rows).filter (fun x => ∀ k ∈ bound.map keyOf, k < key x)).take
            (clamp (n + 1) cap).toNat).length)⟩ ∧
      ∀ x, ((((sortBy key rows).filter (fun x => ∀ k ∈ bound.map keyOf, k < key x)).take
            (clamp (n + 1) cap).toNat).take n).getLast? = some x →
        codec.read errors next = .ok (some (cursorOf x)) := by
  rw [← select_eq hnodup]
  obtain ⟨next, hcut, hnext⟩ := cutPage_eq errors cursorOf hcodec hn
    (select key (bound.map keyOf) (clamp (n + 1) cap).toNat rows)
  refine ⟨next, ?_, hnext⟩
  rw [← hcut, ← hn]
  simp only [listPage, hbound, hfetch]
  rfl

variable {cursorOf}

/-- Below the maximal limit every page ends where the next one begins. -/
theorem walk_listPage (hcodec : codec.RoundTrips) (hnodup : (rows.map key).Nodup)
    (hkey : ∀ x, keyOf (cursorOf x) = key x)
    (hfetch : ∀ bound m, fetchRows bound m =
      .ok (select key (bound.map keyOf) (clamp m cap).toNat rows))
    {n : Nat} (hpos : 0 < n) (hlt : n < cap) :
    ∃ fuel pages, walk (fun cursor =>
        (listPage codec errors cursorOf fetchRows n cursor).toOption) fuel none = some pages ∧
      pages.flatten = sortBy key rows := by
  have hclamp : (clamp (n + 1) cap).toNat = n + 1 := by
    simp only [clamp]
    omega
  refine walk_pages (sortBy_sorted hnodup) hpos
    (fun cursor => (codec.read errors cursor).toOption.map (Option.map keyOf)) rfl ?_
  intro cursor bound hdecode
  obtain ⟨decoded, hread, rfl⟩ := Option.map_eq_some_iff.mp hdecode
  have hread : codec.read errors cursor = .ok decoded := by
    cases hr : codec.read errors cursor with
    | error e => simp [hr, Except.toOption] at hread
    | ok d => simpa [hr, Except.toOption] using hread
  obtain ⟨next, hpage, hnext⟩ :=
    listPage_eq errors cursorOf hcodec hnodup hfetch n rfl hread
  rw [hclamp, List.take_take, Nat.min_eq_left (Nat.le_succ n)] at hpage hnext
  refine ⟨next, ?_, fun x hx => by simp [hnext x hx, Except.toOption, hkey]⟩
  rw [hpage, List.length_take]
  simp only [Except.toOption, Option.some.injEq, Page.mk.injEq, true_and, decide_eq_decide]
  omega

/-- At the maximal limit the look-ahead row is missing, so that the first page is the last. -/
theorem first_listPage (hcodec : codec.RoundTrips) (hnodup : (rows.map key).Nodup)
    (hfetch : ∀ bound m, fetchRows bound m =
      .ok (select key (bound.map keyOf) (clamp m cap).toNat rows)) (hcap : 0 < cap) :
    ∃ next, (listPage codec errors cursorOf fetchRows cap none).toOption =
      some ⟨(sortBy key rows).take cap, next, false⟩ := by
  have hclamp : (clamp (cap + 1) cap).toNat = cap := by
    simp only [clamp]
    omega
  obtain ⟨next, hpage, -⟩ := listPage_eq errors cursorOf hcodec hnodup hfetch cap rfl (show codec.read errors none = .ok none from rfl)
  rw [hclamp, List.take_take, Nat.min_self, Option.map_none, filter_none] at hpage
  have hnomore : decide (cap < ((sortBy key rows).take cap).length) = false := by
    rw [decide_eq_false_iff_not, List.length_take]
    omega
  exact ⟨next, by rw [hpage, hnomore]; rfl⟩

/-- The repository caps the number of rows as the handler does, so a listing is complete
if and only if the limit is below the cap or all rows fit in one page. -/
theorem complete_iff (hcodec : codec.RoundTrips) (hnodup : (rows.map key).Nodup)
    (hkey : ∀ x, keyOf (cursorOf x) = key x)
    (hfetch : ∀ bound m, fetchRows bound m =
      .ok (select key (bound.map keyOf) (clamp m cap).toNat rows))
    {limit : Int} (hpos : 1 ≤ limit) (hcap : limit ≤ cap) :
    Complete key toResponse (listing codec errors cursorOf fetchRows toResponse limit) rows ↔
      limit < cap ∨ rows.length ≤ cap := by
  obtain ⟨n, rfl⟩ := Int.eq_ofNat_of_zero_le (show 0 ≤ limit by omega)
  have hlen : (sortBy key rows).length = rows.length := (sortBy_perm rows).length_eq
  simp only [Complete, listing_toOption, walk_map, Option.map_eq_some_iff]
  by_cases hlt : (n : Int) < cap
  · simp only [hlt, true_or, iff_true]
    obtain ⟨fuel, pages, hwalk, hflat⟩ := walk_listPage errors hcodec hnodup hkey hfetch
      (show 0 < n by omega) (by omega)
    exact ⟨fuel, _, ⟨pages, hwalk, rfl⟩, by rw [← List.map_flatten, hflat]⟩
  · simp only [hlt, false_or]
    obtain rfl : n = cap := by omega
    obtain ⟨next, hfirst⟩ := first_listPage errors hcodec hnodup
      hfetch (by omega)
    constructor
    · rintro ⟨fuel, _, ⟨pages, hwalk, rfl⟩, hflat⟩
      rw [walk_first hfirst rfl hwalk] at hflat
      have := congrArg List.length hflat
      simp only [List.map_cons, List.map_nil, List.flatten_cons, List.flatten_nil, List.append_nil,
        List.length_map, List.length_take] at this
      omega
    · intro hle
      refine ⟨1, _, ⟨[(sortBy key rows).take n], by simp [walk, hfirst], rfl⟩, ?_⟩
      simp [List.take_of_length_le (show (sortBy key rows).length ≤ n by omega)]

end Complete

end Mesty.Paging.LookAhead
