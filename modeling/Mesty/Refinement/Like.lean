import Mathlib.Computability.Language

namespace Mesty.Refinement.Like

inductive Token where
  | any
  | one
  | lit (c : Char)
  deriving DecidableEq

/-- A backslash makes a literal of the next character. With none left the pattern is unfinished. -/
def parse : List Char → Option (List Token)
  | [] => some []
  | ['\\'] => none
  | '\\' :: c :: pattern => (parse pattern).map (Token.lit c :: ·)
  | '%' :: pattern => (parse pattern).map (Token.any :: ·)
  | '_' :: pattern => (parse pattern).map (Token.one :: ·)
  | c :: pattern => (parse pattern).map (Token.lit c :: ·)

def accepts : List Token → List Char → Bool
  | [], text => text.isEmpty
  | .any :: tokens, text => text.tails.any (accepts tokens)
  | .one :: tokens, _ :: text => accepts tokens text
  | .lit c :: tokens, d :: text => c = d && accepts tokens text
  | .one :: _, [] | .lit _ :: _, [] => false

/-- An unfinished pattern matches nothing: where the end of it is reached, that is an error. -/
def like (pattern text : List Char) : Bool := (parse pattern).any (accepts · text)

section Languages

variable {tokens : List Token} {text b : List Char}

def Token.language : Token → Language Char
  | any => ⊤
  | one => {text | text.length = 1}
  | lit c => {[c]}

/-- What the tokens stand for. -/
def language (tokens : List Token) : Language Char := (tokens.map Token.language).prod

theorem language_cons (token : Token) :
    language (token :: tokens) = token.language * language tokens := by
  rw [language, List.map_cons, List.prod_cons, language]

theorem accepts_iff : accepts tokens text = true ↔ text ∈ language tokens := by
  induction tokens generalizing text with
  | nil =>
    rw [accepts, List.isEmpty_iff]
    exact (Language.mem_one text).symm
  | cons token tokens ih =>
    rw [language_cons, Language.mem_mul]
    cases token with
    | any =>
      simp only [accepts, List.any_eq_true, List.mem_tails, ih]
      constructor
      · rintro ⟨rest, ⟨start, rfl⟩, hrest⟩
        exact ⟨start, trivial, rest, hrest, rfl⟩
      · rintro ⟨start, -, rest, hrest, rfl⟩
        exact ⟨rest, ⟨start, rfl⟩, hrest⟩
    | one =>
      cases text with
      | nil =>
        refine iff_of_false Bool.false_ne_true ?_
        rintro ⟨start, hstart, rest, -, hnil⟩
        obtain ⟨rfl, -⟩ := List.append_eq_nil_iff.mp hnil
        cases hstart
      | cons d text =>
        rw [accepts, ih]
        constructor
        · exact fun htext => ⟨[d], rfl, text, htext, rfl⟩
        · rintro ⟨start, hstart, rest, hrest, heq⟩
          obtain ⟨e, rfl⟩ := List.length_eq_one_iff.mp hstart
          obtain rfl := (List.cons.inj heq).2
          exact hrest
    | lit c =>
      cases text with
      | nil =>
        refine iff_of_false Bool.false_ne_true ?_
        rintro ⟨start, rfl, rest, -, hnil⟩
        cases hnil
      | cons d text =>
        rw [accepts, Bool.and_eq_true, decide_eq_true_eq, ih]
        constructor
        · rintro ⟨rfl, htext⟩
          exact ⟨[c], rfl, text, htext, rfl⟩
        · rintro ⟨start, rfl, rest, hrest, heq⟩
          obtain ⟨rfl, rfl⟩ := List.cons.inj heq
          exact ⟨rfl, hrest⟩

/-- Characters that stand for themselves. -/
theorem mem_language_lits_append :
    text ∈ language (b.map .lit ++ tokens) ↔ ∃ rest ∈ language tokens, b ++ rest = text := by
  induction b generalizing text with
  | nil => simp
  | cons c b ih =>
    rw [List.map_cons, List.cons_append, language_cons, Language.mem_mul]
    constructor
    · rintro ⟨start, rfl, text, htext, rfl⟩
      obtain ⟨rest, hrest, rfl⟩ := ih.mp htext
      exact ⟨rest, hrest, rfl⟩
    · rintro ⟨rest, hrest, rfl⟩
      exact ⟨[c], rfl, b ++ rest, ih.mpr ⟨rest, hrest, rfl⟩, rfl⟩

theorem mem_language_any :
    text ∈ language (.any :: tokens) ↔ ∃ rest ∈ language tokens, rest <:+ text := by
  rw [language_cons, Language.mem_mul]
  constructor
  · rintro ⟨start, -, rest, hrest, rfl⟩
    exact ⟨rest, hrest, List.suffix_append start rest⟩
  · rintro ⟨rest, hrest, start, rfl⟩
    exact ⟨start, trivial, rest, hrest, rfl⟩

theorem mem_lits : text ∈ language (b.map .lit) ↔ b = text := by
  rw [← List.append_nil (b.map Token.lit), mem_language_lits_append]
  constructor
  · rintro ⟨rest, rfl, rfl⟩
    exact (List.append_nil b).symm
  · rintro rfl
    exact ⟨[], rfl, List.append_nil b⟩

theorem mem_lits_any : text ∈ language (b.map .lit ++ [.any]) ↔ b <+: text := by
  rw [mem_language_lits_append]
  constructor
  · rintro ⟨rest, -, rfl⟩
    exact List.prefix_append b rest
  · rintro ⟨rest, rfl⟩
    exact ⟨rest, mem_language_any.mpr ⟨[], rfl, List.nil_suffix⟩, rfl⟩

theorem mem_any_lits_any : text ∈ language (.any :: (b.map .lit ++ [.any])) ↔ b <:+: text := by
  rw [mem_language_any, List.infix_iff_prefix_suffix]
  exact exists_congr fun rest => and_congr_left fun _ => mem_lits_any

end Languages

/-- The characters that do not stand for themselves. -/
def wildcards : List Char := ['%', '_', '\\']

section Parsing

variable {tokens : List Token} {pattern b closing : List Char} {c : Char}

theorem parse_cons (h : c ∉ wildcards) :
    parse (c :: pattern) = (parse pattern).map (Token.lit c :: ·) := by
  simp only [wildcards, List.mem_cons, List.not_mem_nil, or_false, not_or] at h
  rw [parse]
  all_goals simp [h]

/-- The cases of `parse`, the last of them for a character that stands for itself. -/
theorem parse_induction {motive : List Char → Prop} (nil : motive []) (unfinished : motive ['\\'])
    (escape : ∀ c pattern, motive pattern → motive ('\\' :: c :: pattern))
    (any : ∀ pattern, motive pattern → motive ('%' :: pattern))
    (one : ∀ pattern, motive pattern → motive ('_' :: pattern))
    (lit : ∀ c pattern, c ∉ wildcards → motive pattern → motive (c :: pattern)) (pattern : List Char) :
    motive pattern := by
  induction pattern using parse.induct with
  | case1 => exact nil
  | case2 => exact unfinished
  | case3 c pattern ih => exact escape c pattern ih
  | case4 pattern ih => exact any pattern ih
  | case5 pattern ih => exact one pattern ih
  | case6 c pattern hlast hescape hany hone ih =>
    refine lit c pattern ?_ ih
    have hc : c ≠ '\\' := by
      intro hc
      cases pattern with
      | nil => exact hlast hc rfl
      | cons d pattern => exact hescape d pattern hc rfl
    simpa [wildcards] using ⟨hany, hone, hc⟩

theorem parse_plain (h : ∀ c ∈ b, c ∉ wildcards) :
    parse (b ++ pattern) = (parse pattern).map (b.map Token.lit ++ ·) := by
  induction b with
  | nil => simp
  | cons c b ih =>
    obtain ⟨hc, hb⟩ := List.forall_mem_cons.mp h
    rw [List.cons_append, parse_cons hc, ih hb, Option.map_map]
    rfl

/-- A last percent sign finishes every pattern. -/
theorem parse_closed (b : List Char) : (parse (b ++ ['%'])).isSome := by
  induction b using parse_induction with
  | nil | unfinished => rfl
  | escape c pattern ih | any pattern ih | one pattern ih =>
    simp only [List.cons_append, parse, Option.isSome_map, ih]
  | lit c pattern hc ih => rw [List.cons_append, parse_cons hc, Option.isSome_map, ih]

/-- A text of the pattern: the shortest, with a letter where any character may stand. -/
def sample : List Token → List Char
  | [] => []
  | .any :: tokens => sample tokens
  | .one :: tokens => 'a' :: sample tokens
  | .lit c :: tokens => c :: sample tokens

/-- What does not stand for itself in the sample, or is a backslash there, has cost the pattern a
backslash. -/
theorem sample_cost (hclosing : closing = [] ∨ closing = ['%'])
    (h : parse (b ++ closing) = some tokens) :
    (sample tokens).countP (· ∈ wildcards) + (sample tokens).count '\\' ≤ b.count '\\' := by
  induction b using parse_induction generalizing tokens with
  | nil =>
    obtain rfl | rfl := hclosing <;> cases h <;> exact Nat.le_refl 0
  | unfinished =>
    obtain rfl | rfl := hclosing <;> cases h
    decide
  | escape c pattern ih =>
    obtain ⟨rest, hrest, rfl⟩ := Option.map_eq_some_iff.mp h
    have hcost := ih hrest
    rw [sample, List.count_cons_self, List.countP_cons, List.count_cons, List.count_cons]
    split_ifs <;> omega
  | any pattern ih =>
    obtain ⟨rest, hrest, rfl⟩ := Option.map_eq_some_iff.mp h
    have hcost := ih hrest
    rwa [sample, List.count_cons_of_ne (by decide)]
  | one pattern ih =>
    obtain ⟨rest, hrest, rfl⟩ := Option.map_eq_some_iff.mp h
    have hcost := ih hrest
    rwa [sample, List.countP_cons_of_neg (by decide), List.count_cons_of_ne (by decide),
      List.count_cons_of_ne (by decide)]
  | lit c pattern hc ih =>
    rw [List.cons_append, parse_cons hc] at h
    obtain ⟨rest, hrest, rfl⟩ := Option.map_eq_some_iff.mp h
    have hcost := ih hrest
    have hne : c ≠ '\\' := by
      rintro rfl
      exact hc (by decide)
    rwa [sample, List.countP_cons_of_neg (by simpa using hc), List.count_cons_of_ne hne,
      List.count_cons_of_ne hne]

end Parsing

/-- Characters without case. -/
def uncased : List Char :=
  ['%', '_', '\\', '+', '0', '1', '2', '3', '4', '5', '6', '7', '8', '9']

/-- The lower case of each character. -/
structure CaseFold where
  fold : Char → Char
  fold_uncased : ∀ c ∈ uncased, ∀ d, fold d = c ↔ d = c

/-- Pattern and text are made lower case. -/
def ilike (f : CaseFold) (pattern text : List Char) : Bool :=
  like (pattern.map f.fold) (text.map f.fold)

section Folding

variable {f : CaseFold} {tokens : List Token} {pattern text b closing : List Char} {c : Char}

theorem fold_mem_wildcards : f.fold c ∈ wildcards ↔ c ∈ wildcards := by
  simp only [wildcards, List.mem_cons, List.not_mem_nil, or_false]
  rw [f.fold_uncased '%' (by decide), f.fold_uncased '_' (by decide), f.fold_uncased '\\' (by decide)]

theorem fold_of_uncased (h : c ∈ uncased) : f.fold c = c := (f.fold_uncased c h c).mpr rfl

/-- A text without case differs in case from no other. -/
theorem eq_of_map_fold (htext : ∀ c ∈ text, c ∈ uncased) (h : b.map f.fold = text.map f.fold) :
    b = text := by
  have hself : text.map f.fold = text :=
    (List.map_congr_left fun c hc => fold_of_uncased (htext c hc)).trans (List.map_id' text)
  rw [hself] at h
  have hb : b.map f.fold = b := by
    refine (List.map_congr_left fun d hd => ?_).trans (List.map_id' b)
    have hfold : f.fold d ∈ uncased := htext _ (h ▸ List.mem_map_of_mem hd)
    exact ((f.fold_uncased _ hfold d).mp rfl).symm
  exact hb.symm.trans h

theorem countP_fold : (b.map f.fold).countP (· ∈ wildcards) = b.countP (· ∈ wildcards) := by
  rw [List.countP_map]
  exact List.countP_congr fun c _ => by simp [fold_mem_wildcards]

theorem count_fold : (b.map f.fold).count '\\' = b.count '\\' := by
  rw [List.count_eq_countP, List.count_eq_countP, List.countP_map]
  exact List.countP_congr fun c _ => by simp [f.fold_uncased '\\' (by decide)]

def Token.folded (f : CaseFold) : Token → Token
  | any => any
  | one => one
  | lit c => lit (f.fold c)

theorem parse_fold (pattern : List Char) :
    parse (pattern.map f.fold) = (parse pattern).map (List.map (Token.folded f)) := by
  induction pattern using parse_induction with
  | nil => rfl
  | unfinished => rw [List.map_singleton, fold_of_uncased (by decide), parse, Option.map_none]
  | escape c pattern ih =>
    rw [List.map_cons, List.map_cons, fold_of_uncased (by decide), parse, ih, parse, Option.map_map,
      Option.map_map]
    rfl
  | any pattern ih =>
    rw [List.map_cons, fold_of_uncased (by decide), parse, ih, parse, Option.map_map, Option.map_map]
    rfl
  | one pattern ih =>
    rw [List.map_cons, fold_of_uncased (by decide), parse, ih, parse, Option.map_map, Option.map_map]
    rfl
  | lit c pattern hc ih =>
    rw [List.map_cons, parse_cons (mt fold_mem_wildcards.mp hc), ih, parse_cons hc, Option.map_map,
      Option.map_map]
    rfl

theorem sample_fold (tokens : List Token) :
    (sample tokens).map f.fold ∈ language (tokens.map (Token.folded f)) := by
  induction tokens with
  | nil => rfl
  | cons token tokens ih =>
    rw [List.map_cons, language_cons, Language.mem_mul]
    cases token with
    | any => exact ⟨[], trivial, _, ih, rfl⟩
    | one => exact ⟨[f.fold 'a'], rfl, _, ih, rfl⟩
    | lit c => exact ⟨[f.fold c], rfl, _, ih, rfl⟩

theorem ilike_iff (h : parse pattern = some tokens) :
    ilike f pattern text = true ↔ text.map f.fold ∈ language (tokens.map (Token.folded f)) := by
  rw [ilike, like, parse_fold, h, Option.map_some, Option.any_some, accepts_iff]

theorem ilike_unfinished (h : parse pattern = none) : ilike f pattern text = false := by
  rw [ilike, like, parse_fold, h, Option.map_none, Option.any_none]

theorem map_folded_lits : (b.map Token.lit).map (Token.folded f) = (b.map f.fold).map Token.lit := by
  rw [List.map_map, List.map_map]
  rfl

section Plain

variable (h : ∀ c ∈ b, c ∉ wildcards)
include h

theorem ilike_eq : ilike f b text = true ↔ b.map f.fold = text.map f.fold := by
  have hparse : parse b = some (b.map .lit) := by
    have hempty : parse (b ++ []) = (parse []).map (b.map Token.lit ++ ·) := parse_plain h
    rwa [parse, Option.map_some, List.append_nil, List.append_nil] at hempty
  rw [ilike_iff hparse, map_folded_lits, mem_lits]

theorem ilike_starts : ilike f (b ++ ['%']) text = true ↔ b.map f.fold <+: text.map f.fold := by
  have hparse : parse (b ++ ['%']) = some (b.map .lit ++ [.any]) := parse_plain h
  rw [ilike_iff hparse, List.map_append, map_folded_lits]
  exact mem_lits_any

theorem ilike_contains :
    ilike f ('%' :: (b ++ ['%'])) text = true ↔ b.map f.fold <:+: text.map f.fold := by
  have hparse : parse ('%' :: (b ++ ['%'])) = some (.any :: (b.map .lit ++ [.any])) := by
    rw [parse, parse_plain h]
    rfl
  rw [ilike_iff hparse, List.map_cons, List.map_append, map_folded_lits]
  exact mem_any_lits_any

end Plain

theorem ilike_sample (h : parse pattern = some tokens) : ilike f pattern (sample tokens) = true :=
  (ilike_iff h).mpr (sample_fold tokens)

/-- Without wildcards in it, a text does not contain a pattern that has some. -/
theorem not_infix_plain (hb : ∃ c ∈ b, c ∈ wildcards) (htext : ∀ c ∈ text, c ∉ wildcards) :
    ¬ b.map f.fold <:+: text.map f.fold := by
  intro h
  obtain ⟨c, hc, hwild⟩ := hb
  obtain ⟨d, hd, hfold⟩ := List.mem_map.mp (h.subset (List.mem_map_of_mem hc))
  exact htext d hd (fold_mem_wildcards.mp (hfold ▸ fold_mem_wildcards.mpr hwild))

/-- Nor does the sample contain the pattern. -/
theorem not_infix_sample (hb : ∃ c ∈ b, c ∈ wildcards) (hclosing : closing = [] ∨ closing = ['%'])
    (hparse : parse (b ++ closing) = some tokens) :
    ¬ b.map f.fold <:+: (sample tokens).map f.fold := by
  intro h
  have hcost := sample_cost hclosing hparse
  obtain ⟨c, hc, hwild⟩ := hb
  have hpos : 0 < b.countP (· ∈ wildcards) :=
    List.countP_pos_iff.mpr ⟨c, hc, decide_eq_true hwild⟩
  have hcountP := h.sublist.countP_le (p := (· ∈ wildcards))
  have hcount := h.sublist.count_le '\\'
  rw [countP_fold, countP_fold] at hcountP
  rw [count_fold, count_fold] at hcount
  omega

end Folding

end Mesty.Refinement.Like
