import Mathlib.Algebra.Group.Nat.Defs
import Mathlib.Data.List.Basic
import Mathlib.Order.Fin.Basic

namespace Mesty.Base.Ids

/-- A 128-bit identifier, ordered by its value as Postgres orders `uuid`. -/
structure Uuid where
  val : Fin (16 ^ 32)
  deriving DecidableEq

namespace Uuid

theorem val_injective : Function.Injective Uuid.val := by
  rintro ⟨m⟩ ⟨n⟩ h
  exact congrArg Uuid.mk h

instance : LinearOrder Uuid := LinearOrder.lift' Uuid.val val_injective

instance : LawfulBEq (Uuid × Uuid) := inferInstance

def ofNat (n : Nat) : Uuid := ⟨Fin.ofNat _ n⟩

def nil : Uuid := ofNat 0

/-- The last `k` hexadecimal digits, the most significant first. -/
def hexDigits : Nat → Nat → List Nat
  | 0, _ => []
  | k + 1, n => hexDigits k (n / 16) ++ [n % 16]

@[simp] theorem hexDigits_length (k n : Nat) : (hexDigits k n).length = k := by
  induction k generalizing n with
  | zero => rfl
  | succ k ih => simp [hexDigits, ih]

theorem hexDigits_lt {k n d : Nat} (h : d ∈ hexDigits k n) : d < 16 := by
  induction k generalizing n with
  | zero => simp [hexDigits] at h
  | succ k ih =>
    rcases List.mem_append.mp h with h | h
    · exact ih h
    · rw [List.mem_singleton.mp h]
      exact Nat.mod_lt _ (by decide)

theorem ofDigits_hexDigits {k n : Nat} (h : n < 16 ^ k) :
    (hexDigits k n).foldl (fun acc d => 16 * acc + d) 0 = n := by
  induction k generalizing n with
  | zero =>
    rw [Nat.pow_zero, Nat.lt_one_iff] at h
    simp [hexDigits, h]
  | succ k ih =>
    have hn : n / 16 < 16 ^ k := Nat.div_lt_of_lt_mul (by rwa [Nat.pow_succ'] at h)
    rw [hexDigits, List.foldl_append, ih hn]
    exact Nat.div_add_mod n 16

def hexValue (c : Char) : Option Nat :=
  if '0' ≤ c ∧ c ≤ '9' then some (c.toNat - '0'.toNat)
  else if 'a' ≤ c ∧ c ≤ 'f' then some (c.toNat - 'a'.toNat + 10)
  else if 'A' ≤ c ∧ c ≤ 'F' then some (c.toNat - 'A'.toNat + 10)
  else none

theorem hexValue_digitChar : ∀ d < 16, hexValue (Nat.digitChar d) = some d := by decide

theorem isAlphanum_digitChar : ∀ d < 16, (Nat.digitChar d).isAlphanum := by decide

def hyphenate (ds : List Char) : List Char :=
  ds.take 8 ++ '-' :: (ds.drop 8).take 4 ++ '-' :: (ds.drop 12).take 4 ++
    '-' :: (ds.drop 16).take 4 ++ '-' :: ds.drop 20

def digits (u : Uuid) : List Char := (hexDigits 32 u.val).map Nat.digitChar

/-- `Uuid::to_string`, the lower-case hyphenated form. -/
def toString (u : Uuid) : String := String.ofList (hyphenate u.digits)

theorem digits_length (u : Uuid) : u.digits.length = 32 := by simp [digits]

theorem isAlphanum_of_mem_digits {u : Uuid} {c : Char} (h : c ∈ u.digits) : c.isAlphanum := by
  obtain ⟨d, hd, rfl⟩ := List.mem_map.mp h
  exact isAlphanum_digitChar d (hexDigits_lt hd)

def parseSimple (cs : List Char) : Option Uuid :=
  if cs.length = 32 then
    (cs.mapM hexValue).map (fun ds => ofNat (ds.foldl (fun acc d => 16 * acc + d) 0))
  else none

def parseHyphenated (cs : List Char) : Option Uuid :=
  if cs.length = 36 ∧ cs[8]? = some '-' ∧ cs[13]? = some '-' ∧ cs[18]? = some '-' ∧
      cs[23]? = some '-' then
    parseSimple (cs.take 8 ++ (cs.drop 9).take 4 ++ (cs.drop 14).take 4 ++
      (cs.drop 19).take 4 ++ cs.drop 24)
  else none

/-- `Uuid::parse_str`: the simple, hyphenated, braced and URN forms. -/
def parseStr (s : String) : Option Uuid :=
  let cs := s.toList
  if cs.length = 32 then parseSimple cs
  else if cs.length = 36 then parseHyphenated cs
  else if cs.length = 38 ∧ cs.head? = some '{' ∧ cs.getLast? = some '}' then
    parseHyphenated cs.tail.dropLast
  else if cs.length = 45 ∧ cs.take 9 = "urn:uuid:".toList then parseHyphenated (cs.drop 9)
  else none

theorem parseSimple_digits (u : Uuid) : parseSimple u.digits = some u := by
  have hm : u.digits.mapM hexValue = some (hexDigits 32 u.val) := by
    have key : ∀ ds : List Nat, (∀ d ∈ ds, d < 16) →
        (ds.map Nat.digitChar).mapM hexValue = some ds := by
      intro ds h
      induction ds with
      | nil => rfl
      | cons d ds ih =>
        simp [hexValue_digitChar d (h d (by simp)), ih (fun e he => h e (by simp [he]))]
    exact key _ (fun d hd => hexDigits_lt hd)
  have hv := ofDigits_hexDigits u.val.isLt
  simp only [parseSimple, digits_length, if_true, hm, Option.map_some, hv]
  exact congrArg some (val_injective (Fin.ext (Nat.mod_eq_of_lt u.val.isLt)))

theorem parseHyphenated_groups {as bs cs ds es : List Char} (ha : as.length = 8)
    (hb : bs.length = 4) (hc : cs.length = 4) (hd : ds.length = 4) (he : es.length = 12) :
    parseHyphenated (as ++ '-' :: bs ++ '-' :: cs ++ '-' :: ds ++ '-' :: es) =
      parseSimple (as ++ bs ++ cs ++ ds ++ es) := by
  rw [parseHyphenated, if_pos (by simp [ha, hb, hc, hd, he])]
  simp (disch := omega) [ha, hb, hc, hd, List.drop_append, List.drop_eq_nil_of_le]

theorem parseHyphenated_hyphenate {ds : List Char} (h : ds.length = 32) :
    parseHyphenated (hyphenate ds) = parseSimple ds := by
  rw [hyphenate, parseHyphenated_groups (by simp [h]) (by simp [h]) (by simp [h]) (by simp [h])
    (by simp [h])]
  congr 1
  simp only [List.append_assoc]
  rw [show ds.drop 20 = (ds.drop 16).drop 4 by simp, List.take_append_drop,
    show ds.drop 16 = (ds.drop 12).drop 4 by simp, List.take_append_drop,
    show ds.drop 12 = (ds.drop 8).drop 4 by simp, List.take_append_drop, List.take_append_drop]

theorem parseStr_toString (u : Uuid) : parseStr u.toString = some u := by
  have hlen : (hyphenate u.digits).length = 36 := by simp [hyphenate, u.digits_length]
  simp only [parseStr, toString, String.toList_ofList, hlen]
  simpa using (parseHyphenated_hyphenate u.digits_length).trans (parseSimple_digits u)

theorem toString_injective : Function.Injective toString := by
  intro u v h
  have hp := congrArg parseStr h
  rwa [parseStr_toString, parseStr_toString, Option.some.injEq] at hp

/-- An identifier is written with letters, digits and hyphens. -/
theorem isAlphanum_of_mem_toString {u : Uuid} {c : Char} (h : c ∈ u.toString.toList) :
    c.isAlphanum ∨ c = '-' := by
  have hd : c ∈ u.digits → c.isAlphanum ∨ c = '-' := fun h => .inl (isAlphanum_of_mem_digits h)
  simp only [toString, String.toList_ofList, hyphenate, List.mem_append, List.mem_cons] at h
  obtain ((((h | h | h) | h | h) | h | h) | h | h) := h
  · exact hd (List.mem_of_mem_take h)
  · exact .inr h
  · exact hd (List.mem_of_mem_drop (List.mem_of_mem_take h))
  · exact .inr h
  · exact hd (List.mem_of_mem_drop (List.mem_of_mem_take h))
  · exact .inr h
  · exact hd (List.mem_of_mem_drop (List.mem_of_mem_take h))
  · exact .inr h
  · exact hd (List.mem_of_mem_drop h)

theorem colon_notMem_toString (u : Uuid) : ':' ∉ u.toString.toList := fun h =>
  absurd (isAlphanum_of_mem_toString h) (by decide)

theorem slash_notMem_toString (u : Uuid) : '/' ∉ u.toString.toList := fun h =>
  absurd (isAlphanum_of_mem_toString h) (by decide)

theorem toString_length (u : Uuid) : u.toString.toList.length = 36 := by
  simp [toString, hyphenate, u.digits_length]

end Uuid

end Mesty.Base.Ids
