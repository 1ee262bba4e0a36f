import Mathlib.Init

namespace Mesty.Base.Text

/-- `char::is_whitespace`: the Unicode property `White_Space`. -/
def isWhitespace (c : Char) : Bool :=
  (9 ≤ c.toNat ∧ c.toNat ≤ 13) ∨ (0x2000 ≤ c.toNat ∧ c.toNat ≤ 0x200A) ∨
    c.toNat ∈ [0x20, 0x85, 0xA0, 0x1680, 0x2028, 0x2029, 0x202F, 0x205F, 0x3000]

/-- `str::trim`. -/
def trim (s : String) : String :=
  String.ofList ((s.toList.dropWhile isWhitespace).reverse.dropWhile isWhitespace).reverse

/-- The texts that a TEXT column can hold: PostgreSQL refuses U+0000. -/
def Storable (s : String) : Prop := '\x00' ∉ s.toList

instance (s : String) : Decidable (Storable s) := inferInstanceAs (Decidable (_ ∉ _))

end Mesty.Base.Text
