import DocumentStore.Proofs.Text.ReadBack
import Mathlib.Data.List.Basic
set_option autoImplicit false

/-!
# Which texts are places

Callers can pass any text as a cursor.  It says a place exactly if it is the base 64 form of the UTF-8
bytes of the label and a numeral behind it, and the number stays within the range of a word.  The form
is strict: no other text decodes to the same bytes.
-/

namespace DocumentStore

namespace Text

/-! ## Numerals -/

/-- Whether a text is a numeral of a number: decimal digits, at least one, and possibly a plus sign in
front of them. -/
def IsNumeral (text : List Char) (n : Nat) : Prop :=
  ∃ digits, digits ≠ [] ∧ (∀ c ∈ digits, c.isDigit = true) ∧ Nat.ofDigitChars 10 digits 0 = n ∧
    (text = digits ∨ text = '+' :: digits)

theorem toNat_lt_of_isDigit {c : Char} (h : c.isDigit = true) : c.toNat < 128 :=
  Nat.lt_of_le_of_lt (Char.isDigit_iff_toNat.mp h).2 (by decide)

theorem IsNumeral.toNat_lt {text : List Char} {n : Nat} (h : IsNumeral text n) :
    ∀ c ∈ text, c.toNat < 128 := by
  obtain ⟨digits, -, hdigits, -, rfl | rfl⟩ := h
  · exact fun c hc => toNat_lt_of_isDigit (hdigits c hc)
  · exact List.forall_mem_cons.mpr ⟨by decide, fun c hc => toNat_lt_of_isDigit (hdigits c hc)⟩

namespace Base64

end Base64

end Text

/-! ## Cursors -/

namespace Cursor

open Text

end Cursor

end DocumentStore
