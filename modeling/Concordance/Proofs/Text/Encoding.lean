import Concordance.Text.Hexadecimal
import Mathlib.Algebra.Group.Nat.Defs

/-!
# Digits and bytes of characters

What is read from the hexadecimal digits that write a code point, and from the bytes of a text.
-/

namespace Concordance.Text

/-- The bytes of a text are read as the text. -/
theorem fromUTF8?_toUTF8 (text : String) : String.fromUTF8? text.toUTF8 = some text := by
  rw [String.toUTF8_eq_toByteArray, String.fromUTF8?, dif_pos (String.isValidUTF8 text)]
  rfl

/-- Hexadecimal digits that write a number, with letters of either case. -/
inductive HexDigits : Nat → List Char → Prop
  | nil : HexDigits 0 []
  | snoc {n digit : Nat} {cs : List Char} {c : Char} (h : HexDigits n cs) (hdigit : digit < 16)
      (hc : c = digit.digitChar ∨ c = digit.digitChar.toUpper) :
      HexDigits (16 * n + digit) (cs ++ [c])

theorem hexValue?_digit {digit : Nat} (h : digit < 16) {c : Char}
    (hc : c = digit.digitChar ∨ c = digit.digitChar.toUpper) : hexValue? c = some digit := by
  have hall : ∀ digit < 16, hexValue? digit.digitChar = some digit ∧
      hexValue? digit.digitChar.toUpper = some digit := by
    decide
  rcases hc with rfl | rfl
  · exact (hall digit h).1
  · exact (hall digit h).2

theorem HexDigits.hexNumber? {n : Nat} {cs : List Char} (h : HexDigits n cs) :
    hexNumber? cs = some n := by
  induction h with
  | nil => rfl
  | snoc _ hdigit hc ih =>
    rw [Text.hexNumber?] at ih ⊢
    rw [List.foldlM_append, ih]
    simp [hexValue?_digit hdigit hc]

/-- The code point of a character is no surrogate. -/
theorem toNat_valid (c : Char) : c.toNat < 0xD800 ∨ 0xDFFF < c.toNat ∧ c.toNat < 0x110000 :=
  c.valid

/-- Every number has digits, as many as are wanted. -/
theorem exists_hexDigits (count : Nat) {n : Nat} (h : n < 16 ^ count) :
    ∃ cs, HexDigits n cs ∧ cs.length = count := by
  induction count generalizing n with
  | zero =>
    obtain rfl : n = 0 := by omega
    exact ⟨[], .nil, rfl⟩
  | succ count ih =>
    obtain ⟨cs, hcs, hlength⟩ := ih (n := n / 16) (by omega)
    have hdigits : HexDigits (16 * (n / 16) + n % 16) (cs ++ [(n % 16).digitChar]) :=
      .snoc hcs (Nat.mod_lt n (by decide)) (Or.inl rfl)
    rw [Nat.div_add_mod] at hdigits
    exact ⟨_, hdigits, by simp [hlength]⟩

end Concordance.Text
