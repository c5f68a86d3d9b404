import Mathlib.Tactic

/-!
# Bounded text fields

The character classes of the standard library, and the one check which the
daemon makes on the texts of its requests and of its configuration.
-/

namespace SerialPlatform

/-- `char::is_control`: the Unicode category Cc. -/
def isControlChar (c : Char) : Bool :=
  c.toNat < 0x20 || (0x7f ≤ c.toNat && c.toNat < 0xa0)

/-- `char::is_whitespace`: the Unicode property White_Space. -/
def isWhitespaceChar (c : Char) : Bool :=
  (9 ≤ c.toNat && c.toNat ≤ 13) || c.toNat = 0x20 || c.toNat = 0x85 ||
    c.toNat = 0xa0 || c.toNat = 0x1680 || (0x2000 ≤ c.toNat && c.toNat ≤ 0x200a) ||
    c.toNat = 0x2028 || c.toNat = 0x2029 || c.toNat = 0x202f || c.toNat = 0x205f ||
    c.toNat = 0x3000

/-- A text which is empty, untrimmed, too long or has a control character. -/
def isBadText (maxBytes : ℕ) (text : String) : Bool :=
  text.isEmpty || text.toList.head?.any isWhitespaceChar ||
    text.toList.getLast?.any isWhitespaceChar || maxBytes < text.utf8ByteSize ||
    text.toList.any isControlChar

theorem isBadText_eq_false {maxBytes : ℕ} {text : String} (h : isBadText maxBytes text = false) :
    text ≠ "" ∧ text.utf8ByteSize ≤ maxBytes := by
  simp only [isBadText, Bool.or_eq_false_iff, decide_eq_false_iff_not, not_lt] at h
  obtain ⟨⟨⟨⟨hempty, -⟩, -⟩, hsize⟩, -⟩ := h
  refine ⟨fun htext => ?_, hsize⟩
  rw [htext] at hempty
  cases hempty

end SerialPlatform
