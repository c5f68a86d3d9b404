import Mathlib.Tactic

/-!
# Saturating machine counters

The daemon keeps its counters in `u64` and advances them with
`saturating_add`.  Counters are natural numbers here and every addition names
its cap, so a statement about a counter says what happens when the cap is
reached.
-/

namespace SerialPlatform

/-- Addition of a bounded machine integer which sticks at its largest value. -/
def satAdd (cap a b : ℕ) : ℕ := min (a + b) cap

theorem satAdd_le_cap (cap a b : ℕ) : satAdd cap a b ≤ cap :=
  min_le_right _ _

theorem satAdd_eq_add {cap a b : ℕ} (h : a + b ≤ cap) :
    satAdd cap a b = a + b :=
  min_eq_left h

theorem le_satAdd {cap a : ℕ} (b : ℕ) (h : a ≤ cap) : a ≤ satAdd cap a b :=
  le_min (Nat.le_add_right a b) h

theorem lt_satAdd {cap a b : ℕ} (hb : 0 < b) (h : a < cap) :
    a < satAdd cap a b :=
  lt_min (by omega) h

theorem satAdd_assoc (cap a b c : ℕ) :
    satAdd cap (satAdd cap a b) c = satAdd cap a (b + c) := by
  simp only [satAdd]
  omega

@[simp] theorem satAdd_zero {cap a : ℕ} (h : a ≤ cap) : satAdd cap a 0 = a := by
  simpa [satAdd] using h

/-- The largest `u64`. -/
def u64Max : ℕ := 2 ^ 64 - 1

/-- The largest `i64`. -/
def i64Max : ℤ := 2 ^ 63 - 1

/-- The smallest `i64`. -/
def i64Min : ℤ := -(2 ^ 63)

/-- `saturating_add` on `i64`. -/
def satAddI64 (a b : ℤ) : ℤ := max i64Min (min (a + b) i64Max)

end SerialPlatform
