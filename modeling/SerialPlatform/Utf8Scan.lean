import Mathlib.Tactic

/-!
# Reading bytes as UTF-8

The valid prefix of a byte string, and why it ends: at the end of the bytes, inside
a character, or at bytes which start no character.  An unfinished character and one
more byte are a character, still unfinished, or invalid as far as they were before.
-/

namespace Utf8Scan

/-- What the bytes start with. -/
inductive Head
  | char (value : Char) (width : ℕ)
  /-- So many bytes start no character. -/
  | invalid (length : ℕ)
  /-- The bytes end inside a character, or are none. -/
  | incomplete
  deriving DecidableEq

def isTail (byte : UInt8) : Bool := 0x80 ≤ byte && byte ≤ 0xbf

/-- The width of a character which starts with this byte, `0` if none does. -/
def width (first : UInt8) : ℕ :=
  if first < 0x80 then 1
  else if 0xc2 ≤ first ∧ first ≤ 0xdf then 2
  else if 0xe0 ≤ first ∧ first ≤ 0xef then 3
  else if 0xf0 ≤ first ∧ first ≤ 0xf4 then 4
  else 0

/-- Overlong forms, surrogates and values above U+10FFFF fail at the second byte. -/
def isSecond (first byte : UInt8) : Bool :=
  if first = 0xe0 then 0xa0 ≤ byte && byte ≤ 0xbf
  else if first = 0xed then 0x80 ≤ byte && byte ≤ 0x9f
  else if first = 0xf0 then 0x90 ≤ byte && byte ≤ 0xbf
  else if first = 0xf4 then 0x80 ≤ byte && byte ≤ 0x8f
  else isTail byte

/-- The character of these bytes. -/
def value (first : UInt8) (tails : List UInt8) : Char :=
  let mask := if tails.length = 0 then 0x80 else 2 ^ (6 - tails.length)
  Char.ofNat (tails.foldl (fun value byte => value * 64 + byte.toNat % 64) (first.toNat % mask))

def head : List UInt8 → Head
  | [] => .incomplete
  | first :: rest =>
      if width first = 0 then .invalid 1
      else if width first = 1 then .char (value first []) 1
      else
        match rest with
        | [] => .incomplete
        | second :: rest =>
            if ¬ isSecond first second then .invalid 1
            else if width first = 2 then .char (value first [second]) 2
            else
              match rest with
              | [] => .incomplete
              | third :: rest =>
                  if ¬ isTail third then .invalid 2
                  else if width first = 3 then .char (value first [second, third]) 3
                  else
                    match rest with
                    | [] => .incomplete
                    | fourth :: _ =>
                        if ¬ isTail fourth then .invalid 3
                        else .char (value first [second, third, fourth]) 4

/-- The end of the valid prefix. -/
inductive Stop
  | atEnd
  | atInvalid (length : ℕ)
  | atIncomplete
  deriving DecidableEq

structure Scan where
  chars : List Char
  validUpTo : ℕ
  stop : Stop
  deriving DecidableEq

/-- The scan of the bytes; `fuel` bounds their number. -/
def scanFor : ℕ → List UInt8 → Scan
  | _, [] => ⟨[], 0, .atEnd⟩
  | 0, _ :: _ => ⟨[], 0, .atIncomplete⟩
  | fuel + 1, first :: rest =>
      match head (first :: rest) with
      | .char value width =>
          let later := scanFor fuel ((first :: rest).drop width)
          ⟨value :: later.chars, width + later.validUpTo, later.stop⟩
      | .invalid length => ⟨[], 0, .atInvalid length⟩
      | .incomplete => ⟨[], 0, .atIncomplete⟩

def scan (bytes : List UInt8) : Scan := scanFor bytes.length bytes

@[simp] theorem scan_nil : scan [] = ⟨[], 0, .atEnd⟩ := rfl

theorem scan_incomplete {bytes : List UInt8} (hsome : bytes ≠ []) (h : head bytes = .incomplete) :
    scan bytes = ⟨[], 0, .atIncomplete⟩ := by
  cases bytes with
  | nil => exact absurd rfl hsome
  | cons first rest => simp [scan, scanFor, h]

theorem scan_invalid {bytes : List UInt8} {length : ℕ} (h : head bytes = .invalid length) :
    scan bytes = ⟨[], 0, .atInvalid length⟩ := by
  cases bytes with
  | nil => cases h
  | cons first rest => simp [scan, scanFor, h]

/-- A single character is the whole scan. -/
theorem scan_char {bytes : List UInt8} {value : Char} (h : head bytes = .char value bytes.length) :
    scan bytes = ⟨[value], bytes.length, .atEnd⟩ := by
  cases bytes with
  | nil => cases h
  | cons first rest =>
      have hdrop : (first :: rest).drop (first :: rest).length = [] := List.drop_length
      simp only [scan, List.length_cons, scanFor] at h ⊢
      rw [h]
      simp only [← List.length_cons (a := first), hdrop, scanFor]
      simp

theorem width_le (first : UInt8) : width first ≤ 4 := by
  unfold width
  split_ifs <;> omega

/-- An unfinished character has at most three bytes. -/
theorem length_of_incomplete {bytes : List UInt8} (h : head bytes = .incomplete) :
    bytes.length ≤ 3 := by
  match bytes with
  | [] => exact Nat.zero_le _
  | [_] => simp
  | [_, _] => simp
  | [_, _, _] => simp
  | first :: second :: third :: fourth :: rest =>
      exfalso
      simp only [head] at h
      split_ifs at h

/-- One more byte behind an unfinished character. -/
theorem head_snoc {bytes : List UInt8} (byte : UInt8) (hsome : bytes ≠ [])
    (h : head bytes = .incomplete) :
    (∃ value, head (bytes ++ [byte]) = .char value (bytes ++ [byte]).length) ∨
      head (bytes ++ [byte]) = .incomplete ∨
      head (bytes ++ [byte]) = .invalid bytes.length := by
  match bytes with
  | [] => exact absurd rfl hsome
  | [first] =>
      simp only [head] at h
      split_ifs at h with hnone hone
      simp only [List.singleton_append, head, if_neg hnone, if_neg hone]
      split_ifs <;> simp
  | [first, second] =>
      simp only [head] at h
      split_ifs at h with hnone hone hsecond htwo
      simp only [List.cons_append, List.nil_append, head, if_neg hnone, if_neg hone,
        if_neg (not_not.mpr hsecond), if_neg htwo]
      split_ifs <;> simp
  | [first, second, third] =>
      simp only [head] at h
      split_ifs at h with hnone hone hsecond htwo hthird hthree
      simp only [List.cons_append, List.nil_append, head, if_neg hnone, if_neg hone,
        if_neg (not_not.mpr hsecond), if_neg htwo, if_neg (not_not.mpr hthird), if_neg hthree]
      split_ifs <;> simp
  | first :: second :: third :: fourth :: rest =>
      have := length_of_incomplete h
      simp only [List.length_cons] at this
      omega

/-- A single byte outside ASCII. -/
theorem head_high {byte : UInt8} (h : 0x80 ≤ byte) :
    head [byte] = .incomplete ∨ head [byte] = .invalid 1 := by
  have hwide : width byte ≠ 1 := by
    unfold width
    rw [if_neg (UInt8.not_lt.mpr h)]
    split_ifs <;> omega
  simp only [head, if_neg hwide]
  split_ifs
  · exact .inr rfl
  · exact .inl rfl

end Utf8Scan
