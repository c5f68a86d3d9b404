import SerialPlatform.HexName
import SerialPlatform.Protocol

/-!
# Compact JSON text

The pieces of the text which `serde_json` writes, with their lengths in bytes.
-/

namespace SerialPlatform

/-! ## Strings -/

/-- Bytes which `serde_json` writes for one character of a string. -/
def jsonCharLength (c : Char) : ℕ :=
  if c = '"' ∨ c = '\\' then 2
  else if c.toNat = 8 ∨ c.toNat = 9 ∨ c.toNat = 10 ∨ c.toNat = 12 ∨ c.toNat = 13 then 2
  else if c.toNat < 0x20 then 6
  else c.utf8Size

def jsonStringLength (text : String) : ℕ :=
  2 + (text.toList.map jsonCharLength).sum

/-- One character of a string, escaped where JSON needs it. -/
def jsonChar (c : Char) : List Char :=
  if c = '"' ∨ c = '\\' then ['\\', c]
  else if c.toNat = 8 then ['\\', 'b']
  else if c.toNat = 9 then ['\\', 't']
  else if c.toNat = 10 then ['\\', 'n']
  else if c.toNat = 12 then ['\\', 'f']
  else if c.toNat = 13 then ['\\', 'r']
  else if c.toNat < 0x20 then ['\\', 'u', '0', '0', HexName.digit (c.toNat / 16),
    HexName.digit (c.toNat % 16)]
  else [c]

def jsonString (text : String) : String :=
  "\"" ++ String.ofList (text.toList.flatMap jsonChar) ++ "\""

/-- The size of a text is the size of its characters. -/
theorem utf8ByteSize_ofList (chars : List Char) :
    (String.ofList chars).utf8ByteSize = (chars.map Char.utf8Size).sum := by
  induction chars with
  | nil => rfl
  | cons c chars ih =>
      have hcons : String.ofList (c :: chars) = String.singleton c ++ String.ofList chars := by
        rw [← String.toList_inj]
        simp
      rw [hcons, String.utf8ByteSize_append, String.utf8ByteSize_singleton, ih]
      rfl

theorem utf8Size_hexDigit (value : ℕ) : (HexName.digit value).utf8Size = 1 := by
  by_cases hvalue : value < 16
  · interval_cases value <;> decide
  · have hnone : HexName.digits[value]? = none :=
      List.getElem?_eq_none (Nat.le_of_not_lt hvalue)
    rw [HexName.digit, List.getD_eq_getElem?_getD, hnone]
    decide

/-- The escaped character takes the bytes which `jsonCharLength` counts. -/
theorem utf8Size_jsonChar (c : Char) :
    ((jsonChar c).map Char.utf8Size).sum = jsonCharLength c := by
  unfold jsonChar jsonCharLength
  by_cases hquote : c = '"' ∨ c = '\\'
  · rw [if_pos hquote, if_pos hquote]
    rcases hquote with rfl | rfl <;> rfl
  · rw [if_neg hquote, if_neg hquote]
    have hletters : '\\'.utf8Size = 1 ∧ 'u'.utf8Size = 1 ∧ '0'.utf8Size = 1 := by decide
    split_ifs <;> first | omega | rfl | simp [utf8Size_hexDigit, hletters]

theorem utf8ByteSize_jsonString (text : String) :
    (jsonString text).utf8ByteSize = jsonStringLength text := by
  have hchars : ∀ chars : List Char,
      ((chars.flatMap jsonChar).map Char.utf8Size).sum = (chars.map jsonCharLength).sum := by
    intro chars
    induction chars with
    | nil => rfl
    | cons c chars ih =>
        simp only [List.flatMap_cons, List.map_append, List.sum_append, List.map_cons,
          List.sum_cons, ih, utf8Size_jsonChar]
  have hquote : "\"".utf8ByteSize = 1 := rfl
  rw [jsonString, String.utf8ByteSize_append, String.utf8ByteSize_append, hquote,
    utf8ByteSize_ofList (text.toList.flatMap jsonChar), hchars, jsonStringLength]
  omega

/-! ## Numbers and identifiers -/

def jsonNat (n : ℕ) : String := toString n

def jsonInt (n : ℤ) : String := toString n

def jsonBool (b : Bool) : String := if b then "true" else "false"

/-- The hexadecimal digits of a UUID, the most significant first. -/
def uuidDigits (id : Uuid) : List Char :=
  (List.range 32).map fun index => HexName.digit (id / 16 ^ (31 - index) % 16)

/-- The hyphenated text of a UUID. -/
def uuidText (id : Uuid) : String :=
  let digits := uuidDigits id
  String.ofList (digits.take 8 ++ '-' :: (digits.drop 8).take 4 ++ '-' ::
    (digits.drop 12).take 4 ++ '-' :: (digits.drop 16).take 4 ++ '-' :: digits.drop 20)

/-! ## Arrays and objects -/

def commaSeparated : List String → String
  | [] => ""
  | [item] => item
  | item :: next :: rest => item ++ "," ++ commaSeparated (next :: rest)

def jsonArray (items : List String) : String := "[" ++ commaSeparated items ++ "]"

def jsonField (name value : String) : String := jsonString name ++ ":" ++ value

def jsonObject (fields : List String) : String := "\x7b" ++ commaSeparated fields ++ "\x7d"

theorem utf8ByteSize_commaSeparated (items : List String) :
    (commaSeparated items).utf8ByteSize =
      (items.map String.utf8ByteSize).sum + (items.length - 1) := by
  have hcomma : ",".utf8ByteSize = 1 := rfl
  induction items with
  | nil => rfl
  | cons item rest ih =>
      cases rest with
      | nil => simp [commaSeparated]
      | cons next rest =>
          simp only [commaSeparated, String.utf8ByteSize_append, ih, hcomma, List.map_cons,
            List.sum_cons, List.length_cons]
          omega

end SerialPlatform
