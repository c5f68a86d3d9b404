import Mathlib.Tactic

/-!
# Lower-case hexadecimal names

Two lower-case digits for every byte.  Distinct byte strings, and so distinct
texts, have distinct names.
-/

namespace HexName

/-- The digits, by their value. -/
def digits : List Char :=
  ['0', '1', '2', '3', '4', '5', '6', '7', '8', '9', 'a', 'b', 'c', 'd', 'e', 'f']

def digit (value : ℕ) : Char := digits.getD value '0'

theorem digit_inj : ∀ a < 16, ∀ b < 16, digit a = digit b → a = b := by
  decide

def encodeByte (byte : UInt8) : List Char :=
  [digit (byte.toNat / 16), digit (byte.toNat % 16)]

theorem encodeByte_inj {a b : UInt8} (h : encodeByte a = encodeByte b) : a = b := by
  have ha := a.toNat_lt
  have hb := b.toNat_lt
  simp only [encodeByte, List.cons.injEq, and_true] at h
  have hhigh := digit_inj _ (by omega) _ (by omega) h.1
  have hlow := digit_inj _ (by omega) _ (by omega) h.2
  exact UInt8.toNat_inj.mp (by omega)

def encode (bytes : List UInt8) : List Char := bytes.flatMap encodeByte

@[simp] theorem encode_nil : encode [] = [] := rfl

@[simp] theorem encode_cons (byte : UInt8) (bytes : List UInt8) :
    encode (byte :: bytes) = encodeByte byte ++ encode bytes := rfl

theorem encode_length (bytes : List UInt8) : (encode bytes).length = 2 * bytes.length := by
  induction bytes with
  | nil => rfl
  | cons byte bytes ih =>
      simp only [encode_cons, List.length_append, ih, List.length_cons]
      simp only [encodeByte, List.length_cons, List.length_nil]
      omega

theorem encode_injective : Function.Injective encode := by
  intro a
  induction a with
  | nil =>
      intro b h
      cases b with
      | nil => rfl
      | cons byte bytes => simp [encodeByte] at h
  | cons byte bytes ih =>
      intro b h
      cases b with
      | nil => simp [encodeByte] at h
      | cons byte' bytes' =>
          rw [encode_cons, encode_cons] at h
          obtain ⟨hbyte, hbytes⟩ := List.append_inj h rfl
          rw [encodeByte_inj hbyte, ih hbytes]

/-- The UTF-8 bytes of a text. -/
def utf8 (text : String) : List UInt8 := text.toByteArray.data.toList

theorem utf8_injective : Function.Injective utf8 := by
  intro a b h
  exact String.toByteArray_inj.mp (ByteArray.ext (Array.ext' h))

/-- The file-system name of a text. -/
def ofText (text : String) : String := String.ofList (encode (utf8 text))

theorem ofText_injective : Function.Injective ofText := by
  intro a b h
  exact utf8_injective (encode_injective (String.ofList_injective h))

end HexName
