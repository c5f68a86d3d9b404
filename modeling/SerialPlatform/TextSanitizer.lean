import Mathlib.Data.List.TakeWhile
import SerialPlatform.Protocol
import SerialPlatform.Utf8Lossy

/-!
# Sanitized text

Escape sequences and controls are removed from bytes which come at once, and a
backspace erases the character before it.  What is left is decoded afterwards: two bytes
which stood apart may then be one character.
-/

namespace SerialPlatform.Display

open Utf8Scan

/-! ## The sanitizer -/

/-- Parameters and intermediates up to a final byte. -/
def skipCsi : Bytes → Bytes
  | [] => []
  | byte :: rest => if 0x40 ≤ byte ∧ byte ≤ 0x7e then rest else skipCsi rest

/-- A control string up to BEL or ST. -/
def skipControlString : Bytes → Bytes
  | [] => []
  | byte :: rest =>
      if byte = 0x07 then rest
      else if byte = 0x1b ∧ rest.head? = some 0x5c then rest.drop 1
      else skipControlString rest

/-- `skip_escape_sequence`: the bytes behind the sequence, of those behind its ESC. -/
def skipEscapeSequence : Bytes → Bytes
  | [] => []
  | kind :: rest =>
      if kind = 0x5b then skipCsi rest
      else if kind ∈ ([0x5d, 0x50, 0x58, 0x5e, 0x5f] : Bytes) then skipControlString rest
      else rest

/-- A backspace: the tails at the end and the byte before them. -/
def eraseLast (clean : Bytes) : Bytes := ((clean.reverse.dropWhile isTail).drop 1).reverse

/-- The loop of `sanitize_terminal_bytes`; `fuel` bounds the bytes left. -/
def cleanFor : ℕ → Bytes → Bytes → Bytes
  | _, [], clean => clean
  | 0, _ :: _, clean => clean
  | fuel + 1, byte :: rest, clean =>
      if byte = 0x1b then cleanFor fuel (skipEscapeSequence rest) clean
      else if byte = 0x0a ∨ byte = 0x0d ∨ byte = 0x09 then cleanFor fuel rest (clean ++ [byte])
      else if byte = 0x08 then cleanFor fuel rest (eraseLast clean)
      else if byte ≤ 0x1f ∨ byte = 0x7f then cleanFor fuel rest clean
      else cleanFor fuel rest (clean ++ [byte])

def sanitizeTerminalBytes (bytes : Bytes) : List Char := lossy (cleanFor bytes.length bytes [])

/-- `replace("\r\n", "\n")` -/
def joinCrLf : List Char → List Char
  | '\r' :: '\n' :: rest => '\n' :: joinCrLf rest
  | character :: rest => character :: joinCrLf rest
  | [] => []

def normalizeNewlines (text : List Char) : List Char :=
  (joinCrLf text).map (fun character => if character = '\r' then '\n' else character)

/-- `safe_inline`, of the bytes of a label. -/
def safeInline (value : Bytes) : List Char :=
  (normalizeNewlines (sanitizeTerminalBytes value)).map
    (fun character => if character = '\n' ∨ character = '\t' then ' ' else character)

/-! ## Strokes -/

/-- What the bytes do to the text, one after the other. -/
inductive Stroke
  | keep (byte : UInt8)
  | erase
  deriving DecidableEq

def strokesFor : ℕ → Bytes → List Stroke
  | _, [] => []
  | 0, _ :: _ => []
  | fuel + 1, byte :: rest =>
      if byte = 0x1b then strokesFor fuel (skipEscapeSequence rest)
      else if byte = 0x0a ∨ byte = 0x0d ∨ byte = 0x09 then .keep byte :: strokesFor fuel rest
      else if byte = 0x08 then .erase :: strokesFor fuel rest
      else if byte ≤ 0x1f ∨ byte = 0x7f then strokesFor fuel rest
      else .keep byte :: strokesFor fuel rest

def strokes (bytes : Bytes) : List Stroke := strokesFor bytes.length bytes

/-- What the strokes keep behind other bytes; `none` when they erase those too. -/
def keptBehind (kept : Bytes) : List Stroke → Option Bytes
  | [] => some kept
  | .keep byte :: rest => keptBehind (kept ++ [byte]) rest
  | .erase :: rest => if kept.all isTail then none else keptBehind (eraseLast kept) rest

/-- A byte C2 and the second byte of a C1 control, neither of which is erased, with
nothing between them but what is removed again. -/
def HidesC1 (bytes : Bytes) : Prop :=
  ∃ before between tail after,
    strokes bytes = before ++ .keep 0xc2 :: (between ++ .keep tail :: after) ∧
      IsC1Tail tail ∧ keptBehind [] between = some [] ∧ (keptBehind [] after).isSome

namespace Stroke

def apply (clean : Bytes) : Stroke → Bytes
  | .keep byte => clean ++ [byte]
  | .erase => eraseLast clean

end Stroke

theorem cleanFor_eq (fuel : ℕ) (bytes clean : Bytes) :
    cleanFor fuel bytes clean = (strokesFor fuel bytes).foldl Stroke.apply clean := by
  induction fuel generalizing bytes clean with
  | zero => cases bytes <;> simp [cleanFor, strokesFor]
  | succ fuel ih =>
      cases bytes with
      | nil => simp [cleanFor, strokesFor]
      | cons byte rest =>
          rw [cleanFor, strokesFor]
          split_ifs
          · exact ih _ _
          · exact ih _ _
          · exact ih _ _
          · exact ih _ _
          · exact ih _ _

theorem sanitizeTerminalBytes_eq (bytes : Bytes) :
    sanitizeTerminalBytes bytes = lossy ((strokes bytes).foldl Stroke.apply []) := by
  rw [sanitizeTerminalBytes, cleanFor_eq]
  rfl

/-! ## Erasing -/

theorem eraseLast_tails {clean tails : Bytes} {first : UInt8} (hfirst : isTail first = false)
    (htails : ∀ tail ∈ tails, isTail tail = true) : eraseLast (clean ++ first :: tails) = clean := by
  have hreverse : (clean ++ first :: tails).reverse = tails.reverse ++ first :: clean.reverse := by
    simp
  have hskip : (tails.reverse ++ first :: clean.reverse).dropWhile isTail =
      first :: clean.reverse := by
    rw [List.dropWhile_append_of_pos (by simpa using htails)]
    simp [hfirst]
  rw [eraseLast, hreverse, hskip]
  simp

/-- The last character, when there is one. -/
theorem exists_last {clean : Bytes} (h : ¬ clean.all isTail) :
    ∃ before first tails, clean = before ++ first :: tails ∧ isTail first = false ∧
      ∀ tail ∈ tails, isTail tail = true := by
  induction clean using List.reverseRecOn with
  | nil => simp at h
  | append_singleton rest last ih =>
      by_cases hlast : isTail last = true
      · have hrest : ¬ rest.all isTail := by
          intro hall
          apply h
          simp only [List.all_append, hall, List.all_cons, hlast, List.all_nil, Bool.and_self]
        obtain ⟨before, first, tails, heq, hfirst, htails⟩ := ih hrest
        refine ⟨before, first, tails ++ [last], by rw [heq]; simp, hfirst, ?_⟩
        intro tail hmem
        rcases List.mem_append.mp hmem with hmem | hmem
        · exact htails tail hmem
        · rw [List.mem_singleton.mp hmem]
          exact hlast
      · refine ⟨rest, last, [], by simp, by simpa using hlast, by simp⟩

theorem eraseLast_all {clean : Bytes} (h : clean.all isTail) : eraseLast clean = [] := by
  have hskip : clean.reverse.dropWhile isTail = [] := by
    rw [List.dropWhile_eq_nil_iff]
    intro byte hmem
    exact List.all_eq_true.mp h byte (List.mem_reverse.mp hmem)
  rw [eraseLast, hskip]
  rfl

theorem eraseLast_append {clean kept : Bytes} (h : ¬ kept.all isTail) :
    eraseLast (clean ++ kept) = clean ++ eraseLast kept := by
  obtain ⟨before, first, tails, rfl, hfirst, htails⟩ := exists_last h
  rw [eraseLast_tails hfirst htails, ← List.append_assoc, eraseLast_tails hfirst htails]

theorem mem_of_mem_eraseLast {clean : Bytes} {byte : UInt8} (h : byte ∈ eraseLast clean) :
    byte ∈ clean := by
  have hdropped := List.mem_of_mem_drop (List.mem_reverse.mp h)
  exact List.mem_reverse.mp ((List.dropWhile_sublist isTail).subset hdropped)

/-! ## What stays -/

theorem foldl_keptBehind {kept kept' : Bytes} {more : List Stroke} (clean : Bytes)
    (h : keptBehind kept more = some kept') :
    more.foldl Stroke.apply (clean ++ kept) = clean ++ kept' := by
  induction more generalizing kept with
  | nil =>
      rw [keptBehind] at h
      cases h
      rfl
  | cons stroke rest ih =>
      cases stroke with
      | keep byte =>
          rw [keptBehind] at h
          rw [List.foldl_cons, Stroke.apply, List.append_assoc]
          exact ih h
      | erase =>
          rw [keptBehind] at h
          split_ifs at h with hall
          rw [List.foldl_cons, Stroke.apply, eraseLast_append hall]
          exact ih h

theorem keptBehind_append (kept : Bytes) (first second : List Stroke) :
    keptBehind kept (first ++ second) =
      (keptBehind kept first).bind (fun kept' => keptBehind kept' second) := by
  induction first generalizing kept with
  | nil => rfl
  | cons stroke rest ih =>
      cases stroke with
      | keep byte =>
          rw [List.cons_append, keptBehind, keptBehind]
          exact ih _
      | erase =>
          rw [List.cons_append, keptBehind, keptBehind]
          split_ifs
          · rfl
          · exact ih _

/-- A byte of the text was kept by one of the strokes, and those behind it kept the rest. -/
theorem exists_stroke {all : List Stroke} {before after : Bytes} {byte : UInt8}
    (h : all.foldl Stroke.apply [] = before ++ byte :: after) :
    ∃ first second, all = first ++ .keep byte :: second ∧
      first.foldl Stroke.apply [] = before ∧ keptBehind [] second = some after := by
  induction all using List.reverseRecOn generalizing after with
  | nil => simp at h
  | append_singleton rest last ih =>
      rw [List.foldl_append, List.foldl_cons, List.foldl_nil] at h
      cases last with
      | keep other =>
          rw [Stroke.apply] at h
          rcases List.eq_nil_or_concat after with rfl | ⟨earlier, final, rfl⟩
          · obtain ⟨hbefore, hbyte⟩ := List.append_inj' h rfl
            cases hbyte
            exact ⟨rest, [], rfl, hbefore, rfl⟩
          · rw [List.concat_eq_append] at h ⊢
            have hsplit : rest.foldl Stroke.apply [] ++ [other] =
                (before ++ byte :: earlier) ++ [final] := by simpa using h
            obtain ⟨hrest, hlast⟩ := List.append_inj' hsplit rfl
            cases hlast
            obtain ⟨first, second, hall, hfirst, hsecond⟩ := ih hrest
            refine ⟨first, second ++ [.keep other], by rw [hall]; simp, hfirst, ?_⟩
            rw [keptBehind_append, hsecond]
            rfl
      | erase =>
          rw [Stroke.apply] at h
          have hsome : ¬ (rest.foldl Stroke.apply []).all isTail := by
            intro hall
            rw [eraseLast_all hall] at h
            simp at h
          obtain ⟨kept, lead, tails, heq, hlead, htails⟩ := exists_last hsome
          rw [heq, eraseLast_tails hlead htails] at h
          have hrest : rest.foldl Stroke.apply [] = before ++ byte :: (after ++ lead :: tails) := by
            rw [heq, h]
            simp
          obtain ⟨first, second, hall, hfirst, hsecond⟩ := ih hrest
          refine ⟨first, second ++ [.erase], by rw [hall]; simp, hfirst, ?_⟩
          rw [keptBehind_append, hsecond, Option.bind_some, keptBehind, if_neg]
          · rw [eraseLast_tails hlead htails]
            rfl
          · simp [hlead]

/-- The text has the bytes of a C1 control exactly when the input hides one. -/
theorem hidesC1_iff (bytes : Bytes) :
    HidesC1 bytes ↔ ∃ before tail after,
      (strokes bytes).foldl Stroke.apply [] = before ++ 0xc2 :: tail :: after ∧ IsC1Tail tail := by
  constructor
  · rintro ⟨before, between, tail, after, hstrokes, hc1, hbetween, hafter⟩
    obtain ⟨kept, hkept⟩ := Option.isSome_iff_exists.mp hafter
    refine ⟨before.foldl Stroke.apply [], tail, kept, ?_, hc1⟩
    have hpair := foldl_keptBehind (before.foldl Stroke.apply [] ++ [0xc2]) hbetween
    rw [hstrokes, List.foldl_append, List.foldl_cons, Stroke.apply, List.foldl_append,
      List.foldl_cons]
    rw [List.append_nil] at hpair
    have hend := foldl_keptBehind (before.foldl Stroke.apply [] ++ [0xc2] ++ [tail]) hkept
    rw [List.append_nil] at hend
    rw [hpair, Stroke.apply, hend]
    simp
  · rintro ⟨before, tail, after, htext, hc1⟩
    have hsplit : (strokes bytes).foldl Stroke.apply [] = (before ++ [0xc2]) ++ tail :: after := by
      rw [htext]
      simp
    obtain ⟨first, second, hstrokes, hfirst, hsecond⟩ := exists_stroke hsplit
    obtain ⟨start, between, hpair, -, hbetween⟩ := exists_stroke hfirst
    refine ⟨start, between, tail, second, ?_, hc1, hbetween, ?_⟩
    · rw [hstrokes, hpair]
      simp
    · rw [hsecond]
      rfl

/-! ## Control characters -/

/-- The bytes which are kept. -/
def IsKept (byte : UInt8) : Prop :=
  byte = 0x0a ∨ byte = 0x0d ∨ byte = 0x09 ∨ ¬ (byte ≤ 0x1f ∨ byte = 0x7f)

theorem isKept_of_mem_strokesFor (fuel : ℕ) (bytes : Bytes) {byte : UInt8}
    (h : Stroke.keep byte ∈ strokesFor fuel bytes) : IsKept byte := by
  induction fuel generalizing bytes with
  | zero => cases bytes <;> simp [strokesFor] at h
  | succ fuel ih =>
      cases bytes with
      | nil => simp [strokesFor] at h
      | cons first rest =>
          rw [strokesFor] at h
          split_ifs at h with hescape hnewline herase hcontrol
          · exact ih _ h
          · rcases List.mem_cons.mp h with heq | hrest
            · cases heq
              rcases hnewline with heq | heq | heq
              · exact .inl heq
              · exact .inr (.inl heq)
              · exact .inr (.inr (.inl heq))
            · exact ih _ hrest
          · rcases List.mem_cons.mp h with heq | hrest
            · cases heq
            · exact ih _ hrest
          · exact ih _ h
          · rcases List.mem_cons.mp h with heq | hrest
            · cases heq
              exact .inr (.inr (.inr hcontrol))
            · exact ih _ hrest

theorem isKept_of_mem {all : List Stroke} {byte : UInt8}
    (h : ∀ other, Stroke.keep other ∈ all → IsKept other)
    (hmem : byte ∈ all.foldl Stroke.apply []) : IsKept byte := by
  obtain ⟨before, after, hsplit⟩ := List.append_of_mem hmem
  obtain ⟨first, second, hall, -, -⟩ := exists_stroke hsplit
  apply h
  rw [hall]
  simp

/-- A kept byte is no control character but the three. -/
theorem eq_of_isControl_kept {byte : UInt8} (h : IsKept byte) (hlow : byte < 0x80)
    (hcontrol : IsControl (value byte [])) :
    value byte [] = '\n' ∨ value byte [] = '\r' ∨ value byte [] = '\t' := by
  have hle (a b : UInt8) : a ≤ b ↔ a.toNat ≤ b.toNat := UInt8.le_iff_toNat_le
  rcases h with rfl | rfl | rfl | hplain
  · exact .inl rfl
  · exact .inr (.inl rfl)
  · exact .inr (.inr rfl)
  · exfalso
    rw [IsControl, toNat_one hlow] at hcontrol
    simp only [hle, ← UInt8.toNat_inj, UInt8.reduceToNat] at hplain
    have hsmall := UInt8.lt_iff_toNat_lt.mp hlow
    simp only [UInt8.reduceToNat] at hsmall
    omega

/-- The only controls of sanitized text are newline, carriage return and tab, unless the
bytes hide a C1 control. -/
theorem sanitizeTerminalBytes_controls_iff (bytes : Bytes) :
    (∀ character ∈ sanitizeTerminalBytes bytes, IsControl character →
      character = '\n' ∨ character = '\r' ∨ character = '\t') ↔ ¬ HidesC1 bytes := by
  rw [hidesC1_iff, sanitizeTerminalBytes_eq]
  constructor
  · rintro h ⟨before, tail, after, htext, hc1⟩
    obtain ⟨character, hmem, hlow, hhigh⟩ := exists_c1_mem_lossy htext hc1
    have hcontrol : IsControl character := .inr ⟨by omega, hhigh⟩
    rcases h character hmem hcontrol with rfl | rfl | rfl <;> exact absurd hlow (by decide)
  · intro h character hmem hcontrol
    rcases isControl_of_mem_lossy hmem hcontrol with ⟨byte, hbyte, hlow, rfl⟩ | hpair
    · have hkept := isKept_of_mem (fun _ => isKept_of_mem_strokesFor _ _) hbyte
      exact eq_of_isControl_kept hkept hlow hcontrol
    · exact absurd hpair h

theorem mem_joinCrLf {text : List Char} {character : Char} (h : character ≠ '\r') :
    character ∈ joinCrLf text ↔ character ∈ text := by
  fun_induction joinCrLf text with
  | case1 rest ih => simp [ih, h]
  | case2 first rest hnot ih => simp [ih]
  | case3 => simp

theorem mem_safeInline {value : Bytes} {character : Char} (h : IsControl character) :
    character ∈ safeInline value ↔ character ∈ sanitizeTerminalBytes value ∧
      character ≠ '\n' ∧ character ≠ '\r' ∧ character ≠ '\t' := by
  have hblank : character ≠ ' ' := by
    rintro rfl
    exact absurd h (by decide)
  simp only [safeInline, normalizeNewlines, List.mem_map]
  constructor
  · rintro ⟨shown, ⟨joined, hjoined, rfl⟩, heq⟩
    split_ifs at heq with hreturn hspace hother
    · exact absurd heq.symm hblank
    · exact absurd (Or.inl rfl) hspace
    · exact absurd heq.symm hblank
    · subst heq
      rw [mem_joinCrLf hreturn] at hjoined
      exact ⟨hjoined, fun heq => hother (.inl heq), hreturn, fun heq => hother (.inr heq)⟩
  · rintro ⟨hmem, hnewline, hreturn, htab⟩
    refine ⟨character, ⟨character, (mem_joinCrLf hreturn).mpr hmem, if_neg hreturn⟩, ?_⟩
    rw [if_neg]
    rintro (heq | heq)
    · exact hnewline heq
    · exact htab heq

/-- A label in one row has no control character, unless its bytes hide a C1 control. -/
theorem safeInline_controls_iff (value : Bytes) :
    (∀ character ∈ safeInline value, ¬ IsControl character) ↔ ¬ HidesC1 value := by
  rw [← sanitizeTerminalBytes_controls_iff]
  constructor
  · intro h character hmem hcontrol
    by_contra hother
    rw [not_or, not_or] at hother
    exact h character ((mem_safeInline hcontrol).mpr ⟨hmem, hother.1, hother.2.1, hother.2.2⟩)
      hcontrol
  · intro h character hmem hcontrol
    obtain ⟨htext, hnewline, hreturn, htab⟩ := (mem_safeInline hcontrol).mp hmem
    rcases h character htext hcontrol with heq | heq | heq
    · exact hnewline heq
    · exact hreturn heq
    · exact htab heq

end SerialPlatform.Display
