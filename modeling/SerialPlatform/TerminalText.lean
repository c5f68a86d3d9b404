import SerialPlatform.Protocol
import SerialPlatform.Utf8Scan

/-!
# The terminal-to-text projection

One row of a terminal, fed byte by byte.  The methods call each other in a circle
(a finished row first writes the rest of a broken character, which may finish a row)
and a tab writes blanks until the cursor is behind it, so that nothing in the text
of the program bounds them: each takes a number of turns, and `none` means that
these were not enough.
-/

namespace SerialPlatform.Display

/-- `MAX_STREAM_LINE_CHARS` -/
def maxStreamLineChars : ℕ := 16 * 1024

/-- `MAX_CSI_PARAMETER_BYTES` -/
def maxCsiParameterBytes : ℕ := 64

/-- `MAX_CONTROL_STRING_BYTES` -/
def maxControlStringBytes : ℕ := 4 * 1024

/-- `MAX_ESCAPE_INTERMEDIATE_BYTES` -/
def maxEscapeIntermediateBytes : ℕ := 16

inductive EscapeState
  | ground
  | escape
  | escapeIntermediate
  | csi
  | controlString
  | controlStringEscape
  deriving DecidableEq

structure ProjectedRow where
  text : List Char
  continuesPrevious : Bool
  deriving DecidableEq

/-- The state, with the vector to which the methods push finished rows. -/
structure TerminalText where
  continuesPrevious : Bool
  line : List Char
  cursor : ℕ
  touched : Bool
  utf8 : Bytes
  escape : EscapeState
  csiParameters : Bytes
  escapePayloadBytes : ℕ
  rows : List ProjectedRow
  deriving DecidableEq

def replacement : Char := '\uFFFD'

/-- The number in one parameter; other bytes in it are skipped. -/
def csiNumber (digits : Bytes) : ℕ :=
  digits.foldl
    (fun number byte =>
      if 48 ≤ byte ∧ byte ≤ 57 then
        satAdd u64Max (min (number * 10) u64Max) (byte.toNat - 48)
      else number)
    0

def csiParameter (parameters : Bytes) (index default : ℕ) : ℕ :=
  match (parameters.splitOn 59)[index]? with
  | none => default
  | some digits => if digits.isEmpty then default else csiNumber digits

namespace TerminalText

def default : TerminalText where
  continuesPrevious := false
  line := []
  cursor := 0
  touched := false
  utf8 := []
  escape := .ground
  csiParameters := []
  escapePayloadBytes := 0
  rows := []

/-! ## Characters and rows -/

/-- The second half of `write_char`: the character at the cursor. -/
def put (t : TerminalText) (character : Char) : TerminalText :=
  let line := t.line ++ List.replicate (t.cursor - t.line.length) ' '
  { t with
    line := if t.cursor < line.length then line.set t.cursor character else line ++ [character]
    cursor := t.cursor + 1
    touched := true }

/-- The second half of `commit_row`. -/
def pushRow (t : TerminalText) : TerminalText :=
  { t with
    rows := t.rows ++ [⟨t.line, t.continuesPrevious⟩]
    line := []
    cursor := 0
    touched := false
    continuesPrevious := false }

mutual

def drainUtf8 (finalize : Bool) (t : TerminalText) : ℕ → Option TerminalText
  | 0 => none
  | turns + 1 =>
      let scan := Utf8Scan.scan t.utf8
      if scan.stop = .atEnd then writeChars scan.chars { t with utf8 := [] } turns
      else if 0 < scan.validUpTo then do
        let t ← writeChars scan.chars { t with utf8 := t.utf8.drop scan.validUpTo } turns
        drainUtf8 finalize t turns
      else
        match scan.stop with
        | .atInvalid length => do
            let t ← writeChar replacement { t with utf8 := t.utf8.drop length } turns
            drainUtf8 finalize t turns
        | _ => if finalize then writeChar replacement { t with utf8 := [] } turns else some t

def writeChars (characters : List Char) (t : TerminalText) : ℕ → Option TerminalText
  | 0 => none
  | turns + 1 =>
      match characters with
      | [] => some t
      | character :: rest => do
          let t ← writeChar character t turns
          writeChars rest t turns

def writeChar (character : Char) (t : TerminalText) : ℕ → Option TerminalText
  | 0 => none
  | turns + 1 =>
      if maxStreamLineChars ≤ t.cursor then do
        let t ← commitRow t turns
        some ({ t with continuesPrevious := true }.put character)
      else some (t.put character)

def commitRow (t : TerminalText) : ℕ → Option TerminalText
  | 0 => none
  | turns + 1 => do
      let t ← drainUtf8 true t turns
      some t.pushRow

end

/-! ## Controls -/

/-- The loop of a tab. -/
def tabTo (nextTab : ℕ) (t : TerminalText) : ℕ → Option TerminalText
  | 0 => none
  | turns + 1 =>
      if t.cursor < nextTab then do
        let t ← writeChar ' ' t turns
        tabTo nextTab t turns
      else some t

def resetEscape (t : TerminalText) : TerminalText :=
  { t with escape := .ground, csiParameters := [], escapePayloadBytes := 0 }

def startCsi (t : TerminalText) : TerminalText :=
  { t with csiParameters := [], escapePayloadBytes := 0, escape := .csi }

def startControlString (t : TerminalText) : TerminalText :=
  { t with escapePayloadBytes := 0, escape := .controlString }

/-- `bump_control_string`: whether the control string still goes on. -/
def bumpControlString (t : TerminalText) : Bool × TerminalText :=
  let bumped := { t with escapePayloadBytes := t.escapePayloadBytes + 1 }
  if maxControlStringBytes < bumped.escapePayloadBytes then (false, bumped.resetEscape)
  else (true, bumped)

/-- Blanks from `start` up to `stop`. -/
def fillBlank (line : List Char) (start stop : ℕ) : List Char :=
  line.take start ++ List.replicate (min stop line.length - start) ' ' ++ line.drop (max start stop)

def applyCsi (t : TerminalText) (finalByte : UInt8) (parameters : Bytes) : TerminalText :=
  let first := csiParameter parameters 0 0
  match Char.ofNat finalByte.toNat with
  | 'K' =>
      match first with
      | 0 => { t with line := t.line.take (min t.cursor t.line.length) }
      | 1 => { t with line := fillBlank t.line 0 (min (satAdd u64Max t.cursor 1) t.line.length) }
      | 2 => { t with line := [] }
      | _ => t
  | 'G' => { t with cursor := min (max first 1 - 1) (maxStreamLineChars - 1) }
  | '`' => { t with cursor := min (max first 1 - 1) (maxStreamLineChars - 1) }
  | 'C' =>
      { t with cursor := min (satAdd u64Max t.cursor (max first 1)) (maxStreamLineChars - 1) }
  | 'a' =>
      { t with cursor := min (satAdd u64Max t.cursor (max first 1)) (maxStreamLineChars - 1) }
  | 'D' => { t with cursor := t.cursor - max first 1 }
  | 'P' =>
      let start := min t.cursor t.line.length
      let stop := min (satAdd u64Max start (max first 1)) t.line.length
      { t with line := t.line.take start ++ t.line.drop stop }
  | '@' =>
      let count := min (max first 1) (maxStreamLineChars - t.cursor)
      let line := t.line ++ List.replicate (t.cursor - t.line.length) ' '
      let line := line.take t.cursor ++ List.replicate count ' ' ++ line.drop t.cursor
      { t with line := line.take maxStreamLineChars }
  | 'X' =>
      let start := min t.cursor t.line.length
      let stop := min (satAdd u64Max start (max first 1)) t.line.length
      { t with line := fillBlank t.line start stop }
  | 'H' =>
      { t with cursor := min (max (csiParameter parameters 1 1) 1 - 1) (maxStreamLineChars - 1) }
  | 'f' =>
      { t with cursor := min (max (csiParameter parameters 1 1) 1 - 1) (maxStreamLineChars - 1) }
  | _ => t

/-! ## Bytes -/

/-- `consume` in the ground state, with no broken character before an ASCII byte. -/
def consumePlain (byte : UInt8) (t : TerminalText) (turns : ℕ) : Option TerminalText :=
  if t.utf8 ≠ [] then drainUtf8 false { t with utf8 := t.utf8 ++ [byte] } turns
  else if byte = 0x1b then some { t with escape := .escape }
  else if byte = 0x0a then commitRow t turns
  else if byte = 0x0d then some { t with cursor := 0, touched := t.touched || !t.line.isEmpty }
  else if byte = 0x08 ∨ byte = 0x7f then
    some { t with cursor := t.cursor - 1, touched := t.touched || !t.line.isEmpty }
  else if byte = 0x09 then tabTo ((t.cursor / 8 + 1) * 8) t turns
  else if byte ≤ 0x1f then some t
  else if byte ≤ 0x7e then writeChar (Char.ofNat byte.toNat) t turns
  else drainUtf8 false { t with utf8 := t.utf8 ++ [byte] } turns

/-- `consume` in the ground state. -/
def consumeGround (byte : UInt8) (t : TerminalText) (turns : ℕ) : Option TerminalText :=
  if t.utf8 ≠ [] ∧ byte < 0x80 then do
    let t ← drainUtf8 true t turns
    consumePlain byte t turns
  else consumePlain byte t turns

/-- `recover_escape_with`: the reset state is the ground state. -/
def recoverEscapeWith (byte : UInt8) (t : TerminalText) (turns : ℕ) : Option TerminalText :=
  consumeGround byte t.resetEscape turns

def consumeEscape (byte : UInt8) (t : TerminalText) (turns : ℕ) : Option TerminalText :=
  if byte = 0x18 ∨ byte = 0x1a then some t.resetEscape
  else
    match t.escape with
    -- `unreachable!`: ground escapes are handled by `consume`
    | .ground => none
    | .escape =>
        if byte = 0x5b then some t.startCsi
        else if byte ∈ ([0x5d, 0x50, 0x58, 0x5e, 0x5f] : Bytes) then some t.startControlString
        else if 0x20 ≤ byte ∧ byte ≤ 0x2f then
          some { t with escapePayloadBytes := 1, escape := .escapeIntermediate }
        else if byte = 0x1b then some { t with escapePayloadBytes := 0 }
        else some t.resetEscape
    | .escapeIntermediate =>
        if byte = 0x1b then some { t with escapePayloadBytes := 0, escape := .escape }
        else if byte = 0x0d ∨ byte = 0x0a then recoverEscapeWith byte t turns
        else if 0x20 ≤ byte ∧ byte ≤ 0x2f then
          if maxEscapeIntermediateBytes < t.escapePayloadBytes + 1 then
            some { t with escapePayloadBytes := t.escapePayloadBytes + 1 }.resetEscape
          else some { t with escapePayloadBytes := t.escapePayloadBytes + 1 }
        else if 0x30 ≤ byte ∧ byte ≤ 0x7e then some t.resetEscape
        else recoverEscapeWith byte t turns
    | .csi =>
        if byte = 0x1b then some { t.resetEscape with escape := .escape }
        else if byte = 0x0d ∨ byte = 0x0a then recoverEscapeWith byte t turns
        else if 0x40 ≤ byte ∧ byte ≤ 0x7e then
          some (t.resetEscape.applyCsi byte t.csiParameters)
        else if 0x20 ≤ byte ∧ byte ≤ 0x3f then
          if t.csiParameters.length < maxCsiParameterBytes then
            some { t with csiParameters := t.csiParameters ++ [byte] }
          else some t.resetEscape
        else recoverEscapeWith byte t turns
    | .controlString =>
        if byte = 0x07 ∨ byte = 0x9c then some t.resetEscape
        else if byte = 0x0d ∨ byte = 0x0a then recoverEscapeWith byte t turns
        else
          let (goesOn, bumped) := t.bumpControlString
          if byte = 0x1b ∧ goesOn then some { bumped with escape := .controlStringEscape }
          else some bumped
    | .controlStringEscape =>
        if byte = 0x5c ∨ byte = 0x9c then some t.resetEscape
        else if byte = 0x0d ∨ byte = 0x0a then recoverEscapeWith byte t turns
        else
          let (goesOn, bumped) := t.bumpControlString
          if byte ≠ 0x1b ∧ goesOn then some { bumped with escape := .controlString }
          else some bumped

def consume (byte : UInt8) (t : TerminalText) (turns : ℕ) : Option TerminalText :=
  if t.escape = .ground then consumeGround byte t turns else consumeEscape byte t turns

/-- The bytes of a stream, one after the other, each with this many turns. -/
def consumeAll (turns : ℕ) : Bytes → TerminalText → Option TerminalText
  | [], t => some t
  | byte :: bytes, t => do
      let t ← consume byte t turns
      consumeAll turns bytes t

def finishInput (t : TerminalText) (turns : ℕ) : Option TerminalText := do
  let t ← drainUtf8 true t turns
  some t.resetEscape

def pendingText (t : TerminalText) : Option (List Char) :=
  if t.touched ∨ t.line ≠ [] then some t.line else none

def takePending (t : TerminalText) : Option ProjectedRow × TerminalText :=
  match t.pendingText with
  | none => (none, t)
  | some text =>
      (some ⟨text, t.continuesPrevious⟩,
        { t with line := [], cursor := 0, touched := false, continuesPrevious := false })

end TerminalText

end SerialPlatform.Display
