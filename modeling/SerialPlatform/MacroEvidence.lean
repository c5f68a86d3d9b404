import SerialPlatform.BorderTable
import SerialPlatform.Protocol
import SerialPlatform.SlotState
import SerialPlatform.Utf8Lossy

/-!
# What a macro accepts as evidence

A running macro reads the received bytes through a projection which drops decoration and
refuses editing.  Until a command is confirmed its echo is looked for in the projected
lines, or filtered out of them, and the watchers read what is left.
-/

namespace SerialPlatform.MacroRuntime

def maxWriteBytes : ℕ := 4 * 1024

def failed (message : String) : MacroStop := ⟨.failed, message⟩

/-! ## Projection -/

structure Projection where
  escape : ℕ := 0
  escapeLen : ℕ := 0
  cr : Bool := false
  poisoned : Bool := false
  deriving DecidableEq

namespace Projection

/-- A refusal, which only strict projection makes. -/
def refuse (strict : Bool) (message : String) (p : Projection) : Option MacroStop × Projection :=
  (if strict then some (failed message) else none, p)

/-- The byte behind an escape. -/
def introducer (strict : Bool) (p : Projection) (byte : UInt8) : Option MacroStop × Projection :=
  if byte = 0x5b then (none, { p with escape := 2 })
  else if byte = 0x5d then (none, { p with escape := 3 })
  else if byte = 0x50 ∨ byte = 0x58 ∨ byte = 0x5e ∨ byte = 0x5f then
    refuse strict "unsupported terminal string in macro evidence" { p with escape := 5 }
  else if 0x20 ≤ byte ∧ byte ≤ 0x2f then
    refuse strict "unsupported terminal escape in macro evidence" { p with escape := 7 }
  else if 0x30 ≤ byte ∧ byte ≤ 0x7e then
    refuse strict "unsupported terminal escape in macro evidence" { p with escape := 0 }
  else
    refuse strict "invalid terminal escape in macro evidence"
      { p with escape := 0, poisoned := true }

/-- The end of a string control which is not decoration. -/
def stringByte (p : Projection) (byte : UInt8) : Projection :=
  if p.escape = 6 ∧ byte = 0x5c then { p with escape := 0 }
  else if byte = 0x1b then { p with escape := 6 }
  else { p with escape := 5 }

/-- A byte of an escape behind its introducer. -/
def sequenceByte (strict : Bool) (p : Projection) (byte : UInt8) : Option MacroStop × Projection :=
  match p.escape with
  | 1 => p.introducer strict byte
  | 2 =>
      if 0x40 ≤ byte ∧ byte ≤ 0x7e then
        if byte ≠ 0x6d then
          refuse strict
            "terminal cursor editing is not supported as macro completion evidence"
            { p with escape := 0 }
        else (none, { p with escape := 0 })
      else (none, p)
  | 3 =>
      if byte = 7 then (none, { p with escape := 0 })
      else if byte = 0x1b then (none, { p with escape := 4 })
      else (none, p)
  | 4 =>
      if byte = 0x5c then (none, { p with escape := 0 })
      else if byte = 0x1b then (none, p)
      else (none, { p with escape := 3 })
  | 5 | 6 =>
      if strict then (some (failed "unsupported terminal string overlaps macro observation"), p)
      else (none, p.stringByte byte)
  | 7 =>
      if strict then (some (failed "unsupported terminal escape overlaps macro observation"), p)
      else if 0x30 ≤ byte ∧ byte ≤ 0x7e then (none, { p with escape := 0 })
      else if 0x20 ≤ byte ∧ byte ≤ 0x2f then (none, p)
      else (none, { p with poisoned := true })
  | _ => (none, p)

/-- One more byte of an escape, which poisons the projection when it is too long. -/
def lengthen (p : Projection) : Projection :=
  let length := min (p.escapeLen + 1) 8193
  { p with escapeLen := length, poisoned := p.poisoned || decide (8192 < length) }

def escapeByte (strict : Bool) (p : Projection) (byte : UInt8) : Option MacroStop × Projection :=
  let p := p.lengthen
  if strict ∧ 8192 < p.escapeLen then
    (some (failed "unterminated terminal escape in macro evidence"), p)
  -- CAN and SUB cancel, and an escape restarts all but the string controls
  else if byte = 0x18 ∨ byte = 0x1a then (none, { p with escape := 0 })
  else if byte = 0x1b ∧ (p.escape = 1 ∨ p.escape = 2 ∨ p.escape = 7) then
    (none, { p with escape := 1, escapeLen := 0 })
  else p.sequenceByte strict byte

/-- A byte outside of escapes, with what it shows. -/
def textByte (strict : Bool) (p : Projection) (byte : UInt8) :
    Except MacroStop Bytes × Projection :=
  if byte = 0x1b then (.ok [], { p with escape := 1, escapeLen := 0 })
  else if byte = 0x0d then (.ok [0x0a], { p with cr := true })
  else if byte = 0x0a then
    if p.cr then (.ok [], { p with cr := false }) else (.ok [0x0a], p)
  else if byte = 8 ∨ byte = 127 then
    (if strict then .error (failed
        "terminal backspace editing makes macro completion evidence uncertain") else .ok [], p)
  else if byte ≤ 8 ∨ byte = 11 ∨ byte = 12 ∨ (14 ≤ byte ∧ byte ≤ 31) then (.ok [], p)
  else (.ok [byte], { p with cr := false })

def byte (strict : Bool) (p : Projection) (byte : UInt8) : Except MacroStop Bytes × Projection :=
  if p.escape ≠ 0 then
    match p.escapeByte strict byte with
    | (none, p) => (.ok [], p)
    | (some stop, p) => (.error stop, p)
  else p.textByte strict byte

/-- The loop of `feed_inner`, which only shows what strict projection lets through. -/
def scan (strict : Bool) : Projection → Bytes → Except MacroStop Bytes × Projection
  | p, [] => (.ok [], p)
  | p, first :: rest =>
      match p.byte strict first with
      | (.error stop, p) => (.error stop, p)
      | (.ok shown, p) =>
          match p.scan strict rest with
          | (.error stop, p) => (.error stop, p)
          | (.ok more, p) => (.ok ((if strict then shown else []) ++ more), p)

def feedInner (strict : Bool) (p : Projection) (bytes : Bytes) :
    Except MacroStop Bytes × Projection :=
  if strict ∧ p.poisoned then
    (.error (failed "terminal framing became uncertain before macro observation"), p)
  else p.scan strict bytes

def feed (p : Projection) (bytes : Bytes) : Except MacroStop Bytes × Projection :=
  p.feedInner true bytes

def feedUnobserved (p : Projection) (bytes : Bytes) : Projection := (p.feedInner false bytes).2

end Projection

/-! ## Confirmation of a command -/

structure InputCheck where
  expected : Bytes
  prompts : List Bytes
  line : Bytes := []
  overlong : Bool := false
  observed : String := ""
  matched : Bool := false
  deriving DecidableEq

namespace InputCheck

def new (command : String) (prompts : List String) : InputCheck where
  expected := command.toUTF8.data.toList
  prompts := (prompts.filter fun prompt => !prompt.isEmpty).map fun prompt => prompt.toUTF8.data.toList

/-- The characters of a line which the diagnostics have room for. -/
def pushObserved : String → List Char → String
  | observed, [] => observed
  | observed, char :: rest =>
      if 512 < observed.utf8ByteSize + char.utf8Size then observed
      else pushObserved (observed.push char) rest

/-- The diagnostics behind a line. -/
def record (observed : String) (line : Bytes) : String :=
  if line ≠ [] ∧ observed.utf8ByteSize < 512 then
    let pushed := pushObserved observed ((Utf8Scan.lossy line).take 128)
    if pushed.utf8ByteSize < 512 then pushed.push '\n' else pushed
  else observed

/-- The line is the command, or a prompt and the command. -/
def Confirmed (check : InputCheck) (line : Bytes) : Prop :=
  line = check.expected ∨ ∃ prompt ∈ check.prompts, line = prompt ++ check.expected

instance (check : InputCheck) (line : Bytes) : Decidable (check.Confirmed line) :=
  inferInstanceAs (Decidable (_ ∨ _))

def finishLine (check : InputCheck) : InputCheck :=
  { check with
    matched := if check.overlong then check.matched else decide (check.Confirmed check.line)
    observed := record check.observed check.line
    line := []
    overlong := false }

def feedByte (check : InputCheck) (byte : UInt8) : Bytes × InputCheck :=
  if check.matched then ([byte], check)
  else if byte = 0x0a then ([], check.finishLine)
  else if check.line.length < maxWriteBytes * 2 then
    ([], { check with line := check.line ++ [byte] })
  else ([], { check with overlong := true })

def feed : InputCheck → Bytes → Bytes × InputCheck
  | check, [] => ([], check)
  | check, byte :: rest =>
      let (shown, check) := check.feedByte byte
      let (more, check) := check.feed rest
      (shown ++ more, check)

/-- The bytes up to the first line end, or all. -/
def lineEnd (bytes : Bytes) : ℕ :=
  match bytes.findIdx? fun byte => byte = 0x0d ∨ byte = 0x0a with
  | some index => index + 1
  | none => bytes.length

/-- What `observe` leaves behind: its result, the check, and the projection. -/
structure Observed where
  result : Except MacroStop Bytes
  check : InputCheck
  projection : Projection

/-- The rest of a batch, behind the confirmation or at its end. -/
def observeRest (watching : Bool) (check : InputCheck) (projection : Projection) (visible : Bytes)
    (bytes : Bytes) : Observed :=
  if watching then
    match projection.feed bytes with
    | (.error stop, projection) => ⟨.error stop, check, projection⟩
    | (.ok shown, projection) => ⟨.ok (visible ++ shown), check, projection⟩
  else ⟨.ok visible, check, projection.feedUnobserved bytes⟩

/-- The loop of `observe`; a turn takes in bytes, so `fuel` bounds the turns. -/
def observeLines (watching : Bool) :
    ℕ → InputCheck → Projection → Bytes → Bytes → Observed
  | 0, check, projection, visible, bytes =>
      observeRest watching check projection visible bytes
  | fuel + 1, check, projection, visible, bytes =>
      if bytes = [] ∨ check.matched then observeRest watching check projection visible bytes
      else
        match projection.feed (bytes.take (lineEnd bytes)) with
        | (.error stop, projection) => ⟨.error stop, check, projection⟩
        | (.ok shown, projection) =>
            let (more, check) := check.feed shown
            observeLines watching fuel check projection (visible ++ more)
              (bytes.drop (lineEnd bytes))

def observe (check : InputCheck) (projection : Projection) (bytes : Bytes) (watching : Bool) :
    Observed :=
  observeLines watching bytes.length check projection [] bytes

end InputCheck

/-! ## Echo filter -/

structure EchoFilter where
  expected : Bytes := []
  pending : Bytes := []
  active : Bool := false
  deriving DecidableEq

namespace EchoFilter

def new (command : String) (mode : EchoMode) : EchoFilter where
  expected := command.toUTF8.data.toList
  active := decide (mode ≠ .off) && !command.isEmpty

def feedByte (filter : EchoFilter) (byte : UInt8) : Bytes × EchoFilter :=
  if !filter.active then ([byte], filter)
  else if byte = 0x0a then
    if filter.pending ≠ filter.expected then
      (filter.pending ++ [byte], { filter with pending := [], active := false })
    else ([], { filter with pending := [], active := false })
  else if filter.pending.length < filter.expected.length ∧
      filter.expected[filter.pending.length]? = some byte then
    ([], { filter with pending := filter.pending ++ [byte] })
  else (filter.pending ++ [byte], { filter with pending := [], active := false })

/-- The loop of `feed`. -/
def feedBytes : EchoFilter → Bytes → Bytes × EchoFilter
  | filter, [] => ([], filter)
  | filter, byte :: rest =>
      let (shown, filter) := filter.feedByte byte
      let (more, filter) := filter.feedBytes rest
      (shown ++ more, filter)

def feed (filter : EchoFilter) (bytes : Bytes) : Except MacroStop Bytes × EchoFilter :=
  if maxWriteBytes < filter.expected.length then
    (.error (failed "echo expectation exceeds the physical command limit"), filter)
  else
    let (shown, filter) := filter.feedBytes bytes
    (.ok shown, filter)

end EchoFilter

/-! ## Watchers -/

/-- The matcher of one watcher, with the table of borders of its pattern. -/
structure LiteralMatcher where
  pattern : Bytes
  table : List ℕ
  matchedPrefix : ℕ := 0
  seen : Bool := false
  deriving DecidableEq

namespace LiteralMatcher

def new (pattern : Bytes) : LiteralMatcher where
  pattern := pattern
  table := BorderTable.build pattern

def isBlank (byte : UInt8) : Bool := byte = 0x20 || byte = 0x09 || byte = 0x0a

/-- One byte of `feed`. -/
def feedByte (matcher : LiteralMatcher) (prompt : Bool) (byte : UInt8) : LiteralMatcher :=
  let matched := BorderTable.advance matcher.pattern matcher.table matcher.matchedPrefix byte
  if matched = matcher.pattern.length then
    { matcher with matchedPrefix := matcher.table.getD (matched - 1) 0, seen := true }
  else
    { matcher with
      matchedPrefix := matched
      seen := matcher.seen && !(prompt && !isBlank byte) }

/-- The loop of `feed`: a literal is reported at once, a prompt at the end of the bytes. -/
def feedBytes (prompt : Bool) : LiteralMatcher → Bytes → Bool × LiteralMatcher
  | matcher, [] => (matcher.seen, matcher)
  | matcher, byte :: rest =>
      let next := matcher.feedByte prompt byte
      if !prompt ∧ BorderTable.advance matcher.pattern matcher.table matcher.matchedPrefix byte =
          matcher.pattern.length then (true, next)
      else feedBytes prompt next rest

def feed (matcher : LiteralMatcher) (bytes : Bytes) (prompt : Bool) : Bool × LiteralMatcher :=
  if matcher.pattern = [] then (false, matcher) else feedBytes prompt matcher bytes

end LiteralMatcher

end SerialPlatform.MacroRuntime
