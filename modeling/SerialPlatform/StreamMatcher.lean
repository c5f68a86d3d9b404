import SerialPlatform.RegexLiterals
import SerialPlatform.Utf8Lossy

/-!
# The matcher of a monitor

A monitor reads the bytes of its port event by event and keeps the last 64 KiB of them.
Each of its conditions remembers how far it has searched, in offsets of the whole stream,
while it searches the window.
-/

namespace SerialPlatform.Monitor

/-- `MAX_MATCH_WINDOW_BYTES` -/
def maxMatchWindowBytes : ℕ := 64 * 1024

/-! ## Conditions -/

/-- The compiled form of an expression; `findAt` gives the match from an offset on. -/
structure Regex where
  findAt : Bytes → ℕ → Option (ℕ × ℕ)

/-- The libraries which parse and compile expressions. -/
structure RegexLibrary (κ : Type) where
  classes : Classes κ
  parse : String → Except String (Hir κ)
  minimumLen : Hir κ → Option ℕ
  maximumLen : Hir κ → Option ℕ
  build : String → Except String Regex

inductive CompiledMatcher where
  | literal (pattern : Bytes)
  | regex (expression : Regex) (maximumLen : Option ℕ) (literalPrefix requiredLiteral : Bytes)

structure CompiledCondition where
  matcher : MonitorMatcher
  compiled : CompiledMatcher
  searchAfter : ℕ
  requiredSearchAfter : ℕ
  pendingRequiredAt : Option ℕ

structure MatchChunk where
  stop : ℕ
  seq : ℕ
  wallTimeNs : ℤ

structure StreamMatcher where
  matchers : List CompiledCondition
  bytes : Bytes
  chunks : List MatchChunk
  baseOffset : ℕ
  nextOffset : ℕ

/-- `parse_regex_hir`, with the text of its error. -/
def parseRegexHir {κ : Type} (library : RegexLibrary κ) (source : String) :
    Except String (Hir κ) :=
  match library.parse source with
  | .error error => .error ("invalid regex: " ++ error)
  | .ok hir =>
      match library.minimumLen hir with
      | some 0 => .error "regex must consume at least one byte for every match"
      | none => .error "regex cannot match any byte sequence"
      | some _ => .ok hir

/-- What the checks of a spec say of an expression. -/
def RegexLibrary.regexError {κ : Type} (library : RegexLibrary κ) (source : String) :
    Option String :=
  match parseRegexHir library source with
  | .error text => some text
  | .ok _ =>
      match library.build source with
      | .error error => some ("invalid regex: " ++ error)
      | .ok _ => none

def compileMatcher {κ : Type} (library : RegexLibrary κ) :
    MonitorMatcher → Except MonitorError CompiledMatcher
  | .contains literal => .ok (.literal (HexName.utf8 literal))
  | .regex source =>
      match parseRegexHir library source with
      | .error text => .error (.invalidSpec text)
      | .ok hir =>
          match library.build source with
          | .error error => .error (.invalidSpec ("invalid regex: " ++ error))
          | .ok expression =>
              let analysis := analyzeRegexLiterals library.classes hir
              .ok (.regex expression (library.maximumLen hir) analysis.literalPrefix
                (analysis.required.getD []))

def compileCondition {κ : Type} (library : RegexLibrary κ) (matcher : MonitorMatcher) :
    Except MonitorError CompiledCondition := do
  let compiled ← compileMatcher library matcher
  return { matcher := matcher
           compiled := compiled
           searchAfter := 0
           requiredSearchAfter := 0
           pendingRequiredAt := none }

def StreamMatcher.compile {κ : Type} (library : RegexLibrary κ) (spec : MonitorSpec) :
    Except MonitorError StreamMatcher := do
  let matchers ← spec.matchers.mapM (compileCondition library)
  return { matchers := matchers
           bytes := []
           chunks := []
           baseOffset := 0
           nextOffset := 0 }

/-! ## Literals in the window -/

/-- The offset of a window as the stream counts it. -/
def absoluteOffset (base offset : ℕ) : ℕ := satAdd u64Max base offset

def relativeOffset (absolute base length : ℕ) : ℕ := min (absolute - base) length

/-- `find_literal`; the literal is not empty. -/
def findLiteral (literal : Bytes) : Bytes → Option ℕ
  | [] => none
  | byte :: rest =>
      if literal <+: byte :: rest then some 0 else (findLiteral literal rest).map (· + 1)

/-- The last range with everything in front of it. -/
def extendRange (range : Option (ℕ × ℕ)) (start stop : ℕ) : Option (ℕ × ℕ) :=
  match range with
  | none => some (start, stop)
  | some (first, _) => some (first, stop)

/-- The loop of `find_literal_matches`; it moves at least one byte in each turn. -/
def findLiteralMatchesFrom (bytes literal : Bytes) :
    ℕ → Option (ℕ × ℕ) → ℕ → Option (ℕ × ℕ) × ℕ
  | 0, range, searchAt => (range, searchAt)
  | turns + 1, range, searchAt =>
      match findLiteral literal (bytes.drop searchAt) with
      | none => (range, searchAt)
      | some relative =>
          let start := searchAt + relative
          let stop := start + literal.length
          findLiteralMatchesFrom bytes literal turns (extendRange range start stop) stop

def findLiteralMatches (bytes literal : Bytes) (searchAt : ℕ) : Option (ℕ × ℕ) × ℕ :=
  findLiteralMatchesFrom bytes literal bytes.length none searchAt

def findNextLiteral (bytes literal : Bytes) (searchAt : ℕ) : Option ℕ × ℕ :=
  ((findLiteral literal (bytes.drop searchAt)).map (searchAt + ·),
    bytes.length - (literal.length - 1))

/-! ## Expressions in the window -/

/-- The loop of `find_regex_matches`. -/
def findRegexMatchesFrom (expression : Regex) (bytes : Bytes) :
    ℕ → Option (ℕ × ℕ) → ℕ → Option (ℕ × ℕ) × ℕ
  | 0, range, searchAt => (range, searchAt)
  | turns + 1, range, searchAt =>
      if searchAt ≤ bytes.length then
        match expression.findAt bytes searchAt with
        | none => (range, searchAt)
        | some (start, stop) =>
            if start = stop then
              if stop = bytes.length then (range, searchAt)
              else findRegexMatchesFrom expression bytes turns range (stop + 1)
            else
              findRegexMatchesFrom expression bytes turns (extendRange range start stop) stop
      else (range, searchAt)

def findRegexMatches (expression : Regex) (bytes : Bytes) (searchAt : ℕ) : Option (ℕ × ℕ) × ℕ :=
  findRegexMatchesFrom expression bytes (bytes.length + 1) none searchAt

/-- What a condition knows of its required literal. -/
structure RequiredLiteral where
  requiredSearchAfter : ℕ
  pendingRequiredAt : Option ℕ

def refreshRequiredLiteral (state : RequiredLiteral) (bytes : Bytes) (baseOffset : ℕ)
    (required : Bytes) (minimumOffset : ℕ) : RequiredLiteral :=
  let origin := max state.requiredSearchAfter minimumOffset
  let searchAt := relativeOffset origin baseOffset bytes.length
  let (next, safeStart) := findNextLiteral bytes required searchAt
  { pendingRequiredAt := next.map (absoluteOffset baseOffset)
    requiredSearchAfter :=
      match next with
      | none => max origin (absoluteOffset baseOffset safeStart)
      | some start => absoluteOffset baseOffset (start + required.length) }

def requiredLiteralReady (searchAfter : ℕ) (state : RequiredLiteral) (bytes : Bytes)
    (baseOffset : ℕ) (required : Bytes) : Bool × RequiredLiteral :=
  if state.pendingRequiredAt.any fun offset => searchAfter ≤ offset ∧ baseOffset ≤ offset then
    (true, state)
  else
    let state := refreshRequiredLiteral state bytes baseOffset required searchAfter
    (state.pendingRequiredAt.isSome, state)

/-- Where an expression is searched for next, from where its last search began and ended. -/
def nextSearchAfter (maximumLen : Option ℕ) (literalPrefix bytes : Bytes)
    (searchAfter baseOffset searchAt searchedThrough : ℕ) : ℕ :=
  match maximumLen with
  | some maximumLen =>
      max (absoluteOffset baseOffset searchedThrough)
        (absoluteOffset baseOffset (bytes.length - (maximumLen - 1)))
  | none =>
      if literalPrefix ≠ [] then
        let (nextPrefix, safePrefixStart) :=
          findNextLiteral bytes literalPrefix (max searchedThrough searchAt)
        match nextPrefix with
        | none => max searchAfter (absoluteOffset baseOffset safePrefixStart)
        | some start => absoluteOffset baseOffset start
      else max (absoluteOffset baseOffset searchedThrough) searchAfter

/-- The required literal behind what was searched. -/
def passRequiredLiteral (state : RequiredLiteral) (bytes : Bytes) (baseOffset : ℕ)
    (required : Bytes) (searchAfter : ℕ) : RequiredLiteral :=
  if required = [] then state
  else
    let state :=
      if state.pendingRequiredAt.any (· < searchAfter) then { state with pendingRequiredAt := none }
      else state
    if state.pendingRequiredAt.isNone then
      refreshRequiredLiteral state bytes baseOffset required searchAfter
    else state

/-! ## One condition -/

def CompiledCondition.required (condition : CompiledCondition) : RequiredLiteral where
  requiredSearchAfter := condition.requiredSearchAfter
  pendingRequiredAt := condition.pendingRequiredAt

def CompiledCondition.withRequired (condition : CompiledCondition) (state : RequiredLiteral) :
    CompiledCondition :=
  { condition with
    requiredSearchAfter := state.requiredSearchAfter
    pendingRequiredAt := state.pendingRequiredAt }

def scanLiteral (condition : CompiledCondition) (pattern bytes : Bytes) (baseOffset : ℕ) :
    Option (ℕ × ℕ) × CompiledCondition :=
  let searchAt := relativeOffset condition.searchAfter baseOffset bytes.length
  let (range, searchedThrough) := findLiteralMatches bytes pattern searchAt
  let suffixStart := bytes.length - (pattern.length - 1)
  (range,
    { condition with searchAfter := absoluteOffset baseOffset (max searchedThrough suffixStart) })

/-- The search for an expression, once its required literal may be there. -/
def searchRegex (condition : CompiledCondition) (expression : Regex) (maximumLen : Option ℕ)
    (literalPrefix requiredLiteral bytes : Bytes) (baseOffset : ℕ) :
    Option (ℕ × ℕ) × CompiledCondition :=
  let searchAt := relativeOffset condition.searchAfter baseOffset bytes.length
  let (range, searchedThrough) := findRegexMatches expression bytes searchAt
  let searchAfter :=
    nextSearchAfter maximumLen literalPrefix bytes condition.searchAfter baseOffset searchAt
      searchedThrough
  (range,
    { condition with searchAfter := searchAfter }.withRequired
      (passRequiredLiteral condition.required bytes baseOffset requiredLiteral searchAfter))

def scanRegex (condition : CompiledCondition) (expression : Regex) (maximumLen : Option ℕ)
    (literalPrefix requiredLiteral bytes : Bytes) (baseOffset : ℕ) :
    Option (ℕ × ℕ) × CompiledCondition :=
  if maximumLen = none ∧ literalPrefix = [] ∧ requiredLiteral ≠ [] then
    let (isReady, required) :=
      requiredLiteralReady condition.searchAfter condition.required bytes baseOffset requiredLiteral
    let condition := condition.withRequired required
    if isReady then
      searchRegex condition expression maximumLen literalPrefix requiredLiteral bytes baseOffset
    else (none, condition)
  else searchRegex condition expression maximumLen literalPrefix requiredLiteral bytes baseOffset

def scanCondition (condition : CompiledCondition) (bytes : Bytes) (baseOffset : ℕ) :
    Option (ℕ × ℕ) × CompiledCondition :=
  match condition.compiled with
  | .literal pattern => scanLiteral condition pattern bytes baseOffset
  | .regex expression maximumLen literalPrefix requiredLiteral =>
      scanRegex condition expression maximumLen literalPrefix requiredLiteral bytes baseOffset

/-! ## The preview -/

/-- The loop of `sanitize_preview`, with the bytes of the text so far. -/
def sanitizeFrom : List Char → ℕ → List Char
  | [], _ => []
  | character :: rest, length =>
      if maxPreviewBytes ≤ length then []
      else if character = '\r' then sanitizeFrom rest length
      else
        let shown :=
          if character = '\n' ∨ character = '\t' then character
          else if Utf8Scan.IsControl character then Utf8Scan.replacement
          else character
        shown :: sanitizeFrom rest (length + shown.utf8Size)

def sanitizePreview (bytes : Bytes) : String :=
  truncateText (String.ofList (sanitizeFrom (Utf8Scan.lossy bytes) 0)) maxPreviewBytes

/-! ## The stream -/

/-- A condition which starts again at an offset. -/
def CompiledCondition.restart (condition : CompiledCondition) (offset : ℕ) : CompiledCondition :=
  { condition with
    searchAfter := offset
    requiredSearchAfter := offset
    pendingRequiredAt := none }

def CompiledCondition.trim (condition : CompiledCondition) (baseOffset : ℕ) : CompiledCondition :=
  { condition with
    searchAfter := max condition.searchAfter baseOffset
    requiredSearchAfter := max condition.requiredSearchAfter baseOffset
    pendingRequiredAt :=
      if condition.pendingRequiredAt.any (· < baseOffset) then none
      else condition.pendingRequiredAt }

namespace StreamMatcher

def reset (self : StreamMatcher) : StreamMatcher :=
  { self with
    bytes := []
    chunks := []
    baseOffset := self.nextOffset
    matchers := self.matchers.map fun condition => condition.restart self.nextOffset }

def incidentFor (self : StreamMatcher) (start stop : ℕ) (found : List MonitorMatch)
    (event : TimelineEvent) : Option PendingIncident :=
  let absoluteStart := absoluteOffset self.baseOffset start
  let absoluteStop := absoluteOffset self.baseOffset stop
  match self.chunks.find? fun chunk => absoluteStart < chunk.stop with
  | none => none
  | some first =>
      let last := (self.chunks.find? fun chunk => absoluteStop ≤ chunk.stop).getD first
      let previewStart := start - 128
      let previewStop := min (stop + 128) self.bytes.length
      some
        { daemonEpoch := event.daemonEpoch
          seqStart := first.seq
          seqEnd := last.seq
          wallTimeStartNs := first.wallTimeNs
          wallTimeEndNs := last.wallTimeNs
          found := found
          preview := sanitizePreview (self.bytes.extract previewStart previewStop) }

def trim (self : StreamMatcher) : StreamMatcher :=
  if self.bytes.length ≤ maxMatchWindowBytes then self
  else
    let remove := self.bytes.length - maxMatchWindowBytes
    let baseOffset := absoluteOffset self.baseOffset remove
    { self with
      bytes := self.bytes.drop remove
      baseOffset := baseOffset
      matchers := self.matchers.map fun condition => condition.trim baseOffset
      chunks := self.chunks.dropWhile fun chunk => chunk.stop ≤ baseOffset }

def eventStart (self : StreamMatcher) (event : TimelineEvent) : ℕ :=
  event.streamOffsetStart.getD self.nextOffset

def eventStop (self : StreamMatcher) (event : TimelineEvent) : ℕ :=
  event.streamOffsetEnd.getD (satAdd u64Max (self.eventStart event) event.data.length)

/-- The window with the bytes of an event, which starts anew behind a gap. -/
def extend (self : StreamMatcher) (event : TimelineEvent) : StreamMatcher :=
  let start := self.eventStart event
  let stop := self.eventStop event
  let self :=
    if self.bytes ≠ [] ∧ start ≠ self.nextOffset then
      { self with
        bytes := []
        chunks := []
        baseOffset := start
        matchers := self.matchers.map fun condition => condition.restart start }
    else self
  { self with
    baseOffset := if self.bytes = [] then start else self.baseOffset
    bytes := self.bytes ++ event.data
    chunks := self.chunks ++ [{ stop := stop, seq := event.seq, wallTimeNs := event.wallTimeNs }]
    nextOffset := stop }

/-- The search of every condition in the window. -/
def scans (self : StreamMatcher) : List (Option (ℕ × ℕ) × CompiledCondition) :=
  self.matchers.map fun condition => scanCondition condition self.bytes self.baseOffset

/-- A range in the window with the index of its condition. -/
structure MatchRange where
  start : ℕ
  stop : ℕ
  index : ℕ
  matcher : MonitorMatcher

def matchRanges (self : StreamMatcher) : List MatchRange :=
  (self.scans.zipIdx.filterMap fun scan =>
    scan.1.1.map fun range => (⟨range.1, range.2, scan.2, scan.1.2.matcher⟩ : MatchRange)).insertionSort
      fun a b => a.index ≤ b.index

def incident (self : StreamMatcher) (event : TimelineEvent) : Option PendingIncident :=
  let ranges := self.matchRanges
  match ranges with
  | [] => none
  | first :: _ =>
      let start := (ranges.map MatchRange.start).min?.getD first.start
      let stop := (ranges.map MatchRange.stop).max?.getD first.stop
      let found := ranges.map fun range => (⟨range.index, range.matcher⟩ : MonitorMatch)
      self.incidentFor start stop found event

def push (self : StreamMatcher) (event : TimelineEvent) : Option PendingIncident × StreamMatcher :=
  if event.data = [] then (none, self)
  else
    let window := self.extend event
    let scanned := { window with matchers := window.scans.map Prod.snd }
    (window.incident event, scanned.trim)

end StreamMatcher

end SerialPlatform.Monitor
