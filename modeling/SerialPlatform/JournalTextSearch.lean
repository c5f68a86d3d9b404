import SerialPlatform.JournalFormat

/-!
# Text search over a stream of records

Each direction carries the end of the bytes which it has seen, so that a text is found
although it stands in several records.  The regular expressions come from another crate.
-/

namespace SerialPlatform.Journal

/-- A compiled expression of the `regex` crate. -/
structure Regex where
  isMatch : Bytes → Bool
  findAt : Bytes → ℕ → Option (ℕ × ℕ)

/-- The builder of the `regex` crate. -/
structure RegexEngine where
  build : String → Except String Regex

def maxRegexStreamCarryBytes : ℕ := 64 * 1024

structure StreamSearchCarry where
  bytes : Bytes
  generation : Option ℕ
  nextOffset : Option ℕ
  regexSearchFrom : Option ℕ
  deriving DecidableEq

/-- The carry of a stream of which nothing has been seen; `clear` goes back to it. -/
def StreamSearchCarry.empty : StreamSearchCarry where
  bytes := []
  generation := none
  nextOffset := none
  regexSearchFrom := none

def containsBytes (haystack needle : Bytes) : Bool :=
  needle = [] || (List.range (haystack.length + 1 - needle.length)).any fun start =>
    (haystack.drop start).take needle.length = needle

/-- `contains_stream_chunk`: whether the text is found, and the carried bytes. -/
def containsStreamChunk (data needle carry : Bytes) : Bool × Bytes :=
  if needle = [] then (true, [])
  else
    let combined := carry ++ data
    let keep := min (needle.length - 1) combined.length
    (containsBytes combined needle, combined.drop (combined.length - keep))

namespace StreamSearchCarry

def isContinuous (carry : StreamSearchCarry) (event : TimelineEvent) : Bool :=
  carry.generation = some event.generation && carry.nextOffset.isSome &&
    event.streamOffsetStart = carry.nextOffset

/-- `StreamSearchCarry::matches`. -/
def search (carry : StreamSearchCarry) (event : TimelineEvent) (needle : Bytes) :
    Bool × StreamSearchCarry :=
  let bytes := if carry.isContinuous event then carry.bytes else []
  let found := containsStreamChunk event.data needle bytes
  (found.1,
    { carry with
      bytes := found.2
      generation := some event.generation
      nextOffset := event.streamOffsetEnd })

/-- The loop of `regex_matches` over the matches from `searchAt` on. -/
def regexLoop (expression : Regex) (combined : Bytes) (retainedLen windowOffset : ℕ) :
    ℕ → ℕ → Bool → Option ℕ → Bool × Option ℕ
  | 0, _, found, searchFrom => (found, searchFrom)
  | fuel + 1, searchAt, found, searchFrom =>
      if combined.length < searchAt then (found, searchFrom)
      else
        match expression.findAt combined searchAt with
        | none => (found, searchFrom)
        | some (start, stop) =>
            if start = stop then
              if stop = combined.length then (found, searchFrom)
              else
                regexLoop expression combined retainedLen windowOffset fuel (stop + 1) found
                  searchFrom
            else
              regexLoop expression combined retainedLen windowOffset fuel stop
                (found || decide (retainedLen < stop)) (some (satAdd u64Max windowOffset stop))

/-- `StreamSearchCarry::regex_matches`. -/
def regexSearch (carry : StreamSearchCarry) (event : TimelineEvent) (expression : Regex) :
    Bool × StreamSearchCarry :=
  let continuous := carry.isContinuous event
  let bytes := if continuous then carry.bytes else []
  let searchFrom := if continuous then carry.regexSearchFrom else event.streamOffsetStart
  let retainedLen := bytes.length
  let windowOffset :=
    match event.streamOffsetStart with
    | some start => if retainedLen ≤ start then start - retainedLen else 0
    | none => 0
  let combined := bytes ++ event.data
  let searchOffset := max (searchFrom.getD windowOffset) windowOffset
  let searchAt := min (searchOffset - windowOffset) combined.length
  let found := regexLoop expression combined retainedLen windowOffset (combined.length + 2)
    searchAt false searchFrom
  (found.1,
    { bytes := combined.drop (combined.length - maxRegexStreamCarryBytes)
      generation := some event.generation
      nextOffset := event.streamOffsetEnd
      regexSearchFrom := found.2 })

end StreamSearchCarry

/-! ## The filters of a query -/

inductive TextFilter where
  | none
  | contains (needle : Bytes)
  | regex (expression : Regex)

/-- The carries of the two directions. -/
structure Carries where
  rx : StreamSearchCarry
  tx : StreamSearchCarry
  deriving DecidableEq

def Carries.empty : Carries where
  rx := .empty
  tx := .empty

namespace Carries

/-- An event outside the query's scope interrupts the stream of its direction. -/
def interrupt (carries : Carries) : Direction → Carries
  | .rx => { carries with rx := .empty }
  | .tx => { carries with tx := .empty }
  | .none => carries

/-- One search in the stream of a direction. -/
def searchWith (carries : Carries) (find : StreamSearchCarry → Bool × StreamSearchCarry)
    (alone : Bool) : Direction → Bool × Carries
  | .rx =>
      let found := find carries.rx
      (found.1, { carries with rx := found.2 })
  | .tx =>
      let found := find carries.tx
      (found.1, { carries with tx := found.2 })
  | .none => (alone, carries)

def search (carries : Carries) (filter : TextFilter) (event : TimelineEvent) : Bool × Carries :=
  match filter with
  | .none => (true, carries)
  | .contains needle =>
      carries.searchWith (StreamSearchCarry.search · event needle)
        (containsBytes event.data needle) event.direction
  | .regex expression =>
      carries.searchWith (StreamSearchCarry.regexSearch · event expression)
        (expression.isMatch event.data) event.direction

end Carries

def eventBreaksStream : EventKind → Bool
  | .serialOpening => true
  | .serialOpened => true
  | .serialOpenFailed => true
  | .serialClosed => true
  | .portReconfigured => true
  | .portRemoved => true
  | .loggingDegraded => true
  | .gap => true
  | _ => false

end SerialPlatform.Journal
