import SerialPlatform.AtomicWrite
import SerialPlatform.JsonText
import SerialPlatform.TextFields
import Mathlib.Data.List.Infix

/-!
# The Human command history

Suggestions derived from confirmed Human LINE submissions.  The journal worker
records every TX event here; the whole history is one JSON file which is
replaced after every submission and read back when the daemon starts.
-/

namespace SerialPlatform

structure HumanCommandHistoryEntry where
  id : Uuid
  command : String
  port : String
  wallTimeNs : ℤ
  revision : ℕ
  uses : ℕ
  deriving DecidableEq

namespace HumanHistory

def maxEntries : ℕ := 10000

def maxSeen : ℕ := 32768

def maxCommandBytes : ℕ := 4096

def maxFileBytes : ℕ := 48 * 1024 * 1024

/-- What the history file holds; `seen` is oldest first. -/
structure Persisted where
  revision : ℕ
  entries : List HumanCommandHistoryEntry
  seen : List Uuid
  truncated : Bool
  deriving DecidableEq

def Persisted.default : Persisted where
  revision := 0
  entries := []
  seen := []
  truncated := false

end HumanHistory

/-! ## The file -/

def HumanCommandHistoryEntry.toJson (entry : HumanCommandHistoryEntry) : String :=
  jsonObject
    [jsonField "id" (jsonString (uuidText entry.id)),
      jsonField "command" (jsonString entry.command),
      jsonField "port" (jsonString entry.port),
      jsonField "wall_time_ns" (jsonInt entry.wallTimeNs),
      jsonField "revision" (jsonNat entry.revision),
      jsonField "uses" (jsonNat entry.uses)]

/-- `serde_json::to_vec` of the history. -/
def HumanHistory.Persisted.toJson (data : HumanHistory.Persisted) : String :=
  jsonObject
    [jsonField "revision" (jsonNat data.revision),
      jsonField "entries" (jsonArray (data.entries.map HumanCommandHistoryEntry.toJson)),
      jsonField "seen" (jsonArray (data.seen.map fun id => jsonString (uuidText id))),
      jsonField "truncated" (jsonBool data.truncated)]

/-- The history of a running daemon beside the file it left on disk. -/
structure HumanHistory where
  file : Option String
  data : HumanHistory.Persisted
  warning : Option String

namespace HumanHistory

/-- The checks which `open` makes on an entry. -/
def invalidEntry (revision : ℕ) (entry : HumanCommandHistoryEntry) : Bool :=
  entry.command.isEmpty || maxCommandBytes < entry.command.utf8ByteSize ||
    entry.command.toList.any isControlChar || revision < entry.revision

/-- `HumanHistory::open`, where `fromSlice` is `serde_json::from_slice`. -/
def openFile (fromSlice : String → Option Persisted) (file : Option String) :
    Except String HumanHistory :=
  match file with
  | none => .ok { file := none, data := .default, warning := none }
  | some text =>
      if maxFileBytes < text.utf8ByteSize then .error "invalid history file"
      else
        match fromSlice text with
        | none => .error "invalid history JSON"
        | some value =>
            if maxEntries < value.entries.length || maxSeen < value.seen.length ||
                value.entries.any (invalidEntry value.revision) then
              .error "invalid history entries"
            else .ok { file := some text, data := value, warning := none }

/-! ## Recording -/

/-- A confirmed Human LINE submission. -/
structure Submission where
  command : String
  operationId : Uuid
  port : String
  wallTimeNs : ℤ
  deriving DecidableEq

/-- The submission which an event confirms; every other event is passed over. -/
def submission (event : TimelineEvent) : Option Submission :=
  if event.kind ≠ .tx ∨ event.direction ≠ .tx then none
  else
    match event.actor with
    | none => none
    | some actor =>
        if actor.kind ≠ .human then none
        else
          match event.metadata.lookup "partial", event.metadata.lookup "human_line_input" with
          | some (.bool true), _ => none
          | _, some (.str command) =>
              if command.isEmpty || maxCommandBytes < command.utf8ByteSize ||
                  command.toList.any isControlChar then
                none
              else
                event.operationId.map fun operationId =>
                  { command := command
                    operationId := operationId
                    port := event.port
                    wallTimeNs := event.wallTimeNs }
          | _, _ => none

/-- The history after one more submission, whose revision is `revision`. -/
def Persisted.add (data : Persisted) (revision : ℕ) (submission : Submission) : Persisted :=
  let previous := data.entries.find? fun entry => entry.command = submission.command
  let others := data.entries.eraseP fun entry => entry.command = submission.command
  let entries := others ++
    [{ id := (previous.map HumanCommandHistoryEntry.id).getD submission.operationId
       command := submission.command
       port := submission.port
       wallTimeNs := submission.wallTimeNs
       revision := revision
       uses := (previous.map fun entry => satAdd u64Max entry.uses 1).getD 1 }]
  let seen := data.seen ++ [submission.operationId]
  { revision := revision
    entries := if maxEntries < entries.length then entries.tail else entries
    seen := if maxSeen < seen.length then seen.tail else seen
    truncated := data.truncated || decide (maxEntries < entries.length) }

/-- `HumanHistory::record`; the save meets `fault`, if any. -/
def record (history : HumanHistory) (event : TimelineEvent) (fault : Option WriteFault) :
    Except String Unit × HumanHistory :=
  match submission event with
  | none => (.ok (), history)
  | some submission =>
      if submission.operationId ∈ history.data.seen then (.ok (), history)
      else if u64Max ≤ history.data.revision then
        (.error "history revision exhausted", history)
      else
        let next := history.data.add (history.data.revision + 1) submission
        match atomicWrite history.file next.toJson fault with
        | (.ok (), file) => (.ok (), { file := file, data := next, warning := none })
        | (.error error, file) =>
            (.error error,
              { file := file
                data := history.data
                warning := some ("Human history save failed; command may already have executed: " ++ error) })

/-- A sequence of `record` calls, every one of them successful. -/
def recordAll (history : HumanHistory) :
    List (TimelineEvent × Option WriteFault) → Except String HumanHistory
  | [] => .ok history
  | (event, fault) :: calls =>
      match history.record event fault with
      | (.ok (), next) => next.recordAll calls
      | (.error error, _) => .error error

/-! ## Queries -/

end HumanHistory

structure HumanCommandHistoryQuery where
  prefixText : Option String
  contains : Option String
  beforeRevision : Option ℕ
  limit : Option ℕ

structure HumanCommandHistoryResponse where
  serverId : Uuid
  revision : ℕ
  /-- recent first -/
  entries : List HumanCommandHistoryEntry
  nextBeforeRevision : Option ℕ
  warning : Option String

def HumanCommandHistoryQuery.selects (query : HumanCommandHistoryQuery)
    (entry : HumanCommandHistoryEntry) : Bool :=
  query.beforeRevision.all (entry.revision < ·) &&
    query.prefixText.all (fun text => text.toList.isPrefixOf entry.command.toList) &&
    query.contains.all fun text => decide (text.toList <:+: entry.command.toList)

namespace HumanHistory

def queryLimit (limit : Option ℕ) : ℕ := max 1 (min 2000 (limit.getD 1000))

def truncatedWarning : String :=
  "Suggestions retain the latest " ++ toString maxEntries ++
    " distinct Human commands; older TX audit remains in retained journals"

/-- `HumanHistory::query`. -/
def query (history : HumanHistory) (serverId : Uuid) (query : HumanCommandHistoryQuery) :
    HumanCommandHistoryResponse :=
  let selected := history.data.entries.reverse.filter query.selects
  let entries := selected.take (queryLimit query.limit)
  { serverId := serverId
    revision := history.data.revision
    entries := entries
    nextBeforeRevision := (selected.drop (queryLimit query.limit)).head?.bind fun _ =>
      entries.getLast?.map HumanCommandHistoryEntry.revision
    warning := history.warning.or
      (if history.data.truncated then some truncatedWarning else none) }

end HumanHistory

end SerialPlatform
