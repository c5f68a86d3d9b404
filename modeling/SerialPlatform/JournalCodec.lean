import SerialPlatform.JournalFormat

/-!
# A codec for examples

CRC-32 and the JSON texts of the journal's headers.  The codec reads back the texts of
the headers which it is given and no others.
-/

namespace SerialPlatform.Journal

/-! ## CRC-32 -/

def crc32Bit (crc : UInt32) : UInt32 :=
  if crc &&& 1 = 1 then (crc >>> 1) ^^^ 0xedb88320 else crc >>> 1

def crc32Byte (crc : UInt32) (byte : UInt8) : UInt32 :=
  crc32Bit (crc32Bit (crc32Bit (crc32Bit (crc32Bit (crc32Bit (crc32Bit (crc32Bit
    (crc ^^^ byte.toUInt32))))))))

def crc32 (bytes : Bytes) : UInt32 := bytes.foldl crc32Byte 0xffffffff ^^^ 0xffffffff

/-! ## Texts -/

def jsonOption {α : Type} (text : α → String) : Option α → String
  | some value => text value
  | none => "null"

def jsonUuid (id : Uuid) : String := jsonString (uuidText id)

def EventKind.text : EventKind → String
  | .rx => "rx"
  | .tx => "tx"
  | .serialOpening => "serial_opening"
  | .serialOpened => "serial_opened"
  | .serialOpenFailed => "serial_open_failed"
  | .serialClosed => "serial_closed"
  | .portReconfigured => "port_reconfigured"
  | .portRemoved => "port_removed"
  | .controlGranted => "control_granted"
  | .controlReleased => "control_released"
  | .controlRevoked => "control_revoked"
  | .controlExpired => "control_expired"
  | .runStartRequested => "run_start_requested"
  | .runStartApproved => "run_start_approved"
  | .runStartDenied => "run_start_denied"
  | .runStartTimedOut => "run_start_timed_out"
  | .runStartCancelled => "run_start_cancelled"
  | .runStarted => "run_started"
  | .runEnded => "run_ended"
  | .runAborted => "run_aborted"
  | .triggerStarted => "trigger_started"
  | .triggerCompleted => "trigger_completed"
  | .triggerCancelled => "trigger_cancelled"
  | .triggerFailed => "trigger_failed"
  | .commandCaptureCompleted => "command_capture_completed"
  | .uartBreak => "uart_break"
  | .checkpoint => "checkpoint"
  | .loggingDegraded => "logging_degraded"
  | .gap => "gap"

def Direction.text : Direction → String
  | .rx => "rx"
  | .tx => "tx"
  | .none => "none"

def ActorKind.text : ActorKind → String
  | .human => "human"
  | .agent => "agent"
  | .script => "script"
  | .system => "system"

def GapReason.text : GapReason → String
  | .epochChanged => "epoch_changed"
  | .ringEvicted => "ring_evicted"
  | .retention => "retention"
  | .corruption => "corruption"
  | .loggingFault => "logging_fault"
  | .sequenceDiscontinuity => "sequence_discontinuity"

def jsonActor (actor : Actor) : String :=
  jsonObject
    [jsonField "id" (jsonString actor.id),
      jsonField "label" (jsonString actor.label),
      jsonField "kind" (jsonString (ActorKind.text actor.kind))]

/-- The metadata values of the examples; every other one is left out of the text. -/
def jsonMetaValue : MetaValue → String
  | .bool value => jsonBool value
  | .num value => jsonNat value
  | .str value => jsonString value
  | _ => "null"

def SegmentHeader.toJson (header : SegmentHeader) : String :=
  jsonObject
    [jsonField "port" (jsonString header.port),
      jsonField "daemon_epoch" (jsonUuid header.daemonEpoch),
      jsonField "segment_id" (jsonUuid header.segmentId),
      jsonField "created_wall_time_ns" (jsonInt header.createdWallTimeNs),
      jsonField "first_seq" (jsonNat header.firstSeq)]

def DataFrameHeader.toJson (header : DataFrameHeader) : String :=
  jsonObject
    [jsonField "protocol_version" (jsonNat header.protocolVersion),
      jsonField "port" (jsonString header.port),
      jsonField "daemon_epoch" (jsonUuid header.daemonEpoch),
      jsonField "seq" (jsonNat header.seq),
      jsonField "generation" (jsonNat header.generation),
      jsonField "wall_time_ns" (jsonInt header.wallTimeNs),
      jsonField "monotonic_time_ns" (jsonNat header.monotonicTimeNs),
      jsonField "kind" (jsonString (EventKind.text header.kind)),
      jsonField "direction" (jsonString (Direction.text header.direction)),
      jsonField "actor" (jsonOption jsonActor header.actor),
      jsonField "run_id" (jsonOption jsonUuid header.runId),
      jsonField "operation_id" (jsonOption jsonUuid header.operationId),
      jsonField "stream_offset_start" (jsonOption jsonNat header.streamOffsetStart),
      jsonField "stream_offset_end" (jsonOption jsonNat header.streamOffsetEnd),
      jsonField "metadata"
        (jsonObject (header.metadata.map fun entry => jsonField entry.1 (jsonMetaValue entry.2))),
      jsonField "durable" (jsonBool header.durable),
      jsonField "replay" (jsonBool header.replay)]

def StoredGap.toJson (gap : StoredGap) : String :=
  jsonObject
    [jsonField "port" (jsonString gap.port),
      jsonField "epoch" (jsonUuid gap.epoch),
      jsonField "first_seq" (jsonNat gap.firstSeq),
      jsonField "last_seq" (jsonNat gap.lastSeq),
      jsonField "reason" (jsonString (GapReason.text gap.reason)),
      jsonField "recorded_wall_time_ns" (jsonInt gap.recordedWallTimeNs)]

/-! ## The codec -/

/-- The first of some values whose text stands in the bytes. -/
def readBack {α : Type} (text : α → Bytes) (values : List α) (bytes : Bytes) : Option α :=
  values.find? fun value => text value = bytes

theorem readBack_of_mem {α : Type} {text : α → Bytes} {values : List α} {value : α}
    (hvalue : value ∈ values) (hdistinct : (values.map text).Nodup) :
    readBack text values (text value) = some value := by
  induction values with
  | nil => cases hvalue
  | cons first values ih =>
      obtain ⟨hfirst, hrest⟩ := List.nodup_cons.mp hdistinct
      unfold readBack
      rcases List.mem_cons.mp hvalue with rfl | hvalue
      · rw [List.find?_cons_of_pos (by simp)]
      · have hne : text first ≠ text value := by
          intro htext
          exact hfirst (htext ▸ List.mem_map_of_mem hvalue)
        rw [List.find?_cons_of_neg (by simpa using hne)]
        exact ih hvalue hrest

/-- The codec which reads back the texts of the given headers and gaps. -/
def textCodec (events : List DataFrameHeader) (segments : List SegmentHeader)
    (gaps : List StoredGap) : Codec where
  crc32 := crc32
  eventToVec := fun header => HexName.utf8 header.toJson
  eventFromSlice := fun bytes =>
    match readBack (fun header => HexName.utf8 header.toJson) events bytes with
    | some header => .ok header
    | none => .error "expected value"
  segmentToVec := fun header => HexName.utf8 header.toJson
  segmentFromSlice := fun bytes =>
    match readBack (fun header => HexName.utf8 header.toJson) segments bytes with
    | some header => .ok header
    | none => .error "expected value"
  gapToVec := fun gap => HexName.utf8 gap.toJson
  gapFromSlice := readBack (fun gap => HexName.utf8 gap.toJson) gaps

section

variable {events : List DataFrameHeader} {segments : List SegmentHeader} {gaps : List StoredGap}

theorem textCodec_readsSegment {header : SegmentHeader} (hmem : header ∈ segments)
    (hdistinct : (segments.map fun header => HexName.utf8 header.toJson).Nodup) :
    (textCodec events segments gaps).ReadsSegment header := by
  have hread := readBack_of_mem hmem hdistinct
  unfold Codec.ReadsSegment textCodec
  simp only [hread]

theorem textCodec_readsEvent {event : TimelineEvent} (hmem : .ofEvent event ∈ events)
    (hdistinct : (events.map fun header => HexName.utf8 header.toJson).Nodup) :
    (textCodec events segments gaps).ReadsEvent event := by
  have hread := readBack_of_mem hmem hdistinct
  unfold Codec.ReadsEvent textCodec
  simp only [hread]

end

end SerialPlatform.Journal
