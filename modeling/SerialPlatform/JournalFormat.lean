import SerialPlatform.EventRing
import SerialPlatform.JournalNames
import SerialPlatform.RecordLog

/-!
# The bytes of a segment

A segment starts with its own header and goes on with one record for each event.
Both carry their lengths in front and a checksum over what follows.  The checksum
and the JSON of the headers come from other crates and are the fields of a `Codec`.
-/

namespace SerialPlatform.Journal

open RecordLog (Reading Reader IsFrame Advances)

def segmentMagic : Bytes := [0x53, 0x52, 0x4c, 0x53, 0x45, 0x47, 0x30, 0x31]

def recordMagic : Bytes := [0x53, 0x52, 0x4c, 0x45, 0x56, 0x54, 0x30, 0x31]

def formatVersion : ℕ := 1

/-- The length of the fixed part before a segment header and before a record. -/
def prefixLen : ℕ := 20

def maxSegmentHeaderBytes : ℕ := 64 * 1024

def maxPortBytes : ℕ := 80

def maxHeaderBytes : ℕ := 256 * 1024

def maxPayloadBytes : ℕ := 1024 * 1024

/-! ## Errors -/

inductive JournalError where
  | invalidConfig (message : String)
  | invalidPortId
  | payloadTooLarge (actual maximum : ℕ)
  | headerTooLarge (actual maximum : ℕ)
  | nonMonotonicSequence (port : String) (epoch : Uuid) (previous got : ℕ)
  | corrupt (path : Path) (message : String)
  | segmentPoisoned (path : Path) (appendError rollbackError : String)
  | retentionFailed (usageBytes targetBytes : ℕ) (message : String)
  | retentionBackoff (usageBytes limitBytes retryAfterMs : ℕ)
  | queryBudgetExceeded (phase : String) (scannedBytes : ℕ)
  | tooManyQueryGaps (maximum : ℕ)
  | tooManyQuerySegments (maximum : ℕ)
  | invalidRegex (message : String)
  | io (message : String)
  deriving DecidableEq

def validatePort (port : String) : Except JournalError Unit :=
  if port.isEmpty ∨ maxPortBytes < port.utf8ByteSize then .error .invalidPortId else .ok ()

/-! ## Headers -/

structure SegmentHeader where
  port : String
  daemonEpoch : Uuid
  segmentId : Uuid
  createdWallTimeNs : ℤ
  firstSeq : ℕ
  deriving DecidableEq

/-- Everything of an event but its bytes. -/
structure DataFrameHeader where
  protocolVersion : ℕ
  port : String
  daemonEpoch : Uuid
  seq : ℕ
  generation : ℕ
  wallTimeNs : ℤ
  monotonicTimeNs : ℕ
  kind : EventKind
  direction : Direction
  actor : Option Actor
  runId : Option Uuid
  operationId : Option Uuid
  streamOffsetStart : Option ℕ
  streamOffsetEnd : Option ℕ
  metadata : Metadata
  durable : Bool
  replay : Bool

def protocolVersion : ℕ := 9

def DataFrameHeader.ofEvent (event : TimelineEvent) : DataFrameHeader where
  protocolVersion := SerialPlatform.Journal.protocolVersion
  port := event.port
  daemonEpoch := event.daemonEpoch
  seq := event.seq
  generation := event.generation
  wallTimeNs := event.wallTimeNs
  monotonicTimeNs := event.monotonicTimeNs
  kind := event.kind
  direction := event.direction
  actor := event.actor
  runId := event.runId
  operationId := event.operationId
  streamOffsetStart := event.streamOffsetStart
  streamOffsetEnd := event.streamOffsetEnd
  metadata := event.metadata
  durable := event.durable
  replay := false

def DataFrameHeader.intoEvent (header : DataFrameHeader) (data : Bytes) : TimelineEvent where
  port := header.port
  daemonEpoch := header.daemonEpoch
  seq := header.seq
  generation := header.generation
  wallTimeNs := header.wallTimeNs
  monotonicTimeNs := header.monotonicTimeNs
  kind := header.kind
  direction := header.direction
  actor := header.actor
  runId := header.runId
  operationId := header.operationId
  streamOffsetStart := header.streamOffsetStart
  streamOffsetEnd := header.streamOffsetEnd
  data := data
  metadata := header.metadata
  durable := header.durable

@[simp] theorem intoEvent_ofEvent (event : TimelineEvent) :
    (DataFrameHeader.ofEvent event).intoEvent event.data = event := rfl

structure StoredGap where
  port : String
  epoch : Uuid
  firstSeq : ℕ
  lastSeq : ℕ
  reason : GapReason
  recordedWallTimeNs : ℤ
  deriving DecidableEq

/-- The checksum of `crc32fast` and the texts of `serde_json`. -/
structure Codec where
  crc32 : Bytes → UInt32
  eventToVec : DataFrameHeader → Bytes
  eventFromSlice : Bytes → Except String DataFrameHeader
  segmentToVec : SegmentHeader → Bytes
  segmentFromSlice : Bytes → Except String SegmentHeader
  gapToVec : StoredGap → Bytes
  gapFromSlice : Bytes → Option StoredGap

namespace Codec

def ReadsEvent (codec : Codec) (event : TimelineEvent) : Prop :=
  codec.eventFromSlice (codec.eventToVec (.ofEvent event)) = .ok (.ofEvent event)

def ReadsSegment (codec : Codec) (header : SegmentHeader) : Prop :=
  codec.segmentFromSlice (codec.segmentToVec header) = .ok header

end Codec

/-! ## Little-endian words -/

def toLeBytes (n : ℕ) : Bytes :=
  [UInt8.ofNat n, UInt8.ofNat (n / 256), UInt8.ofNat (n / 65536), UInt8.ofNat (n / 16777216)]

def fromLeBytes (bytes : Bytes) : ℕ := bytes.foldr (fun byte value => byte.toNat + 256 * value) 0

@[simp] theorem toLeBytes_length (n : ℕ) : (toLeBytes n).length = 4 := rfl

theorem fromLeBytes_toLeBytes {n : ℕ} (h : n < 2 ^ 32) : fromLeBytes (toLeBytes n) = n := by
  simp only [fromLeBytes, toLeBytes, List.foldr_cons, List.foldr_nil, UInt8.toNat_ofNat']
  omega

/-! ## Records -/

def recordChecksum (codec : Codec) (headerLen payloadLen : ℕ) (header payload : Bytes) : ℕ :=
  (codec.crc32 (toLeBytes headerLen ++ toLeBytes payloadLen ++ header ++ payload)).toNat

def recordBytes (codec : Codec) (header payload : Bytes) : Bytes :=
  recordMagic ++ toLeBytes header.length ++ toLeBytes payload.length ++
    toLeBytes (recordChecksum codec header.length payload.length header payload) ++
    header ++ payload

def encodeRecord (codec : Codec) (event : TimelineEvent) : Except JournalError Bytes :=
  if maxPayloadBytes < event.data.length then
    .error (.payloadTooLarge event.data.length maxPayloadBytes)
  else
    let header := codec.eventToVec (.ofEvent event)
    if maxHeaderBytes < header.length then
      .error (.headerTooLarge header.length maxHeaderBytes)
    else .ok (recordBytes codec header event.data)

/-- `read_record`: what stands at the front of the bytes and how many bytes were read. -/
def readRecord (codec : Codec) : Reader TimelineEvent := fun bytes =>
  if bytes = [] then (.eof, 0)
  else if bytes.length < prefixLen then (.invalid "incomplete record prefix", bytes.length)
  else if bytes.take 8 ≠ recordMagic then (.invalid "invalid record magic", prefixLen)
  else
    let headerLen := fromLeBytes ((bytes.drop 8).take 4)
    let payloadLen := fromLeBytes ((bytes.drop 12).take 4)
    let expectedChecksum := fromLeBytes ((bytes.drop 16).take 4)
    let body := bytes.drop prefixLen
    if maxHeaderBytes < headerLen then (.invalid "record header length exceeds limit", prefixLen)
    else if maxPayloadBytes < payloadLen then
      (.invalid "record payload length exceeds limit", prefixLen)
    else if body.length < headerLen then (.invalid "incomplete record header", bytes.length)
    else if body.length < headerLen + payloadLen then
      (.invalid "incomplete record payload", bytes.length)
    else
      let header := body.take headerLen
      let payload := (body.drop headerLen).take payloadLen
      let size := prefixLen + (headerLen + payloadLen)
      if recordChecksum codec headerLen payloadLen header payload ≠ expectedChecksum then
        (.invalid "record checksum mismatch", size)
      else
        match codec.eventFromSlice header with
        | .error error => (.invalid ("invalid record metadata: " ++ error), size)
        | .ok decoded => (.record { decoded.intoEvent payload with durable := true }, size)

/-! ## Segment headers -/

def segmentChecksum (codec : Codec) (version headerLen : ℕ) (encoded : Bytes) : ℕ :=
  (codec.crc32 (toLeBytes version ++ toLeBytes headerLen ++ encoded)).toNat

/-- The bytes which `write_segment_header` writes one after the other. -/
def segmentHeaderBytes (codec : Codec) (header : SegmentHeader) : Bytes :=
  let encoded := codec.segmentToVec header
  segmentMagic ++ toLeBytes formatVersion ++ toLeBytes encoded.length ++
    toLeBytes (segmentChecksum codec formatVersion encoded.length encoded) ++ encoded

def segmentHeaderEncodedLen (codec : Codec) (header : SegmentHeader) : Except JournalError ℕ :=
  let encodedLen := (codec.segmentToVec header).length
  if maxSegmentHeaderBytes < encodedLen then
    .error (.headerTooLarge encodedLen maxSegmentHeaderBytes)
  else .ok (prefixLen + encodedLen)

def readSegmentHeader (codec : Codec) (path : Path) (bytes : Bytes) :
    Except JournalError (SegmentHeader × ℕ) :=
  if bytes.length < prefixLen then .error (.corrupt path "incomplete segment header")
  else if bytes.take 8 ≠ segmentMagic then .error (.corrupt path "invalid segment magic")
  else
    let version := fromLeBytes ((bytes.drop 8).take 4)
    let headerLen := fromLeBytes ((bytes.drop 12).take 4)
    let expectedChecksum := fromLeBytes ((bytes.drop 16).take 4)
    let body := bytes.drop prefixLen
    if version ≠ formatVersion then
      .error (.corrupt path ("unsupported version " ++ toString version))
    else if maxSegmentHeaderBytes < headerLen then
      .error (.corrupt path "segment header length exceeds limit")
    else if body.length < headerLen then .error (.corrupt path "incomplete segment metadata")
    else if segmentChecksum codec version headerLen (body.take headerLen) ≠ expectedChecksum then
      .error (.corrupt path "segment header checksum mismatch")
    else
      match codec.segmentFromSlice (body.take headerLen) with
      | .error error => .error (.corrupt path ("invalid segment metadata: " ++ error))
      | .ok header =>
          match validatePort header.port with
          | .error error => .error error
          | .ok () => .ok (header, prefixLen + headerLen)

/-! ## What was written is read back -/

section

variable (codec : Codec)

theorem readRecord_nil : readRecord codec [] = (.eof, 0) := rfl

theorem readRecord_advances : Advances (readRecord codec) := by
  intro bytes record size h
  unfold readRecord at h
  dsimp only at h
  split_ifs at h with h1 h2 h3 h4 h5 h6 h7 h8
  · cases h
  · cases h
  · cases h
  · cases h
  · cases h
  · cases h
  · cases h
  · cases h
  · have hbody : (bytes.drop prefixLen).length = bytes.length - prefixLen := List.length_drop
    have hprefix : prefixLen = 20 := rfl
    split at h
    · cases h
    · have hsize := (Prod.mk.inj h).2
      omega

/-- The fixed part of a frame: eight bytes of magic and three words. -/
def front (magic : Bytes) (first second third : ℕ) : Bytes :=
  magic ++ toLeBytes first ++ toLeBytes second ++ toLeBytes third

theorem recordBytes_eq (header payload : Bytes) :
    recordBytes codec header payload =
      front recordMagic header.length payload.length
        (recordChecksum codec header.length payload.length header payload) ++
        (header ++ payload) := by
  simp only [recordBytes, front, List.append_assoc]

theorem segmentHeaderBytes_eq (header : SegmentHeader) :
    segmentHeaderBytes codec header =
      front segmentMagic formatVersion (codec.segmentToVec header).length
        (segmentChecksum codec formatVersion (codec.segmentToVec header).length
          (codec.segmentToVec header)) ++
        codec.segmentToVec header := by
  simp only [segmentHeaderBytes, front]

section

variable {magic : Bytes} (hmagic : magic.length = 8) (first second third : ℕ) (rest : Bytes)
include hmagic

theorem front_length : (front magic first second third).length = prefixLen := by
  simp [front, hmagic, prefixLen]

theorem front_take : (front magic first second third ++ rest).take 8 = magic := by
  simp [front, List.append_assoc, hmagic]

theorem front_first :
    ((front magic first second third ++ rest).drop 8).take 4 = toLeBytes first := by
  simp [front, List.append_assoc, List.take_append, hmagic]

theorem front_second :
    ((front magic first second third ++ rest).drop 12).take 4 = toLeBytes second := by
  have hbehind : magic.drop 12 = [] := List.drop_eq_nil_of_le (by omega)
  simp [front, toLeBytes, List.append_assoc, List.drop_append, hmagic, hbehind]

theorem front_third :
    ((front magic first second third ++ rest).drop 16).take 4 = toLeBytes third := by
  have hbehind : magic.drop 16 = [] := List.drop_eq_nil_of_le (by omega)
  simp [front, toLeBytes, List.append_assoc, List.drop_append, hmagic, hbehind]

theorem front_drop : (front magic first second third ++ rest).drop prefixLen = rest := by
  rw [← front_length hmagic first second third]
  exact List.drop_left

end

theorem recordChecksum_lt (headerLen payloadLen : ℕ) (header payload : Bytes) :
    recordChecksum codec headerLen payloadLen header payload < 2 ^ 32 :=
  UInt32.toNat_lt _

theorem segmentChecksum_lt (version headerLen : ℕ) (encoded : Bytes) :
    segmentChecksum codec version headerLen encoded < 2 ^ 32 :=
  UInt32.toNat_lt _

/-- Reading behind a record's fixed part. -/
theorem readRecord_front {headerLen payloadLen checksum : ℕ} (hheader : headerLen ≤ maxHeaderBytes)
    (hpayload : payloadLen ≤ maxPayloadBytes) (hchecksum : checksum < 2 ^ 32) (body : Bytes) :
    readRecord codec (front recordMagic headerLen payloadLen checksum ++ body) =
      if body.length < headerLen then
        (.invalid "incomplete record header", prefixLen + body.length)
      else if body.length < headerLen + payloadLen then
        (.invalid "incomplete record payload", prefixLen + body.length)
      else
        let header := body.take headerLen
        let payload := (body.drop headerLen).take payloadLen
        let size := prefixLen + (headerLen + payloadLen)
        if recordChecksum codec headerLen payloadLen header payload ≠ checksum then
          (.invalid "record checksum mismatch", size)
        else
          match codec.eventFromSlice header with
          | .error error => (.invalid ("invalid record metadata: " ++ error), size)
          | .ok decoded => (.record { decoded.intoEvent payload with durable := true }, size) := by
  have hmagic : recordMagic.length = 8 := rfl
  have hfront := front_length hmagic headerLen payloadLen checksum
  have hlength : (front recordMagic headerLen payloadLen checksum ++ body).length =
      prefixLen + body.length := by
    rw [List.length_append, hfront]
  have hheader' : headerLen < 2 ^ 32 := by
    unfold maxHeaderBytes at hheader
    omega
  have hpayload' : payloadLen < 2 ^ 32 := by
    unfold maxPayloadBytes at hpayload
    omega
  have hne : front recordMagic headerLen payloadLen checksum ++ body ≠ [] := by
    intro hnil
    rw [hnil] at hlength
    simp [prefixLen] at hlength
    omega
  unfold readRecord
  simp only [front_take hmagic, front_first hmagic, front_second hmagic, front_third hmagic,
    front_drop hmagic, fromLeBytes_toLeBytes hheader', fromLeBytes_toLeBytes hpayload',
    fromLeBytes_toLeBytes hchecksum, hlength, if_neg hne]
  rw [if_neg (by omega), if_neg (by simp), if_neg (by omega), if_neg (by omega)]

/-- Everything which `encode_record` writes is a frame of the log. -/
theorem encodeRecord_isFrame {event : TimelineEvent} {bytes : Bytes}
    (hencode : encodeRecord codec event = .ok bytes) (hreads : codec.ReadsEvent event) :
    IsFrame (readRecord codec) bytes { event with durable := true } := by
  unfold encodeRecord at hencode
  dsimp only at hencode
  split_ifs at hencode with hpayload hheader
  rw [Except.ok.injEq] at hencode
  rw [not_lt] at hpayload hheader
  rw [← hencode, recordBytes_eq]
  have hmagic : recordMagic.length = 8 := rfl
  have hchecksum := recordChecksum_lt codec (codec.eventToVec (.ofEvent event)).length
    event.data.length (codec.eventToVec (.ofEvent event)) event.data
  constructor
  · rw [List.length_append, front_length hmagic]
    simp [prefixLen]
  · intro rest
    rw [List.append_assoc, readRecord_front codec hheader hpayload hchecksum]
    simp only [List.append_assoc, List.take_left, List.drop_left, List.length_append]
    rw [if_neg (by omega), if_neg (by omega), if_neg (by simp), hreads]
    simp only [front_length hmagic, intoEvent_ofEvent]
  · intro cut hpos hcut
    rw [List.length_append, front_length hmagic, List.length_append] at hcut
    rcases Nat.lt_or_ge cut prefixLen with hshort | hlong
    · refine ⟨"incomplete record prefix", cut, ?_⟩
      have hlength : ((front recordMagic (codec.eventToVec (.ofEvent event)).length
          event.data.length (recordChecksum codec (codec.eventToVec (.ofEvent event)).length
            event.data.length (codec.eventToVec (.ofEvent event)) event.data) ++
          (codec.eventToVec (.ofEvent event) ++ event.data)).take cut).length = cut := by
        rw [List.length_take, List.length_append, front_length hmagic]
        omega
      unfold readRecord
      rw [hlength, if_neg, if_pos hshort]
      intro hnil
      rw [hnil] at hlength
      simp at hlength
      omega
    · rw [List.take_append, List.take_of_length_le (by rw [front_length hmagic]; exact hlong),
        front_length hmagic, readRecord_front codec hheader hpayload hchecksum, List.length_take,
        List.length_append]
      split_ifs with hno hno'
      · exact ⟨_, _, rfl⟩
      · exact ⟨_, _, rfl⟩
      · omega

/-! ## Segment headers are read back -/

/-- The header of a segment which the writer can create. -/
structure SegmentHeader.Writable (header : SegmentHeader) : Prop where
  port : validatePort header.port = .ok ()
  size : (codec.segmentToVec header).length ≤ maxSegmentHeaderBytes
  reads : codec.ReadsSegment header

theorem segmentHeaderBytes_length (header : SegmentHeader) :
    (segmentHeaderBytes codec header).length = prefixLen + (codec.segmentToVec header).length := by
  rw [segmentHeaderBytes_eq, List.length_append, front_length rfl]

theorem readSegmentHeader_front {version headerLen checksum : ℕ} (hversion : version < 2 ^ 32)
    (hheader : headerLen < 2 ^ 32) (hchecksum : checksum < 2 ^ 32) (path : Path) (body : Bytes) :
    readSegmentHeader codec path (front segmentMagic version headerLen checksum ++ body) =
      if version ≠ formatVersion then
        .error (.corrupt path ("unsupported version " ++ toString version))
      else if maxSegmentHeaderBytes < headerLen then
        .error (.corrupt path "segment header length exceeds limit")
      else if body.length < headerLen then .error (.corrupt path "incomplete segment metadata")
      else if segmentChecksum codec version headerLen (body.take headerLen) ≠ checksum then
        .error (.corrupt path "segment header checksum mismatch")
      else
        match codec.segmentFromSlice (body.take headerLen) with
        | .error error => .error (.corrupt path ("invalid segment metadata: " ++ error))
        | .ok header =>
            match validatePort header.port with
            | .error error => .error error
            | .ok () => .ok (header, prefixLen + headerLen) := by
  have hmagic : segmentMagic.length = 8 := rfl
  have hlength : (front segmentMagic version headerLen checksum ++ body).length =
      prefixLen + body.length := by
    rw [List.length_append, front_length hmagic]
  unfold readSegmentHeader
  simp only [front_take hmagic, front_first hmagic, front_second hmagic, front_third hmagic,
    front_drop hmagic, fromLeBytes_toLeBytes hversion, fromLeBytes_toLeBytes hheader,
    fromLeBytes_toLeBytes hchecksum, hlength]
  rw [if_neg (by omega), if_neg (by simp)]

variable {codec}

theorem readSegmentHeader_append {header : SegmentHeader} (hheader : header.Writable codec)
    (path : Path) (rest : Bytes) :
    readSegmentHeader codec path (segmentHeaderBytes codec header ++ rest) =
      .ok (header, (segmentHeaderBytes codec header).length) := by
  have hsize := hheader.size
  have hlen : (codec.segmentToVec header).length < 2 ^ 32 := by
    unfold maxSegmentHeaderBytes at hsize
    omega
  have hversion : formatVersion < 2 ^ 32 := by decide
  rw [segmentHeaderBytes_length, segmentHeaderBytes_eq, List.append_assoc,
    readSegmentHeader_front codec hversion hlen (segmentChecksum_lt codec _ _ _)]
  rw [if_neg (by simp), if_neg (by omega), if_neg (by rw [List.length_append]; omega),
    List.take_left, if_neg (by simp), hheader.reads]
  simp only [hheader.port]

/-- A file which ends inside its segment header is refused. -/
theorem readSegmentHeader_cut {header : SegmentHeader} (hheader : header.Writable codec)
    (path : Path) {cut : ℕ} (hcut : cut < (segmentHeaderBytes codec header).length) :
    ∃ message, readSegmentHeader codec path ((segmentHeaderBytes codec header).take cut) =
      .error (.corrupt path message) := by
  have hsize := hheader.size
  have hlen : (codec.segmentToVec header).length < 2 ^ 32 := by
    unfold maxSegmentHeaderBytes at hsize
    omega
  have hversion : formatVersion < 2 ^ 32 := by decide
  have hmagic : segmentMagic.length = 8 := rfl
  rw [segmentHeaderBytes_length] at hcut
  rcases Nat.lt_or_ge cut prefixLen with hshort | hlong
  · refine ⟨"incomplete segment header", ?_⟩
    unfold readSegmentHeader
    rw [if_pos]
    rw [List.length_take, segmentHeaderBytes_length]
    omega
  · refine ⟨"incomplete segment metadata", ?_⟩
    rw [segmentHeaderBytes_eq, List.take_append,
      List.take_of_length_le (by rw [front_length hmagic]; exact hlong), front_length hmagic,
      readSegmentHeader_front codec hversion hlen (segmentChecksum_lt codec _ _ _),
      if_neg (by simp), if_neg (by omega), if_pos]
    rw [List.length_take]
    omega

end

end SerialPlatform.Journal
