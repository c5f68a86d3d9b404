import SerialPlatform.JournalPages
import SerialPlatform.JournalReopen
import Mathlib.Data.List.TakeWhile

/-!
# The readers of a segment

Recovery, the scans for the last sequence number, the query and the indexer of Runs read
the same records and stop at different ones.  The archive catalog has a reader of its own,
which hashes the payload in pieces and never builds an event.
-/

namespace SerialPlatform.Journal

open RecordLog StatefulSteps

/-! ## Metadata only -/

def payloadPieceLen : ℕ := 32 * 1024

/-- Feeds the payload to the checksum piece by piece; nothing if the file ends too soon. -/
def hashPayload : ℕ → ℕ → Bytes → Bytes → Option Bytes
  | _, 0, _, hashed => some hashed
  | 0, _ + 1, _, _ => none
  | turns + 1, remaining + 1, body, hashed =>
      let wanted := min (remaining + 1) payloadPieceLen
      let buffer := body.take wanted
      if buffer.length ≠ wanted then none
      else hashPayload turns (remaining + 1 - wanted) (body.drop wanted) (hashed ++ buffer)

/-- What `scan_last_seq_metadata` reads in one turn of its loop; it gives no reason where
it stops. -/
def readRecordMetadata (codec : Codec) : Reader DataFrameHeader := fun bytes =>
  let first := bytes.take prefixLen
  if first.length = 0 then (.eof, 0)
  else if first.length ≠ prefixLen ∨ first.take 8 ≠ recordMagic then (.invalid "", first.length)
  else
    let headerLen := fromLeBytes ((bytes.drop 8).take 4)
    let payloadLen := fromLeBytes ((bytes.drop 12).take 4)
    let expectedChecksum := fromLeBytes ((bytes.drop 16).take 4)
    if maxHeaderBytes < headerLen ∨ maxPayloadBytes < payloadLen then (.invalid "", prefixLen)
    else
      let body := bytes.drop prefixLen
      let encodedHeader := body.take headerLen
      if encodedHeader.length ≠ headerLen then (.invalid "", bytes.length)
      else
        let size := prefixLen + (headerLen + payloadLen)
        match hashPayload payloadLen payloadLen (body.drop headerLen)
            (toLeBytes headerLen ++ toLeBytes payloadLen ++ encodedHeader) with
        | none => (.invalid "", bytes.length)
        | some hashed =>
            if (codec.crc32 hashed).toNat ≠ expectedChecksum then (.invalid "", size)
            else
              match codec.eventFromSlice encodedHeader with
              | .error _ => (.invalid "", size)
              | .ok header => (.record header, size)

/-- `scan_last_seq_metadata` on the headers which were read; the reads of one record are
charged together. -/
def scanLastSeqMetadata (path : Path) (segment : SegmentHeader) (tailBytes : ℕ) :
    List (DataFrameHeader × ℕ) → Option ℕ → QueryM (Option ℕ)
  | [], lastSeq => do
      ensureAvailable "archive open-segment scan"
      charge tailBytes "archive open-segment scan"
      return lastSeq
  | (header, size) :: rest, lastSeq => do
      ensureAvailable "archive open-segment scan"
      charge size "archive open-segment scan"
      if header.port ≠ segment.port ∨ header.daemonEpoch ≠ segment.daemonEpoch ∨
          lastSeq.any (header.seq ≤ ·) then
        throw (.corrupt path "record identity or sequence is invalid")
      else if size = 0 then throw (.corrupt path "record scan made no progress")
      else scanLastSeqMetadata path segment tailBytes rest (some header.seq)

/-! ## The indexer of Runs -/

/-- One segment of `rebuild_run_index`, where `record` is what the history does with an
event. -/
def indexSegment {σ : Type} (record : σ → TimelineEvent → Except JournalError σ) (path : Path)
    (isSealed : Bool) (contents : Contents TimelineEvent) (history : σ) :
    Except JournalError σ := do
  let history ← contents.values.foldlM record history
  match contents.tail with
  | .eof => return history
  | .invalid message =>
      if isSealed then throw (.corrupt path message) else return history

/-! ## The records which a reader accepts -/

/-- The record belongs to the stream of the segment. -/
def isOwned (header : SegmentHeader) (record : TimelineEvent × ℕ) : Bool :=
  record.1.port = header.port ∧ record.1.daemonEpoch = header.daemonEpoch

/-- The leading records of the segment's own stream. -/
def ownedRecords (header : SegmentHeader) (records : List (TimelineEvent × ℕ)) :
    List (TimelineEvent × ℕ) :=
  records.takeWhile (isOwned header)

/-- The leading records which the archive catalog takes. -/
def archiveRecords (segment : SegmentHeader) :
    Option ℕ → List (TimelineEvent × ℕ) → List (TimelineEvent × ℕ)
  | _, [] => []
  | lastSeq, (event, size) :: rest =>
      if event.port ≠ segment.port ∨ event.daemonEpoch ≠ segment.daemonEpoch ∨
          lastSeq.any (event.seq ≤ ·) then []
      else (event, size) :: archiveRecords segment (some event.seq) rest

inductive SegmentReader where
  | recovery
  | sequenceScan
  | query
  | runIndex
  | archive

/-- The leading records of a segment which a reader takes. -/
def accepted (header : SegmentHeader) (records : List (TimelineEvent × ℕ)) :
    SegmentReader → List (TimelineEvent × ℕ)
  | .recovery => keptRecords header 0 records
  | .sequenceScan => ownedRecords header records
  | .query => ownedRecords header records
  | .runIndex => records
  | .archive => archiveRecords header none records

def ReadersAgree (header : SegmentHeader) (records : List (TimelineEvent × ℕ)) : Prop :=
  ∀ first second, accepted header records first = accepted header records second

/-- Every record belongs to the segment, and the numbers are positive and increase. -/
def InOrder (header : SegmentHeader) (records : List (TimelineEvent × ℕ)) : Prop :=
  (∀ record ∈ records, isOwned header record = true ∧ 0 < record.1.seq) ∧
    records.Pairwise fun earlier later => earlier.1.seq < later.1.seq

/-! ## Reading metadata reads records -/

theorem hashPayload_eq (turns remaining : ℕ) (body hashed : Bytes) (hturns : remaining ≤ turns) :
    hashPayload turns remaining body hashed =
      if body.length < remaining then none else some (hashed ++ body.take remaining) := by
  induction turns generalizing remaining body hashed with
  | zero =>
      have hzero : remaining = 0 := by
        omega
      subst hzero
      simp [hashPayload]
  | succ turns ih =>
      cases remaining with
      | zero => simp [hashPayload]
      | succ remaining =>
          have hpiece : 0 < payloadPieceLen := by
            decide
          simp only [hashPayload]
          generalize hwanted : min (remaining + 1) payloadPieceLen = wanted
          have hpos : 0 < wanted := by
            omega
          have hle : wanted ≤ remaining + 1 := by
            omega
          split
          · rename_i hshort
            rw [List.length_take] at hshort
            rw [if_pos (by omega)]
          · rename_i hfull
            rw [List.length_take] at hfull
            rw [ih _ _ _ (by omega), List.length_drop]
            by_cases hends : body.length < remaining + 1
            · rw [if_pos (by omega), if_pos hends]
            · rw [if_neg (by omega), if_neg hends, List.append_assoc]
              congr 2
              have hsplit : remaining + 1 = wanted + (remaining + 1 - wanted) := by
                omega
              conv_rhs => rw [hsplit, List.take_add]

section

variable (codec : Codec)

/-- Where the one reader finds a record the other finds its header, and where the one
stops the other does. -/
theorem readRecordMetadata_spec (bytes : Bytes) :
    match readRecord codec bytes with
    | (.record event, size) => ∃ header payload,
        readRecordMetadata codec bytes = (.record header, size) ∧
          event = { header.intoEvent payload with durable := true }
    | (.eof, size) => readRecordMetadata codec bytes = (.eof, size)
    | (.invalid _, size) => readRecordMetadata codec bytes = (.invalid "", size) := by
  by_cases hnil : bytes = []
  · subst hnil
    rfl
  have hpos : 0 < bytes.length := List.length_pos_iff.2 hnil
  have hlength : prefixLen = 20 := rfl
  have hfirst : (bytes.take prefixLen).length = min prefixLen bytes.length := List.length_take
  have hsome : (bytes.take prefixLen).length ≠ 0 := by
    omega
  unfold readRecord readRecordMetadata
  simp only [hnil, hsome, if_false]
  by_cases hshort : bytes.length < prefixLen
  · have hcut : (bytes.take prefixLen).length ≠ prefixLen ∨
        (bytes.take prefixLen).take 8 ≠ recordMagic := by
      left
      omega
    simp only [hshort, hcut, if_true]
    rw [List.take_of_length_le (by omega)]
  have hlong : (bytes.take prefixLen).length = prefixLen := by
    omega
  have hmagicTake : (bytes.take prefixLen).take 8 = bytes.take 8 := by
    rw [List.take_take, hlength]
    rfl
  simp only [hshort, if_false, hlong, ne_eq, not_true_eq_false, false_or, hmagicTake]
  by_cases hmagic : bytes.take 8 = recordMagic
  swap
  · simp only [hmagic, not_false_eq_true, if_true]
  simp only [hmagic, not_true_eq_false, if_false]
  generalize fromLeBytes ((bytes.drop 8).take 4) = headerLen
  generalize fromLeBytes ((bytes.drop 12).take 4) = payloadLen
  generalize fromLeBytes ((bytes.drop 16).take 4) = expectedChecksum
  generalize bytes.drop prefixLen = body
  by_cases hheader : maxHeaderBytes < headerLen
  · simp only [hheader, if_true, true_or]
  by_cases hpayload : maxPayloadBytes < payloadLen
  · simp only [hheader, hpayload, if_true, if_false, or_true]
  simp only [hheader, hpayload, if_false, or_false]
  by_cases hbody : body.length < headerLen
  · have hcut : ¬(body.take headerLen).length = headerLen := by
      rw [List.length_take]
      omega
    simp only [hbody, if_true, hcut, not_false_eq_true]
  have hwhole : (body.take headerLen).length = headerLen := by
    rw [List.length_take]
    omega
  simp only [hbody, if_false, hwhole, not_true_eq_false]
  rw [hashPayload_eq _ _ _ _ (le_refl _), List.length_drop]
  by_cases htorn : body.length < headerLen + payloadLen
  · have htorn' : body.length - headerLen < payloadLen := by
      omega
    simp only [htorn, htorn', if_true]
  have htorn' : ¬body.length - headerLen < payloadLen := by
    omega
  simp only [htorn, htorn', if_false, recordChecksum]
  by_cases hchecksum : (codec.crc32 (toLeBytes headerLen ++ toLeBytes payloadLen ++
      body.take headerLen ++ (body.drop headerLen).take payloadLen)).toNat = expectedChecksum
  swap
  · simp only [hchecksum, not_false_eq_true, if_true]
  simp only [hchecksum, not_true_eq_false, if_false]
  cases codec.eventFromSlice (body.take headerLen) with
  | error error => rfl
  | ok header => exact ⟨header, (body.drop headerLen).take payloadLen, rfl, rfl⟩

/-! ## The frames which a reader takes -/

theorem toLeBytes_fromLeBytes {word : Bytes} (hword : word.length = 4) :
    toLeBytes (fromLeBytes word) = word := by
  match word, hword with
  | [first, second, third, fourth], _ =>
      have hfirst := first.toNat_lt
      have hsecond := second.toNat_lt
      have hthird := third.toNat_lt
      have hfourth := fourth.toNat_lt
      simp only [toLeBytes, fromLeBytes, List.foldr_cons, List.foldr_nil]
      congr 1
      · apply UInt8.toNat.inj
        rw [UInt8.toNat_ofNat']
        omega
      congr 1
      · apply UInt8.toNat.inj
        rw [UInt8.toNat_ofNat']
        omega
      congr 1
      · apply UInt8.toNat.inj
        rw [UInt8.toNat_ofNat']
        omega
      congr 1
      · apply UInt8.toNat.inj
        rw [UInt8.toNat_ofNat']
        omega

/-- The bytes are a record with lengths within the limits, the right checksum and a header
which can be read. -/
def IsWrittenFrame (frame : Bytes) (event : TimelineEvent) : Prop :=
  ∃ encoded payload header, frame = recordBytes codec encoded payload ∧
    encoded.length ≤ maxHeaderBytes ∧ payload.length ≤ maxPayloadBytes ∧
    codec.eventFromSlice encoded = .ok header ∧
    event = { header.intoEvent payload with durable := true }

variable {codec}

theorem IsWrittenFrame.read {frame : Bytes} {event : TimelineEvent}
    (hframe : IsWrittenFrame codec frame event) (rest : Bytes) :
    readRecord codec (frame ++ rest) = (.record event, frame.length) := by
  obtain ⟨encoded, payload, header, rfl, hencoded, hpayload, hdecoded, rfl⟩ := hframe
  rw [recordBytes_eq, List.append_assoc,
    readRecord_front codec hencoded hpayload (recordChecksum_lt codec _ _ _ _)]
  simp only [List.append_assoc, List.take_left, List.drop_left, List.length_append]
  rw [if_neg (by omega), if_neg (by omega), if_neg (by simp), hdecoded, front_length rfl]

/-- A reader takes nothing but written frames. -/
theorem readRecord_written {bytes : Bytes} {event : TimelineEvent} {size : ℕ}
    (hread : readRecord codec bytes = (.record event, size)) :
    IsWrittenFrame codec (bytes.take size) event := by
  unfold readRecord at hread
  dsimp only at hread
  split_ifs at hread with hnil hshort hmagic hheader hpayload hbody htorn hchecksum
  any_goals cases hread
  rw [not_lt] at hshort hheader hpayload hbody htorn
  rw [not_not] at hmagic hchecksum
  cases hdecoded : codec.eventFromSlice ((bytes.drop prefixLen).take
      (fromLeBytes ((bytes.drop 8).take 4))) with
  | error error =>
      rw [hdecoded] at hread
      cases hread
  | ok header =>
      rw [hdecoded] at hread
      obtain ⟨hevent, rfl⟩ := Prod.mk.inj hread
      have hlength : prefixLen = 20 := rfl
      have hword : ∀ position, position + 4 ≤ prefixLen →
          ((bytes.drop position).take 4).length = 4 := by
        intro position hposition
        rw [List.length_take, List.length_drop]
        omega
      have hencodedLen : ((bytes.drop prefixLen).take
          (fromLeBytes ((bytes.drop 8).take 4))).length = fromLeBytes ((bytes.drop 8).take 4) := by
        rw [List.length_take]
        omega
      have hpayloadLen : (((bytes.drop prefixLen).drop (fromLeBytes ((bytes.drop 8).take 4))).take
          (fromLeBytes ((bytes.drop 12).take 4))).length =
            fromLeBytes ((bytes.drop 12).take 4) := by
        rw [List.length_take, List.length_drop]
        omega
      refine ⟨(bytes.drop prefixLen).take (fromLeBytes ((bytes.drop 8).take 4)),
        ((bytes.drop prefixLen).drop (fromLeBytes ((bytes.drop 8).take 4))).take
          (fromLeBytes ((bytes.drop 12).take 4)), header, ?_, ?_, ?_, hdecoded, ?_⟩
      · unfold recordBytes
        rw [hencodedLen, hpayloadLen, hchecksum, toLeBytes_fromLeBytes (hword 8 (by decide)),
          toLeBytes_fromLeBytes (hword 12 (by decide)),
          toLeBytes_fromLeBytes (hword 16 (by decide)), ← hmagic]
        have hfront : bytes.take prefixLen = bytes.take 8 ++ (bytes.drop 8).take 4 ++
            (bytes.drop 12).take 4 ++ (bytes.drop 16).take 4 := by
          simp only [hlength, ← List.take_add]
        rw [← hfront, List.append_assoc, ← List.take_add, ← List.take_add]
      · omega
      · omega
      · exact (Reading.record.inj hevent).symm

theorem readRecordMetadata_advances : Advances (readRecordMetadata codec) := by
  intro bytes header size hread
  have hspec := readRecordMetadata_spec codec bytes
  cases hrecord : readRecord codec bytes with
  | mk reading taken =>
      rw [hrecord] at hspec
      cases reading with
      | record event =>
          obtain ⟨_, _, hheader, _⟩ := hspec
          rw [hread] at hheader
          rw [(Prod.mk.inj hheader).2]
          exact readRecord_advances codec bytes event taken hrecord
      | eof =>
          rw [hread] at hspec
          cases hspec
      | invalid reason =>
          rw [hread] at hspec
          cases hspec

/-- The header of an event, and the same length. -/
def SameRecord (read : DataFrameHeader × ℕ) (record : TimelineEvent × ℕ) : Prop :=
  read.2 = record.2 ∧ ∃ payload, record.1 = { read.1.intoEvent payload with durable := true }

theorem SameRecord.identity {read : DataFrameHeader × ℕ} {record : TimelineEvent × ℕ}
    (h : SameRecord read record) : read.1.port = record.1.port ∧
      read.1.daemonEpoch = record.1.daemonEpoch ∧ read.1.seq = record.1.seq := by
  obtain ⟨-, payload, hevent⟩ := h
  rw [hevent]
  exact ⟨rfl, rfl, rfl⟩

/-- The archive catalog finds the headers of the records which the other readers find. -/
theorem scan_metadata (bytes : Bytes) :
    List.Forall₂ SameRecord (scan (readRecordMetadata codec) bytes).records
      (scan (readRecord codec) bytes).records := by
  induction hlength : bytes.length using Nat.strong_induction_on generalizing bytes with
  | _ length ih =>
      have hspec := readRecordMetadata_spec codec bytes
      cases hrecord : readRecord codec bytes with
      | mk reading size =>
          rw [hrecord] at hspec
          cases reading with
          | record event =>
              obtain ⟨header, payload, hheader, hevent⟩ := hspec
              have hsize := readRecord_advances codec bytes event size hrecord
              rw [scan_record (readRecord_advances codec) hrecord,
                scan_record readRecordMetadata_advances hheader]
              exact .cons ⟨rfl, payload, hevent⟩
                (ih _ (by rw [List.length_drop]; omega) _ rfl)
          | eof =>
              rw [scan_eof hrecord, scan_eof hspec]
              exact .nil
          | invalid reason =>
              rw [scan_invalid hrecord, scan_invalid hspec]
              exact .nil

/-! ## What each reader tells -/

theorem scanLastSeq_eq (header : SegmentHeader) (contents : Contents TimelineEvent) :
    scanLastSeq header contents =
      (ownedRecords header contents.records).getLast?.map (·.1.seq) := by
  unfold scanLastSeq ownedRecords Contents.values
  rw [List.takeWhile_map, List.getLast?_map, Option.map_map]
  rfl

/-- The query takes every record of a segment, or refuses the segment. -/
theorem gives_scanLastSeqForQuery_owned (path : Path) (header : SegmentHeader) (tailBytes : ℕ)
    (records : List (TimelineEvent × ℕ)) (last : Option ℕ) :
    Gives (scanLastSeqForQuery path header tailBytes records last) fun _ =>
      ownedRecords header records = records := by
  induction records generalizing last with
  | nil => exact gives_any.mono fun _ _ => rfl
  | cons record records ih =>
      obtain ⟨event, size⟩ := record
      unfold scanLastSeqForQuery
      apply gives_any.bind
      intro _ _
      apply gives_any.bind
      intro _ _
      apply gives_ite
      · intro howned
        apply (ih (some event.seq)).mono
        intro _ hrest
        unfold ownedRecords at hrest ⊢
        rw [List.takeWhile_cons_of_pos (by simpa [isOwned] using howned), hrest]
      · intro _
        exact gives_throw

theorem indexSegment_records (path : Path) (isSealed : Bool)
    (contents : Contents TimelineEvent) (seen indexed : List TimelineEvent)
    (h : indexSegment (fun seen event => .ok (seen ++ [event])) path isSealed contents seen =
      .ok indexed) :
    indexed = seen ++ contents.records.map Prod.fst := by
  have hfold : ∀ (values : List TimelineEvent) seen,
      values.foldlM (fun (seen : List TimelineEvent) event =>
        (.ok (seen ++ [event]) : Except JournalError (List TimelineEvent))) seen =
          .ok (seen ++ values) := by
    intro values
    induction values with
    | nil =>
        intro seen
        simp [pure, Except.pure]
    | cons event values ih =>
        intro seen
        rw [List.foldlM_cons, Except.ok_bind, ih, List.append_assoc, List.singleton_append]
  unfold indexSegment at h
  rw [hfold, Except.ok_bind] at h
  cases htail : contents.tail with
  | eof =>
      rw [htail] at h
      exact (Except.ok.inj h).symm
  | invalid message =>
      rw [htail] at h
      cases isSealed with
      | false => exact (Except.ok.inj h).symm
      | true => cases h

/-- The archive catalog takes every record of a segment, or refuses the segment. -/
theorem gives_scanLastSeqMetadata (path : Path) (segment : SegmentHeader) (tailBytes : ℕ)
    {headers : List (DataFrameHeader × ℕ)} {records : List (TimelineEvent × ℕ)}
    (hsame : List.Forall₂ SameRecord headers records) (lastSeq : Option ℕ) :
    Gives (scanLastSeqMetadata path segment tailBytes headers lastSeq) fun result =>
      archiveRecords segment lastSeq records = records ∧
        result = (records.getLast?.map (·.1.seq)).or lastSeq := by
  induction hsame generalizing lastSeq with
  | nil =>
      unfold scanLastSeqMetadata
      apply gives_any.bind
      intro _ _
      apply gives_any.bind
      intro _ _
      exact gives_pure ⟨rfl, rfl⟩
  | @cons read record headers records hsame _ ih =>
      obtain ⟨header, size⟩ := read
      obtain ⟨event, size'⟩ := record
      obtain ⟨hport, hepoch, hseq⟩ := hsame.identity
      dsimp only at hport hepoch hseq
      unfold scanLastSeqMetadata
      apply gives_any.bind
      intro _ _
      apply gives_any.bind
      intro _ _
      apply gives_ite
      · intro _
        exact gives_throw
      · intro hvalid
        apply gives_ite
        · intro _
          exact gives_throw
        · intro _
          apply (ih (some header.seq)).mono
          rintro result ⟨hrest, hresult⟩
          rw [hport, hepoch, hseq] at hvalid
          constructor
          · unfold archiveRecords
            rw [if_neg hvalid, ← hseq, hrest]
          · rw [hresult, List.getLast?_cons, hseq]
            cases records.getLast? <;> rfl

/-! ## Agreement -/

theorem keptRecords_eq_self (header : SegmentHeader) (previous : ℕ)
    (records : List (TimelineEvent × ℕ)) :
    keptRecords header previous records = records ↔
      (∀ record ∈ records, isOwned header record = true ∧ previous < record.1.seq) ∧
        records.Pairwise fun earlier later => earlier.1.seq < later.1.seq := by
  induction records generalizing previous with
  | nil => simp [keptRecords]
  | cons record records ih =>
      obtain ⟨event, size⟩ := record
      unfold keptRecords
      by_cases hkept : event.port = header.port ∧ event.daemonEpoch = header.daemonEpoch ∧
          previous < event.seq
      · obtain ⟨hport, hepoch, hseq⟩ := hkept
        rw [if_pos ⟨hport, hepoch, hseq⟩, List.cons.injEq, ih, List.pairwise_cons,
          List.forall_mem_cons]
        constructor
        · rintro ⟨-, hall, hpairwise⟩
          refine ⟨⟨⟨by simp [isOwned, hport, hepoch], hseq⟩, ?_⟩, ?_, hpairwise⟩
          · intro record hrecord
            exact ⟨(hall record hrecord).1, hseq.trans (hall record hrecord).2⟩
          · intro record hrecord
            exact (hall record hrecord).2
        · rintro ⟨⟨-, hall⟩, hlater, hpairwise⟩
          refine ⟨rfl, ?_, hpairwise⟩
          intro record hrecord
          exact ⟨(hall record hrecord).1, hlater record hrecord⟩
      · rw [if_neg hkept]
        constructor
        · intro hnil
          cases hnil
        · rintro ⟨hall, -⟩
          obtain ⟨howned, hseq⟩ := hall _ List.mem_cons_self
          simp only [isOwned, decide_eq_true_eq] at howned
          exact absurd ⟨howned.1, howned.2, hseq⟩ hkept

theorem InOrder.archive {header : SegmentHeader} {records : List (TimelineEvent × ℕ)}
    (horder : InOrder header records) (lastSeq : Option ℕ)
    (hlast : ∀ last ∈ lastSeq, ∀ record ∈ records, last < record.1.seq) :
    archiveRecords header lastSeq records = records := by
  induction records generalizing lastSeq with
  | nil => rfl
  | cons record records ih =>
      obtain ⟨event, size⟩ := record
      obtain ⟨hall, hpairwise⟩ := horder
      rw [List.pairwise_cons] at hpairwise
      obtain ⟨howned, -⟩ := hall _ List.mem_cons_self
      simp only [isOwned, decide_eq_true_eq] at howned
      have hnew : lastSeq.any (event.seq ≤ ·) = false := by
        cases lastSeq with
        | none => rfl
        | some last => simpa using hlast last rfl _ List.mem_cons_self
      unfold archiveRecords
      rw [if_neg (by simp [howned, hnew]), ih]
      · exact ⟨fun other hother => hall other (List.mem_cons_of_mem _ hother), hpairwise.2⟩
      · intro last hlast' other hother
        cases hlast'
        exact hpairwise.1 other hother

theorem readersAgree_iff (header : SegmentHeader) (records : List (TimelineEvent × ℕ)) :
    ReadersAgree header records ↔ InOrder header records := by
  constructor
  · intro hagree
    exact (keptRecords_eq_self header 0 records).1 (hagree .recovery .runIndex)
  · intro horder
    have hall : ∀ reader, accepted header records reader = records := by
      intro reader
      have howned : ownedRecords header records = records :=
        List.takeWhile_eq_self_iff.2 fun record hrecord => (horder.1 record hrecord).1
      cases reader with
      | recovery => exact (keptRecords_eq_self header 0 records).2 horder
      | sequenceScan => exact howned
      | query => exact howned
      | runIndex => rfl
      | archive => exact horder.archive none (by simp)
    intro first second
    rw [hall first, hall second]

/-! ## The leading records of a file -/

/-- Written frames at the front of the bytes. -/
structure Leads (codec : Codec) (log : List (Framed TimelineEvent)) (bytes : Bytes) : Prop where
  joined : joined log <+: bytes
  written : ∀ entry ∈ log, IsWrittenFrame codec entry.frame entry.record

theorem Leads.sizes {log : List (Framed TimelineEvent)} {bytes : Bytes}
    (h : Leads codec log bytes) : sizes log <+: (scan (readRecord codec) bytes).records := by
  obtain ⟨rest, rfl⟩ := h.joined
  rw [scan_whole_append (readRecord_advances codec) fun entry hentry => (h.written entry hentry).read]
  exact List.prefix_append _ _

/-- The scan of any bytes finds written frames which lead them. -/
theorem exists_leads (bytes : Bytes) :
    ∃ log, (scan (readRecord codec) bytes).records = RecordLog.sizes log ∧ Leads codec log bytes := by
  obtain ⟨log, hrecords, hjoined, hframes⟩ := scan_frames (readRecord_advances codec) bytes
  refine ⟨log, hrecords, hjoined, ?_⟩
  intro entry hentry
  obtain ⟨rest, hread⟩ := hframes entry hentry
  have hwritten := readRecord_written hread
  rwa [List.take_left] at hwritten

theorem InOrder.of_prefix {header : SegmentHeader} {first records : List (TimelineEvent × ℕ)}
    (horder : InOrder header records) (hfirst : first <+: records) : InOrder header first :=
  ⟨fun record hrecord => horder.1 record (hfirst.subset hrecord),
    List.Pairwise.sublist hfirst.sublist horder.2⟩

theorem inOrder_iff_leads (header : SegmentHeader) (bytes : Bytes) :
    InOrder header (scan (readRecord codec) bytes).records ↔
      ∀ log, Leads codec log bytes → InOrder header (sizes log) := by
  constructor
  · intro horder log hlog
    exact horder.of_prefix hlog.sizes
  · intro hleads
    obtain ⟨log, hrecords, hlog⟩ : ∃ log,
        (scan (readRecord codec) bytes).records = sizes log ∧ Leads codec log bytes :=
      exists_leads bytes
    rw [hrecords]
    exact hleads log hlog

/-! ## The format -/

/-- The frame of an event whose encoding succeeded, and the event as it is read back. -/
def Encodes (codec : Codec) (entry : Framed TimelineEvent) : Prop :=
  ∃ event, encodeRecord codec event = .ok entry.frame ∧ codec.ReadsEvent event ∧
    entry.record = { event with durable := true }

/-- The file of a segment with some bytes behind its header: written events are read back,
the readers agree on the records of the bytes, the records are written frames and the scans
end before the bytes do. -/
structure ReadsFaithfully (codec : Codec) (header : SegmentHeader) (path : Path)
    (bytes : Bytes) : Prop where
  reopens : ∀ data, readSegmentHeader codec path (segmentHeaderBytes codec header ++ data) =
    .ok (header, (segmentHeaderBytes codec header).length)
  roundTrip : ∀ log : List (Framed TimelineEvent), (∀ entry ∈ log, Encodes codec entry) →
    segmentContents codec (segmentHeaderBytes codec header ++ RecordLog.joined log)
      (segmentHeaderBytes codec header).length =
        { records := RecordLog.sizes log, tail := .eof, tailBytes := 0 }
  agree : ReadersAgree header (segmentContents codec (segmentHeaderBytes codec header ++ bytes)
    (segmentHeaderBytes codec header).length).records
  sound : ∃ log, Leads codec log bytes ∧ RecordLog.sizes log =
    (segmentContents codec (segmentHeaderBytes codec header ++ bytes)
      (segmentHeaderBytes codec header).length).records
  terminates : ∀ fuel, bytes.length < fuel →
    scanFrom (readRecord codec) fuel bytes = scan (readRecord codec) bytes ∧
      scanFrom (readRecordMetadata codec) fuel bytes = scan (readRecordMetadata codec) bytes

theorem segmentContents_behind (header : SegmentHeader) (bytes : Bytes) :
    segmentContents codec (segmentHeaderBytes codec header ++ bytes)
      (segmentHeaderBytes codec header).length = scan (readRecord codec) bytes := by
  unfold segmentContents
  rw [List.drop_left]

theorem scan_encoded {log : List (Framed TimelineEvent)}
    (hlog : ∀ entry ∈ log, Encodes codec entry) :
    scan (readRecord codec) (joined log) =
      { records := RecordLog.sizes log, tail := .eof, tailBytes := 0 } := by
  apply scan_joined (readRecord_advances codec) (readRecord_nil codec)
  intro entry hentry
  obtain ⟨event, hencode, hreads, hrecord⟩ := hlog entry hentry
  rw [hrecord]
  exact encodeRecord_isFrame codec hencode hreads

theorem IsWritten.inOrder {header : SegmentHeader} {log : List (Framed TimelineEvent)}
    (hwritten : IsWritten codec header log) : InOrder header (sizes log) := by
  constructor
  · intro record hrecord
    obtain ⟨entry, hentry, rfl⟩ := List.mem_map.1 hrecord
    refine ⟨?_, hwritten.positive entry hentry⟩
    simpa [isOwned] using hwritten.owned entry hentry
  · exact List.pairwise_map.2 hwritten.increasing

end

end SerialPlatform.Journal
