import SerialPlatform.JournalRecovery

/-!
# Recovery after a crash

The process may die at any byte of a segment's header or records.  Reopening is run
without further failures, and every unfinished file is followed to what becomes of it.
-/

namespace SerialPlatform.Journal

open FallibleState RecordLog

/-! ## Runs without failures -/

section

variable {s : Machine} {E : JournalError → Machine → Prop}

/-- The operations of a machine whose file system refuses nothing. -/
structure Machine.Calm (s : Machine) : Prop where
  outcomes : s.outcomes = []
  ledgerWrites : s.ledgerWrites = []

theorem ends_nextOutcome {Q : Option String → Machine → Prop} :
    Ends nextOutcome s Q E ↔
      Q (s.outcomes.headD none) { s with outcomes := s.outcomes.tail } := by
  unfold nextOutcome
  rw [ends_bind, ends_get, ends_bind, ends_modify, ends_pure]

theorem ends_attempt {Q : Unit → Machine → Prop} :
    Ends attempt s Q E ↔
      match s.outcomes.headD none with
      | none => Q () { s with outcomes := s.outcomes.tail }
      | some message => E (.io message) { s with outcomes := s.outcomes.tail } := by
  unfold attempt
  rw [ends_bind, ends_nextOutcome]
  cases s.outcomes.headD none <;> simp

theorem Machine.Calm.tail (h : s.Calm) : { s with outcomes := s.outcomes.tail } = s := by
  obtain ⟨writer, disk, outcomes, ledgerWrites⟩ := s
  have houtcomes := h.outcomes
  simp only at houtcomes
  rw [houtcomes]
  rfl

theorem ends_attempt_calm (h : s.Calm) {Q : Unit → Machine → Prop} :
    Ends attempt s Q E ↔ Q () s := by
  rw [ends_attempt, h.tail, h.outcomes]
  rfl

theorem ends_liftExcept {α : Type} {result : Except JournalError α} {Q : α → Machine → Prop} :
    Ends (liftExcept result) s Q E ↔
      match result with
      | .ok value => Q value s
      | .error error => E error s := by
  cases result <;> simp [liftExcept]

theorem ends_modifyDisk {f : Disk → Disk} {Q : Unit → Machine → Prop} :
    Ends (modifyDisk f) s Q E ↔ Q () { s with disk := f s.disk } := by
  simp [modifyDisk]

theorem ends_modifyWriter {f : WriterState → WriterState} {Q : Unit → Machine → Prop} :
    Ends (modifyWriter f) s Q E ↔ Q () { s with writer := f s.writer } := by
  simp [modifyWriter]

theorem Machine.Calm.withDisk (h : s.Calm) (disk : Disk) : ({ s with disk := disk }).Calm :=
  ⟨h.outcomes, h.ledgerWrites⟩

end

/-! ## One unfinished segment -/

/-- What becomes of an unfinished file: nothing, or the name and the bytes of a sealed
one. -/
def settled (codec : Codec) (path : Path) (bytes : Bytes) :
    Except JournalError (Option (Path × Bytes)) := do
  let (header, dataOffset) ← readSegmentHeader codec path bytes
  let kept := keptRecords header 0 (segmentContents codec bytes dataOffset).records
  return kept.getLast?.map fun last =>
    (sealedPath path header last.1.seq, bytes.take (dataOffset + (kept.map Prod.snd).sum))

def settle (disk : Disk) (path : Path) : Option (Path × Bytes) → Disk
  | none => disk.erase path
  | some (target, bytes) => (disk.erase path).insert target bytes

theorem erase_insert (disk : Disk) (path : Path) (bytes : Bytes) :
    (disk.insert path bytes).erase path = disk.erase path := by
  apply AList.ext
  exact List.kerase_cons_eq rfl

theorem rename_insert (disk : Disk) (path target : Path) (bytes : Bytes) :
    FileStore.rename (disk.insert path bytes) path target = settle disk path (some (target, bytes)) := by
  unfold FileStore.rename settle
  rw [AList.lookup_insert]
  simp only
  rw [erase_insert]

theorem ends_recoverOpenSegment {codec : Codec} {path : Path} {bytes : Bytes} {s : Machine}
    (hcalm : s.Calm) (hlookup : s.disk.lookup path = some bytes) {Q : Unit → Machine → Prop}
    {E : JournalError → Machine → Prop} :
    Ends (recoverOpenSegment codec path) s Q E ↔
      match settled codec path bytes with
      | .ok result => Q () { s with disk := settle s.disk path result }
      | .error error => E error s := by
  unfold recoverOpenSegment settled
  rw [ends_bind, ends_get, hlookup]
  simp only
  rw [ends_bind, ends_attempt_calm hcalm, ends_bind, ends_liftExcept]
  cases hread : readSegmentHeader codec path bytes with
  | error error => rfl
  | ok found =>
      obtain ⟨header, dataOffset⟩ := found
      simp only
      have hdisk := hcalm.withDisk
      rw [ends_bind, ends_attempt_calm hcalm, ends_bind, ends_modifyDisk, ends_bind,
        ends_attempt_calm (hdisk _), ends_bind, ends_attempt_calm (hdisk _)]
      simp only [bind, Except.bind, pure, Except.pure]
      cases hlast : (keptRecords header 0
          (segmentContents codec bytes dataOffset).records).getLast? with
      | none =>
          rw [ends_modifyDisk]
          simp only [Option.map_none, settle, erase_insert]
      | some last =>
          rw [ends_modifyDisk]
          simp only [Option.map_some, rename_insert]

/-! ## Files which a crash leaves behind -/

/-- The whole file of a segment. -/
def segmentBytes (codec : Codec) (header : SegmentHeader) (log : List (Framed TimelineEvent)) :
    Bytes :=
  segmentHeaderBytes codec header ++ joined log

/-- A segment as the writer produces it: encoded records of the segment's stream, with
increasing sequence numbers. -/
structure IsWritten (codec : Codec) (header : SegmentHeader)
    (log : List (Framed TimelineEvent)) : Prop where
  writable : header.Writable codec
  encoded : ∀ entry ∈ log, ∃ event, encodeRecord codec event = .ok entry.frame ∧
    codec.ReadsEvent event ∧ entry.record = { event with durable := true }
  owned : ∀ entry ∈ log, entry.record.port = header.port ∧
    entry.record.daemonEpoch = header.daemonEpoch
  positive : ∀ entry ∈ log, 0 < entry.record.seq
  increasing : log.Pairwise fun a b => a.record.seq < b.record.seq

/-- An unfinished segment of which the first `cut` bytes reached the disk. -/
structure CrashedFile where
  header : SegmentHeader
  log : List (Framed TimelineEvent)
  cut : ℕ

namespace CrashedFile

variable (codec : Codec) (file : CrashedFile)

def path : Path := file.header.openPath

def bytes : Bytes := (segmentBytes codec file.header file.log).take file.cut

def headerLength : ℕ := (segmentHeaderBytes codec file.header).length

/-- The records which are complete on the disk. -/
def complete : List (Framed TimelineEvent) := before file.log (file.cut - file.headerLength codec)

/-- The sealed file in which the complete records stay. -/
def settlement : Option (Path × Bytes) :=
  (file.complete codec).getLast?.map fun last =>
    (sealedPath file.path file.header last.record.seq,
      segmentBytes codec file.header (file.complete codec))

end CrashedFile

section

variable {codec : Codec}

theorem IsWritten.frames {header : SegmentHeader} {log : List (Framed TimelineEvent)}
    (h : IsWritten codec header log) :
    ∀ entry ∈ log, IsFrame (readRecord codec) entry.frame entry.record := by
  intro entry hentry
  obtain ⟨event, hencode, hreads, hrecord⟩ := h.encoded entry hentry
  rw [hrecord]
  exact encodeRecord_isFrame codec hencode hreads

theorem IsWritten.beginning {header : SegmentHeader} {log kept : List (Framed TimelineEvent)}
    (h : IsWritten codec header log) (hkept : kept <+: log) : IsWritten codec header kept where
  writable := h.writable
  encoded := fun entry hentry => h.encoded entry (hkept.subset hentry)
  owned := fun entry hentry => h.owned entry (hkept.subset hentry)
  positive := fun entry hentry => h.positive entry (hkept.subset hentry)
  increasing := h.increasing.sublist hkept.sublist

/-- Recovery keeps every record of a written log. -/
theorem keptRecords_sizes {header : SegmentHeader} {log : List (Framed TimelineEvent)}
    (howned : ∀ entry ∈ log, entry.record.port = header.port ∧
      entry.record.daemonEpoch = header.daemonEpoch)
    (hincreasing : log.Pairwise fun a b => a.record.seq < b.record.seq) (previous : ℕ)
    (hprevious : ∀ entry ∈ log, previous < entry.record.seq) :
    keptRecords header previous (sizes log) = sizes log := by
  induction log generalizing previous with
  | nil => rfl
  | cons entry log ih =>
      have hentry := howned entry List.mem_cons_self
      obtain ⟨hlater, hrest⟩ := List.pairwise_cons.mp hincreasing
      have htail := ih (fun other hother => howned other (List.mem_cons_of_mem _ hother)) hrest
        entry.record.seq hlater
      simp only [sizes, List.map_cons] at htail ⊢
      unfold keptRecords
      rw [if_pos ⟨hentry.1, hentry.2, hprevious entry List.mem_cons_self⟩, htail]

theorem sum_sizes (log : List (Framed TimelineEvent)) :
    ((sizes log).map Prod.snd).sum = (joined log).length := by
  induction log with
  | nil => rfl
  | cons entry log ih =>
      simp only [sizes, List.map_cons, List.sum_cons, joined_cons, List.length_append] at ih ⊢
      rw [ih]

theorem getLast?_sizes (log : List (Framed TimelineEvent)) :
    (sizes log).getLast?.map Prod.fst = log.getLast?.map Framed.record := by
  rw [sizes, List.getLast?_map, Option.map_map]
  rfl

variable {file : CrashedFile}

/-- A file which ends inside the segment header cannot be recovered. -/
theorem settled_torn (hwritten : IsWritten codec file.header file.log)
    (hcut : file.cut < file.headerLength codec) :
    ∃ message, settled codec file.path (file.bytes codec) =
      .error (.corrupt file.path message) := by
  obtain ⟨message, hread⟩ := readSegmentHeader_cut hwritten.writable file.path hcut
  refine ⟨message, ?_⟩
  have hbytes : file.bytes codec = (segmentHeaderBytes codec file.header).take file.cut := by
    unfold CrashedFile.bytes segmentBytes
    rw [List.take_append_of_le_length hcut.le]
  unfold settled
  rw [hbytes, hread]
  rfl

theorem bytes_of_le (hcut : file.headerLength codec ≤ file.cut) :
    file.bytes codec = segmentHeaderBytes codec file.header ++
      (joined file.log).take (file.cut - file.headerLength codec) := by
  unfold CrashedFile.bytes segmentBytes
  rw [List.take_append, List.take_of_length_le hcut]
  rfl

theorem complete_isPrefix : file.complete codec <+: file.log := before_isPrefix _ _

theorem take_complete (hcut : file.headerLength codec ≤ file.cut) :
    (file.bytes codec).take ((segmentHeaderBytes codec file.header).length +
      (joined (file.complete codec)).length) =
        segmentBytes codec file.header (file.complete codec) := by
  obtain ⟨torn, hjoined, -⟩ := joined_take file.log (file.cut - file.headerLength codec)
  rw [bytes_of_le hcut, hjoined, ← List.append_assoc]
  exact List.take_left' (List.length_append ..)

/-- Every other file is cut back to its complete records. -/
theorem settled_crashed (hwritten : IsWritten codec file.header file.log)
    (hcut : file.headerLength codec ≤ file.cut) :
    settled codec file.path (file.bytes codec) = .ok (file.settlement codec) := by
  have hkept : IsWritten codec file.header (file.complete codec) :=
    hwritten.beginning complete_isPrefix
  have hread := readSegmentHeader_append hwritten.writable file.path
    ((joined file.log).take (file.cut - file.headerLength codec))
  have hrecords : (segmentContents codec (file.bytes codec)
      (segmentHeaderBytes codec file.header).length).records = sizes (file.complete codec) := by
    unfold segmentContents
    rw [bytes_of_le hcut, List.drop_left]
    exact scan_cut (readRecord_advances codec) (readRecord_nil codec) hwritten.frames _
  unfold settled
  rw [bytes_of_le hcut, hread, ← bytes_of_le hcut]
  simp only [bind, Except.bind, pure, Except.pure]
  rw [hrecords, keptRecords_sizes hkept.owned hkept.increasing 0 hkept.positive, sum_sizes,
    take_complete hcut]
  have hlast := getLast?_sizes (file.complete codec)
  unfold CrashedFile.settlement
  cases hkeptLast : (file.complete codec).getLast? with
  | none =>
      rw [hkeptLast, Option.map_none, Option.map_eq_none_iff] at hlast
      rw [hlast]
      rfl
  | some last =>
      rw [hkeptLast, Option.map_some, Option.map_eq_some_iff] at hlast
      obtain ⟨lastSized, hsized, hrecord⟩ := hlast
      rw [hsized]
      simp only [Option.map_some, hrecord]

end

/-! ## All unfinished segments -/

theorem lookup_settle_path {disk : Disk} {path : Path} {result : Option (Path × Bytes)}
    (hresult : ∀ target bytes, result = some (target, bytes) → path ≠ target) :
    (settle disk path result).lookup path = none := by
  cases result with
  | none => exact AList.lookup_erase _ _
  | some result =>
      change AList.lookup path ((disk.erase path).insert result.1 result.2) = none
      rw [AList.lookup_insert_ne (hresult _ _ rfl), AList.lookup_erase]

theorem lookup_settle_other {disk : Disk} {path other : Path} {result : Option (Path × Bytes)}
    (hpath : other ≠ path)
    (hresult : ∀ target bytes, result = some (target, bytes) → other ≠ target) :
    (settle disk path result).lookup other = disk.lookup other := by
  cases result with
  | none => exact AList.lookup_erase_ne hpath
  | some result =>
      change AList.lookup other ((disk.erase path).insert result.1 result.2) = _
      rw [AList.lookup_insert_ne (hresult _ _ rfl), AList.lookup_erase_ne hpath]

/-- The files of a crash are told apart by their segment ids. -/
structure Distinct (files : List CrashedFile) : Prop where
  uuids : ∀ file ∈ files, file.header.segmentId < 2 ^ 128
  ids : ∀ file ∈ files, ∀ other ∈ files,
    file.header.segmentId = other.header.segmentId → file = other

namespace CrashedFile

@[simp] theorem isOpen_path (file : CrashedFile) : file.path.isOpen = true := isOpen_openName _ _ _

theorem isOpen_target {codec : Codec} {file : CrashedFile} {target : Path} {bytes : Bytes}
    (h : file.settlement codec = some (target, bytes)) : target.isOpen = false := by
  obtain ⟨last, -, hresult⟩ := Option.map_eq_some_iff.mp h
  rw [← (Prod.mk.inj hresult).1]
  exact isOpen_sealedName _ _ _ _

theorem path_ne_target {codec : Codec} (file : CrashedFile) {other : CrashedFile} {target : Path}
    {bytes : Bytes} (h : other.settlement codec = some (target, bytes)) : file.path ≠ target := by
  intro hpath
  have htarget := isOpen_target h
  rw [← hpath, isOpen_path] at htarget
  cases htarget

end CrashedFile

section

variable {codec : Codec} {files : List CrashedFile} (hdistinct : Distinct files)
include hdistinct

theorem eq_of_path_eq {file other : CrashedFile} (hfile : file ∈ files) (hother : other ∈ files)
    (hpath : file.path = other.path) : file = other := by
  apply hdistinct.ids file hfile other hother
  exact uuidText_inj (hdistinct.uuids file hfile) (hdistinct.uuids other hother)
    (openName_inj (congrArg Path.name hpath)).2

theorem eq_of_sealedName_eq {file other : CrashedFile} (hfile : file ∈ files)
    (hother : other ∈ files) {first last first' last' : ℕ}
    (hname : sealedName first last file.header.segmentId =
      sealedName first' last' other.header.segmentId) : file = other := by
  apply hdistinct.ids file hfile other hother
  exact uuidText_inj (hdistinct.uuids file hfile) (hdistinct.uuids other hother)
    (sealedName_inj hname).2.2

end

/-- Every file in turn. -/
def settleAll (codec : Codec) : List CrashedFile → Disk → Disk
  | [], disk => disk
  | file :: rest, disk => settleAll codec rest (settle disk file.path (file.settlement codec))

section

variable {codec : Codec}

theorem lookup_settleAll_other {files : List CrashedFile} {disk : Disk} {other : Path}
    (hpath : ∀ file ∈ files, other ≠ file.path)
    (htarget : ∀ file ∈ files, ∀ target bytes, file.settlement codec = some (target, bytes) →
      other ≠ target) :
    (settleAll codec files disk).lookup other = disk.lookup other := by
  induction files generalizing disk with
  | nil => rfl
  | cons file files ih =>
      unfold settleAll
      rw [ih (fun f hf => hpath f (List.mem_cons_of_mem _ hf))
        (fun f hf => htarget f (List.mem_cons_of_mem _ hf))]
      exact lookup_settle_other (hpath file List.mem_cons_self)
        (htarget file List.mem_cons_self)

variable {files : List CrashedFile} (hdistinct : Distinct files)
include hdistinct

theorem lookup_settleAll_path {order : List CrashedFile} (horder : order ⊆ files)
    (hnodup : order.Nodup) {disk : Disk} {file : CrashedFile} (hfile : file ∈ order) :
    (settleAll codec order disk).lookup file.path = none := by
  induction order generalizing disk with
  | nil => cases hfile
  | cons head order ih =>
      obtain ⟨hhead, hrest⟩ := List.nodup_cons.mp hnodup
      unfold settleAll
      rcases List.mem_cons.mp hfile with rfl | hfile
      · rw [lookup_settleAll_other]
        · exact lookup_settle_path fun _ _ h => file.path_ne_target h
        · intro other hother heq
          have := eq_of_path_eq hdistinct (horder List.mem_cons_self)
            (horder (List.mem_cons_of_mem _ hother)) heq
          exact hhead (this ▸ hother)
        · exact fun other _ _ _ h => file.path_ne_target h
      · exact ih (fun f hf => horder (List.mem_cons_of_mem _ hf)) hrest hfile

theorem lookup_settleAll_target {order : List CrashedFile} (horder : order ⊆ files)
    (hnodup : order.Nodup) {disk : Disk} {file : CrashedFile} (hfile : file ∈ order)
    {target : Path} {bytes : Bytes} (htarget : file.settlement codec = some (target, bytes)) :
    (settleAll codec order disk).lookup target = some bytes := by
  induction order generalizing disk with
  | nil => cases hfile
  | cons head order ih =>
      obtain ⟨hhead, hrest⟩ := List.nodup_cons.mp hnodup
      unfold settleAll
      rcases List.mem_cons.mp hfile with rfl | hfile
      · rw [lookup_settleAll_other]
        · rw [htarget]
          exact AList.lookup_insert _
        · exact fun other _ heq => other.path_ne_target htarget heq.symm
        · intro other hother target' bytes' htarget' heq
          obtain ⟨last, -, hresult⟩ := Option.map_eq_some_iff.mp htarget
          obtain ⟨last', -, hresult'⟩ := Option.map_eq_some_iff.mp htarget'
          rw [← (Prod.mk.inj hresult).1, ← (Prod.mk.inj hresult').1] at heq
          have := eq_of_sealedName_eq hdistinct (horder List.mem_cons_self)
            (horder (List.mem_cons_of_mem _ hother)) (congrArg Path.name heq)
          exact hhead (this ▸ hother)
      · exact ih (fun f hf => horder (List.mem_cons_of_mem _ hf)) hrest hfile

end

/-! ## The loop over the unfinished segments -/

section

variable {codec : Codec} {files : List CrashedFile} {E : JournalError → Machine → Prop}

theorem ends_recoverEach (hwritten : ∀ file ∈ files, IsWritten codec file.header file.log)
    (hdistinct : Distinct files) (hcut : ∀ file ∈ files, file.headerLength codec ≤ file.cut)
    {order : List CrashedFile} (horder : order ⊆ files) (hnodup : order.Nodup) {s : Machine}
    (hcalm : s.Calm)
    (hpresent : ∀ file ∈ order, s.disk.lookup file.path = some (file.bytes codec))
    {Q : Unit → Machine → Prop} (hQ : Q () { s with disk := settleAll codec order s.disk }) :
    Ends (recoverEach codec (order.map CrashedFile.path)) s Q E := by
  induction order generalizing s with
  | nil =>
      rw [List.map_nil, recoverEach, ends_pure]
      exact hQ
  | cons file order ih =>
      obtain ⟨hfile, hrest⟩ := List.nodup_cons.mp hnodup
      have hmem := horder List.mem_cons_self
      rw [List.map_cons, recoverEach, ends_bind,
        ends_recoverOpenSegment hcalm (hpresent file List.mem_cons_self),
        settled_crashed (hwritten file hmem) (hcut file hmem)]
      apply ih (fun f hf => horder (List.mem_cons_of_mem _ hf)) hrest (hcalm.withDisk _)
      · intro other hother
        rw [← hpresent other (List.mem_cons_of_mem _ hother)]
        apply lookup_settle_other
        · intro hpath
          have := eq_of_path_eq hdistinct (horder (List.mem_cons_of_mem _ hother)) hmem hpath
          exact hfile (this ▸ hother)
        · exact fun _ _ h => other.path_ne_target h
      · exact hQ

/-- The loop stops with an error at the first file which ends inside its header. -/
theorem ends_recoverEach_torn (hwritten : ∀ file ∈ files, IsWritten codec file.header file.log)
    (hdistinct : Distinct files) {order : List CrashedFile} (horder : order ⊆ files)
    (hnodup : order.Nodup) {s : Machine} (hcalm : s.Calm)
    (hpresent : ∀ file ∈ order, s.disk.lookup file.path = some (file.bytes codec))
    (htorn : ∃ file ∈ order, file.cut < file.headerLength codec) :
    Ends (recoverEach codec (order.map CrashedFile.path)) s (fun _ _ => False)
      (fun _ _ => True) := by
  induction order generalizing s with
  | nil =>
      obtain ⟨file, hfile, -⟩ := htorn
      cases hfile
  | cons file order ih =>
      obtain ⟨hfile, hrest⟩ := List.nodup_cons.mp hnodup
      have hmem := horder List.mem_cons_self
      rw [List.map_cons, recoverEach, ends_bind,
        ends_recoverOpenSegment hcalm (hpresent file List.mem_cons_self)]
      by_cases hcut : file.cut < file.headerLength codec
      · obtain ⟨message, hsettled⟩ := settled_torn (hwritten file hmem) hcut
        rw [hsettled]
        trivial
      · rw [settled_crashed (hwritten file hmem) (not_lt.mp hcut)]
        apply ih (fun f hf => horder (List.mem_cons_of_mem _ hf)) hrest (hcalm.withDisk _)
        · intro other hother
          rw [← hpresent other (List.mem_cons_of_mem _ hother)]
          apply lookup_settle_other
          · intro hpath
            have := eq_of_path_eq hdistinct (horder (List.mem_cons_of_mem _ hother)) hmem hpath
            exact hfile (this ▸ hother)
          · exact fun _ _ h => other.path_ne_target h
        · obtain ⟨torn, htorn, hlt⟩ := htorn
          rcases List.mem_cons.mp htorn with rfl | htorn
          · exact absurd hlt hcut
          · exact ⟨torn, htorn, hlt⟩

end

end SerialPlatform.Journal
