import SerialPlatform.ExceptBind
import SerialPlatform.JournalCodec
import SerialPlatform.JournalCrash

/-!
# Reopening after a crash

What `JournalManager::open` needs of the disk, and exactly when it finds it there.
-/

namespace SerialPlatform.Journal

open FallibleState RecordLog

/-- The disk after the process died: any number of unfinished segments, each of them
cut anywhere, among files which are in order and within the budget. -/
structure Crashed (codec : Codec) (fromSlice : String → Option HumanHistory.Persisted)
    (config : JournalConfig) (disk : Disk) (files : List CrashedFile) : Prop where
  validate : config.validate = .ok ()
  validateRoot : config.validateRoot = .ok ()
  written : ∀ file ∈ files, IsWritten codec file.header file.log
  distinct : Distinct files
  present : ∀ file ∈ files, disk.lookup file.path = some (file.bytes codec)
  unfinished : ∀ path, isUnfinished path = true → disk.lookup path ≠ none →
    ∃ file ∈ files, file.path = path
  fresh : ∀ file ∈ files, ∀ firstSeq lastSeq,
    disk.lookup ⟨file.path.directory, sealedName firstSeq lastSeq file.header.segmentId⟩ = none
  readable : ∀ path bytes, isSegment path = true → path.isOpen = false →
    disk.lookup path = some bytes → ∃ found, readSegmentHeader codec path bytes = .ok found
  history : ∃ history, openHistory fromSlice disk = .ok history
  budget : directorySize disk ≤ config.maxTotalBytes

/-- What the claim on one unfinished segment asks: the longest beginning of its log
whose records are complete stays under its true first and last sequence numbers, or the
file is gone when there is none. -/
def RecoveredFile (codec : Codec) (disk : Disk) (file : CrashedFile) : Prop :=
  ∃ kept, kept <+: file.log ∧ (segmentBytes codec file.header kept).length ≤ file.cut ∧
    (∀ beginning, beginning <+: file.log →
      (segmentBytes codec file.header beginning).length ≤ file.cut → beginning <+: kept) ∧
    disk.lookup file.path = none ∧
    match kept.head?, kept.getLast? with
    | some first, some last =>
        disk.lookup ⟨file.path.directory,
          sealedName first.record.seq last.record.seq file.header.segmentId⟩ =
            some (segmentBytes codec file.header kept)
    | _, _ => ∀ firstSeq lastSeq,
        disk.lookup ⟨file.path.directory,
          sealedName firstSeq lastSeq file.header.segmentId⟩ = none

/-- Reopening succeeds, recovers every unfinished segment and leaves nothing to recover. -/
def Recovers (codec : Codec) (fromSlice : String → Option HumanHistory.Persisted)
    (config : JournalConfig) (moment : Moment) (disk : Disk) (files : List CrashedFile) : Prop :=
  ∃ machine, (openManager codec fromSlice config moment).run.run (Machine.beside disk config) =
      (.ok (), machine) ∧
    (∀ file ∈ files, RecoveredFile codec machine.disk file) ∧
    (recoverOpenSegments codec).run.run machine = (.ok (), machine)

/-! ## The disk on which the writer starts -/

def ledgerRecovered (codec : Codec) (disk : Disk) : Disk :=
  match disk.lookup gapLedgerPath with
  | none => disk
  | some ledger => disk.insert gapLedgerPath (recoveredLedger codec ledger)

theorem lookup_ledgerRecovered {codec : Codec} {disk : Disk} {path : Path}
    (hpath : path ≠ gapLedgerPath) :
    (ledgerRecovered codec disk).lookup path = disk.lookup path := by
  unfold ledgerRecovered
  cases disk.lookup gapLedgerPath with
  | none => rfl
  | some ledger => exact AList.lookup_insert_ne hpath

theorem size_ledgerRecovered_le (codec : Codec) (disk : Disk) :
    (ledgerRecovered codec disk).size isCounted ≤ disk.size isCounted := by
  unfold ledgerRecovered
  cases hledger : disk.lookup gapLedgerPath with
  | none => exact le_rfl
  | some ledger =>
      have hover := FileStore.size_insert_over isCounted hledger (recoveredLedger codec ledger)
      have hlength := recoveredLedger_length_le codec ledger
      have hweight : FileStore.weight isCounted gapLedgerPath (recoveredLedger codec ledger) ≤
          FileStore.weight isCounted gapLedgerPath ledger := by
        unfold FileStore.weight
        split_ifs
        · exact hlength
        · exact le_rfl
      simp only
      omega

theorem ends_recoverGapLedger {codec : Codec} {s : Machine} (hcalm : s.Calm)
    {Q : Unit → Machine → Prop} {E : JournalError → Machine → Prop} :
    Ends (recoverGapLedger codec) s Q E ↔
      Q () { s with disk := ledgerRecovered codec s.disk } := by
  unfold recoverGapLedger ledgerRecovered
  rw [ends_bind, ends_get]
  cases s.disk.lookup gapLedgerPath with
  | none => rw [ends_pure]
  | some ledger =>
      simp only
      rw [ends_bind, ends_attempt_calm hcalm, ends_bind, ends_modifyDisk,
        ends_attempt_calm (hcalm.withDisk _)]

theorem isCounted_epoch (port : String) (epoch : Uuid) (name : FileName) :
    isCounted ⟨.epoch port epoch, name⟩ = true := rfl

theorem size_settleAll_le {codec : Codec} {files : List CrashedFile}
    (hdistinct : Distinct files) (hcut : ∀ file ∈ files, file.headerLength codec ≤ file.cut)
    {order : List CrashedFile} (horder : order ⊆ files) (hnodup : order.Nodup) {disk : Disk}
    (hpresent : ∀ file ∈ order, disk.lookup file.path = some (file.bytes codec)) :
    (settleAll codec order disk).size isCounted ≤ disk.size isCounted := by
  induction order generalizing disk with
  | nil => exact le_rfl
  | cons file order ih =>
      obtain ⟨hfile, hrest⟩ := List.nodup_cons.mp hnodup
      have hmem := horder List.mem_cons_self
      have hold := hpresent file List.mem_cons_self
      have hstep : (settle disk file.path (file.settlement codec)).size isCounted ≤
          disk.size isCounted := by
        have herase := FileStore.size_erase isCounted hold
        cases hsettlement : file.settlement codec with
        | none => exact FileStore.size_erase_le isCounted disk file.path
        | some result =>
            obtain ⟨target, bytes⟩ := result
            obtain ⟨last, -, hresult⟩ := Option.map_eq_some_iff.mp hsettlement
            obtain ⟨htarget, hbytes⟩ := Prod.mk.inj hresult
            have hlength : bytes.length ≤ (file.bytes codec).length := by
              rw [← hbytes, ← take_complete (hcut file hmem), List.length_take]
              exact min_le_right _ _
            have hweight : FileStore.weight isCounted target bytes ≤
                FileStore.weight isCounted file.path (file.bytes codec) := by
              rw [← htarget]
              exact hlength
            have hinsert := FileStore.size_insert isCounted (disk.erase file.path) target bytes
            have hagain := FileStore.size_erase_le isCounted (disk.erase file.path) target
            change FileStore.size isCounted ((disk.erase file.path).insert target bytes) ≤ _
            omega
      refine (ih (fun f hf => horder (List.mem_cons_of_mem _ hf)) hrest ?_).trans hstep
      intro other hother
      rw [← hpresent other (List.mem_cons_of_mem _ hother)]
      apply lookup_settle_other
      · intro hpath
        have := eq_of_path_eq hdistinct (horder (List.mem_cons_of_mem _ hother)) hmem hpath
        exact hfile (this ▸ hother)
      · exact fun _ _ h => other.path_ne_target h

/-- The unfinished segments in the order in which the directory names them. -/
theorem exists_order {files : List CrashedFile} (paths : List Path)
    (hpaths : ∀ path ∈ paths, ∃ file ∈ files, file.path = path) :
    ∃ order, order ⊆ files ∧ order.map CrashedFile.path = paths := by
  induction paths with
  | nil => exact ⟨[], List.nil_subset _, rfl⟩
  | cons path paths ih =>
      obtain ⟨order, horder, hmap⟩ := ih fun p hp => hpaths p (List.mem_cons_of_mem _ hp)
      obtain ⟨file, hfile, hpath⟩ := hpaths path List.mem_cons_self
      exact ⟨file :: order, List.cons_subset.mpr ⟨hfile, horder⟩, by rw [List.map_cons, hpath, hmap]⟩

/-! ## Starting the writer -/

theorem discoverSegments_ok {codec : Codec} {disk : Disk}
    (hreadable : ∀ path bytes, isSegment path = true → disk.lookup path = some bytes →
      ∃ found, readSegmentHeader codec path bytes = .ok found) :
    ∃ segments, discoverSegments codec disk = .ok segments := by
  unfold discoverSegments
  apply Except.exists_mapM_ok
  intro file hfile
  obtain ⟨hmem, hsegment⟩ := List.mem_filter.mp hfile
  obtain ⟨found, hread⟩ := hreadable file.1 file.2 hsegment (AList.mem_lookup_iff.mpr hmem)
  unfold describeSegment
  rw [hread]
  exact ⟨_, rfl⟩

theorem directorySize_le (disk : Disk) : directorySize disk ≤ u64Max := min_le_right _ _

/-- The writer's first state on a disk which is in order. -/
theorem ends_initializeWriter {codec : Codec}
    {fromSlice : String → Option HumanHistory.Persisted} {config : JournalConfig}
    {moment : Moment} {s : Machine} (hcalm : s.Calm)
    (hreadable : ∀ path bytes, isSegment path = true → s.disk.lookup path = some bytes →
      ∃ found, readSegmentHeader codec path bytes = .ok found)
    (hhistory : ∃ history, openHistory fromSlice s.disk = .ok history)
    (hbudget : directorySize s.disk ≤ config.maxTotalBytes) {E : JournalError → Machine → Prop} :
    Ends (initializeWriter codec fromSlice config moment) s
      (fun _ s' => s'.Calm ∧ s'.disk = s.disk) E := by
  obtain ⟨segments, hsegments⟩ := discoverSegments_ok hreadable
  obtain ⟨history, hhistory⟩ := hhistory
  have hprojected : satAdd u64Max (directorySize s.disk) 0 ≤ config.maxTotalBytes := by
    rw [satAdd_zero (directorySize_le s.disk)]
    exact hbudget
  unfold initializeWriter
  rw [ends_bind, ends_attempt_calm hcalm, ends_bind, ends_get, ends_bind, hsegments,
    ends_liftExcept]
  simp only
  rw [ends_bind, ends_attempt_calm hcalm, ends_bind, hhistory, ends_liftExcept]
  simp only
  rw [ends_bind, ends_modifyWriter]
  unfold ensureCapacity resetRetention
  rw [ends_bind, ends_get]
  simp only [if_pos hprojected]
  rw [ends_modifyWriter]
  exact ⟨⟨hcalm.outcomes, hcalm.ledgerWrites⟩, rfl⟩

/-! ## The whole of `open` -/

section

variable {codec : Codec} {fromSlice : String → Option HumanHistory.Persisted}
  {config : JournalConfig} {moment : Moment} {disk : Disk} {files : List CrashedFile}

theorem path_ne_gapLedger (file : CrashedFile) : file.path ≠ gapLedgerPath := by
  intro h
  cases congrArg Path.directory h

theorem openHistory_congr {other : Disk}
    (h : other.lookup humanHistoryPath = disk.lookup humanHistoryPath) :
    openHistory fromSlice other = openHistory fromSlice disk := by
  unfold openHistory
  rw [h]

variable (hcrashed : Crashed codec fromSlice config disk files)
include hcrashed

/-- The order in which the unfinished segments are found. -/
theorem Crashed.exists_order :
    ∃ order, order ⊆ files ∧ files ⊆ order ∧ order.Nodup ∧
      order.map CrashedFile.path = (ledgerRecovered codec disk).select isUnfinished := by
  obtain ⟨order, horder, hmap⟩ := @Journal.exists_order files
    ((ledgerRecovered codec disk).select isUnfinished) (by
      intro path hpath
      obtain ⟨⟨bytes, hlookup⟩, hunfinished⟩ := FileStore.mem_select.mp hpath
      have hne : path ≠ gapLedgerPath := by
        rintro rfl
        revert hunfinished
        decide
      rw [lookup_ledgerRecovered hne] at hlookup
      apply hcrashed.unfinished path hunfinished
      rw [hlookup]
      simp)
  refine ⟨order, horder, ?_, ?_, hmap⟩
  · intro file hfile
    have hselected : file.path ∈ (ledgerRecovered codec disk).select isUnfinished := by
      apply FileStore.mem_select.mpr
      constructor
      · refine ⟨file.bytes codec, ?_⟩
        rw [lookup_ledgerRecovered (path_ne_gapLedger _)]
        exact hcrashed.present file hfile
      · simp only [isUnfinished, CrashedFile.isOpen_path, Bool.true_and]
        rfl
    rw [← hmap] at hselected
    obtain ⟨other, hother, hpath⟩ := List.mem_map.mp hselected
    rw [← eq_of_path_eq hcrashed.distinct (horder hother) hfile hpath]
    exact hother
  · apply List.Nodup.of_map CrashedFile.path
    rw [hmap]
    exact FileStore.select_nodup _ _

theorem Crashed.present_recovered {file : CrashedFile} (hfile : file ∈ files) :
    (ledgerRecovered codec disk).lookup file.path = some (file.bytes codec) := by
  rw [lookup_ledgerRecovered (path_ne_gapLedger _)]
  exact hcrashed.present file hfile

variable {order : List CrashedFile} (horder : order ⊆ files) (hall : files ⊆ order)
  (hnodup : order.Nodup)
include horder hall hnodup

/-- A file of the disk after recovery is a recovered segment or a file which was there. -/
theorem Crashed.lookup_settled {path : Path} {bytes : Bytes}
    (hlookup : (settleAll codec order (ledgerRecovered codec disk)).lookup path = some bytes) :
    (∃ file ∈ files, file.settlement codec = some (path, bytes)) ∨
      ((∀ file ∈ files, path ≠ file.path) ∧
        (ledgerRecovered codec disk).lookup path = some bytes) := by
  by_cases htarget : ∃ file ∈ order, ∃ found, file.settlement codec = some (path, found)
  · obtain ⟨file, hfile, found, hsettlement⟩ := htarget
    left
    refine ⟨file, horder hfile, ?_⟩
    rw [lookup_settleAll_target hcrashed.distinct horder hnodup hfile hsettlement,
      Option.some.injEq] at hlookup
    rw [hsettlement, hlookup]
  · right
    have hpath : ∀ file ∈ order, path ≠ file.path := by
      rintro file hfile rfl
      rw [lookup_settleAll_path hcrashed.distinct horder hnodup hfile] at hlookup
      cases hlookup
    refine ⟨fun file hfile => hpath file (hall hfile), ?_⟩
    rw [← hlookup]
    refine (lookup_settleAll_other hpath ?_).symm
    rintro file hfile target found hsettlement rfl
    exact htarget ⟨file, hfile, found, hsettlement⟩

theorem Crashed.nothing_unfinished :
    (settleAll codec order (ledgerRecovered codec disk)).select isUnfinished = [] := by
  apply List.eq_nil_iff_forall_not_mem.mpr
  intro path hpath
  obtain ⟨⟨bytes, hlookup⟩, hunfinished⟩ := FileStore.mem_select.mp hpath
  have hopen : path.isOpen = true := by
    unfold isUnfinished at hunfinished
    exact (Bool.and_eq_true_iff.mp hunfinished).1
  rcases hcrashed.lookup_settled horder hall hnodup hlookup with ⟨file, -, hsettlement⟩ | ⟨hne, hold⟩
  · rw [CrashedFile.isOpen_target hsettlement] at hopen
    cases hopen
  · have hledger : path ≠ gapLedgerPath := by
      rintro rfl
      revert hunfinished
      decide
    rw [lookup_ledgerRecovered hledger] at hold
    obtain ⟨file, hfile, hfilePath⟩ := hcrashed.unfinished path hunfinished (by rw [hold]; simp)
    exact hne file hfile hfilePath.symm

theorem Crashed.readable_settled {path : Path} {bytes : Bytes} (hsegment : isSegment path = true)
    (hlookup : (settleAll codec order (ledgerRecovered codec disk)).lookup path = some bytes) :
    ∃ found, readSegmentHeader codec path bytes = .ok found := by
  rcases hcrashed.lookup_settled horder hall hnodup hlookup with
    ⟨file, hfile, hsettlement⟩ | ⟨hne, hold⟩
  · obtain ⟨last, -, hresult⟩ := Option.map_eq_some_iff.mp hsettlement
    rw [← (Prod.mk.inj hresult).2]
    exact ⟨_, readSegmentHeader_append (hcrashed.written file hfile).writable path _⟩
  · have hledger : path ≠ gapLedgerPath := by
      rintro rfl
      revert hsegment
      decide
    rw [lookup_ledgerRecovered hledger] at hold
    apply hcrashed.readable path bytes hsegment _ hold
    by_contra hopen
    rw [Bool.not_eq_false] at hopen
    have hcounted : isUnfinished path = true := by
      obtain ⟨directory, name⟩ := path
      unfold isUnfinished
      rw [hopen]
      cases directory <;> simp_all [isSegment, isHistoryMetadata]
    obtain ⟨file, hfile, hpath⟩ := hcrashed.unfinished path hcounted (by rw [hold]; simp)
    exact hne file hfile hpath.symm

theorem Crashed.ends_openManager (hcut : ∀ file ∈ files, file.headerLength codec ≤ file.cut)
    (hmap : order.map CrashedFile.path = (ledgerRecovered codec disk).select isUnfinished)
    {E : JournalError → Machine → Prop} :
    Ends (openManager codec fromSlice config moment) (Machine.beside disk config)
      (fun _ s' => s'.Calm ∧ s'.disk = settleAll codec order (ledgerRecovered codec disk)) E := by
  have hcalm : (Machine.beside disk config).Calm := ⟨rfl, rfl⟩
  have hdisk : (Machine.beside disk config).disk = disk := rfl
  unfold openManager recoverOpenSegments
  rw [ends_bind, hcrashed.validate, ends_liftExcept]
  simp only
  rw [ends_bind, hcrashed.validateRoot, ends_liftExcept]
  simp only
  rw [ends_bind, ends_attempt_calm hcalm, ends_bind, ends_recoverGapLedger hcalm, ends_bind,
    ends_bind, ends_attempt_calm (hcalm.withDisk _), ends_bind, ends_get, hdisk, ← hmap]
  apply ends_recoverEach hcrashed.written hcrashed.distinct hcut horder hnodup (hcalm.withDisk _)
  · exact fun file hfile => hcrashed.present_recovered (horder hfile)
  · apply ends_initializeWriter ((hcalm.withDisk _).withDisk _)
    · exact fun path bytes => hcrashed.readable_settled horder hall hnodup
    · obtain ⟨history, hhistory⟩ := hcrashed.history
      refine ⟨history, ?_⟩
      rw [← hhistory]
      apply openHistory_congr
      have hne : ∀ file : CrashedFile, humanHistoryPath ≠ file.path := by
        intro file h
        cases congrArg Path.directory h
      rw [lookup_settleAll_other (fun file _ => hne file)]
      · exact lookup_ledgerRecovered (by decide)
      · intro file _ target bytes hsettlement h
        obtain ⟨last, -, hresult⟩ := Option.map_eq_some_iff.mp hsettlement
        rw [← (Prod.mk.inj hresult).1] at h
        cases congrArg Path.directory h
    · have hsettled := size_settleAll_le hcrashed.distinct hcut horder hnodup
        fun file hfile => hcrashed.present_recovered (horder hfile)
      have hledger := size_ledgerRecovered_le codec disk
      exact (min_le_min (hsettled.trans hledger) le_rfl).trans hcrashed.budget

theorem Crashed.ends_openManager_torn
    (hmap : order.map CrashedFile.path = (ledgerRecovered codec disk).select isUnfinished)
    (htorn : ∃ file ∈ files, file.cut < file.headerLength codec) :
    Ends (openManager codec fromSlice config moment) (Machine.beside disk config)
      (fun _ _ => False) (fun _ _ => True) := by
  have hcalm : (Machine.beside disk config).Calm := ⟨rfl, rfl⟩
  have hdisk : (Machine.beside disk config).disk = disk := rfl
  obtain ⟨file, hfile, hcut⟩ := htorn
  unfold openManager recoverOpenSegments
  rw [ends_bind, hcrashed.validate, ends_liftExcept]
  simp only
  rw [ends_bind, hcrashed.validateRoot, ends_liftExcept]
  simp only
  rw [ends_bind, ends_attempt_calm hcalm, ends_bind, ends_recoverGapLedger hcalm, ends_bind,
    ends_bind, ends_attempt_calm (hcalm.withDisk _), ends_bind, ends_get, hdisk, ← hmap]
  refine (ends_recoverEach_torn hcrashed.written hcrashed.distinct horder hnodup
    (hcalm.withDisk _) (fun other hother => hcrashed.present_recovered (horder hother))
    ⟨file, hall hfile, hcut⟩).mono ?_ ?_
  · exact fun _ _ h => h.elim
  · exact fun _ _ h => h

/-- A sealed file under the id of an unfinished segment is that segment's own. -/
theorem Crashed.eq_settlement {file : CrashedFile} (hfile : file ∈ files) {firstSeq lastSeq : ℕ}
    {bytes : Bytes}
    (hlookup : (settleAll codec order (ledgerRecovered codec disk)).lookup
      ⟨file.path.directory, sealedName firstSeq lastSeq file.header.segmentId⟩ = some bytes) :
    ∃ last, (file.complete codec).getLast? = some last ∧ firstSeq = file.header.firstSeq ∧
      lastSeq = last.record.seq := by
  rcases hcrashed.lookup_settled horder hall hnodup hlookup with
    ⟨other, hother, hsettlement⟩ | ⟨-, hold⟩
  · obtain ⟨last, hlast, hresult⟩ := Option.map_eq_some_iff.mp hsettlement
    have hname := congrArg Path.name (Prod.mk.inj hresult).1
    have hsame := eq_of_sealedName_eq hcrashed.distinct hother hfile hname
    obtain ⟨hfirst, hlastSeq, -⟩ := sealedName_inj hname
    rw [hsame] at hfirst hlast
    exact ⟨last, hlast, hfirst.symm, hlastSeq.symm⟩
  · have hne : (⟨file.path.directory, sealedName firstSeq lastSeq file.header.segmentId⟩ : Path) ≠
        gapLedgerPath := by
      intro h
      cases congrArg Path.directory h
    rw [lookup_ledgerRecovered hne, hcrashed.fresh file hfile] at hold
    cases hold

/-- The sealed name which is asked for is there exactly when the file was created for its
first complete record. -/
theorem Crashed.recoveredFile_iff {file : CrashedFile} (hfile : file ∈ files)
    (hcut : file.headerLength codec ≤ file.cut) :
    RecoveredFile codec (settleAll codec order (ledgerRecovered codec disk)) file ↔
      ∀ first, (file.complete codec).head? = some first →
        first.record.seq = file.header.firstSeq := by
  have hfits : ∀ beginning : List (Framed TimelineEvent),
      (segmentBytes codec file.header beginning).length ≤ file.cut ↔
        (joined beginning).length ≤ file.cut - file.headerLength codec := by
    intro beginning
    unfold segmentBytes
    rw [List.length_append]
    change file.headerLength codec + _ ≤ _ ↔ _
    omega
  constructor
  · rintro ⟨kept, hprefix, hsize, hlongest, -, hname⟩ first hfirst
    have hkept : kept = file.complete codec := by
      have hle : kept <+: file.complete codec := before_longest hprefix ((hfits kept).mp hsize)
      have hge : file.complete codec <+: kept :=
        hlongest _ complete_isPrefix ((hfits _).mpr (joined_before_length _ _))
      exact hle.eq_of_length_le hge.length_le
    rw [hkept, hfirst] at hname
    cases hlast : (file.complete codec).getLast? with
    | none =>
        rw [List.getLast?_eq_none_iff] at hlast
        rw [hlast] at hfirst
        cases hfirst
    | some last =>
        rw [hlast] at hname
        obtain ⟨-, -, hseq, -⟩ := hcrashed.eq_settlement horder hall hnodup hfile hname
        exact hseq
  · intro hfirst
    refine ⟨file.complete codec, complete_isPrefix, ?_, ?_, ?_, ?_⟩
    · exact (hfits _).mpr (joined_before_length _ _)
    · intro beginning hbeginning hsize
      exact before_longest hbeginning ((hfits beginning).mp hsize)
    · exact lookup_settleAll_path hcrashed.distinct horder hnodup (hall hfile)
    · cases hcomplete : file.complete codec with
      | nil =>
          intro firstSeq lastSeq
          by_contra hsome
          obtain ⟨bytes, hlookup⟩ := Option.ne_none_iff_exists'.mp hsome
          obtain ⟨last, hlast, -⟩ := hcrashed.eq_settlement horder hall hnodup hfile hlookup
          rw [hcomplete] at hlast
          cases hlast
      | cons first rest =>
          obtain ⟨last, hlast⟩ : ∃ last, (first :: rest).getLast? = some last :=
            Option.ne_none_iff_exists'.mp (by simp)
          have hseq := hfirst first (by rw [hcomplete]; rfl)
          rw [List.head?_cons, hlast]
          simp only
          rw [hseq]
          apply lookup_settleAll_target hcrashed.distinct horder hnodup (hall hfile)
          unfold CrashedFile.settlement
          rw [hcomplete, hlast]
          rfl

end

/-- Reopening recovers every unfinished segment exactly when each of them has its whole
header, and was created for the first of its complete records. -/
theorem reopening_recovers_iff (codec : Codec)
    (fromSlice : String → Option HumanHistory.Persisted) (config : JournalConfig)
    (moment : Moment) (disk : Disk) (files : List CrashedFile)
    (hcrashed : Crashed codec fromSlice config disk files) :
    Recovers codec fromSlice config moment disk files ↔
      ∀ file ∈ files, file.headerLength codec ≤ file.cut ∧
        ∀ first, (file.complete codec).head? = some first →
          first.record.seq = file.header.firstSeq := by
  obtain ⟨order, horder, hall, hnodup, hmap⟩ := hcrashed.exists_order
  by_cases hcut : ∀ file ∈ files, file.headerLength codec ≤ file.cut
  · have hends : Ends (openManager codec fromSlice config moment) (Machine.beside disk config)
        (fun _ s' => s'.Calm ∧
          s'.disk = settleAll codec order (ledgerRecovered codec disk)) (fun _ _ => False) :=
      hcrashed.ends_openManager horder hall hnodup hcut hmap
    have hfiles : (∀ file ∈ files,
        RecoveredFile codec (settleAll codec order (ledgerRecovered codec disk)) file) ↔
        ∀ file ∈ files, file.headerLength codec ≤ file.cut ∧
          ∀ first, (file.complete codec).head? = some first →
            first.record.seq = file.header.firstSeq := by
      apply forall₂_congr
      intro file hfile
      rw [hcrashed.recoveredFile_iff horder hall hnodup hfile (hcut file hfile)]
      exact (and_iff_right (hcut file hfile)).symm
    rw [← hfiles]
    constructor
    · rintro ⟨machine, hrun, hrecovered, -⟩
      rw [← (hends.run hrun).2]
      exact hrecovered
    · intro hrecovered
      cases hrun : (openManager codec fromSlice config moment).run.run
          (Machine.beside disk config) with
      | mk result machine =>
          cases result with
          | error error => exact (hends.run_error hrun).elim
          | ok value =>
              obtain ⟨hcalm, hdisk⟩ := hends.run hrun
              refine ⟨machine, hrun, by rw [hdisk]; exact hrecovered, ?_⟩
              have hagain : Ends (recoverOpenSegments codec) machine (fun _ s => s = machine)
                  (fun _ _ => False) := by
                unfold recoverOpenSegments
                rw [ends_bind, ends_attempt_calm hcalm, ends_bind, ends_get, hdisk,
                  hcrashed.nothing_unfinished horder hall hnodup, recoverEach, ends_pure]
              cases hrun' : (recoverOpenSegments codec).run.run machine with
              | mk result' machine' =>
                  cases result' with
                  | error error => exact (hagain.run_error hrun').elim
                  | ok value => rw [hagain.run hrun']
  · constructor
    · rintro ⟨machine, hrun, -⟩
      push Not at hcut
      exact ((hcrashed.ends_openManager_torn horder hall hnodup hmap hcut).run hrun).elim
    · intro h
      exact absurd (fun file hfile => (h file hfile).1) hcut

/-! ## A first segment -/

def defaultLimits : JournalConfig where
  rootDirEmpty := false
  queueCapacity := 1024
  maxSegmentBytes := 67108864
  maxSegmentAge := 3600 * secondNs
  maxTotalBytes := 10737418240
  watermarkInRange := true
  retentionTarget := 9663676416
  ackTimeout := 100000000

def quietMoment : Moment where
  wallTimeNs := 0
  instant := 0
  segmentId := 3
  creation := .created
  recordWrite := .written
  historyFault := none

def firstHeader : SegmentHeader where
  port := "A"
  daemonEpoch := 1
  segmentId := 2
  createdWallTimeNs := 0
  firstSeq := 1

def firstEvent : TimelineEvent where
  port := "A"
  daemonEpoch := 1
  seq := 1
  generation := 1
  wallTimeNs := 0
  monotonicTimeNs := 0
  kind := .rx
  direction := .rx
  actor := none
  runId := none
  operationId := none
  streamOffsetStart := some 0
  streamOffsetEnd := some 2
  data := [0x6f, 0x6b]
  metadata := []
  durable := true

def firstCodec : Codec := textCodec [.ofEvent firstEvent] [firstHeader] []

def firstLog : List (Framed TimelineEvent) :=
  [{ frame := recordBytes firstCodec (firstCodec.eventToVec (.ofEvent firstEvent)) firstEvent.data
     record := firstEvent }]

/-- The segment of one event, of which the first `cut` bytes were written. -/
def firstFile (cut : ℕ) : CrashedFile where
  header := firstHeader
  log := firstLog
  cut := cut

def firstDisk (cut : ℕ) : Disk := AList.singleton (firstFile cut).path ((firstFile cut).bytes firstCodec)

set_option maxRecDepth 100000 in
theorem firstLog_written : IsWritten firstCodec firstHeader firstLog where
  writable :=
    { port := by decide
      size := by decide
      reads := textCodec_readsSegment List.mem_cons_self (List.nodup_singleton _) }
  encoded := by
    intro entry hentry
    rw [List.mem_singleton.mp hentry]
    refine ⟨firstEvent, ?_, ?_, rfl⟩
    · unfold encodeRecord
      rw [if_neg (by decide), if_neg (by decide)]
    · exact textCodec_readsEvent List.mem_cons_self (List.nodup_singleton _)
  owned := by
    intro entry hentry
    rw [List.mem_singleton.mp hentry]
    exact ⟨rfl, rfl⟩
  positive := by
    intro entry hentry
    rw [List.mem_singleton.mp hentry]
    exact Nat.one_pos
  increasing := List.pairwise_singleton _ _

theorem firstDisk_lookup {cut : ℕ} {path : Path} (hpath : path ≠ (firstFile cut).path) :
    (firstDisk cut).lookup path = none := by
  apply AList.lookup_eq_none.mpr
  rw [AList.mem_keys]
  simpa [firstDisk] using hpath

set_option maxRecDepth 100000 in
theorem firstDisk_crashed (cut : ℕ) :
    Crashed firstCodec (fun _ => none) defaultLimits (firstDisk cut) [firstFile cut] where
  validate := by decide
  validateRoot := by decide
  written := by
    intro file hfile
    rw [List.mem_singleton.mp hfile]
    exact firstLog_written
  distinct :=
    { uuids := by
        intro file hfile
        rw [List.mem_singleton.mp hfile]
        exact (by norm_num : 2 < 2 ^ 128)
      ids := by
        intro file hfile other hother _
        rw [List.mem_singleton.mp hfile, List.mem_singleton.mp hother] }
  present := by
    intro file hfile
    rw [List.mem_singleton.mp hfile]
    exact AList.mem_lookup_iff.mpr List.mem_cons_self
  unfinished := by
    intro path _ hpresent
    refine ⟨firstFile cut, List.mem_cons_self, ?_⟩
    by_contra hpath
    exact hpresent (firstDisk_lookup fun h => hpath h.symm)
  fresh := by
    intro file hfile firstSeq lastSeq
    rw [List.mem_singleton.mp hfile]
    apply firstDisk_lookup
    intro h
    have hopen := congrArg Path.isOpen h
    rw [CrashedFile.isOpen_path, isOpen_sealedName] at hopen
    cases hopen
  readable := by
    intro path bytes _ hopen hlookup
    rw [firstDisk_lookup] at hlookup
    · cases hlookup
    · rintro rfl
      rw [CrashedFile.isOpen_path] at hopen
      cases hopen
  history := by
    have hlookup : (firstDisk cut).lookup humanHistoryPath = none := by
      apply firstDisk_lookup
      intro h
      cases congrArg Path.directory h
    unfold openHistory
    rw [hlookup]
    exact ⟨_, rfl⟩
  budget := by
    have hlength : ((firstFile cut).bytes firstCodec).length ≤
        (segmentBytes firstCodec firstHeader firstLog).length := by
      unfold CrashedFile.bytes
      rw [List.length_take]
      exact min_le_right _ _
    have hwhole : (segmentBytes firstCodec firstHeader firstLog).length ≤
        defaultLimits.maxTotalBytes := by
      decide
    have hsize : (firstDisk cut).size isCounted = ((firstFile cut).bytes firstCodec).length := by
      simp [FileStore.size, firstDisk, CrashedFile.path, SegmentHeader.openPath, isCounted_epoch]
    unfold directorySize
    rw [hsize]
    exact (min_le_left _ _).trans (hlength.trans hwhole)

set_option maxRecDepth 100000 in
/-- A segment which has all its bytes is recovered. -/
theorem reopening_recovers_whole :
    Recovers firstCodec (fun _ => none) defaultLimits quietMoment (firstDisk 1000)
      [firstFile 1000] := by
  apply (reopening_recovers_iff firstCodec _ defaultLimits quietMoment (firstDisk 1000)
    [firstFile 1000] (firstDisk_crashed 1000)).mpr
  intro file hfile
  rw [List.mem_singleton.mp hfile]
  refine ⟨by decide, fun first hfirst => ?_⟩
  have hmem : first ∈ firstLog :=
    complete_isPrefix.subset (List.mem_of_mem_head? (Option.mem_def.mpr hfirst))
  rw [List.mem_singleton.mp hmem]
  rfl

/-- The process died between the creation of the file and the first byte of its header. -/
theorem empty_segment_blocks_reopening :
    Crashed firstCodec (fun _ => none) defaultLimits (firstDisk 0) [firstFile 0] ∧
      ¬Recovers firstCodec (fun _ => none) defaultLimits quietMoment (firstDisk 0)
        [firstFile 0] := by
  have hcrashed := firstDisk_crashed 0
  refine ⟨hcrashed, ?_⟩
  rintro ⟨machine, hrun, -⟩
  obtain ⟨order, horder, hall, hnodup, hmap⟩ := hcrashed.exists_order
  refine ((hcrashed.ends_openManager_torn horder hall hnodup hmap
    ⟨firstFile 0, List.mem_cons_self, ?_⟩).run hrun).elim
  unfold CrashedFile.headerLength
  rw [segmentHeaderBytes_length]
  exact Nat.add_pos_left (by decide) _

end SerialPlatform.Journal
