import SerialPlatform.ExceptBind
import SerialPlatform.JournalQuery

/-!
# Pagination makes progress

A response either moves the cursor or was not cut short, except where the scan meets an
unfinished record at the end of an unsealed segment and no record behind the cursor.
-/

namespace SerialPlatform.Journal

open RecordLog StatefulSteps

/-! ## What is scanned -/

def lastRecordSeq (contents : Contents TimelineEvent) : Option ℕ :=
  contents.values.getLast?.map TimelineEvent.seq

/-- The segment in a file, with the last sequence number which its name gives. -/
def segmentAt (codec : Codec) (disk : Disk) (named : Path → SegmentHeader → Option ℕ)
    (path : Path) : Option SegmentDescriptor :=
  match disk.lookup path with
  | none => none
  | some bytes =>
      match readSegmentHeader codec path bytes with
      | .error _ => none
      | .ok (header, dataOffset) =>
          some
            { header := header
              path := path
              lastSeq := (if path.isSealed then named path header else none).or
                (lastRecordSeq (segmentContents codec bytes dataOffset))
              isSealed := path.isSealed }

/-- The segments which a query finds. -/
def querySegments (codec : Codec) (disk : Disk) (port : String) (query : EventQuery) :
    List SegmentDescriptor :=
  match query.epoch with
  | some epoch =>
      let candidates := (filesIn disk (.epoch port epoch)).foldl (addCandidate query)
        { paths := [], seed := none, firstAvailableSeq := none }
      (candidates.paths ++ (candidates.seed.map fun seed => seed.2.2).toList).filterMap
        (segmentAt codec disk namedLastSeq)
  | none =>
      (((directoriesBelow disk port).flatMap (filesIn disk)).filter fun path =>
        path.isSealed || path.isOpen).filterMap
          (segmentAt codec disk fun path _ => parseSealedLastSeq path)

/-- The epoch in which a query scans segments. -/
def queryEpoch (query : EventQuery) (descriptors : List SegmentDescriptor) : Option Uuid :=
  query.epoch.or ((maxByKey SegmentDescriptor.laterKey descriptors).map fun segment =>
    segment.header.daemonEpoch)

/-- The segments which a query scans, in their order. -/
def scannedSegments (codec : Codec) (disk : Disk) (port : String) (query : EventQuery) :
    List SegmentDescriptor :=
  let descriptors := querySegments codec disk port query
  scanOrder (queryEpoch query descriptors) descriptors

/-- Whether a record lies behind the cursor. -/
def EventQuery.isBehindCursor (query : EventQuery) (event : TimelineEvent) : Bool :=
  query.afterSeq.all (· < event.seq)

/-- The records of a segment up to the query's last sequence number. -/
def EventQuery.within (query : EventQuery) (events : List TimelineEvent) : List TimelineEvent :=
  events.takeWhile fun event => event.seq ≤ query.ceiling

def isTorn (segment : SegmentDescriptor) (contents : Contents TimelineEvent) : Bool :=
  !segment.isSealed && contents.tail ≠ .eof

/-- The records of a segment file which can be read. -/
def readSegment (codec : Codec) (disk : Disk) (path : Path) : Option (Contents TimelineEvent) :=
  match disk.lookup path with
  | none => none
  | some bytes =>
      match readSegmentHeader codec path bytes with
      | .error _ => none
      | .ok (_, dataOffset) => some (segmentContents codec bytes dataOffset)

/-- Whether the segments hold an unfinished record, and none behind the cursor. -/
def stallsIn (codec : Codec) (disk : Disk) (query : EventQuery) (seed : Option Uuid) :
    List SegmentDescriptor → Bool → Bool
  | [], torn => torn
  | segment :: rest, torn =>
      if query.ceiling < segment.header.firstSeq then torn
      else if segment.isConsumed query && seed ≠ some segment.header.segmentId then
        stallsIn codec disk query seed rest torn
      else
        match readSegment codec disk segment.path with
        | none => stallsIn codec disk query seed rest torn
        | some contents =>
            let events := query.within contents.values
            if events.any query.isBehindCursor then false
            else if events.length < contents.values.length then torn
            else stallsIn codec disk query seed rest (torn || isTorn segment contents)

/-- The scan of the query comes to an unfinished record of an unsealed segment and to no
record behind the cursor. -/
def stalls (codec : Codec) (disk : Disk) (port : String) (query : EventQuery) : Bool :=
  let segments := scannedSegments codec disk port query
  stallsIn codec disk query (seedSegment query segments) segments false

/-! ## Discovery -/

section

variable {codec : Codec} {disk : Disk} {port : String}

theorem gives_scanLastSeqForQuery (path : Path) (header : SegmentHeader) (tailBytes : ℕ)
    (records : List (TimelineEvent × ℕ)) (last : Option ℕ) :
    Gives (scanLastSeqForQuery path header tailBytes records last) fun result =>
      result = ((records.map Prod.fst).getLast?.map TimelineEvent.seq).or last := by
  induction records generalizing last with
  | nil =>
      unfold scanLastSeqForQuery
      apply gives_any.bind
      intro _ _
      apply gives_any.bind
      intro _ _
      exact gives_pure rfl
  | cons record records ih =>
      obtain ⟨event, size⟩ := record
      unfold scanLastSeqForQuery
      apply gives_any.bind
      intro _ _
      apply gives_any.bind
      intro _ _
      apply gives_ite
      · intro _
        apply (ih (some event.seq)).mono
        intro result hresult
        rw [hresult, List.map_cons, List.getLast?_cons]
        cases (records.map Prod.fst).getLast? <;> rfl
      · intro _
        exact gives_throw

theorem gives_namedOrScanned (path : Path) (header : SegmentHeader)
    (contents : Contents TimelineEvent) (named : Option ℕ) :
    Gives (match named with
      | some lastSeq => (return some lastSeq : QueryM (Option ℕ))
      | none => scanLastSeqForQuery path header contents.tailBytes contents.records none)
      fun result => result = named.or (lastRecordSeq contents) := by
  cases named with
  | some lastSeq => exact gives_pure rfl
  | none =>
      apply (gives_scanLastSeqForQuery path header contents.tailBytes contents.records none).mono
      intro result hresult
      rw [hresult, Option.or_none]
      rfl

theorem gives_describeCandidate (epoch : Uuid) (path : Path) :
    Gives (describeCandidate codec disk port epoch path) fun result =>
      result = segmentAt codec disk namedLastSeq path := by
  unfold describeCandidate segmentAt
  apply gives_any.bind
  intro _ _
  cases disk.lookup path with
  | none => exact gives_pure rfl
  | some bytes =>
      apply Gives.bind (gives_lift fun found hfound => hfound)
      rintro ⟨header, dataOffset⟩ hread
      dsimp only
      rw [hread]
      dsimp only
      apply gives_any.bind
      intro _ _
      apply gives_ite
      · intro _
        exact gives_throw
      · intro _
        apply (gives_namedOrScanned path header _ _).bind
        intro lastSeq hlast
        rw [hlast]
        exact gives_pure rfl

theorem gives_describeCandidates (epoch : Uuid) (paths : List Path) :
    Gives (describeCandidates codec disk port epoch paths) fun result =>
      result = paths.filterMap (segmentAt codec disk namedLastSeq) := by
  induction paths with
  | nil => exact gives_pure rfl
  | cons path paths ih =>
      unfold describeCandidates
      apply (gives_describeCandidate epoch path).bind
      intro described hdescribed
      apply ih.bind
      intro rest hrest
      apply gives_pure
      rw [List.filterMap_cons, ← hdescribed, hrest]
      cases described <;> rfl

theorem gives_listCandidates (query : EventQuery) (paths : List Path) (candidates : Candidates) :
    Gives (listCandidates query paths candidates) fun result =>
      result = paths.foldl (addCandidate query) candidates := by
  induction paths generalizing candidates with
  | nil => exact gives_pure rfl
  | cons path paths ih =>
      unfold listCandidates
      apply gives_any.bind
      intro _ _
      exact ih _

theorem gives_describeSlotFile (found : List SegmentDescriptor) (path : Path) :
    Gives (describeSlotFile codec disk port found path) fun result =>
      result = found ++ (if path.isSealed || path.isOpen then
        (segmentAt codec disk (fun path _ => parseSealedLastSeq path) path).toList else []) := by
  unfold describeSlotFile segmentAt
  apply gives_any.bind
  intro _ _
  apply gives_ite
  · intro hsegment
    rw [if_pos hsegment]
    apply gives_ite
    · intro _
      exact gives_throw
    · intro _
      cases disk.lookup path with
      | none => exact gives_pure (by simp)
      | some bytes =>
          apply Gives.bind (gives_lift fun found hfound => hfound)
          rintro ⟨header, dataOffset⟩ hread
          dsimp only
          rw [hread]
          dsimp only
          apply gives_any.bind
          intro _ _
          apply gives_ite
          · intro _
            exact gives_throw
          · intro _
            apply (gives_namedOrScanned path header _ _).bind
            intro lastSeq hlast
            rw [hlast]
            exact gives_pure rfl
  · intro hsegment
    rw [if_neg hsegment]
    exact gives_pure (by simp)

theorem gives_describeSlotFiles (paths : List Path) (found : List SegmentDescriptor) :
    Gives (paths.foldlM (describeSlotFile codec disk port) found) fun result =>
      result = found ++ ((paths.filter fun path => path.isSealed || path.isOpen).filterMap
        (segmentAt codec disk fun path _ => parseSealedLastSeq path)) := by
  induction paths generalizing found with
  | nil => exact gives_pure (by simp)
  | cons path paths ih =>
      rw [List.foldlM_cons]
      apply (gives_describeSlotFile found path).bind
      intro next hnext
      apply (ih next).mono
      intro result hresult
      rw [hresult, hnext, List.append_assoc, List.filter_cons]
      congr 1
      by_cases hsegment : (path.isSealed || path.isOpen) = true
      · rw [if_pos hsegment, if_pos hsegment, List.filterMap_cons]
        cases segmentAt codec disk (fun path _ => parseSealedLastSeq path) path <;> rfl
      · rw [if_neg hsegment, if_neg hsegment, List.nil_append]

theorem gives_discoverDirectories (directories : List Directory) (count : ℕ)
    (found : List SegmentDescriptor) :
    Gives (discoverDirectories codec disk port directories count found) fun result =>
      result = found ++ (((directories.flatMap (filesIn disk)).filter fun path =>
        path.isSealed || path.isOpen).filterMap
          (segmentAt codec disk fun path _ => parseSealedLastSeq path)) := by
  induction directories generalizing count found with
  | nil => exact gives_pure (by simp)
  | cons directory directories ih =>
      unfold discoverDirectories
      apply gives_any.bind
      intro _ _
      apply gives_ite
      · intro _
        exact gives_throw
      · intro _
        apply (gives_describeSlotFiles (filesIn disk directory) found).bind
        intro next hnext
        apply (ih (count + 1) next).mono
        intro result hresult
        rw [hresult, hnext, List.flatMap_cons, List.filter_append, List.filterMap_append,
          List.append_assoc]

theorem filesIn_eq_nil {directory : Directory}
    (h : ∀ path ∈ disk.keys, path.directory ≠ directory) : filesIn disk directory = [] := by
  apply List.filter_eq_nil_iff.mpr
  intro path hpath
  simpa using h path hpath

theorem gives_discoverSegmentsForQuery (query : EventQuery) :
    Gives (discoverSegmentsForQuery codec disk port query) fun result =>
      result.descriptors = querySegments codec disk port query := by
  unfold discoverSegmentsForQuery querySegments
  cases query.epoch with
  | some epoch =>
      unfold discoverEpochSegmentsForQuery
      apply (gives_listCandidates query _ _).bind
      intro candidates hcandidates
      dsimp only
      rw [← hcandidates]
      apply gives_ite
      · intro _
        exact gives_throw
      · intro _
        apply (gives_describeCandidates epoch _).bind
        intro descriptors hdescriptors
        exact gives_pure hdescriptors
  | none =>
      apply gives_ite
      · intro hempty
        apply gives_pure
        have hnone : ∀ directory, directory.isBelowSlot port = true → filesIn disk directory = [] := by
          intro directory hbelow
          apply filesIn_eq_nil
          rintro path hpath rfl
          have := List.all_eq_true.mp hempty path hpath
          rw [hbelow] at this
          cases this
        have hall : (directoriesBelow disk port).flatMap (filesIn disk) = [] := by
          rw [List.flatMap_eq_nil_iff]
          intro directory hdirectory
          apply hnone
          unfold directoriesBelow at hdirectory
          rcases List.mem_cons.mp hdirectory with rfl | hmem
          · simp [Directory.isBelowSlot]
          · have hfilter := (List.mem_filter.mp (List.mem_dedup.mp hmem)).2
            exact (Bool.and_eq_true_iff.mp hfilter).1
        rw [hall]
        rfl
      · intro _
        apply (gives_discoverDirectories _ 0 []).bind
        intro descriptors hdescriptors
        apply gives_pure
        rw [hdescriptors, List.nil_append]

theorem gives_selectEpoch (query : EventQuery) (descriptors : List SegmentDescriptor) :
    Gives (selectEpoch codec disk port query descriptors) fun result =>
      scanOrder result descriptors = scanOrder (queryEpoch query descriptors) descriptors ∧
        (descriptors ≠ [] → result.isSome = true) := by
  unfold selectEpoch
  change Gives (match queryEpoch query descriptors with
    | some epoch => (return some epoch : QueryM (Option Uuid))
    | none => findLatestGapEpoch codec disk port) _
  cases hepoch : queryEpoch query descriptors with
  | some epoch => exact gives_pure ⟨rfl, fun _ => rfl⟩
  | none =>
      have hnil : descriptors = [] := by
        cases descriptors with
        | nil => rfl
        | cons segment rest =>
            have hmax := maxByKey_isSome SegmentDescriptor.laterKey (List.cons_ne_nil segment rest)
            unfold queryEpoch at hepoch
            rw [Option.or_eq_none_iff, Option.map_eq_none_iff] at hepoch
            rw [hepoch.2] at hmax
            cases hmax
      rw [hnil]
      exact gives_any.mono fun _ _ => ⟨rfl, fun h => absurd rfl h⟩

end

/-! ## The cursor during a scan -/

/-- The scan has come behind the cursor. -/
def Scan.IsMoved (scan : Scan) (query : EventQuery) : Prop :=
  cursorProgressed scan.lastScannedSeq query.afterSeq = true

/-- The scan has found nothing behind the cursor. -/
structure Scan.IsUnmoved (scan : Scan) (query : EventQuery) : Prop where
  lastScannedSeq : scan.lastScannedSeq = query.afterSeq
  events : scan.events = []

/-- What a part of the scan does to the cursor: it moves the cursor, or finds nothing
behind it and then ends as `outcome` says. -/
def Scan.Advances (query : EventQuery) (moves : Prop) (scan scan' : Scan) (outcome : Prop) : Prop :=
  (scan'.IsMoved query ∧ (scan.IsMoved query ∨ moves)) ∨
    (scan.IsUnmoved query ∧ ¬moves ∧ scan'.IsUnmoved query ∧ outcome)

/-- Two states of a scan which differ in nothing that a response's cursor depends on. -/
structure Scan.SameCursor (scan scan' : Scan) : Prop where
  lastScannedSeq : scan'.lastScannedSeq = scan.lastScannedSeq
  events : scan'.events = scan.events
  truncated : scan'.truncated = scan.truncated

section

variable {query : EventQuery} {scan scan' scan'' : Scan}

theorem cursorProgressed_self (after : Option ℕ) : cursorProgressed after after = false := by
  cases after with
  | none => rfl
  | some after => exact decide_eq_false (lt_irrefl _)

theorem Scan.IsUnmoved.not_moved (h : scan.IsUnmoved query) : ¬scan.IsMoved query := by
  unfold Scan.IsMoved
  rw [h.lastScannedSeq, cursorProgressed_self]
  exact Bool.false_ne_true

theorem Scan.SameCursor.trans (h : scan.SameCursor scan') (h' : scan'.SameCursor scan'') :
    scan.SameCursor scan'' where
  lastScannedSeq := h'.lastScannedSeq.trans h.lastScannedSeq
  events := h'.events.trans h.events
  truncated := h'.truncated.trans h.truncated

theorem Scan.SameCursor.moved_iff (h : scan.SameCursor scan') :
    scan'.IsMoved query ↔ scan.IsMoved query := by
  unfold Scan.IsMoved
  rw [h.lastScannedSeq]

theorem Scan.SameCursor.unmoved (h : scan.SameCursor scan') (hscan : scan.IsUnmoved query) :
    scan'.IsUnmoved query where
  lastScannedSeq := h.lastScannedSeq.trans hscan.lastScannedSeq
  events := h.events.trans hscan.events

theorem Scan.account_sameCursor {search : Search} {event : TimelineEvent}
    (h : scan.account search event = .ok scan') : scan.SameCursor scan' := by
  unfold Scan.account at h
  split_ifs at h with hfloor
  · obtain ⟨accounted, haccounted, hrest⟩ := Except.exists_of_bind_ok h
    cases hrest
    split_ifs at haccounted with hgap
    · obtain ⟨gaps, -, hgaps⟩ := Except.exists_of_bind_ok haccounted
      cases hgaps
      exact ⟨rfl, rfl, rfl⟩
    · cases haccounted
      exact ⟨rfl, rfl, rfl⟩
  · cases h
    exact ⟨rfl, rfl, rfl⟩

theorem Scan.observe_sameCursor (search : Search) (event : TimelineEvent) :
    scan.SameCursor ((scan.follow event).observe search event).2 := by
  unfold Scan.observe
  split_ifs
  · exact ⟨rfl, rfl, rfl⟩
  · exact ⟨rfl, rfl, rfl⟩

theorem Scan.reach_of_moved (seq : ℕ) (h : scan.IsMoved query) : (scan.reach seq).IsMoved query := by
  unfold Scan.IsMoved Scan.reach at *
  cases hlast : scan.lastScannedSeq with
  | none =>
      rw [hlast] at h
      cases h
  | some last =>
      rw [hlast] at h
      cases hafter : query.afterSeq with
      | none => rfl
      | some after =>
          rw [hafter] at h
          have hlt : after < last := of_decide_eq_true h
          exact decide_eq_true (lt_of_lt_of_le hlt (le_max_left _ _))

theorem Scan.reach_of_behind {event : TimelineEvent} (h : query.isBehindCursor event = true) :
    (scan.reach event.seq).IsMoved query := by
  unfold Scan.IsMoved Scan.reach
  unfold EventQuery.isBehindCursor at h
  cases hafter : query.afterSeq with
  | none => rfl
  | some after =>
      rw [hafter] at h
      have hlt : after < event.seq := of_decide_eq_true h
      cases hlast : scan.lastScannedSeq with
      | none => exact decide_eq_true hlt
      | some last => exact decide_eq_true (lt_of_lt_of_le hlt (le_max_right _ _))

theorem Scan.reach_of_unmoved {event : TimelineEvent} (h : query.isBehindCursor event = false)
    (hscan : scan.IsUnmoved query) : (scan.reach event.seq).IsUnmoved query := by
  unfold EventQuery.isBehindCursor at h
  refine ⟨?_, hscan.events⟩
  unfold Scan.reach
  rw [hscan.lastScannedSeq]
  cases hafter : query.afterSeq with
  | none =>
      rw [hafter] at h
      cases h
  | some after =>
      rw [hafter] at h
      have hle : event.seq ≤ after := not_lt.mp (of_decide_eq_false h)
      simp only [max_eq_left hle]

theorem gives_stopAtBudget (search : Search) :
    Gives (stopAtBudget search scan) fun result =>
      scan.IsMoved search.query ∧ result.2.IsMoved search.query := by
  unfold stopAtBudget
  apply gives_ite
  · intro hmoved
    exact gives_pure ⟨hmoved, hmoved⟩
  · intro _
    apply gives_error
    intro s
    exact ⟨_, rfl⟩

end

section

variable {codec : Codec} {disk : Disk} {search : Search} {segment : SegmentDescriptor}

theorem collect_moved {limitHit : Bool} {scan : Scan} {event : TimelineEvent}
    (hbehind : search.query.isBehindCursor event = true)
    (hscan : scan.IsMoved search.query ∨ scan.IsUnmoved search.query) :
    (collect codec search limitHit scan event).2.IsMoved search.query := by
  unfold collect
  split_ifs with hfull hlimit
  · rcases hscan with hmoved | hunmoved
    · exact hmoved
    · exact absurd hunmoved.events hfull.2
  · exact Scan.reach_of_behind hbehind
  · exact Scan.reach_of_behind hbehind

/-- One record within the query's last sequence number. -/
theorem gives_scanRecord {limitHit : Bool} {scan : Scan} {event : TimelineEvent}
    (hscan : scan.IsMoved search.query ∨ scan.IsUnmoved search.query) :
    Gives (scanRecord codec search segment event limitHit scan) fun result =>
      if search.query.ceiling < event.seq then result = (.stop, scan)
      else
        scan.Advances search.query (search.query.isBehindCursor event = true) result.2
          (result.1 = .next ∧ result.2.truncated = scan.truncated) := by
  unfold scanRecord
  apply gives_ite
  · exact fun _ => gives_throw
  intro _
  apply gives_ite
  · intro hceiling
    apply gives_pure
    rw [if_pos hceiling]
  intro hceiling
  apply Gives.bind (gives_lift fun _ haccount => Scan.account_sameCursor haccount)
  intro accounted haccounted
  simp only [if_neg hceiling]
  have hsame := haccounted.trans (Scan.observe_sameCursor search event)
  rcases hobserved : (accounted.follow event).observe search event with ⟨found, observed⟩
  rw [hobserved] at hsame
  have hobservedScan : observed.IsMoved search.query ∨ observed.IsUnmoved search.query :=
    hscan.imp hsame.moved_iff.mpr hsame.unmoved
  dsimp only
  apply gives_ite
  · intro hmatch
    have hbehind : search.query.isBehindCursor event = true := (Bool.and_eq_true_iff.mp hmatch).1
    exact gives_pure (.inl ⟨collect_moved hbehind hobservedScan, .inr hbehind⟩)
  · intro _
    have hreached : (observed.reach event.seq).IsMoved search.query →
        scan.IsMoved search.query ∨ search.query.isBehindCursor event = true := by
      intro hmoved
      rcases hobservedScan with hscan | hscan
      · exact .inl (hsame.moved_iff.mp hscan)
      · by_contra hnone
        rw [not_or, Bool.not_eq_true] at hnone
        exact (Scan.reach_of_unmoved hnone.2 hscan).not_moved hmoved
    apply gives_ite
    · intro _
      apply (gives_stopAtBudget search).mono
      intro result hresult
      exact .inl ⟨hresult.2, hreached hresult.1⟩
    · intro _
      apply gives_pure
      by_cases hbehind : search.query.isBehindCursor event = true
      · exact .inl ⟨Scan.reach_of_behind hbehind, .inr hbehind⟩
      · rcases hscan with hmoved | hunmoved
        · exact .inl ⟨Scan.reach_of_moved _ (hsame.moved_iff.mpr hmoved), .inl hmoved⟩
        · right
          refine ⟨hunmoved, hbehind, ?_, rfl, hsame.truncated⟩
          exact Scan.reach_of_unmoved (Bool.not_eq_true _ ▸ hbehind) (hsame.unmoved hunmoved)

theorem gives_scanTail {tail : Tail} {limitHit : Bool} {lastGoodSeq : Option ℕ} {scan : Scan}
    (hscan : scan.IsMoved search.query ∨ scan.IsUnmoved search.query) :
    Gives (scanTail search segment tail limitHit lastGoodSeq scan) fun result =>
      scan.Advances search.query False result.2
        (result.1 = .next ∧ result.2.truncated =
          (scan.truncated || (!segment.isSealed && tail ≠ .eof))) := by
  unfold scanTail
  cases tail with
  | eof =>
      apply gives_ite
      · intro _
        apply (gives_stopAtBudget search).mono
        intro result hresult
        exact .inl ⟨hresult.2, .inl hresult.1⟩
      · intro _
        apply gives_pure
        rcases hscan with hmoved | hunmoved
        · exact .inl ⟨hmoved, .inl hmoved⟩
        · exact .inr ⟨hunmoved, not_false, hunmoved, rfl, by simp⟩
  | invalid reason =>
      apply gives_any.bind
      intro gaps _
      apply gives_ite
      · intro _
        apply (gives_stopAtBudget search).mono
        intro result hresult
        exact .inl ⟨hresult.2, .inl hresult.1⟩
      · intro _
        apply gives_pure
        rcases hscan with hmoved | hunmoved
        · exact .inl ⟨hmoved, .inl hmoved⟩
        · refine .inr ⟨hunmoved, not_false, ⟨hunmoved.lastScannedSeq, hunmoved.events⟩, rfl, ?_⟩
          simp

end

/-! ## The cursor after a scan -/

section

variable {query : EventQuery} {scan scan' scan'' : Scan} {first second both : Prop}
  {outcome outcome' outcome'' : Prop}

theorem Scan.Advances.start (h : scan.Advances query first scan' outcome) :
    scan.IsMoved query ∨ scan.IsUnmoved query ∨ first := by
  rcases h with ⟨-, hmoved | hfirst⟩ | ⟨hunmoved, -⟩
  · exact .inl hmoved
  · exact .inr (.inr hfirst)
  · exact .inr (.inl hunmoved)

theorem Scan.Advances.ends (h : scan.Advances query first scan' outcome) :
    scan'.IsMoved query ∨ scan'.IsUnmoved query :=
  h.imp And.left fun h => h.2.2.1

theorem Scan.Advances.trans (h : scan.Advances query first scan' outcome)
    (h' : scan'.Advances query second scan'' outcome') (hboth : both ↔ first ∨ second)
    (houtcome : outcome → outcome' → outcome'') : scan.Advances query both scan'' outcome'' := by
  rcases h' with ⟨hmoved'', hmoved' | hsecond⟩ | ⟨hunmoved', hsecond, hunmoved'', ho'⟩
  · rcases h with ⟨-, hmoved | hfirst⟩ | ⟨-, -, hunmoved', -⟩
    · exact .inl ⟨hmoved'', .inl hmoved⟩
    · exact .inl ⟨hmoved'', .inr (hboth.mpr (.inl hfirst))⟩
    · exact absurd hmoved' hunmoved'.not_moved
  · exact .inl ⟨hmoved'', .inr (hboth.mpr (.inr hsecond))⟩
  · rcases h with ⟨hmoved', -⟩ | ⟨hunmoved, hfirst, -, ho⟩
    · exact absurd hmoved' hunmoved'.not_moved
    · refine .inr ⟨hunmoved, ?_, hunmoved'', houtcome ho ho'⟩
      rw [hboth]
      exact not_or.mpr ⟨hfirst, hsecond⟩

theorem Scan.Advances.imp (h : scan.Advances query first scan' outcome) (hmoves : both ↔ first)
    (houtcome : outcome → outcome') : scan.Advances query both scan' outcome' := by
  rcases h with ⟨hmoved', hstart⟩ | ⟨hunmoved, hfirst, hunmoved', ho⟩
  · exact .inl ⟨hmoved', hstart.imp_right hmoves.mpr⟩
  · exact .inr ⟨hunmoved, fun h => hfirst (hmoves.mp h), hunmoved', houtcome ho⟩

/-- A part of the scan which leaves everything as it is. -/
theorem Scan.Advances.stay (hscan : scan.IsMoved query ∨ scan.IsUnmoved query)
    (hfirst : ¬first) (ho : outcome) : scan.Advances query first scan outcome := by
  rcases hscan with hmoved | hunmoved
  · exact .inl ⟨hmoved, .inl hmoved⟩
  · exact .inr ⟨hunmoved, hfirst, hunmoved, ho⟩

theorem gives_stopAtBudget_advances (search : Search) {ending : Control × Scan → Prop} :
    Gives (stopAtBudget search scan) fun result =>
      scan.Advances search.query first result.2 (ending result) :=
  (gives_stopAtBudget search).mono fun _ hresult => .inl ⟨hresult.2, .inl hresult.1⟩

end

section

variable {codec : Codec} {disk : Disk} {search : Search} {segment : SegmentDescriptor}

/-- How the loop over a segment's records ends when nothing behind the cursor is found. -/
def recordsOutcome (search : Search) (segment : SegmentDescriptor) (tail : Tail)
    (events : List TimelineEvent) (truncated : Bool) (result : Control × Scan) : Prop :=
  if (search.query.within events).length < events.length then
    result.1 = .stop ∧ result.2.truncated = truncated
  else
    result.1 = .next ∧
      result.2.truncated = (truncated || (!segment.isSealed && tail ≠ .eof))

theorem gives_scanRecords (tail : Tail) (tailBytes : ℕ) (records : List (TimelineEvent × ℕ))
    (lastGoodSeq : Option ℕ) {scan : Scan}
    (hscan : scan.IsMoved search.query ∨ scan.IsUnmoved search.query) :
    Gives (scanRecords codec search segment tail tailBytes records lastGoodSeq scan) fun result =>
      scan.Advances search.query
        ((search.query.within (records.map Prod.fst)).any search.query.isBehindCursor = true)
        result.2
        (recordsOutcome search segment tail (records.map Prod.fst) scan.truncated result) := by
  induction records generalizing lastGoodSeq scan with
  | nil =>
      unfold scanRecords
      apply gives_any.bind
      intro _ _
      apply gives_ite
      · exact fun _ => gives_stopAtBudget_advances search
      intro _
      apply gives_any.bind
      intro _ _
      apply gives_any.bind
      intro _ _
      apply (gives_scanTail hscan).mono
      intro result hresult
      exact hresult.imp (by simp [EventQuery.within]) fun h => by
        simpa [recordsOutcome, EventQuery.within] using h
  | cons record records ih =>
      obtain ⟨event, size⟩ := record
      unfold scanRecords
      apply gives_any.bind
      intro _ _
      apply gives_ite
      · exact fun _ => gives_stopAtBudget_advances search
      intro _
      apply gives_any.bind
      intro _ _
      apply gives_any.bind
      intro limitHit _
      apply (gives_scanRecord hscan).bind
      rintro ⟨control, scan'⟩ hrecord
      by_cases hceiling : search.query.ceiling < event.seq
      · rw [if_pos hceiling] at hrecord
        cases hrecord
        have hnone : search.query.within (event :: records.map Prod.fst) = [] := by
          unfold EventQuery.within
          rw [List.takeWhile_cons, if_neg (by simpa using hceiling)]
        apply gives_pure
        apply Scan.Advances.stay hscan
        · simp [hnone]
        · rw [List.map_cons, recordsOutcome, hnone, if_pos (by simp)]
          exact ⟨rfl, rfl⟩
      · rw [if_neg hceiling] at hrecord
        have hsome : search.query.within (event :: records.map Prod.fst) =
            event :: search.query.within (records.map Prod.fst) := by
          unfold EventQuery.within
          rw [List.takeWhile_cons, if_pos (by simpa using hceiling)]
        have hany : (search.query.within (event :: records.map Prod.fst)).any
            search.query.isBehindCursor = true ↔
              search.query.isBehindCursor event = true ∨
                (search.query.within (records.map Prod.fst)).any
                  search.query.isBehindCursor = true := by
          rw [hsome, List.any_cons, Bool.or_eq_true]
        cases control with
        | stop =>
            apply gives_pure
            rcases hrecord with ⟨hmoved, hstart⟩ | ⟨-, -, -, hcontrol, -⟩
            · exact .inl ⟨hmoved, hstart.imp_right fun h => hany.mpr (.inl h)⟩
            · cases hcontrol
        | next =>
            apply (ih (some event.seq) hrecord.ends).mono
            intro result hresult
            refine hrecord.trans hresult hany fun hfirst hrest => ?_
            rw [List.map_cons]
            unfold recordsOutcome at hrest ⊢
            rw [hsome, List.length_cons, List.length_cons, ← hfirst.2]
            simpa using hrest

theorem gives_scanSegment {scan : Scan}
    (hscan : scan.IsMoved search.query ∨ scan.IsUnmoved search.query) :
    Gives (scanSegment codec disk search segment scan) fun result =>
      match readSegment codec disk segment.path with
      | none => scan.Advances search.query False result.2 (result = (.next, scan))
      | some contents =>
          scan.Advances search.query
            ((search.query.within contents.values).any search.query.isBehindCursor = true) result.2
            (recordsOutcome search segment contents.tail contents.values scan.truncated result) := by
  unfold scanSegment readSegment
  apply gives_any.bind
  intro _ _
  apply gives_ite
  · intro _
    apply (gives_stopAtBudget search).mono
    intro result hresult
    split
    · exact .inl ⟨hresult.2, .inl hresult.1⟩
    · exact .inl ⟨hresult.2, .inl hresult.1⟩
  intro _
  cases disk.lookup segment.path with
  | none => exact gives_pure (Scan.Advances.stay hscan not_false rfl)
  | some bytes =>
      apply Gives.bind (gives_lift fun found hfound => hfound)
      rintro ⟨header, dataOffset⟩ hread
      dsimp only
      rw [hread]
      dsimp only
      apply gives_any.bind
      intro _ _
      apply gives_any.bind
      intro _ _
      apply gives_ite
      · exact fun _ => gives_stopAtBudget_advances search
      intro _
      apply gives_ite
      · exact fun _ => gives_throw
      intro _
      exact gives_scanRecords _ _ _ none hscan

theorem stallsIn_mono {query : EventQuery} {seed : Option Uuid}
    {segments : List SegmentDescriptor} (h : stallsIn codec disk query seed segments true = false)
    (torn : Bool) : stallsIn codec disk query seed segments torn = false := by
  induction segments generalizing torn with
  | nil => cases h
  | cons segment rest ih =>
      unfold stallsIn at h ⊢
      split_ifs at h ⊢ with hceiling hskip
      · exact ih h torn
      · cases hread : readSegment codec disk segment.path with
        | none =>
            rw [hread] at h
            exact ih h torn
        | some contents =>
            rw [hread] at h
            dsimp only at h ⊢
            split_ifs at h ⊢ with hany hlength
            · rfl
            · exact ih (by simpa using h) _

theorem gives_scanSegments (segments : List SegmentDescriptor) {scan : Scan}
    (hscan : scan.IsMoved search.query ∨ scan.IsUnmoved search.query) :
    Gives (scanSegments codec disk search segments scan) fun result =>
      scan.Advances search.query
        (stallsIn codec disk search.query search.seed segments true = false) result
        (result.truncated =
          stallsIn codec disk search.query search.seed segments scan.truncated) := by
  induction segments generalizing scan with
  | nil => exact gives_pure (Scan.Advances.stay hscan Bool.noConfusion rfl)
  | cons segment rest ih =>
      unfold scanSegments stallsIn
      by_cases hceiling : search.query.ceiling < segment.header.firstSeq
      · simp only [if_pos hceiling]
        exact gives_pure (Scan.Advances.stay hscan Bool.noConfusion rfl)
      simp only [if_neg hceiling]
      by_cases hskip : (segment.isConsumed search.query &&
          decide (search.seed ≠ some segment.header.segmentId)) = true
      · simp only [if_pos hskip]
        exact ih hscan
      simp only [if_neg hskip]
      apply (gives_scanSegment hscan).bind
      rintro ⟨control, scan'⟩ hsegment
      cases hread : readSegment codec disk segment.path with
      | none =>
          rw [hread] at hsegment
          dsimp only at hsegment ⊢
          cases control with
          | stop =>
              apply gives_pure
              rcases hsegment with ⟨hmoved', hstart⟩ | ⟨-, -, -, hsame⟩
              · exact .inl ⟨hmoved', .inl (hstart.resolve_right id)⟩
              · cases hsame
          | next =>
              apply (ih hsegment.ends).mono
              intro result hresult
              refine hsegment.trans hresult (false_or _).symm.to_iff fun hsame hrest => ?_
              cases hsame
              exact hrest
      | some contents =>
          rw [hread] at hsegment
          dsimp only at hsegment ⊢
          -- Once the cursor has moved, nothing behind the segment matters.
          have hafter : ∀ {moves : Prop} {outcome : Scan → Prop} {behind : QueryM Scan},
              (control = .stop → behind = pure scan') →
              (control = .next → behind = scanSegments codec disk search rest scan') →
              scan'.IsMoved search.query → scan.IsMoved search.query ∨ moves →
              Gives behind fun result =>
                scan.Advances search.query moves result (outcome result) := by
            intro moves outcome behind hstop hnext hmoved' hstart
            cases hcontrol : control with
            | stop =>
                rw [hstop hcontrol]
                exact gives_pure (.inl ⟨hmoved', hstart⟩)
            | next =>
                rw [hnext hcontrol]
                apply (ih (.inl hmoved')).mono
                rintro result (⟨hend, -⟩ | ⟨hunmoved, -⟩)
                · exact .inl ⟨hend, hstart⟩
                · exact absurd hmoved' hunmoved.not_moved
          by_cases hany : (search.query.within contents.values).any
              search.query.isBehindCursor = true
          · rcases hsegment with ⟨hmoved', -⟩ | ⟨-, hnone, -⟩
            · simp only [if_pos hany]
              exact hafter (fun h => by subst h; rfl) (fun h => by subst h; rfl) hmoved'
                (.inr trivial)
            · exact absurd hany hnone
          · simp only [if_neg hany]
            rcases hsegment with ⟨hmoved', hstart⟩ | ⟨hunmoved, -, hunmoved', houtcome⟩
            · exact hafter (fun h => by subst h; rfl) (fun h => by subst h; rfl) hmoved'
                (.inl (hstart.resolve_right hany))
            · unfold recordsOutcome at houtcome
              split_ifs at houtcome with hlength
              · obtain ⟨hcontrol, htruncated⟩ := houtcome
                cases hcontrol
                simp only [if_pos hlength]
                exact gives_pure (.inr ⟨hunmoved, Bool.noConfusion, hunmoved', htruncated⟩)
              · obtain ⟨hcontrol, htruncated⟩ := houtcome
                cases hcontrol
                simp only [if_neg hlength]
                apply (ih (.inr hunmoved')).mono
                rintro result (⟨hend, hmoved' | hrest⟩ | ⟨-, hrest, hend, hresult⟩)
                · exact absurd hmoved' hunmoved'.not_moved
                · exact .inl ⟨hend, .inr hrest⟩
                · refine .inr ⟨hunmoved, hrest, hend, ?_⟩
                  rw [hresult]
                  dsimp only at htruncated
                  rw [htruncated]
                  rfl

end

end SerialPlatform.Journal
