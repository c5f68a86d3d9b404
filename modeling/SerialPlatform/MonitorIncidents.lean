import SerialPlatform.MonitorMatches

/-!
# Incidents of a stream

A push gives an incident when one of the conditions has matched, and the incident names the
events with the first and the last byte of what they matched.
-/

namespace SerialPlatform.Monitor

example : literalStops [97, 97, 97] [97, 97] 0 = [2] := by decide +kernel

/-- A match lies in the bytes, behind where it was searched for. -/
def Regex.Within (expression : Regex) : Prop :=
  ∀ bytes searchAt start stop, expression.findAt bytes searchAt = some (start, stop) →
    searchAt ≤ start ∧ start ≤ stop ∧ stop ≤ bytes.length

/-- What a condition needs to search: a literal which is not empty, or a sound engine. -/
def CompiledMatcher.IsSound : CompiledMatcher → Prop
  | .literal pattern => pattern ≠ []
  | .regex expression _ _ _ => expression.Within

/-- The range of the stream which a condition reports when an event is pushed. -/
def StreamMatcher.reportedBy (matcher : StreamMatcher) (index : ℕ) (event : TimelineEvent) :
    Option (ℕ × ℕ) :=
  if event.data = [] then none
  else
    let window := matcher.extend event
    (window.scans[index]?.bind Prod.fst).map fun range =>
      (absoluteOffset window.baseOffset range.1, absoluteOffset window.baseOffset range.2)

section

variable {condition : CompiledCondition} {bytes : Bytes} {baseOffset start stop : ℕ}
  {window matcher : StreamMatcher} {expression : Regex} {event : TimelineEvent}

/-! ## Ranges -/

theorem findRegexMatchesFrom_within (hwithin : expression.Within) {turns searchAt : ℕ}
    {range : Option (ℕ × ℕ)}
    (hrange : ∀ start stop, range = some (start, stop) →
      start < stop ∧ stop ≤ searchAt ∧ stop ≤ bytes.length)
    (h : (findRegexMatchesFrom expression bytes turns range searchAt).1 = some (start, stop)) :
    start < stop ∧ stop ≤ bytes.length := by
  induction turns generalizing range searchAt with
  | zero =>
      have hlast := hrange start stop h
      exact ⟨hlast.1, hlast.2.2⟩
  | succ turns ih =>
      have hdone : range = some (start, stop) → start < stop ∧ stop ≤ bytes.length := by
        intro hsame
        have hlast := hrange start stop hsame
        exact ⟨hlast.1, hlast.2.2⟩
      unfold findRegexMatchesFrom at h
      split at h
      case isFalse => exact hdone h
      case isTrue =>
        cases hfind : expression.findAt bytes searchAt with
        | none =>
            rw [hfind] at h
            exact hdone h
        | some found =>
            obtain ⟨foundStart, foundStop⟩ := found
            obtain ⟨hbehind, hordered, hinside⟩ := hwithin bytes searchAt _ _ hfind
            rw [hfind] at h
            dsimp only at h
            split at h
            case isTrue =>
              split at h
              case isTrue => exact hdone h
              case isFalse =>
                refine ih (fun first last hsame => ?_) h
                have hlast := hrange first last hsame
                exact ⟨hlast.1, by omega, hlast.2.2⟩
            case isFalse hne =>
              refine ih (fun first last hsame => ?_) h
              cases range with
              | none =>
                  cases hsame
                  exact ⟨by omega, le_refl _, hinside⟩
              | some old =>
                  obtain ⟨oldStart, oldStop⟩ := old
                  have hold := hrange oldStart oldStop rfl
                  cases hsame
                  exact ⟨by omega, le_refl _, hinside⟩

theorem findRegexMatches_within (hwithin : expression.Within) {searchAt : ℕ}
    (h : (findRegexMatches expression bytes searchAt).1 = some (start, stop)) :
    start < stop ∧ stop ≤ bytes.length :=
  findRegexMatchesFrom_within hwithin (fun _ _ hnone => by cases hnone) h

theorem searchRegex_fst {maximumLen : Option ℕ} {literalPrefix requiredLiteral : Bytes} :
    (searchRegex condition expression maximumLen literalPrefix requiredLiteral bytes
      baseOffset).1 =
      (findRegexMatches expression bytes
        (relativeOffset condition.searchAfter baseOffset bytes.length)).1 := rfl

theorem scanCondition_within (hsound : condition.compiled.IsSound)
    (h : (scanCondition condition window.bytes window.baseOffset).1 = some (start, stop)) :
    start < stop ∧ stop ≤ window.bytes.length := by
  cases hcompiled : condition.compiled with
  | literal pattern =>
      rw [hcompiled] at hsound
      have hpositive : 0 < pattern.length := List.length_pos_iff.mpr hsound
      have hlocal : IsLeftmost pattern window.bytes (searchOrigin window condition)
          (literalStops window.bytes pattern (searchOrigin window condition)) :=
        isLeftmost_literalStops hsound
      rw [scanCondition_literal hcompiled] at h
      cases hstops : literalStops window.bytes pattern (searchOrigin window condition) with
      | nil =>
          rw [hstops] at h
          cases h
      | cons first others =>
          rw [hstops] at h hlocal
          have hfirst := hlocal.behind first List.mem_cons_self
          have hlast : (first :: others).getLast?.getD first ∈ first :: others := by
            rw [List.getLast?_eq_some_getLast (List.cons_ne_nil first others), Option.getD_some]
            exact List.getLast_mem _
          have hends := (hlocal.occurs _ hlast).1
          have hle : first ≤ (first :: others).getLast?.getD first := by
            rcases List.mem_cons.mp hlast with hsame | hbehind
            · exact hsame.ge
            · have hapart := (List.pairwise_cons.mp hlocal.apart).1 _ hbehind
              omega
          obtain ⟨rfl, rfl⟩ := Prod.mk.inj (Option.some.inj h)
          exact ⟨by omega, hends⟩
  | regex expression maximumLen literalPrefix requiredLiteral =>
      rw [hcompiled] at hsound
      have hscan : scanCondition condition window.bytes window.baseOffset =
          scanRegex condition expression maximumLen literalPrefix requiredLiteral window.bytes
            window.baseOffset := by
        rw [scanCondition, hcompiled]
      rw [hscan, scanRegex] at h
      split at h
      case isTrue =>
        dsimp only at h
        split at h
        · exact findRegexMatches_within hsound h
        · cases h
      case isFalse => exact findRegexMatches_within hsound h

/-! ## What stays of a condition -/

theorem scanCondition_compiled (condition : CompiledCondition) (bytes : Bytes) (baseOffset : ℕ) :
    (scanCondition condition bytes baseOffset).2.compiled = condition.compiled := by
  unfold scanCondition
  split
  · rfl
  · unfold scanRegex
    split
    · dsimp only
      split <;> rfl
    · rfl

theorem push_compiled (matcher : StreamMatcher) (event : TimelineEvent) :
    (matcher.push event).2.matchers.map CompiledCondition.compiled =
      matcher.matchers.map CompiledCondition.compiled := by
  by_cases hdata : event.data = []
  · rw [push_of_nil hdata]
  · rw [push_of_ne_nil hdata]
    have hextend : (matcher.extend event).matchers.map CompiledCondition.compiled =
        matcher.matchers.map CompiledCondition.compiled := by
      unfold StreamMatcher.extend
      dsimp only
      split
      · dsimp only
        rw [List.map_map]
        rfl
      · rfl
    have hscans : ((matcher.extend event).scans.map Prod.snd).map CompiledCondition.compiled =
        (matcher.extend event).matchers.map CompiledCondition.compiled := by
      rw [StreamMatcher.scans, List.map_map, List.map_map]
      exact List.map_congr_left fun condition _ => scanCondition_compiled _ _ _
    rw [← hextend, ← hscans]
    unfold StreamMatcher.trim
    split
    · rfl
    · dsimp only
      rw [List.map_map]
      rfl

theorem after_compiled (matcher : StreamMatcher) (events : List TimelineEvent) :
    (matcher.after events).matchers.map CompiledCondition.compiled =
      matcher.matchers.map CompiledCondition.compiled := by
  induction events using List.reverseRecOn with
  | nil => rfl
  | append_singleton events event ih => rw [after_concat, push_compiled, ih]

/-! ## Incidents -/

theorem mem_matchRanges {range : StreamMatcher.MatchRange} (h : range ∈ window.matchRanges) :
    ∃ condition ∈ window.matchers,
      (scanCondition condition window.bytes window.baseOffset).1 =
        some (range.start, range.stop) := by
  unfold StreamMatcher.matchRanges at h
  rw [List.mem_insertionSort, List.mem_filterMap] at h
  obtain ⟨scan, hscan, hrange⟩ := h
  obtain ⟨pair, hpair, rfl⟩ := Option.map_eq_some_iff.mp hrange
  have hmem := List.fst_mem_of_mem_zipIdx hscan
  obtain ⟨condition, hcondition, hsame⟩ := List.mem_map.mp hmem
  exact ⟨condition, hcondition, by rw [hsame, hpair]⟩

theorem exists_matchRange (hcondition : condition ∈ window.matchers)
    (h : (scanCondition condition window.bytes window.baseOffset).1 = some (start, stop)) :
    ∃ range ∈ window.matchRanges, range.start = start ∧ range.stop = stop := by
  have hmem : scanCondition condition window.bytes window.baseOffset ∈ window.scans :=
    List.mem_map_of_mem hcondition
  obtain ⟨index, hindex⟩ := List.mem_iff_getElem?.mp hmem
  refine ⟨⟨start, stop, index,
    (scanCondition condition window.bytes window.baseOffset).2.matcher⟩, ?_, rfl, rfl⟩
  unfold StreamMatcher.matchRanges
  rw [List.mem_insertionSort, List.mem_filterMap]
  refine ⟨(scanCondition condition window.bytes window.baseOffset, index),
    List.mk_mem_zipIdx_iff_getElem?.mpr hindex, ?_⟩
  rw [h]
  rfl

theorem mem_reported {range : ℕ × ℕ} (hdata : event.data ≠ []) :
    range ∈ matcher.reported event ↔
      ∃ found ∈ (matcher.extend event).matchRanges,
        range = (absoluteOffset (matcher.extend event).baseOffset found.start,
          absoluteOffset (matcher.extend event).baseOffset found.stop) := by
  rw [StreamMatcher.reported, if_neg hdata]
  dsimp only
  rw [List.mem_filterMap]
  constructor
  · rintro ⟨scan, hscan, hrange⟩
    obtain ⟨condition, hcondition, rfl⟩ := List.mem_map.mp hscan
    obtain ⟨⟨start, stop⟩, hpair, rfl⟩ := Option.map_eq_some_iff.mp hrange
    obtain ⟨found, hfound, rfl, rfl⟩ := exists_matchRange hcondition hpair
    exact ⟨found, hfound, rfl⟩
  · rintro ⟨found, hfound, rfl⟩
    obtain ⟨condition, hcondition, hpair⟩ := mem_matchRanges hfound
    refine ⟨_, List.mem_map_of_mem hcondition, ?_⟩
    rw [hpair]
    rfl

theorem exists_min? {values : List ℕ} (hvalues : values ≠ []) :
    ∃ least ∈ values, values.min? = some least ∧ ∀ value ∈ values, least ≤ value := by
  cases hmin : values.min? with
  | none => exact absurd (List.min?_eq_none_iff.mp hmin) hvalues
  | some least =>
      obtain ⟨hmem, hle⟩ := List.min?_eq_some_iff.mp hmin
      exact ⟨least, hmem, rfl, hle⟩

theorem exists_max? {values : List ℕ} (hvalues : values ≠ []) :
    ∃ greatest ∈ values, values.max? = some greatest ∧ ∀ value ∈ values, value ≤ greatest := by
  cases hmax : values.max? with
  | none => exact absurd (List.max?_eq_none_iff.mp hmax) hvalues
  | some greatest =>
      obtain ⟨hmem, hle⟩ := List.max?_eq_some_iff.mp hmax
      exact ⟨greatest, hmem, rfl, hle⟩

variable {offset : ℕ} {events : List TimelineEvent}

/-- The chunks of a range of the window. -/
theorem incidentFor_spec (event : TimelineEvent) (hwindow : Window offset events window) (hordered : start < stop)
    (hinside : stop ≤ window.bytes.length) (found : List MonitorMatch) :
    ∃ incident, window.incidentFor start stop found event = some incident ∧
      HoldsByte offset events (window.baseOffset + start) incident.seqStart ∧
      HoldsByte offset events (window.baseOffset + stop - 1) incident.seqEnd := by
  have hlength := hwindow.length_eq
  have hbegins := hwindow.begins
  obtain ⟨first, hfirst⟩ : ∃ chunk, (chunksFrom offset events).find?
      (fun chunk => window.baseOffset + start < chunk.stop) = some chunk :=
    exists_find?_chunksFrom (by omega) (by omega)
  obtain ⟨last, hlast⟩ : ∃ chunk, (chunksFrom offset events).find?
      (fun chunk => window.baseOffset + stop - 1 < chunk.stop) = some chunk :=
    exists_find?_chunksFrom (by omega) (by omega)
  have hpast : ∀ position, window.baseOffset ≤ position → ∀ chunk : MatchChunk,
      chunk.stop ≤ window.baseOffset → decide (position < chunk.stop) = false :=
    fun position hle chunk hold => decide_eq_false (by omega)
  have hreaches : (fun chunk : MatchChunk => decide (window.baseOffset + stop ≤ chunk.stop)) =
      fun chunk => decide (window.baseOffset + stop - 1 < chunk.stop) := by
    funext chunk
    rw [decide_eq_decide]
    omega
  have hfirstChunk : window.chunks.find? (fun chunk => window.baseOffset + start < chunk.stop) =
      some first := by
    rw [hwindow.find?_eq (hpast _ (by omega)), hfirst]
  have hlastChunk : window.chunks.find? (fun chunk => window.baseOffset + stop ≤ chunk.stop) =
      some last := by
    rw [hreaches, hwindow.find?_eq (hpast _ (by omega)), hlast]
  unfold StreamMatcher.incidentFor
  rw [hwindow.absoluteOffset_eq (by omega : start ≤ window.bytes.length),
    hwindow.absoluteOffset_eq hinside]
  dsimp only
  rw [hfirstChunk, hlastChunk]
  exact ⟨_, rfl, holdsByte_of_find? (by omega) hfirst, holdsByte_of_find? (by omega) hlast⟩

/-- An incident stands for what the conditions have matched in a window. -/
theorem incident_spec (event : TimelineEvent) (hwindow : Window offset events window)
    (hsound : ∀ condition ∈ window.matchers, condition.compiled.IsSound) :
    (window.matchRanges = [] → window.incident event = none) ∧
      (window.matchRanges ≠ [] → ∃ incident, window.incident event = some incident ∧
        (∃ first ∈ window.matchRanges,
          (∀ range ∈ window.matchRanges, first.start ≤ range.start) ∧
            HoldsByte offset events (window.baseOffset + first.start) incident.seqStart) ∧
        ∃ last ∈ window.matchRanges,
          (∀ range ∈ window.matchRanges, range.stop ≤ last.stop) ∧
            HoldsByte offset events (window.baseOffset + last.stop - 1) incident.seqEnd) := by
  have hinside : ∀ range ∈ window.matchRanges,
      range.start < range.stop ∧ range.stop ≤ window.bytes.length := by
    intro range hrange
    obtain ⟨condition, hcondition, hscan⟩ := mem_matchRanges hrange
    exact scanCondition_within (hsound condition hcondition) hscan
  unfold StreamMatcher.incident
  dsimp only
  refine ⟨fun hnone => by rw [hnone], fun hsome => ?_⟩
  have hstarts : window.matchRanges.map StreamMatcher.MatchRange.start ≠ [] :=
    fun hnil => hsome (List.map_eq_nil_iff.mp hnil)
  have hstops : window.matchRanges.map StreamMatcher.MatchRange.stop ≠ [] :=
    fun hnil => hsome (List.map_eq_nil_iff.mp hnil)
  obtain ⟨start, hstart, hmin, hleast⟩ := exists_min? hstarts
  obtain ⟨stop, hstop, hmax, hgreatest⟩ := exists_max? hstops
  obtain ⟨first, hfirst, rfl⟩ := List.mem_map.mp hstart
  obtain ⟨last, hlast, rfl⟩ := List.mem_map.mp hstop
  have hordered : first.start < last.stop :=
    lt_of_lt_of_le (hinside first hfirst).1 (hgreatest _ (List.mem_map_of_mem hfirst))
  simp only [hmin, hmax, Option.getD_some]
  obtain ⟨incident, hincident, hfirstByte, hlastByte⟩ :=
    incidentFor_spec event hwindow hordered (hinside last hlast).2
      (window.matchRanges.map fun range => ⟨range.index, range.matcher⟩)
  refine ⟨incident, ?_,
    ⟨first, hfirst, fun range hrange => hleast _ (List.mem_map_of_mem hrange), hfirstByte⟩,
    ⟨last, hlast, fun range hrange => hgreatest _ (List.mem_map_of_mem hrange), hlastByte⟩⟩
  cases hranges : window.matchRanges with
  | nil => exact absurd hranges hsome
  | cons head rest =>
      rw [hranges] at hincident
      exact hincident

/-- What a push reports and the incident which it gives. -/
theorem push_incident {before : List TimelineEvent} (htracks : Tracks offset before matcher)
    (hevents : Contiguous offset (before ++ [event]))
    (hsound : ∀ condition ∈ matcher.matchers, condition.compiled.IsSound) :
    ((matcher.push event).1.isSome ↔ matcher.reported event ≠ []) ∧
      ∀ incident, (matcher.push event).1 = some incident →
        ∃ first last,
          IsLeast {start | ∃ stop, (start, stop) ∈ matcher.reported event} first ∧
          IsGreatest {stop | ∃ start, (start, stop) ∈ matcher.reported event} last ∧
          HoldsByte offset (before ++ [event]) first incident.seqStart ∧
          HoldsByte offset (before ++ [event]) (last - 1) incident.seqEnd := by
  by_cases hdata : event.data = []
  · rw [push_of_nil hdata, StreamMatcher.reported, if_pos hdata]
    exact ⟨⟨fun h => (by cases h), fun h => absurd rfl h⟩, fun incident h => (by cases h)⟩
  · obtain ⟨hwindow, hmatchers⟩ := htracks.extend hdata hevents
    rw [← hmatchers] at hsound
    obtain ⟨hnone, hsome⟩ := incident_spec event hwindow hsound
    have hranges : (matcher.extend event).matchRanges = [] ↔ matcher.reported event = [] := by
      rw [List.eq_nil_iff_forall_not_mem, List.eq_nil_iff_forall_not_mem]
      constructor
      · intro hempty range hrange
        obtain ⟨found, hfound, -⟩ := (mem_reported hdata).mp hrange
        exact hempty found hfound
      · exact fun hempty found hfound => hempty _ ((mem_reported hdata).mpr ⟨found, hfound, rfl⟩)
    have habsolute : ∀ found ∈ (matcher.extend event).matchRanges,
        absoluteOffset (matcher.extend event).baseOffset found.start =
            (matcher.extend event).baseOffset + found.start ∧
          absoluteOffset (matcher.extend event).baseOffset found.stop =
            (matcher.extend event).baseOffset + found.stop := by
      intro found hfound
      obtain ⟨condition, hcondition, hscan⟩ := mem_matchRanges hfound
      obtain ⟨hordered, hinside⟩ := scanCondition_within (hsound condition hcondition) hscan
      exact ⟨hwindow.absoluteOffset_eq (by omega), hwindow.absoluteOffset_eq hinside⟩
    rw [push_of_ne_nil hdata]
    dsimp only
    constructor
    · constructor
      · intro hincident hempty
        rw [hnone (hranges.mpr hempty)] at hincident
        cases hincident
      · intro hne
        obtain ⟨incident, hincident, -⟩ := hsome fun hempty => hne (hranges.mp hempty)
        rw [hincident]
        rfl
    · intro incident hincident
      have hne : (matcher.extend event).matchRanges ≠ [] := by
        intro hempty
        rw [hnone hempty] at hincident
        cases hincident
      obtain ⟨other, hother, ⟨first, hfirst, hleast, hfirstByte⟩, last, hlast, hgreatest,
        hlastByte⟩ := hsome hne
      obtain rfl := Option.some.inj (hother.symm.trans hincident)
      refine ⟨(matcher.extend event).baseOffset + first.start,
        (matcher.extend event).baseOffset + last.stop, ⟨?_, ?_⟩, ⟨?_, ?_⟩, hfirstByte, hlastByte⟩
      · exact ⟨_, (mem_reported hdata).mpr
          ⟨first, hfirst, by rw [(habsolute first hfirst).1]⟩⟩
      · rintro start ⟨stop, hrange⟩
        obtain ⟨found, hfound, hsame⟩ := (mem_reported hdata).mp hrange
        have hle := hleast found hfound
        rw [(Prod.mk.inj hsame).1, (habsolute found hfound).1]
        omega
      · exact ⟨_, (mem_reported hdata).mpr ⟨last, hlast, by rw [(habsolute last hlast).2]⟩⟩
      · rintro stop ⟨start, hrange⟩
        obtain ⟨found, hfound, hsame⟩ := (mem_reported hdata).mp hrange
        have hle := hgreatest found hfound
        rw [(Prod.mk.inj hsame).2, (habsolute found hfound).2]
        omega

end

/-! ## Specs -/

section

variable {κ : Type} {library : RegexLibrary κ} {spec : MonitorSpec} {matcher : StreamMatcher}
  {offset index : ℕ} {events : List TimelineEvent} {event : TimelineEvent}

theorem validateMatchers_ok {regexError : String → Option String} {matchers : List MonitorMatcher}
    {earlier total : ℕ} (h : validateMatchers regexError matchers earlier = .ok total) :
    ∀ matcher ∈ matchers,
      matcher.value.isEmpty = false ∧ matcher.value.utf8ByteSize ≤ maxMonitorPatternBytes := by
  induction matchers generalizing earlier with
  | nil => exact fun matcher hmem => by cases hmem
  | cons first matchers ih =>
      unfold validateMatchers at h
      split at h
      case isTrue => cases h
      case isFalse hvalid =>
        rw [not_or, Bool.not_eq_true, Nat.not_lt] at hvalid
        have hrest : ∀ matcher ∈ matchers,
            matcher.value.isEmpty = false ∧
              matcher.value.utf8ByteSize ≤ maxMonitorPatternBytes := by
          cases first with
          | contains value => exact ih h
          | regex value =>
              dsimp only at h
              cases hregex : regexError (MonitorMatcher.regex value).value with
              | none =>
                  split at h
                  · cases h
                  · exact ih h
              | some text =>
                  split at h
                  · cases h
                  · exact ih h
        intro matcher hmem
        rcases List.mem_cons.mp hmem with rfl | hmem
        · exact hvalid
        · exact hrest matcher hmem

theorem validateSpec_matchers {regexError : String → Option String}
    (h : validateSpec regexError spec = .ok ()) :
    ∀ matcher ∈ spec.matchers,
      matcher.value.isEmpty = false ∧ matcher.value.utf8ByteSize ≤ maxMonitorPatternBytes := by
  unfold validateSpec at h
  split at h
  · cases h
  · split at h
    · cases h
    · split at h
      · cases h
      · rename_i hmatchers
        exact validateMatchers_ok hmatchers

theorem length_utf8 (text : String) : (HexName.utf8 text).length = text.utf8ByteSize := rfl

theorem utf8_ne_nil {text : String} (h : text.isEmpty = false) : HexName.utf8 text ≠ [] := by
  intro hnil
  have hsize : text.utf8ByteSize = 0 := by rw [← length_utf8, hnil, List.length_nil]
  rw [String.isEmpty, hsize] at h
  cases h

theorem compile_ok (h : StreamMatcher.compile library spec = .ok matcher) :
    List.Forall₂ (fun source condition => compileCondition library source = .ok condition)
        spec.matchers matcher.matchers ∧
      matcher.bytes = [] ∧ matcher.chunks = [] := by
  obtain ⟨matchers, hmatchers, h⟩ := Except.exists_of_bind_ok h
  cases h
  exact ⟨Except.forall₂_of_mapM_ok hmatchers, rfl, rfl⟩

theorem compileCondition_contains {literal : String} {condition : CompiledCondition}
    (h : compileCondition library (.contains literal) = .ok condition) :
    condition.compiled = .literal (HexName.utf8 literal) ∧ condition.searchAfter = 0 := by
  cases h
  exact ⟨rfl, rfl⟩

theorem compileCondition_regex {source : String} {condition : CompiledCondition}
    (h : compileCondition library (.regex source) = .ok condition) :
    ∃ hir expression, parseRegexHir library source = .ok hir ∧
      library.build source = .ok expression ∧
      condition =
        { matcher := .regex source
          compiled := .regex expression (library.maximumLen hir)
            (analyzeRegexLiterals library.classes hir).literalPrefix
            ((analyzeRegexLiterals library.classes hir).required.getD [])
          searchAfter := 0
          requiredSearchAfter := 0
          pendingRequiredAt := none } := by
  obtain ⟨compiled, hcompiled, h⟩ := Except.exists_of_bind_ok h
  cases h
  dsimp only [compileMatcher] at hcompiled
  cases hhir : parseRegexHir library source with
  | error text =>
      rw [hhir] at hcompiled
      cases hcompiled
  | ok hir =>
      rw [hhir] at hcompiled
      cases hbuild : library.build source with
      | error text =>
          rw [hbuild] at hcompiled
          cases hcompiled
      | ok expression =>
          rw [hbuild] at hcompiled
          cases hcompiled
          exact ⟨hir, expression, rfl, rfl, rfl⟩

theorem compileCondition_isSound
    (hengine : ∀ source expression, library.build source = .ok expression → expression.Within)
    {source : MonitorMatcher} {condition : CompiledCondition}
    (hvalid : source.value.isEmpty = false)
    (h : compileCondition library source = .ok condition) : condition.compiled.IsSound := by
  cases source with
  | contains literal =>
      rw [(compileCondition_contains h).1]
      exact utf8_ne_nil hvalid
  | regex source =>
      obtain ⟨hir, expression, -, hbuild, rfl⟩ := compileCondition_regex h
      exact hengine source expression hbuild

theorem forall₂_exists_left {α β : Type*} {R : α → β → Prop} {items : List α} {results : List β}
    (h : List.Forall₂ R items results) : ∀ b ∈ results, ∃ item ∈ items, R item b := by
  induction h with
  | nil => exact fun b hb => by cases hb
  | cons hfirst _ ih =>
      intro b hb
      rcases List.mem_cons.mp hb with rfl | hb
      · exact ⟨_, List.mem_cons_self, hfirst⟩
      · obtain ⟨item, hitem, hrelated⟩ := ih b hb
        exact ⟨item, List.mem_cons_of_mem _ hitem, hrelated⟩

theorem forall₂_getElem? {α β : Type*} {R : α → β → Prop} {items : List α} {results : List β}
    (h : List.Forall₂ R items results) {index : ℕ} {item : α} (hitem : items[index]? = some item) :
    ∃ b, results[index]? = some b ∧ R item b := by
  induction h generalizing index with
  | nil => cases hitem
  | cons hfirst _ ih =>
      cases index with
      | zero =>
          obtain rfl := Option.some.inj hitem
          exact ⟨_, rfl, hfirst⟩
      | succ index => exact ih hitem

theorem compile_isSound
    (hengine : ∀ source expression, library.build source = .ok expression → expression.Within)
    (hspec : validateSpec library.regexError spec = .ok ())
    (hcompile : StreamMatcher.compile library spec = .ok matcher) :
    ∀ condition ∈ matcher.matchers, condition.compiled.IsSound := by
  intro condition hcondition
  obtain ⟨hall, -⟩ := compile_ok hcompile
  obtain ⟨source, hsource, hcompiled⟩ := forall₂_exists_left hall condition hcondition
  exact compileCondition_isSound hengine (validateSpec_matchers hspec source hsource).1 hcompiled

theorem searched_fresh {pattern : Bytes} {condition : CompiledCondition} (offset : ℕ)
    (hcompiled : condition.compiled = .literal pattern) (hsearch : condition.searchAfter = 0)
    (hpattern : pattern ≠ []) : Searched offset [] pattern [] condition where
  compiled := hcompiled
  leftmost := by
    have hpositive : 0 < pattern.length := List.length_pos_iff.mpr hpattern
    refine IsLeftmost.nil fun stop hends => ?_
    have hstop := hends.1
    rw [List.length_nil] at hstop
    omega
  passed := fun stop hstop => by cases hstop
  covered := by
    intro stop _ hstop hlt
    rw [hsearch] at hlt
    omega
  bounded := by
    rw [hsearch]
    exact Nat.zero_le _

theorem tracks_fresh (offset : ℕ) (hbytes : matcher.bytes = []) (hchunks : matcher.chunks = []) :
    Tracks offset [] matcher where
  fresh := fun _ => ⟨hbytes, hchunks⟩
  window := fun hne => absurd rfl hne

/-- A literal's condition reports from the first to the last range which it takes. -/
theorem reportedBy_eq {before : List TimelineEvent} {condition : CompiledCondition}
    {pattern : Bytes} (htracks : Tracks offset before matcher)
    (hevents : Contiguous offset (before ++ [event]))
    (hcondition : matcher.matchers[index]? = some condition)
    (hcompiled : condition.compiled = .literal pattern) :
    matcher.reportedBy index event =
      (matcher.consumed index event).head?.map fun first =>
        (first.1, ((matcher.consumed index event).getLast?.getD first).2) := by
  unfold StreamMatcher.reportedBy StreamMatcher.consumed
  split
  case isTrue => rfl
  case isFalse hdata =>
    obtain ⟨hwindow, hmatchers⟩ := htracks.extend hdata hevents
    rw [← hmatchers] at hcondition
    dsimp only
    rw [scans_getElem? hcondition, hcondition, Option.bind_some, scanCondition_literal hcompiled,
      Option.map_some, Option.getD_some, CompiledCondition.literalRanges, hcompiled]
    dsimp only
    rw [hull, List.head?_map, List.getLast?_map]
    unfold searchOrigin
    generalize literalStops (matcher.extend event).bytes pattern
      (relativeOffset condition.searchAfter (matcher.extend event).baseOffset
        (matcher.extend event).bytes.length) = stops
    cases stops with
    | nil => rfl
    | cons first rest =>
        rw [List.head?_cons, List.getLast?_cons]
        rfl

/-- Contains conditions take the leftmost occurrences of the whole stream, each with the event
which brings its last byte; an incident names the events of what was matched. -/
theorem literal_matching
    (hengine : ∀ source expression, library.build source = .ok expression → expression.Within)
    (hspec : validateSpec library.regexError spec = .ok ())
    (hcompile : StreamMatcher.compile library spec = .ok matcher)
    (hevents : Contiguous offset events) :
    (∀ index literal, spec.matchers[index]? = some (.contains literal) →
      (∃ stops, IsLeftmost (HexName.utf8 literal) (streamOf events) 0 stops) ∧
      ∀ stops, IsLeftmost (HexName.utf8 literal) (streamOf events) 0 stops →
        ∀ before event after, events = before ++ event :: after →
          (matcher.after before).consumed index event =
            (stops.filter fun stop => (streamOf before).length < stop ∧
              stop ≤ (streamOf before).length + event.data.length).map
                (fun stop => (offset + stop - (HexName.utf8 literal).length, offset + stop)) ∧
          (matcher.after before).reportedBy index event =
            ((matcher.after before).consumed index event).head?.map fun first =>
              (first.1, (((matcher.after before).consumed index event).getLast?.getD first).2)) ∧
    ∀ before event after, events = before ++ event :: after →
      (((matcher.after before).push event).1.isSome ↔
        (matcher.after before).reported event ≠ []) ∧
      ∀ incident, ((matcher.after before).push event).1 = some incident →
        ∃ first last,
          IsLeast {start | ∃ stop, (start, stop) ∈ (matcher.after before).reported event} first ∧
          IsGreatest {stop | ∃ start, (start, stop) ∈ (matcher.after before).reported event} last ∧
          HoldsByte offset (before ++ [event]) first incident.seqStart ∧
          HoldsByte offset (before ++ [event]) (last - 1) incident.seqEnd := by
  obtain ⟨hall, hbytes, hchunks⟩ := compile_ok hcompile
  have hsound := compile_isSound hengine hspec hcompile
  have htracks := tracks_fresh offset hbytes hchunks
  have hsplit : ∀ before event after, events = before ++ event :: after →
      Contiguous offset before ∧ Contiguous offset (before ++ [event]) := by
    rintro before event after rfl
    rw [← List.singleton_append, ← List.append_assoc] at hevents
    have hprefix := (Contiguous.append_iff.mp hevents).1
    exact ⟨(Contiguous.append_iff.mp hprefix).1, hprefix⟩
  constructor
  · intro index literal hliteral
    obtain ⟨hnonempty, hbounded⟩ :=
      validateSpec_matchers hspec _ (List.mem_of_getElem? hliteral)
    obtain ⟨condition, hcondition, hcompiled⟩ := forall₂_getElem? hall hliteral
    obtain ⟨hform, hsearch⟩ := compileCondition_contains hcompiled
    have hpattern := utf8_ne_nil hnonempty
    have hlong : (HexName.utf8 literal).length ≤ maxMatchWindowBytes :=
      hbounded.trans (by decide)
    obtain ⟨found, next, -, hsearched, -, hconsumed⟩ :=
      exists_searched htracks hcondition (searched_fresh offset hform hsearch hpattern) hpattern
        hlong hevents
    refine ⟨⟨found, hsearched.leftmost⟩, ?_⟩
    intro stops hstops before event after hevent
    obtain rfl := hsearched.leftmost.unique hpattern hstops
    refine ⟨hconsumed before event after hevent, ?_⟩
    obtain ⟨hbefore, hwith⟩ := hsplit before event after hevent
    obtain ⟨_, now, hnow, hsearchedNow, -⟩ :=
      exists_searched htracks hcondition (searched_fresh offset hform hsearch hpattern) hpattern
        hlong hbefore
    exact reportedBy_eq (tracks_after htracks hbefore) hwith hnow hsearchedNow.compiled
  · intro before event after hevent
    obtain ⟨hbefore, hwith⟩ := hsplit before event after hevent
    refine push_incident (tracks_after htracks hbefore) hwith fun condition hcondition => ?_
    have hmem : condition.compiled ∈
        (matcher.after before).matchers.map CompiledCondition.compiled :=
      List.mem_map_of_mem hcondition
    rw [after_compiled] at hmem
    obtain ⟨origin, horigin, hsame⟩ := List.mem_map.mp hmem
    rw [← hsame]
    exact hsound origin horigin

end

/-! ## A stream in three events -/

def rxEvent (seq offset : ℕ) (data : Bytes) : TimelineEvent where
  port := "slot-1"
  daemonEpoch := 1
  seq := seq
  generation := 1
  wallTimeNs := seq
  monotonicTimeNs := 0
  kind := .rx
  direction := .rx
  actor := none
  runId := none
  operationId := none
  streamOffsetStart := some offset
  streamOffsetEnd := some (offset + data.length)
  data := data
  metadata := []
  durable := true

def literalSpec (text : String) : MonitorSpec where
  port := "slot-1"
  matchers := [.contains text]
  severity := .error
  description := none
  debounceMs := 0
  cooldownMs := 0
  durationMs := none
  startCursor := none

/-- A library which takes no expression. -/
def noExpressions : RegexLibrary (List (UInt8 × UInt8)) where
  classes := byteRanges
  parse := fun _ => .error "unsupported"
  minimumLen := fun _ => none
  maximumLen := fun _ => none
  build := fun _ => .error "unsupported"

def literalMatcher (text : String) : StreamMatcher where
  matchers :=
    [{ matcher := .contains text
       compiled := .literal (HexName.utf8 text)
       searchAfter := 0
       requiredSearchAfter := 0
       pendingRequiredAt := none }]
  bytes := []
  chunks := []
  baseOffset := 0
  nextOffset := 0

/-- `"aa"` in four bytes of which the second event has two. -/
theorem literal_matching_split :
    ((literalMatcher "aa").after [rxEvent 1 5 [97]]).consumed 0 (rxEvent 2 6 [97, 97]) = [(5, 7)] ∧
      ((literalMatcher "aa").after [rxEvent 1 5 [97], rxEvent 2 6 [97, 97]]).consumed 0
        (rxEvent 3 8 [97]) = [(7, 9)] := by
  have hstops : IsLeftmost (HexName.utf8 "aa") [97, 97, 97, 97] 0 [2, 4] := by
    have hscan : literalStops [97, 97, 97, 97] (HexName.utf8 "aa") 0 = [2, 4] := by decide
    rw [← hscan]
    exact isLeftmost_literalStops (by decide)
  have hengine : ∀ source expression, noExpressions.build source = .ok expression →
      expression.Within := fun source expression h => by cases h
  have hspec : validateSpec noExpressions.regexError (literalSpec "aa") = .ok () := by decide
  have hcompile : StreamMatcher.compile noExpressions (literalSpec "aa") =
      .ok (literalMatcher "aa") := rfl
  have hevents : Contiguous 5 [rxEvent 1 5 [97], rxEvent 2 6 [97, 97], rxEvent 3 8 [97]] :=
    ⟨rfl, rfl, by decide, rfl, rfl, by decide, rfl, rfl, by decide, trivial⟩
  have hmatching := literal_matching hengine hspec hcompile hevents
  obtain ⟨-, hconsumed⟩ := hmatching.1 0 "aa" rfl
  exact ⟨(hconsumed _ hstops [_] _ [_] rfl).1, (hconsumed _ hstops [_, _] _ [] rfl).1⟩

end SerialPlatform.Monitor
