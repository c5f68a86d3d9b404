import SerialPlatform.EchoLocation

/-!
# What is offered while the echo is incomplete

The received bytes are read line by line, where a `\r\r\n` is a wrap inside of a line.  The
first line in which something resembles the command is withheld as a whole, with everything
before it.
-/

namespace SerialPlatform.Capture

/-- A logical line, and what is behind it. -/
inductive Line : Bytes → Bytes → Bytes → Prop
  | done : Line [] [] []
  | wrap {bytes line behind : Bytes} (h : Line bytes line behind) :
      Line (cr :: cr :: lf :: bytes) line behind
  | crLf {behind : Bytes} : Line (cr :: lf :: behind) [] behind
  | lineFeed {behind : Bytes} : Line (lf :: behind) [] behind
  | carriageReturn {behind : Bytes} (hfeed : ¬[lf] <+: behind) (hwrap : ¬Capture.crLf <+: behind) :
      Line (cr :: behind) [] behind
  | byte {byte : UInt8} {bytes line behind : Bytes} (hbyte : byte ≠ cr ∧ byte ≠ lf)
      (h : Line bytes line behind) : Line (byte :: bytes) (byte :: line) behind

/-- Where the logical lines of some bytes start, and where the last one ends. -/
inductive LineStart (actual : Bytes) : ℕ → Prop
  | zero : LineStart actual 0
  | next {start stop : ℕ} {line : Bytes} (h : LineStart actual start) (hstart : start < stop)
      (hstop : stop ≤ actual.length) (hline : Line (actual.drop start) line (actual.drop stop)) :
      LineStart actual stop

/-- The bytes with wraps at any places. -/
inductive Wrapped : Bytes → Bytes → Prop
  | nil : Wrapped [] []
  | byte {byte : UInt8} {bytes received : Bytes} (h : Wrapped bytes received) :
      Wrapped (byte :: bytes) (byte :: received)
  | wrap {bytes received : Bytes} (h : Wrapped bytes received) :
      Wrapped bytes (cr :: cr :: lf :: received)

/-- A line end which the bytes behind it do not extend. -/
def EndsLine (lineEnd behind : Bytes) : Prop :=
  lineEnd = crLf ∨ lineEnd = [lf] ∨ (lineEnd = [cr] ∧ ¬[lf] <+: behind ∧ ¬crLf <+: behind)

/-- A place in a line at which the echo is looked for. -/
def IsCandidateStart (actual expected : Bytes) (lineStart start : ℕ) : Prop :=
  start = lineStart ∨ (actual[start - 1]?).any isEchoCandidateBoundary = true ∨
    actual[start]? = expected[0]?

/-- Some line resembles the command from a candidate start on. -/
def Resembles (actual expected : Bytes) : Prop :=
  ∃ lineStart stop line start candidate behind, LineStart actual lineStart ∧
    Line (actual.drop lineStart) line (actual.drop stop) ∧ lineStart ≤ start ∧ start < stop ∧
    IsCandidateStart actual expected lineStart start ∧
    Line (actual.drop start) candidate behind ∧ candidate ≠ [] ∧
    looksLikeDamagedEcho candidate expected = true

section

variable {actual expected bytes line line' behind behind' : Bytes} {index turns : ℕ}

/-! ## Lines -/

theorem Line.suffix (h : Line bytes line behind) : behind <:+ bytes := by
  induction h with
  | done => exact List.suffix_refl _
  | wrap _ ih =>
      exact ih.trans ⟨[cr, cr, lf], rfl⟩
  | crLf => exact ⟨[cr, lf], rfl⟩
  | lineFeed => exact ⟨[lf], rfl⟩
  | carriageReturn => exact ⟨[cr], rfl⟩
  | byte _ _ ih => exact ih.trans (List.suffix_cons _ _)

theorem Line.unique (h : Line bytes line behind) (h' : Line bytes line' behind') :
    line' = line ∧ behind' = behind := by
  have hne : cr ≠ lf := by decide
  induction h generalizing line' behind' with
  | done =>
      cases h'
      exact ⟨rfl, rfl⟩
  | wrap _ ih =>
      cases h' with
      | wrap h' => exact ih h'
      | carriageReturn hfeed hwrap => exact absurd (List.prefix_append Capture.crLf _) hwrap
      | byte hbyte => exact absurd rfl hbyte.1
  | crLf =>
      cases h' with
      | crLf => exact ⟨rfl, rfl⟩
      | carriageReturn hfeed => exact absurd (List.prefix_append [lf] _) hfeed
      | byte hbyte => exact absurd rfl hbyte.1
  | lineFeed =>
      cases h' with
      | lineFeed => exact ⟨rfl, rfl⟩
      | byte hbyte => exact absurd rfl hbyte.2
  | carriageReturn hfeed hwrap =>
      cases h' with
      | wrap => exact absurd (List.prefix_append Capture.crLf _) hwrap
      | crLf => exact absurd (List.prefix_append [lf] _) hfeed
      | carriageReturn => exact ⟨rfl, rfl⟩
      | byte hbyte => exact absurd rfl hbyte.1
  | byte hbyte _ ih =>
      cases h' with
      | wrap | crLf | carriageReturn => exact absurd rfl hbyte.1
      | lineFeed => exact absurd rfl hbyte.2
      | byte _ h' =>
          obtain ⟨rfl, rfl⟩ := ih h'
          exact ⟨rfl, rfl⟩

/-- A line read from a place inside of it is empty or ends where it ends. -/
theorem Line.inside (h : Line bytes line behind) {rest : Bytes} (hrest : rest <:+ bytes)
    (hinside : behind.length < rest.length) (h' : Line rest line' behind') :
    line' = [] ∨ behind' = behind := by
  have hpast : ∀ {rest : Bytes}, rest <:+ behind → ¬behind.length < rest.length :=
    fun hsuffix => not_lt.2 hsuffix.length_le
  induction h with
  | done => exact absurd hinside (hpast hrest)
  | wrap h ih =>
      rcases List.suffix_cons_iff.1 hrest with rfl | hrest
      · exact .inr ((Line.wrap h).unique h').2
      rcases List.suffix_cons_iff.1 hrest with rfl | hrest
      · exact .inl (Line.crLf.unique h').1
      rcases List.suffix_cons_iff.1 hrest with rfl | hrest
      · exact .inl (Line.lineFeed.unique h').1
      · exact ih hrest hinside hpast
  | crLf =>
      rcases List.suffix_cons_iff.1 hrest with rfl | hrest
      · exact .inr (Line.crLf.unique h').2
      rcases List.suffix_cons_iff.1 hrest with rfl | hrest
      · exact .inl (Line.lineFeed.unique h').1
      · exact absurd hinside (hpast hrest)
  | lineFeed =>
      rcases List.suffix_cons_iff.1 hrest with rfl | hrest
      · exact .inr (Line.lineFeed.unique h').2
      · exact absurd hinside (hpast hrest)
  | carriageReturn hfeed hwrap =>
      rcases List.suffix_cons_iff.1 hrest with rfl | hrest
      · exact .inr ((Line.carriageReturn hfeed hwrap).unique h').2
      · exact absurd hinside (hpast hrest)
  | byte hbyte h ih =>
      rcases List.suffix_cons_iff.1 hrest with rfl | hrest
      · exact .inr ((Line.byte hbyte h).unique h').2
      · exact ih hrest hinside hpast

/-- The source's reading of a line. -/
theorem logicalEchoLine_line (hindex : index ≤ actual.length)
    (hturns : actual.length - index < turns) :
    ∃ line stop, logicalEchoLine actual turns index = (line, stop) ∧
      Line (actual.drop index) line (actual.drop stop) ∧ stop ≤ actual.length ∧ index ≤ stop ∧
      (index < actual.length → index < stop) := by
  induction turns generalizing index with
  | zero => omega
  | succ turns ih =>
      rw [logicalEchoLine]
      cases hbyte : actual[index]? with
      | none =>
          have hend := List.getElem?_eq_none_iff.1 hbyte
          refine ⟨[], actual.length, rfl, ?_, le_refl _, hindex,
            fun hlt => absurd hlt (not_lt.2 hend)⟩
          rw [List.drop_eq_nil_iff.2 hend, List.drop_length]
          exact .done
      | some byte =>
          have hinside := (List.getElem?_eq_some_iff.1 hbyte).1
          have hdrop := drop_of_getElem? hbyte
          dsimp only
          by_cases hwrap : crCrLf.isPrefixOf (actual.drop index) = true
          · obtain ⟨rest, hrest⟩ := isPrefixOf_crCrLf.1 hwrap
            have hlong : index + 3 ≤ actual.length := prefix_drop_length hwrap (by decide)
            obtain ⟨line, stop, hread, hline, hstop, hmoves, -⟩ := @ih (index + 3) hlong (by omega)
            have hskip : actual.drop (index + 3) = rest := by
              rw [← List.drop_drop, hrest]
              rfl
            rw [if_pos hwrap]
            refine ⟨line, stop, hread, ?_, hstop, by omega, fun _ => by omega⟩
            rw [hrest]
            exact .wrap (hskip ▸ hline)
          rw [if_neg hwrap]
          by_cases hcrLf : crLf.isPrefixOf (actual.drop index) = true
          · obtain ⟨rest, hrest⟩ := isPrefixOf_crLf.1 hcrLf
            have hlong : index + 2 ≤ actual.length := prefix_drop_length hcrLf (by decide)
            have hskip : actual.drop (index + 2) = rest := by
              rw [← List.drop_drop, hrest]
              rfl
            rw [if_pos hcrLf]
            refine ⟨[], index + 2, rfl, ?_, hlong, by omega, fun _ => by omega⟩
            rw [hrest, hskip]
            exact .crLf
          rw [if_neg hcrLf]
          by_cases hend : byte = cr ∨ byte = lf
          · rw [if_pos hend]
            refine ⟨[], index + 1, rfl, ?_, hinside, by omega, fun _ => by omega⟩
            rcases hend with rfl | rfl
            · rw [hdrop]
              apply Line.carriageReturn
              · rintro ⟨rest, hrest⟩
                apply hcrLf
                rw [hdrop, ← hrest]
                exact isPrefixOf_crLf.2 ⟨rest, rfl⟩
              · rintro ⟨rest, hrest⟩
                apply hwrap
                rw [hdrop, ← hrest]
                exact isPrefixOf_crCrLf.2 ⟨rest, rfl⟩
            · rw [hdrop]
              exact .lineFeed
          · obtain ⟨line, stop, hread, hline, hstop, hmoves, -⟩ :=
              @ih (index + 1) hinside (by omega)
            rw [if_neg hend, hread]
            refine ⟨byte :: line, stop, rfl, ?_, hstop, by omega, fun _ => by omega⟩
            rw [hdrop]
            exact .byte (not_or.1 hend) hline

theorem Wrapped.isLine {received rest : Bytes} (h : Wrapped bytes received)
    (hplain : ∀ byte ∈ bytes, byte ≠ cr ∧ byte ≠ lf) (hrest : Line rest [] behind) :
    Line (received ++ rest) bytes behind := by
  induction h with
  | nil => exact hrest
  | byte _ ih =>
      exact .byte (hplain _ List.mem_cons_self)
        (ih fun byte hbyte => hplain byte (List.mem_cons_of_mem _ hbyte))
  | wrap _ ih => exact .wrap (ih hplain)

theorem EndsLine.isLine {lineEnd : Bytes} (h : EndsLine lineEnd behind) :
    Line (lineEnd ++ behind) [] behind := by
  rcases h with rfl | rfl | ⟨rfl, hfeed, hwrap⟩
  · exact .crLf
  · exact .lineFeed
  · exact .carriageReturn hfeed hwrap

/-! ## The search -/

theorem not_isCandidateStart {lineStart start : ℕ}
    (h : ¬(start = lineStart ∨ (actual[start - 1]?).any isEchoCandidateBoundary = true) ∧
      actual[start]? ≠ expected[0]?) : ¬IsCandidateStart actual expected lineStart start := by
  rintro (hstart | hboundary | hfirst)
  · exact h.1 (.inl hstart)
  · exact h.1 (.inr hboundary)
  · exact h.2 hfirst

/-- What the search in one line finds is the end of the line. -/
theorem damagedEchoIn_some {lineStart stop : ℕ} {starts : List ℕ} {candidates candidateEnd : ℕ}
    (hline : Line (actual.drop lineStart) line (actual.drop stop)) (hstop : stop ≤ actual.length)
    (hstarts : ∀ start ∈ starts, lineStart ≤ start ∧ start < stop)
    (h : damagedEchoIn actual expected lineStart starts candidates = some candidateEnd) :
    candidateEnd = stop ∧
      ∃ start candidate, lineStart ≤ start ∧ start < stop ∧
        IsCandidateStart actual expected lineStart start ∧
        Line (actual.drop start) candidate (actual.drop stop) ∧ candidate ≠ [] ∧
        looksLikeDamagedEcho candidate expected = true := by
  induction starts generalizing candidates with
  | nil => cases h
  | cons start starts ih =>
      have hrest := fun other hother => hstarts other (List.mem_cons_of_mem _ hother)
      obtain ⟨hafter, hbefore⟩ := hstarts start List.mem_cons_self
      obtain ⟨candidate, found, hread, hcandidate, hfound, -, -⟩ :=
        @logicalEchoLine_line actual start (actual.length + 1) (by omega) (by omega)
      unfold damagedEchoIn at h
      rw [hread] at h
      dsimp only at h
      by_cases hskip : ¬(start = lineStart ∨
          (actual[start - 1]?).any isEchoCandidateBoundary = true) ∧ actual[start]? ≠ expected[0]?
      · rw [if_pos hskip] at h
        exact ih hrest h
      rw [if_neg hskip] at h
      by_cases hempty : candidate.isEmpty = true
      · rw [if_pos hempty] at h
        exact ih hrest h
      rw [if_neg hempty] at h
      by_cases hlooks : looksLikeDamagedEcho candidate expected = true
      · rw [if_pos hlooks] at h
        have hstart : IsCandidateStart actual expected lineStart start := by
          by_contra hnone
          exact hskip ⟨fun h => hnone (h.imp_right .inl), fun h => hnone (.inr (.inr h))⟩
        have hsome : candidate ≠ [] := fun hnil => hempty (by rw [hnil]; rfl)
        have hsuffix : actual.drop start <:+ actual.drop lineStart := by
          rw [← Nat.add_sub_cancel' hafter, ← List.drop_drop]
          exact List.drop_suffix _ _
        have hshorter : (actual.drop stop).length < (actual.drop start).length := by
          rw [List.length_drop, List.length_drop]
          omega
        have hsame := (hline.inside hsuffix hshorter hcandidate).resolve_left hsome
        have hlengths := congrArg List.length hsame
        rw [List.length_drop, List.length_drop] at hlengths
        have hend : found = stop := by omega
        refine ⟨(Option.some.inj h).symm.trans hend, start, candidate, hafter, hbefore, hstart, ?_,
          hsome, hlooks⟩
        rw [← hend]
        exact hcandidate
      · rw [if_neg hlooks] at h
        split_ifs at h
        exact ih hrest h

/-- The input is offered as it is, or from the end of a line on in which something resembles
the command. -/
theorem fallbackFrom_spec (turns : ℕ) {lineStart : ℕ} (hstart : LineStart actual lineStart) :
    fallbackFrom actual expected turns lineStart = actual ∨
      Resembles actual expected ∧
        ∃ stop, LineStart actual stop ∧
          fallbackFrom actual expected turns lineStart = actual.drop stop := by
  induction turns generalizing lineStart with
  | zero => exact .inl rfl
  | succ turns ih =>
      rw [fallbackFrom]
      by_cases hend : actual.length ≤ lineStart
      · exact .inl (if_pos hend)
      rw [if_neg hend]
      obtain ⟨line, stop, hread, hline, hstop, -, hmoves⟩ :=
        @logicalEchoLine_line actual lineStart (actual.length + 1) (by omega) (by omega)
      have hnext : LineStart actual stop := .next hstart (hmoves (by omega)) hstop hline
      rw [hread]
      dsimp only
      cases hfound : damagedEchoIn actual expected lineStart
          (List.range' lineStart (stop - lineStart)) 0 with
      | some candidateEnd =>
          have hstarts : ∀ start ∈ List.range' lineStart (stop - lineStart),
              lineStart ≤ start ∧ start < stop := by
            intro start hmem
            rw [List.mem_range'_1] at hmem
            omega
          obtain ⟨rfl, start, candidate, hafter, hbefore, hcandidateStart, hcandidate, hsome,
            hlooks⟩ := damagedEchoIn_some hline hstop hstarts hfound
          right
          exact ⟨⟨lineStart, _, line, start, candidate, _, hstart, hline, hafter, hbefore,
            hcandidateStart, hcandidate, hsome, hlooks⟩, _, hnext, rfl⟩
      | none =>
          dsimp only
          split_ifs
          · exact .inl rfl
          · exact ih hnext

theorem fallbackAfterIncompleteEcho_spec (actual expected : Bytes) :
    fallbackAfterIncompleteEcho actual expected = actual ∨
      Resembles actual (withoutLineEnd expected) ∧
        ∃ stop, LineStart actual stop ∧
          fallbackAfterIncompleteEcho actual expected = actual.drop stop := by
  unfold fallbackAfterIncompleteEcho
  dsimp only
  split_ifs
  · exact .inl rfl
  · exact fallbackFrom_spec _ .zero

/-- A first line which is the beginning of the command is withheld. -/
theorem fallback_of_line (hline : Line actual line behind) (hline' : line ≠ [])
    (hcommand : line <+: withoutLineEnd expected) :
    fallbackAfterIncompleteEcho actual expected = behind := by
  have hactual : actual ≠ [] := by
    rintro rfl
    cases hline
    exact hline' rfl
  have hcommand' : withoutLineEnd expected ≠ [] := by
    intro hnil
    rw [hnil, List.prefix_nil] at hcommand
    exact hline' hcommand
  have hexpected : expected ≠ [] := by
    rintro rfl
    exact hcommand' rfl
  have hpositive : 0 < actual.length := List.length_pos_of_ne_nil hactual
  obtain ⟨found, stop, hread, hfound, -, -, hmoves⟩ :=
    @logicalEchoLine_line actual 0 (actual.length + 1) (Nat.zero_le _) (by omega)
  rw [List.drop_zero] at hfound
  obtain ⟨rfl, hbehind⟩ := hline.unique hfound
  obtain ⟨count, rfl⟩ : ∃ count, stop = count + 1 := ⟨stop - 1, by have := hmoves hpositive; omega⟩
  have hfirst : damagedEchoIn actual (withoutLineEnd expected) 0 (List.range' 0 (count + 1)) 0 =
      some (count + 1) := by
    have hlooks : looksLikeDamagedEcho found (withoutLineEnd expected) = true := by
      unfold looksLikeDamagedEcho
      rw [if_pos (.inl (List.isPrefixOf_iff_prefix.2 hcommand))]
    rw [List.range'_succ, damagedEchoIn, if_neg (fun h => h.1 (.inl rfl)), hread]
    dsimp only
    rw [if_neg (by simpa using hline'), if_pos hlooks]
  unfold fallbackAfterIncompleteEcho
  dsimp only
  rw [if_neg (by simp [hactual, hexpected, hcommand']), fallbackFrom, if_neg (by omega), hread]
  dsimp only
  rw [Nat.sub_zero, hfirst]
  exact hbehind

end

/-- What is offered while the echo is incomplete: nothing of a line which is the beginning
of the command, exactly what follows that line, and always whole lines. -/
theorem partial_echo_is_withheld (expected : Bytes) :
    (∀ echoed received, echoed <+: withoutLineEnd expected → echoed ≠ [] →
      (∀ byte ∈ echoed, byte ≠ cr ∧ byte ≠ lf) → Wrapped echoed received →
      fallbackAfterIncompleteEcho received expected = [] ∧
        ∀ lineEnd behind, EndsLine lineEnd behind →
          fallbackAfterIncompleteEcho (received ++ (lineEnd ++ behind)) expected = behind) ∧
    ∀ actual, (∃ start, LineStart actual start ∧
        fallbackAfterIncompleteEcho actual expected = actual.drop start) ∧
      (¬Resembles actual (withoutLineEnd expected) →
        fallbackAfterIncompleteEcho actual expected = actual) := by
  constructor
  · intro echoed received hcommand hsome hplain hwrapped
    constructor
    · have hline := hwrapped.isLine hplain Line.done
      rw [List.append_nil] at hline
      exact fallback_of_line hline hsome hcommand
    · intro lineEnd behind hends
      exact fallback_of_line (hwrapped.isLine hplain hends.isLine) hsome hcommand
  · intro actual
    rcases fallbackAfterIncompleteEcho_spec actual expected with hsame | ⟨hresembles, stop, hstop⟩
    · exact ⟨⟨0, .zero, hsame⟩, fun _ => hsame⟩
    · exact ⟨⟨stop, hstop⟩, fun hnone => absurd hresembles hnone⟩

/-- Bytes of a second line of the command, an empty line, and a `\n` behind a bare `\r`. -/
theorem partial_echo_leaves_lines :
    (¬∀ expected count, count < (withoutLineEnd expected).length →
      fallbackAfterIncompleteEcho ((withoutLineEnd expected).take count) expected = []) ∧
    (¬∀ expected lineEnd behind : Bytes, lineEnd = crLf ∨ lineEnd = [lf] ∨ lineEnd = [cr] →
      ¬Resembles behind (withoutLineEnd expected) →
      fallbackAfterIncompleteEcho ((withoutLineEnd expected).take 0 ++ (lineEnd ++ behind))
        expected = behind) ∧
    (¬∀ expected count lineEnd behind, 0 < count → count < (withoutLineEnd expected).length →
      lineEnd = crLf ∨ lineEnd = [lf] ∨ lineEnd = [cr] →
      fallbackAfterIncompleteEcho ((withoutLineEnd expected).take count ++ (lineEnd ++ behind))
        expected = behind) := by
  refine ⟨fun hclaim => ?_, fun hclaim => ?_, fun hclaim => ?_⟩
  · exact absurd (hclaim [97, 98, 10, 99, 100, 13] 4 (by decide)) (by decide)
  · refine absurd (hclaim [104, 105, 13] crLf [] (.inl rfl) ?_) (by decide)
    rintro ⟨lineStart, stop, line, start, candidate, behind, -, -, -, -, -, hline, hsome, -⟩
    rw [List.drop_nil] at hline
    cases hline
    exact hsome rfl
  · exact absurd (hclaim [104, 105, 13] 1 [cr] [lf] (by decide) (by decide) (.inr (.inr rfl)))
      (by decide)

end SerialPlatform.Capture
