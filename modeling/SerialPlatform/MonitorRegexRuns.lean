import SerialPlatform.MonitorIncidents

/-!
# The ranges of an expression

What an expression reports in the pushes of a stream.  Behind a match of an expression
without a bound, the next search starts at the next literal prefix, or where one may have
begun which the window cuts off; that place may lie inside of the match.
-/

namespace SerialPlatform.Monitor

/-- An event which comes at an offset of the stream or behind it. -/
structure Arrives (offset start : ℕ) (event : TimelineEvent) : Prop where
  le : offset ≤ start
  begins : event.streamOffsetStart = some start
  ends : event.streamOffsetEnd = some (start + event.data.length)
  bounded : start + event.data.length ≤ u64Max

/-- Events of one stream, in order; there may be gaps between them. -/
def Forward : ℕ → List TimelineEvent → Prop
  | _, [] => True
  | offset, event :: events =>
      ∃ start, Arrives offset start event ∧ Forward (start + event.data.length) events

/-- The engine finds matches of the expression, behind the offset which it is given. -/
structure Regex.Finds {κ : Type} (classes : Classes κ) (hir : Hir κ) (expression : Regex) :
    Prop where
  within : expression.Within
  consumes : ∀ bytes searchAt start stop, expression.findAt bytes searchAt = some (start, stop) →
    bytes.extract start stop ∈ hir.language classes

/-- What the documentation of the libraries says. -/
structure RegexLibrary.IsFaithful {κ : Type} (library : RegexLibrary κ) : Prop where
  literal : ∀ elements literal, library.classes.literal elements = some literal →
    library.classes.language elements = {literal}
  finds : ∀ source hir expression, library.parse source = .ok hir →
    library.build source = .ok expression → expression.Finds library.classes hir

/-- The matches which the engine finds one behind the other. -/
inductive Regex.Found (expression : Regex) (bytes : Bytes) : ℕ → ℕ → ℕ → Prop
  | here {searchAt start stop : ℕ} (hfind : expression.findAt bytes searchAt = some (start, stop))
      (hsome : start < stop) : Found expression bytes searchAt start stop
  | behind {searchAt first last start stop : ℕ}
      (hfind : expression.findAt bytes searchAt = some (first, last)) (hsome : first < last)
      (hrest : Found expression bytes last start stop) :
      Found expression bytes searchAt start stop
  | skip {searchAt place start stop : ℕ}
      (hfind : expression.findAt bytes searchAt = some (place, place))
      (hrest : Found expression bytes (place + 1) start stop) :
      Found expression bytes searchAt start stop

/-- No literal prefix which the end of the window cuts off begins inside of a match. -/
def CompiledCondition.EndsClear (condition : CompiledCondition) (bytes : Bytes)
    (baseOffset : ℕ) : Prop :=
  ∀ expression literalPrefix requiredLiteral,
    condition.compiled = .regex expression none literalPrefix requiredLiteral →
    ∀ start stop, expression.Found bytes
        (relativeOffset condition.searchAfter baseOffset bytes.length) start stop →
      ∀ place, start ≤ place → place < stop → bytes.length - place < literalPrefix.length →
        ¬bytes.drop place <+: literalPrefix

/-- The window of a push is clear for a condition. -/
def StreamMatcher.EndsClear (matcher : StreamMatcher) (index : ℕ) (event : TimelineEvent) : Prop :=
  event.data ≠ [] → ∀ condition, (matcher.extend event).matchers[index]? = some condition →
    condition.EndsClear (matcher.extend event).bytes (matcher.extend event).baseOffset

/-- The ranges which a condition reports in the pushes of some events. -/
def StreamMatcher.reports (matcher : StreamMatcher) (index : ℕ) :
    List TimelineEvent → List (ℕ × ℕ)
  | [] => []
  | event :: events =>
      (matcher.reportedBy index event).toList ++ reports (matcher.push event).2 index events

/-- Bytes which do not go together with a literal, whatever follows them. -/
def Clashes (bytes literal : Bytes) : Prop := ¬bytes <+: literal ∧ ¬literal <+: bytes

/-- No match which begins with the literal begins where a condition still searches in front of
`last`. -/
def Passes (matcher : StreamMatcher) (condition : CompiledCondition) (literalPrefix : Bytes)
    (last : ℕ) : Prop :=
  ∀ offset, condition.searchAfter ≤ offset → matcher.baseOffset ≤ offset → offset < last →
    Clashes (matcher.bytes.drop (offset - matcher.baseOffset)) literalPrefix

section

variable {expression : Regex} {bytes literalPrefix requiredLiteral : Bytes}
  {maximumLen : Option ℕ} {searchAt start stop baseOffset searchAfter last index : ℕ}
  {condition : CompiledCondition} {window matcher : StreamMatcher} {event : TimelineEvent}
  {events : List TimelineEvent}

theorem Clashes.append {literal : Bytes} (h : Clashes bytes literal) (more : Bytes) :
    Clashes (bytes ++ more) literal := by
  constructor
  · exact fun hbegins => h.1 ((List.prefix_append bytes more).trans hbegins)
  · intro hbegins
    rcases List.prefix_or_prefix_of_prefix hbegins (List.prefix_append bytes more) with
      hshort | hlong
    · exact h.2 hshort
    · exact h.1 hlong

/-! ## One search -/

/-- What the loop of `find_regex_matches` has found. -/
structure LoopFound (expression : Regex) (bytes : Bytes) (origin : ℕ) (range : Option (ℕ × ℕ))
    (searchAt : ℕ) : Prop where
  passed : origin ≤ searchAt
  range : ∀ first last, range = some (first, last) →
    last ≤ searchAt ∧ origin ≤ first ∧ first < last ∧ last ≤ bytes.length ∧
      (∃ stop, expression.Found bytes origin first stop) ∧
      ∃ start, expression.Found bytes origin start last

theorem findRegexMatchesFrom_found (hwithin : expression.Within) {turns origin : ℕ}
    {range : Option (ℕ × ℕ)} (horigin : searchAt ≤ bytes.length)
    (hchain : ∀ start stop, expression.Found bytes searchAt start stop →
      expression.Found bytes origin start stop)
    (h : LoopFound expression bytes origin range searchAt) :
    LoopFound expression bytes origin
        (findRegexMatchesFrom expression bytes turns range searchAt).1
        (findRegexMatchesFrom expression bytes turns range searchAt).2 ∧
      (findRegexMatchesFrom expression bytes turns range searchAt).2 ≤ bytes.length := by
  induction turns generalizing range searchAt with
  | zero => exact ⟨h, horigin⟩
  | succ turns ih =>
      unfold findRegexMatchesFrom
      rw [if_pos horigin]
      cases hfind : expression.findAt bytes searchAt with
      | none => exact ⟨h, horigin⟩
      | some found =>
          obtain ⟨start, stop⟩ := found
          obtain ⟨hbehind, hordered, hinside⟩ := hwithin bytes searchAt start stop hfind
          dsimp only
          split
          case isTrue hempty =>
            split
            case isTrue => exact ⟨h, horigin⟩
            case isFalse hnotEnd =>
              have hpassed := h.passed
              rw [hempty] at hfind
              refine ih (by omega)
                (fun first last hfound => hchain first last (.skip hfind hfound))
                ⟨by omega, fun first last hsame => ?_⟩
              obtain ⟨hle, hrest⟩ := h.range first last hsame
              exact ⟨by omega, hrest⟩
          case isFalse hsome =>
            have hlt : start < stop := by omega
            have hhere := hchain start stop (.here hfind hlt)
            have hpassed := h.passed
            refine ih hinside
              (fun first last hfound => hchain first last (.behind hfind hlt hfound))
              ⟨by omega, fun first last hsame => ?_⟩
            cases range with
            | none =>
                cases hsame
                exact ⟨le_refl _, by omega, hlt, hinside, ⟨stop, hhere⟩, start, hhere⟩
            | some old =>
                obtain ⟨oldFirst, oldLast⟩ := old
                obtain ⟨hle, hfirst, hlast, -, hfound, -⟩ := h.range oldFirst oldLast rfl
                cases hsame
                exact ⟨le_refl _, hfirst, by omega, hinside, hfound, start, hhere⟩

theorem findRegexMatches_found (hwithin : expression.Within) (hsearch : searchAt ≤ bytes.length) :
    LoopFound expression bytes searchAt (findRegexMatches expression bytes searchAt).1
        (findRegexMatches expression bytes searchAt).2 ∧
      (findRegexMatches expression bytes searchAt).2 ≤ bytes.length :=
  findRegexMatchesFrom_found hwithin hsearch (fun _ _ h => h)
    ⟨le_refl _, fun _ _ hnone => by cases hnone⟩

/-- A match begins with the literal which every match begins with. -/
theorem Regex.Found.begins
    (hmatches : ∀ searchAt start stop, expression.findAt bytes searchAt = some (start, stop) →
      stop ≤ bytes.length ∧ literalPrefix <+: bytes.extract start stop)
    (h : expression.Found bytes searchAt start stop) :
    stop ≤ bytes.length ∧ literalPrefix <+: bytes.drop start ∧
      start + literalPrefix.length ≤ stop := by
  induction h with
  | here hfind hsome =>
      obtain ⟨hinside, hbegins⟩ := hmatches _ _ _ hfind
      have hlength := hbegins.length_le
      rw [List.extract_eq_take_drop, List.length_take, List.length_drop] at hlength
      exact ⟨hinside, hbegins.trans (List.take_prefix _ _), by omega⟩
  | behind _ _ _ ih => exact ih
  | skip _ _ ih => exact ih

/-- The next search starts behind what was searched, or in front of a prefix which the window
may have cut off. -/
theorem nextSearchAfter_cases (hbounded : baseOffset + bytes.length ≤ u64Max) {through : ℕ}
    (hthrough : through ≤ bytes.length) :
    baseOffset + through ≤ nextSearchAfter maximumLen literalPrefix bytes searchAfter baseOffset
        searchAt through ∨
      maximumLen = none ∧ literalPrefix ≠ [] ∧
        searchAfter ≤ nextSearchAfter maximumLen literalPrefix bytes searchAfter baseOffset
          searchAt through ∧
        baseOffset + (bytes.length - (literalPrefix.length - 1)) ≤
          nextSearchAfter maximumLen literalPrefix bytes searchAfter baseOffset searchAt
            through := by
  have habsolute : ∀ relative ≤ bytes.length,
      absoluteOffset baseOffset relative = baseOffset + relative :=
    fun relative hle => satAdd_eq_add (by omega)
  unfold nextSearchAfter
  cases maximumLen with
  | some maximumLen =>
      dsimp only
      rw [habsolute through hthrough]
      exact Or.inl (le_max_left _ _)
  | none =>
      dsimp only
      split
      case isFalse =>
        rw [habsolute through hthrough]
        exact Or.inl (le_max_left _ _)
      case isTrue hliteral =>
        cases hnext : findLiteral literalPrefix (bytes.drop (max through searchAt)) with
        | none =>
            right
            dsimp only [findNextLiteral]
            rw [hnext, Option.map_none]
            dsimp only
            rw [habsolute _ (Nat.sub_le _ _)]
            exact ⟨rfl, hliteral, le_max_left _ _, le_max_right _ _⟩
        | some relative =>
            left
            dsimp only [findNextLiteral]
            rw [hnext, Option.map_some]
            dsimp only
            have hends := (findLiteral_drop_some hliteral hnext).1.1
            rw [habsolute _ (by omega)]
            omega

/-! ## One scan -/

theorem withRequired_searchAfter (state : RequiredLiteral) :
    (condition.withRequired state).searchAfter = condition.searchAfter := rfl

theorem scanCondition_regex
    (hcompiled : condition.compiled =
      .regex expression maximumLen literalPrefix requiredLiteral) :
    scanCondition condition bytes baseOffset =
      scanRegex condition expression maximumLen literalPrefix requiredLiteral bytes
        baseOffset := by
  rw [scanCondition, hcompiled]

/-- A scan has searched the window, or has left the condition where it was. -/
theorem scanCondition_regex_cases
    (hcompiled : condition.compiled =
      .regex expression maximumLen literalPrefix requiredLiteral) :
    (scanCondition condition bytes baseOffset).1 = none ∧
        (scanCondition condition bytes baseOffset).2.searchAfter = condition.searchAfter ∨
      (scanCondition condition bytes baseOffset).1 =
          (findRegexMatches expression bytes
            (relativeOffset condition.searchAfter baseOffset bytes.length)).1 ∧
        (scanCondition condition bytes baseOffset).2.searchAfter =
          nextSearchAfter maximumLen literalPrefix bytes condition.searchAfter baseOffset
            (relativeOffset condition.searchAfter baseOffset bytes.length)
            (findRegexMatches expression bytes
              (relativeOffset condition.searchAfter baseOffset bytes.length)).2 := by
  rw [scanCondition_regex hcompiled, scanRegex]
  split
  · dsimp only
    split
    · exact Or.inr ⟨rfl, rfl⟩
    · exact Or.inl ⟨rfl, rfl⟩
  · exact Or.inr ⟨rfl, rfl⟩

/-- The end of a reported range, if there is one. -/
def lastOf (baseOffset last : ℕ) (range : Option (ℕ × ℕ)) : ℕ :=
  match range with
  | none => last
  | some (_, stop) => baseOffset + stop

/-- A scan reports nothing in front of `last`, and passes what it has reported. -/
theorem scan_passes
    (hcompiled : condition.compiled =
      .regex expression maximumLen literalPrefix requiredLiteral)
    (hwithin : expression.Within)
    (hbegins : ∀ bytes searchAt start stop,
      expression.findAt bytes searchAt = some (start, stop) →
        literalPrefix <+: bytes.extract start stop)
    (hbounded : window.baseOffset + window.bytes.length ≤ u64Max)
    (hlast : last ≤ window.baseOffset + window.bytes.length)
    (hpasses : Passes window condition literalPrefix last)
    (hclear : condition.EndsClear window.bytes window.baseOffset) :
    (∀ start stop,
      (scanCondition condition window.bytes window.baseOffset).1 = some (start, stop) →
        last ≤ window.baseOffset + start ∧ start < stop ∧ stop ≤ window.bytes.length) ∧
      Passes window (scanCondition condition window.bytes window.baseOffset).2 literalPrefix
        (lastOf window.baseOffset last
          (scanCondition condition window.bytes window.baseOffset).1) := by
  obtain ⟨searchAt, hsearchAt⟩ : ∃ searchAt, searchAt =
      relativeOffset condition.searchAfter window.baseOffset window.bytes.length := ⟨_, rfl⟩
  have hsearch : searchAt ≤ window.bytes.length := hsearchAt ▸ min_le_right _ _
  have hmatches : ∀ searchAt start stop,
      expression.findAt window.bytes searchAt = some (start, stop) →
        stop ≤ window.bytes.length ∧ literalPrefix <+: window.bytes.extract start stop :=
    fun searchAt start stop hfind =>
      ⟨(hwithin _ _ _ _ hfind).2.2, hbegins _ _ _ _ hfind⟩
  -- Where the window is still searched, the condition has been.
  have hreached : ∀ offset, window.baseOffset + searchAt ≤ offset →
      offset < window.baseOffset + window.bytes.length → condition.searchAfter ≤ offset := by
    intro offset hle hlt
    rw [hsearchAt, relativeOffset] at hle
    omega
  have hbefore : ∀ start stop, expression.Found window.bytes searchAt start stop →
      searchAt ≤ start → start < window.bytes.length → last ≤ window.baseOffset + start := by
    intro start stop hfound hle hlt
    by_contra hinside
    have hclash := hpasses (window.baseOffset + start) (hreached _ (by omega) (by omega))
      (by omega) (by omega)
    rw [Nat.add_sub_cancel_left] at hclash
    exact hclash.2 (hfound.begins hmatches).2.1
  have hscan : (scanCondition condition window.bytes window.baseOffset).1 = none ∧ _ ∨ _ :=
    scanCondition_regex_cases hcompiled
  rcases hscan with ⟨hnone, hsame⟩ | ⟨hrange, hnext⟩
  · rw [hnone]
    refine ⟨fun start stop hsome => (nomatch hsome), fun offset hle => hpasses offset ?_⟩
    rwa [hsame] at hle
  · rw [← hsearchAt] at hrange hnext
    obtain ⟨hloop, hthrough⟩ := findRegexMatches_found hwithin hsearch
    rw [hrange]
    have hcases : _ ≤ nextSearchAfter maximumLen literalPrefix window.bytes
        condition.searchAfter window.baseOffset searchAt _ ∨ _ :=
      nextSearchAfter_cases hbounded hthrough
    rw [← hnext] at hcases
    have hpassed := hloop.passed
    cases hfound : (findRegexMatches expression window.bytes searchAt).1 with
    | none =>
        refine ⟨fun start stop hsome => (nomatch hsome), fun offset hle hbase hlt => ?_⟩
        change offset < last at hlt
        rcases hcases with hbehind | ⟨-, -, hsame, -⟩
        · exact hpasses offset (hreached offset (by omega) (by omega)) hbase hlt
        · exact hpasses offset (hsame.trans hle) hbase hlt
    | some range =>
        obtain ⟨first, stop⟩ := range
        obtain ⟨hstop, hfirst, hlt, hinside, ⟨_, hfirstFound⟩, start, hlastFound⟩ :=
          hloop.range first stop hfound
        constructor
        · intro start' stop' hsome
          cases hsome
          exact ⟨hbefore first _ hfirstFound hfirst (by omega), hlt, hinside⟩
        · intro offset hle hbase hbefore
          change offset < window.baseOffset + stop at hbefore
          rcases hcases with hbehind | ⟨hunbounded, hliteral, -, hcut⟩
          · omega
          · -- Only a prefix which the window cuts off may still begin inside of the match.
            subst hunbounded
            have hpositive := List.length_pos_iff.2 hliteral
            obtain ⟨-, -, hwide⟩ := hlastFound.begins hmatches
            rw [hsearchAt] at hlastFound
            have hends := hclear _ _ _ hcompiled start stop hlastFound
              (offset - window.baseOffset) (by omega) (by omega) (by omega)
            refine ⟨hends, fun hliteral => ?_⟩
            have hlength := hliteral.length_le
            rw [List.length_drop] at hlength
            omega

/-! ## Pushes -/

/-- A condition of an expression, which has reported nothing behind `last`. -/
structure Behind (matcher : StreamMatcher) (index : ℕ) (compiled : CompiledMatcher)
    (literalPrefix : Bytes) (last : ℕ) : Prop where
  joined : matcher.bytes ≠ [] → matcher.baseOffset + matcher.bytes.length = matcher.nextOffset
  last_le : last ≤ matcher.nextOffset
  condition : ∃ condition, matcher.matchers[index]? = some condition ∧
    condition.compiled = compiled ∧ Passes matcher condition literalPrefix last

variable {compiled : CompiledMatcher} {offset : ℕ}

/-- A window with the bytes of an event, whether or not there is a gap in front of it. -/
theorem Behind.extend (h : Behind matcher index compiled literalPrefix last)
    (harrives : Arrives matcher.nextOffset start event) :
    Behind (matcher.extend event) index compiled literalPrefix last ∧
      (matcher.extend event).baseOffset + (matcher.extend event).bytes.length =
        start + event.data.length ∧
      (matcher.extend event).nextOffset = start + event.data.length := by
  obtain ⟨condition, hcondition, hcompiled, hpasses⟩ := h.condition
  have hlast := h.last_le
  have hle := harrives.le
  have hstart : matcher.eventStart event = start := by
    rw [StreamMatcher.eventStart, harrives.begins, Option.getD_some]
  have hstop : matcher.eventStop event = start + event.data.length := by
    rw [StreamMatcher.eventStop, harrives.ends, Option.getD_some]
  unfold StreamMatcher.extend
  dsimp only
  rw [hstart, hstop]
  by_cases hgap : matcher.bytes ≠ [] ∧ start ≠ matcher.nextOffset
  · rw [if_pos hgap]
    dsimp only
    rw [if_pos rfl, List.nil_append]
    refine ⟨⟨fun _ => rfl, by dsimp only; omega, condition.restart start, ?_, hcompiled, ?_⟩, rfl, rfl⟩
    · dsimp only
      rw [List.getElem?_map, hcondition]
      rfl
    · intro offset hsearch _ hlt
      change start ≤ offset at hsearch
      omega
  · rw [if_neg hgap]
    by_cases hbytes : matcher.bytes = []
    · rw [if_pos hbytes, hbytes, List.nil_append]
      refine ⟨⟨fun _ => rfl, by dsimp only; omega, condition, hcondition, hcompiled, ?_⟩, rfl, rfl⟩
      intro offset _ hbase hlt
      change start ≤ offset at hbase
      omega
    · have hjoined := h.joined hbytes
      have hnext : start = matcher.nextOffset := not_not.mp fun hne => hgap ⟨hbytes, hne⟩
      rw [if_neg hbytes]
      have hlength : matcher.baseOffset + (matcher.bytes ++ event.data).length =
          start + event.data.length := by
        rw [List.length_append]
        omega
      refine ⟨⟨fun _ => hlength, by dsimp only; omega, condition, hcondition, hcompiled, ?_⟩,
        hlength, rfl⟩
      intro offset hsearch hbase hlt
      dsimp only at hbase ⊢
      rw [List.drop_append_of_le_length (by omega)]
      exact (hpasses offset hsearch hbase hlt).append event.data

theorem Behind.trim (h : Behind window index compiled literalPrefix last)
    (hjoined : window.baseOffset + window.bytes.length = window.nextOffset)
    (hbounded : window.nextOffset ≤ u64Max) :
    Behind window.trim index compiled literalPrefix last ∧
      window.trim.nextOffset = window.nextOffset := by
  obtain ⟨condition, hcondition, hcompiled, hpasses⟩ := h.condition
  unfold StreamMatcher.trim
  split
  case isTrue => exact ⟨h, rfl⟩
  case isFalse hlong =>
    obtain ⟨remove, hremove⟩ : ∃ remove, remove = window.bytes.length - maxMatchWindowBytes :=
      ⟨_, rfl⟩
    have hbase : absoluteOffset window.baseOffset remove = window.baseOffset + remove :=
      satAdd_eq_add (by omega)
    rw [← hremove]
    dsimp only
    rw [hbase]
    refine ⟨⟨fun _ => ?_, h.last_le, condition.trim (window.baseOffset + remove), ?_, hcompiled,
      ?_⟩, rfl⟩
    · dsimp only
      rw [List.length_drop]
      omega
    · dsimp only
      rw [List.getElem?_map, hcondition]
      rfl
    · intro offset hsearch hbehind hlt
      change max condition.searchAfter (window.baseOffset + remove) ≤ offset at hsearch
      change window.baseOffset + remove ≤ offset at hbehind
      have hclash := hpasses offset (by omega) (by omega) hlt
      dsimp only
      rwa [List.drop_drop, show remove + (offset - (window.baseOffset + remove)) =
        offset - window.baseOffset by omega]

/-- A push reports nothing in front of `last`. -/
theorem Behind.push
    (h : Behind matcher index (.regex expression maximumLen literalPrefix requiredLiteral)
      literalPrefix last)
    (hwithin : expression.Within)
    (hbegins : ∀ bytes searchAt start stop,
      expression.findAt bytes searchAt = some (start, stop) →
        literalPrefix <+: bytes.extract start stop)
    (harrives : Arrives matcher.nextOffset offset event) (hdata : event.data ≠ [])
    (hclear : matcher.EndsClear index event) :
    (∀ range, matcher.reportedBy index event = some range →
        last ≤ range.1 ∧ range.1 < range.2) ∧
      (matcher.push event).2.nextOffset = offset + event.data.length ∧
      Behind (matcher.push event).2 index
        (.regex expression maximumLen literalPrefix requiredLiteral) literalPrefix
        (((matcher.reportedBy index event).map Prod.snd).getD last) := by
  obtain ⟨hextended, hlength, hnext⟩ := h.extend harrives
  obtain ⟨condition, hcondition, hcompiled, hpasses⟩ := hextended.condition
  have hbounded := harrives.bounded
  have hlast := hextended.last_le
  obtain ⟨hreports, hscanned⟩ := scan_passes hcompiled hwithin hbegins (by omega) (by omega)
    hpasses (hclear hdata condition hcondition)
  rw [StreamMatcher.reportedBy, if_neg hdata, push_of_ne_nil hdata]
  dsimp only
  rw [scans_getElem? hcondition, Option.bind_some]
  have hrange : ∀ relative ≤ (matcher.extend event).bytes.length,
      absoluteOffset (matcher.extend event).baseOffset relative =
        (matcher.extend event).baseOffset + relative :=
    fun relative hle => satAdd_eq_add (by omega)
  have hafter : ∀ range : Option (ℕ × ℕ),
      (∀ first stop, range = some (first, stop) →
        first < stop ∧ stop ≤ (matcher.extend event).bytes.length) →
      ((range.map fun range =>
        (absoluteOffset (matcher.extend event).baseOffset range.1,
          absoluteOffset (matcher.extend event).baseOffset range.2)).map Prod.snd).getD last =
        lastOf (matcher.extend event).baseOffset last range := by
    intro range hinside
    cases range with
    | none => rfl
    | some range => exact hrange range.2 (hinside range.1 range.2 rfl).2
  rw [hafter _ fun first stop hsome => (hreports first stop hsome).2]
  constructor
  · intro range hsome
    obtain ⟨⟨first, stop⟩, hfound, rfl⟩ := Option.map_eq_some_iff.mp hsome
    obtain ⟨hle, hlt, hinside⟩ := hreports first stop hfound
    dsimp only
    rw [hrange first (by omega), hrange stop hinside]
    omega
  · obtain ⟨scanned, hsame⟩ : ∃ scanned, scanned =
        ({ matcher.extend event with
          matchers := (matcher.extend event).scans.map Prod.snd } : StreamMatcher) := ⟨_, rfl⟩
    have hbehind : Behind scanned index
        (.regex expression maximumLen literalPrefix requiredLiteral) literalPrefix
        (lastOf (matcher.extend event).baseOffset last
          (scanCondition condition (matcher.extend event).bytes
            (matcher.extend event).baseOffset).1) := by
      rw [hsame]
      refine ⟨hextended.joined, ?_, _, ?_, ?_, hscanned⟩
      · cases hfound : (scanCondition condition (matcher.extend event).bytes
            (matcher.extend event).baseOffset).1 with
        | none => exact hextended.last_le
        | some range =>
            have hinside := (hreports range.1 range.2 hfound).2.2
            dsimp only [lastOf]
            omega
      · dsimp only
        rw [List.getElem?_map, scans_getElem? hcondition]
        rfl
      · rw [scanCondition_compiled, hcompiled]
    have htrim := hbehind.trim (by rw [hsame]; exact hlength.trans hnext.symm)
      (by rw [hsame]; exact hnext.le.trans hbounded)
    rw [← hsame]
    refine ⟨htrim.2.trans ?_, htrim.1⟩
    rw [hsame]
    exact hnext

theorem Forward.mono {offset' : ℕ} (h : Forward offset' events) (hle : offset ≤ offset') :
    Forward offset events := by
  cases events with
  | nil => trivial
  | cons event events =>
      obtain ⟨start, harrives, hrest⟩ := h
      exact ⟨start, ⟨hle.trans harrives.le, harrives.begins, harrives.ends, harrives.bounded⟩,
        hrest⟩

/-- The ranges of the pushes come one behind the other. -/
theorem Behind.reports
    (h : Behind matcher index (.regex expression maximumLen literalPrefix requiredLiteral)
      literalPrefix last)
    (hwithin : expression.Within)
    (hbegins : ∀ bytes searchAt start stop,
      expression.findAt bytes searchAt = some (start, stop) →
        literalPrefix <+: bytes.extract start stop)
    (hevents : Forward matcher.nextOffset events)
    (hclear : ∀ before event after, events = before ++ event :: after →
      (matcher.after before).EndsClear index event) :
    (matcher.reports index events).Pairwise (fun earlier later => earlier.2 ≤ later.1) ∧
      ∀ range ∈ matcher.reports index events, last ≤ range.1 ∧ range.1 < range.2 := by
  induction events generalizing matcher last with
  | nil => exact ⟨List.Pairwise.nil, fun range hrange => by cases hrange⟩
  | cons event events ih =>
      obtain ⟨start, harrives, hrest⟩ := hevents
      have hclearRest : ∀ before later after, events = before ++ later :: after →
          ((matcher.push event).2.after before).EndsClear index later := by
        rintro before later after rfl
        exact hclear (event :: before) later after rfl
      rw [StreamMatcher.reports]
      by_cases hdata : event.data = []
      · have hnone : matcher.reportedBy index event = none := if_pos hdata
        rw [push_of_nil hdata] at hclearRest
        have hforward : Forward matcher.nextOffset events :=
          hrest.mono (harrives.le.trans (Nat.le_add_right _ _))
        rw [hnone, push_of_nil hdata]
        exact ih h hforward hclearRest
      · obtain ⟨hreported, hnext, hbehind⟩ :=
          h.push hwithin hbegins harrives hdata (hclear [] event events rfl)
        obtain ⟨hapart, hall⟩ := ih hbehind (hnext ▸ hrest) hclearRest
        cases hrange : matcher.reportedBy index event with
        | none =>
            rw [hrange] at hall
            exact ⟨hapart, hall⟩
        | some range =>
            obtain ⟨hle, hlt⟩ := hreported range hrange
            rw [hrange] at hall
            dsimp only [Option.map_some, Option.getD_some] at hall
            constructor
            · exact List.pairwise_cons.mpr ⟨fun later hlater => (hall later hlater).1, hapart⟩
            · intro later hlater
              rcases List.mem_cons.mp hlater with rfl | hlater
              · exact ⟨hle, hlt⟩
              · have hbehind := hall later hlater
                exact ⟨by omega, hbehind.2⟩

/-! ## Where nothing is cut off inside of a match -/

namespace CompiledCondition.EndsClear

theorem of_bounded {maximum : ℕ}
    (hcompiled : condition.compiled =
      .regex expression (some maximum) literalPrefix requiredLiteral) :
    condition.EndsClear bytes baseOffset := by
  intro expression' literalPrefix' requiredLiteral' hunbounded
  rw [hcompiled] at hunbounded
  cases hunbounded

/-- No end of the window begins the literal prefix. -/
theorem of_end
    (hcompiled : condition.compiled =
      .regex expression maximumLen literalPrefix requiredLiteral)
    (hwithin : expression.Within)
    (hend : ∀ place < bytes.length, bytes.length - place < literalPrefix.length →
      ¬bytes.drop place <+: literalPrefix) :
    condition.EndsClear bytes baseOffset := by
  intro expression' literalPrefix' requiredLiteral' hunbounded start stop hfound place _ hlt hcut
  rw [hcompiled] at hunbounded
  cases hunbounded
  have hbegins : stop ≤ bytes.length ∧ [] <+: bytes.drop start ∧ _ :=
    hfound.begins fun searchAt start stop hfind =>
      ⟨(hwithin _ _ _ _ hfind).2.2, List.nil_prefix⟩
  exact hend place (hlt.trans_le hbegins.1) hcut

theorem of_short
    (hcompiled : condition.compiled =
      .regex expression maximumLen literalPrefix requiredLiteral)
    (hwithin : expression.Within) (hshort : literalPrefix.length ≤ 1) :
    condition.EndsClear bytes baseOffset :=
  of_end hcompiled hwithin fun place hplace hcut => by omega

end CompiledCondition.EndsClear

end

/-! ## Specs -/

section

variable {κ : Type} {library : RegexLibrary κ} {spec : MonitorSpec} {matcher : StreamMatcher}
  {index : ℕ} {source : String} {events : List TimelineEvent}

theorem parseRegexHir_ok {hir : Hir κ} (h : parseRegexHir library source = .ok hir) :
    library.parse source = .ok hir := by
  unfold parseRegexHir at h
  cases hparse : library.parse source with
  | error text =>
      rw [hparse] at h
      cases h
  | ok parsed =>
      rw [hparse] at h
      dsimp only at h
      split at h
      · cases h
      · cases h
      · rw [Except.ok.inj h]

/-- What an expression reports does not overlap in any run in which no literal prefix which the
window cuts off begins inside of a match. -/
theorem regex_ranges_apart (hlibrary : library.IsFaithful)
    (hcompile : StreamMatcher.compile library spec = .ok matcher)
    (hsource : spec.matchers[index]? = some (.regex source))
    (hevents : Forward 0 events)
    (hclear : ∀ before event after, events = before ++ event :: after →
      (matcher.after before).EndsClear index event) :
    (matcher.reports index events).Pairwise (fun earlier later => earlier.2 ≤ later.1) ∧
      ∀ range ∈ matcher.reports index events, range.1 < range.2 := by
  obtain ⟨hall, hbytes, -⟩ := compile_ok hcompile
  have hnext : matcher.nextOffset = 0 := by
    obtain ⟨matchers, -, hmatcher⟩ := Except.exists_of_bind_ok hcompile
    cases hmatcher
    rfl
  rw [← hnext] at hevents
  obtain ⟨condition, hcondition, hcompiled⟩ := forall₂_getElem? hall hsource
  obtain ⟨hir, expression, hparse, hbuild, rfl⟩ := compileCondition_regex hcompiled
  have hfinds := hlibrary.finds source hir expression (parseRegexHir_ok hparse) hbuild
  have hdescribes := describes_analyzeRegexLiterals hlibrary.literal hir
  have hbehind : Behind matcher index
      (.regex expression (library.maximumLen hir)
        (analyzeRegexLiterals library.classes hir).literalPrefix
        ((analyzeRegexLiterals library.classes hir).required.getD []))
      (analyzeRegexLiterals library.classes hir).literalPrefix 0 :=
    { joined := fun hne => absurd hbytes hne
      last_le := Nat.zero_le _
      condition := ⟨_, hcondition, rfl, fun offset _ _ hlt => absurd hlt (Nat.not_lt_zero _)⟩ }
  obtain ⟨hapart, hreports⟩ := hbehind.reports hfinds.within
    (fun bytes searchAt start stop hfind =>
      hdescribes.begins _ (hfinds.consumes bytes searchAt start stop hfind)) hevents hclear
  exact ⟨hapart, fun range hrange => (hreports range hrange).2⟩

end

/-! ## An expression which grows -/

/-- The expression `aa+`. -/
def growingHir : Hir (List (UInt8 × UInt8)) :=
  .concat [.literal [97], .repetition 1 none (.literal [97])]

/-- The leftmost run of at least two bytes `a`. -/
def growingRegex : Regex where
  findAt := fun bytes searchAt =>
    (findLiteral [97, 97] (bytes.drop searchAt)).map fun relative =>
      (searchAt + relative,
        searchAt + relative + ((bytes.drop (searchAt + relative)).takeWhile (· = 97)).length)

def growingLibrary : RegexLibrary (List (UInt8 × UInt8)) where
  classes := byteRanges
  parse := fun source => if source = "aa+" then .ok growingHir else .error "unsupported"
  minimumLen := fun _ => some 2
  maximumLen := fun _ => none
  build := fun source => if source = "aa+" then .ok growingRegex else .error "unsupported"

def growingSpec : MonitorSpec := { literalSpec "aa+" with matchers := [.regex "aa+"] }

def growingMatcher : StreamMatcher where
  matchers :=
    [{ matcher := .regex "aa+"
       compiled := .regex growingRegex none [97, 97] [97, 97]
       searchAfter := 0
       requiredSearchAfter := 0
       pendingRequiredAt := none }]
  bytes := []
  chunks := []
  baseOffset := 0
  nextOffset := 0

/-- Where there is a match, the engine finds one which does not begin behind it. -/
def Regex.FindsFirst {κ : Type} (classes : Classes κ) (hir : Hir κ) (expression : Regex) : Prop :=
  ∀ bytes searchAt start stop, searchAt ≤ start → stop ≤ bytes.length →
    bytes.extract start stop ∈ hir.language classes →
      ∃ first last, expression.findAt bytes searchAt = some (first, last) ∧ first ≤ start

theorem mem_singleton_pow (byte : UInt8) (count : ℕ) :
    List.replicate count byte ∈ ({[byte]} : Language UInt8) ^ count := by
  induction count with
  | zero => exact (Language.mem_one _).mpr rfl
  | succ count ih =>
      rw [pow_succ']
      exact Language.mem_mul.mpr ⟨[byte], rfl, List.replicate count byte, ih, rfl⟩

theorem replicate_mem_growingHir (count : ℕ) :
    List.replicate (count + 2) 97 ∈ growingHir.language byteRanges := by
  have hrest : List.replicate (count + 1) (97 : UInt8) ∈
      (Hir.repetition 1 none (.literal [97])).language byteRanges := by
    unfold Hir.language
    refine Language.mem_iSup.mpr ⟨⟨count + 1, by omega, fun most hmost => by cases hmost⟩, ?_⟩
    unfold Hir.language
    exact mem_singleton_pow 97 (count + 1)
  unfold growingHir Hir.language languages languages languages
  rw [List.prod_cons, List.prod_cons, List.prod_nil, mul_one]
  refine Language.mem_mul.mpr ⟨[97], ?_, _, hrest, rfl⟩
  unfold Hir.language
  rfl

theorem takeWhile_eq_replicate (byte : UInt8) (bytes : Bytes) :
    bytes.takeWhile (· = byte) =
      List.replicate (bytes.takeWhile (· = byte)).length byte := by
  refine List.eq_replicate_of_mem fun other hother => ?_
  simpa using List.all_eq_true.mp List.all_takeWhile other hother

theorem growingRegex_findAt {bytes : Bytes} {searchAt start stop : ℕ}
    (h : growingRegex.findAt bytes searchAt = some (start, stop)) :
    searchAt ≤ start ∧ [97, 97] <+: bytes.drop start ∧
      stop = start + ((bytes.drop start).takeWhile (· = 97)).length := by
  obtain ⟨relative, hfind, hrange⟩ := Option.map_eq_some_iff.mp h
  obtain ⟨rfl, rfl⟩ := Prod.mk.inj hrange
  have hbegins := (findLiteral_some hfind).1
  rw [List.drop_drop] at hbegins
  exact ⟨Nat.le_add_right _ _, hbegins, rfl⟩

theorem growingRegex_finds : growingRegex.Finds byteRanges growingHir where
  within := by
    intro bytes searchAt start stop h
    obtain ⟨hle, hbegins, rfl⟩ := growingRegex_findAt h
    have hrun := (List.takeWhile_prefix (l := bytes.drop start) (· = (97 : UInt8))).length_le
    have hlength := hbegins.length_le
    rw [List.length_drop] at hrun hlength
    exact ⟨hle, Nat.le_add_right _ _, by simp only [List.length_cons] at hlength; omega⟩
  consumes := by
    intro bytes searchAt start stop h
    obtain ⟨-, ⟨rest, hrest⟩, rfl⟩ := growingRegex_findAt h
    have hextract : bytes.extract start
        (start + ((bytes.drop start).takeWhile (· = 97)).length) =
          (bytes.drop start).takeWhile (· = 97) := by
      rw [List.extract_eq_take_drop, Nat.add_sub_cancel_left]
      exact (List.prefix_iff_eq_take.mp (List.takeWhile_prefix _)).symm
    have hrun : (bytes.drop start).takeWhile (· = 97) =
        List.replicate ((rest.takeWhile (· = 97)).length + 2) 97 := by
      rw [takeWhile_eq_replicate, ← hrest]
      rfl
    rw [hextract, hrun]
    exact replicate_mem_growingHir _

theorem growingRegex_findsFirst : growingRegex.FindsFirst byteRanges growingHir := by
  intro bytes searchAt start stop hle _ hword
  have hbegins : [97, 97] <+: bytes.extract start stop :=
    (describes_analyzeRegexLiterals byteRanges_literal growingHir).begins _ hword
  have hdrop : [97, 97] <+: bytes.drop start := hbegins.trans (List.take_prefix _ _)
  rw [← Nat.add_sub_cancel' hle, ← List.drop_drop] at hdrop
  cases hfind : findLiteral [97, 97] (bytes.drop searchAt) with
  | none => exact absurd hdrop (findLiteral_none (List.cons_ne_nil _ _) hfind _)
  | some relative =>
      have hfirst : relative ≤ start - searchAt := by
        by_contra hlater
        exact (findLiteral_some hfind).2 _ (Nat.lt_of_not_le hlater) hdrop
      exact ⟨_, _, congrArg (Option.map _) hfind, by omega⟩

theorem growingLibrary_isFaithful : growingLibrary.IsFaithful where
  literal := byteRanges_literal
  finds := by
    intro source hir expression hparse hbuild
    unfold growingLibrary at hparse hbuild
    dsimp only at hparse hbuild
    split at hparse
    case isFalse => cases hparse
    case isTrue hsource =>
      rw [if_pos hsource] at hbuild
      rw [← Except.ok.inj hparse, ← Except.ok.inj hbuild]
      exact growingRegex_finds

/-- A match which has been reported is reported again when its run of bytes goes on. -/
theorem growing_match_overlaps :
    growingLibrary.IsFaithful ∧ growingRegex.FindsFirst byteRanges growingHir ∧
      validateSpec growingLibrary.regexError growingSpec = .ok () ∧
      StreamMatcher.compile growingLibrary growingSpec = .ok growingMatcher ∧
      Forward 0 [rxEvent 1 0 [97, 97], rxEvent 2 2 [97]] ∧
      growingMatcher.reports 0 [rxEvent 1 0 [97, 97], rxEvent 2 2 [97]] = [(0, 2), (1, 3)] ∧
      ¬(growingMatcher.reports 0 [rxEvent 1 0 [97, 97], rxEvent 2 2 [97]]).Pairwise
        (fun earlier later => earlier.2 ≤ later.1) := by
  have hreports : growingMatcher.reports 0 [rxEvent 1 0 [97, 97], rxEvent 2 2 [97]] =
      [(0, 2), (1, 3)] := by decide
  refine ⟨growingLibrary_isFaithful, growingRegex_findsFirst, by decide, rfl,
    ⟨0, ⟨le_refl _, rfl, rfl, by decide⟩, 2, ⟨le_refl _, rfl, rfl, by decide⟩, trivial⟩,
    hreports, ?_⟩
  rw [hreports]
  decide

/-- Where the window ends with another byte, the next run is a match of its own. -/
theorem growing_match_apart :
    (growingMatcher.reports 0 [rxEvent 1 0 [97, 97, 98], rxEvent 2 3 [97, 97, 98]]).Pairwise
      (fun earlier later => earlier.2 ≤ later.1) := by
  have hcompile : StreamMatcher.compile growingLibrary growingSpec = .ok growingMatcher := rfl
  have hsource : growingSpec.matchers[0]? = some (.regex "aa+") := rfl
  have hevents : Forward 0 [rxEvent 1 0 [97, 97, 98], rxEvent 2 3 [97, 97, 98]] :=
    ⟨0, ⟨le_refl _, rfl, rfl, by decide⟩, 3, ⟨le_refl _, rfl, rfl, by decide⟩, trivial⟩
  refine (regex_ranges_apart growingLibrary_isFaithful hcompile hsource hevents ?_).1
  have hclear : ∀ (condition : CompiledCondition) (bytes : Bytes) (baseOffset : ℕ),
      condition.compiled = .regex growingRegex none [97, 97] [97, 97] →
      (∀ place < bytes.length, bytes.length - place < 2 → ¬bytes.drop place <+: [97, 97]) →
        condition.EndsClear bytes baseOffset :=
    fun condition bytes baseOffset hcompiled hend =>
      .of_end hcompiled growingRegex_finds.within hend
  intro before event after hsplit _ condition hcondition
  rcases before with _ | ⟨first, _ | ⟨second, before⟩⟩
  · cases hsplit
    refine hclear condition _ _ ?_ (by decide)
    rw [← Option.some.inj hcondition]
  · cases hsplit
    refine hclear condition _ _ ?_ (by decide)
    rw [← Option.some.inj hcondition]
    rfl
  · simp at hsplit

end SerialPlatform.Monitor
