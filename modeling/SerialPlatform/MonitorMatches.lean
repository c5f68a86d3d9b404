import SerialPlatform.MonitorStream

/-!
# The matches of a literal in a stream

However the bytes are divided, the searches for a literal take the leftmost occurrences of
the whole stream, each with the event which brings its last byte.
-/

namespace SerialPlatform.Monitor

/-- What a literal's condition has taken of a stream. -/
structure Searched (offset : ℕ) (stream pattern : Bytes) (stops : List ℕ)
    (condition : CompiledCondition) : Prop where
  compiled : condition.compiled = .literal pattern
  leftmost : IsLeftmost pattern stream 0 stops
  passed : ∀ stop ∈ stops, offset + stop ≤ condition.searchAfter
  covered : ∀ stop, stream.length < stop → pattern.length ≤ stop →
    offset + stop < condition.searchAfter + pattern.length →
    ∃ taken ∈ stops, taken ≤ stop ∧ stop < taken + pattern.length
  bounded : condition.searchAfter ≤ offset + stream.length

section

variable {offset : ℕ} {events before after : List TimelineEvent} {event : TimelineEvent}
  {matcher window : StreamMatcher} {condition : CompiledCondition} {pattern : Bytes}
  {stops : List ℕ} {index : ℕ}

/-- Where a condition's next search starts in the window. -/
def searchOrigin (window : StreamMatcher) (condition : CompiledCondition) : ℕ :=
  relativeOffset condition.searchAfter window.baseOffset window.bytes.length

/-- What a push takes for a literal, as places of the stream. -/
def newStops (offset : ℕ) (window : StreamMatcher) (condition : CompiledCondition)
    (pattern : Bytes) : List ℕ :=
  (literalStops window.bytes pattern (searchOrigin window condition)).map
    (window.baseOffset - offset + ·)

theorem Searched.origin_eq (h : Searched offset (streamOf before) pattern stops condition)
    (hwindow : Window offset (before ++ [event]) window) :
    window.baseOffset + searchOrigin window condition =
      max condition.searchAfter window.baseOffset := by
  have hbounded := h.bounded
  have hlength := hwindow.length_eq
  rw [streamOf_concat, List.length_append] at hlength
  unfold searchOrigin relativeOffset
  omega

/-- The occurrences behind the search so far, in the whole stream. -/
theorem isLeftmost_newStops (hwindow : Window offset events window) (hpattern : pattern ≠ []) :
    IsLeftmost pattern (streamOf events)
      (window.baseOffset - offset + searchOrigin window condition)
      (newStops offset window condition pattern) := by
  have hends := hwindow.ends
  have hlocal : IsLeftmost pattern window.bytes (searchOrigin window condition)
      (literalStops window.bytes pattern (searchOrigin window condition)) :=
    isLeftmost_literalStops hpattern
  rw [hwindow.bytes] at hlocal
  have hwhole := hlocal.of_drop (by omega)
  rw [← hwindow.bytes] at hwhole
  exact hwhole

theorem Searched.covered_of_lt (h : Searched offset (streamOf before) pattern stops condition)
    (hwindow : Window offset (before ++ [event]) window)
    (hbase : window.baseOffset = offset ∨ window.baseOffset ≤ condition.searchAfter) {stop : ℕ}
    (hnew : (streamOf before).length < stop) (hstop : pattern.length ≤ stop)
    (hlt : stop < window.baseOffset - offset + searchOrigin window condition + pattern.length) :
    ∃ taken ∈ stops, taken ≤ stop ∧ stop < taken + pattern.length := by
  have horigin := h.origin_eq hwindow
  have hbegins := hwindow.begins
  exact h.covered stop hnew hstop (by omega)

theorem Searched.leftmost_append
    (h : Searched offset (streamOf before) pattern stops condition)
    (hwindow : Window offset (before ++ [event]) window) (hpattern : pattern ≠ [])
    (hbase : window.baseOffset = offset ∨ window.baseOffset ≤ condition.searchAfter) :
    IsLeftmost pattern (streamOf (before ++ [event])) 0
      (stops ++ newStops offset window condition pattern) := by
  have hnews : IsLeftmost pattern (streamOf (before ++ [event])) _
      (newStops offset window condition pattern) := isLeftmost_newStops hwindow hpattern
  rw [streamOf_concat] at hnews ⊢
  have horigin := h.origin_eq hwindow
  have hbegins := hwindow.begins
  refine h.leftmost.append hnews (fun stop hstop => ?_) fun stop hnew hstop hlt =>
    h.covered_of_lt hwindow hbase hnew hstop hlt
  have hpassed := h.passed stop hstop
  omega

/-- What a push takes ends with a byte of its event. -/
theorem Searched.lt_of_mem_newStops
    (h : Searched offset (streamOf before) pattern stops condition)
    (hwindow : Window offset (before ++ [event]) window) (hpattern : pattern ≠ []) {stop : ℕ}
    (hstop : stop ∈ newStops offset window condition pattern) :
    (streamOf before).length < stop ∧
      stop ≤ (streamOf before).length + event.data.length := by
  have hnews : IsLeftmost pattern (streamOf (before ++ [event])) _
      (newStops offset window condition pattern) := isLeftmost_newStops hwindow hpattern
  have hends := hnews.occurs stop hstop
  have hbehind := hnews.behind stop hstop
  have horigin := h.origin_eq hwindow
  have hbegins := hwindow.begins
  rw [streamOf_concat] at hends
  constructor
  · by_contra hold
    obtain ⟨taken, htaken, -, hlt⟩ := h.leftmost.covers stop
      ((EndsAt.append_iff (Nat.not_lt.mp hold)).mp hends) (by omega)
    have hpassed := h.passed taken htaken
    omega
  · have hle := hends.1
    rw [List.length_append] at hle
    exact hle

/-- Through where a window is searched for a literal. -/
def searchedThrough (window : StreamMatcher) (condition : CompiledCondition) (pattern : Bytes) : ℕ :=
  (literalStops window.bytes pattern (searchOrigin window condition)).getLast?.getD
    (searchOrigin window condition)

theorem scanCondition_literal (hcompiled : condition.compiled = .literal pattern) :
    scanCondition condition window.bytes window.baseOffset =
      (hull pattern.length (literalStops window.bytes pattern (searchOrigin window condition)),
        { condition with
          searchAfter := absoluteOffset window.baseOffset
            (max (searchedThrough window condition pattern)
              (window.bytes.length - (pattern.length - 1))) }) := by
  have hliteral : scanCondition condition window.bytes window.baseOffset =
      scanLiteral condition pattern window.bytes window.baseOffset := by
    rw [scanCondition, hcompiled]
  rw [hliteral, scanLiteral, findLiteralMatches_eq]
  rfl

theorem searchOrigin_le (window : StreamMatcher) (condition : CompiledCondition) :
    searchOrigin window condition ≤ window.bytes.length := min_le_right _ _

variable (window condition) in
theorem searchedThrough_spec (hpattern : pattern ≠ []) :
    searchOrigin window condition ≤ searchedThrough window condition pattern ∧
      searchedThrough window condition pattern ≤ window.bytes.length ∧
      ∀ stop ∈ literalStops window.bytes pattern (searchOrigin window condition),
        stop ≤ searchedThrough window condition pattern := by
  have hlocal : IsLeftmost pattern window.bytes (searchOrigin window condition)
      (literalStops window.bytes pattern (searchOrigin window condition)) :=
    isLeftmost_literalStops hpattern
  have horigin := searchOrigin_le window condition
  unfold searchedThrough
  rcases List.eq_nil_or_concat' (literalStops window.bytes pattern (searchOrigin window condition))
    with hnil | ⟨others, last, hstops⟩
  · rw [hnil]
    exact ⟨le_refl _, horigin, fun stop hstop => by cases hstop⟩
  · rw [hstops] at hlocal ⊢
    rw [List.getLast?_concat, Option.getD_some]
    have hlast := hlocal.behind last (List.mem_append_right _ (List.mem_singleton_self last))
    have hends := hlocal.occurs last (List.mem_append_right _ (List.mem_singleton_self last))
    refine ⟨by omega, hends.1, fun stop hstop => ?_⟩
    rcases List.mem_append.mp hstop with hstop | hstop
    · have hapart := (List.pairwise_append.mp hlocal.apart).2.2 stop hstop last
        (List.mem_singleton_self last)
      omega
    · exact (List.mem_singleton.mp hstop).le

variable (window condition pattern) in
/-- Where a search does not move, it has found nothing. -/
theorem searchedThrough_cases :
    literalStops window.bytes pattern (searchOrigin window condition) = [] ∧
        searchedThrough window condition pattern = searchOrigin window condition ∨
      searchedThrough window condition pattern ∈
        literalStops window.bytes pattern (searchOrigin window condition) := by
  unfold searchedThrough
  rcases List.eq_nil_or_concat' (literalStops window.bytes pattern (searchOrigin window condition))
    with hnil | ⟨others, last, hstops⟩
  · rw [hnil]
    exact Or.inl ⟨rfl, rfl⟩
  · rw [hstops, List.getLast?_concat, Option.getD_some]
    exact Or.inr (List.mem_append_right _ (List.mem_singleton_self last))

/-- The condition behind the search of a window. -/
theorem Searched.scan (h : Searched offset (streamOf before) pattern stops condition)
    (hwindow : Window offset (before ++ [event]) window) (hpattern : pattern ≠ [])
    (hlong : pattern.length ≤ maxMatchWindowBytes)
    (hbase : window.baseOffset = offset ∨ window.baseOffset ≤ condition.searchAfter) :
    Searched offset (streamOf (before ++ [event])) pattern
      (stops ++ newStops offset window condition pattern)
      (scanCondition condition window.bytes window.baseOffset).2 := by
  have hpositive : 0 < pattern.length := List.length_pos_iff.mpr hpattern
  obtain ⟨horiginLe, hthroughLe, hfound⟩ :=
    searchedThrough_spec window condition hpattern
  have horigin := h.origin_eq hwindow
  have hlength := hwindow.length_eq
  have hbegins := hwindow.begins
  have hgrown : (streamOf before).length ≤ (streamOf (before ++ [event])).length := by
    rw [streamOf_concat, List.length_append]
    exact Nat.le_add_right _ _
  have hafter : absoluteOffset window.baseOffset
      (max (searchedThrough window condition pattern)
        (window.bytes.length - (pattern.length - 1))) =
      window.baseOffset + max (searchedThrough window condition pattern)
        (window.bytes.length - (pattern.length - 1)) :=
    hwindow.absoluteOffset_eq (max_le hthroughLe (Nat.sub_le _ _))
  rw [scanCondition_literal h.compiled]
  dsimp only
  rw [hafter]
  refine
    { compiled := h.compiled
      leftmost := h.leftmost_append hwindow hpattern hbase
      passed := ?_
      covered := ?_
      bounded := ?_ }
  · intro stop hstop
    dsimp only
    rcases List.mem_append.mp hstop with hstop | hstop
    · have hpassed := h.passed stop hstop
      omega
    · obtain ⟨inner, hinner, rfl⟩ := List.mem_map.mp hstop
      have hle := hfound inner hinner
      omega
  · intro stop hnew hstop hlt
    dsimp only at hlt
    have hretained := hwindow.retained
    -- Behind the window's end only a match which is cut off could start later.
    have hinside : offset + stop <
        window.baseOffset + searchedThrough window condition pattern + pattern.length := by
      omega
    rcases searchedThrough_cases window condition pattern with ⟨-, hstill⟩ | hlast
    · obtain ⟨taken, htaken, hcovers⟩ :=
        h.covered_of_lt hwindow hbase (by omega) hstop (by omega)
      exact ⟨taken, List.mem_append_left _ htaken, hcovers⟩
    · exact ⟨_, List.mem_append_right _ (List.mem_map_of_mem hlast), by omega, by omega⟩
  · dsimp only
    have hsuffix : window.bytes.length - (pattern.length - 1) ≤ window.bytes.length :=
      Nat.sub_le _ _
    have hmax := max_le hthroughLe hsuffix
    omega

/-! ## Pushes -/

theorem Window.trim_baseOffset (h : Window offset events window) :
    window.trim.baseOffset =
      window.baseOffset + (window.bytes.length - maxMatchWindowBytes) := by
  unfold StreamMatcher.trim
  split
  case isTrue hle => rw [Nat.sub_eq_zero_of_le hle, Nat.add_zero]
  case isFalse => exact h.absoluteOffset_eq (Nat.sub_le _ _)

/-- A condition which has searched through the new window is not moved by the trim. -/
theorem trim_matchers (hcondition : window.matchers[index]? = some condition)
    (hbase : window.trim.baseOffset ≤ condition.searchAfter) :
    ∃ next, window.trim.matchers[index]? = some next ∧ next.compiled = condition.compiled ∧
      next.searchAfter = condition.searchAfter := by
  unfold StreamMatcher.trim at hbase ⊢
  split
  case isTrue => exact ⟨condition, hcondition, rfl, rfl⟩
  case isFalse hlong =>
    rw [if_neg hlong] at hbase
    refine ⟨condition.trim (absoluteOffset window.baseOffset
      (window.bytes.length - maxMatchWindowBytes)), ?_, rfl, max_eq_left hbase⟩
    dsimp only
    rw [List.getElem?_map, hcondition]
    rfl

theorem scans_getElem? (hcondition : window.matchers[index]? = some condition) :
    window.scans[index]? = some (scanCondition condition window.bytes window.baseOffset) := by
  rw [StreamMatcher.scans, List.getElem?_map, hcondition]
  rfl

theorem literalRanges_eq (hwindow : Window offset events window) (hpattern : pattern ≠ [])
    (hcompiled : condition.compiled = .literal pattern) :
    condition.literalRanges window.bytes window.baseOffset =
      (newStops offset window condition pattern).map fun stop =>
        (offset + stop - pattern.length, offset + stop) := by
  have hlocal : IsLeftmost pattern window.bytes (searchOrigin window condition)
      (literalStops window.bytes pattern (searchOrigin window condition)) :=
    isLeftmost_literalStops hpattern
  have hbegins := hwindow.begins
  unfold CompiledCondition.literalRanges newStops
  rw [hcompiled, List.map_map]
  refine List.map_congr_left fun stop hstop => ?_
  have hends := (hlocal.occurs stop hstop).1
  have hbehind := hlocal.behind stop hstop
  dsimp only [Function.comp]
  rw [hwindow.absoluteOffset_eq hends, hwindow.absoluteOffset_eq (by omega)]
  congr 1 <;> omega

theorem Searched.push (h : Searched offset (streamOf before) pattern stops condition)
    (htracks : Tracks offset before matcher) (hevents : Contiguous offset (before ++ [event]))
    (hpattern : pattern ≠ []) (hlong : pattern.length ≤ maxMatchWindowBytes)
    (hcondition : matcher.matchers[index]? = some condition)
    (hbase : streamOf before ≠ [] → matcher.baseOffset ≤ condition.searchAfter) :
    ∃ news next, (matcher.push event).2.matchers[index]? = some next ∧
      Searched offset (streamOf (before ++ [event])) pattern (stops ++ news) next ∧
      (streamOf (before ++ [event]) ≠ [] → (matcher.push event).2.baseOffset ≤ next.searchAfter) ∧
      (∀ stop ∈ news, (streamOf before).length < stop ∧
        stop ≤ (streamOf before).length + event.data.length) ∧
      matcher.consumed index event =
        news.map fun stop => (offset + stop - pattern.length, offset + stop) := by
  by_cases hdata : event.data = []
  · have hstream : streamOf (before ++ [event]) = streamOf before := by
      rw [streamOf_concat, hdata, List.append_nil]
    rw [push_of_nil hdata, hstream]
    refine ⟨[], condition, hcondition, ?_, hbase, fun stop hstop => (by cases hstop), ?_⟩
    · rw [List.append_nil]
      exact h
    · exact if_pos hdata
  · obtain ⟨hwindow, hmatchers⟩ := htracks.extend hdata hevents
    have hextended : (matcher.extend event).baseOffset = offset ∨
        (matcher.extend event).baseOffset ≤ condition.searchAfter := by
      rw [htracks.extend_baseOffset hevents]
      split
      case isTrue => exact Or.inl rfl
      case isFalse hne => exact Or.inr (hbase hne)
    rw [← hmatchers] at hcondition
    have hscan := h.scan hwindow hpattern hlong hextended
    have hscanned : ({ matcher.extend event with
        matchers := (matcher.extend event).scans.map Prod.snd } :
          StreamMatcher).matchers[index]? =
        some (scanCondition condition (matcher.extend event).bytes
          (matcher.extend event).baseOffset).2 := by
      rw [List.getElem?_map, scans_getElem? hcondition]
      rfl
    have hwindow' := hwindow.withMatchers ((matcher.extend event).scans.map Prod.snd)
    have hkept : ({ matcher.extend event with
        matchers := (matcher.extend event).scans.map Prod.snd } :
          StreamMatcher).trim.baseOffset ≤
        (scanCondition condition (matcher.extend event).bytes
          (matcher.extend event).baseOffset).2.searchAfter := by
      have hpositive : 0 < pattern.length := List.length_pos_iff.mpr hpattern
      obtain ⟨-, hthroughLe, -⟩ :=
        searchedThrough_spec (matcher.extend event) condition hpattern
      rw [hwindow'.trim_baseOffset, scanCondition_literal h.compiled]
      dsimp only
      rw [hwindow.absoluteOffset_eq (max_le hthroughLe (Nat.sub_le _ _))]
      omega
    obtain ⟨next, hnext, hcompiled, hsearch⟩ := trim_matchers hscanned hkept
    rw [push_of_ne_nil hdata]
    refine ⟨newStops offset (matcher.extend event) condition pattern, next, hnext, ?_, ?_, ?_, ?_⟩
    · exact
        { compiled := hcompiled.trans hscan.compiled
          leftmost := hscan.leftmost
          passed := fun stop hstop => hsearch ▸ hscan.passed stop hstop
          covered := fun stop hnew hstop hlt => hscan.covered stop hnew hstop (hsearch ▸ hlt)
          bounded := hsearch ▸ hscan.bounded }
    · intro _
      rw [hsearch]
      exact hkept
    · exact fun stop hstop => h.lt_of_mem_newStops hwindow hpattern hstop
    · rw [StreamMatcher.consumed, if_neg hdata]
      dsimp only
      rw [hcondition]
      exact literalRanges_eq hwindow hpattern h.compiled

/-! ## Streams -/

theorem filter_append_before {news : List ℕ} {low high : ℕ}
    (hnews : ∀ stop ∈ news, high < stop) :
    (stops ++ news).filter (fun stop => low < stop ∧ stop ≤ high) =
      stops.filter fun stop => low < stop ∧ stop ≤ high := by
  have hnone : news.filter (fun stop => decide (low < stop ∧ stop ≤ high)) = [] := by
    refine List.filter_eq_nil_iff.mpr fun stop hstop => ?_
    have hbehind := hnews stop hstop
    rw [decide_eq_true_eq]
    omega
  rw [List.filter_append, hnone, List.append_nil]

theorem filter_append_behind {news : List ℕ} {low high : ℕ} (hstops : ∀ stop ∈ stops, stop ≤ low)
    (hnews : ∀ stop ∈ news, low < stop ∧ stop ≤ high) :
    (stops ++ news).filter (fun stop => low < stop ∧ stop ≤ high) = news := by
  have hnone : stops.filter (fun stop => decide (low < stop ∧ stop ≤ high)) = [] := by
    refine List.filter_eq_nil_iff.mpr fun stop hstop => ?_
    have hbefore := hstops stop hstop
    rw [decide_eq_true_eq]
    omega
  have hall : news.filter (fun stop => decide (low < stop ∧ stop ≤ high)) = news :=
    List.filter_eq_self.mpr fun stop hstop => decide_eq_true (hnews stop hstop)
  rw [List.filter_append, hnone, hall, List.nil_append]

/-- What the pushes of a stream take for a literal. -/
theorem exists_searched (htracks : Tracks offset [] matcher)
    (hcondition : matcher.matchers[index]? = some condition)
    (hfresh : Searched offset [] pattern [] condition) (hpattern : pattern ≠ [])
    (hlong : pattern.length ≤ maxMatchWindowBytes) (hevents : Contiguous offset events) :
    ∃ stops next, (matcher.after events).matchers[index]? = some next ∧
      Searched offset (streamOf events) pattern stops next ∧
      (streamOf events ≠ [] → (matcher.after events).baseOffset ≤ next.searchAfter) ∧
      ∀ before event after, events = before ++ event :: after →
        (matcher.after before).consumed index event =
          (stops.filter fun stop => (streamOf before).length < stop ∧
            stop ≤ (streamOf before).length + event.data.length).map
              fun stop => (offset + stop - pattern.length, offset + stop) := by
  induction events using List.reverseRecOn with
  | nil =>
      refine ⟨[], condition, hcondition, hfresh, fun hne => absurd rfl hne, ?_⟩
      intro before event after hsplit
      exact absurd hsplit.symm (List.append_ne_nil_of_right_ne_nil _ (List.cons_ne_nil _ _))
  | append_singleton events last ih =>
      have hbefore := (Contiguous.append_iff.mp hevents).1
      obtain ⟨stops, now, hnow, hsearched, hbase, hconsumed⟩ := ih hbefore
      have htracksNow := tracks_after htracks hbefore
      obtain ⟨news, next, hnext, hsearchedNext, hbaseNext, hnews, htaken⟩ :=
        hsearched.push htracksNow hevents hpattern hlong hnow hbase
      refine ⟨stops ++ news, next, ?_, hsearchedNext, ?_, ?_⟩
      · rw [after_concat]
        exact hnext
      · rw [after_concat]
        exact hbaseNext
      · intro before event after hsplit
        rcases List.eq_nil_or_concat' after with rfl | ⟨others, final, rfl⟩
        · obtain ⟨rfl, hsame⟩ := List.append_inj' hsplit rfl
          obtain rfl := (List.cons.inj hsame).1
          rw [filter_append_behind
            (fun stop hstop => (hsearched.leftmost.occurs stop hstop).1) hnews]
          exact htaken
        · rw [← List.cons_append, ← List.append_assoc] at hsplit
          obtain ⟨rfl, -⟩ := List.append_inj' hsplit rfl
          have hlength : (streamOf (before ++ event :: others)).length =
              (streamOf before).length + (event.data.length + (streamOf others).length) := by
            rw [streamOf_append, List.length_append, length_streamOf_cons]
          rw [filter_append_before fun stop hstop => by
            have hbehind := (hnews stop hstop).1
            omega]
          exact hconsumed before event others rfl

end

end SerialPlatform.Monitor
