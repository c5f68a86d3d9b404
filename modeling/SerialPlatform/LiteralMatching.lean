import SerialPlatform.Occurrences
import SerialPlatform.SlotTrigger

/-!
# Matching a stream chunk by chunk

A matcher keeps the last bytes it saw, one less than its longest pattern has.
After any pushes its window is therefore the end of the stream, long enough to
hold every occurrence that ends in the newest chunk.  A shorter pattern may lie
in the kept bytes as a whole, so a matcher with several patterns can report an
occurrence again; the first report is always of a new one.
-/

namespace SerialPlatform

theorem containsBytes_iff {haystack needle : Bytes} (hneedle : needle ≠ []) :
    containsBytes haystack needle = true ↔ needle <:+: haystack := by
  simp [containsBytes, hneedle]

namespace LiteralMatcher

variable {patterns chunks rest : List Bytes} {data pattern stream : Bytes}

/-- The matcher after some pushes, and what each of them returned. -/
def pushAll (matcher : LiteralMatcher) :
    List Bytes → LiteralMatcher × List (Option Bytes)
  | [] => (matcher, [])
  | data :: rest =>
      let pushed := matcher.push data
      let after := pushAll pushed.1 rest
      (after.1, pushed.2 :: after.2)

/-! ## What is kept -/

/-- The matcher has seen `stream`. -/
structure Saw (patterns : List Bytes) (stream : Bytes) (matcher : LiteralMatcher) : Prop where
  patterns_eq : matcher.patterns = patterns
  longest_eq : matcher.maximumPatternLen = (new patterns).maximumPatternLen
  tail_eq : matcher.tail = stream.drop (stream.length - (matcher.maximumPatternLen - 1))

theorem length_le_maximumPatternLen (hpattern : pattern ∈ patterns) :
    pattern.length ≤ (new patterns).maximumPatternLen := by
  have hlengths : pattern.length ∈ patterns.map List.length :=
    List.mem_map_of_mem hpattern
  have hmax : ∀ (lengths : List ℕ) (start length : ℕ),
      length ∈ lengths ∨ length ≤ start → length ≤ lengths.foldl max start := by
    intro lengths
    induction lengths with
    | nil =>
        intro start length hlength
        simpa using hlength
    | cons first lengths ih =>
        intro start length hlength
        apply ih
        simp only [List.mem_cons] at hlength
        rcases hlength with (rfl | hlength) | hlength
        · right
          exact le_max_right _ _
        · left
          exact hlength
        · right
          exact le_trans hlength (le_max_left _ _)
  exact hmax _ 0 _ (Or.inl hlengths)

theorem Saw.new (patterns : List Bytes) : Saw patterns [] (new patterns) := by
  constructor <;> simp [LiteralMatcher.new]

variable {matcher : LiteralMatcher}

/-- The window of a push is the end of the stream with the new chunk. -/
theorem Saw.window_eq (hsaw : Saw patterns stream matcher) (data : Bytes) :
    matcher.tail ++ data =
      (stream ++ data).drop (stream.length - (matcher.maximumPatternLen - 1)) := by
  rw [hsaw.tail_eq, List.drop_append_of_le_length (Nat.sub_le _ _)]

theorem Saw.push (hsaw : Saw patterns stream matcher) (hsome : patterns ≠ []) (data : Bytes) :
    Saw patterns (stream ++ data) (matcher.push data).1 := by
  have hpatterns : matcher.patterns ≠ [] := by
    rw [hsaw.patterns_eq]
    exact hsome
  constructor
  · simp only [LiteralMatcher.push, hpatterns, if_false]
    exact hsaw.patterns_eq
  · simp only [LiteralMatcher.push, hpatterns, if_false]
    exact hsaw.longest_eq
  · simp only [LiteralMatcher.push, hpatterns, if_false]
    rw [hsaw.window_eq data, List.drop_drop]
    congr 1
    simp only [List.length_drop, List.length_append]
    omega

theorem Saw.pushAll (hsome : patterns ≠ []) :
    ∀ (chunks : List Bytes) {stream : Bytes} {matcher : LiteralMatcher},
      Saw patterns stream matcher →
      Saw patterns (stream ++ chunks.flatten) (matcher.pushAll chunks).1
  | [], stream, matcher, hsaw => by
      simpa [LiteralMatcher.pushAll] using hsaw
  | data :: rest, stream, matcher, hsaw => by
      have hrest := Saw.pushAll hsome rest (hsaw.push hsome data)
      simpa [LiteralMatcher.pushAll, List.append_assoc] using hrest

/-! ## What one push returns -/

theorem push_eq_some (hsaw : Saw patterns stream matcher) (hfull : ∀ p ∈ patterns, p ≠ [])
    (hpush : (matcher.push data).2 = some pattern) :
    pattern ∈ patterns ∧ pattern <:+: matcher.tail ++ data := by
  simp only [LiteralMatcher.push] at hpush
  split at hpush
  · cases hpush
  · have hmem := List.mem_of_find?_eq_some hpush
    rw [hsaw.patterns_eq] at hmem
    have hfound := List.find?_some hpush
    exact ⟨hmem, (containsBytes_iff (hfull pattern hmem)).1 hfound⟩

theorem push_isSome (hsaw : Saw patterns stream matcher) (hfull : ∀ p ∈ patterns, p ≠ []) :
    (matcher.push data).2.isSome ↔
      ∃ pattern ∈ patterns, pattern <:+: matcher.tail ++ data := by
  have hfind : (matcher.push data).2 =
      patterns.find? fun pattern => containsBytes (matcher.tail ++ data) pattern := by
    rw [← hsaw.patterns_eq]
    simp only [LiteralMatcher.push]
    split
    · rename_i hempty
      rw [hempty, List.find?_nil]
    · rfl
  rw [hfind, List.find?_isSome]
  constructor
  · intro hfound
    obtain ⟨pattern, hmem, hcontains⟩ := hfound
    exact ⟨pattern, hmem, (containsBytes_iff (hfull pattern hmem)).1 hcontains⟩
  · intro hfound
    obtain ⟨pattern, hmem, hinside⟩ := hfound
    exact ⟨pattern, hmem, (containsBytes_iff (hfull pattern hmem)).2 hinside⟩

/-- An occurrence which ends in the new chunk is seen. -/
theorem push_isSome_of_endsAt (hsaw : Saw patterns stream matcher)
    (hfull : ∀ p ∈ patterns, p ≠ []) {stop : ℕ} (hnew : stream.length < stop)
    (hends : stop ∈ someEnds patterns (stream ++ data)) :
    (matcher.push data).2.isSome := by
  obtain ⟨pattern, hmem, hends⟩ := hends
  have hlength := length_le_maximumPatternLen hmem
  have hnonempty := List.length_pos_iff.2 (hfull pattern hmem)
  have hfits := hends.length_le
  rw [push_isSome hsaw hfull, hsaw.window_eq data]
  refine ⟨pattern, hmem, hends.infix_drop ?_⟩
  rw [hsaw.longest_eq]
  omega

/-- Whatever a push returns ends somewhere in the stream. -/
theorem exists_endsAt_of_push (hsaw : Saw patterns stream matcher)
    (hfull : ∀ p ∈ patterns, p ≠ []) (hpush : (matcher.push data).2 = some pattern) :
    ∃ stop, stream.length - (matcher.maximumPatternLen - 1) + pattern.length ≤ stop ∧
      EndsAt pattern (stream ++ data) stop := by
  have hinside := (push_eq_some hsaw hfull hpush).2
  rw [hsaw.window_eq data] at hinside
  apply exists_endsAt_of_infix_drop _ hinside
  simp only [List.length_append]
  omega

/-- As long as nothing ended before, a push returns a pattern exactly if one
ends in its data. -/
theorem push_isSome_iff (hsaw : Saw patterns stream matcher)
    (hfull : ∀ p ∈ patterns, p ≠ []) (hnone : someEnds patterns stream = ∅) :
    (matcher.push data).2.isSome ↔ (someEnds patterns (stream ++ data)).Nonempty := by
  constructor
  · intro hpush
    obtain ⟨pattern, hpattern⟩ := Option.isSome_iff_exists.1 hpush
    have hmem := (push_eq_some hsaw hfull hpattern).1
    obtain ⟨stop, -, hends⟩ := exists_endsAt_of_push hsaw hfull hpattern
    exact ⟨stop, pattern, hmem, hends⟩
  · intro hsome
    obtain ⟨stop, hends⟩ := hsome
    exact push_isSome_of_endsAt hsaw hfull (length_lt_of_mem_someEnds hnone hends) hends

/-- An end in the newest chunk is one of the whole stream. -/
theorem exists_endsAt_in_newest {stop : ℕ} (hends : EndsAt pattern (stream ++ data) stop)
    (hnew : stream.length < stop) (more : Bytes) :
    ∃ stop, EndsAt pattern (stream ++ data ++ more) stop ∧
      stream.length < stop ∧ stop ≤ stream.length + data.length := by
  have hstop := hends.1
  refine ⟨stop, (EndsAt.append_iff hstop).2 hends, hnew, ?_⟩
  rwa [List.length_append] at hstop

/-! ## What all pushes return -/

theorem someEnds_nil_eq_empty (hfull : ∀ p ∈ patterns, p ≠ []) :
    someEnds patterns ([] : Bytes) = ∅ := by
  apply Set.eq_empty_of_forall_notMem
  intro stop hends
  obtain ⟨pattern, hmem, hends⟩ := hends
  have hnil : pattern <:+ [] := by
    simpa using hends.2
  exact hfull pattern hmem (List.suffix_nil.1 hnil)

/-- Nothing was returned as long as nothing ended, and the other way round. -/
theorem pushAll_none_iff (hsome : patterns ≠ []) (hfull : ∀ p ∈ patterns, p ≠ []) :
    ∀ (chunks : List Bytes) {stream : Bytes} {matcher : LiteralMatcher},
      Saw patterns stream matcher → someEnds patterns stream = ∅ →
      ((∀ answer ∈ (matcher.pushAll chunks).2, answer = none) ↔
        someEnds patterns (stream ++ chunks.flatten) = ∅)
  | [], stream, matcher, _, hnone => by
      simpa [LiteralMatcher.pushAll] using hnone
  | data :: rest, stream, matcher, hsaw, hnone => by
      have hfirst : (matcher.push data).2.isSome ↔
          (someEnds patterns (stream ++ data)).Nonempty := push_isSome_iff hsaw hfull hnone
      have hsplit : stream ++ (data :: rest).flatten =
          stream ++ data ++ rest.flatten := by
        simp
      simp only [LiteralMatcher.pushAll, List.forall_mem_cons]
      rw [hsplit]
      cases hpush : (matcher.push data).2 with
      | none =>
          rw [hpush] at hfirst
          have hstill : someEnds patterns (stream ++ data) = ∅ := by
            rw [← Set.not_nonempty_iff_eq_empty, ← hfirst]
            simp
          simp only [true_and]
          exact pushAll_none_iff hsome hfull rest (hsaw.push hsome data) hstill
      | some pattern =>
          rw [hpush] at hfirst
          obtain ⟨stop, hends⟩ := hfirst.1 rfl
          have hlater : stop ∈ someEnds patterns (stream ++ data ++ rest.flatten) := by
            exact (mem_someEnds_append_iff (le_length_of_mem_someEnds hends)).2 hends
          have hnonempty : someEnds patterns (stream ++ data ++ rest.flatten) ≠ ∅ :=
            Set.nonempty_iff_ne_empty.1 ⟨stop, hlater⟩
          constructor
          · intro hquiet
            cases hquiet.1
          · intro hempty
            exact absurd hempty hnonempty

/-- The first push to return a pattern is the one which brings the last byte of
the occurrence that ends first; what a push returns is a pattern that lies in
the kept bytes and the new ones, and the first one returned ends in the new ones.
With one pattern every answer is of an occurrence that ends in the new bytes. -/
theorem push_exact (patterns chunks rest : List Bytes) (data : Bytes)
    (hsome : patterns ≠ []) (hfull : ∀ p ∈ patterns, p ≠ []) :
    let earlier := (new patterns).pushAll chunks
    let answer := (earlier.1.push data).2
    let seen := chunks.flatten
    let stream := (chunks ++ data :: rest).flatten
    (((∀ old ∈ earlier.2, old = none) ∧ answer.isSome) ↔
      ∃ stop, IsLeast (someEnds patterns stream) stop ∧
        seen.length < stop ∧ stop ≤ seen.length + data.length) ∧
    (∀ pattern, answer = some pattern →
      pattern ∈ patterns ∧ earlier.1.tail <:+ seen ∧
        pattern <:+: earlier.1.tail ++ data ∧
        ((∀ old ∈ earlier.2, old = none) →
          ∃ stop, EndsAt pattern stream stop ∧
            seen.length < stop ∧ stop ≤ seen.length + data.length)) ∧
    ∀ pattern, patterns = [pattern] →
      (answer.isSome ↔ ∃ stop, EndsAt pattern stream stop ∧
        seen.length < stop ∧ stop ≤ seen.length + data.length) := by
  intro earlier answer seen stream
  have hsaw : Saw patterns seen earlier.1 := by
    have hall := Saw.pushAll hsome chunks (Saw.new patterns)
    rwa [List.nil_append] at hall
  have hnone : (∀ old ∈ earlier.2, old = none) ↔ someEnds patterns seen = ∅ := by
    have hall := pushAll_none_iff hsome hfull chunks (Saw.new patterns)
      (someEnds_nil_eq_empty hfull)
    rwa [List.nil_append] at hall
  have hstream : stream = seen ++ data ++ rest.flatten := by
    simp [stream, seen]
  refine ⟨?_, ?_, ?_⟩
  · rw [hstream, ← first_part_iff, hnone]
    constructor
    · intro hfirst
      exact ⟨hfirst.1, (push_isSome_iff hsaw hfull hfirst.1).1 hfirst.2⟩
    · intro hfirst
      exact ⟨hfirst.1, (push_isSome_iff hsaw hfull hfirst.1).2 hfirst.2⟩
  · intro pattern hanswer
    have hfound := push_eq_some hsaw hfull hanswer
    refine ⟨hfound.1, ?_, hfound.2, ?_⟩
    · rw [hsaw.tail_eq]
      exact List.drop_suffix _ _
    · intro hquiet
      obtain ⟨stop, -, hends⟩ := exists_endsAt_of_push hsaw hfull hanswer
      have hnew := length_lt_of_mem_someEnds (hnone.1 hquiet) ⟨pattern, hfound.1, hends⟩
      rw [hstream]
      exact exists_endsAt_in_newest hends hnew _
  · intro pattern hsingle
    constructor
    · intro hanswer
      obtain ⟨found, hfound⟩ := Option.isSome_iff_exists.1 hanswer
      have hmem := (push_eq_some hsaw hfull hfound).1
      obtain ⟨stop, hback, hends⟩ := exists_endsAt_of_push hsaw hfull hfound
      -- the kept bytes are too few for the only pattern
      have hlongest : earlier.1.maximumPatternLen = found.length := by
        rw [hsaw.longest_eq, hsingle]
        rw [hsingle, List.mem_singleton] at hmem
        simp [new, hmem]
      have hnonempty := List.length_pos_iff.2 (hfull found hmem)
      rw [hsingle, List.mem_singleton] at hmem
      rw [hmem] at hends hlongest hback hnonempty
      rw [hstream]
      exact exists_endsAt_in_newest hends (by omega) _
    · intro hends
      obtain ⟨stop, hends, hnew, hstop⟩ := hends
      apply push_isSome_of_endsAt hsaw hfull hnew
      refine ⟨pattern, by simp [hsingle], ?_⟩
      rw [hstream] at hends
      exact (EndsAt.append_iff (by rwa [List.length_append])).1 hends

/-- A pattern which comes in two chunks is returned with the second. -/
theorem push_exact_split :
    let earlier := (new [[97, 98, 99, 97, 98, 99]]).pushAll [[97, 98, 99]]
    earlier.2 = [none] ∧ (earlier.1.push [97, 98, 99]).2 = some [97, 98, 99, 97, 98, 99] ∧
      ∃ stop, IsLeast (someEnds [[97, 98, 99, 97, 98, 99]]
        ([[97, 98, 99], [97, 98, 99], [97]] : List Bytes).flatten) stop ∧ 3 < stop ∧ stop ≤ 6 := by
  refine ⟨by decide, by decide, ?_⟩
  exact (push_exact [[97, 98, 99, 97, 98, 99]] [[97, 98, 99]] [[97]] [97, 98, 99]
    (by decide) (by decide)).1.1 (by decide)

end LiteralMatcher

/-! ## In a Trigger -/

namespace ActiveTrigger

variable (trigger : ActiveTrigger) (data : Bytes) (now : ℕ)

/-- Every chunk which a Trigger observes goes to its stop matcher once, and the
Trigger reports what that matcher returns. -/
theorem observeRx_stop : (trigger.observeRx data now).2 = (trigger.stopMatcher.push data).2 ∧
    (trigger.observeRx data now).1.stopMatcher = (trigger.stopMatcher.push data).1 := by
  cases hstop : (trigger.stopMatcher.push data).2 with
  | some matched => simp [observeRx, hstop]
  | none =>
      simp only [observeRx, hstop]
      split
      · split
        · split <;> simp
        · simp
      · simp

/-- What a Trigger reports of the chunks it observes, each at its own time. -/
def observeAll (trigger : ActiveTrigger) : List (Bytes × ℕ) → ActiveTrigger × List (Option Bytes)
  | [] => (trigger, [])
  | chunk :: rest =>
      let observed := trigger.observeRx chunk.1 chunk.2
      let after := observeAll observed.1 rest
      (after.1, observed.2 :: after.2)

/-- A Trigger reports its stop patterns exactly as its stop matcher finds them. -/
theorem observeAll_stop (chunks : List (Bytes × ℕ)) (trigger : ActiveTrigger) :
    (trigger.observeAll chunks).2 =
        (trigger.stopMatcher.pushAll (chunks.map Prod.fst)).2 ∧
      (trigger.observeAll chunks).1.stopMatcher =
        (trigger.stopMatcher.pushAll (chunks.map Prod.fst)).1 := by
  induction chunks generalizing trigger with
  | nil => simp [observeAll, LiteralMatcher.pushAll]
  | cons chunk rest ih =>
      have hone := trigger.observeRx_stop chunk.1 chunk.2
      have hrest := ih (trigger.observeRx chunk.1 chunk.2).1
      rw [hone.2] at hrest
      simp only [observeAll, LiteralMatcher.pushAll, List.map_cons]
      exact ⟨by rw [hone.1, hrest.1], hrest.2⟩

end ActiveTrigger
end SerialPlatform
