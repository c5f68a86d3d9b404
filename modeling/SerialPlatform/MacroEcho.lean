import SerialPlatform.MacroEvidence
import SerialPlatform.TextFields

/-!
# Echo filtering and watching

The echo filter withholds the command while the received text may still be its echo, and
drops exactly that line.  A watcher accepts its pattern anywhere, or a prompt at the end.
-/

namespace SerialPlatform.MacroRuntime

/-! ## Command texts -/

theorem toUTF8_toList (text : String) :
    text.toUTF8.data.toList = text.toList.flatMap String.utf8EncodeChar := by
  rw [String.toUTF8, ← String.utf8Encode_toList]
  simp [List.utf8Encode]

/-- A byte of ASCII stands for itself only. -/
theorem toNat_of_mem_utf8EncodeChar {char : Char} {byte : UInt8} (hlow : byte < 0x80)
    (h : byte ∈ String.utf8EncodeChar char) : char.toNat = byte.toNat := by
  have hbyte : byte.toNat < 128 := hlow
  have hhigh : ∀ value, value < 256 → 128 ≤ value → byte ≠ UInt8.ofNat value := by
    intro value hlt hle heq
    rw [heq, UInt8.toNat_ofNat', Nat.mod_eq_of_lt hlt] at hbyte
    omega
  unfold String.utf8EncodeChar at h
  dsimp only at h
  split_ifs at h with hone htwo hthree
  · rw [List.mem_singleton.1 h, UInt8.toNat_ofNat', Nat.mod_eq_of_lt (by omega)]
    rfl
  · simp only [List.mem_cons, List.not_mem_nil, or_false] at h
    rcases h with h | h <;> exact absurd h (hhigh _ (by omega) (by omega))
  · simp only [List.mem_cons, List.not_mem_nil, or_false] at h
    rcases h with h | h | h <;> exact absurd h (hhigh _ (by omega) (by omega))
  · simp only [List.mem_cons, List.not_mem_nil, or_false] at h
    rcases h with h | h | h | h <;> exact absurd h (hhigh _ (by omega) (by omega))

theorem newline_notMem {text : String} (h : text.toList.any isControlChar = false) :
    (0x0a : UInt8) ∉ text.toUTF8.data.toList := by
  rw [toUTF8_toList]
  intro hmem
  obtain ⟨char, hchar, hbyte⟩ := List.mem_flatMap.1 hmem
  have hvalue : char.toNat = 10 := toNat_of_mem_utf8EncodeChar (by decide) hbyte
  have hclean := List.any_eq_false.1 h char hchar
  simp [isControlChar, hvalue] at hclean

/-! ## Echo filter -/

/-- What the filter shows of a stream: all but the command line at its begin. -/
def shownBehind (command stream : Bytes) : Bytes :=
  if command ++ [0x0a] <+: stream then stream.drop (command.length + 1)
  else if stream <+: command ++ [0x0a] then []
  else stream

namespace EchoFilter

/-- The filter has read the stream, and shown `shown` of it. -/
structure Filtered (command stream shown : Bytes) (filter : EchoFilter) : Prop where
  expected : filter.expected = command
  shows : shown = shownBehind command stream
  active : filter.active = true ↔ stream <+: command
  pending : stream <+: command → filter.pending = stream

section

variable {command stream shown : Bytes} {filter : EchoFilter}

theorem shownBehind_of_begins (h : stream <+: command) : shownBehind command stream = [] := by
  have hle := h.length_le
  unfold shownBehind
  rw [if_neg, if_pos (h.trans (List.prefix_append _ _))]
  intro hlonger
  have hge := hlonger.length_le
  rw [List.length_append, List.length_singleton] at hge
  omega

/-- The byte at which a stream stops to be a prefix of the command. -/
theorem shownBehind_mismatch {byte : UInt8} (h : stream <+: command)
    (hbyte : ¬ stream ++ [byte] <+: command) :
    shownBehind command (stream ++ [byte]) =
      if byte = 0x0a ∧ stream = command then [] else stream ++ [byte] := by
  have hle := h.length_le
  split_ifs with hecho
  · rw [hecho.1, hecho.2]
    unfold shownBehind
    rw [if_pos (List.prefix_refl _)]
    simp
  · have hne : stream ++ [byte] ≠ command ++ [0x0a] := by
      intro heq
      obtain ⟨hstream, hlast⟩ := List.append_inj' heq rfl
      exact hecho ⟨(List.cons.inj hlast).1, hstream⟩
    unfold shownBehind
    rw [if_neg, if_neg]
    · intro hbegins
      exact (List.prefix_concat_iff.1 hbegins).elim hne hbyte
    · intro hbegins
      have hlength := hbegins.length_le
      simp only [List.length_append, List.length_singleton] at hlength
      exact hne (hbegins.eq_of_length (by simp; omega)).symm

/-- Behind that byte everything is shown. -/
theorem shownBehind_append {byte : UInt8} (h : ¬ stream <+: command) :
    shownBehind command (stream ++ [byte]) = shownBehind command stream ++ [byte] := by
  have hnot : ¬ stream ++ [byte] <+: command ++ [0x0a] := by
    intro hbegins
    rcases List.prefix_concat_iff.1 hbegins with heq | hshort
    · exact h ((List.append_inj' heq rfl).1 ▸ List.prefix_refl _)
    · exact h ((List.prefix_append _ _).trans hshort)
  unfold shownBehind
  by_cases hecho : command ++ [0x0a] <+: stream
  · have hle := hecho.length_le
    rw [List.length_append, List.length_singleton] at hle
    rw [if_pos hecho, if_pos (hecho.trans (List.prefix_append _ _)),
      List.drop_append_of_le_length hle]
  · rw [if_neg hecho, if_neg hnot, if_neg, if_neg]
    · intro hbegins
      exact (List.prefix_concat_iff.1 hbegins).elim (fun heq => hecho (heq ▸ List.prefix_refl _)) h
    · intro hbegins
      rcases List.prefix_concat_iff.1 hbegins with heq | hshort
      · exact hnot (heq ▸ List.prefix_refl _)
      · exact hecho hshort

/-- A prefix of a list goes on with its next element. -/
theorem snoc_prefix_iff {byte : UInt8} (h : stream <+: command) :
    stream ++ [byte] <+: command ↔
      stream.length < command.length ∧ command[stream.length]? = some byte := by
  obtain ⟨rest, rfl⟩ := h
  rw [List.prefix_append_right_inj, List.getElem?_append_right (le_refl _), Nat.sub_self]
  cases rest with
  | nil => simp
  | cons first rest => simp [List.cons_prefix_cons, eq_comm]

theorem Filtered.feedByte (hclean : 0x0a ∉ command) (h : Filtered command stream shown filter)
    (byte : UInt8) :
    Filtered command (stream ++ [byte]) (shown ++ (filter.feedByte byte).1)
      (filter.feedByte byte).2 := by
  unfold EchoFilter.feedByte
  by_cases hbegins : stream <+: command
  · have hfilter : filter = ⟨command, stream, true⟩ := by
      obtain ⟨expected, pending, active⟩ := filter
      rw [EchoFilter.mk.injEq]
      exact ⟨h.expected, h.pending hbegins, h.active.2 hbegins⟩
    have hends (hmismatch : ¬ stream ++ [byte] <+: command) (more : Bytes)
        (hmore : more = if byte = 0x0a ∧ stream = command then [] else stream ++ [byte]) :
        Filtered command (stream ++ [byte]) more ⟨command, [], false⟩ :=
      ⟨rfl, hmore.trans (shownBehind_mismatch hbegins hmismatch).symm,
        by simp [hmismatch], fun hlonger => absurd hlonger hmismatch⟩
    rw [h.shows, shownBehind_of_begins hbegins, hfilter, List.nil_append]
    simp only [Bool.not_true, Bool.false_eq_true, if_false]
    by_cases hline : byte = 0x0a
    · have hmismatch : ¬ stream ++ [byte] <+: command := fun hlonger =>
        hclean (hlonger.subset (by simp [hline]))
      rw [if_pos hline]
      by_cases hwhole : stream = command
      · rw [if_neg (not_not.2 hwhole)]
        exact hends hmismatch _ (if_pos ⟨hline, hwhole⟩).symm
      · rw [if_pos hwhole]
        exact hends hmismatch _ (if_neg fun hboth => hwhole hboth.2).symm
    · rw [if_neg hline]
      by_cases hgoes : stream ++ [byte] <+: command
      · rw [if_pos ((snoc_prefix_iff hbegins).1 hgoes)]
        exact ⟨rfl, (shownBehind_of_begins hgoes).symm, by simp [hgoes], fun _ => rfl⟩
      · rw [if_neg fun hnext => hgoes ((snoc_prefix_iff hbegins).2 hnext)]
        exact hends hgoes _ (if_neg fun hboth => hline hboth.1).symm
  · have hlonger : ¬ stream ++ [byte] <+: command := fun hlonger =>
      hbegins ((List.prefix_append _ _).trans hlonger)
    have hpassive : filter.active = false := by
      rw [← Bool.not_eq_true, h.active]
      exact hbegins
    rw [hpassive]
    refine ⟨h.expected, ?_, by simp [hpassive, hlonger], fun hlong => absurd hlong hlonger⟩
    rw [shownBehind_append hbegins, ← h.shows]
    rfl

theorem Filtered.feedBytes (hclean : 0x0a ∉ command) (bytes : Bytes)
    (h : Filtered command stream shown filter) :
    Filtered command (stream ++ bytes) (shown ++ (filter.feedBytes bytes).1)
      (filter.feedBytes bytes).2 := by
  induction bytes generalizing stream shown filter with
  | nil => simpa [EchoFilter.feedBytes] using h
  | cons byte rest ih =>
      have hrest := ih (h.feedByte hclean byte)
      rw [List.append_assoc, List.append_assoc] at hrest
      exact hrest

/-- `feed` over the chunks of a stream, with all that is shown. -/
def feedAll : EchoFilter → List Bytes → Except MacroStop Bytes × EchoFilter
  | filter, [] => (.ok [], filter)
  | filter, chunk :: rest =>
      match filter.feed chunk with
      | (.error stop, filter) => (.error stop, filter)
      | (.ok shown, filter) =>
          match feedAll filter rest with
          | (.error stop, filter) => (.error stop, filter)
          | (.ok more, filter) => (.ok (shown ++ more), filter)

theorem Filtered.feedAll (hclean : 0x0a ∉ command) (hfits : command.length ≤ maxWriteBytes)
    (chunks : List Bytes) (h : Filtered command stream shown filter) :
    ∃ more after, filter.feedAll chunks = (.ok more, after) ∧
      Filtered command (stream ++ chunks.flatten) (shown ++ more) after := by
  induction chunks generalizing stream shown filter with
  | nil => exact ⟨[], filter, rfl, by simpa using h⟩
  | cons chunk rest ih =>
      have hfeed : filter.feed chunk =
          (.ok (filter.feedBytes chunk).1, (filter.feedBytes chunk).2) := by
        unfold EchoFilter.feed
        rw [if_neg (by rw [h.expected]; omega)]
      obtain ⟨more, after, hmore, hrest⟩ := ih (h.feedBytes hclean chunk)
      refine ⟨(filter.feedBytes chunk).1 ++ more, after, ?_, ?_⟩
      · rw [EchoFilter.feedAll, hfeed]
        dsimp only
        rw [hmore]
      · rw [List.flatten_cons, ← List.append_assoc, ← List.append_assoc]
        exact hrest

end

end EchoFilter

/-! ## Watchers -/

namespace LiteralMatcher

/-- The stream ends with the pattern, up to blanks. -/
def AtPrompt (pattern stream : Bytes) : Prop :=
  ∃ blanks, pattern ++ blanks <:+ stream ∧ blanks.all isBlank = true

/-- The matcher is at the place of the pattern where the stream leaves it. -/
structure Follows (pattern stream : Bytes) (matcher : LiteralMatcher) : Prop where
  pattern_eq : matcher.pattern = pattern
  table_eq : matcher.table = BorderTable.build pattern
  longest : BorderTable.IsLongest pattern stream pattern.length matcher.matchedPrefix

/-- A matcher of a literal stays where it was when it has found it. -/
def Found (pattern stream : Bytes) (matcher : LiteralMatcher) : Prop :=
  matcher.pattern = pattern ∧ (matcher.seen = true ↔ pattern <:+: stream) ∧
    (matcher.seen = false → matcher.Follows pattern stream)

/-- A matcher of a prompt has seen it when it is at the end. -/
def Awaits (pattern stream : Bytes) (matcher : LiteralMatcher) : Prop :=
  matcher.Follows pattern stream ∧ (matcher.seen = true ↔ AtPrompt pattern stream)

section

variable {pattern stream : Bytes} {matcher : LiteralMatcher} {prompt : Bool} {byte : UInt8}

theorem atPrompt_snoc_iff : AtPrompt pattern (stream ++ [byte]) ↔
    pattern <:+ stream ++ [byte] ∨ isBlank byte = true ∧ AtPrompt pattern stream := by
  constructor
  · rintro ⟨blanks, ⟨before, hends⟩, hblanks⟩
    rcases List.eq_nil_or_concat blanks with rfl | ⟨blanks, last, rfl⟩
    · rw [List.append_nil] at hends
      exact .inl ⟨before, hends⟩
    · rw [List.concat_eq_append, ← List.append_assoc, ← List.append_assoc] at hends
      obtain ⟨hstream, hlast⟩ := List.append_inj' hends rfl
      rw [(List.cons.inj hlast).1] at hblanks
      rw [List.concat_eq_append, List.all_append, Bool.and_eq_true] at hblanks
      exact .inr ⟨by simpa using hblanks.2, blanks, ⟨before, by
        rw [← List.append_assoc, hstream]⟩, hblanks.1⟩
  · rintro (hends | ⟨hblank, blanks, ⟨before, hends⟩, hblanks⟩)
    · exact ⟨[], by rwa [List.append_nil], rfl⟩
    · refine ⟨blanks ++ [byte], ⟨before, ?_⟩, by simp [hblanks, hblank]⟩
      rw [← hends, List.append_assoc, List.append_assoc]

theorem follows_new (hpattern : pattern ≠ []) : (new pattern).Follows pattern [] :=
  ⟨rfl, rfl, BorderTable.isLongest_nil hpattern⟩

theorem Follows.advance (hpattern : pattern ≠ []) (h : matcher.Follows pattern stream)
    (byte : UInt8) :
    BorderTable.IsLongest pattern (stream ++ [byte]) (pattern.length + 1)
      (BorderTable.advance matcher.pattern matcher.table matcher.matchedPrefix byte) := by
  obtain ⟨htable, hlength⟩ := BorderTable.isTable_build hpattern
  rw [h.pattern_eq, h.table_eq]
  exact h.longest.advance htable (le_refl _) (by rw [hlength]; exact h.longest.lt.le)

theorem Follows.feedByte (hpattern : pattern ≠ []) (h : matcher.Follows pattern stream) :
    (matcher.feedByte prompt byte).Follows pattern (stream ++ [byte]) := by
  obtain ⟨htable, hlength⟩ := BorderTable.isTable_build hpattern
  have hsettled := (h.advance hpattern byte).settle htable hlength hpattern
  unfold LiteralMatcher.feedByte
  rw [h.pattern_eq, h.table_eq] at hsettled ⊢
  dsimp only
  split_ifs with hwhole
  · rw [if_pos hwhole] at hsettled
    exact ⟨rfl, rfl, hsettled⟩
  · rw [if_neg hwhole] at hsettled
    exact ⟨rfl, rfl, hsettled⟩

theorem Follows.advance_eq_length_iff (hpattern : pattern ≠ [])
    (h : matcher.Follows pattern stream) :
    BorderTable.advance matcher.pattern matcher.table matcher.matchedPrefix byte =
      matcher.pattern.length ↔ pattern <:+ stream ++ [byte] := by
  rw [← (h.advance hpattern byte).eq_length_iff, ← h.pattern_eq]

theorem Awaits.feedByte (hpattern : pattern ≠ []) (h : matcher.Awaits pattern stream) :
    (matcher.feedByte true byte).Awaits pattern (stream ++ [byte]) := by
  refine ⟨h.1.feedByte hpattern, ?_⟩
  rw [atPrompt_snoc_iff, ← h.1.advance_eq_length_iff hpattern, ← h.2]
  unfold LiteralMatcher.feedByte
  dsimp only
  split_ifs with hwhole
  · simp [hwhole]
  · simp [hwhole, and_comm]

theorem Awaits.feedBytes (hpattern : pattern ≠ []) (bytes : Bytes)
    (h : matcher.Awaits pattern stream) :
    (feedBytes true matcher bytes).2.Awaits pattern (stream ++ bytes) ∧
      ((feedBytes true matcher bytes).1 = true ↔ AtPrompt pattern (stream ++ bytes)) := by
  induction bytes generalizing stream matcher with
  | nil => simpa [LiteralMatcher.feedBytes] using ⟨h, h.2⟩
  | cons byte rest ih =>
      have hone : (matcher.feedByte true byte).Awaits pattern (stream ++ [byte]) :=
        h.feedByte hpattern
      have hrest := ih hone
      rw [List.append_assoc] at hrest
      simpa [LiteralMatcher.feedBytes] using hrest

theorem Found.feedBytes (hpattern : pattern ≠ []) (bytes : Bytes)
    (h : matcher.Found pattern stream) :
    (feedBytes false matcher bytes).2.Found pattern (stream ++ bytes) ∧
      ((feedBytes false matcher bytes).1 = true ↔ pattern <:+: stream ++ bytes) := by
  induction bytes generalizing stream matcher with
  | nil => simpa [LiteralMatcher.feedBytes] using ⟨h, h.2.1⟩
  | cons byte rest ih =>
      have hassoc : stream ++ byte :: rest = (stream ++ [byte]) ++ rest := by simp
      unfold LiteralMatcher.feedBytes
      dsimp only
      by_cases hseen : matcher.seen = true
      · -- the pattern is in the stream, and no byte takes it away
        have hwithin := h.2.1.1 hseen
        have hkeeps : (matcher.feedByte false byte).seen = true := by
          unfold LiteralMatcher.feedByte
          dsimp only
          split_ifs <;> simp [hseen]
        have hsame : (matcher.feedByte false byte).pattern = pattern := by
          unfold LiteralMatcher.feedByte
          dsimp only
          split_ifs <;> exact h.1
        have hfound : ∀ more, (matcher.feedByte false byte).Found pattern (stream ++ more) :=
          fun more => ⟨hsame, by simp [hkeeps, hwithin.trans (List.prefix_append _ _).isInfix],
            fun hnot => by simp [hkeeps] at hnot⟩
        split_ifs
        · exact ⟨hfound _, by simp [hwithin.trans (List.prefix_append _ _).isInfix]⟩
        · rw [hassoc]
          exact ih (hfound [byte])
      · rw [Bool.not_eq_true] at hseen
        have hfollows := h.2.2 hseen
        have hnot : ¬ pattern <:+: stream := by
          rw [← h.2.1, hseen]
          exact Bool.false_ne_true
        have hnext : (matcher.feedByte false byte).Follows pattern (stream ++ [byte]) :=
          hfollows.feedByte hpattern
        have hwhole : (matcher.feedByte false byte).seen = true ↔
            pattern <:+ stream ++ [byte] := by
          rw [← hfollows.advance_eq_length_iff hpattern]
          unfold LiteralMatcher.feedByte
          dsimp only
          split_ifs with hcase <;> simp [hcase, hseen]
        have hfound : (matcher.feedByte false byte).Found pattern (stream ++ [byte]) :=
          ⟨hnext.pattern_eq, by rw [hwhole, List.infix_concat_iff]; simp [hnot],
            fun _ => hnext⟩
        by_cases hends : pattern <:+ stream ++ [byte]
        · rw [if_pos ⟨rfl, (hfollows.advance_eq_length_iff hpattern).2 hends⟩]
          have hwithin : pattern <:+: stream ++ byte :: rest := by
            rw [hassoc]
            exact hends.isInfix.trans (List.prefix_append _ _).isInfix
          have hkeeps := hwhole.2 hends
          exact ⟨⟨hnext.pattern_eq, by simp [hkeeps, hwithin], fun hlost => by
            simp [hkeeps] at hlost⟩, by simp [hwithin]⟩
        · rw [if_neg fun hboth => hends ((hfollows.advance_eq_length_iff hpattern).1 hboth.2),
            hassoc]
          exact ih hfound

/-- The matcher behind the chunks of a stream. -/
def feedAll (prompt : Bool) (matcher : LiteralMatcher) (chunks : List Bytes) : LiteralMatcher :=
  chunks.foldl (fun matcher chunk => (matcher.feed chunk prompt).2) matcher

theorem Awaits.feedAll (hpattern : pattern ≠ []) (chunks : List Bytes)
    (h : matcher.Awaits pattern stream) :
    (matcher.feedAll true chunks).Awaits pattern (stream ++ chunks.flatten) := by
  induction chunks generalizing stream matcher with
  | nil => simpa [LiteralMatcher.feedAll] using h
  | cons chunk rest ih =>
      have hfeed : (matcher.feed chunk true).2.Awaits pattern (stream ++ chunk) := by
        unfold LiteralMatcher.feed
        rw [if_neg (by rw [h.1.pattern_eq]; exact hpattern)]
        exact (h.feedBytes hpattern chunk).1
      have hrest := ih hfeed
      rw [List.append_assoc] at hrest
      exact hrest

theorem Found.feedAll (hpattern : pattern ≠ []) (chunks : List Bytes)
    (h : matcher.Found pattern stream) :
    (matcher.feedAll false chunks).Found pattern (stream ++ chunks.flatten) := by
  induction chunks generalizing stream matcher with
  | nil => simpa [LiteralMatcher.feedAll] using h
  | cons chunk rest ih =>
      have hfeed : (matcher.feed chunk false).2.Found pattern (stream ++ chunk) := by
        unfold LiteralMatcher.feed
        rw [if_neg (by rw [h.1]; exact hpattern)]
        exact (h.feedBytes hpattern chunk).1
      have hrest := ih hfeed
      rw [List.append_assoc] at hrest
      exact hrest

end

end LiteralMatcher

/-- The filter shows everything but the echoed command line, and withholds it while it may
still come; a watcher answers to its literal anywhere, and to a prompt at the end. -/
theorem evidence_is_fresh :
    (∀ (command : String) (mode : EchoMode) (chunks : List Bytes),
      command.toList.any isControlChar = false → (EchoFilter.new command mode).active = true →
      command.toUTF8.data.toList.length ≤ maxWriteBytes →
      ((EchoFilter.new command mode).feedAll chunks).1 =
        .ok (shownBehind command.toUTF8.data.toList chunks.flatten)) ∧
    ∀ (pattern : Bytes) (chunks : List Bytes) (chunk : Bytes), pattern ≠ [] →
      ((((LiteralMatcher.new pattern).feedAll false chunks).feed chunk false).1 = true ↔
        pattern <:+: (chunks ++ [chunk]).flatten) ∧
      ((((LiteralMatcher.new pattern).feedAll true chunks).feed chunk true).1 = true ↔
        LiteralMatcher.AtPrompt pattern (chunks ++ [chunk]).flatten) := by
  refine ⟨fun command mode chunks hclean hactive hfits => ?_, fun pattern chunks chunk hpattern => ?_⟩
  · have hstart : EchoFilter.Filtered command.toUTF8.data.toList [] []
        (EchoFilter.new command mode) :=
      ⟨rfl, (EchoFilter.shownBehind_of_begins List.nil_prefix).symm, by simp [hactive],
        fun _ => rfl⟩
    obtain ⟨more, after, hmore, hfiltered⟩ :=
      hstart.feedAll (newline_notMem hclean) hfits chunks
    rw [hmore]
    exact congrArg Except.ok hfiltered.shows
  · have hfound : (LiteralMatcher.new pattern).Found pattern [] :=
      ⟨rfl, by simp [LiteralMatcher.new, hpattern],
        fun _ => LiteralMatcher.follows_new hpattern⟩
    have hawaits : (LiteralMatcher.new pattern).Awaits pattern [] :=
      ⟨LiteralMatcher.follows_new hpattern, by
        simp [LiteralMatcher.new, LiteralMatcher.AtPrompt, hpattern]⟩
    have hfoundAll := hfound.feedAll hpattern chunks
    have hawaitsAll := hawaits.feedAll hpattern chunks
    rw [List.flatten_append, List.flatten_singleton]
    constructor
    · unfold LiteralMatcher.feed
      rw [if_neg (by rw [hfoundAll.1]; exact hpattern)]
      exact (hfoundAll.feedBytes hpattern chunk).2
    · unfold LiteralMatcher.feed
      rw [if_neg (by rw [hawaitsAll.1.pattern_eq]; exact hpattern)]
      exact (hawaitsAll.feedBytes hpattern chunk).2

end SerialPlatform.MacroRuntime
