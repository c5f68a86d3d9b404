import SerialPlatform.LeftmostOccurrences
import SerialPlatform.StreamMatcher

/-!
# Literals in the window

What the searches of the matcher find.  The loop over the matches of a literal takes the
leftmost occurrences behind the place where it starts.
-/

namespace SerialPlatform.Monitor

section

variable {literal bytes : Bytes} {searchAt start stop turns : ℕ}

/-! ## One occurrence -/

theorem findLiteral_some (h : findLiteral literal bytes = some start) :
    literal <+: bytes.drop start ∧ ∀ earlier < start, ¬literal <+: bytes.drop earlier := by
  induction bytes generalizing start with
  | nil => cases h
  | cons byte bytes ih =>
      unfold findLiteral at h
      split at h
      case isTrue hhere =>
        rw [← Option.some.inj h]
        exact ⟨hhere, fun earlier hlt => absurd hlt (Nat.not_lt_zero earlier)⟩
      case isFalse hhere =>
        obtain ⟨inner, hinner, rfl⟩ := Option.map_eq_some_iff.mp h
        obtain ⟨hfound, hleast⟩ := ih hinner
        refine ⟨hfound, fun earlier hlt => ?_⟩
        cases earlier with
        | zero => exact hhere
        | succ earlier => exact hleast earlier (Nat.lt_of_succ_lt_succ hlt)

theorem findLiteral_none (hliteral : literal ≠ []) (h : findLiteral literal bytes = none) :
    ∀ start, ¬literal <+: bytes.drop start := by
  induction bytes with
  | nil =>
      intro start hbegins
      rw [List.drop_nil, List.prefix_nil] at hbegins
      exact hliteral hbegins
  | cons byte bytes ih =>
      unfold findLiteral at h
      split at h
      case isTrue => cases h
      case isFalse hhere =>
        intro start
        cases start with
        | zero => exact hhere
        | succ start => exact ih (Option.map_eq_none_iff.mp h) start

/-- The first occurrence behind an offset. -/
theorem findLiteral_drop_some (hliteral : literal ≠ [])
    (h : findLiteral literal (bytes.drop searchAt) = some start) :
    EndsAt literal bytes (searchAt + start + literal.length) ∧
      ∀ stop, EndsAt literal bytes stop → searchAt + literal.length ≤ stop →
        searchAt + start + literal.length ≤ stop := by
  obtain ⟨hfound, hleast⟩ := findLiteral_some h
  rw [List.drop_drop] at hfound
  refine ⟨(endsAt_add_iff hliteral).mpr hfound, fun stop hends hle => ?_⟩
  by_contra hearlier
  have hbegin : stop = (stop - literal.length) + literal.length := by omega
  rw [hbegin, endsAt_add_iff hliteral] at hends
  refine hleast (stop - literal.length - searchAt) (by omega) ?_
  rw [List.drop_drop]
  have hsum : searchAt + (stop - literal.length - searchAt) = stop - literal.length := by omega
  rw [hsum]
  exact hends

theorem findLiteral_drop_none (hliteral : literal ≠ [])
    (h : findLiteral literal (bytes.drop searchAt) = none) :
    ∀ stop, EndsAt literal bytes stop → stop < searchAt + literal.length := by
  intro stop hends
  by_contra hle
  have hbegin : stop = (stop - literal.length) + literal.length := by omega
  rw [hbegin, endsAt_add_iff hliteral] at hends
  refine findLiteral_none hliteral h (stop - literal.length - searchAt) ?_
  rw [List.drop_drop]
  have hsum : searchAt + (stop - literal.length - searchAt) = stop - literal.length := by omega
  rw [hsum]
  exact hends

/-! ## All occurrences -/

/-- Where the matches end which the loop of `find_literal_matches` finds. -/
def literalStopsFrom (bytes literal : Bytes) : ℕ → ℕ → List ℕ
  | 0, _ => []
  | turns + 1, searchAt =>
      match findLiteral literal (bytes.drop searchAt) with
      | none => []
      | some relative =>
          let stop := searchAt + relative + literal.length
          stop :: literalStopsFrom bytes literal turns stop

def literalStops (bytes literal : Bytes) (searchAt : ℕ) : List ℕ :=
  literalStopsFrom bytes literal bytes.length searchAt

/-- From the beginning of the first match to the end of the last one. -/
def hull (length : ℕ) (stops : List ℕ) : Option (ℕ × ℕ) :=
  stops.head?.map fun first => (first - length, stops.getLast?.getD first)

theorem findLiteralMatchesFrom_eq (range : Option (ℕ × ℕ)) :
    findLiteralMatchesFrom bytes literal turns range searchAt =
      ((literalStopsFrom bytes literal turns searchAt).foldl
          (fun range stop => extendRange range (stop - literal.length) stop) range,
        (literalStopsFrom bytes literal turns searchAt).getLast?.getD searchAt) := by
  induction turns generalizing range searchAt with
  | zero => rfl
  | succ turns ih =>
      unfold findLiteralMatchesFrom literalStopsFrom
      cases findLiteral literal (bytes.drop searchAt) with
      | none => rfl
      | some relative =>
          dsimp only
          rw [ih, List.foldl_cons, Nat.add_sub_cancel, List.getLast?_cons, Option.getD_some]

theorem foldl_extendRange (length : ℕ) (first : ℕ × ℕ) (stops : List ℕ) :
    stops.foldl (fun range stop => extendRange range (stop - length) stop) (some first) =
      some (first.1, stops.getLast?.getD first.2) := by
  induction stops generalizing first with
  | nil => rfl
  | cons stop stops ih =>
      rw [List.foldl_cons, extendRange, ih, List.getLast?_cons, Option.getD_some]

theorem foldl_extendRange_none (length : ℕ) (stops : List ℕ) :
    stops.foldl (fun range stop => extendRange range (stop - length) stop) none =
      hull length stops := by
  cases stops with
  | nil => rfl
  | cons stop stops =>
      rw [List.foldl_cons, extendRange, foldl_extendRange, hull, List.getLast?_cons]
      rfl

/-- The loop reports its first and its last match, and where it stops. -/
theorem findLiteralMatches_eq :
    findLiteralMatches bytes literal searchAt =
      (hull literal.length (literalStops bytes literal searchAt),
        (literalStops bytes literal searchAt).getLast?.getD searchAt) := by
  rw [findLiteralMatches, findLiteralMatchesFrom_eq, foldl_extendRange_none]
  rfl

theorem isLeftmost_literalStopsFrom (hliteral : literal ≠ [])
    (hturns : bytes.length ≤ searchAt + turns) :
    IsLeftmost literal bytes searchAt (literalStopsFrom bytes literal turns searchAt) := by
  have hpositive : 0 < literal.length := List.length_pos_iff.mpr hliteral
  induction turns generalizing searchAt with
  | zero =>
      refine IsLeftmost.nil fun stop hends => ?_
      have hstop := hends.1
      omega
  | succ turns ih =>
      unfold literalStopsFrom
      cases hfind : findLiteral literal (bytes.drop searchAt) with
      | none => exact IsLeftmost.nil (findLiteral_drop_none hliteral hfind)
      | some relative =>
          obtain ⟨hends, hleast⟩ := findLiteral_drop_some hliteral hfind
          exact IsLeftmost.cons hends (by omega) hleast (ih (by omega))

theorem isLeftmost_literalStops (hliteral : literal ≠ []) :
    IsLeftmost literal bytes searchAt (literalStops bytes literal searchAt) :=
  isLeftmost_literalStopsFrom hliteral (Nat.le_add_left _ _)

end

/-! ## Literals of an expression -/

section

variable {κ : Type} {classes : Classes κ}

theorem exists_prefix_drop_of_infix {literal word : Bytes} (h : literal <:+: word) :
    ∃ start, literal <+: word.drop start := by
  obtain ⟨rest, hbegins, hsuffix⟩ := List.infix_iff_prefix_suffix.mp h
  rw [List.suffix_iff_eq_drop] at hsuffix
  exact ⟨_, hsuffix ▸ hbegins⟩

end

/-- Classes of bytes as lists of ranges. -/
def byteRanges : Classes (List (UInt8 × UInt8)) where
  literal
    | [(first, last)] => if first = last then some [first] else none
    | _ => none
  language := fun ranges =>
    {word | ∃ byte, word = [byte] ∧ ∃ range ∈ ranges, range.1 ≤ byte ∧ byte ≤ range.2}

theorem byteRanges_literal (elements : List (UInt8 × UInt8)) (literal : Bytes)
    (h : byteRanges.literal elements = some literal) : byteRanges.language elements = {literal} := by
  match elements, h with
  | [(first, last)], h =>
      change (if first = last then some [first] else none) = some literal at h
      split at h
      case isFalse => cases h
      case isTrue hsame =>
        rw [← Option.some.inj h, ← hsame]
        ext word
        constructor
        · rintro ⟨byte, rfl, range, hrange, hle, hge⟩
          rw [List.mem_singleton.mp hrange] at hle hge
          have hbyte : byte = first := UInt8.le_antisymm hge hle
          rw [hbyte]
          exact rfl
        · intro hword
          exact ⟨first, hword, (first, first), List.mem_singleton_self _, UInt8.le_refl _,
            UInt8.le_refl _⟩

/-- `p[a-z]*nic` -/
def panicHir : Hir (List (UInt8 × UInt8)) :=
  .concat [.literal [112], .repetition 0 none (.byteClass [(97, 122)]), .literal [110, 105, 99]]

end SerialPlatform.Monitor
