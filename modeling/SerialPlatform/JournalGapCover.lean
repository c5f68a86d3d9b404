import SerialPlatform.ExceptBind
import SerialPlatform.JournalGapRanges

/-!
# What gap ranges cover

A list of gap ranges stands for the sequence numbers it reports missing, each with a
reason.  Merging keeps these sets and separates the ranges; a derived range is entered
exactly where its epoch has no explanation yet.
-/

namespace SerialPlatform.Journal

def GapRange.seqs (gap : GapRange) : Set ℕ := Set.Icc gap.firstSeq gap.lastSeq

/-- The sequence numbers of an epoch which the ranges explain by the reason. -/
def explained (gaps : List GapRange) (epoch : Uuid) (reason : GapReason) : Set ℕ :=
  {seq | ∃ gap ∈ gaps, gap.epoch = epoch ∧ gap.reason = reason ∧ seq ∈ gap.seqs}

/-- The sequence numbers of an epoch which the ranges cover. -/
def covered (gaps : List GapRange) (epoch : Uuid) : Set ℕ :=
  {seq | ∃ gap ∈ gaps, gap.epoch = epoch ∧ seq ∈ gap.seqs}

theorem covered_eq_iUnion (gaps : List GapRange) (epoch : Uuid) :
    covered gaps epoch = ⋃ reason, explained gaps epoch reason := by
  ext seq
  simp [covered, explained]

/-- Both ends are `u64`. -/
def GapRange.InWord (gap : GapRange) : Prop := gap.firstSeq ≤ u64Max ∧ gap.lastSeq ≤ u64Max

instance (gap : GapRange) : Decidable gap.InWord := inferInstanceAs (Decidable (_ ∧ _))

/-- The key of a range without its end. -/
def GapRange.start (gap : GapRange) : ℕ ×ₗ ℕ ×ₗ ℕ :=
  toLex (gap.epoch, toLex (gapReasonRank gap.reason, gap.firstSeq))

/-- `b` begins behind `a`, and with the same epoch and reason not directly behind it. -/
def GapRange.Apart (a b : GapRange) : Prop :=
  a.start ≤ b.start ∧ (a.epoch = b.epoch → a.reason = b.reason → a.lastSeq + 1 < b.firstSeq)

theorem gapReasonRank_injective : Function.Injective gapReasonRank := by
  intro a b h
  cases a <;> cases b <;> first | rfl | cases h

namespace GapRange

variable {a b c : GapRange}

theorem start_le_iff : a.start ≤ b.start ↔ a.epoch < b.epoch ∨ a.epoch = b.epoch ∧
    (gapReasonRank a.reason < gapReasonRank b.reason ∨
      a.reason = b.reason ∧ a.firstSeq ≤ b.firstSeq) := by
  unfold start
  rw [Prod.Lex.le_iff, Prod.Lex.le_iff]
  simp only [ofLex_toLex, gapReasonRank_injective.eq_iff]

theorem start_le_of_key_le (h : a.key ≤ b.key) : a.start ≤ b.start := by
  unfold key at h
  rw [Prod.Lex.le_iff, Prod.Lex.le_iff, Prod.Lex.le_iff] at h
  simp only [ofLex_toLex, gapReasonRank_injective.eq_iff] at h
  rw [start_le_iff]
  grind

/-- What begins between two ranges of one epoch and reason is of them too. -/
theorem between (hab : a.start ≤ b.start) (hbc : b.start ≤ c.start) (hepoch : a.epoch = c.epoch)
    (hreason : a.reason = c.reason) :
    a.epoch = b.epoch ∧ a.reason = b.reason ∧ b.firstSeq ≤ c.firstSeq := by
  rw [start_le_iff] at hab hbc
  rw [← hreason] at hbc
  have hranks := @gapReasonRank_injective a.reason b.reason
  grind

end GapRange

section

variable {gap current : GapRange} {gaps rest result : List GapRange} {epoch : Uuid}
  {reason : GapReason}

theorem explained_cons : explained (gap :: gaps) epoch reason =
    {seq | gap.epoch = epoch ∧ gap.reason = reason ∧ seq ∈ gap.seqs} ∪
      explained gaps epoch reason := by
  ext seq
  simp [explained]

theorem explained_append : explained (gaps ++ rest) epoch reason =
    explained gaps epoch reason ∪ explained rest epoch reason := by
  ext seq
  simp [explained, or_and_right, exists_or]

theorem explained_perm (h : gaps.Perm rest) :
    explained gaps epoch reason = explained rest epoch reason := by
  ext seq
  simp [explained, h.mem_iff]

/-! ## Merging -/

/-- A range which begins in `current` or directly behind it prolongs it. -/
theorem seqs_prolonged (hfirst : current.firstSeq ≤ gap.firstSeq)
    (htouch : gap.firstSeq ≤ current.lastSeq + 1) :
    { current with lastSeq := max current.lastSeq gap.lastSeq }.seqs =
      current.seqs ∪ gap.seqs := by
  ext seq
  simp only [GapRange.seqs, Set.mem_union, Set.mem_Icc]
  omega

theorem explained_absorbGaps (hsorted : (current :: rest).Pairwise fun a b => a.start ≤ b.start) :
    explained (absorbGaps current rest) epoch reason =
      explained (current :: rest) epoch reason := by
  induction rest generalizing current with
  | nil => rfl
  | cons gap rest ih =>
      obtain ⟨hcurrent, hgap⟩ := List.pairwise_cons.1 hsorted
      unfold absorbGaps
      split_ifs with htouch
      · have hnext : ({ current with lastSeq := max current.lastSeq gap.lastSeq } ::
            rest).Pairwise fun a b => a.start ≤ b.start :=
          List.pairwise_cons.2 ⟨fun other hother => hcurrent other (List.mem_cons_of_mem _ hother),
            (List.pairwise_cons.1 hgap).2⟩
        have hfirst : current.firstSeq ≤ gap.firstSeq := by
          have hle := GapRange.start_le_iff.1 (hcurrent gap List.mem_cons_self)
          rw [htouch.1, htouch.2.1] at hle
          simpa using hle
        have hseqs := seqs_prolonged hfirst (htouch.2.2.trans (min_le_left _ _))
        rw [ih hnext, explained_cons, explained_cons, explained_cons, hseqs, htouch.1, htouch.2.1]
        ext seq
        simp only [Set.mem_union, Set.mem_ofPred_eq]
        tauto
      · rw [explained_cons, ih hgap, ← explained_cons]

/-- Every range which is left begins where the first one does, or behind. -/
theorem start_le_of_mem_absorbGaps
    (hsorted : (current :: rest).Pairwise fun a b => a.start ≤ b.start) :
    ∀ other ∈ absorbGaps current rest, current.start ≤ other.start := by
  induction rest generalizing current with
  | nil =>
      intro other hother
      rw [absorbGaps, List.mem_singleton] at hother
      rw [hother]
  | cons gap rest ih =>
      obtain ⟨hcurrent, hgap⟩ := List.pairwise_cons.1 hsorted
      unfold absorbGaps
      split_ifs with htouch
      · exact ih (List.pairwise_cons.2
          ⟨fun other hother => hcurrent other (List.mem_cons_of_mem _ hother),
            (List.pairwise_cons.1 hgap).2⟩)
      · intro other hother
        cases List.mem_cons.1 hother with
        | inl hhead => rw [hhead]
        | inr hmem => exact (hcurrent gap List.mem_cons_self).trans (ih hgap other hmem)

theorem apart_absorbGaps (hsorted : (current :: rest).Pairwise fun a b => a.start ≤ b.start)
    (hword : ∀ gap ∈ rest, gap.InWord) :
    (absorbGaps current rest).Pairwise GapRange.Apart := by
  induction rest generalizing current with
  | nil => exact List.pairwise_singleton _ _
  | cons gap rest ih =>
      obtain ⟨hcurrent, hgap⟩ := List.pairwise_cons.1 hsorted
      have hlater := fun other hother => hword other (List.mem_cons_of_mem _ hother)
      unfold absorbGaps
      split_ifs with htouch
      · exact ih (List.pairwise_cons.2
          ⟨fun other hother => hcurrent other (List.mem_cons_of_mem _ hother),
            (List.pairwise_cons.1 hgap).2⟩) hlater
      · refine List.pairwise_cons.2 ⟨fun other hother => ?_, ih hgap hlater⟩
        have hbefore := hcurrent gap List.mem_cons_self
        have hbehind := start_le_of_mem_absorbGaps hgap other hother
        refine ⟨hbefore.trans hbehind, fun hepoch hreason => ?_⟩
        -- `gap` has the epoch and the reason as well, and did not touch `current`
        have hbetween := GapRange.between hbefore hbehind hepoch hreason
        have hfirst := (hword gap List.mem_cons_self).1
        have hmiss : ¬ gap.firstSeq ≤ min (current.lastSeq + 1) u64Max :=
          fun hle => htouch ⟨hbetween.1, hbetween.2.1, hle⟩
        omega

theorem sorted_by_start (gaps : List GapRange) :
    (gaps.insertionSort fun a b => a.key ≤ b.key).Pairwise fun a b => a.start ≤ b.start :=
  haveI : Std.Total fun a b : GapRange => a.key ≤ b.key := ⟨fun a b => le_total a.key b.key⟩
  haveI : IsTrans GapRange fun a b => a.key ≤ b.key := ⟨fun _ _ _ => le_trans⟩
  (List.pairwise_insertionSort (fun a b : GapRange => a.key ≤ b.key) gaps).imp
    GapRange.start_le_of_key_le

theorem explained_mergeGapRanges (gaps : List GapRange) (epoch : Uuid) (reason : GapReason) :
    explained (mergeGapRanges gaps) epoch reason = explained gaps epoch reason := by
  have hperm := List.perm_insertionSort (fun a b : GapRange => a.key ≤ b.key) gaps
  have hsorted := sorted_by_start gaps
  rw [← explained_perm hperm]
  unfold mergeGapRanges
  split
  case h_1 hnil => rw [hnil]
  case h_2 hcons =>
    rw [hcons] at hsorted ⊢
    exact explained_absorbGaps hsorted

theorem apart_mergeGapRanges (hword : ∀ gap ∈ gaps, gap.InWord) :
    (mergeGapRanges gaps).Pairwise GapRange.Apart := by
  have hsorted := sorted_by_start gaps
  have hwords : ∀ gap ∈ gaps.insertionSort fun a b => a.key ≤ b.key, gap.InWord :=
    fun gap hgap => hword gap ((List.mem_insertionSort _).1 hgap)
  unfold mergeGapRanges
  split
  case h_1 => exact List.Pairwise.nil
  case h_2 hcons =>
    rw [hcons] at hsorted hwords
    exact apart_absorbGaps hsorted fun gap hgap => hwords gap (List.mem_cons_of_mem _ hgap)

/-! ## Entering derived ranges -/

theorem explained_pushGapBounded (h : pushGapBounded gaps gap = .ok result) (epoch : Uuid)
    (reason : GapReason) :
    explained result epoch reason = explained gaps epoch reason ∪
      {seq | gap.epoch = epoch ∧ gap.reason = reason ∧ seq ∈ gap.seqs} := by
  have hpushed : explained (gaps ++ [gap]) epoch reason = explained gaps epoch reason ∪
      {seq | gap.epoch = epoch ∧ gap.reason = reason ∧ seq ∈ gap.seqs} := by
    rw [explained_append]
    simp [explained]
  rw [← hpushed]
  unfold pushGapBounded at h
  extract_lets pushed merged at h
  split_ifs at h
  · rw [← Except.ok.inj h]
    exact explained_mergeGapRanges _ _ _
  · rw [← Except.ok.inj h]

theorem explained_foldlM_pushGapBounded (parts : List GapRange)
    (h : parts.foldlM pushGapBounded gaps = .ok result) (epoch : Uuid) (reason : GapReason) :
    explained result epoch reason = explained gaps epoch reason ∪ explained parts epoch reason := by
  induction parts generalizing gaps with
  | nil =>
      cases h
      simp [explained]
  | cons part parts ih =>
      obtain ⟨pushed, hpushed, h⟩ := Except.exists_of_bind_ok h
      rw [ih h, explained_pushGapBounded hpushed, explained_cons, Set.union_assoc]

/-- The parts which the loop of `push_uncovered_gap` enters. -/
def GapRange.uncoveredParts (candidate : GapRange) : List (ℕ ×ₗ ℕ) → ℕ → List GapRange
  | [], next => [{ candidate with firstSeq := next }]
  | covered :: rest, next =>
      let (first, last) := ofLex covered
      (if next < first then
        [{ candidate with firstSeq := next, lastSeq := min candidate.lastSeq (first - 1) }]
        else []) ++
      if candidate.lastSeq < max next (last + 1) then []
      else candidate.uncoveredParts rest (max next (last + 1))

theorem pushUncovered_cons (candidate : GapRange) (first last : ℕ) (pairs : List (ℕ ×ₗ ℕ))
    (next : ℕ) (gaps : List GapRange) :
    pushUncovered candidate (toLex (first, last) :: pairs) next gaps =
      (if next < first then
        pushGapBounded gaps
          { candidate with firstSeq := next, lastSeq := min candidate.lastSeq (first - 1) }
        else .ok gaps) >>= fun gaps =>
      if candidate.lastSeq ≤ last then .ok gaps
      else if candidate.lastSeq < max next (satAdd u64Max last 1) then .ok gaps
      else pushUncovered candidate pairs (max next (satAdd u64Max last 1)) gaps := rfl

theorem uncoveredParts_cons (candidate : GapRange) (first last : ℕ) (pairs : List (ℕ ×ₗ ℕ))
    (next : ℕ) :
    candidate.uncoveredParts (toLex (first, last) :: pairs) next =
      (if next < first then
        [{ candidate with firstSeq := next, lastSeq := min candidate.lastSeq (first - 1) }]
        else []) ++
      if candidate.lastSeq < max next (last + 1) then []
      else candidate.uncoveredParts pairs (max next (last + 1)) := rfl

theorem pushUncovered_eq_foldlM {candidate : GapRange} (hword : candidate.InWord)
    (pairs : List (ℕ ×ₗ ℕ)) (next : ℕ) :
    pushUncovered candidate pairs next gaps =
      (candidate.uncoveredParts pairs next).foldlM pushGapBounded gaps := by
  induction pairs generalizing next gaps with
  | nil => simp [pushUncovered, GapRange.uncoveredParts]
  | cons pair rest ih =>
      obtain ⟨⟨first, last⟩, rfl⟩ := toLex.surjective pair
      rw [pushUncovered_cons, uncoveredParts_cons, List.foldlM_append]
      have hhead : (if next < first then
          [{ candidate with firstSeq := next, lastSeq := min candidate.lastSeq (first - 1) }]
          else []).foldlM pushGapBounded gaps =
          if next < first then
            pushGapBounded gaps
              { candidate with firstSeq := next, lastSeq := min candidate.lastSeq (first - 1) }
          else .ok gaps := by
        split_ifs
        · exact List.foldlM_cons.trans (bind_pure _)
        · rfl
      rw [hhead]
      congr 1
      funext pushed
      have hlast := hword.2
      by_cases hcovered : candidate.lastSeq ≤ last
      · rw [if_pos hcovered, if_pos (by omega)]
        rfl
      · rw [if_neg hcovered, satAdd_eq_add (by omega)]
        split_ifs
        · rfl
        · exact ih _

/-- The part of a range from `next` on which no pair of bounds covers. -/
def GapRange.uncovered (candidate : GapRange) (pairs : List (ℕ ×ₗ ℕ)) (next : ℕ) : Set ℕ :=
  {seq | next ≤ seq ∧ seq ≤ candidate.lastSeq ∧
    ∀ pair ∈ pairs, ¬ ((ofLex pair).1 ≤ seq ∧ seq ≤ (ofLex pair).2)}

theorem explained_uncoveredParts (candidate : GapRange) (pairs : List (ℕ ×ₗ ℕ))
    (hsorted : pairs.Pairwise (· ≤ ·)) (next : ℕ) (epoch : Uuid) (reason : GapReason) :
    explained (candidate.uncoveredParts pairs next) epoch reason =
      {seq | candidate.epoch = epoch ∧ candidate.reason = reason ∧
        seq ∈ candidate.uncovered pairs next} := by
  induction pairs generalizing next with
  | nil =>
      ext seq
      simp [GapRange.uncoveredParts, explained, GapRange.uncovered, GapRange.seqs]
  | cons pair rest ih =>
      obtain ⟨⟨first, last⟩, rfl⟩ := toLex.surjective pair
      obtain ⟨hpair, hrest⟩ := List.pairwise_cons.1 hsorted
      have hlater : ∀ other ∈ rest, first ≤ (ofLex other).1 := by
        intro other hother
        have hle := Prod.Lex.le_iff.1 (hpair other hother)
        simp only [ofLex_toLex] at hle
        omega
      -- what stands before the first pair is in no later one
      have hsplit : ∀ seq, seq ∈ candidate.uncovered (toLex (first, last) :: rest) next ↔
          (next ≤ seq ∧ seq ≤ candidate.lastSeq ∧ seq < first) ∨
          seq ∈ candidate.uncovered rest (max next (last + 1)) := by
        intro seq
        simp only [GapRange.uncovered, Set.mem_ofPred_eq, List.forall_mem_cons, ofLex_toLex]
        constructor
        · rintro ⟨hge, hle, hhead, htail⟩
          by_cases hearly : seq < first
          · exact .inl ⟨hge, hle, hearly⟩
          · exact .inr ⟨by omega, hle, htail⟩
        · rintro (⟨hge, hle, hearly⟩ | ⟨hge, hle, htail⟩)
          · refine ⟨hge, hle, by omega, fun other hother => ?_⟩
            have hbehind := hlater other hother
            omega
          · exact ⟨by omega, hle, by omega, htail⟩
      rw [uncoveredParts_cons, explained_append]
      have hhead : explained (if next < first then
          [{ candidate with firstSeq := next, lastSeq := min candidate.lastSeq (first - 1) }]
          else []) epoch reason =
          {seq | candidate.epoch = epoch ∧ candidate.reason = reason ∧
            next ≤ seq ∧ seq ≤ candidate.lastSeq ∧ seq < first} := by
        ext seq
        split_ifs with hnext
        · simp only [explained, List.mem_singleton, exists_eq_left, GapRange.seqs,
            Set.mem_ofPred_eq, Set.mem_Icc]
          refine and_congr_right fun _ => and_congr_right fun _ => ?_
          omega
        · simp only [explained, List.not_mem_nil, false_and, exists_false, Set.mem_ofPred_eq]
          refine iff_of_false id fun hseq => ?_
          have hbounds := hseq.2.2
          omega
      have htail : explained (if candidate.lastSeq < max next (last + 1) then []
          else candidate.uncoveredParts rest (max next (last + 1))) epoch reason =
          {seq | candidate.epoch = epoch ∧ candidate.reason = reason ∧
            seq ∈ candidate.uncovered rest (max next (last + 1))} := by
        split_ifs with hend
        · ext seq
          simp only [explained, List.not_mem_nil, false_and, exists_false, Set.mem_ofPred_eq,
            GapRange.uncovered]
          refine iff_of_false id fun hseq => ?_
          have hge := hseq.2.2.1
          have hle := hseq.2.2.2.1
          omega
        · exact ih hrest _
      rw [hhead, htail]
      ext seq
      simp only [Set.mem_union, Set.mem_ofPred_eq, hsplit]
      tauto

/-- `push_uncovered_gap` enters parts of the candidate, which together are what no range of
its epoch covered. -/
theorem pushUncoveredGap_ok {candidate : GapRange} (hword : candidate.InWord)
    (h : pushUncoveredGap gaps candidate = .ok result) :
    ∃ parts, parts.foldlM pushGapBounded gaps = .ok result ∧
      ∀ epoch reason, explained parts epoch reason =
        {seq | candidate.epoch = epoch ∧ candidate.reason = reason ∧
          seq ∈ candidate.seqs \ covered gaps epoch} := by
  unfold pushUncoveredGap at h
  split_ifs at h with hempty
  · refine ⟨[], h, fun epoch reason => ?_⟩
    ext seq
    simp only [explained, List.not_mem_nil, false_and, exists_false, Set.mem_ofPred_eq,
      GapRange.seqs, Set.mem_sdiff, Set.mem_Icc]
    refine iff_of_false id fun hseq => ?_
    have hbounds := hseq.2.2.1
    omega
  · rw [pushUncovered_eq_foldlM hword] at h
    refine ⟨_, h, fun epoch reason => ?_⟩
    rw [explained_uncoveredParts candidate _ (List.pairwise_insertionSort (· ≤ ·) _)]
    ext seq
    simp only [GapRange.uncovered, GapRange.seqs, covered, Set.mem_ofPred_eq, Set.mem_sdiff,
      Set.mem_Icc, List.mem_insertionSort, List.mem_map, List.mem_filter, decide_eq_true_eq]
    constructor
    · rintro ⟨rfl, rfl, hge, hle, hclear⟩
      refine ⟨rfl, rfl, ⟨hge, hle⟩, ?_⟩
      rintro ⟨gap, hgap, hepoch, hfirst, hlast⟩
      exact hclear _ ⟨gap, ⟨hgap, hepoch, by omega, by omega⟩, rfl⟩ ⟨hfirst, hlast⟩
    · rintro ⟨rfl, rfl, ⟨hge, hle⟩, hclear⟩
      refine ⟨rfl, rfl, hge, hle, ?_⟩
      rintro _ ⟨gap, ⟨hgap, hepoch, -, -⟩, rfl⟩ hinside
      exact hclear ⟨gap, hgap, hepoch, hinside⟩

end

/-- A derived range which is entered extends what its epoch covers by itself; its parts which
are entered cover nothing that was covered, and no other epoch or reason gains anything.
Merging keeps what every reason explains and leaves sorted ranges, with a sequence number
between any two of one epoch and reason. -/
theorem gap_ranges_cover (gaps : List GapRange) (hgaps : ∀ gap ∈ gaps, gap.InWord) :
    (∀ candidate result, candidate.InWord → pushUncoveredGap gaps candidate = .ok result →
      covered result candidate.epoch = covered gaps candidate.epoch ∪ candidate.seqs ∧
      ∃ parts, parts.foldlM pushGapBounded gaps = .ok result ∧
        ∀ epoch reason,
          explained result epoch reason =
            explained gaps epoch reason ∪ explained parts epoch reason ∧
          explained parts epoch reason =
            {seq | candidate.epoch = epoch ∧ candidate.reason = reason ∧
              seq ∈ candidate.seqs \ covered gaps epoch}) ∧
    (∀ epoch reason, explained (mergeGapRanges gaps) epoch reason =
      explained gaps epoch reason) ∧
    (mergeGapRanges gaps).Pairwise GapRange.Apart := by
  refine ⟨fun candidate result hword h => ?_, explained_mergeGapRanges gaps,
    apart_mergeGapRanges hgaps⟩
  obtain ⟨parts, hparts, hcovers⟩ := pushUncoveredGap_ok hword h
  have hresult := explained_foldlM_pushGapBounded parts hparts
  refine ⟨?_, parts, hparts, fun epoch reason => ⟨hresult epoch reason, hcovers epoch reason⟩⟩
  rw [covered_eq_iUnion, covered_eq_iUnion]
  ext seq
  simp only [hresult, hcovers, Set.mem_iUnion, Set.mem_union, Set.mem_ofPred_eq, Set.mem_sdiff,
    covered_eq_iUnion]
  by_cases hknown : ∃ reason, seq ∈ explained gaps candidate.epoch reason
  · simp [hknown]
  · have hnone : ∀ reason, seq ∉ explained gaps candidate.epoch reason := by simpa using hknown
    simp [hnone]

/-- Ranges at both ends of the numbers, and a candidate over all of them. -/
theorem gap_ranges_cover_ends :
    covered [⟨1, 0, 4, .retention⟩, ⟨1, 10, u64Max, .corruption⟩, ⟨1, 7, 6, .retention⟩] 1 ∪
      Set.Icc 0 u64Max =
    covered [⟨1, 0, 4, .retention⟩, ⟨1, 10, u64Max, .corruption⟩, ⟨1, 7, 6, .retention⟩,
      ⟨1, 5, 6, .sequenceDiscontinuity⟩, ⟨1, 7, 9, .sequenceDiscontinuity⟩] 1 := by
  have hpush : pushUncoveredGap
      [⟨1, 0, 4, .retention⟩, ⟨1, 10, u64Max, .corruption⟩, ⟨1, 7, 6, .retention⟩]
      ⟨1, 0, u64Max, .sequenceDiscontinuity⟩ = .ok
      [⟨1, 0, 4, .retention⟩, ⟨1, 10, u64Max, .corruption⟩, ⟨1, 7, 6, .retention⟩,
        ⟨1, 5, 6, .sequenceDiscontinuity⟩, ⟨1, 7, 9, .sequenceDiscontinuity⟩] := by
    decide
  exact ((gap_ranges_cover _ (by decide)).1 _ _ (by decide) hpush).1.symm

end SerialPlatform.Journal
