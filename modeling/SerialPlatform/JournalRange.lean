import SerialPlatform.JournalVisits
import SerialPlatform.SortedStretches

/-!
# Reading a stored range

Where the files of an epoch hold a range of records in order, and nothing is reported
missing in it, an unfiltered query answers with the next stretch of the range and moves its
cursor to the end of that stretch.
-/

namespace SerialPlatform.Journal

open RecordLog StatefulSteps

/-! ## Gaps beside a range -/

/-- The gap, if it is one of the epoch, does not reach into the range. -/
def GapRange.IsBeside (epoch : Uuid) (first last : ℕ) (gap : GapRange) : Prop :=
  gap.epoch = epoch → gap.lastSeq < first ∨ last < gap.firstSeq

section

variable {epoch : Uuid} {first last : ℕ} {gaps result : List GapRange} {gap : GapRange}

theorem beside_absorbGaps (hrange : first ≤ last) (rest : List GapRange)
    (hgap : gap.IsBeside epoch first last)
    (hrest : ∀ other ∈ rest, other.IsBeside epoch first last) :
    ∀ other ∈ absorbGaps gap rest, other.IsBeside epoch first last := by
  induction rest generalizing gap with
  | nil =>
      intro other hother
      rw [absorbGaps, List.mem_singleton] at hother
      rw [hother]
      exact hgap
  | cons second rest ih =>
      have hsecond := hrest second List.mem_cons_self
      have hlater := fun other hother => hrest other (List.mem_cons_of_mem _ hother)
      unfold absorbGaps
      split_ifs with htouch
      · refine ih ?_ hlater
        intro hepoch
        have hsat : satAdd u64Max gap.lastSeq 1 ≤ gap.lastSeq + 1 := min_le_left _ _
        have hleft := hgap hepoch
        have hright := hsecond (htouch.1 ▸ hepoch)
        dsimp only
        omega
      · intro other hother
        rcases List.mem_cons.1 hother with rfl | hmem
        · exact hgap
        · exact ih hsecond hlater other hmem

theorem beside_mergeGapRanges (hrange : first ≤ last)
    (hgaps : ∀ gap ∈ gaps, gap.IsBeside epoch first last) :
    ∀ gap ∈ mergeGapRanges gaps, gap.IsBeside epoch first last := by
  unfold mergeGapRanges
  have hsorted : ∀ gap ∈ gaps.insertionSort (fun a b => a.key ≤ b.key),
      gap.IsBeside epoch first last :=
    fun gap hgap => hgaps gap ((List.mem_insertionSort _).1 hgap)
  split
  · intro gap hgap
    cases hgap
  · rename_i first' rest heq
    rw [heq] at hsorted
    exact beside_absorbGaps hrange rest (hsorted _ List.mem_cons_self)
      fun other hother => hsorted other (List.mem_cons_of_mem _ hother)

theorem beside_pushGapBounded (hrange : first ≤ last)
    (hgaps : ∀ gap ∈ gaps, gap.IsBeside epoch first last)
    (hgap : gap.IsBeside epoch first last) (h : pushGapBounded gaps gap = .ok result) :
    ∀ gap ∈ result, gap.IsBeside epoch first last := by
  have hpushed : ∀ other ∈ gaps ++ [gap], other.IsBeside epoch first last := by
    intro other hother
    rcases List.mem_append.1 hother with hold | hnew
    · exact hgaps other hold
    · rw [List.mem_singleton.1 hnew]
      exact hgap
  unfold pushGapBounded at h
  extract_lets pushed merged at h
  split_ifs at h
  · rw [← Except.ok.inj h]
    exact beside_mergeGapRanges hrange hpushed
  · rw [← Except.ok.inj h]
    exact hpushed

theorem beside_pushUncovered (hrange : first ≤ last) (covered : List (ℕ ×ₗ ℕ)) {next : ℕ}
    (hgaps : ∀ gap ∈ gaps, gap.IsBeside epoch first last)
    (hgap : gap.IsBeside epoch first last) (hnext : gap.firstSeq ≤ next)
    (h : pushUncovered gap covered next gaps = .ok result) :
    ∀ gap ∈ result, gap.IsBeside epoch first last := by
  induction covered generalizing next gaps with
  | nil =>
      refine beside_pushGapBounded hrange hgaps ?_ h
      intro hepoch
      have happart := hgap hepoch
      dsimp only
      omega
  | cons pair rest ih =>
      unfold pushUncovered at h
      obtain ⟨pushed, hpushed, h⟩ := Except.exists_of_bind_ok h
      have hbeside : ∀ gap ∈ pushed, gap.IsBeside epoch first last := by
        split_ifs at hpushed
        · refine beside_pushGapBounded hrange hgaps ?_ hpushed
          intro hepoch
          have happart := hgap hepoch
          dsimp only
          omega
        · cases hpushed
          exact hgaps
      dsimp only at h
      split_ifs at h
      · cases h
        exact hbeside
      · cases h
        exact hbeside
      · exact ih hbeside (hnext.trans (le_max_left _ _)) h

theorem beside_pushUncoveredGap (hrange : first ≤ last)
    (hgaps : ∀ gap ∈ gaps, gap.IsBeside epoch first last)
    (hgap : gap.IsBeside epoch first last) (h : pushUncoveredGap gaps gap = .ok result) :
    ∀ gap ∈ result, gap.IsBeside epoch first last := by
  unfold pushUncoveredGap at h
  split_ifs at h
  · cases h
    exact hgaps
  · exact beside_pushUncovered hrange _ hgaps hgap (le_refl _) h

end

/-! ## Unfiltered queries -/

/-- The query asks for every record behind a cursor, up to a number. -/
structure EventQuery.IsPlain (query : EventQuery) (epoch : Uuid) (afterSeq throughSeq : ℕ) :
    Prop where
  epoch : query.epoch = some epoch
  afterSeq : query.afterSeq = some afterSeq
  throughSeq : query.throughSeq = some throughSeq
  scope : ∀ event, eventMatchesQueryScope event query = true
  contains : query.contains = none
  regex : query.regex = none

namespace EventQuery.IsPlain

variable {query : EventQuery} {epoch : Uuid} {afterSeq throughSeq : ℕ}

theorem floor_eq (h : query.IsPlain epoch afterSeq throughSeq) : query.floor = afterSeq := by
  unfold EventQuery.floor
  rw [h.afterSeq]
  rfl

theorem ceiling_eq (h : query.IsPlain epoch afterSeq throughSeq) : query.ceiling = throughSeq := by
  unfold EventQuery.ceiling
  rw [h.throughSeq]
  rfl

theorem isBehindCursor_eq (h : query.IsPlain epoch afterSeq throughSeq) (event : TimelineEvent) :
    query.isBehindCursor event = decide (afterSeq < event.seq) := by
  unfold EventQuery.isBehindCursor
  rw [h.afterSeq]
  rfl

theorem needsSearchSeed_eq (h : query.IsPlain epoch afterSeq throughSeq) :
    query.needsSearchSeed = false := by
  unfold EventQuery.needsSearchSeed
  rw [h.contains, h.regex]
  rfl

theorem textFilter_eq (h : query.IsPlain epoch afterSeq throughSeq) (engine : RegexEngine) :
    query.textFilter engine = .ok .none := by
  unfold EventQuery.textFilter
  rw [h.contains, h.regex]

end EventQuery.IsPlain

/-! ## The scan of a stored range -/

def Stop.event : Stop → Option TimelineEvent
  | .record _ passed => some passed
  | .tail .. => none

def recordsOf (stops : List Stop) : List TimelineEvent := stops.filterMap Stop.event

/-- The corrupt stretch which a stop gives, if it is one. -/
def Stop.corrupt : Stop → Option GapRange
  | .record .. => none
  | .tail segment ending lastGoodSeq => corruptRange segment ending lastGoodSeq

/-- What lies ahead of a scan holds the rest of the range, in order, and nothing in it is
given as corrupt. -/
structure Ahead (epoch : Uuid) (first last afterSeq throughSeq : ℕ) (behind : List TimelineEvent)
    (stops : List Stop) (reached : ℕ) : Prop where
  increasing : (recordsOf stops).Pairwise fun a b => a.seq < b.seq
  new : ∀ event ∈ recordsOf stops, afterSeq < event.seq →
    reached < event.seq ∧ (event.seq ≤ throughSeq → event ∈ behind)
  rest : ∀ event ∈ behind, reached < event.seq → event ∈ recordsOf stops
  sound : ∀ stop ∈ stops, ∀ gap, stop.corrupt = some gap → gap.IsBeside epoch first last

/-- A scan which has come to a number has taken everything behind the cursor up to it. -/
structure Scan.Reached (scan : Scan) (epoch : Uuid) (first last afterSeq : ℕ)
    (behind : List TimelineEvent) (reached : ℕ) : Prop where
  lastScannedSeq : scan.lastScannedSeq = some reached
  contiguous : scan.previousContiguousSeq = reached
  events : scan.events = behind.filter fun event => event.seq ≤ reached
  after : afterSeq ≤ reached
  place : afterSeq < reached → ∃ event ∈ behind, event.seq = reached
  gaps : ∀ gap ∈ scan.gaps, gap.IsBeside epoch first last

/-- The records behind the cursor: the rest of the range, and whatever follows it. -/
structure IsBehind (first last afterSeq : ℕ) (behind : List TimelineEvent) : Prop where
  increasing : behind.Pairwise fun a b => a.seq < b.seq
  after : ∀ event ∈ behind, afterSeq < event.seq
  stored : ∀ seq, afterSeq < seq → seq ≤ last → ∃ event ∈ behind, event.seq = seq
  start : first ≤ afterSeq + 1
  before : afterSeq < last

section

variable {codec : Codec} {search : Search} {epoch : Uuid}
  {first last afterSeq throughSeq reached : ℕ} {behind : List TimelineEvent}
  {stop : Stop} {stops : List Stop} {scan scan' : Scan}

theorem IsBehind.range_le (h : IsBehind first last afterSeq behind) : first ≤ last :=
  h.start.trans h.before

theorem Ahead.skip (h : Ahead epoch first last afterSeq throughSeq behind (stop :: stops) reached)
    (hstop : stop.event = none) : Ahead epoch first last afterSeq throughSeq behind stops reached := by
  have hsame : recordsOf (stop :: stops) = recordsOf stops := by
    rw [recordsOf, List.filterMap_cons_none hstop]
    rfl
  obtain ⟨hincreasing, hnew, hrest, hsound⟩ := h
  rw [hsame] at hincreasing hnew hrest
  exact ⟨hincreasing, hnew, hrest, fun other hother => hsound other (List.mem_cons_of_mem _ hother)⟩

/-- Behind a record which lies before the cursor. -/
theorem Ahead.pass {segment : SegmentDescriptor} {event : TimelineEvent}
    (h : Ahead epoch first last afterSeq throughSeq behind (.record segment event :: stops) reached)
    (hafter : afterSeq ≤ reached) (hevent : event.seq ≤ afterSeq) :
    Ahead epoch first last afterSeq throughSeq behind stops reached where
  increasing := (List.pairwise_cons.1 h.increasing).2
  new other hother := h.new other (List.mem_cons_of_mem _ hother)
  rest other hother hreached := by
    rcases List.mem_cons.1 (h.rest other hother hreached) with rfl | hmem
    · omega
    · exact hmem
  sound other hother := h.sound other (List.mem_cons_of_mem _ hother)

/-- Behind the next record. -/
theorem Ahead.take {segment : SegmentDescriptor} {event : TimelineEvent}
    (h : Ahead epoch first last afterSeq throughSeq behind (.record segment event :: stops) reached)
    (hreached : reached < event.seq) :
    Ahead epoch first last afterSeq throughSeq behind stops event.seq where
  increasing := (List.pairwise_cons.1 h.increasing).2
  new other hother hafter :=
    ⟨(List.pairwise_cons.1 h.increasing).1 other hother,
      (h.new other (List.mem_cons_of_mem _ hother) hafter).2⟩
  rest other hother hlater := by
    rcases List.mem_cons.1 (h.rest other hother (by omega)) with rfl | hmem
    · omega
    · exact hmem
  sound other hother := h.sound other (List.mem_cons_of_mem _ hother)

/-- The first record ahead behind the cursor is the next one of all. -/
theorem Ahead.next {segment : SegmentDescriptor} {event : TimelineEvent}
    (h : Ahead epoch first last afterSeq throughSeq behind (.record segment event :: stops) reached)
    {other : TimelineEvent} (hother : other ∈ behind) (hreached : reached < other.seq) :
    event.seq ≤ other.seq := by
  rcases List.mem_cons.1 (h.rest other hother hreached) with rfl | hmem
  · exact le_refl _
  · exact le_of_lt ((List.pairwise_cons.1 h.increasing).1 other hmem)

/-- No hole in front of the next record reaches into the range. -/
theorem Scan.Reached.account (h : scan.Reached epoch first last afterSeq behind reached)
    (hbehind : IsBehind first last afterSeq behind) (hplain :
      search.query.IsPlain epoch afterSeq throughSeq) (hword : throughSeq ≤ u64Max)
    {segment : SegmentDescriptor} {event : TimelineEvent}
    (hahead : Ahead epoch first last afterSeq throughSeq behind (.record segment event :: stops) reached)
    (hafter : afterSeq < event.seq) (hceiling : event.seq ≤ throughSeq)
    (haccount : scan.account search event = .ok scan') :
    scan'.lastScannedSeq = some reached ∧ scan'.previousContiguousSeq = event.seq ∧
      scan'.events = scan.events ∧ ∀ gap ∈ scan'.gaps, gap.IsBeside epoch first last := by
  have hreached := (hahead.new event List.mem_cons_self hafter).1
  unfold Scan.account at haccount
  rw [hplain.floor_eq, if_pos hafter] at haccount
  obtain ⟨accounted, haccounted, hrest⟩ := Except.exists_of_bind_ok haccount
  rw [h.contiguous] at haccounted
  have hkept : accounted.lastScannedSeq = some reached ∧ accounted.events = scan.events ∧
      accounted.previousContiguousSeq = reached ∧
      ∀ gap ∈ accounted.gaps, gap.IsBeside epoch first last := by
    split_ifs at haccounted with hhole
    · obtain ⟨gaps, hgaps, haccounted⟩ := Except.exists_of_bind_ok haccounted
      cases haccounted
      refine ⟨h.lastScannedSeq, rfl, h.contiguous, ?_⟩
      have hpast : last ≤ reached := by
        by_contra hinside
        obtain ⟨stored, hstored, hseq⟩ := hbehind.stored (reached + 1)
          (by have hle := h.after; omega) (by omega)
        have hnext := hahead.next hstored (by omega)
        have hadd : satAdd u64Max reached 1 = reached + 1 := satAdd_eq_add (by omega)
        omega
      refine beside_pushUncoveredGap hbehind.range_le h.gaps ?_ hgaps
      intro _
      dsimp only
      have hadd : satAdd u64Max reached 1 = reached + 1 := satAdd_eq_add (by omega)
      omega
    · cases haccounted
      exact ⟨h.lastScannedSeq, rfl, h.contiguous, h.gaps⟩
  cases hrest
  exact ⟨hkept.1, by rw [hkept.2.2.1]; exact max_eq_right (le_of_lt hreached), hkept.2.1,
    hkept.2.2.2⟩

/-- Every record is in the scope of an unfiltered query. -/
theorem Scan.observe_plain (scan : Scan) (hplain : search.query.IsPlain epoch afterSeq throughSeq)
    (hfilter : search.filter = .none) (event : TimelineEvent) :
    ∃ carries, (scan.follow event).observe search event =
      (true, { scan with carries := carries, previousScannedSeq := some event.seq }) := by
  unfold Scan.observe Scan.follow
  rw [if_pos (hplain.scope event), hfilter]
  exact ⟨_, rfl⟩

/-- How the scan of a stored range ends: it has taken a stretch of what lies behind the
cursor, and says so unless the range is exhausted. -/
structure Scan.Ended (result : Scan) (epoch : Uuid) (first last afterSeq : ℕ)
    (behind : List TimelineEvent) (cut : ℕ) : Prop where
  lastScannedSeq : result.lastScannedSeq = some cut
  events : result.events = behind.filter fun event => event.seq ≤ cut
  moves : afterSeq < cut
  place : ∃ event ∈ behind, event.seq = cut
  goesOn : cut < last → result.truncated = true
  gaps : ∀ gap ∈ result.gaps, gap.IsBeside epoch first last

/-- Where the next record lies behind the range, the range is exhausted. -/
theorem Ahead.last_le (hbehind : IsBehind first last afterSeq behind)
    (hafter : afterSeq ≤ reached)
    (hpast : ∀ event ∈ behind, reached < event.seq → last < event.seq) : last ≤ reached := by
  by_contra hinside
  obtain ⟨stored, hstored, hseq⟩ := hbehind.stored (reached + 1) (by omega) (by omega)
  have hlater := hpast stored hstored (by omega)
  omega

theorem Scan.Reached.ended (h : scan.Reached epoch first last afterSeq behind reached)
    (hbehind : IsBehind first last afterSeq behind) (hlast : last ≤ reached) :
    scan.Ended epoch first last afterSeq behind reached where
  lastScannedSeq := h.lastScannedSeq
  events := h.events
  moves := lt_of_lt_of_le hbehind.before hlast
  place := h.place (lt_of_lt_of_le hbehind.before hlast)
  goesOn hlt := absurd hlt (not_lt.2 hlast)
  gaps := h.gaps

theorem ended_of_visits {result : Scan} (hvisits : Visits codec search stops scan result)
    (hbehind : IsBehind first last afterSeq behind)
    (hplain : search.query.IsPlain epoch afterSeq throughSeq) (hfilter : search.filter = .none)
    (hword : throughSeq ≤ u64Max) (hlast : last ≤ throughSeq)
    (hscan : scan.Reached epoch first last afterSeq behind reached)
    (hahead : Ahead epoch first last afterSeq throughSeq behind stops reached) :
    ∃ cut, result.Ended epoch first last afterSeq behind cut := by
  induction hvisits generalizing reached with
  | done =>
      refine ⟨reached, hscan.ended hbehind (Ahead.last_le hbehind hscan.after ?_)⟩
      intro event hevent hlater
      cases hahead.rest event hevent hlater
  | @budget stops scan hmoved =>
      have hprogress : afterSeq < reached := by
        unfold Scan.IsMoved at hmoved
        rw [hscan.lastScannedSeq, hplain.afterSeq] at hmoved
        exact of_decide_eq_true hmoved
      exact ⟨reached, hscan.lastScannedSeq, hscan.events, hprogress, hscan.place hprogress,
        fun _ => rfl, hscan.gaps⟩
  | beyond hceiling =>
      rw [hplain.ceiling_eq] at hceiling
      refine ⟨reached, hscan.ended hbehind (Ahead.last_le hbehind hscan.after ?_)⟩
      intro event hevent hlater
      have hnext := hahead.next hevent hlater
      omega
  | @full segment event stops scan accounted observed hfits haccount hobserve hafter hsome =>
      rw [hplain.isBehindCursor_eq, decide_eq_true_eq] at hafter
      have hceiling := hplain.ceiling_eq ▸ hfits.ceiling
      obtain ⟨hscanned, -, hevents, hgaps⟩ :=
        hscan.account hbehind hplain hword hahead hafter hceiling haccount
      obtain ⟨carries, hplainObserve⟩ := accounted.observe_plain hplain hfilter event
      rw [hplainObserve] at hobserve
      obtain ⟨-, rfl⟩ := Prod.mk.inj hobserve
      have htaken := hevents.trans hscan.events
      have hprogress : afterSeq < reached := by
        obtain ⟨taken, hmem⟩ := List.exists_mem_of_ne_nil _ hsome
        dsimp only at hmem
        rw [htaken] at hmem
        obtain ⟨hmem, hle⟩ := List.mem_filter.1 hmem
        have hlt := hbehind.after taken hmem
        have hle' : taken.seq ≤ reached := of_decide_eq_true hle
        omega
      exact ⟨reached, hscanned, htaken, hprogress, hscan.place hprogress, fun _ => rfl, hgaps⟩
  | @take segment event stops scan accounted observed result hfits haccount hobserve hafter hrest
      ih =>
      rw [hplain.isBehindCursor_eq, decide_eq_true_eq] at hafter
      have hceiling := hplain.ceiling_eq ▸ hfits.ceiling
      obtain ⟨hscanned, hcontiguous, hevents, hgaps⟩ :=
        hscan.account hbehind hplain hword hahead hafter hceiling haccount
      obtain ⟨carries, hplainObserve⟩ := accounted.observe_plain hplain hfilter event
      rw [hplainObserve] at hobserve
      obtain ⟨-, rfl⟩ := Prod.mk.inj hobserve
      obtain ⟨hreached, hmem⟩ := hahead.new event List.mem_cons_self hafter
      refine ih ⟨?_, hcontiguous, ?_, le_of_lt hafter, fun _ => ⟨event, hmem hceiling, rfl⟩, hgaps⟩
        (hahead.take hreached)
      · unfold Scan.take Scan.reach
        dsimp only
        rw [hscanned]
        exact congrArg some (max_eq_right (le_of_lt hreached))
      · unfold Scan.take
        dsimp only
        rw [hevents, hscan.events]
        exact (SortedStretches.filter_next hbehind.increasing (hmem hceiling) hreached
          fun other hother hlater => hahead.next hother hlater).symm
  | @pass segment event stops found scan accounted observed result hfits haccount hobserve hnot
      hrest ih =>
      obtain ⟨carries, hplainObserve⟩ := accounted.observe_plain hplain hfilter event
      rw [hplainObserve] at hobserve
      obtain ⟨rfl, rfl⟩ := Prod.mk.inj hobserve
      rw [Bool.and_true, hplain.isBehindCursor_eq, decide_eq_false_iff_not, not_lt] at hnot
      have hsame : accounted = scan := by
        unfold Scan.account at haccount
        rw [hplain.floor_eq, if_neg (not_lt.2 hnot)] at haccount
        exact (Except.ok.inj haccount).symm
      subst hsame
      refine ih ⟨?_, hscan.contiguous, hscan.events, hscan.after, hscan.place, hscan.gaps⟩
        (hahead.pass hscan.after hnot)
      unfold Scan.reach
      dsimp only
      rw [hscan.lastScannedSeq]
      exact congrArg some (max_eq_left (hnot.trans hscan.after))
  | @leave segment tail lastGoodSeq stops scan result gaps hgaps hrest ih =>
      have hbeside : ∀ gap ∈ gaps, gap.IsBeside epoch first last := by
        have hsound := hahead.sound _ List.mem_cons_self
        unfold pushCorrupt at hgaps
        cases hcorrupt : corruptRange segment tail lastGoodSeq with
        | none =>
            rw [hcorrupt] at hgaps
            rw [← Except.ok.inj hgaps]
            exact hscan.gaps
        | some gap =>
            rw [hcorrupt] at hgaps
            exact beside_pushGapBounded hbehind.range_le hscan.gaps (hsound gap hcorrupt) hgaps
      refine ih ?_ (hahead.skip rfl)
      unfold Scan.leave
      cases tail with
      | eof => exact hscan
      | invalid reason =>
          exact ⟨hscan.lastScannedSeq, hscan.contiguous, hscan.events, hscan.after, hscan.place,
            hbeside⟩

end

end SerialPlatform.Journal
