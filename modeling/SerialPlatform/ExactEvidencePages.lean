import SerialPlatform.ExactEvidenceRuns

/-!
# How a stored range comes in pages

A journal which stores the range answers each request with the next stretch of it.  The
query delivers exactly when one of the stretches ends where the range ends: a page which
runs past the end is never found complete.
-/

namespace SerialPlatform.Evidence

open Journal

/-- The records of a range: each number once and in order, and no receive gap. -/
structure IsRange (target : ExactEvidenceTarget) (through : ℕ) (range : List TimelineEvent) :
    Prop where
  start : 0 < target.seqStart ∧ target.seqStart ≤ through ∧ through ≤ target.queryEndSeq
  numbers : range.map TimelineEvent.seq =
    List.range' target.seqStart (through + 1 - target.seqStart)
  identity : ∀ event ∈ range, event.port = target.port ∧ event.daemonEpoch = target.daemonEpoch
  noGap : ∀ event ∈ range, event.kind ≠ .gap

/-- The records fit the limits of the console. -/
def Fits (range : List TimelineEvent) : Prop :=
  range.length ≤ exactEvidenceMaxEvents ∧
    (range.map fun event => event.data.length).sum ≤ exactEvidenceMaxBytes

/-- The next stretch of a range: up to a cut within it, or past its end. -/
structure IsPage (target : ExactEvidenceTarget) (through : ℕ) (range : List TimelineEvent)
    (afterSeq : ℕ) (page : EventQueryResponse) (cut : ℕ) (beyond : List TimelineEvent) :
    Prop where
  cursor : page.nextCursor = some { epoch := target.daemonEpoch, afterSeq := cut }
  events : page.events =
    range.filter (fun event => afterSeq < event.seq ∧ event.seq ≤ cut) ++ beyond
  past : ∀ event ∈ beyond, through < event.seq
  ends : beyond = [] ↔ cut ≤ through
  moves : afterSeq < cut
  within : cut ≤ target.queryEndSeq
  goesOn : cut < through → page.truncated = true
  available : checkAvailable target page = .ok ()
  gaps : ∀ gap ∈ page.gaps, concernsTarget target gap = true →
    gap.lastSeq < target.seqStart ∨ through < gap.firstSeq

/-- Whatever is answered inside of the range is a page of it. -/
def Serves (answers : Answers) (target : ExactEvidenceTarget) (through : ℕ)
    (range : List TimelineEvent) : Prop :=
  ∀ index afterSeq page, target.seqStart ≤ afterSeq + 1 → afterSeq < through →
    answers index target.port (exactEvidenceQuery target afterSeq) = .ok page →
    ∃ cut beyond, IsPage target through range afterSeq page cut beyond

/-- Where the page ends which comes to the end of the range. -/
def lastCut (answers : Answers) (target : ExactEvidenceTarget) (through : ℕ) :
    ℕ → ℕ → ℕ → Option ℕ
  | 0, _, _ => none
  | requests + 1, index, afterSeq =>
      match answers index target.port (exactEvidenceQuery target afterSeq) with
      | .error _ => none
      | .ok page =>
          match page.nextCursor with
          | none => none
          | some cursor =>
              if cursor.afterSeq < through then
                lastCut answers target through requests (index + 1) cursor.afterSeq
              else some cursor.afterSeq

/-! ## Sorted events -/

section

variable {events range : List TimelineEvent}

theorem sortEvents_of_increasing (h : events.Pairwise fun a b => a.seq < b.seq) :
    sortEvents events = events := by
  unfold sortEvents
  rw [List.Pairwise.insertionSort_eq (h.imp fun hlt => le_of_lt hlt)]
  exact List.destutter_of_isChain _ _ (h.imp fun hlt => Nat.ne_of_lt hlt).isChain

theorem mem_destutter_seq (first : TimelineEvent) {event : TimelineEvent}
    (hevent : event ∈ first :: events) :
    ∃ kept ∈ events.destutter' (fun a b => a.seq ≠ b.seq) first, kept.seq = event.seq := by
  induction events generalizing first event with
  | nil =>
      rw [List.mem_singleton.1 hevent]
      exact ⟨first, List.mem_destutter' _ _ _, rfl⟩
  | cons second rest ih =>
      rw [List.destutter'_cons]
      split_ifs with hdiffer
      · rcases List.mem_cons.1 hevent with rfl | hrest
        · exact ⟨_, List.mem_cons_self, rfl⟩
        · obtain ⟨kept, hkept, hseq⟩ := ih second hrest
          exact ⟨kept, List.mem_cons_of_mem _ hkept, hseq⟩
      · rw [not_ne_iff] at hdiffer
        rcases List.mem_cons.1 hevent with rfl | hrest
        · exact ih _ List.mem_cons_self
        · rcases List.mem_cons.1 hrest with rfl | hlater
          · obtain ⟨kept, hkept, hseq⟩ := ih first List.mem_cons_self
            exact ⟨kept, hkept, hseq.trans hdiffer⟩
          · exact ih first (List.mem_cons_of_mem _ hlater)

/-- Sorting keeps an event of each number. -/
theorem exists_mem_sortEvents {event : TimelineEvent} (hevent : event ∈ events) :
    ∃ kept ∈ sortEvents events, kept.seq = event.seq := by
  unfold sortEvents
  have hmem := (List.mem_insertionSort fun a b : TimelineEvent => a.seq ≤ b.seq).2 hevent
  generalize events.insertionSort (fun a b => a.seq ≤ b.seq) = sorted at hmem
  cases sorted with
  | nil => cases hmem
  | cons first rest => exact mem_destutter_seq first hmem

theorem increasing_of_range {first count : ℕ}
    (h : events.map TimelineEvent.seq = List.range' first count) :
    events.Pairwise fun a b => a.seq < b.seq := by
  have hrange : (events.map TimelineEvent.seq).Pairwise (· < ·) := by
    rw [h]
    exact List.pairwise_lt_range'
  exact List.pairwise_map.1 hrange

end

/-! ## One page -/

section

variable {reconstruct : CommandEvidenceTarget → List TimelineEvent → Option ℕ}
  {answers : Answers} {target : ExactEvidenceTarget} {range : List TimelineEvent}
  {gathered next : Gathered} {page : EventQueryResponse} {through afterSeq cut : ℕ}

theorem completedThrough_validated (hend : target.validatedEnd = some through)
    (events : List TimelineEvent) :
    completedThrough reconstruct target events =
      if exactEvidenceIsComplete target.port target.daemonEpoch target.seqStart through events
      then some through else none := by
  cases target with
  | incident target =>
      obtain rfl := Option.some.inj hend
      rfl
  | command target =>
      obtain ⟨⟨first, last⟩, hrange, rfl⟩ := Option.map_eq_some_iff.1 hend
      simp only [completedThrough, commandEvidenceEndSeq, hrange]
      rfl

theorem not_complete_of_past {events : List TimelineEvent} {event : TimelineEvent}
    (hevent : event ∈ events) (hpast : through < event.seq) :
    ¬exactEvidenceIsComplete target.port target.daemonEpoch target.seqStart through events =
      true := by
  rw [exactEvidenceIsComplete_iff]
  rintro ⟨-, -, -, hnumbers⟩
  have hmem := @List.mem_map_of_mem _ _ _ _ TimelineEvent.seq hevent
  rw [hnumbers, List.mem_range'_1] at hmem
  omega

/-- Once a page has run past the end nothing is ever delivered. -/
theorem not_ok_of_past (hend : target.validatedEnd = some through) (requests index : ℕ)
    {event : TimelineEvent} (hevent : event ∈ gathered.events) (hpast : through < event.seq)
    (response : ExactEvidenceResponse) :
    queryPages reconstruct answers target requests index afterSeq gathered ≠ .ok response := by
  induction requests generalizing index afterSeq gathered event with
  | zero =>
      intro hok
      cases hok
  | succ requests ih =>
      unfold queryPages
      split
      · intro hok
        cases hok
      · rename_i page _
        split
        · intro hok
          cases hok
        · rename_i next hpage
          obtain ⟨kept, hkept, hseq⟩ : ∃ kept ∈ next.events, kept.seq = event.seq := by
            rw [(Gathered.addPage_ok hpage).2.1]
            exact exists_mem_sortEvents (List.mem_append_left _ hevent)
          have hlater : through < kept.seq := by
            omega
          rw [completedThrough_validated hend, if_neg (not_complete_of_past hkept hlater)]
          dsimp only
          split
          · exact ih _ hkept hlater
          · intro hok
            cases hok

/-- What a query has gathered of a range up to a number. -/
structure Filled (target : ExactEvidenceTarget) (through : ℕ) (range : List TimelineEvent)
    (afterSeq : ℕ) (gathered : Gathered) : Prop where
  events : gathered.events = range.filter fun event => event.seq ≤ afterSeq
  bytes : gathered.dataBytes = (gathered.events.map fun event => event.data.length).sum
  gaps : ∀ gap ∈ gathered.reportedGaps,
    gap.lastSeq < target.seqStart ∨ through < gap.firstSeq

theorem dataBytes_foldl {events : List TimelineEvent}
    (hroom : gathered.dataBytes + (events.map fun event => event.data.length).sum ≤ u64Max) :
    (events.foldl (Gathered.addEvent target) gathered).dataBytes =
      gathered.dataBytes + (events.map fun event => event.data.length).sum := by
  induction events generalizing gathered with
  | nil => rfl
  | cons event rest ih =>
      rw [List.map_cons, List.sum_cons] at hroom ⊢
      have hbytes : (gathered.addEvent target event).dataBytes =
          gathered.dataBytes + event.data.length := satAdd_eq_add (by omega)
      rw [List.foldl_cons, ih (by omega), hbytes, Nat.add_assoc]

theorem addEvents_of_own {events : List TimelineEvent}
    (hown : ∀ event ∈ events, isForeign target afterSeq event = false) :
    gathered.addEvents target afterSeq events =
      .ok (events.foldl (Gathered.addEvent target) gathered) := by
  induction events generalizing gathered with
  | nil => rfl
  | cons event rest ih =>
      unfold Gathered.addEvents
      rw [hown event List.mem_cons_self]
      exact ih fun other hother => hown other (List.mem_cons_of_mem _ hother)

theorem IsRange.seq_mem (h : IsRange target through range) {event : TimelineEvent}
    (hevent : event ∈ range) : target.seqStart ≤ event.seq ∧ event.seq ≤ through := by
  have hmem := @List.mem_map_of_mem _ _ _ _ TimelineEvent.seq hevent
  rw [h.numbers, List.mem_range'_1] at hmem
  omega

theorem sum_filter_le (p : TimelineEvent → Bool) :
    ((range.filter p).map fun event => event.data.length).sum ≤
      (range.map fun event => event.data.length).sum :=
  List.Sublist.sum_le_sum (List.filter_sublist.map _) fun _ _ => Nat.zero_le _

/-- A page which stays inside of the range is taken as it is. -/
theorem Filled.addPage (h : Filled target through range afterSeq gathered)
    (hrange : IsRange target through range) (hfits : Fits range)
    (hpage : IsPage target through range afterSeq page cut []) :
    ∃ next, gathered.addPage target afterSeq page = .ok next ∧
      Filled target through range cut next := by
  have hevents : page.events =
      range.filter fun event => afterSeq < event.seq ∧ event.seq ≤ cut :=
    hpage.events.trans (List.append_nil _)
  have hown : ∀ event ∈ page.events, isForeign target afterSeq event = false := by
    intro event hevent
    rw [hevents] at hevent
    obtain ⟨hmem, hbetween⟩ := List.mem_filter.1 hevent
    obtain ⟨hport, hepoch⟩ := hrange.identity event hmem
    have hseq := hrange.seq_mem hmem
    have hle := hrange.start
    simp only [decide_eq_true_eq] at hbetween
    simp [isForeign, hport, hepoch]
    omega
  have hnoGap : (page.events.filter fun event => event.kind = .gap) = [] := by
    rw [List.filter_eq_nil_iff]
    intro event hevent
    rw [hevents] at hevent
    simpa using hrange.noGap event (List.mem_filter.1 hevent).1
  have hjoined : gathered.events ++ page.events =
      range.filter fun event => event.seq ≤ cut := by
    rw [h.events, hevents]
    exact SortedStretches.filter_append_filter (increasing_of_range hrange.numbers) (le_of_lt hpage.moves)
  have hsorted : sortEvents (gathered.events ++ page.events) =
      gathered.events ++ page.events := by
    rw [hjoined]
    exact sortEvents_of_increasing
      ((increasing_of_range hrange.numbers).sublist List.filter_sublist)
  have hsum : gathered.dataBytes + (page.events.map fun event => event.data.length).sum =
      ((range.filter fun event => event.seq ≤ cut).map fun event => event.data.length).sum := by
    rw [h.bytes, ← List.sum_append, ← List.map_append, hjoined]
  have hsmall := @sum_filter_le range fun event => event.seq ≤ cut
  have hbound : exactEvidenceMaxBytes ≤ u64Max := by
    decide
  generalize hnext : page.events.foldl (Gathered.addEvent target)
    { gathered with
      reportedGaps := gathered.reportedGaps ++ page.gaps.filter (concernsTarget target) } = next
  have hnextEvents : next.events = range.filter fun event => event.seq ≤ cut := by
    rw [← hnext, Gathered.events_foldl]
    exact hjoined
  have hnextBytes : next.dataBytes =
      ((range.filter fun event => event.seq ≤ cut).map fun event => event.data.length).sum := by
    rw [← hnext, dataBytes_foldl]
    · exact hsum
    · have hle := hfits.2
      dsimp only
      omega
  have hnextGaps : next.reportedGaps =
      gathered.reportedGaps ++ page.gaps.filter (concernsTarget target) := by
    rw [← hnext, Gathered.reportedGaps_foldl, hnoGap]
    exact List.append_nil _
  have hsame : { next with events := sortEvents next.events } = next := by
    rw [hnextEvents, ← hjoined, hsorted, hjoined, ← hnextEvents]
  refine ⟨next, ?_, hnextEvents, ?_, ?_⟩
  · unfold Gathered.addPage
    dsimp only
    rw [hpage.available, Except.ok_bind, addEvents_of_own hown, hnext, Except.ok_bind, hsame]
    have hlimits : next.checkLimits = .ok () := by
      unfold Gathered.checkLimits
      rw [if_neg]
      rw [not_or, not_lt, not_lt, hnextEvents, hnextBytes]
      exact ⟨(List.length_filter_le _ _).trans hfits.1, hsmall.trans hfits.2⟩
    rw [hlimits]
    rfl
  · rw [hnextBytes, hnextEvents]
  · intro gap hgap
    rw [hnextGaps] at hgap
    rcases List.mem_append.1 hgap with hold | hnew
    · exact h.gaps gap hold
    · obtain ⟨hmem, hconcerns⟩ := List.mem_filter.1 hnew
      exact hpage.gaps gap hmem hconcerns

/-! ## The whole query -/

theorem IsRange.complete (h : IsRange target through range) :
    exactEvidenceIsComplete target.port target.daemonEpoch target.seqStart through range =
      true := by
  rw [exactEvidenceIsComplete_iff]
  refine ⟨h.start.1, h.start.2.1, ?_, h.numbers⟩
  intro event hevent
  simpa [isOf] using h.identity event hevent

theorem IsRange.filter_eq (h : IsRange target through range) :
    range.filter (fun event => event.seq ≤ through) = range := by
  rw [List.filter_eq_self]
  intro event hevent
  exact decide_eq_true (h.seq_mem hevent).2

/-- A stretch which ends before the range is not complete. -/
theorem not_complete_of_cut (hcut : cut < through) :
    ¬exactEvidenceIsComplete target.port target.daemonEpoch target.seqStart through
      (range.filter fun event => event.seq ≤ cut) = true := by
  rw [exactEvidenceIsComplete_iff]
  rintro ⟨-, hle, -, hnumbers⟩
  have hlast : through ∈ (range.filter fun event => event.seq ≤ cut).map TimelineEvent.seq := by
    rw [hnumbers, List.mem_range'_1]
    omega
  obtain ⟨event, hevent, hseq⟩ := List.mem_map.1 hlast
  have hearly : event.seq ≤ cut := of_decide_eq_true (List.mem_filter.1 hevent).2
  omega

theorem Filled.deliver (h : Filled target through range through next)
    (hrange : IsRange target through range) :
    next.deliver target through = .ok { target := target, events := range } := by
  have hevents : next.events = range := h.events.trans hrange.filter_eq
  have hfind : (next.reportedGaps.find? fun gap =>
      gap.firstSeq ≤ through && target.seqStart ≤ gap.lastSeq) = none := by
    rw [List.find?_eq_none]
    intro gap hgap
    have hapart := h.gaps gap hgap
    simp only [Bool.and_eq_true, decide_eq_true_eq, not_and, not_le]
    omega
  have hsorted := (increasing_of_range hrange.numbers).imp fun hlt => le_of_lt hlt
  have htake : (range.takeWhile fun event => event.seq ≤ through) = range :=
    (SortedStretches.filter_eq_takeWhile through hsorted).symm.trans hrange.filter_eq
  unfold Gathered.deliver
  rw [hfind, hevents, htake, hrange.filter_eq]
  dsimp only
  rw [if_pos hrange.complete]

/-- Inside of a stored range the loop delivers exactly when a page ends at its end. -/
theorem queryPages_ok_iff (hend : target.validatedEnd = some through)
    (hrange : IsRange target through range) (hfits : Fits range)
    (hserves : Serves answers target through range) (requests index : ℕ)
    (h : Filled target through range afterSeq gathered)
    (hstart : target.seqStart ≤ afterSeq + 1) (hafter : afterSeq < through) :
    (∃ response, queryPages reconstruct answers target requests index afterSeq gathered =
        .ok response) ↔
      lastCut answers target through requests index afterSeq = some through := by
  induction requests generalizing index afterSeq gathered with
  | zero =>
      refine ⟨?_, fun hmeets => (by cases hmeets)⟩
      rintro ⟨response, hok⟩
      cases hok
  | succ requests ih =>
      unfold queryPages lastCut
      cases hanswer : answers index target.port (exactEvidenceQuery target afterSeq) with
      | error message =>
          refine ⟨?_, fun hmeets => (by cases hmeets)⟩
          rintro ⟨response, hok⟩
          cases hok
      | ok page =>
          obtain ⟨cut, beyond, hpage⟩ := hserves index afterSeq page hstart hafter hanswer
          dsimp only
          rw [hpage.cursor]
          dsimp only
          by_cases hpast : through < cut
          · -- the page runs past the end
            rw [if_neg (by omega)]
            have hbeyond : beyond ≠ [] := fun hnil => by
              have hle := hpage.ends.1 hnil
              omega
            obtain ⟨event, hevent⟩ := List.exists_mem_of_ne_nil _ hbeyond
            refine ⟨?_, fun hmeets => ?_⟩
            · rintro ⟨response, hok⟩
              exfalso
              split at hok
              · cases hok
              · rename_i next hnext
                obtain ⟨kept, hkept, hseq⟩ : ∃ kept ∈ next.events, kept.seq = event.seq := by
                  rw [(Gathered.addPage_ok hnext).2.1, hpage.events]
                  exact exists_mem_sortEvents
                    (List.mem_append_right _ (List.mem_append_right _ hevent))
                have hlater : through < kept.seq := by
                  rw [hseq]
                  exact hpage.past event hevent
                rw [completedThrough_validated hend,
                  if_neg (not_complete_of_past hkept hlater)] at hok
                dsimp only at hok
                split at hok
                · exact not_ok_of_past hend _ _ hkept hlater response hok
                · cases hok
            · have hequal := Option.some.inj hmeets
              omega
          · rw [not_lt] at hpast
            obtain rfl := hpage.ends.2 hpast
            obtain ⟨next, hnext, hfilled⟩ := h.addPage hrange hfits hpage
            rw [hnext]
            dsimp only
            rw [completedThrough_validated hend]
            by_cases hcut : cut < through
            · rw [hfilled.events, if_neg (not_complete_of_cut hcut), if_pos hcut]
              have hle := hrange.start
              have hmoves := hpage.moves
              have hcursor : nextAfterSeq target afterSeq page = some cut := by
                unfold nextAfterSeq
                rw [hpage.cursor]
                dsimp only
                rw [if_pos ⟨rfl, hmoves, by omega, hpage.goesOn hcut⟩]
              rw [hcursor]
              exact ih _ hfilled (by omega) hcut
            · obtain rfl : cut = through := by
                omega
              rw [hfilled.events, hrange.filter_eq, if_pos hrange.complete]
              dsimp only
              rw [hfilled.deliver hrange]
              rw [if_neg (lt_irrefl _)]
              exact ⟨fun _ => rfl, fun _ => ⟨_, rfl⟩⟩

/-- The page which comes to the end of the range ends there or behind it. -/
theorem lastCut_bounds (hserves : Serves answers target through range) {requests index : ℕ}
    (hstart : target.seqStart ≤ afterSeq + 1) (hafter : afterSeq < through)
    (hcut : lastCut answers target through requests index afterSeq = some cut) :
    through ≤ cut ∧ cut ≤ target.queryEndSeq := by
  induction requests generalizing index afterSeq with
  | zero => cases hcut
  | succ requests ih =>
      unfold lastCut at hcut
      cases hanswer : answers index target.port (exactEvidenceQuery target afterSeq) with
      | error message =>
          rw [hanswer] at hcut
          cases hcut
      | ok page =>
          obtain ⟨next, beyond, hpage⟩ := hserves index afterSeq page hstart hafter hanswer
          rw [hanswer] at hcut
          dsimp only at hcut
          rw [hpage.cursor] at hcut
          dsimp only at hcut
          split_ifs at hcut with hnext
          · have hmoves := hpage.moves
            exact ih (by omega) hnext hcut
          · obtain rfl := Option.some.inj hcut
            exact ⟨not_lt.1 hnext, hpage.within⟩

end

end SerialPlatform.Evidence
