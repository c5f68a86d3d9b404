import SerialPlatform.ExactEvidence
import SerialPlatform.ExceptBind
import SerialPlatform.SortedStretches

/-!
# Exact evidence is complete or refused

Whatever the pages bring, a delivered range has every event once and in order, and no gap
crosses it.  Where the records are stored, the query delivers them exactly if one of the
pages ends where the range ends.
-/

namespace SerialPlatform.Evidence

open Journal

/-! ## Completion -/

section

variable {port : String} {daemonEpoch : Uuid}

theorem pairs_consecutive (first : TimelineEvent) (rest : List TimelineEvent) :
    ((first :: rest).zip rest).all (fun pair =>
        isOf port daemonEpoch pair.1 && isOf port daemonEpoch pair.2 &&
          pair.1.seq + 1 = pair.2.seq) = true ↔
      (rest ≠ [] → ∀ event ∈ first :: rest, isOf port daemonEpoch event = true) ∧
        (first :: rest).map TimelineEvent.seq =
          List.range' first.seq (rest.length + 1) := by
  induction rest generalizing first with
  | nil => simp [List.range'_succ]
  | cons second rest ih =>
      rw [List.zip_cons_cons, List.all_cons, Bool.and_eq_true, ih second]
      simp only [Bool.and_eq_true, decide_eq_true_eq]
      constructor
      · rintro ⟨⟨⟨hfirst, hsecond⟩, hseq⟩, hall, hseqs⟩
        refine ⟨fun _ event hevent => ?_, ?_⟩
        · rcases List.mem_cons.1 hevent with rfl | hrest
          · exact hfirst
          · rcases rest with _ | ⟨third, rest⟩
            · rw [List.mem_singleton.1 hrest]
              exact hsecond
            · exact hall (List.cons_ne_nil _ _) event hrest
        · rw [List.map_cons, hseqs, ← hseq]
          rfl
      · rintro ⟨hall, hseqs⟩
        rw [List.length_cons, List.range'_succ, List.map_cons, List.cons.injEq] at hseqs
        have hseq : second.seq = first.seq + 1 := by
          have hhead := hseqs.2
          rw [List.range'_succ, List.map_cons, List.cons.injEq] at hhead
          exact hhead.1
        have hevery := hall (List.cons_ne_nil _ _)
        refine ⟨⟨⟨hevery first List.mem_cons_self,
          hevery second (List.mem_cons_of_mem _ List.mem_cons_self)⟩, hseq.symm⟩, ?_, ?_⟩
        · exact fun _ event hevent => hevery event (List.mem_cons_of_mem _ hevent)
        · rw [hseqs.2, hseq]

/-- The evidence is complete exactly if it holds each number of the range once and in order. -/
theorem exactEvidenceIsComplete_iff {seqStart seqEnd : ℕ} {events : List TimelineEvent} :
    exactEvidenceIsComplete port daemonEpoch seqStart seqEnd events = true ↔
      0 < seqStart ∧ seqStart ≤ seqEnd ∧
        (∀ event ∈ events, isOf port daemonEpoch event = true) ∧
        events.map TimelineEvent.seq = List.range' seqStart (seqEnd + 1 - seqStart) := by
  unfold exactEvidenceIsComplete
  by_cases hrange : seqStart = 0 ∨ seqEnd < seqStart
  · rw [if_pos hrange]
    constructor
    · intro h
      cases h
    · rintro ⟨hpos, hle, -⟩
      omega
  rw [if_neg hrange]
  rw [not_or, not_lt] at hrange
  cases events with
  | nil =>
      constructor
      · intro h
        cases h
      · rintro ⟨-, -, -, hseqs⟩
        have hlength := congrArg List.length hseqs
        rw [List.length_range', List.map_nil, List.length_nil] at hlength
        omega
  | cons first rest =>
      obtain ⟨last, hlast⟩ : ∃ last, (first :: rest).getLast? = some last :=
        Option.isSome_iff_exists.1 (by simp)
      have hmem : last ∈ first :: rest := List.mem_of_getLast? hlast
      have hlastSeq : ((first :: rest).map TimelineEvent.seq).getLast? = some last.seq := by
        rw [List.getLast?_map, hlast]
        rfl
      simp only [List.head?_cons, hlast, List.tail_cons, Bool.and_eq_true, decide_eq_true_eq,
        pairs_consecutive]
      constructor
      · rintro ⟨⟨⟨hfirst, hstart⟩, -, hend⟩, hall, hseqs⟩
        refine ⟨by omega, hrange.2, ?_, ?_⟩
        · intro event hevent
          rcases rest with _ | ⟨second, rest⟩
          · rw [List.mem_singleton.1 hevent]
            exact hfirst
          · exact hall (List.cons_ne_nil _ _) event hevent
        · rw [hseqs, List.getLast?_range'] at hlastSeq
          rw [hseqs, hstart]
          congr 1
          simp only [Nat.add_eq_zero_iff, one_ne_zero, and_false, if_false,
            Option.some.injEq] at hlastSeq
          omega
      · rintro ⟨hpos, hle, hall, hseqs⟩
        have hstart : first.seq = seqStart := by
          have hhead := congrArg List.head? hseqs
          rw [List.map_cons, List.head?_cons, List.head?_range'] at hhead
          split_ifs at hhead with hzero
          · exact Option.some.inj hhead
        have hend : last.seq = seqEnd := by
          rw [hseqs, List.getLast?_range'] at hlastSeq
          split_ifs at hlastSeq with hzero
          · have hvalue := Option.some.inj hlastSeq
            omega
        have hlength : rest.length + 1 = seqEnd + 1 - seqStart := by
          have hlength := congrArg List.length hseqs
          simpa using hlength
        refine ⟨⟨⟨hall first List.mem_cons_self, hstart⟩, hall last hmem, hend⟩,
          fun _ => hall, ?_⟩
        rw [hseqs, hstart, hlength]

end

/-! ## Soundness -/

/-- The end of an incident, or of a command whose range the daemon validated. -/
def ExactEvidenceTarget.validatedEnd : ExactEvidenceTarget → Option ℕ
  | .incident target => some target.seqEnd
  | .command target => target.authoritativeRange.map Prod.snd

/-- The events are the range up to its end, each once and in order, and no gap which a page
reported crosses it. -/
structure IsExact (target : ExactEvidenceTarget) (through : ℕ) (pages : List EventQueryResponse)
    (events : List TimelineEvent) : Prop where
  start : 0 < target.seqStart ∧ target.seqStart ≤ through
  numbers : events.map TimelineEvent.seq =
    List.range' target.seqStart (through + 1 - target.seqStart)
  identity : ∀ event ∈ events,
    event.port = target.port ∧ event.daemonEpoch = target.daemonEpoch
  origin : ∀ event ∈ events, ∃ page ∈ pages, event ∈ page.events
  unbroken : ∀ page ∈ pages, ∀ gap ∈ page.gaps, gap.epoch = target.daemonEpoch →
    gap.lastSeq < target.seqStart ∨ through < gap.firstSeq
  noGap : ∀ event ∈ events, event.kind ≠ .gap

/-- What was gathered comes from the pages, and their gaps are kept. -/
structure Gathered.From (target : ExactEvidenceTarget) (pages : List EventQueryResponse)
    (gathered : Gathered) : Prop where
  origin : ∀ event ∈ gathered.events, ∃ page ∈ pages, event ∈ page.events
  within : ∀ event ∈ gathered.events, event.seq ≤ target.queryEndSeq
  gaps : ∀ page ∈ pages, ∀ gap ∈ page.gaps, concernsTarget target gap = true →
    gap ∈ gathered.reportedGaps
  gapEvents : ∀ event ∈ gathered.events, event.kind = .gap →
    gapOfEvent target event ∈ gathered.reportedGaps
  sorted : gathered.events.Pairwise fun a b => a.seq ≤ b.seq

section

variable {reconstruct : CommandEvidenceTarget → List TimelineEvent → Option ℕ}
  {answers : Answers} {target : ExactEvidenceTarget} {pages : List EventQueryResponse}
  {page : EventQueryResponse} {afterSeq : ℕ} {gathered next : Gathered}

theorem mem_sortEvents {events : List TimelineEvent} {event : TimelineEvent}
    (hevent : event ∈ sortEvents events) : event ∈ events :=
  (List.mem_insertionSort _).1 ((List.destutter_sublist _ _).subset hevent)

theorem sorted_sortEvents (events : List TimelineEvent) :
    (sortEvents events).Pairwise fun a b => a.seq ≤ b.seq := by
  have : Std.Total fun a b : TimelineEvent => a.seq ≤ b.seq := ⟨fun a b => le_total _ _⟩
  have : IsTrans TimelineEvent fun a b => a.seq ≤ b.seq := ⟨fun _ _ _ => le_trans⟩
  exact (List.pairwise_insertionSort _ events).sublist (List.destutter_sublist _ _)

/-- The events of a page are taken as they are, or the page is refused. -/
theorem Gathered.addEvents_ok {events : List TimelineEvent}
    (h : gathered.addEvents target afterSeq events = .ok next) :
    (∀ event ∈ events, isForeign target afterSeq event = false) ∧
      next = events.foldl (Gathered.addEvent target) gathered := by
  induction events generalizing gathered with
  | nil =>
      cases h
      refine ⟨?_, rfl⟩
      intro event hevent
      cases hevent
  | cons event rest ih =>
      unfold addEvents at h
      split_ifs at h with hforeign
      obtain ⟨hrest, hnext⟩ := ih h
      refine ⟨?_, hnext⟩
      intro other hother
      rcases List.mem_cons.1 hother with rfl | hmem
      · exact Bool.not_eq_true _ ▸ hforeign
      · exact hrest other hmem

theorem Gathered.events_foldl (events : List TimelineEvent) :
    (events.foldl (Gathered.addEvent target) gathered).events = gathered.events ++ events := by
  induction events generalizing gathered with
  | nil => exact (List.append_nil _).symm
  | cons event rest ih =>
      rw [List.foldl_cons, ih]
      exact List.append_assoc _ _ _

theorem Gathered.reportedGaps_foldl (events : List TimelineEvent) :
    (events.foldl (Gathered.addEvent target) gathered).reportedGaps =
      gathered.reportedGaps ++
        (events.filter fun event => event.kind = .gap).map (gapOfEvent target) := by
  induction events generalizing gathered with
  | nil => exact (List.append_nil _).symm
  | cons event rest ih =>
      rw [List.foldl_cons, ih]
      unfold addEvent
      simp only [List.filter_cons, decide_eq_true_eq]
      split_ifs
      · rw [List.append_assoc]
        rfl
      · rw [List.append_nil]

/-- What a page leaves when it is taken. -/
theorem Gathered.addPage_ok (h : gathered.addPage target afterSeq page = .ok next) :
    (∀ event ∈ page.events, isForeign target afterSeq event = false) ∧
      next.events = sortEvents (gathered.events ++ page.events) ∧
      next.reportedGaps = gathered.reportedGaps ++ page.gaps.filter (concernsTarget target) ++
        (page.events.filter fun event => event.kind = .gap).map (gapOfEvent target) := by
  unfold addPage at h
  obtain ⟨_, -, h⟩ := Except.exists_of_bind_ok h
  obtain ⟨added, hadded, h⟩ := Except.exists_of_bind_ok h
  obtain ⟨hforeign, rfl⟩ := Gathered.addEvents_ok hadded
  obtain ⟨_, -, h⟩ := Except.exists_of_bind_ok h
  cases h
  refine ⟨hforeign, ?_, ?_⟩
  · exact congrArg sortEvents (Gathered.events_foldl _)
  · exact Gathered.reportedGaps_foldl _

theorem Gathered.From.addPage (h : gathered.From target pages)
    (hpage : gathered.addPage target afterSeq page = .ok next) :
    next.From target (pages ++ [page]) := by
  obtain ⟨hforeign, hevents, hgaps⟩ := Gathered.addPage_ok hpage
  have hmem : ∀ event ∈ next.events, event ∈ gathered.events ∨ event ∈ page.events := by
    intro event hevent
    rw [hevents] at hevent
    exact List.mem_append.1 (mem_sortEvents hevent)
  constructor
  · intro event hevent
    rcases hmem event hevent with hold | hnew
    · obtain ⟨earlier, hearlier, horigin⟩ := h.origin event hold
      exact ⟨earlier, List.mem_append_left _ hearlier, horigin⟩
    · exact ⟨page, List.mem_append_right _ List.mem_cons_self, hnew⟩
  · intro event hevent
    rcases hmem event hevent with hold | hnew
    · exact h.within event hold
    · have hbelongs := hforeign event hnew
      simp only [isForeign, Bool.or_eq_false_iff, decide_eq_false_iff_not, not_lt] at hbelongs
      exact hbelongs.2
  · intro other hother gap hgap hconcerns
    rw [hgaps]
    rcases List.mem_append.1 hother with hold | hnew
    · exact List.mem_append_left _ (List.mem_append_left _ (h.gaps other hold gap hgap hconcerns))
    · rw [List.mem_singleton.1 hnew] at hgap
      exact List.mem_append_left _
        (List.mem_append_right _ (List.mem_filter.2 ⟨hgap, hconcerns⟩))
  · intro event hevent hkind
    rw [hgaps]
    rcases hmem event hevent with hold | hnew
    · exact List.mem_append_left _ (List.mem_append_left _ (h.gapEvents event hold hkind))
    · apply List.mem_append_right
      exact List.mem_map_of_mem (List.mem_filter.2 ⟨hnew, decide_eq_true hkind⟩)
  · rw [hevents]
    exact sorted_sortEvents _

theorem Gathered.From.isExact_of_deliver (h : gathered.From target pages) {through : ℕ}
    {response : ExactEvidenceResponse}
    (hdeliver : gathered.deliver target through = .ok response) :
    response.target = target ∧ IsExact target through pages response.events := by
  unfold deliver at hdeliver
  cases hfind : gathered.reportedGaps.find? fun gap =>
      gap.firstSeq ≤ through && target.seqStart ≤ gap.lastSeq with
  | some gap =>
      rw [hfind] at hdeliver
      cases hdeliver
  | none =>
      rw [hfind] at hdeliver
      dsimp only at hdeliver
      split_ifs at hdeliver with hcomplete
      cases hdeliver
      rw [← SortedStretches.filter_eq_takeWhile through h.sorted, exactEvidenceIsComplete_iff] at hcomplete
      obtain ⟨hpos, hle, hidentity, hnumbers⟩ := hcomplete
      rw [List.find?_eq_none] at hfind
      have hclear : ∀ gap ∈ gathered.reportedGaps,
          gap.lastSeq < target.seqStart ∨ through < gap.firstSeq := by
        intro gap hgap
        have hnot := hfind gap hgap
        simp only [Bool.and_eq_true, decide_eq_true_eq, not_and_or, not_le] at hnot
        exact hnot.symm
      have hend : through ≤ target.queryEndSeq := by
        have hlast : through ∈ (gathered.events.filter fun event => event.seq ≤ through).map
            TimelineEvent.seq := by
          rw [hnumbers, List.mem_range'_1]
          omega
        obtain ⟨event, hevent, rfl⟩ := List.mem_map.1 hlast
        exact h.within event (List.mem_filter.1 hevent).1
      refine ⟨rfl, ⟨hpos, hle⟩, hnumbers, ?_, ?_, ?_, ?_⟩
      · intro event hevent
        simpa [isOf] using hidentity event hevent
      · intro event hevent
        exact h.origin event (List.mem_filter.1 hevent).1
      · intro page hpage gap hgap hepoch
        by_contra hcross
        rw [not_or, not_lt, not_lt] at hcross
        have hconcerns : concernsTarget target gap = true := by
          simp only [concernsTarget, hepoch, decide_true, Bool.true_and, Bool.and_eq_true,
            decide_eq_true_eq]
          omega
        have hapart := hclear gap (h.gaps page hpage gap hgap hconcerns)
        omega
      · intro event hevent hkind
        obtain ⟨hmem, hthrough⟩ := List.mem_filter.1 hevent
        have hapart := hclear _ (h.gapEvents event hmem hkind)
        have hstart : target.seqStart ≤ event.seq := by
          have hnumber : event.seq ∈ (gathered.events.filter fun event =>
              event.seq ≤ through).map TimelineEvent.seq := List.mem_map_of_mem hevent
          rw [hnumbers, List.mem_range'_1] at hnumber
          exact hnumber.1
        have hle : event.seq ≤ through := of_decide_eq_true hthrough
        simp only [gapOfEvent] at hapart
        omega

theorem completedThrough_eq {through found : ℕ} {events : List TimelineEvent}
    (hend : target.validatedEnd = some through)
    (h : completedThrough reconstruct target events = some found) : found = through := by
  cases target with
  | incident target =>
      simp only [completedThrough] at h
      split_ifs at h
      cases h
      exact Option.some.inj hend
  | command target =>
      obtain ⟨range, hrange, rfl⟩ := Option.map_eq_some_iff.1 hend
      simp only [completedThrough, commandEvidenceEndSeq, hrange] at h
      split_ifs at h
      cases h
      rfl

end

/-- The pages which the loop reads. -/
def pagesRead (reconstruct : CommandEvidenceTarget → List TimelineEvent → Option ℕ)
    (answers : Answers) (target : ExactEvidenceTarget) :
    ℕ → ℕ → ℕ → Gathered → List EventQueryResponse
  | 0, _, _, _ => []
  | requests + 1, index, afterSeq, gathered =>
      match answers index target.port (exactEvidenceQuery target afterSeq) with
      | .error _ => []
      | .ok page =>
          page ::
            match gathered.addPage target afterSeq page with
            | .error _ => []
            | .ok gathered =>
                match completedThrough reconstruct target gathered.events with
                | some _ => []
                | none =>
                    match nextAfterSeq target afterSeq page with
                    | some next => pagesRead reconstruct answers target requests (index + 1) next
                        gathered
                    | none => []

section

variable {reconstruct : CommandEvidenceTarget → List TimelineEvent → Option ℕ}
  {answers : Answers} {target : ExactEvidenceTarget} {pages : List EventQueryResponse}
  {gathered : Gathered}

/-- What the loop delivers is exact, whatever the pages bring. -/
theorem isExact_of_queryPages {through : ℕ} (hend : target.validatedEnd = some through)
    (requests index afterSeq : ℕ) (h : gathered.From target pages)
    {response : ExactEvidenceResponse}
    (hok : queryPages reconstruct answers target requests index afterSeq gathered =
      .ok response) :
    response.target = target ∧ IsExact target through
      (pages ++ pagesRead reconstruct answers target requests index afterSeq gathered)
      response.events := by
  induction requests generalizing index afterSeq gathered pages with
  | zero => cases hok
  | succ requests ih =>
      unfold queryPages at hok
      unfold pagesRead
      cases hanswer : answers index target.port (exactEvidenceQuery target afterSeq) with
      | error message =>
          rw [hanswer] at hok
          cases hok
      | ok page =>
          rw [hanswer] at hok
          dsimp only at hok ⊢
          cases hpage : gathered.addPage target afterSeq page with
          | error failure =>
              rw [hpage] at hok
              cases hok
          | ok next =>
              rw [hpage] at hok
              dsimp only at hok ⊢
              have hnext := h.addPage hpage
              cases hthrough : completedThrough reconstruct target next.events with
              | some found =>
                  rw [hthrough] at hok
                  dsimp only at hok ⊢
                  rw [completedThrough_eq hend hthrough] at hok
                  exact hnext.isExact_of_deliver hok
              | none =>
                  rw [hthrough] at hok
                  dsimp only at hok ⊢
                  cases hcursor : nextAfterSeq target afterSeq page with
                  | none =>
                      rw [hcursor] at hok
                      cases hok
                  | some cursor =>
                      rw [hcursor] at hok
                      dsimp only at hok ⊢
                      rw [List.append_cons]
                      exact ih _ _ hnext hok

end

end SerialPlatform.Evidence
