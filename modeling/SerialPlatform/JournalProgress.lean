import SerialPlatform.JournalReopen
import SerialPlatform.JournalVisits

/-!
# Queries from cursor to cursor

A response which was cut short has moved the cursor, unless its scan stalls at an unfinished
record.  So a query that is issued again from each cursor comes to an end.
-/

namespace SerialPlatform.Journal

open RecordLog StatefulSteps

/-- The query from a cursor on. -/
def EventQuery.reissue (query : EventQuery) (cursor : Cursor) : EventQuery :=
  { query with
    epoch := some cursor.epoch
    afterSeq := some cursor.afterSeq }

/-- A response with its cursor behind the one of the query, within its range. -/
def EventQueryResponse.Moves (response : EventQueryResponse) (query : EventQuery) : Prop :=
  ∃ cursor, response.nextCursor = some cursor ∧ cursor.afterSeq ≤ query.ceiling ∧
    ∀ after, query.afterSeq = some after → after < cursor.afterSeq

/-- A response with the cursor of the query. -/
def EventQueryResponse.Stays (response : EventQueryResponse) (query : EventQuery) : Prop :=
  ∀ cursor, response.nextCursor = some cursor → query.afterSeq = some cursor.afterSeq

/-- A query is issued again a number of times, each time from the cursor of a response which was
cut short and did not stall. -/
inductive Reissues (codec : Codec) (engine : RegexEngine) (disk : Disk) (port : String) :
    EventQuery → ℕ → Prop
  | start (query : EventQuery) : Reissues codec engine disk port query 0
  | again {query : EventQuery} {response : EventQueryResponse} {cursor : Cursor}
      {maxScanBytes times : ℕ} {isLate : ℕ → Bool}
      (hresponse : runQuery codec engine disk port query maxScanBytes isLate = .ok response)
      (htruncated : response.truncated = true) (hstalls : stalls codec disk port query = false)
      (hcursor : response.nextCursor = some cursor)
      (hrest : Reissues codec engine disk port (query.reissue cursor) times) :
      Reissues codec engine disk port query (times + 1)

section

variable {codec : Codec} {engine : RegexEngine} {disk : Disk} {port : String} {search : Search}
  {query : EventQuery} {scan result : Scan} {stops : List Stop} {bound : ℕ}

theorem Scan.reach_le (hscan : ∀ seq, scan.lastScannedSeq = some seq → seq ≤ bound) {seq : ℕ}
    (hseq : seq ≤ bound) : ∀ last, (scan.reach seq).lastScannedSeq = some last → last ≤ bound := by
  intro last hlast
  unfold Scan.reach at hlast
  obtain rfl := Option.some.inj hlast
  cases hscanned : scan.lastScannedSeq with
  | none => exact hseq
  | some before => exact max_le (hscan before hscanned) hseq

/-- A scan comes to no record beyond the range of its query. -/
theorem Visits.lastScannedSeq_le (h : Visits codec search stops scan result)
    (hbound : search.query.ceiling ≤ bound)
    (hscan : ∀ seq, scan.lastScannedSeq = some seq → seq ≤ bound) :
    ∀ seq, result.lastScannedSeq = some seq → seq ≤ bound := by
  induction h with
  | done => exact hscan
  | budget => exact hscan
  | beyond => exact hscan
  | @full segment event stops scan accounted observed hfits haccount hobserve =>
      have hsame := (Scan.account_sameCursor haccount).trans (Scan.observe_sameCursor search event)
      rw [hobserve] at hsame
      intro seq hseq
      exact hscan seq (hsame.lastScannedSeq.symm.trans hseq)
  | @take segment event stops scan accounted observed result hfits haccount hobserve hbehind hrest
      ih =>
      have hsame := (Scan.account_sameCursor haccount).trans (Scan.observe_sameCursor search event)
      rw [hobserve] at hsame
      refine ih (Scan.reach_le ?_ (hfits.ceiling.trans hbound))
      intro seq hseq
      exact hscan seq (hsame.lastScannedSeq.symm.trans hseq)
  | @pass segment event stops found scan accounted observed result hfits haccount hobserve hnot
      hrest ih =>
      have hsame := (Scan.account_sameCursor haccount).trans (Scan.observe_sameCursor search event)
      rw [hobserve] at hsame
      refine ih (Scan.reach_le ?_ (hfits.ceiling.trans hbound))
      intro seq hseq
      exact hscan seq (hsame.lastScannedSeq.symm.trans hseq)
  | @leave segment tail lastGoodSeq stops scan result gaps hgaps hrest ih =>
      refine ih fun seq hseq => hscan seq ?_
      unfold Scan.leave at hseq
      cases tail with
      | eof => exact hseq
      | invalid reason => exact hseq

/-- A scan which has moved has come to a record of the range. -/
theorem Visits.moved_within (h : Visits codec search stops (Scan.start search.query gaps) result)
    (hmoved : result.IsMoved search.query) :
    ∃ seq, result.lastScannedSeq = some seq ∧ seq ≤ search.query.ceiling ∧
      ∀ after, search.query.afterSeq = some after → after < seq := by
  unfold Scan.IsMoved at hmoved
  cases hseq : result.lastScannedSeq with
  | none =>
      rw [hseq] at hmoved
      cases hmoved
  | some seq =>
      rw [hseq] at hmoved
      have hafter : ∀ after, search.query.afterSeq = some after → after < seq := by
        intro after hafter
        rw [hafter] at hmoved
        exact of_decide_eq_true hmoved
      refine ⟨seq, rfl, ?_, hafter⟩
      have hle := h.lastScannedSeq_le (le_max_left _ (search.query.afterSeq.getD 0)) (by
        intro start hstart
        have hstart : search.query.afterSeq = some start := hstart
        rw [hstart]
        exact le_max_right _ _) seq hseq
      rcases le_max_iff.1 hle with hceiling | hbefore
      · exact hceiling
      · cases hcursor : search.query.afterSeq with
        | none =>
            rw [hcursor] at hbefore
            exact hbefore.trans (Nat.zero_le _)
        | some after =>
            rw [hcursor] at hbefore
            exact absurd hbefore (not_le.2 (hafter after hcursor))

/-- A response moves the cursor, or its scan found nothing behind the cursor; then it was cut
short exactly if the scan stalled. -/
theorem gives_queryFiles_moves (query : EventQuery) :
    Gives (queryFiles codec engine disk port query) fun response =>
      response.Moves query ∧ stalls codec disk port query = false ∨
      response.Stays query ∧ response.truncated = stalls codec disk port query := by
  unfold queryFiles
  apply gives_any.bind
  intro _ _
  apply gives_any.bind
  intro filter _
  apply (gives_discoverSegmentsForQuery query).bind
  intro discovery hdiscovery
  apply (gives_selectEpoch query discovery.descriptors).bind
  rintro selectedEpoch ⟨hepoch, hsome⟩
  dsimp only
  apply gives_any.bind
  intro gaps _
  rw [hepoch, hdiscovery]
  apply ((gives_scanSegments_visits _).and (gives_scanSegments _ (.inr ⟨rfl, rfl⟩))).bind
  rintro scan ⟨hvisits, hadvances⟩
  apply gives_any.bind
  intro _ _
  apply gives_ite
  · exact fun _ => gives_throw
  intro _
  apply gives_pure
  rcases hadvances with ⟨hmoved, hstart⟩ | ⟨-, -, hend, houtcome⟩
  · left
    have hunmoved : (Scan.start query gaps).IsUnmoved query := ⟨rfl, rfl⟩
    have hclear := hstart.resolve_left hunmoved.not_moved
    have hstalls : stalls codec disk port query = false := stallsIn_mono hclear false
    have hdescriptors : discovery.descriptors ≠ [] := by
      intro hnone
      rw [hdiscovery] at hnone
      rw [hnone] at hclear
      cases hclear
    obtain ⟨epoch, hselected⟩ := Option.isSome_iff_exists.1 (hsome hdescriptors)
    obtain ⟨seq, hseq, hceiling, hafter⟩ := hvisits.moved_within hmoved
    refine ⟨⟨⟨epoch, seq⟩, ?_, hceiling, hafter⟩, hstalls⟩
    dsimp only
    rw [hselected, hseq]
    rfl
  · right
    refine ⟨fun cursor hcursor => ?_, houtcome⟩
    obtain ⟨epoch, -, hcursor⟩ := Option.bind_eq_some_iff.1 hcursor
    obtain ⟨seq, hseq, rfl⟩ := Option.map_eq_some_iff.1 hcursor
    exact hend.lastScannedSeq.symm.trans hseq

theorem runQuery_moves {maxScanBytes : ℕ} {isLate : ℕ → Bool} {response : EventQueryResponse}
    (h : runQuery codec engine disk port query maxScanBytes isLate = .ok response) :
    response.Moves query ∧ stalls codec disk port query = false ∨
      response.Stays query ∧ response.truncated = stalls codec disk port query := by
  unfold runQuery at h
  obtain ⟨_, -, h⟩ := Except.exists_of_bind_ok h
  obtain ⟨⟨answer, budget⟩, hrun, h⟩ := Except.exists_of_bind_ok h
  cases h
  exact (gives_queryFiles_moves query).holds _ _ _ hrun

/-- How often a query with a cursor can be issued again. -/
theorem Reissues.le {times after : ℕ} (h : Reissues codec engine disk port query times)
    (hafter : query.afterSeq = some after) : times ≤ query.ceiling - after := by
  induction h generalizing after with
  | start => exact Nat.zero_le _
  | @again query response cursor maxScanBytes times isLate hresponse htruncated hstalls hcursor
      hrest ih =>
      obtain ⟨found, hfound, hceiling, hmoves⟩ : response.Moves query := by
        rcases runQuery_moves hresponse with ⟨hmoves, -⟩ | ⟨-, hsame⟩
        · exact hmoves
        · rw [htruncated, hstalls] at hsame
          cases hsame
      obtain rfl := Option.some.inj (hfound.symm.trans hcursor)
      have hle := ih rfl
      have hlt := hmoves after hafter
      have hsame : (query.reissue found).ceiling = query.ceiling := rfl
      rw [hsame] at hle
      change times ≤ query.ceiling - found.afterSeq at hle
      omega

end

/-- A response which was cut short has moved the cursor, unless the scan stalled at an unfinished
record of an unsealed segment with no record behind the cursor; such a response leaves the cursor
where it is.  Issued again from the cursors of other responses a query comes to an end. -/
theorem pagination_progress (codec : Codec) (engine : RegexEngine) (disk : Disk) (port : String) :
    (∀ query maxScanBytes isLate response,
      runQuery codec engine disk port query maxScanBytes isLate = .ok response →
      (response.truncated = true → stalls codec disk port query = false →
        response.Moves query) ∧
      (stalls codec disk port query = true →
        response.truncated = true ∧ response.Stays query)) ∧
    ∀ query times, Reissues codec engine disk port query times → times ≤ query.ceiling + 1 := by
  constructor
  · intro query maxScanBytes isLate response hresponse
    rcases runQuery_moves hresponse with ⟨hmoves, hclear⟩ | ⟨hstays, hsame⟩
    · refine ⟨fun _ _ => hmoves, fun hstalls => ?_⟩
      rw [hclear] at hstalls
      cases hstalls
    · refine ⟨fun htruncated hclear => ?_, fun hstalls => ⟨hsame.trans hstalls, hstays⟩⟩
      rw [htruncated, hclear] at hsame
      cases hsame
  · intro query times hreissues
    cases hreissues with
    | start => exact Nat.zero_le _
    | @again _ response cursor maxScanBytes times isLate hresponse htruncated hstalls hcursor
        hrest =>
        have hle := hrest.le rfl
        have hsame : (query.reissue cursor).ceiling = query.ceiling := rfl
        rw [hsame] at hle
        omega

set_option maxRecDepth 4000 in
/-- The first record of an open segment is unfinished. -/
theorem torn_tail_keeps_cursor :
    ((runQuery firstCodec ⟨fun _ => .error "unsupported"⟩ (firstDisk 400) "A"
        { epoch := some 1, afterSeq := some 0, throughSeq := none, beforeWallTimeNs := none
          afterWallTimeNs := none, direction := none, kind := none, actorId := none
          runId := none, operationId := none, contains := none, regex := none
          limitEvents := none, limitBytes := none } 1000000 fun _ => false).toOption.map
      fun response => (response.truncated, response.nextCursor.map Cursor.afterSeq)) =
      some (true, some 0) := by
  decide +kernel

end SerialPlatform.Journal
