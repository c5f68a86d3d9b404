import SerialPlatform.JournalPages

/-!
# What a scan visits

A scan passes the records of the selected segments and the end of each segment, one after
the other.  Where it stops is up to its limits and to the clock; what it has found then
depends on nothing but the stops it has passed.
-/

namespace SerialPlatform.Journal

open RecordLog StatefulSteps

/-- A place which a scan comes to. -/
inductive Stop where
  | record (segment : SegmentDescriptor) (event : TimelineEvent)
  | tail (segment : SegmentDescriptor) (tail : Tail) (lastGoodSeq : Option ℕ)

def segmentStops (segment : SegmentDescriptor) (contents : Contents TimelineEvent) : List Stop :=
  contents.values.map (Stop.record segment) ++
    [.tail segment contents.tail (lastRecordSeq contents)]

/-- The places on the way of a scan which nothing stops. -/
def scanStops (codec : Codec) (disk : Disk) (search : Search) :
    List SegmentDescriptor → List Stop
  | [] => []
  | segment :: rest =>
      if search.query.ceiling < segment.header.firstSeq then []
      else if segment.isConsumed search.query && search.seed ≠ some segment.header.segmentId then
        scanStops codec disk search rest
      else
        ((readSegment codec disk segment.path).map (segmentStops segment)).getD [] ++
          scanStops codec disk search rest

/-- The range which the end of a segment's records gives as corrupt. -/
def corruptRange (segment : SegmentDescriptor) (tail : Tail) (lastGoodSeq : Option ℕ) :
    Option GapRange :=
  match tail with
  | .eof => none
  | .invalid _ =>
      segment.lastSeq.bind fun lastSeq =>
        let firstSeq := match lastGoodSeq with
          | some seq => satAdd u64Max seq 1
          | none => segment.header.firstSeq
        if firstSeq ≤ lastSeq then
          some
            { epoch := segment.header.daemonEpoch
              firstSeq := firstSeq
              lastSeq := lastSeq
              reason := .corruption }
        else none

def pushCorrupt (gaps : List GapRange) (range : Option GapRange) :
    Except JournalError (List GapRange) :=
  match range with
  | none => .ok gaps
  | some gap => pushGapBounded gaps gap

/-- The scan behind the end of a segment. -/
def Scan.leave (scan : Scan) (segment : SegmentDescriptor) (tail : Tail)
    (gaps : List GapRange) : Scan :=
  match tail with
  | .eof => scan
  | .invalid _ =>
      { scan.clearCarries with
        gaps := gaps
        truncated := scan.truncated || !segment.isSealed }

/-- The scan with a record in its response. -/
def Scan.take (codec : Codec) (scan : Scan) (event : TimelineEvent) : Scan :=
  { scan.reach event.seq with
    bytes := scan.bytes + eventBytes codec event
    events := scan.events ++ [event] }

def Scan.cut (scan : Scan) : Scan := { scan with truncated := true }

/-- A record which belongs to the segment and to the range of the query. -/
structure Stop.Fits (search : Search) (segment : SegmentDescriptor) (event : TimelineEvent) :
    Prop where
  port : event.port = search.port
  epoch : event.daemonEpoch = segment.header.daemonEpoch
  ceiling : event.seq ≤ search.query.ceiling

/-- How a scan goes over its stops. -/
inductive Visits (codec : Codec) (search : Search) : List Stop → Scan → Scan → Prop
  | done {scan : Scan} : Visits codec search [] scan scan
  /-- the limits stop a scan which has moved -/
  | budget {stops : List Stop} {scan : Scan} (hmoved : scan.IsMoved search.query) :
      Visits codec search stops scan scan.cut
  | beyond {segment : SegmentDescriptor} {event : TimelineEvent} {stops : List Stop} {scan : Scan}
      (hceiling : search.query.ceiling < event.seq) :
      Visits codec search (.record segment event :: stops) scan scan
  /-- the response has no room for a record -/
  | full {segment : SegmentDescriptor} {event : TimelineEvent} {stops : List Stop}
      {scan accounted observed : Scan} (hfits : Stop.Fits search segment event)
      (haccount : scan.account search event = .ok accounted)
      (hobserve : (accounted.follow event).observe search event = (true, observed))
      (hbehind : search.query.isBehindCursor event = true) (hsome : observed.events ≠ []) :
      Visits codec search (.record segment event :: stops) scan observed.cut
  | take {segment : SegmentDescriptor} {event : TimelineEvent} {stops : List Stop}
      {scan accounted observed result : Scan} (hfits : Stop.Fits search segment event)
      (haccount : scan.account search event = .ok accounted)
      (hobserve : (accounted.follow event).observe search event = (true, observed))
      (hbehind : search.query.isBehindCursor event = true)
      (hrest : Visits codec search stops (observed.take codec event) result) :
      Visits codec search (.record segment event :: stops) scan result
  | pass {segment : SegmentDescriptor} {event : TimelineEvent} {stops : List Stop} {found : Bool}
      {scan accounted observed result : Scan} (hfits : Stop.Fits search segment event)
      (haccount : scan.account search event = .ok accounted)
      (hobserve : (accounted.follow event).observe search event = (found, observed))
      (hnot : (search.query.isBehindCursor event && found) = false)
      (hrest : Visits codec search stops (observed.reach event.seq) result) :
      Visits codec search (.record segment event :: stops) scan result
  | leave {segment : SegmentDescriptor} {tail : Tail} {lastGoodSeq : Option ℕ}
      {stops : List Stop} {scan result : Scan} {gaps : List GapRange}
      (hgaps : pushCorrupt scan.gaps (corruptRange segment tail lastGoodSeq) = .ok gaps)
      (hrest : Visits codec search stops (scan.leave segment tail gaps) result) :
      Visits codec search (.tail segment tail lastGoodSeq :: stops) scan result

section

variable {codec : Codec} {disk : Disk} {search : Search} {segment : SegmentDescriptor}

/-- A part of the scan goes over its stops, and goes on behind them unless it stopped. -/
def Goes (codec : Codec) (search : Search) (stops : List Stop) (scan : Scan)
    (result : Control × Scan) : Prop :=
  match result.1 with
  | .stop => ∀ rest, Visits codec search (stops ++ rest) scan result.2
  | .next => ∀ rest last, Visits codec search rest result.2 last →
      Visits codec search (stops ++ rest) scan last

theorem gives_stopAtBudget_goes (stops : List Stop) {scan : Scan} :
    Gives (stopAtBudget search scan) (Goes codec search stops scan) := by
  unfold stopAtBudget
  apply gives_ite
  · intro hmoved
    exact gives_pure fun rest => .budget hmoved
  · intro _
    apply gives_error
    intro s
    exact ⟨_, rfl⟩

theorem gives_scanRecord_goes {limitHit : Bool} {scan : Scan} {event : TimelineEvent} :
    Gives (scanRecord codec search segment event limitHit scan)
      (Goes codec search [.record segment event] scan) := by
  unfold scanRecord
  apply gives_ite
  · exact fun _ => gives_throw
  intro hidentity
  rw [not_or, not_ne_iff, not_ne_iff] at hidentity
  apply gives_ite
  · intro hceiling
    exact gives_pure fun rest => .beyond hceiling
  intro hceiling
  have hfits : Stop.Fits search segment event :=
    ⟨hidentity.1, hidentity.2, not_lt.1 hceiling⟩
  apply Gives.bind (gives_lift fun _ haccount => haccount)
  intro accounted haccount
  rcases hobserve : (accounted.follow event).observe search event with ⟨found, observed⟩
  dsimp only
  apply gives_ite
  · intro hmatch
    obtain ⟨hbehind, hfound⟩ := Bool.and_eq_true_iff.mp hmatch
    rw [hfound] at hobserve
    unfold collect
    split_ifs with hfull hlimit
    · exact gives_pure fun rest => .full hfits haccount hobserve hbehind hfull.2
    · apply gives_pure
      intro rest
      exact .take hfits haccount hobserve hbehind (.budget (Scan.reach_of_behind hbehind))
    · apply gives_pure
      intro rest last hrest
      exact .take hfits haccount hobserve hbehind hrest
  · intro hmatch
    have hnot := Bool.not_eq_true _ ▸ hmatch
    apply gives_ite
    · intro _
      unfold stopAtBudget
      apply gives_ite
      · intro hmoved
        exact gives_pure fun rest => .pass hfits haccount hobserve hnot (.budget hmoved)
      · intro _
        apply gives_error
        intro s
        exact ⟨_, rfl⟩
    · intro _
      apply gives_pure
      intro rest last hrest
      exact .pass hfits haccount hobserve hnot hrest

theorem gives_scanTail_goes {tail : Tail} {limitHit : Bool} {lastGoodSeq : Option ℕ}
    {scan : Scan} :
    Gives (scanTail search segment tail limitHit lastGoodSeq scan)
      (Goes codec search [.tail segment tail lastGoodSeq] scan) := by
  have hbudget : ∀ {left : Scan} {gaps : List GapRange},
      pushCorrupt scan.gaps (corruptRange segment tail lastGoodSeq) = .ok gaps →
      left = scan.leave segment tail gaps →
      Gives (if limitHit = true then stopAtBudget search left else return (Control.next, left))
        (Goes codec search [.tail segment tail lastGoodSeq] scan) := by
    rintro left gaps hgaps rfl
    apply gives_ite
    · intro _
      unfold stopAtBudget
      apply gives_ite
      · intro hmoved
        exact gives_pure fun rest => .leave hgaps (.budget hmoved)
      · intro _
        apply gives_error
        intro s
        exact ⟨_, rfl⟩
    · intro _
      apply gives_pure
      intro rest last hrest
      exact .leave hgaps hrest
  unfold scanTail
  cases tail with
  | eof => exact @hbudget scan scan.gaps rfl rfl
  | invalid reason =>
      apply Gives.bind (gives_lift fun _ hgaps => hgaps)
      intro gaps hgaps
      refine hbudget ?_ rfl
      rw [← hgaps]
      unfold corruptRange
      cases segment.lastSeq with
      | none => rfl
      | some lastSeq =>
          cases lastGoodSeq with
          | none =>
              dsimp only [Option.bind_some]
              split_ifs <;> rfl
          | some seq =>
              dsimp only [Option.bind_some]
              split_ifs <;> rfl

theorem Goes.append {first second : List Stop} {scan : Scan} {between : Scan}
    {result : Control × Scan} (hfirst : Goes codec search first scan (.next, between))
    (hsecond : Goes codec search second between result) :
    Goes codec search (first ++ second) scan result := by
  obtain ⟨control, last⟩ := result
  cases control with
  | stop =>
      intro rest
      rw [List.append_assoc]
      exact hfirst _ _ (hsecond rest)
  | next =>
      intro rest last hrest
      rw [List.append_assoc]
      exact hfirst _ _ (hsecond rest last hrest)

theorem Goes.of_stop {first second : List Stop} {scan last : Scan}
    (hfirst : Goes codec search first scan (.stop, last)) :
    Goes codec search (first ++ second) scan (.stop, last) := by
  intro rest
  rw [List.append_assoc]
  exact hfirst _

theorem gives_scanRecords_goes (tail : Tail) (tailBytes : ℕ)
    (records : List (TimelineEvent × ℕ)) (lastGoodSeq : Option ℕ) {scan : Scan} :
    Gives (scanRecords codec search segment tail tailBytes records lastGoodSeq scan)
      (Goes codec search ((records.map Prod.fst).map (Stop.record segment) ++
        [.tail segment tail
          (((records.map Prod.fst).getLast?.map TimelineEvent.seq).or lastGoodSeq)]) scan) := by
  induction records generalizing lastGoodSeq scan with
  | nil =>
      unfold scanRecords
      apply gives_any.bind
      intro _ _
      apply gives_ite
      · exact fun _ => gives_stopAtBudget_goes _
      intro _
      apply gives_any.bind
      intro _ _
      apply gives_any.bind
      intro _ _
      exact gives_scanTail_goes
  | cons record records ih =>
      obtain ⟨event, size⟩ := record
      unfold scanRecords
      apply gives_any.bind
      intro _ _
      apply gives_ite
      · exact fun _ => gives_stopAtBudget_goes _
      intro _
      apply gives_any.bind
      intro _ _
      apply gives_any.bind
      intro limitHit _
      apply gives_scanRecord_goes.bind
      rintro ⟨control, scan'⟩ hrecord
      cases control with
      | stop => exact gives_pure hrecord.of_stop
      | next =>
          apply (ih (some event.seq)).mono
          intro result hresult
          have hlast : ((records.map Prod.fst).getLast?.map TimelineEvent.seq).or
                (some event.seq) =
              (((event, size) :: records).map Prod.fst |>.getLast?.map TimelineEvent.seq).or
                lastGoodSeq := by
            rw [List.map_cons, List.getLast?_cons]
            cases (records.map Prod.fst).getLast? <;> rfl
          rw [hlast] at hresult
          exact hrecord.append hresult

theorem gives_scanSegment_goes {scan : Scan} :
    Gives (scanSegment codec disk search segment scan)
      (Goes codec search
        (((readSegment codec disk segment.path).map (segmentStops segment)).getD []) scan) := by
  unfold scanSegment readSegment
  apply gives_any.bind
  intro _ _
  apply gives_ite
  · exact fun _ => gives_stopAtBudget_goes _
  intro _
  cases disk.lookup segment.path with
  | none => exact gives_pure fun rest last hrest => hrest
  | some bytes =>
      apply Gives.bind (gives_lift fun found hfound => hfound)
      rintro ⟨header, dataOffset⟩ hread
      dsimp only
      rw [hread]
      dsimp only
      apply gives_any.bind
      intro _ _
      apply gives_any.bind
      intro _ _
      apply gives_ite
      · exact fun _ => gives_stopAtBudget_goes _
      intro _
      apply gives_ite
      · exact fun _ => gives_throw
      intro _
      apply (gives_scanRecords_goes _ _ _ none).mono
      intro result hresult
      rw [Option.or_none] at hresult
      exact hresult

/-- The scan of the segments goes over their stops. -/
theorem gives_scanSegments_visits (segments : List SegmentDescriptor) {scan : Scan} :
    Gives (scanSegments codec disk search segments scan)
      (Visits codec search (scanStops codec disk search segments) scan) := by
  induction segments generalizing scan with
  | nil => exact gives_pure .done
  | cons segment rest ih =>
      unfold scanSegments scanStops
      by_cases hceiling : search.query.ceiling < segment.header.firstSeq
      · simp only [if_pos hceiling]
        exact gives_pure .done
      simp only [if_neg hceiling]
      by_cases hskip : (segment.isConsumed search.query &&
          decide (search.seed ≠ some segment.header.segmentId)) = true
      · simp only [if_pos hskip]
        exact ih
      simp only [if_neg hskip]
      apply gives_scanSegment_goes.bind
      rintro ⟨control, scan'⟩ hsegment
      cases control with
      | stop => exact gives_pure (hsegment _)
      | next => exact ih.mono fun last hlast => hsegment _ last hlast

end

end SerialPlatform.Journal
