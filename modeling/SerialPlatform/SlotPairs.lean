import SerialPlatform.SlotHistories

/-!
# Runs and approvals

On the timeline Runs do not overlap, and each request for an approval is answered
once before the next one is made.
-/

namespace SerialPlatform

/-- What the trace says is open. -/
structure OpenWork where
  run : Option Uuid := none
  approval : Option PendingRunStartApproval := none

namespace OpenWork

def hear (work : OpenWork) (event : TimelineEvent) : OpenWork :=
  match event.kind with
  | .runStarted => { work with run := event.runId }
  | .runEnded | .runAborted => { work with run := none }
  | .runStartRequested => { work with approval := event.approval }
  | .runStartApproved | .runStartDenied | .runStartTimedOut | .runStartCancelled =>
      { work with approval := none }
  | _ => work

def step (work : OpenWork) : Effect → OpenWork
  | .event event => work.hear event
  | _ => work

/-- The event ends what was asked for. -/
def Answers (work : OpenWork) (event : TimelineEvent) : Prop :=
  ∃ approval, work.approval = some approval ∧ event.approval = some approval

/-- A Run starts alone and ends itself; what was asked for is answered once.  Without
a Human in control the daemon approves at once. -/
def Fits (work : OpenWork) (event : TimelineEvent) : Prop :=
  match event.kind with
  | .runStarted => work.run = none ∧ event.runId.isSome = true
  | .runEnded | .runAborted => ∃ id, work.run = some id ∧ event.runId = some id
  | .runStartRequested => work.approval = none ∧ event.approval.isSome = true
  | .runStartApproved =>
      (work.Answers event ∧ ∀ approval, work.approval = some approval →
        approval.requiredApprover.kind = .human) ∨
      work.approval = none ∧ ∃ approval, event.approval = some approval ∧
        approval.requiredApprover = systemActor
  | .runStartDenied | .runStartTimedOut | .runStartCancelled => work.Answers event
  | _ => True

def Allows (work : OpenWork) : Effect → Prop
  | .event event => work.Fits event
  | _ => True

def monitor : TraceMonitor OpenWork Effect where
  start := {}
  step := step
  Allows := Allows

/-- What the actor keeps open. -/
structure Shows (v : View) (work : OpenWork) : Prop where
  run : work.run = v.activeRun.map RunInfo.id
  approval : work.approval = v.pendingRunStart.map PendingRunStartState.approval

variable {known : Actor → Prop} {allowed : Origin → Prop} {v w : View} {work : OpenWork}

theorem Shows.beside (h : Shows v work) (hrun : w.activeRun = v.activeRun)
    (hpending : w.pendingRunStart = v.pendingRunStart) : Shows w work := by
  refine ⟨?_, ?_⟩
  · rw [hrun]
    exact h.run
  · rw [hpending]
    exact h.approval

theorem fits_of_isQuiet {event : TimelineEvent} (hquiet : event.kind.isQuiet = true) :
    work.Fits event ∧ work.hear event = work := by
  unfold Fits hear
  cases hkind : event.kind <;> first
    | exact ⟨trivial, rfl⟩
    | (rw [hkind] at hquiet; cases hquiet)

theorem ignores_of_isQuiet {effect : Effect} (h : effect.isQuiet = true) :
    monitor.Ignores effect := by
  intro work
  cases effect with
  | event event =>
      have hboth := Bool.and_eq_true_iff.mp
        (h : (event.kind.isQuiet && !event.isHumanCommand) = true)
      exact fits_of_isQuiet hboth.1
  | _ => exact ⟨trivial, rfl⟩

/-! ## Steps -/

abbrev Carries : View → View → Prop := monitor.Carries View.trace Shows Shows

theorem carries_calm (h : Calm v w) : Carries v w := by
  obtain ⟨effects, htrace, heffects⟩ := h.extends
  have hmandate := h.mandate_eq
  refine ⟨effects, htrace, .ignored (fun effect hmem => ?_) fun work hshows =>
    hshows.beside (congrArg Mandate.activeRun hmandate)
      (congrArg Mandate.pendingRunStart hmandate)⟩
  rcases heffects effect hmem with hquiet | ⟨trigger, kind, data, run, checkedAt, -, -, rfl⟩
  · exact ignores_of_isQuiet hquiet
  · exact fun work => ⟨trivial, rfl⟩

theorem carries_event {event : TimelineEvent} (htrace : w.trace = v.trace ++ [.event event])
    (hfits : ∀ work, Shows v work → work.Fits event)
    (hshows : ∀ work, Shows v work → Shows w (work.hear event)) : Carries v w :=
  .reading _ htrace hfits hshows

theorem carries_other {effect : Effect} (htrace : w.trace = v.trace ++ [effect])
    (heffect : ∀ event, effect ≠ .event event) (hrun : w.activeRun = v.activeRun)
    (hpending : w.pendingRunStart = v.pendingRunStart) : Carries v w := by
  refine .reading _ htrace (fun work _ => ?_) fun work hshows => ?_
  · cases effect with
    | event event => exact absurd rfl (heffect event)
    | _ => trivial
  · cases effect with
    | event event => exact absurd rfl (heffect event)
    | _ => exact hshows.beside hrun hpending

theorem hear_answer {event : TimelineEvent}
    (hkind : event.kind = .runStartApproved ∨ event.kind.endsApproval) :
    work.hear event = { work with approval := none } := by
  unfold hear
  rcases hkind with heq | heq | heq | heq <;> rw [heq]

/-- An answer finds the approval open. -/
theorem Shows.answers {pending : PendingRunStartState} {event : TimelineEvent}
    (h : Shows v work) (hpending : v.pendingRunStart = some pending)
    (happroval : event.approval = some pending.approval) : work.Answers event := by
  refine ⟨pending.approval, ?_, happroval⟩
  rw [h.approval, hpending]
  rfl

theorem Shows.answered (h : Shows v work) (hrun : w.activeRun = v.activeRun)
    (hpending : w.pendingRunStart = none) : Shows w { work with approval := none } := by
  refine ⟨?_, ?_⟩
  · rw [hrun]
    exact h.run
  · rw [hpending]
    rfl

theorem carries_routine (h : Routine v w) : Carries v w := by
  cases h with
  | calm h => exact carries_calm h
  | stand => exact .silent rfl fun _ hshows => hshows.beside rfl rfl
  | @closeApproval pending event hpending hkind happroval _ =>
      refine carries_event rfl (fun work hshows => ?_) fun work hshows => ?_
      · have hanswers := hshows.answers hpending happroval
        unfold Fits
        rcases hkind with heq | heq | heq <;> (rw [heq]; exact hanswers)
      · rw [hear_answer (.inr hkind)]
        exact hshows.answered rfl rfl
  | @closeRun run event hrun hkind hid _ =>
      refine carries_event rfl (fun work hshows => ?_) fun work hshows => ?_
      · have hopen : ∃ id, work.run = some id ∧ event.runId = some id := by
          refine ⟨run.id, ?_, hid⟩
          rw [hshows.run, hrun]
          rfl
        unfold Fits
        rcases hkind with heq | heq <;> (rw [heq]; exact hopen)
      · have hclosed : work.hear event = { work with run := none } := by
          unfold hear
          rcases hkind with heq | heq <;> rw [heq]
        rw [hclosed]
        exact ⟨rfl, hshows.approval⟩
  | clearContext => exact .silent rfl fun _ hshows => hshows.beside rfl rfl
  | stopPort => exact .silent rfl fun _ hshows => hshows.beside rfl rfl

theorem carries_tx {event : TimelineEvent} (hkind : event.kind = .tx)
    (htrace : w.trace = v.trace ++ [.event event]) (hrun : w.activeRun = v.activeRun)
    (hpending : w.pendingRunStart = v.pendingRunStart) : Carries v w := by
  have hquiet : event.kind.isQuiet = true := by
    rw [hkind]
    rfl
  refine carries_event htrace (fun _ _ => (fits_of_isQuiet hquiet).1) fun work hshows => ?_
  rw [(fits_of_isQuiet hquiet).2]
  exact hshows.beside hrun hpending

theorem carries_wire {origin : Origin} (h : Wire known origin v w) : Carries v w := by
  have hwrite : ∀ actor data run checkedAt,
      Carries v (v.record (.portWrite origin actor data run checkedAt)) := fun _ _ _ _ =>
    carries_other rfl (fun _ heq => by cases heq) rfl rfl
  cases h with
  | writeSilent => exact hwrite _ _ _ _
  | write _ _ _ _ _ _ htx => exact (hwrite _ _ _ _).trans (carries_tx htx.kind rfl rfl rfl)
  | intervene _ _ _ _ _ _ _ _ _ _ _ htx =>
      exact (hwrite _ _ _ _).trans (carries_tx htx.kind rfl rfl rfl)
  | sendBreak => exact carries_other rfl (fun _ heq => by cases heq) rfl rfl

theorem carries_start (h : Start known v w) : Carries v w := by
  cases h with
  | @startRun run event _ hrun _ hkind _ hid _ =>
      refine carries_event rfl (fun work hshows => ?_) fun work hshows => ?_
      · unfold Fits
        rw [hkind]
        refine ⟨?_, ?_⟩
        · rw [hshows.run, hrun]
          rfl
        · rw [hid]
          rfl
      · have hstarted : work.hear event = { work with run := event.runId } := by
          unfold hear
          rw [hkind]
        rw [hstarted]
        exact ⟨hid, hshows.approval⟩
  | startMacro => exact .silent rfl fun _ hshows => hshows.beside rfl rfl

theorem carries_arrange (h : Arrange v w) : Carries v w := by
  cases h with
  | @askApproval pending event hpending hkind happroval _ =>
      refine carries_event rfl (fun work hshows => ?_) fun work hshows => ?_
      · unfold Fits
        rw [hkind]
        refine ⟨?_, ?_⟩
        · rw [hshows.approval, hpending]
          rfl
        · rw [happroval]
          rfl
      · have hasked : work.hear event = { work with approval := event.approval } := by
          unfold hear
          rw [hkind]
        rw [hasked]
        exact ⟨hshows.run, happroval⟩
  | @approve pending event hpending hkind happroval happrover _ =>
      refine carries_event rfl (fun work hshows => ?_) fun work hshows => ?_
      · unfold Fits
        rw [hkind]
        refine .inl ⟨hshows.answers hpending happroval, fun approval happroved => ?_⟩
        rw [hshows.approval, hpending] at happroved
        obtain rfl := Option.some.inj happroved
        exact happrover
      · rw [hear_answer (.inl hkind)]
        exact hshows.answered rfl rfl
  | @grantAtOnce approval event hpending hkind happroval happrover _ =>
      have hnone : ∀ work, Shows v work → work.approval = none := fun work hshows => by
        rw [hshows.approval, hpending]
        rfl
      refine carries_event rfl (fun work hshows => ?_) fun work hshows => ?_
      · unfold Fits
        rw [hkind]
        exact .inr ⟨hnone work hshows, approval, happroval, happrover⟩
      · rw [hear_answer (.inl hkind)]
        exact hshows.answered rfl hpending
  | acknowledge => exact carries_other rfl (fun _ heq => by cases heq) rfl rfl

theorem carries_step (h : SlotStep known allowed v w) : Carries v w := by
  cases h with
  | routine h => exact carries_routine h
  | opening h =>
      cases h
      exact carries_other rfl (fun _ heq => by cases heq) rfl rfl
  | wire _ _ h => exact carries_wire h
  | arm _ h =>
      cases h
      exact carries_other rfl (fun _ heq => by cases heq) rfl rfl
  | start h => exact carries_start h
  | arrange h => exact carries_arrange h
  | keep h => cases h <;> exact .silent rfl fun _ hshows => hshows.beside rfl rfl

end OpenWork

namespace SlotActor

/-- In every history Runs start alone and end themselves, and an approval which was
asked for is answered exactly once. -/
theorem runs_and_approvals_pair (config : SlotConfig)
    (transportProfile : Option TransportProfile) (modelProfile : Option ModelProfile)
    (limits : ControlLimits) (instantMax : ℕ) (daemonEpoch : Uuid) (daemonStarted : ℕ)
    (world : World) (stagedSource : Option String) (inputs : List TurnInput) :
    OpenWork.monitor.Accepts (run inputs (spawn config transportProfile modelProfile limits
      instantMax daemonEpoch daemonStarted world stagedSource).start).trace := by
  exact (history_accepted (R := OpenWork.Shows) (fun v w hstep => OpenWork.carries_step hstep)
    (sound_spawn ..) rfl ⟨rfl, rfl⟩ inputs (admits_all inputs)).accepts

end SlotActor
end SerialPlatform
