import SerialPlatform.SlotSteps

/-!
# Mandates

What an actor may do on its port is decided by the lease, the Run, its context
and the pending approval.  Calm steps leave all of it alone.
-/

namespace SerialPlatform

structure Mandate where
  standing : Standing
  activeRun : Option RunInfo
  runContext : Option RunContextState
  pendingRunStart : Option PendingRunStartState
  online : Bool

def View.mandate (v : View) : Mandate where
  standing := v.standing
  activeRun := v.activeRun
  runContext := v.runContext
  pendingRunStart := v.pendingRunStart
  online := v.port.isSome

namespace Mandate

def withControl (m : Mandate) (control : ControlState) : Mandate :=
  { m with standing.control := control }

def withoutRun (m : Mandate) : Mandate :=
  { m with activeRun := none, runContext := none }

def withoutPending (m : Mandate) : Mandate := { m with pendingRunStart := none }

def offline (m : Mandate) : Mandate := { m with online := false }

/-- The lease is gone: whatever rested on it ends too. -/
def withdrawn (m : Mandate) (control : ControlState) : Mandate :=
  (m.withControl control).withoutPending.withoutRun

end Mandate

def SlotActor.mandate (s : SlotActor) : Mandate := (s.view []).mandate

/-! ## What an emission leaves alone -/

/-- Everything but the Trigger, the results, the offsets and the trace. -/
structure Surroundings where
  standing : Standing
  port : Option PortWorker
  portEvents : Option (List PortEvent)
  activeRun : Option RunInfo
  runContext : Option RunContextState
  pendingRunStart : Option PendingRunStartState
  activeMacro : Option ActiveMacro
  hand : List RxSegment

namespace View

def around (v : View) : Surroundings where
  standing := v.standing
  port := v.port
  portEvents := v.portEvents
  activeRun := v.activeRun
  runContext := v.runContext
  pendingRunStart := v.pendingRunStart
  activeMacro := v.activeMacro
  hand := v.hand

theorem mandate_of_around {v w : View} (h : w.around = v.around) :
    w.mandate = v.mandate :=
  congrArg (fun around : Surroundings => ({
    standing := around.standing
    activeRun := around.activeRun
    runContext := around.runContext
    pendingRunStart := around.pendingRunStart
    online := around.port.isSome } : Mandate)) h

theorem around_mark (v : View) (status : TriggerStatus) (matchedPattern : Option Bytes) :
    (v.mark status matchedPattern).around = v.around := by
  unfold mark
  split <;> rfl

theorem around_confirm (v : View) (kind : TriggerWriteKind) (now : ℕ) :
    (v.confirm kind now).around = v.around := by
  unfold confirm
  split
  · rfl
  · simp only
    split
    · exact around_mark _ _ _
    · rfl

theorem Noted.around_eq {v w : View} (h : Noted v w) : w.around = v.around := by
  cases h <;> rfl

theorem TriggerTx.around_eq {v w : View} {trigger : ActiveTrigger}
    {result : TriggerWriteResult} (h : v.TriggerTx trigger result w) :
    w.around = v.around := by
  cases h with
  | silent => rfl
  | tx _ _ _ _ hnoted => exact hnoted.around_eq

theorem Flushed.around_eq {queued : List PortEvent} {v w : View}
    (h : Flushed queued v w) : w.around = v.around := by
  induction h with
  | done => rfl
  | rx _ hnoted _ ih => exact ih.trans hnoted.around_eq
  | gap _ hnoted _ ih => exact ih.trans hnoted.around_eq
  | skip _ _ _ ih => exact ih

theorem Noted.mandate_eq {v w : View} (h : Noted v w) : w.mandate = v.mandate :=
  mandate_of_around h.around_eq

/-- A result changes nothing around the Trigger. -/
theorem around_settled {v sent flushed : View} {trigger : ActiveTrigger}
    {result : TriggerWriteResult} {rest : List TriggerWriteResult} {now : ℕ}
    {queued : List PortEvent}
    (htx : (v.settle trigger result.kind rest).TriggerTx
      { trigger with writeInFlight := none } result sent)
    (hflush : Flushed queued
      (if result.isFull then sent.confirm result.kind now
        else sent.mark .writeFailed none).clearBuffer flushed) :
    flushed.around = v.around := by
  have hsent : sent.around = v.around := htx.around_eq
  have hmarked : (if result.isFull then sent.confirm result.kind now
      else sent.mark .writeFailed none).around = v.around := by
    split_ifs
    · exact (around_confirm _ _ _).trans hsent
    · exact (around_mark _ _ _).trans hsent
  exact hflush.around_eq.trans hmarked

end View

/-! ## Calm steps -/

theorem Calm.mandate_eq {v w : View} (h : Calm v w) : w.mandate = v.mandate := by
  cases h with
  | mark => exact View.mandate_of_around (View.around_mark _ _ _)
  | settle now _ _ _ _ htx hflush =>
      exact View.mandate_of_around (View.around_settled htx hflush)
  | workersGone => simp [View.mandate]
  | _ => rfl

theorem Calmly.mandate_eq {v w : View} (h : Calmly v w) : w.mandate = v.mandate := by
  induction h with
  | refl => rfl
  | tail _ hstep ih => exact hstep.mandate_eq.trans ih

end SerialPlatform
