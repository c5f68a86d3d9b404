import SerialPlatform.IssuedActors
import SerialPlatform.SlotTurns
import SerialPlatform.TraceMonitor

/-!
# Histories of an actor

An actor is spawned, takes one input after the other, and winds down when its
loop ends.  Before each input it is sound, and its whole history is a sequence of
steps.
-/

namespace SerialPlatform
namespace SlotActor

/-- The actor takes an input and waits for the next one. -/
def TakesInput (known : Actor → Prop) (s t : SlotActor) : Prop :=
  ∃ input, Admits known input ∧ s.turn input = (t, false)

/-- Started from a state, the actor waits for its next input. -/
abbrev Waits (known : Actor → Prop) (s t : SlotActor) : Prop :=
  Relation.ReflTransGen (TakesInput known) s.start t

variable {known : Actor → Prop} {s t : SlotActor}

section Spawned

variable (config : SlotConfig) (transportProfile : Option TransportProfile)
  (modelProfile : Option ModelProfile) (limits : ControlLimits) (instantMax : ℕ)
  (daemonEpoch : Uuid) (daemonStarted : ℕ) (world : World) (stagedSource : Option String)

theorem sound_spawn :
    (spawn config transportProfile modelProfile limits instantMax daemonEpoch daemonStarted
      world stagedSource).Sound known where
  consistent :=
    { generation := rfl
      epoch := rfl
      lease := fun _ hlease => by cases hlease
      run := fun _ hrun => by cases hrun
      context := fun _ hrun => by cases hrun
      contextRun := fun _ _ _ hrun => by cases hrun
      pending := fun _ hpending => by cases hpending
      paused := fun _ => rfl }
  flight := .of_none rfl rfl
  ledger :=
    { limit := rfl
      room := Nat.zero_le _
      revision := fun _ hcontext => by cases hcontext }
  once := List.nodup_nil
  kept := fun id hid => by cases hid

end Spawned

theorem turns_waits (h : s.Sound known) (hwaits : Waits known s t) : Turns known s t := by
  induction hwaits with
  | refl => exact turns_start h
  | tail _ hturn ih =>
      obtain ⟨input, hinput, hturn⟩ := hturn
      have hnext := turns_turn ih.sound hinput
      rw [hturn] at hnext
      exact ih.trans hnext

/-! ## The end of the loop -/

theorem routinely_windDown (s : SlotActor) :
    Routinely (s.view []) (s.windDown.view []) := by
  unfold windDown
  extract_lets marked settled _
  have hmarked : Calmly (s.view []) (marked.view []) :=
    s.calmly_requestTriggerStop [] rfl (by decide)
  have hstopped : Routinely (marked.view []) (marked.stopPort.view []) :=
    marked.routinely_stopPort []
  have hsettled : Calmly (marked.stopPort.view []) (settled.view []) :=
    marked.stopPort.calmly_settleTriggerWriteAfterPortStop []
  have hdisabled : Routinely (settled.view [])
      ((settled.setPort { settled.port with sessionState := .disabled }).view []) :=
    settled.routinely_setPort [] { settled.port with sessionState := .disabled } rfl rfl
  exact ((hmarked.routinely.trans hstopped).trans hsettled.routinely).trans hdisabled

theorem reaches_run (inputs : List TurnInput) (h : s.Sound known)
    (hinputs : ∀ input ∈ inputs, Admits known input) :
    Reaches known (fun _ => True) (s.view []) ((run inputs s).view []) := by
  induction inputs generalizing s with
  | nil => exact .refl
  | cons input inputs ih =>
      have hturn := turns_turn h (hinputs input List.mem_cons_self)
      unfold run
      generalize s.turn input = turned at hturn ⊢
      rcases turned with ⟨next, ended⟩
      cases ended with
      | false =>
          exact hturn.path.trans (ih hturn.sound fun input hmem =>
            hinputs input (List.mem_cons_of_mem _ hmem))
      | true => exact hturn.path.trans next.routinely_windDown.reaches

theorem reaches_history (inputs : List TurnInput) (h : s.Sound known)
    (hinputs : ∀ input ∈ inputs, Admits known input) :
    Reaches known (fun _ => True) (s.view []) ((run inputs s.start).view []) := by
  have hstarted := turns_start h
  exact hstarted.path.trans (reaches_run inputs hstarted.sound hinputs)

/-- A monitor which every step carries accepts the trace of every history. -/
theorem history_accepted {σ : Type} {m : TraceMonitor σ Effect} {R : View → σ → Prop}
    (hstep : ∀ v w, SlotStep known (fun _ => True) v w → m.Carries View.trace R R v w)
    (h : s.Sound known) (htrace : s.trace = []) (hrelated : R (s.view []) m.start)
    (inputs : List TurnInput) (hinputs : ∀ input ∈ inputs, Admits known input) :
    m.Follows View.trace R ((run inputs s.start).view []) := by
  have hempty : (s.view []).trace = [] := htrace
  refine TraceMonitor.Follows.run hstep ?_ (reaches_history inputs h hinputs)
  refine ⟨?_, ?_⟩
  · rw [hempty]
    trivial
  · rw [hempty]
    exact hrelated

/-- Without a condition on actors every input is admitted. -/
theorem admits_all (inputs : List TurnInput) :
    ∀ input ∈ inputs, Admits (fun _ => True) input := by
  intro input _
  cases input with
  | command command => cases command <;> trivial
  | triggerTimer queued _ =>
      intro command _
      cases command <;> trivial
  | _ => trivial

/-! ## Retries -/

theorem executedWriteIds_expireControl (s : SlotActor) :
    s.expireControl.caches.executedWriteIds = s.caches.executedWriteIds :=
  congrArg (fun memory => memory.1) (s.routinely_expireControl []).memory_eq

/-- A request whose id was executed before is only answered. -/
theorem handlePhysical_executed {key : String × Uuid} {request : SlotRequest}
    {fingerprint : WriteFingerprint} (hexecuted : key.2 ∈ (s.view []).executed) :
    ∃ result, s.handlePhysical key request fingerprint =
        s.expireControl.ask.reply key result ∧
      ((∃ error, result = .error error) ∨
        ∃ cached, s.expireControl.caches.writeRequestCache key.2 = some cached ∧
          cached.fingerprint = fingerprint ∧ result = cached.result) := by
  unfold handlePhysical
  extract_lets ready
  have hids : key.2 ∈ ready.caches.executedWriteIds.ids := by
    have hsame : ready.caches.executedWriteIds = s.caches.executedWriteIds :=
      executedWriteIds_expireControl s
    rw [hsame]
    exact hexecuted
  cases request.validateWriteAuthorization ready.authority.control ready.authority.activeRun
      ready.authority.runContext ready.port.generation ready.now with
  | error error => exact ⟨_, rfl, .inl ⟨error, rfl⟩⟩
  | ok _ =>
      cases hcache : ready.caches.writeRequestCache key.2 with
      | some cached =>
          refine ⟨_, rfl, ?_⟩
          split_ifs with hsame
          · exact .inr ⟨cached, hcache, hsame, rfl⟩
          · exact .inl ⟨_, rfl⟩
      | none =>
          have hrefused : ready.caches.executedWriteIds.wasExecutedOrReserveable key.2 =
              .ok true := by
            unfold ExecutedWriteIds.wasExecutedOrReserveable
            rw [if_pos hids]
          simp only [hrefused]
          exact ⟨_, rfl, .inl ⟨_, rfl⟩⟩

/-! ## A short history -/

theorem no_polls : ∀ poll ∈ ([] : List ReaderPoll), poll.top.overflow ≠ .closed ∧
    poll.top.rx ≠ .closed ∧ poll.branch.overflow ≠ .closed ∧ poll.branch.rx ≠ .closed :=
  List.forall_mem_nil _

/-- Every port opens, and every write and every record succeeds. -/
def openWorld : World where
  answers := fun asked => {
    elapsed := 0
    wall := 0
    uuid := asked
    eventSize := 300
    journal := .accepted .durable true
    send := .sent
    writer := [.accepted 1]
    breaking := none
    ready := false
    endpointPresent := true
    opened := .ok { polls := [], lateReasons := [], queueOpen := no_polls }
    macroStart := none
    macroRecordFits := true
    macroDriverGone := false }
  asked := 0
  clock := 0

def openStart : SlotActor :=
  spawn
    { port := "ttyUSB0", transportProfile := none, modelProfile := none, modelFamily := none
      modelName := none, enabled := true }
    none none {} (10 ^ 15) 7 0 openWorld none

def person : Actor :=
  { id := "human:" ++ String.ofList (uuidDigits 7), label := "console", kind := .human }

theorem person_issued : person.Issued := ⟨.human, "console", 7, rfl⟩

/-- Sends a line feed. -/
def enterKey : SlotCommand := .request 3 (.sendHumanCommand person 1 [10] none none none)

/-- The port is opened, and the command is sent. -/
def entered : SlotActor :=
  ((openStart.start.turn .maintenance).1.turn (.command enterKey)).1

theorem entered_waits : Waits Actor.Issued openStart entered :=
  .tail (.tail .refl ⟨.maintenance, trivial, rfl⟩) ⟨.command enterKey, person_issued, rfl⟩

section Results

variable (config : SlotConfig) (transportProfile : Option TransportProfile)
  (modelProfile : Option ModelProfile) (limits : ControlLimits) (instantMax : ℕ)
  (daemonEpoch : Uuid) (daemonStarted : ℕ) (world : World) (stagedSource : Option String)

example : entered.trace.filterMap Effect.touched = [3] := by decide +kernel

end Results

end SlotActor
end SerialPlatform
