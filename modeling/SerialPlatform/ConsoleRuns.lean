import SerialPlatform.ConsoleWorker

/-!
# What becomes of console input

Every step of the worker takes at most one command and gives each message it takes one
fate.  The generation is a count of the connections, modulo the numbers it can take, so
that the comparison before a write fences a message off from later connections until the
count comes around.
-/

namespace SerialPlatform.Console

open GuardedRuns

/-- The place of the message whose fate an output is. -/
def Output.fateOf : Output → Option ℕ
  | .sendRejected index _ => some index
  | .wrote index _ _ => some index
  | _ => none

def Output.isConnected : Output → Bool
  | .transportConnected _ => true
  | _ => false

def NetworkCommand.isSend {Message : Type} : NetworkCommand Message → Bool
  | .send _ _ => true
  | _ => false

namespace Worker

variable {Message : Type} {w w' : Worker Message}

/-- The generation of the connection of this number. -/
def generationOf (connection : ℕ) : ℕ :=
  if connection = 0 then 0 else (connection - 1) % (2 ^ 64 - 1) + 1

theorem nextGeneration_generationOf (connection : ℕ) :
    nextGeneration (generationOf connection) = generationOf (connection + 1) := by
  unfold nextGeneration generationOf
  by_cases hzero : connection = 0
  · subst hzero
    decide
  · rw [if_neg hzero, if_neg (by omega), Nat.add_sub_cancel]
    obtain ⟨earlier, rfl⟩ := Nat.exists_eq_succ_of_ne_zero hzero
    simp only [Nat.succ_eq_add_one, Nat.add_sub_cancel]
    omega

/-- Until the count comes around, the generation names one connection. -/
theorem eq_of_generationOf {first later : ℕ} (hfirst : 0 < first) (hle : first ≤ later)
    (hnear : later < first + (2 ^ 64 - 1)) (h : generationOf first = generationOf later) :
    first = later := by
  unfold generationOf at h
  rw [if_neg (by omega), if_neg (by omega)] at h
  omega

/-- A lost connection is still to be reported, or there is nobody left to do it. -/
def Owes (w : Worker Message) : Prop := (∃ reason, w.phase = .draining reason) ∨ w.phase = .ended

/-- What one step may do to the queue and the connections. -/
inductive Deals (w w' : Worker Message) (outputs : List Output) : Prop
  | quiet (hplain : ∀ output ∈ outputs, output.fateOf = none ∧ output.isConnected = false)
      (hqueued : w'.queued = w.queued) (htaken : w'.taken = w.taken)
      (hconnections : w'.connections = w.connections) (hgeneration : w'.generation = w.generation)
  | queue (command : NetworkCommand Message) (houtputs : outputs = [])
      (hqueued : w'.queued = w.queued ++ [command]) (htaken : w'.taken = w.taken)
      (hconnections : w'.connections = w.connections) (hgeneration : w'.generation = w.generation)
  | connect (houtputs : outputs = [.transportConnected (nextGeneration w.generation)])
      (hqueued : w'.queued = w.queued) (htaken : w'.taken = w.taken)
      (hconnections : w'.connections = w.connections + 1)
      (hgeneration : w'.generation = nextGeneration w.generation)
  | obey (command : NetworkCommand Message) (hcommand : w.queued[w.taken]? = some command)
      (hsend : command.isSend = false) (houtputs : outputs = []) (hqueued : w'.queued = w.queued)
      (htaken : w'.taken = w.taken + 1) (hconnections : w'.connections = w.connections)
      (hgeneration : w'.generation = w.generation)
  | reject (generation : ℕ) (message : Message) (reason : String)
      (hcommand : w.queued[w.taken]? = some (.send generation message))
      (houtputs : outputs = [.sendRejected w.taken reason]) (hqueued : w'.queued = w.queued)
      (htaken : w'.taken = w.taken + 1) (hconnections : w'.connections = w.connections)
      (hgeneration : w'.generation = w.generation)
  | write (message : Message) (complete : Bool)
      (hcommand : w.queued[w.taken]? = some (.send w.generation message))
      (hphase : ∃ attachRequestId, w.phase = .connected attachRequestId)
      (houtputs : outputs = [.wrote w.taken w.connections complete])
      (hbroken : complete = false → w'.Owes) (hqueued : w'.queued = w.queued)
      (htaken : w'.taken = w.taken + 1) (hconnections : w'.connections = w.connections)
      (hgeneration : w'.generation = w.generation)

/-- A step writes outputs, and a connection which was lost stays unreported no longer than
the queue is drained. -/
structure Effect (w w' : Worker Message) (outputs : List Output) : Prop where
  trace : w'.trace = w.trace ++ outputs
  owes : w.Owes → w'.Owes ∨ ∃ reason, .disconnected reason ∈ outputs
  deals : Deals w w' outputs

section
variable {index : ℕ} {command : NetworkCommand Message}

/-- The arms in which no command is written. -/
theorem effect_takeConnecting (hcommand : w.queued[w.taken]? = some command)
    (hphase : w.phase = .connecting) :
    ∃ outputs, Effect w ({ w with taken := w.taken + 1 }.takeConnecting w.taken command)
      outputs := by
  have hfree : ¬ w.Owes := by
    rintro (⟨reason, h⟩ | h) <;> rw [hphase] at h <;> cases h
  cases command with
  | send generation message =>
      exact ⟨_, rfl, fun h => absurd h hfree, .reject generation message _ hcommand rfl rfl rfl rfl rfl⟩
  | reconnect reason =>
      exact ⟨[], by simp [takeConnecting], fun h => absurd h hfree,
        .obey _ hcommand rfl rfl rfl rfl rfl rfl⟩
  | reconfigure ports =>
      exact ⟨[], by simp [takeConnecting, replacePorts], fun h => absurd h hfree,
        .obey _ hcommand rfl rfl rfl rfl rfl rfl⟩
  | shutdown =>
      exact ⟨[], by simp [takeConnecting, enter], fun h => absurd h hfree,
        .obey _ hcommand rfl rfl rfl rfl rfl rfl⟩

theorem effect_takeBackingOff (hcommand : w.queued[w.taken]? = some command)
    (hphase : w.phase = .backingOff) :
    ∃ outputs, Effect w ({ w with taken := w.taken + 1 }.takeBackingOff w.taken command)
      outputs := by
  have hfree : ¬ w.Owes := by
    rintro (⟨reason, h⟩ | h) <;> rw [hphase] at h <;> cases h
  cases command with
  | send generation message =>
      exact ⟨_, rfl, fun h => absurd h hfree, .reject generation message _ hcommand rfl rfl rfl rfl rfl⟩
  | reconnect reason =>
      exact ⟨[], by simp [takeBackingOff, enter, doubleBackoff], fun h => absurd h hfree,
        .obey _ hcommand rfl rfl rfl rfl rfl rfl⟩
  | reconfigure ports =>
      exact ⟨[], by simp [takeBackingOff, enter, doubleBackoff, replacePorts],
        fun h => absurd h hfree, .obey _ hcommand rfl rfl rfl rfl rfl rfl⟩
  | shutdown =>
      exact ⟨[], by simp [takeBackingOff, enter], fun h => absurd h hfree,
        .obey _ hcommand rfl rfl rfl rfl rfl rfl⟩

theorem effect_takeConnected {attachRequestId : Uuid} (error : Option String)
    (hcommand : w.queued[w.taken]? = some command)
    (hphase : w.phase = .connected attachRequestId) :
    ∃ outputs, Effect w ({ w with taken := w.taken + 1 }.takeConnected w.taken command error)
      outputs := by
  have hfree : ¬ w.Owes := by
    rintro (⟨reason, h⟩ | h) <;> rw [hphase] at h <;> cases h
  cases command with
  | send generation message =>
      by_cases hstale : generation = w.generation
      · subst hstale
        cases error with
        | none =>
            refine ⟨[.wrote w.taken w.connections true], ?_, fun h => absurd h hfree, ?_⟩
            · simp [takeConnected, emit]
            · exact .write message true hcommand ⟨_, hphase⟩ rfl (by simp)
                (by simp [takeConnected, emit]) (by simp [takeConnected, emit])
                (by simp [takeConnected, emit]) (by simp [takeConnected, emit])
        | some error =>
            refine ⟨[.wrote w.taken w.connections false], ?_, fun h => absurd h hfree, ?_⟩
            · simp [takeConnected, emit, enter]
            · refine .write message false hcommand ⟨_, hphase⟩ rfl
                (fun _ => .inl ⟨s!"WebSocket send failed: {error}", ?_⟩)
                (by simp [takeConnected, emit, enter]) (by simp [takeConnected, emit, enter])
                (by simp [takeConnected, emit, enter]) (by simp [takeConnected, emit, enter])
              · simp only [takeConnected, ne_eq, not_true_eq_false, if_false]
                rfl
      · refine ⟨[.sendRejected w.taken "connection changed; stale input was not sent"], ?_,
          fun h => absurd h hfree, ?_⟩
        · simp [takeConnected, hstale, emit]
        · exact .reject generation message _ hcommand rfl (by simp [takeConnected, hstale, emit])
            (by simp [takeConnected, hstale, emit]) (by simp [takeConnected, hstale, emit])
            (by simp [takeConnected, hstale, emit])
  | reconnect reason =>
      exact ⟨[], by simp [takeConnected, enter], fun h => absurd h hfree,
        .obey _ hcommand rfl rfl rfl rfl rfl rfl⟩
  | reconfigure ports =>
      exact ⟨[], by simp [takeConnected, enter, replacePorts], fun h => absurd h hfree,
        .obey _ hcommand rfl rfl rfl rfl rfl rfl⟩
  | shutdown =>
      exact ⟨[], by simp [takeConnected, enter], fun h => absurd h hfree,
        .obey _ hcommand rfl rfl rfl rfl rfl rfl⟩

theorem effect_takeDraining {reason : String} (hcommand : w.queued[w.taken]? = some command)
    (hphase : w.phase = .draining reason) :
    ∃ outputs, Effect w ({ w with taken := w.taken + 1 }.takeDraining w.taken command)
      outputs := by
  have howes {next : Worker Message} (h : next.phase = w.phase) : next.Owes :=
    .inl ⟨reason, by rw [h, hphase]⟩
  cases command with
  | send generation message =>
      exact ⟨_, rfl, fun _ => .inl (howes rfl),
        .reject generation message _ hcommand rfl rfl rfl rfl rfl⟩
  | reconnect reason =>
      exact ⟨[], by simp [takeDraining], fun _ => .inl (howes rfl),
        .obey _ hcommand rfl rfl rfl rfl rfl rfl⟩
  | reconfigure ports =>
      exact ⟨[], by simp [takeDraining, replacePorts], fun _ => .inl (howes rfl),
        .obey _ hcommand rfl rfl rfl rfl rfl rfl⟩
  | shutdown =>
      exact ⟨[], by simp [takeDraining, enter], fun _ => .inl (.inr rfl),
        .obey _ hcommand rfl rfl rfl rfl rfl rfl⟩

end

theorem effect_take {error : Option String} (h : w.take error = some w') :
    ∃ outputs, Effect w w' outputs := by
  unfold take at h
  cases hcommand : w.queued[w.taken]? with
  | some command =>
      simp only [hcommand] at h
      cases hphase : w.phase with
      | connecting =>
          simp only [hphase] at h
          cases h
          have heffect := effect_takeConnecting hcommand hphase
          simpa only [hphase] using heffect
      | backingOff =>
          simp only [hphase] at h
          cases h
          have heffect := effect_takeBackingOff hcommand hphase
          simpa only [hphase] using heffect
      | connected attachRequestId =>
          simp only [hphase] at h
          cases h
          have heffect := effect_takeConnected error hcommand hphase
          simpa only [hphase] using heffect
      | draining reason =>
          simp only [hphase] at h
          cases h
          have heffect := effect_takeDraining hcommand hphase
          simpa only [hphase] using heffect
      | sayingHello => simp [hphase] at h
      | attaching => simp [hphase] at h
      | ended => simp [hphase] at h
  | none =>
      have hends (hh : (if w.hasSenders then none else some (w.enter .ended)) = some w') :
          ∃ outputs, Effect w w' outputs := by
        split_ifs at hh
        cases hh
        exact ⟨[], by simp [enter], fun _ => .inl (.inr rfl), .quiet (by simp) rfl rfl rfl rfl⟩
      simp only [hcommand] at h
      cases hphase : w.phase with
      | draining reason =>
          simp only [hphase] at h
          cases h
          exact ⟨[.disconnected reason], rfl, fun _ => .inr ⟨reason, List.mem_cons_self⟩,
            .quiet (by simp [Output.fateOf, Output.isConnected]) rfl rfl rfl rfl⟩
      | connecting => exact hends (by simpa [hphase] using h)
      | backingOff => exact hends (by simpa [hphase] using h)
      | connected attachRequestId => exact hends (by simpa [hphase] using h)
      | sayingHello => simp [hphase] at h
      | attaching => simp [hphase] at h
      | ended => simp [hphase] at h

theorem effect_receiveFrame (frame : WireFrame) {attachRequestId : Uuid}
    (hfree : ¬ w.Owes) : Effect w (w.receiveFrame frame attachRequestId) [.frame frame] := by
  have hplain : ∀ output ∈ [Output.frame frame],
      output.fateOf = none ∧ output.isConnected = false := by
    simp [Output.fateOf, Output.isConnected]
  unfold receiveFrame
  dsimp only
  split
  · split
    · exact ⟨rfl, fun h => absurd h hfree, .quiet hplain rfl rfl rfl rfl⟩
    · exact ⟨rfl, fun h => absurd h hfree, .quiet hplain rfl rfl rfl rfl⟩
    · exact ⟨rfl, fun h => absurd h hfree, .quiet hplain rfl rfl rfl rfl⟩
  · exact ⟨rfl, fun h => absurd h hfree, .quiet hplain rfl rfl rfl rfl⟩

theorem effect_of_step {act : Act Message} (h : step act w = some w') :
    ∃ outputs, Effect w w' outputs := by
  have hfree (phase : Phase) (hphase : w.phase = phase)
      (hother : (∀ reason, phase ≠ .draining reason) ∧ phase ≠ .ended) : ¬ w.Owes := by
    rintro (⟨reason, hdraining⟩ | hended)
    · exact hother.1 reason (hphase.symm.trans hdraining)
    · exact hother.2 (hphase.symm.trans hended)
  cases act with
  | queue command =>
      simp only [step] at h
      split_ifs at h
      cases h
      exact ⟨[], by simp, .inl, .queue command rfl rfl rfl rfl rfl⟩
  | dropSenders =>
      cases h
      exact ⟨[], by simp, .inl, .quiet (by simp) rfl rfl rfl rfl⟩
  | dropReceiver =>
      cases h
      exact ⟨[], by simp, .inl, .quiet (by simp) rfl rfl rfl rfl⟩
  | connect error =>
      simp only [step] at h
      split_ifs at h with hphase
      cases h
      have hnot := hfree _ hphase ⟨by simp, by simp⟩
      cases error with
      | some reason =>
          exact ⟨[.disconnected reason], rfl, fun howes => absurd howes hnot,
            .quiet (by simp [Output.fateOf, Output.isConnected]) rfl rfl rfl rfl⟩
      | none => exact ⟨_, rfl, fun howes => absurd howes hnot, .connect rfl rfl rfl rfl rfl⟩
  | sleepEnds =>
      simp only [step] at h
      split_ifs at h with hphase
      cases h
      have hnot := hfree _ hphase ⟨by simp, by simp⟩
      exact ⟨[], by simp [enter, doubleBackoff], fun howes => absurd howes hnot,
        .quiet (by simp) rfl rfl rfl rfl⟩
  | hello error =>
      simp only [step] at h
      split_ifs at h with hphase
      have hnot := hfree _ hphase ⟨by simp, by simp⟩
      cases error with
      | none =>
          cases h
          exact ⟨[], by simp [enter], fun howes => absurd howes hnot,
            .quiet (by simp) rfl rfl rfl rfl⟩
      | some error =>
          cases h
          exact ⟨_, rfl, fun howes => absurd howes hnot,
            .quiet (by simp [Output.fateOf, Output.isConnected]) rfl rfl rfl rfl⟩
  | attach requestId error =>
      simp only [step] at h
      split_ifs at h with hphase
      have hnot := hfree _ hphase ⟨by simp, by simp⟩
      cases error with
      | none =>
          cases h
          exact ⟨_, rfl, fun howes => absurd howes hnot,
            .quiet (by simp [Output.fateOf, Output.isConnected]) rfl rfl rfl rfl⟩
      | some error =>
          cases h
          exact ⟨_, rfl, fun howes => absurd howes hnot,
            .quiet (by simp [Output.fateOf, Output.isConnected]) rfl rfl rfl rfl⟩
  | receive frame =>
      cases hphase : w.phase with
      | connected attachRequestId =>
          simp only [step, hphase] at h
          cases h
          have hnot := hfree _ hphase ⟨by simp, by simp⟩
          exact ⟨_, effect_receiveFrame frame hnot⟩
      | _ => simp [step, hphase] at h
  | fail reason =>
      cases hphase : w.phase with
      | connected attachRequestId =>
          simp only [step, hphase] at h
          cases h
          exact ⟨[], by simp [enter], fun _ => .inl (.inl ⟨reason, rfl⟩),
            .quiet (by simp) rfl rfl rfl rfl⟩
      | _ => simp [step, hphase] at h
  | take error => exact effect_take h

/-- Before the first connection. -/
def Early (w : Worker Message) : Prop :=
  w.phase = .connecting ∨ w.phase = .backingOff ∨ w.phase = .ended

theorem early_take {error : Option String} (h : w.take error = some w') (hearly : w.Early) :
    w'.Early := by
  unfold take at h
  cases hcommand : w.queued[w.taken]? with
  | none =>
      simp only [hcommand] at h
      rcases hearly with hphase | hphase | hphase
      · simp only [hphase] at h
        split_ifs at h
        cases h
        exact .inr (.inr rfl)
      · simp only [hphase] at h
        split_ifs at h
        cases h
        exact .inr (.inr rfl)
      · simp [hphase] at h
  | some command =>
      simp only [hcommand] at h
      rcases hearly with hphase | hphase | hphase
      · simp only [hphase] at h
        cases h
        cases command with
        | send generation message => exact .inl rfl
        | reconnect reason => exact .inl rfl
        | reconfigure ports => exact .inl rfl
        | shutdown => exact .inr (.inr rfl)
      · simp only [hphase] at h
        cases h
        cases command with
        | send generation message => exact .inr (.inl rfl)
        | reconnect reason => exact .inl rfl
        | reconfigure ports => exact .inl rfl
        | shutdown => exact .inr (.inr rfl)
      · simp [hphase] at h

theorem early_of_step {act : Act Message} (h : step act w = some w') (hearly : w.Early) :
    w'.Early ∨ 0 < w'.connections := by
  cases act with
  | queue command =>
      simp only [step] at h
      split_ifs at h
      cases h
      exact .inl hearly
  | dropSenders =>
      cases h
      exact .inl hearly
  | dropReceiver =>
      cases h
      exact .inl hearly
  | connect error =>
      simp only [step] at h
      split_ifs at h with hphase
      cases h
      cases error with
      | some reason => exact .inl (.inr (.inl rfl))
      | none => exact .inr (Nat.succ_pos _)
  | sleepEnds =>
      simp only [step] at h
      split_ifs at h with hphase
      cases h
      exact .inl (.inl rfl)
  | take error => exact .inl (early_take h hearly)
  | hello error =>
      rcases hearly with hphase | hphase | hphase <;> simp [step, hphase] at h
  | attach requestId error =>
      rcases hearly with hphase | hphase | hphase <;> simp [step, hphase] at h
  | receive frame =>
      rcases hearly with hphase | hphase | hphase <;> simp [step, hphase] at h
  | fail reason =>
      rcases hearly with hphase | hphase | hphase <;> simp [step, hphase] at h

/-! ## The invariant -/

/-- The messages among the first commands. -/
def sendsBefore (queued : List (NetworkCommand Message)) (count : ℕ) : List ℕ :=
  (List.range count).filter (fun index => (queued[index]?.map NetworkCommand.isSend).getD false)

/-- What holds of the messages after every step. -/
structure Accounted (w : Worker Message) : Prop where
  taken : w.taken ≤ w.queued.length
  connections : w.connections = w.trace.countP Output.isConnected
  generation : w.generation = generationOf w.connections
  early : w.connections = 0 → w.Early
  /-- Every message which was taken has one fate, in order. -/
  fates : w.trace.filterMap Output.fateOf = sendsBefore w.queued w.taken
  /-- A message is written to the connection whose generation it names. -/
  written : ∀ before after index connection complete,
    w.trace = before ++ .wrote index connection complete :: after →
      (∃ message, w.queued[index]? = some (.send (generationOf connection) message)) ∧
        0 < connection ∧ connection = before.countP Output.isConnected
  /-- After a write which failed the connection is given up. -/
  broken : ∀ before after index connection,
    w.trace = before ++ .wrote index connection false :: after →
      (∃ reason, .disconnected reason ∈ after) ∨ w.Owes

theorem accounted_start (ports : List String) (cursors : String → Option Cursor) :
    Accounted (start ports cursors : Worker Message) where
  taken := le_refl _
  connections := rfl
  generation := rfl
  early := fun _ => .inl rfl
  fates := rfl
  written := by simp [start]
  broken := by simp [start]

/-- Where an element of an appended list stands. -/
theorem append_cons_cases {α : Type} {first second before after : List α} {a : α}
    (h : first ++ second = before ++ a :: after) :
    (∃ rest, first = before ++ a :: rest ∧ after = rest ++ second) ∨
      ∃ rest, before = first ++ rest ∧ second = rest ++ a :: after := by
  rcases List.append_eq_append_iff.mp h with ⟨rest, hbefore, hsecond⟩ | ⟨rest, hfirst, hafter⟩
  · exact .inr ⟨rest, hbefore, hsecond⟩
  · cases rest with
    | nil => exact .inr ⟨[], by simpa using hfirst.symm, hafter.symm⟩
    | cons b more =>
        cases hafter
        exact .inl ⟨more, hfirst, rfl⟩

theorem sendsBefore_succ (queued : List (NetworkCommand Message)) (count : ℕ) :
    sendsBefore queued (count + 1) = sendsBefore queued count ++
      (if (queued[count]?.map NetworkCommand.isSend).getD false then [count] else []) := by
  unfold sendsBefore
  rw [List.range_succ, List.filter_append, List.filter_cons, List.filter_nil]

theorem sendsBefore_append {queued : List (NetworkCommand Message)} {count : ℕ}
    (h : count ≤ queued.length) (command : NetworkCommand Message) :
    sendsBefore (queued ++ [command]) count = sendsBefore queued count := by
  apply List.filter_congr
  intro index hmem
  have hinside : index < queued.length := lt_of_lt_of_le (List.mem_range.mp hmem) h
  rw [List.getElem?_append_left hinside]

theorem Deals.queued {outputs : List Output} (h : Deals w w' outputs) :
    ∃ more, w'.queued = w.queued ++ more := by
  cases h with
  | quiet _ hqueued _ _ _ => exact ⟨[], by simp [hqueued]⟩
  | queue command _ hqueued _ _ _ => exact ⟨_, hqueued⟩
  | connect _ hqueued _ _ _ => exact ⟨[], by simp [hqueued]⟩
  | obey _ _ _ _ hqueued _ _ _ => exact ⟨[], by simp [hqueued]⟩
  | reject _ _ _ _ _ hqueued _ _ _ => exact ⟨[], by simp [hqueued]⟩
  | write _ _ _ _ _ _ hqueued _ _ _ => exact ⟨[], by simp [hqueued]⟩

/-- The writes among the outputs of a step. -/
theorem Deals.wrote {outputs : List Output} (h : Deals w w' outputs) {index connection : ℕ}
    {complete : Bool} {before after : List Output}
    (houtputs : outputs = before ++ .wrote index connection complete :: after) :
    before = [] ∧ index = w.taken ∧ connection = w.connections ∧
      (∃ message, w.queued[index]? = some (.send w.generation message)) ∧
      (∃ attachRequestId, w.phase = .connected attachRequestId) ∧ (complete = false → w'.Owes) := by
  have hmem : Output.wrote index connection complete ∈ outputs := by simp [houtputs]
  cases h with
  | quiet hplain _ _ _ _ =>
      have hnone := (hplain _ hmem).1
      simp [Output.fateOf] at hnone
  | queue _ hnil _ _ _ _ => simp [hnil] at hmem
  | connect hconnected _ _ _ _ => simp [hconnected] at hmem
  | obey _ _ _ hnil _ _ _ _ => simp [hnil] at hmem
  | reject _ _ _ _ hrejected _ _ _ _ => simp [hrejected] at hmem
  | write message done hcommand hphase hwrote hbroken _ _ _ _ =>
      rw [hwrote] at houtputs
      cases before with
      | cons first rest =>
          have hlength := congrArg List.length houtputs
          simp only [List.length_cons, List.length_append, List.length_nil] at hlength
          omega
      | nil =>
          cases houtputs
          exact ⟨rfl, rfl, rfl, ⟨message, hcommand⟩, hphase, hbroken⟩

theorem Accounted.step {act : Act Message} (h : Accounted w) (hstep : step act w = some w') :
    Accounted w' := by
  obtain ⟨outputs, htrace, howes, hdeals⟩ := effect_of_step hstep
  have hlookup {index : ℕ} {command : NetworkCommand Message}
      (hindex : w.queued[index]? = some command) : w'.queued[index]? = some command := by
    obtain ⟨more, hqueued⟩ := hdeals.queued
    have hinside : index < w.queued.length := by
      by_contra hout
      rw [List.getElem?_eq_none (by omega)] at hindex
      cases hindex
    rw [hqueued, List.getElem?_append_left hinside]
    exact hindex
  refine ⟨?_, ?_, ?_, ?_, ?_, ?_, ?_⟩
  · have hinside {command : NetworkCommand Message} (hcommand : w.queued[w.taken]? = some command) :
        w.taken < w.queued.length := by
      by_contra hout
      rw [List.getElem?_eq_none (by omega)] at hcommand
      cases hcommand
    have htaken := h.taken
    cases hdeals with
    | quiet _ hqueued htaken' _ _ => rw [htaken', hqueued]; exact htaken
    | queue _ _ hqueued htaken' _ _ =>
        rw [htaken', hqueued, List.length_append]
        omega
    | connect _ hqueued htaken' _ _ => rw [htaken', hqueued]; exact htaken
    | obey _ hcommand _ _ hqueued htaken' _ _ =>
        rw [htaken', hqueued]
        exact hinside hcommand
    | reject _ _ _ hcommand _ hqueued htaken' _ _ =>
        rw [htaken', hqueued]
        exact hinside hcommand
    | write _ _ hcommand _ _ _ hqueued htaken' _ _ =>
        rw [htaken', hqueued]
        exact hinside hcommand
  · rw [htrace, List.countP_append, ← h.connections]
    cases hdeals with
    | quiet hplain _ _ hconnections _ =>
        have hnone : outputs.countP Output.isConnected = 0 := by
          rw [List.countP_eq_zero]
          intro output hmem
          simp [(hplain output hmem).2]
        rw [hconnections, hnone, Nat.add_zero]
    | queue _ hnil _ _ hconnections _ => simp [hnil, hconnections]
    | connect hconnected _ _ hconnections _ => simp [hconnected, hconnections, Output.isConnected]
    | obey _ _ _ hnil _ _ hconnections _ => simp [hnil, hconnections]
    | reject _ _ _ _ hrejected _ _ hconnections _ =>
        simp [hrejected, hconnections, Output.isConnected]
    | write _ _ _ _ hwrote _ _ _ hconnections _ => simp [hwrote, hconnections, Output.isConnected]
  · have hgeneration := h.generation
    cases hdeals with
    | quiet _ _ _ hconnections hsame => rw [hsame, hconnections, hgeneration]
    | queue _ _ _ _ hconnections hsame => rw [hsame, hconnections, hgeneration]
    | connect _ _ _ hconnections hnext =>
        rw [hnext, hconnections, hgeneration, nextGeneration_generationOf]
    | obey _ _ _ _ _ _ hconnections hsame => rw [hsame, hconnections, hgeneration]
    | reject _ _ _ _ _ _ _ hconnections hsame => rw [hsame, hconnections, hgeneration]
    | write _ _ _ _ _ _ _ _ hconnections hsame => rw [hsame, hconnections, hgeneration]
  · intro hzero
    have hbefore : w.connections = 0 := by
      cases hdeals with
      | quiet _ _ _ hconnections _ => rw [← hconnections]; exact hzero
      | queue _ _ _ _ hconnections _ => rw [← hconnections]; exact hzero
      | connect _ _ _ hconnections _ => omega
      | obey _ _ _ _ _ _ hconnections _ => rw [← hconnections]; exact hzero
      | reject _ _ _ _ _ _ _ hconnections _ => rw [← hconnections]; exact hzero
      | write _ _ _ _ _ _ _ _ hconnections _ => rw [← hconnections]; exact hzero
    rcases early_of_step hstep (h.early hbefore) with hearly | hpos
    · exact hearly
    · omega
  · rw [htrace, List.filterMap_append, h.fates]
    cases hdeals with
    | quiet hplain hqueued htaken _ _ =>
        have hnone : outputs.filterMap Output.fateOf = [] := by
          rw [List.filterMap_eq_nil_iff]
          exact fun output hmem => (hplain output hmem).1
        rw [hnone, hqueued, htaken, List.append_nil]
    | queue command hnil hqueued htaken _ _ =>
        rw [hnil, hqueued, htaken, sendsBefore_append h.taken]
        simp
    | connect hconnected hqueued htaken _ _ =>
        rw [hconnected, hqueued, htaken]
        simp [Output.fateOf]
    | obey command hcommand hsend hnil hqueued htaken _ _ =>
        rw [hnil, hqueued, htaken, sendsBefore_succ, hcommand]
        simp [hsend]
    | reject _ _ _ hcommand hrejected hqueued htaken _ _ =>
        rw [hrejected, hqueued, htaken, sendsBefore_succ, hcommand]
        simp [Output.fateOf, NetworkCommand.isSend]
    | write _ _ hcommand _ hwrote _ hqueued htaken _ _ =>
        rw [hwrote, hqueued, htaken, sendsBefore_succ, hcommand]
        simp [Output.fateOf, NetworkCommand.isSend]
  · intro before after index connection complete hsplit
    rw [htrace] at hsplit
    rcases append_cons_cases hsplit with ⟨rest, hfirst, -⟩ | ⟨rest, hbefore, hsecond⟩
    · obtain ⟨⟨message, hcommand⟩, hconnection⟩ := h.written _ _ _ _ _ hfirst
      exact ⟨⟨message, hlookup hcommand⟩, hconnection⟩
    · obtain ⟨hrest, -, hconnection, ⟨message, hcommand⟩, ⟨attachRequestId, hphase⟩, -⟩ :=
        hdeals.wrote hsecond
      refine ⟨⟨message, ?_⟩, ?_, ?_⟩
      · rw [hlookup hcommand, hconnection, h.generation]
      · rw [hconnection]
        by_contra hzero
        rcases h.early (by omega) with hearly | hearly | hearly <;>
          rw [hphase] at hearly <;> cases hearly
      · rw [hbefore, hrest, List.append_nil, hconnection, h.connections]
  · intro before after index connection hsplit
    rw [htrace] at hsplit
    rcases append_cons_cases hsplit with ⟨rest, hfirst, hafter⟩ | ⟨rest, hbefore, hsecond⟩
    · rw [hafter]
      rcases h.broken _ _ _ _ hfirst with ⟨reason, hmem⟩ | hdebt
      · exact .inl ⟨reason, List.mem_append_left _ hmem⟩
      · rcases howes hdebt with hdebt' | ⟨reason, hmem⟩
        · exact .inr hdebt'
        · exact .inl ⟨reason, List.mem_append_right _ hmem⟩
    · exact .inr ((hdeals.wrote hsecond).2.2.2.2.2 rfl)

/-! ## Runs -/

theorem accounted_of_reaches {ports : List String} {cursors : String → Option Cursor}
    (h : Reaches step (fun _ _ => True) (start ports cursors) w) : Accounted w :=
  h.invariant (accounted_start ports cursors) (fun haccounted _ hstep => haccounted.step hstep)

theorem sendsBefore_sorted (queued : List (NetworkCommand Message)) (count : ℕ) :
    (sendsBefore queued count).Pairwise (· < ·) :=
  List.pairwise_lt_range.filter _

/-- The fate of a message which was taken. -/
theorem Accounted.fate (h : Accounted w) {index generation : ℕ} {message : Message}
    (hcommand : w.queued[index]? = some (.send generation message)) (htaken : index < w.taken) :
    (∃ reason, .sendRejected index reason ∈ w.trace) ∨
      (∃ connection, .wrote index connection true ∈ w.trace) ∨
      ∃ before connection after, w.trace = before ++ .wrote index connection false :: after ∧
        ((∃ reason, .disconnected reason ∈ after) ∨ w.Owes) := by
  have hmem : index ∈ sendsBefore w.queued w.taken := by
    refine List.mem_filter.mpr ⟨List.mem_range.mpr htaken, ?_⟩
    rw [hcommand]
    rfl
  rw [← h.fates] at hmem
  obtain ⟨output, houtput, hfate⟩ := List.mem_filterMap.mp hmem
  cases output with
  | sendRejected place reason =>
      cases hfate
      exact .inl ⟨reason, houtput⟩
  | wrote place connection complete =>
      cases hfate
      cases complete with
      | true => exact .inr (.inl ⟨connection, houtput⟩)
      | false =>
          obtain ⟨before, after, hsplit⟩ := List.append_of_mem houtput
          exact .inr (.inr ⟨before, connection, after, hsplit, h.broken _ _ _ _ hsplit⟩)
  | transportConnected generation => cases hfate
  | disconnected reason => cases hfate
  | frame frame => cases hfate
  | attached subscriptions => cases hfate

/-- In every schedule each message has at most one fate, in the order of the queue, and one
as soon as it is taken: it is rejected, written whole, or broken off, and then the
connection is given up.  It is written only to the connection whose generation it names,
and to none behind the one it was typed for, unless all generations came around between. -/
theorem input_is_bound {ports : List String} {cursors : String → Option Cursor}
    (h : Reaches step (fun _ _ => True) (start ports cursors) w) :
    (w.trace.filterMap Output.fateOf = sendsBefore w.queued w.taken ∧
      (w.trace.filterMap Output.fateOf).Pairwise (· < ·)) ∧
    (∀ index generation message, w.queued[index]? = some (.send generation message) →
      index < w.taken →
      (∃ reason, .sendRejected index reason ∈ w.trace) ∨
        (∃ connection, .wrote index connection true ∈ w.trace) ∨
        ∃ before connection after, w.trace = before ++ .wrote index connection false :: after ∧
          ((∃ reason, .disconnected reason ∈ after) ∨ w.Owes)) ∧
    (∀ before after index connection complete,
      w.trace = before ++ .wrote index connection complete :: after →
      (∃ message, w.queued[index]? = some (.send (generationOf connection) message)) ∧
        connection = before.countP Output.isConnected ∧
        ∀ typed message, w.queued[index]? = some (.send (generationOf typed) message) →
          0 < typed → typed ≤ connection → connection < typed + (2 ^ 64 - 1) →
          connection = typed) := by
  have haccounted := accounted_of_reaches h
  refine ⟨⟨haccounted.fates, ?_⟩, fun _ _ _ => haccounted.fate, ?_⟩
  · rw [haccounted.fates]
    exact sendsBefore_sorted _ _
  · intro before after index connection complete hsplit
    obtain ⟨⟨message, hcommand⟩, hpos, hconnection⟩ := haccounted.written _ _ _ _ _ hsplit
    refine ⟨⟨message, hcommand⟩, hconnection, fun typed other htyped hfirst hle hnear => ?_⟩
    rw [hcommand] at htyped
    have hgenerations : generationOf typed = generationOf connection := by
      simp only [Option.some.injEq, NetworkCommand.send.injEq] at htyped
      exact htyped.1.symm
    exact (eq_of_generationOf hfirst hle hnear hgenerations).symm

/-- A message typed on the first connection, and one which names another. -/
def served : Worker Unit where
  ports := ["uart"]
  cursors := fun _ => none
  slotEpochs := fun _ => none
  generation := 1
  backoff := 250
  phase := .connected 7
  queued := [.send 1 (), .send 2 ()]
  taken := 2
  hasSenders := true
  hasReceiver := true
  connections := 1
  trace := [.transportConnected 1, .attached [⟨"uart", none, 500⟩], .wrote 0 1 true,
    .sendRejected 1 "connection changed; stale input was not sent"]

theorem served_is_bound :
    served.trace.filterMap Output.fateOf = sendsBefore served.queued served.taken ∧
      (served.trace.filterMap Output.fateOf).Pairwise (· < ·) := by
  have hfollow : follow step [.connect none, .queue (.send 1 ()), .hello none, .attach 7 none,
      .queue (.send 2 ()), .take none, .take none] (start ["uart"] fun _ => none) =
      some served := rfl
  exact (input_is_bound (reaches_any hfollow)).1

/-! ## When the generations come around -/

/-- A message is typed for the first connection, whose greeting fails. -/
def typing : Worker Unit where
  ports := []
  cursors := fun _ => none
  slotEpochs := fun _ => none
  generation := 1
  backoff := 250
  phase := .sayingHello
  queued := [.send 1 ()]
  taken := 0
  hasSenders := true
  hasReceiver := true
  connections := 1
  trace := [.transportConnected 1]

theorem reaches_typing : Reaches step (fun _ _ => True) (start [] fun _ => none) typing := by
  have hfollow : follow step [.connect none, .queue (.send 1 ())] (start [] fun _ => none) =
      some typing := rfl
  exact reaches_any hfollow

/-- All later connections fail in their greeting too. -/
theorem reaches_later (more : ℕ) : ∃ w, Reaches step (fun _ _ => True) typing w ∧
    w.phase = .sayingHello ∧ w.queued = [.send 1 ()] ∧ w.taken = 0 ∧ w.hasReceiver = true ∧
    w.connections = more + 1 ∧ w.generation = generationOf (more + 1) := by
  induction more with
  | zero => exact ⟨typing, .refl, rfl, rfl, rfl, rfl, rfl, rfl⟩
  | succ more ih =>
      obtain ⟨w, hreaches, hphase, hqueued, htaken, hreceiver, hconnections, hgeneration⟩ := ih
      have hhello : step (.hello (some "")) w =
          some ((w.emit (.disconnected "WebSocket hello failed: ")).enter .connecting) := by
        simp only [step, if_pos hphase]
        rfl
      have hfailed := hreaches.tail trivial hhello
      have hconnect : step (.connect none)
          ((w.emit (.disconnected "WebSocket hello failed: ")).enter .connecting) =
          some (((w.emit (.disconnected "WebSocket hello failed: ")).enter .connecting).connect
            none) := rfl
      refine ⟨_, hfailed.tail trivial hconnect, ?_, hqueued, htaken, hreceiver, ?_, ?_⟩
      · simp [connect, enter, emit, hreceiver]
      · simp [connect, enter, emit, hconnections]
      · rw [← nextGeneration_generationOf, ← hgeneration]
        rfl

theorem take_send {attachRequestId : Uuid} {message : Message}
    (hcommand : w.queued[w.taken]? = some (.send w.generation message))
    (hphase : w.phase = .connected attachRequestId) :
    step (.take none) w = some ({ w with taken := w.taken + 1 }.emit
      (.wrote w.taken w.connections true)) := by
  simp [step, take, hcommand, hphase, takeConnected, emit]

/-- It is written to a connection which has the same generation. -/
theorem input_written_after_wrap : ∃ w, Reaches step (fun _ _ => True) (start [] fun _ => none) typing ∧
    typing.connections = 1 ∧ Reaches step (fun _ _ => True) typing w ∧
    w.queued = [.send 1 ()] ∧ .wrote 0 (2 ^ 64) true ∈ w.trace := by
  obtain ⟨w, hreaches, hphase, hqueued, htaken, hreceiver, hconnections, hgeneration⟩ :=
    reaches_later (2 ^ 64 - 1)
  have hhello : step (.hello none) w = some (w.enter .attaching) := by
    simp only [step, if_pos hphase]
  have hattach : step (.attach 0 none) (w.enter .attaching) =
      some (((w.enter .attaching).emit (.attached (buildSubscriptions w.ports w.cursors))).enter
        (.connected 0)) := rfl
  have hsame : w.generation = 1 := by
    rw [hgeneration]
    decide
  have hcommand : w.queued[w.taken]? = some (.send w.generation ()) := by
    rw [hqueued, htaken, hsame]
    rfl
  have htake := @take_send _
    (((w.enter .attaching).emit (.attached (buildSubscriptions w.ports w.cursors))).enter
      (.connected 0)) _ _ hcommand rfl
  refine ⟨_, reaches_typing, rfl, ((hreaches.tail trivial hhello).tail trivial hattach).tail
    trivial htake, hqueued, ?_⟩
  have hlast : Output.wrote w.taken w.connections true = .wrote 0 (2 ^ 64) true := by
    rw [htaken, hconnections.trans (by norm_num : 2 ^ 64 - 1 + 1 = 2 ^ 64)]
  rw [← hlast]
  exact List.mem_append_right _ List.mem_cons_self

end Worker

end SerialPlatform.Console
