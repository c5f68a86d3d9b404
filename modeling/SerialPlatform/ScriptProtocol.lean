import SerialPlatform.FallibleState
import SerialPlatform.ScriptVm

/-!
# The effect protocol of the machine

The driver may call the five entry points in any order, with any ids and any
results.  A run is a list of calls; `issued` are the effects which it is handed
for the first time.
-/

namespace SerialPlatform.Script

open FallibleState

inductive Call
  | advance
  | resume (effectId : ℕ) (result : EffectResult)
  | failEffect (effectId : ℕ) (message : String)
  | interrupt (message : String)
  | markMatched (watcher : ℕ)

/-- The command bytes of an effect. -/
def EffectKind.bytes : EffectKind → ℕ
  | .command text _ => text.utf8ByteSize
  | _ => 0

/-- The flags of the watchers which an effect creates. -/
def EffectKind.flags : EffectKind → List Bool
  | .watch _ _ => [false]
  | _ => []

/-- The result type which acknowledges an effect. -/
def EffectKind.accepts : EffectKind → EffectResult → Bool
  | .wait _ _ _, .matched _ => true
  | .wait _ _ _, .done => false
  | _, .done => true
  | _, .matched _ => false

/-- A command which passes `validate_command`, a duration within its limit. -/
def EffectKind.Allowed (limits : Limits) : EffectKind → Prop
  | .command text _ => ∀ span, validateCommand text limits.maxStringBytes span = .ok ()
  | .watch _ pattern => pattern ≠ ""
  | .wait _ timeoutMs _ => timeoutMs ≤ limits.maxDurationMs
  | .delay durationMs => durationMs ≤ limits.maxDurationMs

/-- The call acknowledges the effect, with its id and its result type. -/
def Call.Acknowledges (call : Call) (effect : Effect) : Prop :=
  ∃ result, call = .resume effect.id result ∧ effect.kind.accepts result

namespace Vm

def serve (vm : Vm) : Call → Except Fault (Option Step) × Vm
  | .advance => ((vm.advance).1.map some, (vm.advance).2)
  | .resume effectId result =>
      ((vm.resume effectId result).1.map fun _ => none, (vm.resume effectId result).2)
  | .failEffect effectId message =>
      ((vm.failEffect effectId message).1.map fun _ => none, (vm.failEffect effectId message).2)
  | .interrupt message =>
      ((vm.interrupt message).1.map fun _ => none, (vm.interrupt message).2)
  | .markMatched watcher =>
      ((vm.markMatched watcher).1.map fun _ => none, (vm.markMatched watcher).2)

/-- The machine after a run. -/
def after (vm : Vm) (calls : List Call) : Vm :=
  calls.foldl (fun vm call => (vm.serve call).2) vm

/-- The effect which a call hands out and which was not pending before. -/
def issuedBy (vm : Vm) (call : Call) : Option Effect :=
  match vm.pending, (vm.serve call).1 with
  | none, .ok (some (.effect effect)) => some effect
  | _, _ => none

/-- The effects of a run, in their order. -/
def issued : Vm → List Call → List Effect
  | _, [] => []
  | vm, call :: calls => (vm.issuedBy call).toList ++ issued (vm.serve call).2 calls

@[simp] theorem after_nil (vm : Vm) : vm.after [] = vm := rfl

@[simp] theorem after_cons (vm : Vm) (call : Call) (calls : List Call) :
    vm.after (call :: calls) = (vm.serve call).2.after calls := rfl

theorem after_append (vm : Vm) (before later : List Call) :
    vm.after (before ++ later) = (vm.after before).after later := by
  simp [after, List.foldl_append]

theorem issued_append (vm : Vm) (before later : List Call) :
    vm.issued (before ++ later) = vm.issued before ++ (vm.after before).issued later := by
  induction before generalizing vm with
  | nil => rfl
  | cons call calls ih => simp [issued, ih]

/-! ## Instructions which issue nothing -/

/-- The effects and the budgets are as before. -/
structure Idle (vm vm' : Vm) : Prop where
  program : vm'.program = vm.program
  pending : vm'.pending = vm.pending
  failure : vm'.failure = vm.failure
  nextEffect : vm'.nextEffect = vm.nextEffect
  commandBytes : vm'.commandBytes = vm.commandBytes
  watchers : vm'.watchers = vm.watchers
  instructions : vm'.instructions = vm.instructions

instance : Std.Refl Idle := ⟨fun _ => ⟨rfl, rfl, rfl, rfl, rfl, rfl, rfl⟩⟩

instance : IsTrans Vm Idle where
  trans _ _ _ h h' :=
    ⟨h'.program.trans h.program, h'.pending.trans h.pending, h'.failure.trans h.failure,
      h'.nextEffect.trans h.nextEffect, h'.commandBytes.trans h.commandBytes,
      h'.watchers.trans h.watchers, h'.instructions.trans h.instructions⟩

section
variable {α : Type}

theorem raise_idle (code message : String) : Keeps Idle (raise code message : Exec α) :=
  Keeps.of_get.of_bind fun _ => Keeps.of_throw _

theorem panicked_idle : Keeps Idle (panicked : Exec α) := Keeps.of_throw _

theorem push_idle (value : RuntimeValue) : Keeps Idle (push value) :=
  Keeps.of_modify fun _ => ⟨rfl, rfl, rfl, rfl, rfl, rfl, rfl⟩

theorem setPc_idle (target : ℕ) : Keeps Idle (setPc target) :=
  Keeps.of_modify fun _ => ⟨rfl, rfl, rfl, rfl, rfl, rfl, rfl⟩

theorem pop_idle : Keeps Idle pop := by
  refine Keeps.of_get.of_bind fun vm => ?_
  split
  · exact raise_idle _ _
  · refine Keeps.of_bind (Keeps.of_modify fun _ => ?_) fun _ => Keeps.of_pure _
    exact ⟨rfl, rfl, rfl, rfl, rfl, rfl, rfl⟩

theorem popScalar_idle : Keeps Idle popScalar := by
  refine pop_idle.of_bind fun value => ?_
  cases value with
  | scalar value => exact Keeps.of_pure _
  | watcher id => exact raise_idle _ _

example : checkedInt (2 ^ 63) = none := by decide +kernel

theorem popInteger_idle : Keeps Idle popInteger := by
  refine popScalar_idle.of_bind fun value => ?_
  cases value with
  | integer value => exact Keeps.of_pure _
  | _ => exact raise_idle _ _

theorem popBool_idle : Keeps Idle popBool := by
  refine popScalar_idle.of_bind fun value => ?_
  cases value with
  | boolean value => exact Keeps.of_pure _
  | _ => exact raise_idle _ _

theorem popString_idle : Keeps Idle popString := by
  refine popScalar_idle.of_bind fun value => ?_
  cases value with
  | string value => exact Keeps.of_pure _
  | _ => exact raise_idle _ _

theorem popWatcher_idle : Keeps Idle popWatcher := by
  refine pop_idle.of_bind fun value => ?_
  cases value with
  | watcher id => exact Keeps.of_pure _
  | scalar value => exact raise_idle _ _

theorem popDuration_idle : Keeps Idle popDuration := by
  refine popInteger_idle.of_bind fun value => Keeps.of_get.of_bind fun vm => ?_
  exact Keeps.of_ite (raise_idle _ _) (Keeps.of_pure _)

theorem peekBool_idle : Keeps Idle peekBool := by
  refine Keeps.of_get.of_bind fun vm => ?_
  split
  · exact Keeps.of_pure _
  · exact raise_idle _ _

example : (integerResult .divide 7 0).isOk = false := by decide +kernel

theorem unary_idle (operator : Unary) : Keeps Idle (unary operator) := by
  cases operator with
  | not => exact popBool_idle.of_bind fun value => push_idle _
  | negate =>
      refine popInteger_idle.of_bind fun value => ?_
      split
      · exact push_idle _
      · exact raise_idle _ _

theorem binary_idle (operator : Binary) : Keeps Idle (binary operator) := by
  refine popScalar_idle.of_bind fun right => popScalar_idle.of_bind fun left => ?_
  refine Keeps.of_get.of_bind fun vm => ?_
  split
  · exact push_idle _
  · exact raise_idle _ _

theorem watcherMatched_idle (watcher : ℕ) : Keeps Idle (watcherMatched watcher) := by
  refine Keeps.of_get.of_bind fun vm => ?_
  split
  · exact Keeps.of_pure _
  · exact raise_idle _ _

theorem loadVariable_idle (index : ℕ) : Keeps Idle (loadVariable index) := by
  refine Keeps.of_get.of_bind fun vm => ?_
  split
  · exact panicked_idle
  · exact raise_idle _ _
  · exact push_idle _

theorem storeVariable_idle (index : ℕ) : Keeps Idle (storeVariable index) := by
  refine pop_idle.of_bind fun value => Keeps.of_get.of_bind fun vm => ?_
  refine Keeps.of_ite panicked_idle (Keeps.of_modify fun _ => ?_)
  exact ⟨rfl, rfl, rfl, rfl, rfl, rfl, rfl⟩

theorem pushArg_idle (name : String) : Keeps Idle (pushArg name) := by
  refine Keeps.of_get.of_bind fun vm => ?_
  split
  · exact panicked_idle
  · exact push_idle _

theorem pushPrompt_idle (name : String) : Keeps Idle (pushPrompt name) := by
  refine Keeps.of_get.of_bind fun vm => ?_
  split
  · exact panicked_idle
  · exact push_idle _

theorem integerToString_idle : Keeps Idle integerToString := by
  refine popInteger_idle.of_bind fun value => Keeps.of_get.of_bind fun vm => ?_
  exact Keeps.of_ite (raise_idle _ _) (push_idle _)

theorem matched_idle : Keeps Idle matched :=
  popWatcher_idle.of_bind fun _ => (watcherMatched_idle _).of_bind fun _ => push_idle _

theorem discard_idle {m : Exec α} (h : Keeps Idle m) : Keeps Idle (discard m) :=
  h.of_bind fun _ => Keeps.of_pure _

theorem shortCircuit_idle (branchOn : Bool) (target : ℕ) :
    Keeps Idle (shortCircuit branchOn target) :=
  peekBool_idle.of_bind fun _ => Keeps.of_ite (setPc_idle _) (discard_idle pop_idle)

/-- Every instruction but a call leaves the effects and the budgets alone. -/
theorem execute_idle (op : Op) (hcall : ∀ builtin, op ≠ .call builtin) (vm : Vm) :
    Ends (execute op) vm (fun result vm' => result = none ∧ Idle vm vm')
      (fun _ vm' => Idle vm vm') := by
  have hthen {m : Exec Unit} (h : Keeps Idle m) :
      Ends (m >>= fun _ => pure (none : Option Effect)) vm
        (fun result vm' => result = none ∧ Idle vm vm') (fun _ vm' => Idle vm vm') :=
    (h vm).bind (fun _ _ hidle => ⟨rfl, hidle⟩) fun _ _ hidle => hidle
  cases op with
  | push value => exact hthen (push_idle _)
  | arg name => exact hthen (pushArg_idle _)
  | prompt name => exact hthen (pushPrompt_idle _)
  | load index => exact hthen (loadVariable_idle _)
  | store index => exact hthen (storeVariable_idle _)
  | pop => exact hthen (discard_idle pop_idle)
  | matched => exact hthen matched_idle
  | integerToString => exact hthen integerToString_idle
  | unary operator => exact hthen (unary_idle _)
  | binary operator => exact hthen (binary_idle _)
  | jump target => exact hthen (setPc_idle _)
  | jumpIfFalse target =>
      refine (popBool_idle vm).bind (fun value vm' hidle => ?_) fun _ _ hidle => hidle
      cases value with
      | true => exact ⟨rfl, hidle⟩
      | false => exact ⟨rfl, IsTrans.trans _ _ _ hidle ⟨rfl, rfl, rfl, rfl, rfl, rfl, rfl⟩⟩
  | and target => exact hthen (shortCircuit_idle _ _)
  | or target => exact hthen (shortCircuit_idle _ _)
  | call builtin => exact absurd rfl (hcall builtin)

end

/-! ## Calls -/

/-- What an effect of this kind takes from the budgets. -/
structure Spends (kind : EffectKind) (vm vm' : Vm) : Prop where
  program : vm'.program = vm.program
  pending : vm'.pending = vm.pending
  failure : vm'.failure = vm.failure
  nextEffect : vm'.nextEffect = vm.nextEffect
  commandBytes : vm'.commandBytes = vm.commandBytes + kind.bytes
  watchers : vm'.watchers = vm.watchers ++ kind.flags
  instructions : vm'.instructions = vm.instructions
  allowed : kind.Allowed vm.program.limits
  bytesWithin : vm.commandBytes ≤ vm.program.limits.maxTotalCommandBytes →
    vm'.commandBytes ≤ vm.program.limits.maxTotalCommandBytes
  watchersWithin : vm.watchers.length ≤ vm.program.limits.maxWatchers →
    vm'.watchers.length ≤ vm.program.limits.maxWatchers

/-- An effect which takes nothing. -/
theorem Idle.spends {kind : EffectKind} {vm vm' : Vm} (h : Idle vm vm')
    (hbytes : kind.bytes = 0) (hflags : kind.flags = [])
    (hallowed : kind.Allowed vm.program.limits) : Spends kind vm vm' where
  program := h.program
  pending := h.pending
  failure := h.failure
  nextEffect := h.nextEffect
  commandBytes := by rw [h.commandBytes, hbytes, Nat.add_zero]
  watchers := by rw [h.watchers, hflags, List.append_nil]
  instructions := h.instructions
  allowed := hallowed
  bytesWithin := fun hwithin => h.commandBytes ▸ hwithin
  watchersWithin := fun hwithin => h.watchers ▸ hwithin

theorem checkedAdd_some {a b total : ℕ} (h : checkedAdd a b = some total) : total = a + b := by
  unfold checkedAdd at h
  by_cases hfits : a + b < wordLimit
  · rw [if_pos hfits] at h
    exact (Option.some.inj h).symm
  · rw [if_neg hfits] at h
    cases h

theorem validated_ends (text : String) (vm : Vm) :
    Ends (validated text) vm
      (fun _ vm' => vm' = vm ∧
        ∀ span, validateCommand text vm.program.limits.maxStringBytes span = .ok ())
      (fun _ vm' => vm' = vm) := by
  refine (ends_bind _).mpr (ends_get.mpr ?_)
  cases hvalid : validateCommand text vm.program.limits.maxStringBytes vm.lastSpan with
  | error error => exact rfl
  | ok u =>
      refine ⟨rfl, fun span => ?_⟩
      rw [validateCommand_ok_iff]
      exact validateCommand_ok_iff.mp hvalid

theorem popDuration_ends (vm : Vm) :
    Ends popDuration vm
      (fun duration vm' => Idle vm vm' ∧ duration ≤ vm.program.limits.maxDurationMs)
      (fun _ vm' => Idle vm vm') := by
  refine (popInteger_idle vm).bind (fun value vm' hidle => ?_) fun _ _ hidle => hidle
  refine (ends_bind _).mpr (ends_get.mpr ?_)
  by_cases hlimit : value.toInt < 0 ∨ (vm'.program.limits.maxDurationMs : ℤ) < value.toInt
  · rw [if_pos hlimit]
    exact hidle
  · rw [if_neg hlimit]
    refine ⟨hidle, ?_⟩
    rw [← hidle.program]
    push Not at hlimit
    omega

theorem callCommand_ends (verifyEcho : Bool) (vm : Vm) :
    Ends (callCommand verifyEcho) vm (fun kind vm' => Spends kind vm vm')
      (fun _ vm' => Idle vm vm') := by
  refine (popString_idle vm).bind (fun text vm₁ hidle => ?_) fun _ _ h => h
  refine (validated_ends text vm₁).bind (fun _ vm₂ hvalid => ?_) fun _ _ h => h ▸ hidle
  obtain ⟨rfl, hvalid⟩ := hvalid
  refine (ends_bind _).mpr (ends_get.mpr ?_)
  cases hbytes : checkedAdd vm₂.commandBytes text.utf8ByteSize with
  | none => exact hidle
  | some bytes =>
      have htotal := checkedAdd_some hbytes
      by_cases hover : vm₂.program.limits.maxTotalCommandBytes < bytes
      · simp only [if_pos hover]
        exact hidle
      · simp only [if_neg hover]
        have hcommand := hidle.commandBytes
        have hprogram := hidle.program
        refine ⟨hidle.program, hidle.pending, hidle.failure, hidle.nextEffect, ?_, ?_,
          hidle.instructions, ?_, fun _ => ?_, fun hwithin => ?_⟩
        · change bytes = vm.commandBytes + text.utf8ByteSize
          omega
        · change vm₂.watchers = vm.watchers ++ []
          rw [hidle.watchers, List.append_nil]
        · intro span
          rw [← hprogram]
          exact hvalid span
        · rw [← hprogram]
          exact not_lt.mp hover
        · exact hidle.watchers ▸ hwithin

theorem callWatch_ends (vm : Vm) :
    Ends callWatch vm (fun kind vm' => Spends kind vm vm') (fun _ vm' => Idle vm vm') := by
  refine (popString_idle vm).bind (fun pattern vm' hidle => ?_) fun _ _ h => h
  rw [ends_ite]
  split_ifs with hempty
  · exact hidle
  refine (ends_bind _).mpr (ends_get.mpr ?_)
  rw [ends_ite]
  split_ifs with hfull
  · exact hidle
  · refine ⟨hidle.program, hidle.pending, hidle.failure, hidle.nextEffect, hidle.commandBytes,
      ?_, hidle.instructions, ?_, fun hwithin => hidle.commandBytes ▸ hwithin, fun _ => ?_⟩
    · change vm'.watchers ++ [false] = vm.watchers ++ [false]
      rw [hidle.watchers]
    · intro h
      rw [h] at hempty
      exact hempty rfl
    · change (vm'.watchers ++ [false]).length ≤ vm.program.limits.maxWatchers
      have hprogram := hidle.program
      rw [hprogram] at hfull
      rw [List.length_append, List.length_singleton]
      omega

theorem callWait_ends (strict : Bool) (vm : Vm) :
    Ends (callWait strict) vm (fun kind vm' => Spends kind vm vm')
      (fun _ vm' => Idle vm vm') := by
  refine (popDuration_ends vm).bind (fun timeoutMs vm₁ h => ?_) fun _ _ h => h
  refine (popWatcher_idle vm₁).bind (fun watcher vm₂ hidle => ?_) fun _ _ hidle =>
    IsTrans.trans _ _ _ h.1 hidle
  exact Idle.spends (IsTrans.trans _ _ _ h.1 hidle) rfl rfl h.2

theorem callKind_ends (builtin : Builtin) (vm : Vm) :
    Ends (callKind builtin) vm (fun kind vm' => Spends kind vm vm')
      (fun _ vm' => Idle vm vm') := by
  cases builtin with
  | cmd => exact callCommand_ends true vm
  | cmdSendOnly => exact callCommand_ends false vm
  | watch => exact callWatch_ends vm
  | wait => exact callWait_ends false vm
  | expect => exact callWait_ends true vm
  | delay =>
      exact (popDuration_ends vm).bind (fun durationMs vm' h => h.1.spends rfl rfl h.2)
        fun _ _ h => h

/-- The budgets after a part of the program which may have failed. -/
structure Grows (vm vm' : Vm) : Prop where
  program : vm'.program = vm.program
  nextEffect : vm'.nextEffect = vm.nextEffect
  commandBytes : vm.commandBytes ≤ vm'.commandBytes
  watchers : vm.watchers <+: vm'.watchers
  bytesWithin : vm.commandBytes ≤ vm.program.limits.maxTotalCommandBytes →
    vm'.commandBytes ≤ vm.program.limits.maxTotalCommandBytes
  watchersWithin : vm.watchers.length ≤ vm.program.limits.maxWatchers →
    vm'.watchers.length ≤ vm.program.limits.maxWatchers
  instructionsWithin : vm.instructions ≤ vm.program.limits.maxInstructions →
    vm'.instructions ≤ vm.program.limits.maxInstructions
  pending : vm'.pending = vm.pending
  failure : vm'.failure = vm.failure

theorem Grows.trans {a b c : Vm} (h : Grows a b) (h' : Grows b c) : Grows a c where
  program := h'.program.trans h.program
  nextEffect := h'.nextEffect.trans h.nextEffect
  commandBytes := h.commandBytes.trans h'.commandBytes
  watchers := h.watchers.trans h'.watchers
  bytesWithin := fun hwithin => h.program ▸ h'.bytesWithin (h.program.symm ▸ h.bytesWithin hwithin)
  watchersWithin := fun hwithin =>
    h.program ▸ h'.watchersWithin (h.program.symm ▸ h.watchersWithin hwithin)
  instructionsWithin := fun hwithin =>
    h.program ▸ h'.instructionsWithin (h.program.symm ▸ h.instructionsWithin hwithin)
  pending := h'.pending.trans h.pending
  failure := h'.failure.trans h.failure

theorem Idle.grows {vm vm' : Vm} (h : Idle vm vm') : Grows vm vm' where
  program := h.program
  nextEffect := h.nextEffect
  commandBytes := h.commandBytes.ge
  watchers := by rw [h.watchers]
  bytesWithin := fun hwithin => h.commandBytes ▸ hwithin
  watchersWithin := fun hwithin => h.watchers ▸ hwithin
  instructionsWithin := fun hwithin => h.instructions ▸ hwithin
  pending := h.pending
  failure := h.failure

theorem Spends.grows {kind : EffectKind} {vm vm' : Vm} (h : Spends kind vm vm') :
    Grows vm vm' where
  program := h.program
  nextEffect := h.nextEffect
  commandBytes := by rw [h.commandBytes]; omega
  watchers := by rw [h.watchers]; exact List.prefix_append _ _
  bytesWithin := h.bytesWithin
  watchersWithin := h.watchersWithin
  instructionsWithin := fun hwithin => h.instructions ▸ hwithin
  pending := h.pending
  failure := h.failure

/-- An effect is handed out: it is pending, its id was the next one. -/
structure Hands (effect : Effect) (vm vm' : Vm) : Prop where
  program : vm'.program = vm.program
  pending : vm'.pending = some effect
  failure : vm'.failure = vm.failure
  id : effect.id = vm.nextEffect
  nextEffect : vm'.nextEffect = vm.nextEffect + 1
  commandBytes : vm.commandBytes + effect.kind.bytes ≤ vm'.commandBytes
  watchers : vm.watchers <+: vm'.watchers
  allowed : effect.kind.Allowed vm.program.limits
  bytesWithin : vm.commandBytes ≤ vm.program.limits.maxTotalCommandBytes →
    vm'.commandBytes ≤ vm.program.limits.maxTotalCommandBytes
  watchersWithin : vm.watchers.length ≤ vm.program.limits.maxWatchers →
    vm'.watchers.length ≤ vm.program.limits.maxWatchers
  instructionsWithin : vm.instructions ≤ vm.program.limits.maxInstructions →
    vm'.instructions ≤ vm.program.limits.maxInstructions

/-- What goes before a hand-out may be added to it. -/
theorem Grows.hands {effect : Effect} {a b c : Vm} (h : Grows a b) (h' : Hands effect b c) :
    Hands effect a c where
  program := h'.program.trans h.program
  pending := h'.pending
  failure := h'.failure.trans h.failure
  id := h'.id.trans h.nextEffect
  nextEffect := by rw [h'.nextEffect, h.nextEffect]
  commandBytes := by
    have := h.commandBytes
    have := h'.commandBytes
    omega
  watchers := h.watchers.trans h'.watchers
  allowed := h.program ▸ h'.allowed
  bytesWithin := fun hwithin => h.program ▸ h'.bytesWithin (h.program.symm ▸ h.bytesWithin hwithin)
  watchersWithin := fun hwithin =>
    h.program ▸ h'.watchersWithin (h.program.symm ▸ h.watchersWithin hwithin)
  instructionsWithin := fun hwithin =>
    h.program ▸ h'.instructionsWithin (h.program.symm ▸ h.instructionsWithin hwithin)

theorem call_ends (builtin : Builtin) (vm : Vm) :
    Ends (execute (.call builtin)) vm
      (fun result vm' => ∃ effect, result = some effect ∧ Hands effect vm vm')
      (fun _ vm' => Grows vm vm') := by
  refine (ends_bind _).mpr ?_
  refine (callKind_ends builtin vm).bind (fun kind vm' hspends => ?_) fun _ _ h => h.grows
  refine (ends_bind _).mpr (ends_get.mpr ?_)
  cases hnext : checkedAdd vm'.nextEffect 1 with
  | none => exact hspends.grows
  | some next =>
      have hsucc := checkedAdd_some hnext
      refine ⟨⟨vm'.nextEffect, vm'.lastSpan, kind⟩, rfl, ?_⟩
      refine ⟨hspends.program, rfl, hspends.failure, hspends.nextEffect, ?_, ?_,
        hspends.grows.watchers, hspends.allowed, hspends.bytesWithin, hspends.watchersWithin,
        hspends.grows.instructionsWithin⟩
      · change next = vm.nextEffect + 1
        rw [hsucc, hspends.nextEffect]
      · exact hspends.commandBytes.ge

/-! ## A slice -/

/-- What a slice which ends in `result` has done. -/
def Advances (vm : Vm) (result : Option Effect) (vm' : Vm) : Prop :=
  match result with
  | some effect => Hands effect vm vm'
  | none => Grows vm vm'

theorem Grows.advances {result : Option Effect} {a b c : Vm} (h : Grows a b)
    (h' : Advances b result c) : Advances a result c := by
  cases result with
  | none => exact h.trans h'
  | some effect => exact h.hands h'

theorem execute_ends (op : Op) (vm : Vm) :
    Ends (execute op) vm (fun result vm' => Advances vm result vm')
      (fun _ vm' => Grows vm vm') := by
  by_cases hcall : ∃ builtin, op = .call builtin
  · obtain ⟨builtin, rfl⟩ := hcall
    refine (call_ends builtin vm).mono (fun result vm' h => ?_) fun _ _ h => h
    obtain ⟨effect, rfl, hhands⟩ := h
    exact hhands
  · push Not at hcall
    refine (execute_idle op hcall vm).mono (fun result vm' h => ?_) fun _ _ h => h.grows
    obtain ⟨rfl, hidle⟩ := h
    exact hidle.grows

theorem runInstruction_ends (instruction : Instruction) (vm : Vm) :
    Ends (runInstruction instruction) vm (fun result vm' => Advances vm result vm')
      (fun _ vm' => Grows vm vm') := by
  have hspan : Grows vm { vm with lastSpan := instruction.span } :=
    Idle.grows ⟨rfl, rfl, rfl, rfl, rfl, rfl, rfl⟩
  refine (ends_bind _).mpr (ends_modify _ |>.mpr ?_)
  refine (ends_bind _).mpr (ends_get.mpr ?_)
  rw [ends_ite]
  split_ifs with hbudget
  · exact hspan
  refine (ends_bind _).mpr (ends_modify _ |>.mpr ?_)
  have hcounted : Grows vm
      { vm with
        lastSpan := instruction.span
        instructions := vm.instructions + 1
        pc := vm.pc + 1 } := by
    refine hspan.trans ⟨rfl, rfl, le_refl _, List.prefix_refl _, id, id, fun _ => ?_, rfl, rfl⟩
    exact Nat.lt_of_not_le hbudget
  refine (execute_ends instruction.op _).bind (fun result vm' h => ?_) fun _ _ h =>
    hcounted.trans h
  cases result with
  | some effect => exact hcounted.hands h
  | none =>
      refine (ends_bind _).mpr (ends_get.mpr ?_)
      rw [ends_ite]
      split_ifs
      · exact hcounted.trans h
      · exact hcounted.trans h

/-- The effect of a step. -/
def handed : Step → Option Effect
  | .effect effect => some effect
  | _ => none

theorem advanceInner_ends (slice : ℕ) (vm : Vm) :
    Ends (advanceInner slice) vm (fun step vm' => Advances vm (handed step) vm')
      (fun _ vm' => Grows vm vm') := by
  have hrefl (vm : Vm) : Grows vm vm := (Std.Refl.refl vm : Idle vm vm).grows
  induction slice generalizing vm with
  | zero => exact hrefl vm
  | succ slice ih =>
      refine (ends_bind _).mpr (ends_get.mpr ?_)
      cases hcode : vm.program.code[vm.pc]? with
      | none =>
          simp only
          rw [ends_ite]
          split_ifs
          · exact hrefl vm
          · exact hrefl vm
      | some instruction =>
          refine (runInstruction_ends instruction vm).bind (fun result vm' h => ?_)
            fun _ _ h => h
          cases result with
          | some effect => exact h
          | none =>
              refine (ih vm').mono (fun step vm'' h' => ?_) fun _ _ h' => h.trans h'
              exact Grows.advances h h'

/-! ## Entry points -/

/-- A failure is stored. -/
theorem recorded_error {α : Type} {method : Exec α} {vm vm' : Vm} {error : Error}
    (h : recorded method vm = (.error (.error error), vm')) : vm'.failure = some error := by
  unfold recorded at h
  rcases hrun : method.run.run vm with ⟨(error' | panic) | a, vm''⟩
  · rw [hrun] at h
    cases h
    rfl
  · rw [hrun] at h
    cases h
  · rw [hrun] at h
    cases h

/-- What a method does to the machine, besides storing its error. -/
theorem recorded_ends {α : Type} {method : Exec α} {vm : Vm} {Q : α → Vm → Prop}
    {E : Vm → Prop} (h : Ends method vm Q fun _ vm' => E vm') :
    (∃ a, (recorded method vm).1 = .ok a ∧ Q a (recorded method vm).2) ∨
      (∃ error vm', E vm' ∧ (recorded method vm).1 = .error (.error error) ∧
        (recorded method vm).2 = { vm' with failure := some error }) ∨
      ((recorded method vm).1 = .error .panic ∧ E (recorded method vm).2) := by
  unfold Ends at h
  unfold recorded
  rcases hrun : method.run.run vm with ⟨(error | panic) | a, vm'⟩
  · rw [hrun] at h
    exact .inr (.inl ⟨error, vm', h, rfl, rfl⟩)
  · rw [hrun] at h
    exact .inr (.inr ⟨rfl, h⟩)
  · rw [hrun] at h
    exact .inl ⟨a, rfl, h⟩

/-- A failed machine answers every call with its failure and does nothing. -/
theorem serve_failed {vm : Vm} {error : Error} (h : vm.failure = some error) (call : Call) :
    vm.serve call = (.error (.error error), vm) := by
  cases call with
  | advance => simp [serve, advance, h, Except.map]
  | resume effectId result => simp [serve, resume, h, Except.map]
  | failEffect effectId message => simp [serve, failEffect, h, Except.map]
  | interrupt message => simp [serve, interrupt, h, Except.map]
  | markMatched watcher => simp [serve, markMatched, h, Except.map]

theorem after_failed {vm : Vm} {error : Error} (h : vm.failure = some error)
    (calls : List Call) : vm.after calls = vm := by
  induction calls with
  | nil => rfl
  | cons call calls ih => rw [after_cons, serve_failed h, ih]

theorem issued_failed {vm : Vm} {error : Error} (h : vm.failure = some error)
    (calls : List Call) : vm.issued calls = [] := by
  induction calls with
  | nil => rfl
  | cons call calls ih =>
      have hnone : vm.issuedBy call = none := by
        unfold issuedBy
        rw [serve_failed h]
        cases vm.pending <;> rfl
      simp only [issued, hnone, Option.toList_none, List.nil_append]
      rw [serve_failed h, ih]

/-- What an acknowledgement or a match may change. -/
structure Settles (vm vm' : Vm) : Prop where
  program : vm'.program = vm.program
  nextEffect : vm'.nextEffect = vm.nextEffect
  commandBytes : vm'.commandBytes = vm.commandBytes
  instructions : vm'.instructions = vm.instructions
  watchers : vm'.watchers.length = vm.watchers.length
  flags : ∀ watcher : ℕ, vm.watchers[watcher]? = some true → vm'.watchers[watcher]? = some true
  pending : vm'.pending = vm.pending ∨ vm'.pending = none

theorem Idle.settles {vm vm' : Vm} (h : Idle vm vm') : Settles vm vm' where
  program := h.program
  nextEffect := h.nextEffect
  commandBytes := h.commandBytes
  instructions := h.instructions
  watchers := by rw [h.watchers]
  flags := fun _ hflag => h.watchers ▸ hflag
  pending := .inl h.pending

theorem set_true_keeps (flags : List Bool) (index watcher : ℕ)
    (h : flags[watcher]? = some true) : (flags.set index true)[watcher]? = some true := by
  rw [List.getElem?_set]
  split_ifs with hsame hbound
  · rfl
  · subst hsame
    rw [List.getElem?_eq_none (by omega)] at h
    cases h
  · exact h

theorem settles_match (vm : Vm) (watcher : ℕ) :
    Settles vm { vm with watchers := vm.watchers.set watcher true } where
  program := rfl
  nextEffect := rfl
  commandBytes := rfl
  instructions := rfl
  watchers := List.length_set
  flags := fun other => set_true_keeps vm.watchers watcher other
  pending := .inl rfl

theorem Settles.trans_idle {a b c : Vm} (h : Settles a b) (h' : Idle b c) : Settles a c where
  program := h'.program.trans h.program
  nextEffect := h'.nextEffect.trans h.nextEffect
  commandBytes := h'.commandBytes.trans h.commandBytes
  instructions := h'.instructions.trans h.instructions
  watchers := by rw [h'.watchers, h.watchers]
  flags := fun watcher hflag => h'.watchers ▸ h.flags watcher hflag
  pending := h'.pending ▸ h.pending

theorem resumeWait_ends (watcher : ℕ) (strict value : Bool) (vm : Vm) :
    Ends (resumeWait watcher strict value) vm
      (fun _ vm' => (Settles vm vm' ∧ vm'.pending = vm.pending) ∧ ¬ (strict ∧ value = false))
      (fun _ vm' => Settles vm vm' ∧ vm'.pending = vm.pending) := by
  have hidle (vm : Vm) : Settles vm vm ∧ vm.pending = vm.pending :=
    ⟨(Std.Refl.refl vm : Idle vm vm).settles, rfl⟩
  unfold resumeWait
  rw [ends_bind, ends_discard]
  refine ((watcherMatched_idle watcher) vm).mono (fun _ vm₁ h₁ => ?_) fun _ _ h =>
    ⟨h.settles, h.pending⟩
  cases value with
  | true =>
      simp only [if_true]
      have hset := settles_match vm₁ watcher
      have hboth : Settles vm { vm₁ with watchers := vm₁.watchers.set watcher true } := by
        refine ⟨h₁.program, h₁.nextEffect, h₁.commandBytes, h₁.instructions, ?_, ?_,
          .inl h₁.pending⟩
        · exact hset.watchers.trans (by rw [h₁.watchers])
        · intro other hflag
          exact hset.flags other (h₁.watchers ▸ hflag)
      cases strict with
      | true => exact ⟨⟨hboth, h₁.pending⟩, by simp⟩
      | false =>
          refine ⟨⟨hboth.trans_idle ⟨rfl, rfl, rfl, rfl, rfl, rfl, rfl⟩, h₁.pending⟩, by simp⟩
  | false =>
      cases strict with
      | true => exact ⟨h₁.settles, h₁.pending⟩
      | false =>
          exact ⟨⟨h₁.settles.trans_idle ⟨rfl, rfl, rfl, rfl, rfl, rfl, rfl⟩, h₁.pending⟩, by simp⟩

theorem acknowledge_ends (kind : EffectKind) (result : EffectResult) (vm : Vm) :
    Ends (acknowledge kind result) vm
      (fun _ vm' => Settles vm vm' ∧ kind.accepts result ∧
        ∀ watcher timeoutMs, kind = .wait watcher timeoutMs true → result ≠ .matched false)
      (fun _ vm' => Settles vm vm' ∧ vm'.pending = vm.pending) := by
  have hrefl : Settles vm vm := (Std.Refl.refl vm : Idle vm vm).settles
  cases kind with
  | command text verifyEcho =>
      cases result with
      | done => exact ⟨hrefl, rfl, by simp⟩
      | matched value => exact ⟨hrefl, rfl⟩
  | delay durationMs =>
      cases result with
      | done => exact ⟨hrefl, rfl, by simp⟩
      | matched value => exact ⟨hrefl, rfl⟩
  | watch watcher pattern =>
      cases result with
      | done =>
          refine (push_idle _ vm).mono (fun _ vm' h => ?_) fun _ _ h => ⟨h.settles, h.pending⟩
          exact ⟨h.settles, rfl, by simp⟩
      | matched value => exact ⟨hrefl, rfl⟩
  | wait watcher timeoutMs strict =>
      cases result with
      | done => exact ⟨hrefl, rfl⟩
      | matched value =>
          refine (resumeWait_ends watcher strict value vm).mono (fun _ vm' h => ?_) fun _ _ h => h
          refine ⟨h.1.1, rfl, ?_⟩
          intro other timeoutMs' hkind hmatched
          cases hkind
          cases hmatched
          exact h.2 ⟨rfl, rfl⟩

/-- A `resume` succeeds only as the acknowledgement of the pending effect, and not
for an expectation which was not met. -/
theorem resumeInner_ends (effectId : ℕ) (result : EffectResult) (vm : Vm) :
    Ends (resumeInner effectId result) vm
      (fun _ vm' => Settles vm vm' ∧ ∃ effect, vm.pending = some effect ∧
        effect.id = effectId ∧ effect.kind.accepts result ∧
        ∀ watcher timeoutMs, effect.kind = .wait watcher timeoutMs true →
          result ≠ .matched false)
      (fun _ vm' => Settles vm vm' ∧ vm'.pending = vm.pending) := by
  have hrefl : Settles vm vm := (Std.Refl.refl vm : Idle vm vm).settles
  refine (ends_bind _).mpr (ends_get.mpr ?_)
  rcases hpending : vm.pending with _ | effect
  · exact ⟨hrefl, hpending⟩
  simp only
  rw [ends_ite]
  split_ifs with hid
  · exact ⟨hrefl, hpending⟩
  refine (acknowledge_ends effect.kind result vm).bind (fun _ vm' h => ?_) fun _ _ h =>
    ⟨h.1, h.2.trans hpending⟩
  obtain ⟨hsettles, haccepts, hmet⟩ := h
  refine ⟨?_, effect, rfl, not_not.mp hid, haccepts, hmet⟩
  exact ⟨hsettles.program, hsettles.nextEffect, hsettles.commandBytes, hsettles.instructions,
    hsettles.watchers, hsettles.flags, .inr rfl⟩

/-! ## Runs -/

/-- The invariant of a run, with the effects which it has handed out. -/
structure Sound (limits : Limits) (effects : List Effect) (vm : Vm) : Prop where
  sameLimits : vm.program.limits = limits
  ids : effects.map Effect.id = List.range' 1 effects.length
  next : vm.nextEffect = effects.length + 1
  spent : (effects.map fun effect => effect.kind.bytes).sum ≤ vm.commandBytes
  bytes : vm.commandBytes ≤ limits.maxTotalCommandBytes
  watchers : vm.watchers.length ≤ limits.maxWatchers
  instructions : vm.instructions ≤ limits.maxInstructions
  allowed : ∀ effect ∈ effects, effect.kind.Allowed limits
  pending : ∀ effect, vm.pending = some effect → effects.getLast? = some effect

section
variable {limits : Limits} {effects : List Effect} {vm vm' : Vm}

theorem Sound.failing (h : Sound limits effects vm) (failure : Option Error) :
    Sound limits effects { vm with failure := failure } :=
  ⟨h.sameLimits, h.ids, h.next, h.spent, h.bytes, h.watchers, h.instructions, h.allowed, h.pending⟩

theorem Sound.grows (h : Sound limits effects vm) (hgrows : Grows vm vm') :
    Sound limits effects vm' where
  sameLimits := by rw [hgrows.program, h.sameLimits]
  ids := h.ids
  next := hgrows.nextEffect.trans h.next
  spent := h.spent.trans hgrows.commandBytes
  bytes := by simpa [h.sameLimits] using hgrows.bytesWithin (by simpa [h.sameLimits] using h.bytes)
  watchers := by
    simpa [h.sameLimits] using hgrows.watchersWithin (by simpa [h.sameLimits] using h.watchers)
  instructions := by
    simpa [h.sameLimits] using hgrows.instructionsWithin (by simpa [h.sameLimits] using h.instructions)
  allowed := h.allowed
  pending := fun effect hpending => h.pending effect (hgrows.pending ▸ hpending)

theorem Sound.settles (h : Sound limits effects vm) (hsettles : Settles vm vm') :
    Sound limits effects vm' where
  sameLimits := by rw [hsettles.program, h.sameLimits]
  ids := h.ids
  next := hsettles.nextEffect.trans h.next
  spent := hsettles.commandBytes ▸ h.spent
  bytes := hsettles.commandBytes ▸ h.bytes
  watchers := hsettles.watchers ▸ h.watchers
  instructions := hsettles.instructions ▸ h.instructions
  allowed := h.allowed
  pending := by
    intro effect hpending
    rcases hsettles.pending with hsame | hnone
    · exact h.pending effect (hsame ▸ hpending)
    · rw [hnone] at hpending
      cases hpending

theorem Sound.hands {effect : Effect} (h : Sound limits effects vm)
    (hhands : Hands effect vm vm') : Sound limits (effects ++ [effect]) vm' where
  sameLimits := by rw [hhands.program, h.sameLimits]
  ids := by
    rw [List.map_append, h.ids, List.length_append, List.length_singleton, List.range'_concat]
    have hid := hhands.id
    have hnext := h.next
    simp only [List.map_cons, List.map_nil]
    congr 2
    omega
  next := by
    rw [hhands.nextEffect, h.next, List.length_append, List.length_singleton]
  spent := by
    have hspent := h.spent
    have hbytes := hhands.commandBytes
    simp only [List.map_append, List.map_cons, List.map_nil, List.sum_append, List.sum_cons,
      List.sum_nil]
    omega
  bytes := by simpa [h.sameLimits] using hhands.bytesWithin (by simpa [h.sameLimits] using h.bytes)
  watchers := by
    simpa [h.sameLimits] using hhands.watchersWithin (by simpa [h.sameLimits] using h.watchers)
  instructions := by
    simpa [h.sameLimits] using hhands.instructionsWithin (by simpa [h.sameLimits] using h.instructions)
  allowed := by
    intro other hmem
    rcases List.mem_append.mp hmem with hold | hnew
    · exact h.allowed other hold
    · rw [List.mem_singleton.mp hnew, ← h.sameLimits]
      exact hhands.allowed
  pending := by
    intro other hpending
    rw [hhands.pending] at hpending
    cases hpending
    exact List.getLast?_concat

/-- An advance with nothing pending. -/
theorem Sound.advance (h : Sound limits effects vm) (hfailure : vm.failure = none)
    (hpending : vm.pending = none) :
    Sound limits (effects ++ (vm.issuedBy .advance).toList) (vm.serve .advance).2 := by
  have hadvance : vm.advance =
      recorded (advanceInner vm.program.limits.instructionsPerYield) vm := by
    unfold Vm.advance
    rw [hfailure, hpending]
  have hends := recorded_ends (advanceInner_ends vm.program.limits.instructionsPerYield vm)
  rw [← hadvance] at hends
  unfold issuedBy
  rw [hpending]
  rcases hends with ⟨step, hok, hstep⟩ | ⟨error, vm₁, hgrows, hresult, hstate⟩ |
    ⟨hresult, hgrows⟩
  · simp only [serve, hok, Except.map]
    cases step with
    | effect effect => exact h.hands hstep
    | yielded => simpa using h.grows hstep
    | complete => simpa using h.grows hstep
  · simp only [serve, hresult, hstate, Except.map, Option.toList_none, List.append_nil]
    exact (h.grows hgrows).failing _
  · simp only [serve, hresult, Except.map, Option.toList_none, List.append_nil]
    exact h.grows hgrows

theorem Sound.recorded {α : Type} {method : Exec α} (h : Sound limits effects vm)
    (hends : Ends method vm (fun _ vm' => Settles vm vm') fun _ vm' => Settles vm vm') :
    Sound limits effects (recorded method vm).2 := by
  rcases recorded_ends hends with ⟨a, -, hstate⟩ | ⟨error, vm₁, hsettles, -, hstate⟩ |
    ⟨-, hsettles⟩
  · exact h.settles hstate
  · rw [hstate]
    exact (h.settles hsettles).failing _
  · exact h.settles hsettles

theorem raise_settles {α : Type} (code message : String) (vm : Vm) :
    Ends (raise code message : Exec α) vm (fun _ vm' => Settles vm vm')
      fun _ vm' => Settles vm vm' :=
  (raise_idle code message vm).mono (fun _ _ h => h.settles) fun _ _ h => h.settles

/-- One call keeps the invariant. -/
theorem Sound.serve (h : Sound limits effects vm) (call : Call) :
    Sound limits (effects ++ (vm.issuedBy call).toList) (vm.serve call).2 := by
  cases hfailure : vm.failure with
  | some error =>
      have hnone : vm.issuedBy call = none := by
        unfold issuedBy
        rw [serve_failed hfailure]
        cases vm.pending <;> rfl
      rw [hnone, serve_failed hfailure, Option.toList_none, List.append_nil]
      exact h
  | none =>
      have hquiet (hnone : vm.issuedBy call = none) (hsound : Sound limits effects
          (vm.serve call).2) : Sound limits (effects ++ (vm.issuedBy call).toList)
            (vm.serve call).2 := by
        rw [hnone, Option.toList_none, List.append_nil]
        exact hsound
      have hack {α : Type} (x : Except Fault α) (e : Effect) :
          x.map (fun _ => (none : Option Step)) ≠ .ok (some (.effect e)) := by
        cases x <;> simp [Except.map]
      cases call with
      | advance =>
          cases hpending : vm.pending with
          | none => exact h.advance hfailure hpending
          | some effect =>
              refine hquiet (by simp [issuedBy, hpending]) ?_
              simpa [Vm.serve, Vm.advance, hfailure, hpending] using h
      | resume effectId result =>
          refine hquiet ?_ ?_
          · unfold issuedBy
            split
            · exact absurd ‹_› (hack _ _)
            · rfl
          · simp only [Vm.serve, Vm.resume, hfailure]
            exact h.recorded ((resumeInner_ends effectId result vm).mono (fun _ _ h => h.1)
              fun _ _ h => h.1)
      | failEffect effectId message =>
          refine hquiet ?_ ?_
          · unfold issuedBy
            split
            · exact absurd ‹_› (hack _ _)
            · rfl
          · simp only [Vm.serve, Vm.failEffect, hfailure]
            split_ifs
            · exact h.recorded (raise_settles _ _ vm)
            · exact h.recorded (raise_settles _ _ vm)
      | interrupt message =>
          refine hquiet ?_ ?_
          · unfold issuedBy
            split
            · exact absurd ‹_› (hack _ _)
            · rfl
          · simp only [Vm.serve, Vm.interrupt, hfailure]
            exact h.recorded (raise_settles _ _ vm)
      | markMatched watcher =>
          refine hquiet ?_ ?_
          · unfold issuedBy
            split
            · exact absurd ‹_› (hack _ _)
            · rfl
          · simp only [Vm.serve, Vm.markMatched, hfailure]
            split_ifs
            · exact hfailure ▸ h.settles (settles_match vm watcher)
            · exact h

theorem Sound.run (h : Sound limits effects vm) (calls : List Call) :
    Sound limits (effects ++ vm.issued calls) (vm.after calls) := by
  induction calls generalizing effects vm with
  | nil => simpa [issued] using h
  | cons call calls ih =>
      rw [after_cons, issued, ← List.append_assoc]
      exact ih (h.serve call)

/-- A failure which a call reports is stored, unless the call is a match for a
watcher which does not exist. -/
theorem serve_error {call : Call} {error : Error} (hmatch : ∀ watcher, call ≠ .markMatched watcher)
    (h : (vm.serve call).1 = .error (.error error)) : (vm.serve call).2.failure = some error := by
  have hmap {α : Type} {method : Exec α} {f : α → Option Step}
      (h : (recorded method vm).1.map f = .error (.error error)) :
      (recorded method vm).2.failure = some error := by
    rcases hresult : recorded method vm with ⟨fault | a, vm'⟩
    · rw [hresult] at h
      cases h
      exact recorded_error hresult
    · rw [hresult] at h
      cases h
  cases hfailure : vm.failure with
  | some stored =>
      rw [serve_failed hfailure] at h ⊢
      cases h
      exact hfailure
  | none =>
      cases call with
      | advance =>
          cases hpending : vm.pending with
          | some effect => simp [Vm.serve, Vm.advance, hfailure, hpending, Except.map] at h
          | none =>
              simp only [Vm.serve, Vm.advance, hfailure, hpending] at h ⊢
              exact hmap h
      | resume effectId result =>
          simp only [Vm.serve, Vm.resume, hfailure] at h ⊢
          exact hmap h
      | failEffect effectId message =>
          simp only [Vm.serve, Vm.failEffect, hfailure] at h ⊢
          split_ifs at h ⊢
          · exact hmap h
          · exact hmap h
      | interrupt message =>
          simp only [Vm.serve, Vm.interrupt, hfailure] at h ⊢
          exact hmap h
      | markMatched watcher => exact absurd rfl (hmatch watcher)

/-- A pending effect stays pending under every call but its acknowledgement. -/
theorem serve_pending {call : Call} {effect : Effect} (hpending : vm.pending = some effect)
    (hfailure : vm.failure = none) (hother : ¬ call.Acknowledges effect) :
    (vm.serve call).2.pending = some effect := by
  have hraise (code message : String) :
      (recorded (raise code message : Exec Unit) vm).2.pending = some effect := by
    rw [← hpending]
    rfl
  cases call with
  | advance => simp [Vm.serve, Vm.advance, hfailure, hpending]
  | failEffect effectId message =>
      simp only [Vm.serve, Vm.failEffect, hfailure]
      split_ifs
      · exact hraise _ _
      · exact hraise _ _
  | interrupt message =>
      simp only [Vm.serve, Vm.interrupt, hfailure]
      exact hraise _ _
  | markMatched watcher =>
      simp only [Vm.serve, Vm.markMatched, hfailure]
      split_ifs
      · exact hpending
      · exact hpending
  | resume effectId result =>
      simp only [Vm.serve, Vm.resume, hfailure]
      rcases recorded_ends (resumeInner_ends effectId result vm) with
        ⟨a, -, -, other, hsame, hid, haccepts, -⟩ | ⟨error, vm', hsettles, -, hstate⟩ |
        ⟨-, hsettles⟩
      · rw [hpending] at hsame
        cases hsame
        exact absurd ⟨result, by rw [hid], haccepts⟩ hother
      · rw [hstate]
        exact hsettles.2.trans hpending
      · exact hsettles.2.trans hpending

/-- An expectation which was not met fails the machine. -/
theorem resume_timeout {effect : Effect} {watcher timeoutMs : ℕ}
    (hpending : vm.pending = some effect) (hkind : effect.kind = .wait watcher timeoutMs true) :
    ∃ fault, (vm.resume effect.id (.matched false)).1 = .error fault := by
  cases hfailure : vm.failure with
  | some error => exact ⟨.error error, by simp [Vm.resume, hfailure]⟩
  | none =>
      simp only [Vm.resume, hfailure]
      rcases recorded_ends (resumeInner_ends effect.id (.matched false) vm) with
        ⟨a, -, -, other, hsame, -, -, hmet⟩ | ⟨error, vm', -, hresult, -⟩ | ⟨hresult, -⟩
      · rw [hpending] at hsame
        cases hsame
        exact absurd rfl (hmet watcher timeoutMs hkind)
      · exact ⟨_, hresult⟩
      · exact ⟨_, hresult⟩

theorem serve_flags (call : Call) {watcher : ℕ} (h : vm.watchers[watcher]? = some true) :
    (vm.serve call).2.watchers[watcher]? = some true := by
  have hgrown {vm' : Vm} (hgrows : vm.watchers <+: vm'.watchers) :
      vm'.watchers[watcher]? = some true := by
    obtain ⟨more, hmore⟩ := hgrows
    rw [← hmore, List.getElem?_append_left]
    · exact h
    · exact (List.getElem?_eq_some_iff.mp h).1
  cases hfailure : vm.failure with
  | some error =>
      rw [serve_failed hfailure]
      exact h
  | none =>
      cases call with
      | advance =>
          cases hpending : vm.pending with
          | some effect => simpa [Vm.serve, Vm.advance, hfailure, hpending] using h
          | none =>
              simp only [Vm.serve, Vm.advance, hfailure, hpending]
              rcases recorded_ends (advanceInner_ends _ vm) with
                ⟨step, -, hstep⟩ | ⟨error, vm', hgrows, -, hstate⟩ | ⟨-, hgrows⟩
              · cases hhanded : handed step with
                | none =>
                    rw [hhanded] at hstep
                    exact hgrown (Grows.watchers hstep)
                | some effect =>
                    rw [hhanded] at hstep
                    exact hgrown (Hands.watchers hstep)
              · rw [hstate]
                exact hgrown hgrows.watchers
              · exact hgrown hgrows.watchers
      | resume effectId result =>
          simp only [Vm.serve, Vm.resume, hfailure]
          rcases recorded_ends (resumeInner_ends effectId result vm) with
            ⟨a, -, hsettles, -⟩ | ⟨error, vm', hsettles, -, hstate⟩ | ⟨-, hsettles⟩
          · exact hsettles.flags watcher h
          · rw [hstate]
            exact hsettles.1.flags watcher h
          · exact hsettles.1.flags watcher h
      | failEffect effectId message =>
          simp only [Vm.serve, Vm.failEffect, hfailure]
          split_ifs
          · exact h
          · exact h
      | interrupt message =>
          simp only [Vm.serve, Vm.interrupt, hfailure]
          exact h
      | markMatched other =>
          simp only [Vm.serve, Vm.markMatched, hfailure]
          split_ifs
          · exact set_true_keeps _ _ _ h
          · exact h

theorem after_flags (calls : List Call) {watcher : ℕ} (h : vm.watchers[watcher]? = some true) :
    (vm.after calls).watchers[watcher]? = some true := by
  induction calls generalizing vm with
  | nil => exact h
  | cons call calls ih => exact ih (serve_flags call h)

end

/-- The effect protocol and the budgets, over every run from a machine. -/
structure KeepsProtocol (limits : Limits) (vm : Vm) : Prop where
  ids : ∀ calls, (vm.issued calls).map Effect.id = List.range' 1 (vm.issued calls).length
  pendingIsLast : ∀ calls effect, (vm.after calls).pending = some effect →
    (vm.issued calls).getLast? = some effect
  pendingAgain : ∀ calls effect, (vm.after calls).pending = some effect →
    (vm.after calls).failure = none →
      (vm.after calls).advance = (.ok (.effect effect), vm.after calls) ∧
        ∀ call : Call, ¬ call.Acknowledges effect →
          ((vm.after calls).serve call).2.pending = some effect
  failedForGood : ∀ calls (call : Call) error, (∀ watcher, call ≠ .markMatched watcher) →
    ((vm.after calls).serve call).1 = .error (.error error) → ∀ later,
      ((vm.after (calls ++ call :: later)).advance).1 = .error (.error error) ∧
        (∀ effectId result,
          ((vm.after (calls ++ call :: later)).resume effectId result).1 =
            .error (.error error)) ∧
        vm.issued (calls ++ call :: later) = vm.issued calls
  timeoutFails : ∀ calls effect watcher timeoutMs, (vm.after calls).pending = some effect →
    effect.kind = .wait watcher timeoutMs true →
      ∃ fault, ((vm.after calls).resume effect.id (.matched false)).1 = .error fault
  commandBytes : ∀ calls,
    ((vm.issued calls).map fun effect => effect.kind.bytes).sum ≤ limits.maxTotalCommandBytes
  watchers : ∀ calls, (vm.after calls).watchers.length ≤ limits.maxWatchers
  instructions : ∀ calls, (vm.after calls).instructions ≤ limits.maxInstructions
  allowed : ∀ calls, ∀ effect ∈ vm.issued calls, effect.kind.Allowed limits
  flagsStay : ∀ calls later (watcher : ℕ), (vm.after calls).watchers[watcher]? = some true →
    (vm.after (calls ++ later)).watchers[watcher]? = some true

theorem issued_of_error {vm : Vm} {call : Call} {fault : Fault}
    (h : (vm.serve call).1 = .error fault) : vm.issuedBy call = none := by
  unfold issuedBy
  rw [h]
  cases vm.pending <;> rfl

theorem Sound.keepsProtocol {limits : Limits} {vm : Vm} (h : Sound limits [] vm) :
    KeepsProtocol limits vm := by
  have hrun (calls : List Call) : Sound limits (vm.issued calls) (vm.after calls) := by
    simpa using h.run calls
  refine {
    ids := fun calls => (hrun calls).ids
    pendingIsLast := fun calls => (hrun calls).pending
    pendingAgain := fun calls effect hpending hfailure =>
      ⟨?_, fun call hother => serve_pending hpending hfailure hother⟩
    failedForGood := fun calls call error hmatch herror later => ?_
    timeoutFails := fun calls effect watcher timeoutMs hpending hkind =>
      resume_timeout hpending hkind
    commandBytes := fun calls => (hrun calls).spent.trans (hrun calls).bytes
    watchers := fun calls => (hrun calls).watchers
    instructions := fun calls => (hrun calls).instructions
    allowed := fun calls => (hrun calls).allowed
    flagsStay := fun calls later watcher hflag => ?_ }
  · unfold Vm.advance
    rw [hfailure, hpending]
  · have hstored := serve_error hmatch herror
    have hafter : vm.after (calls ++ call :: later) = ((vm.after calls).serve call).2 := by
      rw [after_append, after_cons, after_failed hstored]
    refine ⟨?_, fun effectId result => ?_, ?_⟩
    · rw [hafter]
      simp [Vm.advance, hstored]
    · rw [hafter]
      simp [Vm.resume, hstored]
    · rw [issued_append, issued, issued_of_error herror, issued_failed hstored]
      simp
  · rw [after_append]
    exact after_flags later hflag

end Vm

/-- A machine which has just been started. -/
theorem Program.start_sound {program : Program} {args : NameMap Value}
    {prompts : NameMap String} {vm : Vm} (h : program.start args prompts = .ok vm) :
    Vm.Sound program.limits [] vm := by
  obtain ⟨_, -, h⟩ := Except.exists_of_bind_ok h
  obtain ⟨_, -, h⟩ := Except.exists_of_bind_ok h
  obtain ⟨_, -, h⟩ := Except.exists_of_bind_ok h
  cases h
  exact ⟨rfl, rfl, rfl, le_refl _, Nat.zero_le _, Nat.zero_le _, Nat.zero_le _,
    fun _ hmem => (List.not_mem_nil hmem).elim, fun _ hpending => nomatch hpending⟩

theorem compile_limits {source : String} {parameters : NameMap ValueType} {limits : Limits}
    {program : Program} (h : compile source parameters limits = .ok program) :
    program.limits = limits := by
  unfold compile compileWith at h
  obtain ⟨_, -, h⟩ := Except.exists_of_bind_ok h
  obtain ⟨script, -, h⟩ := Except.exists_of_bind_ok h
  obtain ⟨c, -, h⟩ := Except.exists_of_bind_ok h
  cases h
  rfl

/-- The machine of a script without parameters, if it is accepted. -/
def launch (source : String) : Option Vm :=
  match compile source [] .default with
  | .error _ => none
  | .ok program =>
      match program.start [] [] with
      | .error _ => none
      | .ok vm => some vm

example : (launch "expect(watch(\"ok\"), 5);").isSome := by decide +kernel

end SerialPlatform.Script
