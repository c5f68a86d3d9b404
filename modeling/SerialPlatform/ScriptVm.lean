import SerialPlatform.ScriptCompiler

/-!
# The virtual machine of macro scripts

Every method of the machine is a computation on its state which may end in an
error of the script or in a panic of the program; in both cases the changes made
so far remain, as they do behind `&mut self`.
-/

namespace SerialPlatform.Script

inductive EffectKind
  | command (text : String) (verifyEcho : Bool)
  | watch (watcher : ℕ) (pattern : String)
  | wait (watcher : ℕ) (timeoutMs : ℕ) (strict : Bool)
  | delay (durationMs : ℕ)
  deriving DecidableEq, Repr

structure Effect where
  id : ℕ
  span : Span
  kind : EffectKind
  deriving DecidableEq, Repr

inductive EffectResult
  | done
  | matched (value : Bool)
  deriving DecidableEq, Repr

inductive Step
  | effect (effect : Effect)
  | yielded
  | complete
  deriving DecidableEq, Repr

inductive RuntimeValue
  | scalar (value : Value)
  | watcher (id : ℕ)
  deriving DecidableEq

/-- The machine; the top of the stack is its head, `slots` are its variables. -/
structure Vm where
  program : Program
  args : NameMap Value
  prompts : NameMap String
  slots : List (Option RuntimeValue)
  stack : List RuntimeValue
  watchers : List Bool
  pc : ℕ
  instructions : ℕ
  commandBytes : ℕ
  commandEffects : ℕ
  nextEffect : ℕ
  pending : Option Effect
  failure : Option Error
  lastSpan : Span
  deriving DecidableEq

/-- How a method ends early. -/
inductive Fault
  | error (error : Error)
  | panic
  deriving DecidableEq

abbrev Exec := ExceptT Fault (StateM Vm)

namespace Vm

/-- `Err(self.error(code, message))`. -/
def raise {α : Type} (code message : String) : Exec α := do
  throw (.error ⟨code, message, (← get).lastSpan⟩)

/-- An index or a key which is not there. -/
def panicked {α : Type} : Exec α := throw .panic

/-! ## Stack -/

def push (value : RuntimeValue) : Exec Unit :=
  modify fun vm => { vm with stack := value :: vm.stack }

def pushBool (value : Bool) : Exec Unit := push (.scalar (.boolean value))

def pop : Exec RuntimeValue := do
  match (← get).stack with
  | [] => raise "vm_invariant" "empty expression stack"
  | value :: rest => do
      modify fun vm => { vm with stack := rest }
      return value

def popScalar : Exec Value := do
  match ← pop with
  | .scalar value => return value
  | .watcher _ => raise "vm_invariant" "expected scalar value"

def popInteger : Exec Int64 := do
  match ← popScalar with
  | .integer value => return value
  | _ => raise "vm_invariant" "expected integer"

def popBool : Exec Bool := do
  match ← popScalar with
  | .boolean value => return value
  | _ => raise "vm_invariant" "expected boolean"

def popString : Exec String := do
  match ← popScalar with
  | .string value => return value
  | _ => raise "vm_invariant" "expected string"

def popWatcher : Exec ℕ := do
  match ← pop with
  | .watcher id => return id
  | .scalar _ => raise "vm_invariant" "expected watcher"

def popDuration : Exec ℕ := do
  let value ← popInteger
  let limit := (← get).program.limits.maxDurationMs
  if value.toInt < 0 ∨ (limit : ℤ) < value.toInt then
    raise "duration_limit" ("duration must be 0..=" ++ toString limit ++ " milliseconds")
  else return value.toInt.toNat

def peekBool : Exec Bool := do
  match (← get).stack with
  | .scalar (.boolean value) :: _ => return value
  | _ => raise "vm_invariant" "expected boolean"

def setPc (target : ℕ) : Exec Unit := modify fun vm => { vm with pc := target }

/-! ## Operators -/

def unary : Unary → Exec Unit
  | .not => do
      let value ← popBool
      pushBool (!value)
  | .negate => do
      match checkedInt (-(← popInteger).toInt) with
      | some value => push (.scalar (.integer value))
      | none => raise "integer_overflow" "integer negation overflowed"

/-- The integer operators: a value, or the code and message of an error. -/
def integerResult (operator : Binary) (left right : Int64) :
    Except (String × String) Value :=
  match operator with
  | .add => checked (checkedInt (left.toInt + right.toInt))
  | .subtract => checked (checkedInt (left.toInt - right.toInt))
  | .multiply => checked (checkedInt (left.toInt * right.toInt))
  | .divide =>
      if right = 0 then .error ("division_by_zero", "integer division/remainder by zero")
      else checked (checkedInt (left.toInt.tdiv right.toInt))
  | .remainder =>
      if right = 0 then .error ("division_by_zero", "integer division/remainder by zero")
      -- `i64::MIN % -1` overflows although its result would be `0`
      else if left.toInt = i64Min ∧ right.toInt = -1 then checked none
      else checked (checkedInt (left.toInt.tmod right.toInt))
  | .less => .ok (.boolean (left.toInt < right.toInt))
  | .lessEqual => .ok (.boolean (left.toInt ≤ right.toInt))
  | .greater => .ok (.boolean (right.toInt < left.toInt))
  | .greaterEqual => .ok (.boolean (right.toInt ≤ left.toInt))
  | _ => .error ("vm_invariant", "invalid integer operator")
where
  checked (result : Option Int64) : Except (String × String) Value :=
    match result with
    | some value => .ok (.integer value)
    | none => .error ("integer_overflow", "integer arithmetic overflowed")

/-- The value of a binary operator. -/
def binaryResult (maxString : ℕ) (operator : Binary) (left right : Value) :
    Except (String × String) Value :=
  match operator, left, right with
  | .equal, left, right => .ok (.boolean (left = right))
  | .notEqual, left, right => .ok (.boolean (left ≠ right))
  | .add, .string left, .string right =>
      if maxString < left.utf8ByteSize + right.utf8ByteSize then
        .error ("string_limit", "concatenated string exceeds UTF-8 byte limit")
      else .ok (.string (left ++ right))
  | operator, .integer left, .integer right => integerResult operator left right
  | _, _, _ => .error ("vm_invariant", "operator operand types disagree")

def binary (operator : Binary) : Exec Unit := do
  let right ← popScalar
  let left ← popScalar
  match binaryResult (← get).program.limits.maxStringBytes operator left right with
  | .ok value => push (.scalar value)
  | .error (code, message) => raise code message

/-! ## Watchers and effects -/

def watcherMatched (watcher : ℕ) : Exec Bool := do
  match (← get).watchers[watcher]? with
  | some flag => return flag
  | none => raise "unknown_watcher" "watcher has not been created"

/-- `validate_command(..)?`, with the error as it is. -/
def validated (text : String) : Exec Unit := do
  let vm ← get
  match validateCommand text vm.program.limits.maxStringBytes vm.lastSpan with
  | .ok () => return ()
  | .error error => throw (.error error)

/-- A command text, within the byte budget. -/
def callCommand (verifyEcho : Bool) : Exec EffectKind := do
  let text ← popString
  validated text
  let vm ← get
  match checkedAdd vm.commandBytes text.utf8ByteSize with
  | none => raise "tx_budget" "command byte count overflowed"
  | some bytes =>
      if vm.program.limits.maxTotalCommandBytes < bytes then
        raise "tx_budget" "macro exhausted its command byte budget"
      else do
        modify fun vm =>
          { vm with commandBytes := bytes, commandEffects := vm.commandEffects + 1 }
        return .command text verifyEcho

/-- A new watcher, within the watcher budget. -/
def callWatch : Exec EffectKind := do
  let pattern ← popString
  if pattern.isEmpty then raise "empty_pattern" "watch pattern must not be empty"
  else do
    let vm ← get
    if vm.program.limits.maxWatchers ≤ vm.watchers.length then
      raise "watcher_budget" "macro exhausted its watcher budget"
    else do
      modify fun vm => { vm with watchers := vm.watchers ++ [false] }
      return .watch vm.watchers.length pattern

def callWait (strict : Bool) : Exec EffectKind := do
  let timeoutMs ← popDuration
  let watcher ← popWatcher
  return .wait watcher timeoutMs strict

def callKind : Builtin → Exec EffectKind
  | .cmd => callCommand true
  | .cmdSendOnly => callCommand false
  | .watch => callWatch
  | .wait => callWait false
  | .expect => callWait true
  | .delay => do
      let durationMs ← popDuration
      return .delay durationMs

def call (builtin : Builtin) : Exec Effect := do
  let kind ← callKind builtin
  let vm ← get
  match checkedAdd vm.nextEffect 1 with
  | none => raise "effect_budget" "effect ID space exhausted"
  | some next => do
      modify fun vm => { vm with nextEffect := next }
      return ⟨vm.nextEffect, vm.lastSpan, kind⟩

/-! ## Instructions -/

def loadVariable (index : ℕ) : Exec Unit := do
  match (← get).slots[index]? with
  | none => panicked
  | some none => raise "vm_invariant" "variable was not initialized"
  | some (some value) => push value

def storeVariable (index : ℕ) : Exec Unit := do
  let value ← pop
  if (← get).slots.length ≤ index then panicked
  else modify fun vm => { vm with slots := vm.slots.set index (some value) }

def pushArg (name : String) : Exec Unit := do
  match (← get).args.get name with
  | none => panicked
  | some value => push (.scalar value)

def pushPrompt (name : String) : Exec Unit := do
  match (← get).prompts.get name with
  | none => panicked
  | some text => push (.scalar (.string text))

def integerToString : Exec Unit := do
  let text := toString (← popInteger).toInt
  if (← get).program.limits.maxStringBytes < text.utf8ByteSize then
    raise "string_limit" "formatted integer exceeds UTF-8 byte limit"
  else push (.scalar (.string text))

def matched : Exec Unit := do
  let watcher ← popWatcher
  let flag ← watcherMatched watcher
  pushBool flag

/-- `And` and `Or`: branch with the operand still on the stack, or drop it. -/
def shortCircuit (branchOn : Bool) (target : ℕ) : Exec Unit := do
  if (← peekBool) = branchOn then setPc target
  else discard pop

/-- The effect of a call, `none` for every other instruction. -/
def execute : Op → Exec (Option Effect)
  | .push value => do push (.scalar value); return none
  | .arg name => do pushArg name; return none
  | .prompt name => do pushPrompt name; return none
  | .load index => do loadVariable index; return none
  | .store index => do storeVariable index; return none
  | .pop => do discard pop; return none
  | .matched => do matched; return none
  | .integerToString => do integerToString; return none
  | .unary operator => do unary operator; return none
  | .binary operator => do binary operator; return none
  | .jump target => do setPc target; return none
  | .jumpIfFalse target => do
      if ← popBool then return none
      else do setPc target; return none
  | .and target => do shortCircuit false target; return none
  | .or target => do shortCircuit true target; return none
  | .call builtin => do
      let effect ← call builtin
      modify fun vm => { vm with pending := some effect }
      return some effect

/-- `max_nesting.saturating_mul(4).saturating_add(16)`. -/
def stackLimit (limits : Limits) : ℕ :=
  min (min (4 * limits.maxNesting) (wordLimit - 1) + 16) (wordLimit - 1)

/-- One instruction: the accounting before it and the stack check behind it. -/
def runInstruction (instruction : Instruction) : Exec (Option Effect) := do
  modify fun vm => { vm with lastSpan := instruction.span }
  let vm ← get
  if vm.program.limits.maxInstructions ≤ vm.instructions then
    raise "instruction_budget" "macro exhausted its instruction budget"
  else do
    modify fun vm => { vm with instructions := vm.instructions + 1, pc := vm.pc + 1 }
    match ← execute instruction.op with
    | some effect => return some effect
    | none => do
        let vm ← get
        if stackLimit vm.program.limits < vm.stack.length then
          raise "stack_limit" "expression stack limit exceeded"
        else return none

/-- `advance_inner`, with the turns which are left of its slice. -/
def advanceInner : ℕ → Exec Step
  | 0 => return .yielded
  | slice + 1 => do
      let vm ← get
      match vm.program.code[vm.pc]? with
      | none =>
          if vm.stack ≠ [] then
            raise "vm_invariant" "completed program left values on stack"
          else return .complete
      | some instruction => do
          match ← runInstruction instruction with
          | some effect => return .effect effect
          | none => advanceInner slice

/-! ## Entry points -/

/-- A method which stores the error it returns. -/
def recorded {α : Type} (method : Exec α) (vm : Vm) : Except Fault α × Vm :=
  match method.run.run vm with
  | (.error (.error error), vm) => (.error (.error error), { vm with failure := some error })
  | result => result

def advance (vm : Vm) : Except Fault Step × Vm :=
  match vm.failure with
  | some error => (.error (.error error), vm)
  | none =>
      match vm.pending with
      | some effect => (.ok (.effect effect), vm)
      | none => recorded (advanceInner vm.program.limits.instructionsPerYield) vm

/-- The result of a wait for the script; the answer of the driver is final. -/
def resumeWait (watcher : ℕ) (strict matched : Bool) : Exec Unit := do
  discard (watcherMatched watcher)
  if matched then modify fun vm => { vm with watchers := vm.watchers.set watcher true }
  if strict then
    if matched then pure ()
    else
      raise "expect_timeout"
        "required serial response was not observed; later commands were not issued"
  else pushBool matched

/-- The result of the pending effect for the script. -/
def acknowledge (kind : EffectKind) (result : EffectResult) : Exec Unit :=
  match kind, result with
  | .command _ _, .done => pure ()
  | .delay _, .done => pure ()
  | .watch watcher _, .done => push (.watcher watcher)
  | .wait watcher _ strict, .matched value => resumeWait watcher strict value
  | _, _ => raise "effect_protocol" "effect acknowledgement has the wrong result type"

def resumeInner (effectId : ℕ) (result : EffectResult) : Exec Unit := do
  match (← get).pending with
  | none => raise "effect_protocol" "there is no pending effect"
  | some effect =>
      if effect.id ≠ effectId then
        raise "effect_protocol" "effect acknowledgement ID does not match"
      else do
        acknowledge effect.kind result
        modify fun vm => { vm with pending := none }

def resume (vm : Vm) (effectId : ℕ) (result : EffectResult) : Except Fault Unit × Vm :=
  match vm.failure with
  | some error => (.error (.error error), vm)
  | none => recorded (resumeInner effectId result) vm

def failEffect (vm : Vm) (effectId : ℕ) (message : String) : Except Fault Unit × Vm :=
  match vm.failure with
  | some error => (.error (.error error), vm)
  | none =>
      if vm.pending.any fun effect => effect.id = effectId then
        recorded (raise "effect_failed" message) vm
      else
        recorded (raise "effect_protocol" "failure ID does not match a pending effect") vm

/-- `interrupt`, which returns the error it stores. -/
def interrupt (vm : Vm) (message : String) : Except Fault Unit × Vm :=
  match vm.failure with
  | some error => (.error (.error error), vm)
  | none => recorded (raise "interrupted" message) vm

def markMatched (vm : Vm) (watcher : ℕ) : Except Fault Unit × Vm :=
  match vm.failure with
  | some error => (.error (.error error), vm)
  | none =>
      if watcher < vm.watchers.length then
        (.ok (), { vm with watchers := vm.watchers.set watcher true })
      else
        (.error (.error ⟨"unknown_watcher", "watcher has not been created", vm.lastSpan⟩), vm)

end Vm

/-! ## Start of a program -/

/-- The checks of the argument for one parameter. -/
def checkArgument (limits : Limits) (args : NameMap Value) (name : String)
    (expected : ValueType) : Except Error Unit :=
  match args.get name with
  | none => .error ⟨"missing_parameter", "missing argument " ++ name, .start⟩
  | some value =>
      if value.valueType ≠ expected then
        .error ⟨"parameter_type", "argument " ++ name ++ " must be " ++ expected.debug, .start⟩
      else
        match value with
        | .string text =>
            if limits.maxStringBytes < text.utf8ByteSize then
              .error ⟨"string_limit", "argument " ++ name ++ " exceeds string byte limit",
                .start⟩
            else .ok ()
        | _ => .ok ()

/-- The checks of one profile prompt. -/
def checkPrompt (limits : Limits) (prompts : NameMap String) (name : String) (span : Span) :
    Except Error Unit :=
  match prompts.get name with
  | none =>
      .error ⟨"missing_prompt", "profile prompt " ++ name ++ " is not configured", span⟩
  | some prompt =>
      if prompt.isEmpty then
        .error ⟨"empty_pattern", "profile prompt " ++ name ++ " is empty", span⟩
      else if limits.maxStringBytes < prompt.utf8ByteSize then
        .error ⟨"string_limit", "profile prompt " ++ name ++ " exceeds string byte limit", span⟩
      else .ok ()

/-- `for entry in entries { check(entry)?; }`. -/
def checkEach {α : Type} (check : α → Except Error Unit) : List α → Except Error Unit
  | [] => .ok ()
  | entry :: rest => do
      check entry
      checkEach check rest

/-- `Program::start`. -/
def Program.start (program : Program) (args : NameMap Value) (prompts : NameMap String) :
    Except Error Vm := do
  checkEach (fun entry => checkArgument program.limits args entry.1 entry.2) program.parameters
  checkEach
    (fun entry =>
      if (program.parameters.get entry.1).isSome then .ok ()
      else .error ⟨"unknown_parameter", "unknown argument " ++ entry.1, .start⟩) args
  checkEach (fun entry => checkPrompt program.limits prompts entry.1 entry.2) program.prompts
  .ok {
    program := program
    args := args
    prompts := prompts
    slots := List.replicate program.variableCount none
    stack := []
    watchers := []
    pc := 0
    instructions := 0
    commandBytes := 0
    commandEffects := 0
    nextEffect := 1
    pending := none
    failure := none
    lastSpan := .start }

end SerialPlatform.Script
