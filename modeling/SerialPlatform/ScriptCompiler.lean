import SerialPlatform.ScriptParser

/-!
# The compiler of macro scripts

One pass over the tree emits stack code.  A forward branch is emitted with a
placeholder target and patched when its target is known; `break` and `continue`
wait in their loop until it ends.  The source writes the placeholder `0`; here it
is the parameter `hole`.
-/

namespace SerialPlatform.Script

inductive Ty
  | scalar (kind : ValueType)
  | watcher
  | void
  deriving DecidableEq

def Ty.debug : Ty → String
  | .scalar kind => "Scalar(" ++ kind.debug ++ ")"
  | .watcher => "Watcher"
  | .void => "Void"

inductive Builtin
  | cmd
  | cmdSendOnly
  | watch
  | wait
  | expect
  | delay
  deriving DecidableEq, Repr

inductive Op
  | push (value : Value)
  | arg (name : String)
  | prompt (name : String)
  | load (index : ℕ)
  | store (index : ℕ)
  | pop
  | matched
  | integerToString
  | unary (operator : Unary)
  | binary (operator : Binary)
  | jump (target : ℕ)
  | jumpIfFalse (target : ℕ)
  | and (target : ℕ)
  | or (target : ℕ)
  | call (builtin : Builtin)
  deriving DecidableEq

structure Instruction where
  op : Op
  span : Span
  deriving DecidableEq

structure Variable where
  index : ℕ
  kind : Ty
  deriving DecidableEq

/-- The branches of a loop which wait for its end. -/
structure Loop where
  breaks : List ℕ
  continues : List ℕ
  deriving DecidableEq

/-- What a compiler does not change. -/
structure Context where
  parameters : NameMap ValueType
  limits : Limits
  hole : ℕ

/-- The compiler state; scopes and loops are innermost first. -/
structure Compiler where
  code : List Instruction
  scopes : List (NameMap Variable)
  loops : List Loop
  variableCount : ℕ
  prompts : NameMap Span
  deriving DecidableEq

def builtinName (name : String) : Bool :=
  ["cmd", "watch", "prompt", "wait", "expect", "delay", "str"].contains name

namespace Compiler

def emit (c : Compiler) (op : Op) (span : Span) : Compiler :=
  { c with code := c.code ++ [⟨op, span⟩] }

end Compiler

/-- A branch with another target. -/
def Op.retarget (target : ℕ) : Op → Op
  | .jump _ => .jump target
  | .jumpIfFalse _ => .jumpIfFalse target
  | .and _ => .and target
  | .or _ => .or target
  | op => op

def Instruction.retarget (target : ℕ) (instruction : Instruction) : Instruction :=
  { instruction with op := instruction.op.retarget target }

namespace Compiler

def patch (c : Compiler) (instruction target : ℕ) : Compiler :=
  { c with code := c.code.modify instruction (Instruction.retarget target) }

def lookup (c : Compiler) (name : String) (span : Span) : Except Error Variable :=
  match c.scopes.findSome? fun scope => scope.get name with
  | some found => .ok found
  | none => .error ⟨"unknown_variable", "unknown variable " ++ name, span⟩

def pushScope (c : Compiler) : Compiler := { c with scopes := [] :: c.scopes }

def popScope (c : Compiler) : Compiler := { c with scopes := c.scopes.tail }

def pushLoop (c : Compiler) : Compiler := { c with loops := ⟨[], []⟩ :: c.loops }

/-- The innermost scope declares the name. -/
def declared (c : Compiler) (name : String) : Bool :=
  match c.scopes with
  | [] => false
  | scope :: _ => (scope.get name).isSome

/-- A new variable of the innermost scope. -/
def declare (c : Compiler) (name : String) (kind : Ty) : Compiler :=
  { c with
    variableCount := c.variableCount + 1
    scopes :=
      match c.scopes with
      | [] => []
      | scope :: outer => scope.orInsert name ⟨c.variableCount, kind⟩ :: outer }

def addPrompt (c : Compiler) (name : String) (span : Span) : Compiler :=
  { c with prompts := c.prompts.orInsert name span }

/-- A `break` of the innermost loop. -/
def breakAt (c : Compiler) (branch : ℕ) : Compiler :=
  { c with
    loops :=
      match c.loops with
      | [] => []
      | current :: outer => { current with breaks := current.breaks ++ [branch] } :: outer }

/-- A `continue` of the innermost loop. -/
def continueAt (c : Compiler) (branch : ℕ) : Compiler :=
  { c with
    loops :=
      match c.loops with
      | [] => []
      | current :: outer =>
          { current with continues := current.continues ++ [branch] } :: outer }

def patchAll (c : Compiler) (branches : List ℕ) (target : ℕ) : Compiler :=
  branches.foldl (fun c branch => c.patch branch target) c

def finishLoop (c : Compiler) (continueAt stop : ℕ) : Compiler :=
  match c.loops with
  | [] => c
  | current :: outer =>
      ({ c with loops := outer }.patchAll current.breaks stop).patchAll
        current.continues continueAt

end Compiler

namespace Compiler

def require (actual expected : Ty) (span : Span) : Except Error Unit :=
  if actual = expected then .ok ()
  else .error ⟨"type_error", "expected " ++ expected.debug ++ ", got " ++ actual.debug, span⟩

/-- The text of an expression of literals and `+`. -/
def constantString (maxBytes : ℕ) : Expr → Except Error (Option String)
  | .literal _ (.string text) => .ok (some text)
  | .binary span .add left right => do
      let leftText ← constantString maxBytes left
      let rightText ← constantString maxBytes right
      match leftText, rightText with
      | some leftText, some rightText =>
          if maxBytes < leftText.utf8ByteSize + rightText.utf8ByteSize then
            .error ⟨"string_limit", "constant string exceeds UTF-8 byte limit", span⟩
          else .ok (some (leftText ++ rightText))
      | _, _ => .ok none
  | _ => .ok none

/-! ## Calls -/

/-- The functions which have an instruction of their own: the types of their
arguments and of their result. -/
def signature (name : String) : Option (Builtin × List Ty × Ty) :=
  if name = "cmd" then some (.cmd, [.scalar .string], .void)
  else if name = "watch" then some (.watch, [.scalar .string], .watcher)
  else if name = "wait" then
    some (.wait, [.watcher, .scalar .integer], .scalar .boolean)
  else if name = "expect" then some (.expect, [.watcher, .scalar .integer], .void)
  else if name = "delay" then some (.delay, [.scalar .integer], .void)
  else none

/-- A constant command text is validated at compile time. -/
def checkCommandText (limits : Limits) (args : List Expr) : Except Error Unit :=
  match args.head? with
  | none => .ok ()
  | some text => do
      match ← constantString limits.maxStringBytes text with
      | some constant => validateCommand constant limits.maxStringBytes text.span
      | none => .ok ()

/-- A constant watch pattern must not be empty. -/
def checkPattern (limits : Limits) (args : List Expr) : Except Error Unit :=
  match args.head? with
  | none => .ok ()
  | some pattern => do
      let constant ← constantString limits.maxStringBytes pattern
      if constant.any String.isEmpty then
        .error ⟨"empty_pattern", "watch pattern must not be empty", pattern.span⟩
      else .ok ()

/-- A literal duration must be within the limit. -/
def checkDuration (limits : Limits) (args : List Expr) : Except Error Unit :=
  match args.getLast? with
  | some (.literal span (.integer ms)) =>
      if ms.toInt < 0 ∨ (limits.maxDurationMs : ℤ) < ms.toInt then
        .error ⟨"duration_limit",
          "duration must be 0..=" ++ toString limits.maxDurationMs ++ " milliseconds", span⟩
      else .ok ()
  | _ => .ok ()

/-- The checks of constant arguments, after the arguments are compiled. -/
def checkConstants (limits : Limits) (builtin : Builtin) (args : List Expr) :
    Except Error Unit :=
  match builtin with
  | .cmd => checkCommandText limits args
  | .cmdSendOnly => checkCommandText limits args
  | .watch => checkPattern limits args
  | .wait | .expect | .delay => checkDuration limits args

/-- The second argument of `cmd`, when there are two, must be this literal. -/
def isSendOnly : Expr → Bool
  | .literal _ (.string mode) => mode = "send_only"
  | _ => false

/-- The span of an argument. -/
def argumentSpan (args : List Expr) (index : ℕ) (span : Span) : Span :=
  (args[index]?.map Expr.span).getD span

/-- `call`; `compiled` compiles the arguments against their expected types. -/
def call (ctx : Context) (span : Span) (name : String) (args : List Expr)
    (compiled : List Ty → Compiler → Except Error Compiler) (c : Compiler) :
    Except Error (Ty × Compiler) :=
  if name = "str" then
    if args.length ≠ 1 then
      .error ⟨"argument_count", "str requires one integer argument", span⟩
    else do
      let c ← compiled [.scalar .integer] c
      .ok (.scalar .string, c.emit .integerToString span)
  else if name = "cmd" ∧ args.length = 2 then
    if ¬ args[1]?.any isSendOnly then
      .error ⟨"invalid_command_mode",
        "cmd second argument must be the literal \"send_only\"; omit it to verify device echo",
        argumentSpan args 1 span⟩
    else do
      let c ← compiled [.scalar .string] c
      checkConstants ctx.limits .cmdSendOnly args
      .ok (.void, c.emit (.call .cmdSendOnly) span)
  else if name = "prompt" then
    if args.length ≠ 1 then
      .error ⟨"argument_count", "prompt requires one literal name", span⟩
    else
      match args.head? with
      | some (.literal literalSpan (.string prompt)) =>
          if prompt ≠ "shell" ∧ prompt ≠ "uboot" then
            .error ⟨"unknown_prompt", "supported profile prompts are shell and uboot",
              literalSpan⟩
          else
            .ok (.scalar .string, (c.addPrompt prompt literalSpan).emit (.prompt prompt) span)
      | _ =>
          .error ⟨"static_prompt_required",
            "prompt name must be the literal \"shell\" or \"uboot\"", argumentSpan args 0 span⟩
  else
    match signature name with
    | none =>
        .error ⟨"unknown_function",
          "unknown function " ++ name ++
            "; only cmd/watch/prompt/wait/expect/delay/str are available", span⟩
    | some (builtin, expected, result) =>
        if args.length ≠ expected.length then
          .error ⟨"argument_count",
            name ++ " requires " ++ toString expected.length ++ " arguments", span⟩
        else do
          let c ← compiled expected c
          checkConstants ctx.limits builtin args
          .ok (result, c.emit (.call builtin) span)

/-! ## Expressions -/

/-- The result type of a binary operator on operands of type `left`. -/
def binaryType (operator : Binary) (left : Ty) (leftSpan span : Span) : Except Error Ty :=
  match operator with
  | .add =>
      if left = .scalar .string then .ok left
      else do
        require left (.scalar .integer) leftSpan
        .ok left
  | .subtract | .multiply | .divide | .remainder => do
      require left (.scalar .integer) leftSpan
      .ok left
  | .less | .lessEqual | .greater | .greaterEqual => do
      require left (.scalar .integer) leftSpan
      .ok (.scalar .boolean)
  | .equal | .notEqual | .and | .or =>
      match left with
      | .scalar _ => .ok (.scalar .boolean)
      | _ =>
          .error ⟨"type_error", "equality requires scalar operands of the same type", span⟩

def operandType : Unary → ValueType
  | .negate => .integer
  | .not => .boolean

/-- The two operators which do not always evaluate their right operand. -/
def shortCircuit : Binary → Option (ℕ → Op)
  | .and => some .and
  | .or => some .or
  | _ => none

mutual

def expression (ctx : Context) : Expr → Compiler → Except Error (Ty × Compiler)
  | .literal span value, c => .ok (.scalar value.valueType, c.emit (.push value) span)
  | .variable span name, c => do
      let found ← c.lookup name span
      .ok (found.kind, c.emit (.load found.index) span)
  | .member span base field, c =>
      if base.isArgs then
        match ctx.parameters.get field with
        | none => .error ⟨"unknown_parameter", "unknown parameter args." ++ field, span⟩
        | some kind => .ok (.scalar kind, c.emit (.arg field) span)
      else do
        let (kind, c) ← expression ctx base c
        if kind ≠ .watcher ∨ field ≠ "matched" then
          .error ⟨"unknown_field",
            "only args.<declared parameter> and watcher.matched are supported", span⟩
        else .ok (.scalar .boolean, c.emit .matched span)
  | .unary span operator operand, c => do
      let (kind, c) ← expression ctx operand c
      require kind (.scalar (operandType operator)) operand.span
      .ok (kind, c.emit (.unary operator) span)
  | .binary span operator left right, c =>
      match shortCircuit operator with
      | some branch => do
          let (leftType, c) ← expression ctx left c
          require leftType (.scalar .boolean) left.span
          let at' := c.code.length
          let (rightType, c) ← expression ctx right (c.emit (branch ctx.hole) span)
          require rightType (.scalar .boolean) right.span
          .ok (.scalar .boolean, c.patch at' c.code.length)
      | none => do
          let (leftType, c) ← expression ctx left c
          let (rightType, c) ← expression ctx right c
          require rightType leftType right.span
          let output ← binaryType operator leftType left.span span
          .ok (output, c.emit (.binary operator) span)
  | .call span name args, c => call ctx span name args (arguments ctx args) c

/-- The argument loop of `call`: arguments beyond the expected ones are not
compiled. -/
def arguments (ctx : Context) : List Expr → List Ty → Compiler → Except Error Compiler
  | arg :: args, expected :: rest, c => do
      let (actual, c) ← expression ctx arg c
      require actual expected arg.span
      arguments ctx args rest c
  | _, _, c => .ok c

end

/-! ## Statements -/

/-- A condition and its exit branch, whose place is returned. -/
def conditionAt (ctx : Context) (condition : Expr) (c : Compiler) :
    Except Error (ℕ × Compiler) := do
  let (kind, c) ← expression ctx condition c
  require kind (.scalar .boolean) condition.span
  .ok (c.code.length, c.emit (.jumpIfFalse ctx.hole) condition.span)

/-- The condition of a `for`, when there is one. -/
def guardAt (ctx : Context) (condition : Option Expr) (c : Compiler) :
    Except Error (Option ℕ × Compiler) :=
  match condition with
  | none => .ok (none, c)
  | some condition => do
      let (stop, c) ← conditionAt ctx condition c
      .ok (some stop, c)

def patchGuard (c : Compiler) (stop : Option ℕ) (target : ℕ) : Compiler :=
  match stop with
  | none => c
  | some stop => c.patch stop target

def isLet : Statement → Bool
  | .let .. => true
  | _ => false

mutual

def statement (ctx : Context) : Statement → Compiler → Except Error Compiler
  | .let span name value, c =>
      if c.declared name ∨ builtinName name ∨ reserved name then
        .error ⟨"duplicate_variable",
          "identifier " ++ name ++ " is already declared or reserved", span⟩
      else do
        let (kind, c) ← expression ctx value c
        if kind = .void then
          .error ⟨"type_error", "a void operation cannot initialize a variable", value.span⟩
        else if ctx.limits.maxVariables ≤ c.variableCount then
          .error ⟨"variable_limit", "variable limit exceeded", span⟩
        else .ok ((c.declare name kind).emit (.store c.variableCount) span)
  | .assign span name value, c => do
      let found ← c.lookup name span
      let (kind, c) ← expression ctx value c
      require kind found.kind value.span
      .ok (c.emit (.store found.index) span)
  | .expression span value, c => do
      let (kind, c) ← expression ctx value c
      .ok (if kind = .void then c else c.emit .pop span)
  | .block _ body, c => do
      let c ← statements ctx body c.pushScope
      .ok c.popScope
  | .cond span condition body alternative, c => do
      let (skip, c) ← conditionAt ctx condition c
      let c ← statement ctx body c
      match alternative with
      | none => .ok (c.patch skip c.code.length)
      | some alternative => do
          let stop := c.code.length
          let c := c.emit (.jump ctx.hole) span
          let c ← statement ctx alternative (c.patch skip c.code.length)
          .ok (c.patch stop c.code.length)
  | .while span condition body, c => do
      let start := c.code.length
      let (stop, c) ← conditionAt ctx condition c
      let c ← statement ctx body c.pushLoop
      let c := c.emit (.jump start) span
      .ok ((c.patch stop c.code.length).finishLoop start c.code.length)
  | .for span init condition step body, c => do
      let c ← optional ctx init c.pushScope
      let start := c.code.length
      let (stop, c) ← guardAt ctx condition c
      let c ← statement ctx body c.pushLoop
      let continueAt := c.code.length
      if step.any isLet then
        .error ⟨"syntax_error", "for update must not declare a variable",
          (step.map Statement.span).getD span⟩
      else do
        let c ← optional ctx step c
        let c := c.emit (.jump start) span
        .ok ((c.patchGuard stop c.code.length).finishLoop continueAt c.code.length).popScope
  | .break span, c =>
      if c.loops = [] then
        .error ⟨"invalid_loop_control", "break/continue requires an enclosing loop", span⟩
      else .ok ((c.emit (.jump ctx.hole) span).breakAt c.code.length)
  | .continue span, c =>
      if c.loops = [] then
        .error ⟨"invalid_loop_control", "break/continue requires an enclosing loop", span⟩
      else .ok ((c.emit (.jump ctx.hole) span).continueAt c.code.length)
  | .empty span, c => .ok (c.emit (.jump (c.code.length + 1)) span)

def statements (ctx : Context) : List Statement → Compiler → Except Error Compiler
  | [], c => .ok c
  | first :: rest, c => do
      let c ← statement ctx first c
      statements ctx rest c

def optional (ctx : Context) : Option Statement → Compiler → Except Error Compiler
  | none, c => .ok c
  | some inner, c => statement ctx inner c

end

end Compiler

/-! ## Programs -/

structure Program where
  code : List Instruction
  parameters : NameMap ValueType
  prompts : NameMap Span
  variableCount : ℕ
  limits : Limits
  deriving DecidableEq

/-- A parameter name is an identifier which is not reserved. -/
def validParameterName (name : String) : Bool :=
  match name.toList with
  | [] => false
  | c :: rest => isIdentStart c && rest.all isIdentRest && !reserved name

/-- The checks of `compile` before it parses. -/
def checkParameters (parameters : NameMap ValueType) (limits : Limits) : Except Error Unit :=
  if limits.maxNesting = 0 ∨ 128 < limits.maxNesting ∨ limits.instructionsPerYield = 0 then
    .error ⟨"invalid_limits",
      "max_nesting must be 1..=128 and instructions_per_yield must be positive", .start⟩
  else
    match parameters.find? fun entry => !validParameterName entry.1 with
    | some (name, _) =>
        .error ⟨"invalid_parameter", "invalid parameter name " ++ name.quote, .start⟩
    | none =>
        if limits.maxVariables < parameters.length then
          .error ⟨"parameter_limit", "parameter count exceeds variable limit", .start⟩
        else .ok ()

def Compiler.initial : Compiler where
  code := []
  scopes := [[]]
  loops := []
  variableCount := 0
  prompts := []

/-- The compilation of a parsed script, with a placeholder for branches. -/
def compileStatements (ctx : Context) (script : List Statement) : Except Error Program := do
  let c ← Compiler.statements ctx script .initial
  .ok ⟨c.code, ctx.parameters, c.prompts, c.variableCount, ctx.limits⟩

def compileWith (hole : ℕ) (source : String) (parameters : NameMap ValueType)
    (limits : Limits) : Except Error Program := do
  checkParameters parameters limits
  let script ← parse source limits
  compileStatements ⟨parameters, limits, hole⟩ script

/-- `compile`: the placeholder of the source is `0`. -/
def compile (source : String) (parameters : NameMap ValueType) (limits : Limits) :
    Except Error Program :=
  compileWith 0 source parameters limits

end SerialPlatform.Script
