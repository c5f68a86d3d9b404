import SerialPlatform.ExceptBind
import SerialPlatform.ScriptLexer

/-!
# The parser of macro scripts

The parser state is what is left of the token vector.  The source bounds its
recursion by a depth counter; `room` is `max_depth - depth`, so every nested
parse is a recursion on it.  The loops, each turn of which consumes a token,
are recursions on the number of tokens ahead.
-/

namespace SerialPlatform.Script

namespace Tokens

/-- `current().span`. -/
def span (t : Tokens) : Span :=
  match t.ahead with
  | [] => t.eof
  | token :: _ => token.span

/-- `current().kind`, `none` for `Eof`. -/
def current (t : Tokens) : Option TokenKind := t.ahead.head?.map Token.kind

def isAt (t : Tokens) (kind : TokenKind) : Bool := t.current = some kind

def keyword (t : Tokens) (text : String) : Bool := t.isAt (.ident text)

/-- `bump`, which does not pass the `Eof` token. -/
def bump (t : Tokens) : Tokens := ⟨t.ahead.tail, t.eof⟩

def expect (t : Tokens) (kind : TokenKind) : Except Error Tokens :=
  if t.isAt kind then .ok t.bump
  else .error ⟨"syntax_error", "expected " ++ kind.debug, t.span⟩

def identifier (t : Tokens) : Except Error (String × Tokens) :=
  match t.current with
  | some (.ident name) =>
      if reserved name then
        .error ⟨"syntax_error", "expected a non-reserved identifier", t.span⟩
      else .ok (name, t.bump)
  | _ => .error ⟨"syntax_error", "expected a non-reserved identifier", t.span⟩

end Tokens

/-- The binary operator of a token and its precedence. -/
def TokenKind.binary : TokenKind → Option (Binary × ℕ)
  | .orOr => some (.or, 1)
  | .andAnd => some (.and, 2)
  | .equalEqual => some (.equal, 3)
  | .bangEqual => some (.notEqual, 3)
  | .less => some (.less, 4)
  | .lessEqual => some (.lessEqual, 4)
  | .greater => some (.greater, 4)
  | .greaterEqual => some (.greaterEqual, 4)
  | .plus => some (.add, 5)
  | .minus => some (.subtract, 5)
  | .star => some (.multiply, 6)
  | .slash => some (.divide, 6)
  | .percent => some (.remainder, 6)
  | _ => none

/-- The operator of an assignment token: `none` for `=`. -/
def TokenKind.assignment : TokenKind → Option (Option Binary)
  | .equal => some none
  | .plusEqual => some (some .add)
  | .plusPlus => some (some .add)
  | .minusEqual => some (some .subtract)
  | .minusMinus => some (some .subtract)
  | .starEqual => some (some .multiply)
  | .slashEqual => some (some .divide)
  | .percentEqual => some (some .remainder)
  | _ => none

namespace Parser

/-! ## Depth of an expression tree -/

mutual

/-- `check_expression_depth`, for a node at `depth`.  The stack of the source
pops the last pushed operand first, so operands are visited from the right. -/
def checkExpressionDepth (maxDepth depth : ℕ) : Expr → Except Error Unit
  | .literal span _ => checkDepth maxDepth depth span
  | .variable span _ => checkDepth maxDepth depth span
  | .member span base _ => do
      checkDepth maxDepth depth span
      checkExpressionDepth maxDepth (depth + 1) base
  | .unary span _ operand => do
      checkDepth maxDepth depth span
      checkExpressionDepth maxDepth (depth + 1) operand
  | .binary span _ left right => do
      checkDepth maxDepth depth span
      checkExpressionDepth maxDepth (depth + 1) right
      checkExpressionDepth maxDepth (depth + 1) left
  | .call span _ args => do
      checkDepth maxDepth depth span
      checkArgumentDepth maxDepth (depth + 1) args

def checkArgumentDepth (maxDepth depth : ℕ) : List Expr → Except Error Unit
  | [] => .ok ()
  | arg :: args => do
      checkArgumentDepth maxDepth depth args
      checkExpressionDepth maxDepth depth arg

/-- The test of one node. -/
def checkDepth (maxDepth depth : ℕ) (span : Span) : Except Error Unit :=
  if maxDepth < depth then
    .error ⟨"nesting_limit", "expression nesting limit exceeded", span⟩
  else .ok ()

end

/-! ## Expressions -/

/-- The error of `enter` at the depth limit. -/
def nestingError (t : Tokens) : Error :=
  ⟨"nesting_limit", "syntax nesting limit exceeded", t.span⟩

section
variable (maxDepth : ℕ)

/-- The binary-operator loop of `expression`; `operand` parses a right operand. -/
def operators (operand : ℕ → Tokens → Except Error (Expr × Tokens)) (minimum : ℕ) :
    ℕ → Expr → Tokens → Except Error (Expr × Tokens)
  | 0, left, t => .ok (left, t)
  | fuel + 1, left, t =>
      match t.current.bind TokenKind.binary with
      | none => .ok (left, t)
      | some (operator, precedence) =>
          if precedence < minimum then .ok (left, t)
          else do
            let (right, t) ← operand (precedence + 1) t.bump
            checkExpressionDepth maxDepth 1 (.binary left.span operator left right)
            operators operand minimum fuel (.binary left.span operator left right) t

/-- The argument loop of a call, before its closing parenthesis. -/
def arguments (argument : Tokens → Except Error (Expr × Tokens)) : ℕ → Tokens → Except Error (List Expr × Tokens)
  | 0, t => do
      let (arg, t) ← argument t
      .ok ([arg], t)
  | fuel + 1, t => do
      let (arg, t) ← argument t
      if t.isAt .comma then do
        let (args, t) ← arguments argument fuel t.bump
        .ok (arg :: args, t)
      else .ok ([arg], t)

/-- The field-access loop of `primary`. -/
def members (span : Span) : ℕ → Expr → Tokens → Except Error (Expr × Tokens)
  | 0, base, t => .ok (base, t)
  | fuel + 1, base, t =>
      if t.isAt .dot then do
        let (field, t) ← t.bump.identifier
        checkExpressionDepth maxDepth 1 (.member span base field)
        members span fuel (.member span base field) t
      else .ok (base, t)

/-- A variable, or a call when a parenthesis follows its name. -/
def nameOrCall (expression : ℕ → Tokens → Except Error (Expr × Tokens)) (span : Span) (name : String)
    (t : Tokens) : Except Error (Expr × Tokens) :=
  if t.isAt .lParen then
    if t.bump.isAt .rParen then .ok (.call span name [], t.bump.bump)
    else do
      let (args, t) ← arguments (expression 0) t.bump.ahead.length t.bump
      let t ← t.expect .rParen
      .ok (.call span name args, t)
  else .ok (.variable span name, t)

/-- The first part of `primary`: what stands before the field accesses. -/
def primaryHead (expression : ℕ → Tokens → Except Error (Expr × Tokens)) (t : Tokens) : Except Error (Expr × Tokens) :=
  match t.current with
  | some (.string text) => .ok (.literal t.span (.string text), t.bump)
  | some (.integer value) => .ok (.literal t.span (.integer value), t.bump)
  | some (.ident name) =>
      if name = "true" ∨ name = "false" then
        .ok (.literal t.span (.boolean (name = "true")), t.bump)
      else if reserved name = false ∨ name = "args" then
        nameOrCall expression t.span name t.bump
      else
        .error ⟨"syntax_error", "expected literal, variable or built-in call", t.span⟩
  | some .bang => do
      let (operand, behind) ← expression 7 t.bump
      .ok (.unary t.span .not operand, behind)
  | some .minus => do
      let (operand, behind) ← expression 7 t.bump
      .ok (.unary t.span .negate operand, behind)
  | some .lParen => do
      let (inner, behind) ← expression 0 t.bump
      let behind ← behind.expect .rParen
      .ok (inner.withSpan t.span, behind)
  | _ => .error ⟨"syntax_error", "expected literal, variable or built-in call", t.span⟩

def primary (expression : ℕ → Tokens → Except Error (Expr × Tokens)) (t : Tokens) : Except Error (Expr × Tokens) := do
  let (head, behind) ← primaryHead expression t
  let (expr, behind) ← members maxDepth t.span behind.ahead.length head behind
  checkExpressionDepth maxDepth 1 expr
  .ok (expr, behind)

def expression : ℕ → ℕ → Tokens → Except Error (Expr × Tokens)
  | 0, _, t => .error (nestingError t)
  | room + 1, minimum, t => do
      let (left, t) ← primary maxDepth (expression room) t
      operators maxDepth (expression room) minimum t.ahead.length left t

/-! ## Statements -/

/-- The right-hand side of an assignment, behind its operator. -/
def assigned (room : ℕ) (operator : TokenKind) (span : Span) (t : Tokens) : Except Error (Expr × Tokens) :=
  if operator = .plusPlus ∨ operator = .minusMinus then .ok (.literal span (.integer 1), t)
  else expression maxDepth room 0 t

/-- `x op= e` stands for `x = x op e`. -/
def compound (operator : Option Binary) (span : Span) (name : String) (rhs : Expr) : Expr :=
  match operator with
  | some operator => .binary span operator (.variable span name) rhs
  | none => rhs

/-- The assignment which starts at `t`: its variable and its operator token. -/
def assignmentAt (t : Tokens) : Option (String × Option Binary × Token) :=
  match t.ahead with
  | ⟨.ident name, _⟩ :: next :: _ =>
      next.kind.assignment.map fun operator => (name, operator, next)
  | _ => none

def simple (room : ℕ) (t : Tokens) : Except Error (Statement × Tokens) :=
  if t.keyword "let" then do
    let (name, behind) ← t.bump.identifier
    let behind ← behind.expect .equal
    let (value, behind) ← expression maxDepth room 0 behind
    .ok (.let t.span name value, behind)
  else
    match assignmentAt t with
    | some (name, operator, token) => do
        let (rhs, behind) ← assigned maxDepth room token.kind token.span t.bump.bump
        .ok (.assign t.span name (compound operator t.span name rhs), behind)
    | none => do
        let (value, behind) ← expression maxDepth room 0 t
        .ok (.expression t.span value, behind)

/-- The statement loop, up to the closing brace of a block or to `Eof`. -/
def statementList (statement : Tokens → Except Error (Statement × Tokens)) (block : Bool) :
    ℕ → Tokens → Except Error (List Statement × Tokens)
  | 0, t => .ok ([], t)
  | fuel + 1, t =>
      if t.ahead = [] ∨ (block ∧ t.isAt .rBrace) then .ok ([], t)
      else do
        let (first, t) ← statement t
        let (rest, t) ← statementList statement block fuel t
        .ok (first :: rest, t)

/-- `block`: a statement which must be a block. -/
def braced (statement : Tokens → Except Error (Statement × Tokens)) (t : Tokens) : Except Error (Statement × Tokens) :=
  if t.isAt .lBrace then statement t
  else .error ⟨"syntax_error", "control-flow body requires braces", t.span⟩

/-- `(condition)`, behind the keyword. -/
def parenthesized (room : ℕ) (t : Tokens) : Except Error (Expr × Tokens) := do
  let t ← t.expect .lParen
  let (condition, t) ← expression maxDepth room 0 t
  let t ← t.expect .rParen
  .ok (condition, t)

/-- The `else` part of an `if`. -/
def alternative (statement : Tokens → Except Error (Statement × Tokens)) (t : Tokens) :
    Except Error (Option Statement × Tokens) :=
  if t.keyword "else" then
    if t.bump.keyword "if" then do
      let (other, t) ← statement t.bump
      .ok (some other, t)
    else do
      let (other, t) ← braced statement t.bump
      .ok (some other, t)
  else .ok (none, t)

/-- A clause of a `for` head, absent when `closing` stands in its place. -/
def clause {α : Type} (closing : TokenKind) (parse : Tokens → Except Error (α × Tokens)) (t : Tokens) :
    Except Error (Option α × Tokens) := do
  if t.isAt closing then
    let t ← t.expect closing
    .ok (none, t)
  else
    let (value, t) ← parse t
    let t ← t.expect closing
    .ok (some value, t)

/-- The kind of a statement; `statement` parses the nested ones. -/
def statementKind (room : ℕ) (statement : Tokens → Except Error (Statement × Tokens)) (t : Tokens) :
    Except Error (Statement × Tokens) :=
  if t.isAt .lBrace then do
    let (body, behind) ← statementList statement true t.bump.ahead.length t.bump
    let behind ← behind.expect .rBrace
    .ok (.block t.span body, behind)
  else if t.keyword "if" then do
    let (condition, behind) ← parenthesized maxDepth room t.bump
    let (body, behind) ← braced statement behind
    let (other, behind) ← alternative statement behind
    .ok (.cond t.span condition body other, behind)
  else if t.keyword "while" then do
    let (condition, behind) ← parenthesized maxDepth room t.bump
    let (body, behind) ← braced statement behind
    .ok (.while t.span condition body, behind)
  else if t.keyword "for" then do
    let behind ← t.bump.expect .lParen
    let (init, behind) ← clause .semicolon (simple maxDepth room) behind
    let (condition, behind) ← clause .semicolon (expression maxDepth room 0) behind
    let (step, behind) ← clause .rParen (simple maxDepth room) behind
    let (body, behind) ← braced statement behind
    .ok (.for t.span init condition step body, behind)
  else if t.keyword "break" then do
    let behind ← t.bump.expect .semicolon
    .ok (.break t.span, behind)
  else if t.keyword "continue" then do
    let behind ← t.bump.expect .semicolon
    .ok (.continue t.span, behind)
  else if t.isAt .semicolon then .ok (.empty t.span, t.bump)
  else do
    let (inner, behind) ← simple maxDepth room t
    let behind ← behind.expect .semicolon
    .ok (inner.withSpan t.span, behind)

def statement : ℕ → Tokens → Except Error (Statement × Tokens)
  | 0, t => .error (nestingError t)
  | room + 1, t => statementKind maxDepth room (statement room) t

end

end Parser

/-- `parse`: the statements of a script. -/
def parse (source : String) (limits : Limits) : Except Error (List Statement) :=
  if limits.maxSourceBytes < source.utf8ByteSize then
    .error ⟨"source_limit", "script exceeds source byte limit", .start⟩
  else do
    let tokens ← lex source limits.maxStringBytes
    let (statements, _) ← Parser.statementList
      (Parser.statement limits.maxNesting limits.maxNesting) false tokens.ahead.length tokens
    .ok statements

end SerialPlatform.Script
