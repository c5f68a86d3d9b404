import SerialPlatform.ScriptUpdates

/-!
# The depth of the parser

The source counts the depth of its parser up where a statement or an expression begins, and
down where it ends, and the tests before it counts up are what bounds its recursion.  Here the
counter is a part of the state; `ScriptParser` has it in the arguments.
-/

namespace SerialPlatform.Script

/-- The state of the parser; `deepest` is the greatest depth so far. -/
structure Counted where
  tokens : Tokens
  depth : ℕ
  deepest : ℕ

abbrev Counting (α : Type) := StateT Counted (Except Error) α

namespace Counting

section

variable {α : Type}

def fail (e : Error) : Counting α := fun _ => .error e

/-- To go on by the tokens ahead. -/
def ask (f : Tokens → Counting α) : Counting α := fun s => f s.tokens s

/-- A part of the parser which does not count. -/
def lift (f : Tokens → Except Error (α × Tokens)) : Counting α := fun s =>
  (f s.tokens).map fun result => (result.1, { s with tokens := result.2 })

def bump : Counting Unit := fun s => .ok ((), { s with tokens := s.tokens.bump })

def expect (kind : TokenKind) : Counting Unit := fun s =>
  (s.tokens.expect kind).map fun t => ((), { s with tokens := t })

/-- The check of a built expression. -/
def check (maxDepth : ℕ) (e : Expr) : Counting Unit := fun s =>
  (Parser.checkExpressionDepth maxDepth 1 e).map fun _ => ((), s)

def enter (maxDepth : ℕ) : Counting Unit := fun s =>
  if maxDepth ≤ s.depth then .error (Parser.nestingError s.tokens)
  else .ok ((), ⟨s.tokens, s.depth + 1, max s.deepest (s.depth + 1)⟩)

/-- `self.depth -= 1`. -/
def leave : Counting Unit := fun s => .ok ((), { s with depth := s.depth - 1 })

/-- One deeper. -/
def within (maxDepth : ℕ) (m : Counting α) : Counting α := do
  enter maxDepth
  let a ← m
  leave
  return a

end

section

variable (maxDepth : ℕ)

/-! ## Expressions -/

def operators (operand : ℕ → Counting Expr) (minimum : ℕ) : ℕ → Expr → Counting Expr
  | 0, left => pure left
  | fuel + 1, left => ask fun t =>
      match t.current.bind TokenKind.binary with
      | none => pure left
      | some (operator, precedence) =>
          if precedence < minimum then pure left
          else do
            bump
            let right ← operand (precedence + 1)
            check maxDepth (.binary left.span operator left right)
            operators operand minimum fuel (.binary left.span operator left right)

def arguments (argument : Counting Expr) : ℕ → Counting (List Expr)
  | 0 => do
      let arg ← argument
      return [arg]
  | fuel + 1 => do
      let arg ← argument
      ask fun t =>
        if t.isAt .comma then do
          bump
          let args ← arguments argument fuel
          return arg :: args
        else pure [arg]

def nameOrCall (expression : ℕ → Counting Expr) (span : Span) (name : String) : Counting Expr :=
  ask fun t =>
    if t.isAt .lParen then do
      bump
      ask fun t =>
        if t.isAt .rParen then do
          bump
          return .call span name []
        else do
          let args ← arguments (expression 0) t.ahead.length
          expect .rParen
          return .call span name args
    else pure (.variable span name)

def primaryHead (expression : ℕ → Counting Expr) : Counting Expr := ask fun t =>
  match t.current with
  | some (.string text) => do
      bump
      return .literal t.span (.string text)
  | some (.integer value) => do
      bump
      return .literal t.span (.integer value)
  | some (.ident name) =>
      if name = "true" ∨ name = "false" then do
        bump
        return .literal t.span (.boolean (name = "true"))
      else if reserved name = false ∨ name = "args" then do
        bump
        nameOrCall expression t.span name
      else fail ⟨"syntax_error", "expected literal, variable or built-in call", t.span⟩
  | some .bang => do
      bump
      let operand ← expression 7
      return .unary t.span .not operand
  | some .minus => do
      bump
      let operand ← expression 7
      return .unary t.span .negate operand
  | some .lParen => do
      bump
      let inner ← expression 0
      expect .rParen
      return inner.withSpan t.span
  | _ => fail ⟨"syntax_error", "expected literal, variable or built-in call", t.span⟩

def primary (expression : ℕ → Counting Expr) : Counting Expr := ask fun t => do
  let head ← primaryHead expression
  let expr ← ask fun behind => lift (Parser.members maxDepth t.span behind.ahead.length head)
  check maxDepth expr
  return expr

/-- The recursion is on a number which no run uses up: the limit stops it before. -/
def expression : ℕ → ℕ → Counting Expr
  | 0, _ => ask fun t => fail (Parser.nestingError t)
  | fuel + 1, minimum => within maxDepth do
      let left ← primary maxDepth (expression fuel)
      ask fun t => operators maxDepth (expression fuel) minimum t.ahead.length left

/-! ## Statements -/

def assigned (fuel : ℕ) (operator : TokenKind) (span : Span) : Counting Expr :=
  if operator = .plusPlus ∨ operator = .minusMinus then pure (.literal span (.integer 1))
  else expression maxDepth fuel 0

def simple (fuel : ℕ) : Counting Statement := ask fun t =>
  if t.keyword "let" then do
    bump
    let name ← lift Tokens.identifier
    expect .equal
    let value ← expression maxDepth fuel 0
    return .let t.span name value
  else
    match Parser.assignmentAt t with
    | some (name, operator, token) => do
        bump
        bump
        let rhs ← assigned maxDepth fuel token.kind token.span
        return .assign t.span name (Parser.compound operator t.span name rhs)
    | none => do
        let value ← expression maxDepth fuel 0
        return .expression t.span value

def statementList (statement : Counting Statement) (block : Bool) : ℕ → Counting (List Statement)
  | 0 => pure []
  | fuel + 1 => ask fun t =>
      if t.ahead = [] ∨ (block ∧ t.isAt .rBrace) then pure []
      else do
        let first ← statement
        let rest ← statementList statement block fuel
        return first :: rest

def braced (statement : Counting Statement) : Counting Statement := ask fun t =>
  if t.isAt .lBrace then statement
  else fail ⟨"syntax_error", "control-flow body requires braces", t.span⟩

def parenthesized (fuel : ℕ) : Counting Expr := do
  expect .lParen
  let condition ← expression maxDepth fuel 0
  expect .rParen
  return condition

def alternative (statement : Counting Statement) : Counting (Option Statement) := ask fun t =>
  if t.keyword "else" then do
    bump
    ask fun t =>
      if t.keyword "if" then do
        let other ← statement
        return some other
      else do
        let other ← braced statement
        return some other
  else pure none

def clause {α : Type} (closing : TokenKind) (item : Counting α) : Counting (Option α) :=
  ask fun t =>
    if t.isAt closing then do
      expect closing
      return none
    else do
      let value ← item
      expect closing
      return some value

def statementKind (fuel : ℕ) (statement : Counting Statement) : Counting Statement := ask fun t =>
  if t.isAt .lBrace then do
    bump
    let body ← ask fun t => statementList statement true t.ahead.length
    expect .rBrace
    return .block t.span body
  else if t.keyword "if" then do
    bump
    let condition ← parenthesized maxDepth fuel
    let body ← braced statement
    let other ← alternative statement
    return .cond t.span condition body other
  else if t.keyword "while" then do
    bump
    let condition ← parenthesized maxDepth fuel
    let body ← braced statement
    return .while t.span condition body
  else if t.keyword "for" then do
    bump
    expect .lParen
    let init ← clause .semicolon (simple maxDepth fuel)
    let condition ← clause .semicolon (expression maxDepth fuel 0)
    let step ← clause .rParen (simple maxDepth fuel)
    let body ← braced statement
    return .for t.span init condition step body
  else if t.keyword "break" then do
    bump
    expect .semicolon
    return .break t.span
  else if t.keyword "continue" then do
    bump
    expect .semicolon
    return .continue t.span
  else if t.isAt .semicolon then do
    bump
    return .empty t.span
  else do
    let inner ← simple maxDepth fuel
    expect .semicolon
    return inner.withSpan t.span

def statement : ℕ → Counting Statement
  | 0 => ask fun t => fail (Parser.nestingError t)
  | fuel + 1 => within maxDepth (statementKind maxDepth fuel (statement fuel))

end

end Counting

/-- `parse`, with the greatest depth that its parser comes to. -/
def parseCounting (source : String) (limits : Limits) : Except Error (List Statement × ℕ) :=
  if limits.maxSourceBytes < source.utf8ByteSize then
    .error ⟨"source_limit", "script exceeds source byte limit", .start⟩
  else do
    let tokens ← lex source limits.maxStringBytes
    let (statements, last) ← Counting.statementList
      (Counting.statement limits.maxNesting (limits.maxNesting + 1)) false tokens.ahead.length
      ⟨tokens, 0, 0⟩
    .ok (statements, last.deepest)

namespace Counting

/-! ## The counter is the room that is left -/

/-- A run ends with the result, back in the depth, and has not been deeper than the limit. -/
def Ends {α : Type} (limit depth deepest : ℕ) (run : Except Error (α × Counted)) :
    Except Error (α × Tokens) → Prop
  | .error e => run = .error e
  | .ok (a, behind) => ∃ reached, run = .ok (a, ⟨behind, depth, reached⟩) ∧
      reached ≤ max deepest limit

/-- From these tokens, and in this depth, the step ends with the result. -/
def Mirrors {α : Type} (limit depth : ℕ) (t : Tokens) (m : Counting α)
    (result : Except Error (α × Tokens)) : Prop :=
  ∀ deepest, Ends limit depth deepest (m ⟨t, depth, deepest⟩) result

section

variable {α β : Type} {limit depth : ℕ} {t : Tokens} {m : Counting α} {a : α} {e : Error}
  {result : Except Error (α × Tokens)}

theorem Ends.deeper {deepest more : ℕ} {run : Except Error (α × Counted)}
    (h : Ends limit depth deepest run result) (hle : max deepest limit ≤ max more limit) :
    Ends limit depth more run result := by
  cases result with
  | error e => exact h
  | ok pair =>
      obtain ⟨reached, hrun, hreached⟩ := h
      exact ⟨reached, hrun, hreached.trans hle⟩

theorem mirrors_pure (a : α) : Mirrors limit depth t (pure a) (.ok (a, t)) :=
  fun deepest => ⟨deepest, rfl, le_max_left _ _⟩

theorem mirrors_fail (e : Error) : Mirrors limit depth t (fail e : Counting α) (.error e) :=
  fun _ => rfl

theorem mirrors_ask {f : Tokens → Counting α} (h : Mirrors limit depth t (f t) result) :
    Mirrors limit depth t (ask f) result := h

theorem Mirrors.bind {k : α → Counting β} {g : α × Tokens → Except Error (β × Tokens)}
    (h : Mirrors limit depth t m result)
    (hk : ∀ a behind, Mirrors limit depth behind (k a) (g (a, behind))) :
    Mirrors limit depth t (m >>= k) (result >>= g) := by
  intro deepest
  have hfirst := h deepest
  have hbind : (m >>= k) ⟨t, depth, deepest⟩ =
      m ⟨t, depth, deepest⟩ >>= fun pair => k pair.1 pair.2 := rfl
  rw [hbind]
  cases result with
  | error e =>
      have hrun : m ⟨t, depth, deepest⟩ = .error e := hfirst
      rw [hrun]
      rfl
  | ok pair =>
      obtain ⟨a, behind⟩ := pair
      obtain ⟨reached, hrun, hle⟩ := hfirst
      rw [hrun, Except.ok_bind, Except.ok_bind]
      exact (hk a behind reached).deeper (by omega)

theorem mirrors_bump {k : Unit → Counting α} (h : Mirrors limit depth t.bump (k ()) result) :
    Mirrors limit depth t (bump >>= k) result := h

theorem mirrors_expect {kind : TokenKind} {k : Unit → Counting α}
    {g : Tokens → Except Error (α × Tokens)}
    (hk : ∀ behind, Mirrors limit depth behind (k ()) (g behind)) :
    Mirrors limit depth t (expect kind >>= k) (t.expect kind >>= g) := by
  intro deepest
  have hbind : (expect kind >>= k) ⟨t, depth, deepest⟩ =
      (t.expect kind).map (fun behind => ((), ⟨behind, depth, deepest⟩)) >>=
        fun pair => k pair.1 pair.2 := rfl
  rw [hbind]
  cases t.expect kind with
  | error e => rfl
  | ok behind => exact hk behind deepest

theorem mirrors_lift (f : Tokens → Except Error (α × Tokens)) :
    Mirrors limit depth t (lift f) (f t) := by
  intro deepest
  unfold lift
  dsimp only
  cases f t with
  | error e => rfl
  | ok pair => exact ⟨deepest, rfl, le_max_left _ _⟩

theorem mirrors_check {maxDepth : ℕ} {expr : Expr} {k : Unit → Counting α}
    (h : Mirrors limit depth t (k ()) result) :
    Mirrors limit depth t (check maxDepth expr >>= k)
      (Parser.checkExpressionDepth maxDepth 1 expr >>= fun _ => result) := by
  intro deepest
  have hbind : (check maxDepth expr >>= k) ⟨t, depth, deepest⟩ =
      (Parser.checkExpressionDepth maxDepth 1 expr).map (fun _ => ((), ⟨t, depth, deepest⟩)) >>=
        fun pair => k pair.1 pair.2 := rfl
  rw [hbind]
  cases Parser.checkExpressionDepth maxDepth 1 expr with
  | error e => rfl
  | ok u => exact h deepest

/-- What begins at the limit fails. -/
theorem mirrors_limit : Mirrors limit limit t (within limit m) (.error (Parser.nestingError t)) := by
  intro deepest
  have hfails : enter limit ⟨t, limit, deepest⟩ = .error (Parser.nestingError t) :=
    if_pos (le_refl limit)
  have hbind : Counting.within limit m ⟨t, limit, deepest⟩ =
      enter limit ⟨t, limit, deepest⟩ >>= fun pair =>
        (m >>= fun a => leave >>= fun _ => pure a) pair.2 := rfl
  rw [hbind, hfails]
  rfl

/-- What begins below the limit is one deeper, and ends where it began. -/
theorem Mirrors.within (hroom : depth < limit) (h : Mirrors limit (depth + 1) t m result) :
    Mirrors limit depth t (Counting.within limit m) result := by
  intro deepest
  have hinner := h (max deepest (depth + 1))
  have henters : enter limit ⟨t, depth, deepest⟩ =
      .ok ((), ⟨t, depth + 1, max deepest (depth + 1)⟩) := if_neg (not_le.2 hroom)
  have hbind : Counting.within limit m ⟨t, depth, deepest⟩ =
      enter limit ⟨t, depth, deepest⟩ >>= fun pair =>
        m pair.2 >>= fun pair => .ok (pair.1, { pair.2 with depth := pair.2.depth - 1 }) := rfl
  rw [hbind, henters, Except.ok_bind]
  cases result with
  | error e =>
      have hrun : m ⟨t, depth + 1, max deepest (depth + 1)⟩ = .error e := hinner
      rw [hrun]
      rfl
  | ok pair =>
      obtain ⟨a, behind⟩ := pair
      obtain ⟨reached, hrun, hle⟩ := hinner
      rw [hrun]
      exact ⟨reached, rfl, by omega⟩

/-! ## Expressions -/

theorem mirrors_if {p : Prop} [Decidable p] {m' : Counting α}
    {result' : Except Error (α × Tokens)} (h : p → Mirrors limit depth t m result)
    (h' : ¬ p → Mirrors limit depth t m' result') :
    Mirrors limit depth t (if p then m else m') (if p then result else result') := by
  by_cases hp : p
  · rw [if_pos hp, if_pos hp]
    exact h hp
  · rw [if_neg hp, if_neg hp]
    exact h' hp

/-- The nested parses are mirrored. -/
def MirrorsAll (limit depth : ℕ) (nested : ℕ → Counting Expr)
    (parses : ℕ → Tokens → Except Error (Expr × Tokens)) : Prop :=
  ∀ level t, Mirrors limit depth t (nested level) (parses level t)

variable {maxDepth : ℕ} {nested : ℕ → Counting Expr}
  {parses : ℕ → Tokens → Except Error (Expr × Tokens)}

theorem mirrors_operators (h : MirrorsAll limit depth nested parses) (minimum fuel : ℕ) (left : Expr)
    (t : Tokens) : Mirrors limit depth t (operators maxDepth nested minimum fuel left)
      (Parser.operators maxDepth parses minimum fuel left t) := by
  induction fuel generalizing left t with
  | zero => exact mirrors_pure left
  | succ fuel ih =>
      unfold operators Parser.operators
      refine mirrors_ask ?_
      cases t.current.bind TokenKind.binary with
      | none => exact mirrors_pure left
      | some found =>
          refine mirrors_if (fun _ => mirrors_pure left) fun _ => mirrors_bump ?_
          refine (h _ t.bump).bind fun right behind => mirrors_check ?_
          exact ih _ behind

theorem mirrors_arguments (h : MirrorsAll limit depth nested parses) (fuel : ℕ) (t : Tokens) :
    Mirrors limit depth t (arguments (nested 0) fuel) (Parser.arguments (parses 0) fuel t) := by
  induction fuel generalizing t with
  | zero => exact (h 0 t).bind fun arg behind => mirrors_pure [arg]
  | succ fuel ih =>
      refine (h 0 t).bind fun arg behind => mirrors_ask ?_
      refine mirrors_if (fun _ => mirrors_bump ?_) fun _ => mirrors_pure [arg]
      exact (ih behind.bump).bind fun args last => mirrors_pure (arg :: args)

theorem mirrors_nameOrCall (h : MirrorsAll limit depth nested parses) (span : Span) (name : String)
    (t : Tokens) : Mirrors limit depth t (nameOrCall nested span name)
      (Parser.nameOrCall parses span name t) := by
  refine mirrors_ask (mirrors_if (fun _ => mirrors_bump (mirrors_ask ?_)) fun _ => mirrors_pure _)
  refine mirrors_if (fun _ => mirrors_bump (mirrors_pure _)) fun _ => ?_
  refine (mirrors_arguments h _ t.bump).bind fun args behind => ?_
  exact mirrors_expect fun last => mirrors_pure _

theorem mirrors_primaryHead (h : MirrorsAll limit depth nested parses) (t : Tokens) :
    Mirrors limit depth t (primaryHead nested) (Parser.primaryHead parses t) := by
  unfold primaryHead Parser.primaryHead
  refine mirrors_ask ?_
  rcases t.current with _ | kind
  · exact mirrors_fail _
  · cases kind with
    | string text => exact mirrors_bump (mirrors_pure _)
    | integer value => exact mirrors_bump (mirrors_pure _)
    | ident name =>
        refine mirrors_if (fun _ => mirrors_bump (mirrors_pure _)) fun _ => ?_
        exact mirrors_if (fun _ => mirrors_bump (mirrors_nameOrCall h t.span name t.bump))
          fun _ => mirrors_fail _
    | bang => exact mirrors_bump ((h 7 t.bump).bind fun operand behind => mirrors_pure _)
    | minus => exact mirrors_bump ((h 7 t.bump).bind fun operand behind => mirrors_pure _)
    | lParen =>
        refine mirrors_bump ((h 0 t.bump).bind fun inner behind => ?_)
        exact mirrors_expect fun last => mirrors_pure _
    | _ => exact mirrors_fail _

theorem mirrors_primary (h : MirrorsAll limit depth nested parses) (t : Tokens) :
    Mirrors limit depth t (primary maxDepth nested) (Parser.primary maxDepth parses t) := by
  refine mirrors_ask ((mirrors_primaryHead h t).bind fun head behind => ?_)
  refine Mirrors.bind (mirrors_ask (mirrors_lift _)) fun expr last => ?_
  exact mirrors_check (mirrors_pure expr)

/-- The depth and the room that is left for it make up the limit. -/
theorem mirrors_expression (room : ℕ) : ∀ {depth : ℕ}, depth + room = maxDepth →
    MirrorsAll maxDepth depth (expression maxDepth (room + 1)) (Parser.expression maxDepth room) := by
  induction room with
  | zero =>
      rintro depth rfl level t
      exact mirrors_limit
  | succ room ih =>
      intro depth hdepth level t
      have hnested := ih (by omega : depth + 1 + room = maxDepth)
      refine Mirrors.within (by omega) ((mirrors_primary hnested t).bind fun left behind => ?_)
      exact mirrors_ask (mirrors_operators hnested level behind.ahead.length left behind)

/-! ## Statements -/

variable {room : ℕ} {statement : Counting Statement}
  {parse : Tokens → Except Error (Statement × Tokens)}

theorem mirrors_assigned (hroom : depth + room = maxDepth) (operator : TokenKind) (span : Span)
    (t : Tokens) : Mirrors maxDepth depth t (assigned maxDepth (room + 1) operator span)
      (Parser.assigned maxDepth room operator span t) :=
  mirrors_if (fun _ => mirrors_pure _) fun _ => mirrors_expression room hroom 0 t

theorem mirrors_simple (hroom : depth + room = maxDepth) (t : Tokens) :
    Mirrors maxDepth depth t (simple maxDepth (room + 1)) (Parser.simple maxDepth room t) := by
  have hexpression := mirrors_expression room hroom
  refine mirrors_ask (mirrors_if (fun _ => mirrors_bump ?_) fun _ => ?_)
  · refine (mirrors_lift Tokens.identifier).bind fun name behind => ?_
    refine mirrors_expect fun last => ?_
    exact (hexpression 0 last).bind fun value end' => mirrors_pure _
  · cases Parser.assignmentAt t with
    | none => exact (hexpression 0 t).bind fun value behind => mirrors_pure _
    | some found =>
        refine mirrors_bump (mirrors_bump ?_)
        exact (mirrors_assigned hroom _ _ t.bump.bump).bind fun rhs behind => mirrors_pure _

theorem mirrors_statementList (h : ∀ t, Mirrors limit depth t statement (parse t)) (block : Bool)
    (fuel : ℕ) (t : Tokens) : Mirrors limit depth t (statementList statement block fuel)
      (Parser.statementList parse block fuel t) := by
  induction fuel generalizing t with
  | zero => exact mirrors_pure []
  | succ fuel ih =>
      refine mirrors_ask (mirrors_if (fun _ => mirrors_pure []) fun _ => ?_)
      refine (h t).bind fun first behind => ?_
      exact (ih behind).bind fun rest last => mirrors_pure (first :: rest)

theorem mirrors_braced (h : ∀ t, Mirrors limit depth t statement (parse t)) (t : Tokens) :
    Mirrors limit depth t (braced statement) (Parser.braced parse t) :=
  mirrors_ask (mirrors_if (fun _ => h t) fun _ => mirrors_fail _)

theorem mirrors_parenthesized (hroom : depth + room = maxDepth) (t : Tokens) :
    Mirrors maxDepth depth t (parenthesized maxDepth (room + 1))
      (Parser.parenthesized maxDepth room t) := by
  refine mirrors_expect fun first => ?_
  refine (mirrors_expression room hroom 0 first).bind fun condition second => ?_
  exact mirrors_expect fun last => mirrors_pure condition

theorem mirrors_alternative (h : ∀ t, Mirrors limit depth t statement (parse t)) (t : Tokens) :
    Mirrors limit depth t (alternative statement) (Parser.alternative parse t) := by
  refine mirrors_ask (mirrors_if (fun _ => mirrors_bump (mirrors_ask ?_)) fun _ => mirrors_pure _)
  refine mirrors_if (fun _ => ?_) fun _ => ?_
  · exact (h t.bump).bind fun other behind => mirrors_pure _
  · exact (mirrors_braced h t.bump).bind fun other behind => mirrors_pure _

theorem mirrors_clause {item : Counting β} {parse : Tokens → Except Error (β × Tokens)}
    (h : ∀ t, Mirrors limit depth t item (parse t)) (closing : TokenKind) (t : Tokens) :
    Mirrors limit depth t (clause closing item) (Parser.clause closing parse t) := by
  refine mirrors_ask (mirrors_if (fun _ => ?_) fun _ => ?_)
  · exact mirrors_expect fun last => mirrors_pure none
  · exact (h t).bind fun value behind => mirrors_expect fun last => mirrors_pure (some value)

theorem mirrors_statementKind (hroom : depth + room = maxDepth)
    (h : ∀ t, Mirrors maxDepth depth t statement (parse t)) (t : Tokens) :
    Mirrors maxDepth depth t (statementKind maxDepth (room + 1) statement)
      (Parser.statementKind maxDepth room parse t) := by
  have hcondition := mirrors_expression room hroom
  have hsimple : ∀ t, Mirrors maxDepth depth t (simple maxDepth (room + 1)) _ :=
    mirrors_simple hroom
  refine mirrors_ask (mirrors_if (fun _ => mirrors_bump ?_) fun _ =>
    mirrors_if (fun _ => mirrors_bump ?_) fun _ => mirrors_if (fun _ => mirrors_bump ?_) fun _ =>
    mirrors_if (fun _ => mirrors_bump ?_) fun _ => mirrors_if (fun _ => mirrors_bump ?_) fun _ =>
    mirrors_if (fun _ => mirrors_bump ?_) fun _ => mirrors_if (fun _ => mirrors_bump ?_) fun _ => ?_)
  · refine Mirrors.bind (mirrors_ask (mirrors_statementList h true _ t.bump)) fun body behind => ?_
    exact mirrors_expect fun last => mirrors_pure _
  · refine (mirrors_parenthesized hroom t.bump).bind fun condition first => ?_
    refine (mirrors_braced h first).bind fun body second => ?_
    exact (mirrors_alternative h second).bind fun other last => mirrors_pure _
  · refine (mirrors_parenthesized hroom t.bump).bind fun condition first => ?_
    exact (mirrors_braced h first).bind fun body last => mirrors_pure _
  · refine mirrors_expect fun first => ?_
    refine (mirrors_clause hsimple .semicolon first).bind fun init second => ?_
    refine (mirrors_clause (hcondition 0) .semicolon second).bind fun condition third => ?_
    refine (mirrors_clause hsimple .rParen third).bind fun step fourth => ?_
    exact (mirrors_braced h fourth).bind fun body last => mirrors_pure _
  · exact mirrors_expect fun last => mirrors_pure _
  · exact mirrors_expect fun last => mirrors_pure _
  · exact mirrors_pure _
  · refine (hsimple t).bind fun inner behind => ?_
    exact mirrors_expect fun last => mirrors_pure _

theorem mirrors_statement (room : ℕ) : ∀ {depth : ℕ}, depth + room = maxDepth → ∀ t,
    Mirrors maxDepth depth t (Counting.statement maxDepth (room + 1))
      (Parser.statement maxDepth room t) := by
  induction room with
  | zero =>
      rintro depth rfl t
      exact mirrors_limit
  | succ room ih =>
      intro depth hdepth t
      have hroom : depth + 1 + room = maxDepth := by omega
      exact Mirrors.within (by omega) (mirrors_statementKind hroom (ih hroom) t)

end

end Counting

/-- The parser with the counter is the parser, and never deeper than the limit. -/
theorem parseCounting_of_parse {source : String} {limits : Limits} {script : List Statement}
    (h : parse source limits = .ok script) :
    ∃ deepest, parseCounting source limits = .ok (script, deepest) ∧
      deepest ≤ limits.maxNesting := by
  unfold parse at h
  split_ifs at h with hlength
  obtain ⟨tokens, htokens, h⟩ := Except.exists_of_bind_ok h
  obtain ⟨⟨statements, u⟩, hstatements, h⟩ := Except.exists_of_bind_ok h
  cases h
  have hall := Counting.mirrors_statement limits.maxNesting (Nat.zero_add limits.maxNesting)
  have hrun := Counting.mirrors_statementList hall false tokens.ahead.length tokens 0
  rw [hstatements] at hrun
  obtain ⟨reached, hrun, hle⟩ := hrun
  refine ⟨reached, ?_, by omega⟩
  unfold parseCounting
  rw [if_neg hlength, htokens, Except.ok_bind, hrun]
  rfl

/-! ## Main results -/

/-- The limit covers the depth of the parser, and the trees exactly when every assignment by an
operator has an expression lower than the limit behind it. -/
theorem nesting_covers_iff {source : String} {limits : Limits} {script : List Statement}
    (h : parse source limits = .ok script) :
    ∃ tokens deepest, lex source limits.maxStringBytes = .ok tokens ∧
      parseCounting source limits = .ok (script, deepest) ∧
      (((∀ e ∈ statementsExpressions script, e.depth ≤ limits.maxNesting) ∧
          deepest ≤ limits.maxNesting) ↔
        LowUpdates limits.maxNesting tokens.kinds []) := by
  obtain ⟨tokens, htokens, htrees⟩ := parse_expressions_iff h
  obtain ⟨deepest, hcounting, hle⟩ := parseCounting_of_parse h
  exact ⟨tokens, deepest, htokens, hcounting, by rw [htrees, and_iff_left hle]⟩

theorem nesting_covers_iff_one : ∃ script, parse "x+=1;" Limits.default = .ok script ∧
    ∃ tokens deepest, lex "x+=1;" Limits.default.maxStringBytes = .ok tokens ∧
      parseCounting "x+=1;" Limits.default = .ok (script, deepest) ∧
      (((∀ e ∈ statementsExpressions script, e.depth ≤ Limits.default.maxNesting) ∧
          deepest ≤ Limits.default.maxNesting) ↔
        LowUpdates Limits.default.maxNesting tokens.kinds []) :=
  ⟨_, rfl, nesting_covers_iff rfl⟩

/-- An assignment by an operator makes of a tree which is as high as the limit a higher one. -/
theorem assigned_tree_exceeds : ¬ ∀ (source : String) (limits : Limits) (script : List Statement),
    1 ≤ limits.maxNesting → limits.maxNesting ≤ 128 → parse source limits = .ok script →
    (∀ e ∈ statementsExpressions script, e.depth ≤ limits.maxNesting) ∧
      ∀ deepest, parseCounting source limits = .ok (script, deepest) →
        deepest ≤ limits.maxNesting := by
  intro h
  have hdepths : (parse "x+=a.b;" { Limits.default with maxNesting := 2 }).map
      (fun script => (statementsExpressions script).map Expr.depth) = .ok [3] := rfl
  cases hparse : parse "x+=a.b;" { Limits.default with maxNesting := 2 } with
  | error e =>
      rw [hparse] at hdepths
      cases hdepths
  | ok script =>
      rw [hparse] at hdepths
      have hthree : (statementsExpressions script).map Expr.depth = [3] := Except.ok.inj hdepths
      have hmem : 3 ∈ (statementsExpressions script).map Expr.depth := by
        rw [hthree]
        exact List.mem_cons_self
      obtain ⟨e, he, hdepth⟩ := List.mem_map.1 hmem
      have hle := (h _ _ script (by decide) (by decide) hparse).1 e he
      rw [hdepth] at hle
      exact absurd hle (by decide)

end SerialPlatform.Script
