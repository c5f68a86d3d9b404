import SerialPlatform.ScriptCompiler

/-!
# The shape of parsed scripts

The parser bounds the depth of every expression, gives every branch and every
loop a body in braces, and puts only simple statements into the head of a `for`.
-/

namespace SerialPlatform.Script

mutual

def Expr.depth : Expr → ℕ
  | .literal .. => 1
  | .variable .. => 1
  | .member _ base _ => Expr.depth base + 1
  | .unary _ _ operand => Expr.depth operand + 1
  | .binary _ _ left right => max (Expr.depth left) (Expr.depth right) + 1
  | .call _ _ args => argumentsDepth args + 1

def argumentsDepth : List Expr → ℕ
  | [] => 0
  | first :: rest => max (Expr.depth first) (argumentsDepth rest)

end

/-- A statement which declares, assigns or evaluates. -/
def Statement.isSimple : Statement → Bool
  | .let .. | .assign .. | .expression .. => true
  | _ => false

mutual

/-- The shape of a parsed statement, with expressions of at most this depth. -/
def Statement.Shaped (maxDepth : ℕ) : Statement → Prop
  | .let _ _ value => value.depth ≤ maxDepth
  | .assign _ _ value => value.depth ≤ maxDepth
  | .expression _ value => value.depth ≤ maxDepth
  | .block _ body => statementsShaped maxDepth body
  | .cond _ condition body alternative =>
      condition.depth ≤ maxDepth ∧ Compiler.isLet body = false ∧
        Statement.Shaped maxDepth body ∧
        alternative.all (fun other => !Compiler.isLet other) ∧
        optionShaped maxDepth alternative
  | .while _ condition body =>
      condition.depth ≤ maxDepth ∧ Compiler.isLet body = false ∧ Statement.Shaped maxDepth body
  | .for _ init condition step body =>
      init.all Statement.isSimple ∧ optionShaped maxDepth init ∧
        condition.all (fun test => test.depth ≤ maxDepth) ∧
        step.all Statement.isSimple ∧ optionShaped maxDepth step ∧
        Compiler.isLet body = false ∧ Statement.Shaped maxDepth body
  | .break _ => True
  | .continue _ => True
  | .empty _ => True

def statementsShaped (maxDepth : ℕ) : List Statement → Prop
  | [] => True
  | first :: rest => Statement.Shaped maxDepth first ∧ statementsShaped maxDepth rest

def optionShaped (maxDepth : ℕ) : Option Statement → Prop
  | none => True
  | some inner => Statement.Shaped maxDepth inner

end

@[simp] theorem Expr.depth_withSpan (span : Span) (e : Expr) :
    (e.withSpan span).depth = e.depth := by
  cases e <;> rfl

theorem Statement.shaped_withSpan {maxDepth : ℕ} {s : Statement} (span : Span)
    (h : s.Shaped maxDepth) : (s.withSpan span).Shaped maxDepth := by
  cases s <;> exact h

namespace Parser

theorem checkDepth_ok {maxDepth depth : ℕ} {span : Span}
    (h : checkDepth maxDepth depth span = .ok ()) : depth ≤ maxDepth := by
  unfold checkDepth at h
  split_ifs at h with hdeep
  exact not_lt.mp hdeep

mutual

theorem checkExpressionDepth_ok {maxDepth depth : ℕ} (e : Expr)
    (h : checkExpressionDepth maxDepth depth e = .ok ()) : depth + e.depth ≤ maxDepth + 1 := by
  match e with
  | .literal .. =>
      have := checkDepth_ok h
      simp only [Expr.depth]
      omega
  | .variable .. =>
      have := checkDepth_ok h
      simp only [Expr.depth]
      omega
  | .member _ base _ =>
      obtain ⟨_, -, h⟩ := Except.exists_of_bind_ok h
      have := checkExpressionDepth_ok base h
      simp only [Expr.depth]
      omega
  | .unary _ _ operand =>
      obtain ⟨_, -, h⟩ := Except.exists_of_bind_ok h
      have := checkExpressionDepth_ok operand h
      simp only [Expr.depth]
      omega
  | .binary _ _ left right =>
      obtain ⟨_, -, h⟩ := Except.exists_of_bind_ok h
      obtain ⟨_, hright, hleft⟩ := Except.exists_of_bind_ok h
      have := checkExpressionDepth_ok right hright
      have := checkExpressionDepth_ok left hleft
      simp only [Expr.depth]
      omega
  | .call _ _ args =>
      obtain ⟨_, hnode, h⟩ := Except.exists_of_bind_ok h
      have := checkDepth_ok hnode
      rcases checkArgumentDepth_ok args h with rfl | hargs
      · simp only [Expr.depth, argumentsDepth]
        omega
      · simp only [Expr.depth]
        omega

theorem checkArgumentDepth_ok {maxDepth depth : ℕ} (args : List Expr)
    (h : checkArgumentDepth maxDepth depth args = .ok ()) :
    args = [] ∨ depth + argumentsDepth args ≤ maxDepth + 1 := by
  match args with
  | [] => exact .inl rfl
  | first :: rest =>
      obtain ⟨_, hrest, hfirst⟩ := Except.exists_of_bind_ok h
      have hdepth := checkExpressionDepth_ok first hfirst
      have hothers := checkArgumentDepth_ok rest hrest
      right
      simp only [argumentsDepth]
      rcases hothers with rfl | hothers
      · simp only [argumentsDepth]
        omega
      · omega

end

/-! ## Expressions -/

section
variable {maxDepth : ℕ}

theorem checked_depth {e : Expr} (h : checkExpressionDepth maxDepth 1 e = .ok ()) :
    e.depth ≤ maxDepth := by
  have := checkExpressionDepth_ok e h
  omega

theorem operators_depth {operand : ℕ → Tokens → Except Error (Expr × Tokens)} {minimum fuel : ℕ}
    {left e : Expr} {t t' : Tokens} (hleft : left.depth ≤ maxDepth)
    (h : operators maxDepth operand minimum fuel left t = .ok (e, t')) : e.depth ≤ maxDepth := by
  induction fuel generalizing left t with
  | zero =>
      cases h
      exact hleft
  | succ fuel ih =>
      rw [operators] at h
      split at h
      · cases h
        exact hleft
      · split_ifs at h
        · cases h
          exact hleft
        · obtain ⟨⟨right, t₁⟩, -, h⟩ := Except.exists_of_bind_ok h
          obtain ⟨_, hchecked, h⟩ := Except.exists_of_bind_ok h
          exact ih (checked_depth hchecked) h

theorem primary_depth {nested : ℕ → Tokens → Except Error (Expr × Tokens)} {e : Expr}
    {t t' : Tokens} (h : primary maxDepth nested t = .ok (e, t')) : e.depth ≤ maxDepth := by
  obtain ⟨⟨head, t₁⟩, -, h⟩ := Except.exists_of_bind_ok h
  obtain ⟨⟨other, t₂⟩, -, h⟩ := Except.exists_of_bind_ok h
  obtain ⟨_, hchecked, h⟩ := Except.exists_of_bind_ok h
  cases h
  exact checked_depth hchecked

/-- The parser returns no expression which is deeper than its limit. -/
theorem expression_depth {room minimum : ℕ} {e : Expr} {t t' : Tokens}
    (h : expression maxDepth room minimum t = .ok (e, t')) : e.depth ≤ maxDepth := by
  cases room with
  | zero => cases h
  | succ room =>
      obtain ⟨⟨left, t₁⟩, hleft, h⟩ := Except.exists_of_bind_ok h
      exact operators_depth (primary_depth hleft) h

/-! ## Statements -/

theorem assigned_depth {room : ℕ} {operator : TokenKind} {span : Span} {e : Expr}
    {t t' : Tokens} (hpositive : 1 ≤ maxDepth)
    (h : assigned maxDepth room operator span t = .ok (e, t')) : e.depth ≤ maxDepth := by
  unfold assigned at h
  split_ifs at h
  · cases h
    exact hpositive
  · exact expression_depth h

/-- `x op= e` is one deeper than `e`. -/
theorem compound_depth {operator : Option Binary} {span : Span} {name : String} {rhs : Expr}
    (hpositive : 1 ≤ maxDepth) (h : rhs.depth ≤ maxDepth) :
    (compound operator span name rhs).depth ≤ maxDepth + 1 := by
  cases operator with
  | none => exact Nat.le_succ_of_le h
  | some operator =>
      simp only [compound, Expr.depth]
      omega

theorem simple_shaped {room : ℕ} {s : Statement} {t t' : Tokens} (hpositive : 1 ≤ maxDepth)
    (h : simple maxDepth room t = .ok (s, t')) :
    s.isSimple ∧ s.Shaped (maxDepth + 1) := by
  unfold simple at h
  split_ifs at h
  · obtain ⟨⟨name, t₁⟩, -, h⟩ := Except.exists_of_bind_ok h
    obtain ⟨t₂, -, h⟩ := Except.exists_of_bind_ok h
    obtain ⟨⟨value, t₃⟩, hvalue, h⟩ := Except.exists_of_bind_ok h
    cases h
    exact ⟨rfl, Nat.le_succ_of_le (expression_depth hvalue)⟩
  · split at h
    · obtain ⟨⟨rhs, t₁⟩, hrhs, h⟩ := Except.exists_of_bind_ok h
      cases h
      exact ⟨rfl, compound_depth hpositive (assigned_depth hpositive hrhs)⟩
    · obtain ⟨⟨value, t₁⟩, hvalue, h⟩ := Except.exists_of_bind_ok h
      cases h
      exact ⟨rfl, Nat.le_succ_of_le (expression_depth hvalue)⟩

theorem parenthesized_depth {room : ℕ} {e : Expr} {t t' : Tokens}
    (h : parenthesized maxDepth room t = .ok (e, t')) : e.depth ≤ maxDepth := by
  obtain ⟨t₁, -, h⟩ := Except.exists_of_bind_ok h
  obtain ⟨⟨condition, t₂⟩, hcondition, h⟩ := Except.exists_of_bind_ok h
  obtain ⟨t₃, -, h⟩ := Except.exists_of_bind_ok h
  cases h
  exact expression_depth hcondition

theorem clause_some {α : Type} {closing : TokenKind}
    {item : Tokens → Except Error (α × Tokens)} {value : Option α} {t t' : Tokens}
    {P : α → Prop} (hitem : ∀ {t t' a}, item t = .ok (a, t') → P a)
    (h : clause closing item t = .ok (value, t')) : ∀ a, value = some a → P a := by
  unfold clause at h
  split_ifs at h
  · obtain ⟨t₁, -, h⟩ := Except.exists_of_bind_ok h
    cases h
    exact fun a ha => nomatch ha
  · obtain ⟨⟨a, t₁⟩, ha, h⟩ := Except.exists_of_bind_ok h
    obtain ⟨t₂, -, h⟩ := Except.exists_of_bind_ok h
    cases h
    intro b hb
    cases hb
    exact hitem ha

/-- A statement which starts with a brace or with `if` declares nothing. -/
theorem statementKind_notLet {room : ℕ} {nested : Tokens → Except Error (Statement × Tokens)}
    {s : Statement} {t t' : Tokens} (hstart : t.isAt .lBrace ∨ t.keyword "if")
    (h : statementKind maxDepth room nested t = .ok (s, t')) : Compiler.isLet s = false := by
  unfold statementKind at h
  by_cases hbrace : t.isAt .lBrace
  · rw [if_pos hbrace] at h
    obtain ⟨⟨body, t₁⟩, -, h⟩ := Except.exists_of_bind_ok h
    obtain ⟨t₂, -, h⟩ := Except.exists_of_bind_ok h
    cases h
    rfl
  · rw [if_neg hbrace, if_pos (hstart.resolve_left hbrace)] at h
    obtain ⟨⟨condition, t₁⟩, -, h⟩ := Except.exists_of_bind_ok h
    obtain ⟨⟨body, t₂⟩, -, h⟩ := Except.exists_of_bind_ok h
    obtain ⟨⟨other, t₃⟩, -, h⟩ := Except.exists_of_bind_ok h
    cases h
    rfl

theorem statement_notLet {room : ℕ} {s : Statement} {t t' : Tokens}
    (hstart : t.isAt .lBrace ∨ t.keyword "if")
    (h : statement maxDepth room t = .ok (s, t')) : Compiler.isLet s = false := by
  cases room with
  | zero => cases h
  | succ room => exact statementKind_notLet hstart h

theorem braced_ok {nested : Tokens → Except Error (Statement × Tokens)} {s : Statement}
    {t t' : Tokens} (h : braced nested t = .ok (s, t')) :
    t.isAt .lBrace ∧ nested t = .ok (s, t') := by
  unfold braced at h
  split_ifs at h with hbrace
  exact ⟨hbrace, h⟩

theorem statementList_shaped {nested : Tokens → Except Error (Statement × Tokens)}
    {block : Bool} {fuel : ℕ} {body : List Statement} {t t' : Tokens} {depth : ℕ}
    (hnested : ∀ {t t' s}, nested t = .ok (s, t') → s.Shaped depth)
    (h : statementList nested block fuel t = .ok (body, t')) : statementsShaped depth body := by
  induction fuel generalizing t body with
  | zero =>
      cases h
      trivial
  | succ fuel ih =>
      rw [statementList] at h
      split_ifs at h
      · cases h
        trivial
      · obtain ⟨⟨first, t₁⟩, hfirst, h⟩ := Except.exists_of_bind_ok h
        obtain ⟨⟨rest, t₂⟩, hrest, h⟩ := Except.exists_of_bind_ok h
        cases h
        exact ⟨hnested hfirst, ih hrest⟩

/-- The shape of what one level of the parser returns. -/
theorem statementKind_shaped {room : ℕ} (hpositive : 1 ≤ maxDepth)
    (hnested : ∀ {t t' s}, statement maxDepth room t = .ok (s, t') → s.Shaped (maxDepth + 1))
    {s : Statement} {t t' : Tokens}
    (h : statementKind maxDepth room (statement maxDepth room) t = .ok (s, t')) :
    s.Shaped (maxDepth + 1) := by
  unfold statementKind at h
  split_ifs at h
  · obtain ⟨⟨body, t₁⟩, hbody, h⟩ := Except.exists_of_bind_ok h
    obtain ⟨t₂, -, h⟩ := Except.exists_of_bind_ok h
    cases h
    exact statementList_shaped hnested hbody
  · obtain ⟨⟨condition, t₁⟩, hcondition, h⟩ := Except.exists_of_bind_ok h
    obtain ⟨⟨body, t₂⟩, hbody, h⟩ := Except.exists_of_bind_ok h
    obtain ⟨⟨other, t₃⟩, hother, h⟩ := Except.exists_of_bind_ok h
    cases h
    obtain ⟨hbrace, hbody⟩ := braced_ok hbody
    refine ⟨Nat.le_succ_of_le (parenthesized_depth hcondition),
      statement_notLet (.inl hbrace) hbody, hnested hbody, ?_⟩
    unfold alternative at hother
    split_ifs at hother with helse hif
    · obtain ⟨⟨inner, t₄⟩, hinner, hother⟩ := Except.exists_of_bind_ok hother
      cases hother
      have hnot := statement_notLet (.inr hif) hinner
      exact ⟨by simp [hnot], hnested hinner⟩
    · obtain ⟨⟨inner, t₄⟩, hinner, hother⟩ := Except.exists_of_bind_ok hother
      cases hother
      obtain ⟨hbrace', hinner⟩ := braced_ok hinner
      have hnot := statement_notLet (.inl hbrace') hinner
      exact ⟨by simp [hnot], hnested hinner⟩
    · cases hother
      exact ⟨rfl, trivial⟩
  · obtain ⟨⟨condition, t₁⟩, hcondition, h⟩ := Except.exists_of_bind_ok h
    obtain ⟨⟨body, t₂⟩, hbody, h⟩ := Except.exists_of_bind_ok h
    cases h
    obtain ⟨hbrace, hbody⟩ := braced_ok hbody
    exact ⟨Nat.le_succ_of_le (parenthesized_depth hcondition),
      statement_notLet (.inl hbrace) hbody, hnested hbody⟩
  · obtain ⟨t₁, -, h⟩ := Except.exists_of_bind_ok h
    obtain ⟨⟨init, t₂⟩, hinit, h⟩ := Except.exists_of_bind_ok h
    obtain ⟨⟨condition, t₃⟩, hcondition, h⟩ := Except.exists_of_bind_ok h
    obtain ⟨⟨step, t₄⟩, hstep, h⟩ := Except.exists_of_bind_ok h
    obtain ⟨⟨body, t₅⟩, hbody, h⟩ := Except.exists_of_bind_ok h
    cases h
    obtain ⟨hbrace, hbody⟩ := braced_ok hbody
    have hinit := clause_some (simple_shaped hpositive) hinit
    have hstep := clause_some (simple_shaped hpositive) hstep
    have hcondition := clause_some expression_depth hcondition
    refine ⟨?_, ?_, ?_, ?_, ?_, statement_notLet (.inl hbrace) hbody, hnested hbody⟩
    · cases init with
      | none => rfl
      | some init => exact (hinit init rfl).1
    · cases init with
      | none => trivial
      | some init => exact (hinit init rfl).2
    · cases condition with
      | none => rfl
      | some condition => simpa using Nat.le_succ_of_le (hcondition condition rfl)
    · cases step with
      | none => rfl
      | some step => exact (hstep step rfl).1
    · cases step with
      | none => trivial
      | some step => exact (hstep step rfl).2
  · obtain ⟨t₁, -, h⟩ := Except.exists_of_bind_ok h
    cases h
    trivial
  · obtain ⟨t₁, -, h⟩ := Except.exists_of_bind_ok h
    cases h
    trivial
  · cases h
    trivial
  · obtain ⟨⟨inner, t₁⟩, hinner, h⟩ := Except.exists_of_bind_ok h
    obtain ⟨t₂, -, h⟩ := Except.exists_of_bind_ok h
    cases h
    exact Statement.shaped_withSpan _ (simple_shaped hpositive hinner).2

theorem statement_shaped {room : ℕ} (hpositive : 1 ≤ maxDepth) {s : Statement} {t t' : Tokens}
    (h : statement maxDepth room t = .ok (s, t')) : s.Shaped (maxDepth + 1) := by
  induction room generalizing s t t' with
  | zero => cases h
  | succ room ih => exact statementKind_shaped hpositive ih h

end

end Parser

/-- The shape of a parsed script. -/
theorem parse_shaped {source : String} {limits : Limits} {script : List Statement}
    (hpositive : 1 ≤ limits.maxNesting) (h : parse source limits = .ok script) :
    statementsShaped (limits.maxNesting + 1) script := by
  unfold parse at h
  split_ifs at h
  obtain ⟨tokens, -, h⟩ := Except.exists_of_bind_ok h
  obtain ⟨⟨statements, t⟩, hstatements, h⟩ := Except.exists_of_bind_ok h
  cases h
  exact Parser.statementList_shaped (Parser.statement_shaped hpositive) hstatements

end SerialPlatform.Script
