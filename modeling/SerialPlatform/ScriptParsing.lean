import SerialPlatform.ScriptGrammar
import SerialPlatform.ScriptShape

/-!
# Parsing expressions by the grammar

The parser climbs precedences.  On the tokens of a derivation, with nothing behind them that
goes on with it, it builds the tree of the derivation; and where it builds a tree, it has
read a derivation.
-/

namespace SerialPlatform.Script

/-! ## Tokens -/

namespace Tokens

def kinds (t : Tokens) : List TokenKind := t.ahead.map Token.kind

def skip (t : Tokens) (count : ℕ) : Tokens := ⟨t.ahead.drop count, t.eof⟩

section

variable {t : Tokens} {kind : TokenKind} {tokens more : List TokenKind}

@[simp] theorem skip_zero (t : Tokens) : t.skip 0 = t := rfl

@[simp] theorem skip_skip (t : Tokens) (first second : ℕ) :
    (t.skip first).skip second = t.skip (first + second) := by
  simp [skip]

theorem bump_eq_skip (t : Tokens) : t.bump = t.skip 1 := by
  simp [bump, skip]

theorem skip_cons (t : Tokens) (kind : TokenKind) (tokens : List TokenKind) :
    t.skip (kind :: tokens).length = t.bump.skip tokens.length := by
  rw [bump_eq_skip, skip_skip, List.length_cons, Nat.add_comm]

theorem skip_append (t : Tokens) (tokens more : List TokenKind) :
    t.skip (tokens ++ more).length = (t.skip tokens.length).skip more.length := by
  rw [skip_skip, List.length_append]

theorem current_eq_head (t : Tokens) : t.current = t.kinds.head? := by
  simp [current, kinds]

theorem length_kinds (t : Tokens) : t.kinds.length = t.ahead.length := by
  simp [kinds]

theorem kinds_skip (h : t.kinds = tokens ++ more) : (t.skip tokens.length).kinds = more := by
  have hdrop : (t.skip tokens.length).kinds = t.kinds.drop tokens.length := by
    simp [kinds, skip]
  rw [hdrop, h, List.drop_left]

theorem kinds_bump (h : t.kinds = kind :: more) : t.bump.kinds = more := by
  rw [bump_eq_skip]
  exact @kinds_skip t [kind] more h

theorem isAt_of_kinds (h : t.kinds = kind :: more) : t.isAt kind = true := by
  simp [isAt, current_eq_head, h]

theorem expect_of_kinds (h : t.kinds = kind :: more) : t.expect kind = .ok t.bump := by
  rw [expect, if_pos (isAt_of_kinds h)]

end

end Tokens

/-! ## Heights -/

mutual

def Tree.height : Tree → ℕ
  | .literal _ => 1
  | .variable _ => 1
  | .member base _ => Tree.height base + 1
  | .unary _ operand => Tree.height operand + 1
  | .binary _ left right => max (Tree.height left) (Tree.height right) + 1
  | .call _ args => argumentsHeight args + 1

def argumentsHeight : List Tree → ℕ
  | [] => 0
  | arg :: args => max (Tree.height arg) (argumentsHeight args)

end

mutual

@[simp] theorem Expr.height_tree (e : Expr) : e.tree.height = e.depth := by
  match e with
  | .literal .. => rfl
  | .variable .. => rfl
  | .member _ base _ => simp [Expr.tree, Tree.height, Expr.depth, Expr.height_tree base]
  | .unary _ _ operand => simp [Expr.tree, Tree.height, Expr.depth, Expr.height_tree operand]
  | .binary _ _ left right =>
      simp [Expr.tree, Tree.height, Expr.depth, Expr.height_tree left, Expr.height_tree right]
  | .call _ _ args => simp [Expr.tree, Tree.height, Expr.depth, argumentsHeight_trees args]

theorem argumentsHeight_trees (args : List Expr) :
    argumentsHeight (argumentTrees args) = argumentsDepth args := by
  match args with
  | [] => rfl
  | arg :: args =>
      simp [argumentTrees, argumentsHeight, argumentsDepth, Expr.height_tree arg,
        argumentsHeight_trees args]

end

mutual

/-- A tree is not higher than its tokens are many. -/
theorem Derives.height_le {level : ℕ} {tokens : List TokenKind} {tree : Tree}
    (h : Derives level tokens tree) : tree.height ≤ tokens.length := by
  match h with
  | .tighter _ h => exact h.height_le
  | .binary _ hleft hright =>
      have hl := hleft.height_le
      have hr := hright.height_le
      simp only [Tree.height, List.length_append, List.length_cons]
      omega
  | .unary _ h =>
      have hoperand := h.height_le
      simp only [Tree.height, List.length_cons]
      omega
  | .member h _ =>
      have hbase := h.height_le
      simp only [Tree.height, List.length_append, List.length_cons, List.length_nil]
      omega
  | .string _ | .integer _ | .boolean _ | .variable _ => exact le_refl 1
  | .call _ h =>
      have hargs := h.height_le
      simp only [Tree.height, List.length_append, List.length_cons, List.length_nil]
      omega
  | .group h =>
      have hinner := h.height_le
      simp only [List.length_append, List.length_cons, List.length_nil]
      omega

theorem DerivesArguments.height_le {tokens : List TokenKind} {args : List Tree}
    (h : DerivesArguments tokens args) : argumentsHeight args ≤ tokens.length := by
  match h with
  | .none => exact le_refl 0
  | .last h =>
      have harg := h.height_le
      simp only [argumentsHeight]
      omega
  | .more h hrest =>
      have harg := h.height_le
      have hothers := hrest.height_le
      simp only [argumentsHeight, List.length_append, List.length_cons] at hothers ⊢
      omega

end

/-! ## The beginning and the end of a derivation -/

/-- The tokens end with a variable, which a parenthesis would make a call. -/
def EndsInVariable (tokens : List TokenKind) : Prop :=
  ∃ before name, tokens = before ++ [.ident name] ∧ IsName name ∧ before.getLast? ≠ some .dot

section

variable {tokens more : List TokenKind} {token : TokenKind}

theorem EndsInVariable.cons (h : EndsInVariable tokens) (htoken : token ≠ .dot) :
    EndsInVariable (token :: tokens) := by
  obtain ⟨before, name, rfl, hname, hlast⟩ := h
  refine ⟨token :: before, name, rfl, hname, ?_⟩
  cases before with
  | nil => simpa using htoken
  | cons first before => simpa using hlast

theorem EndsInVariable.append (h : EndsInVariable (token :: tokens))
    (htoken : ∀ name, token ≠ .ident name) : EndsInVariable (more ++ token :: tokens) := by
  obtain ⟨before, name, heq, hname, hlast⟩ := h
  cases before with
  | nil => exact absurd (List.cons.inj heq).1 (htoken name)
  | cons first before =>
      refine ⟨more ++ first :: before, name, by rw [heq, List.append_assoc], hname, ?_⟩
      rw [List.getLast?_append_cons]
      exact hlast

end

/-- An expression begins with a token which begins no other construct. -/
theorem Derives.head {level : ℕ} {tokens : List TokenKind} {tree : Tree}
    (h : Derives level tokens tree) :
    ∃ first rest, tokens = first :: rest ∧ first ≠ .rParen := by
  match h with
  | .tighter _ h => exact h.head
  | .binary _ hleft _ =>
      obtain ⟨first, rest, rfl, hfirst⟩ := hleft.head
      exact ⟨first, _, rfl, hfirst⟩
  | .unary htoken _ =>
      refine ⟨_, _, rfl, ?_⟩
      rintro rfl
      cases htoken
  | .member h _ =>
      obtain ⟨first, rest, rfl, hfirst⟩ := h.head
      exact ⟨first, _, rfl, hfirst⟩
  | .string _ | .integer _ | .boolean _ | .variable _ | .call _ _ | .group _ =>
      exact ⟨_, _, rfl, by simp⟩

theorem DerivesArguments.head {tokens : List TokenKind} {args : List Tree}
    (h : DerivesArguments tokens args) (hsome : args ≠ []) :
    ∃ first rest, tokens = first :: rest ∧ first ≠ .rParen := by
  match h with
  | .none => exact absurd rfl hsome
  | .last h => exact h.head
  | .more h _ =>
      obtain ⟨first, rest, rfl, hfirst⟩ := h.head
      exact ⟨first, _, rfl, hfirst⟩

/-- What stands behind the tokens does not go on with them, on a level. -/
structure Stops (minimum : ℕ) (tokens more : List TokenKind) : Prop where
  operator : ∀ operator, more.head? = some (Binary.token operator) → operator.level < minimum
  dot : more.head? ≠ some .dot
  call : more.head? = some .lParen → ¬ EndsInVariable tokens

/-! ## Decomposition of derivations -/

/-- An operator with its right operand. -/
structure OperatorSegment where
  operator : Binary
  operand : List TokenKind
  tree : Tree
  derives : Derives (operator.level + 1) operand tree

def OperatorSegment.tokens (segment : OperatorSegment) : List TokenKind :=
  segment.operator.token :: segment.operand

/-- The tree of operators which associate to the left. -/
def foldSegments (left : Tree) (segments : List OperatorSegment) : Tree :=
  segments.foldl (fun left segment => .binary segment.operator left segment.tree) left

/-- An expression is an operand and segments with operators of falling levels. -/
theorem Derives.segments {level : ℕ} {tokens : List TokenKind} {tree : Tree}
    (h : Derives level tokens tree) (hlevel : level ≤ 7) :
    ∃ first left segments, Derives 7 first left ∧
      tokens = first ++ segments.flatMap OperatorSegment.tokens ∧ tree = foldSegments left segments ∧
      segments.Pairwise (fun a b => b.operator.level ≤ a.operator.level) ∧
      ∀ segment ∈ segments, level ≤ segment.operator.level := by
  by_cases hseven : level = 7
  · subst hseven
    exact ⟨tokens, tree, [], h, by simp, rfl, List.Pairwise.nil, fun _ hnone => by cases hnone⟩
  · match h with
    | .tighter _ h =>
        obtain ⟨first, left, segments, hfirst, htokens, htree, hfalling, hge⟩ :=
          h.segments (by omega)
        exact ⟨first, left, segments, hfirst, htokens, htree, hfalling,
          fun segment hsegment => (Nat.le_succ _).trans (hge segment hsegment)⟩
    | .binary htoken hleft hright =>
        obtain ⟨first, left, segments, hfirst, htokens, htree, hfalling, hge⟩ :=
          hleft.segments hlevel
        obtain ⟨rfl, rfl⟩ := binary_eq_some_iff.1 htoken
        refine ⟨first, left, segments ++ [⟨_, _, _, hright⟩], hfirst, ?_, ?_, ?_, ?_⟩
        · rw [htokens]
          simp [OperatorSegment.tokens]
        · rw [htree]
          simp [foldSegments]
        · rw [List.pairwise_append]
          refine ⟨hfalling, List.pairwise_singleton _ _, fun a ha b hb => ?_⟩
          rw [List.mem_singleton.1 hb]
          exact hge a ha
        · intro segment hsegment
          rcases List.mem_append.1 hsegment with hold | hnew
          · exact hge segment hold
          · rw [List.mem_singleton.1 hnew]
    | .unary _ _ => exact absurd rfl hseven

def fieldTokens (fields : List String) : List TokenKind :=
  fields.flatMap fun field => [.dot, .ident field]

theorem fieldTokens_cons (field : String) (fields : List String) :
    fieldTokens (field :: fields) = .dot :: .ident field :: fieldTokens fields := rfl

/-- An expression on level 8 is one on level 9 and the fields which are read of it. -/
theorem Derives.fields {tokens : List TokenKind} {tree : Tree} (h : Derives 8 tokens tree) :
    ∃ first base fields, Derives 9 first base ∧ tokens = first ++ fieldTokens fields ∧
      tree = fields.foldl Tree.member base ∧ ∀ field ∈ fields, reserved field = false := by
  match h with
  | .tighter _ h => exact ⟨tokens, tree, [], h, by simp [fieldTokens], rfl, by simp⟩
  | .binary htoken _ _ =>
      have hlevel := (binary_eq_some_iff.1 htoken).2
      have hbounds := Binary.level_bounds ‹Binary›
      omega
  | @Derives.member _ _ field h hfield =>
      obtain ⟨first, base, fields, hfirst, rfl, rfl, hfields⟩ := h.fields
      refine ⟨first, base, fields ++ [field], hfirst, by simp [fieldTokens], by simp, ?_⟩
      intro other hother
      rcases List.mem_append.1 hother with hold | hnew
      · exact hfields other hold
      · rw [List.mem_singleton.1 hnew]
        exact hfield

end SerialPlatform.Script
