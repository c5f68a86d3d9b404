import SerialPlatform.ScriptParser

/-!
# The grammar of macro expressions

Expressions are stratified.  Levels 1 to 6 are those of the binary operators, which
associate to the left; on level 7 stand the unary operators, on level 8 the field accesses,
and on level 9 what needs no operator.
-/

namespace SerialPlatform.Script

/-- An expression without its spans. -/
inductive Tree
  | literal (value : Value)
  | variable (name : String)
  | member (base : Tree) (field : String)
  | unary (operator : Unary) (operand : Tree)
  | binary (operator : Binary) (left right : Tree)
  | call (name : String) (args : List Tree)

mutual

def Expr.tree : Expr → Tree
  | .literal _ value => .literal value
  | .variable _ name => .variable name
  | .member _ base field => .member (Expr.tree base) field
  | .unary _ operator operand => .unary operator (Expr.tree operand)
  | .binary _ operator left right => .binary operator (Expr.tree left) (Expr.tree right)
  | .call _ name args => .call name (argumentTrees args)

def argumentTrees : List Expr → List Tree
  | [] => []
  | arg :: args => Expr.tree arg :: argumentTrees args

end

@[simp] theorem Expr.tree_withSpan (span : Span) (e : Expr) : (e.withSpan span).tree = e.tree := by
  cases e <;> rfl

/-- The name of a variable or of a call. -/
def IsName (name : String) : Prop := reserved name = false ∨ name = "args"

instance (name : String) : Decidable (IsName name) := inferInstanceAs (Decidable (_ ∨ _))

theorem IsName.ne_boolean {name : String} (h : IsName name) : ¬ (name = "true" ∨ name = "false") := by
  rintro (rfl | rfl) <;> exact absurd h (by decide)

/-- The unary operator of a token. -/
def TokenKind.unary : TokenKind → Option Unary
  | .bang => some .not
  | .minus => some .negate
  | _ => none

/-! ## Derivations -/

mutual

/-- The tokens are an expression of the level, and this is its tree. -/
inductive Derives : ℕ → List TokenKind → Tree → Prop
  | tighter {level : ℕ} {tokens : List TokenKind} {tree : Tree} (hlevel : level < 9)
      (h : Derives (level + 1) tokens tree) : Derives level tokens tree
  | binary {level : ℕ} {left right : List TokenKind} {l r : Tree} {token : TokenKind}
      {operator : Binary} (htoken : token.binary = some (operator, level))
      (hleft : Derives level left l) (hright : Derives (level + 1) right r) :
      Derives level (left ++ token :: right) (.binary operator l r)
  | unary {tokens : List TokenKind} {operand : Tree} {token : TokenKind} {operator : Unary}
      (htoken : token.unary = some operator) (h : Derives 7 tokens operand) :
      Derives 7 (token :: tokens) (.unary operator operand)
  | member {tokens : List TokenKind} {base : Tree} {field : String} (h : Derives 8 tokens base)
      (hfield : reserved field = false) :
      Derives 8 (tokens ++ [.dot, .ident field]) (.member base field)
  | string (text : String) : Derives 9 [.string text] (.literal (.string text))
  | integer (value : Int64) : Derives 9 [.integer value] (.literal (.integer value))
  | boolean (value : Bool) :
      Derives 9 [.ident (if value then "true" else "false")] (.literal (.boolean value))
  | variable {name : String} (hname : IsName name) : Derives 9 [.ident name] (.variable name)
  | call {name : String} {tokens : List TokenKind} {args : List Tree} (hname : IsName name)
      (h : DerivesArguments tokens args) :
      Derives 9 (.ident name :: .lParen :: (tokens ++ [.rParen])) (.call name args)
  | group {tokens : List TokenKind} {tree : Tree} (h : Derives 1 tokens tree) :
      Derives 9 (.lParen :: (tokens ++ [.rParen])) tree

/-- The tokens are the arguments of a call. -/
inductive DerivesArguments : List TokenKind → List Tree → Prop
  | none : DerivesArguments [] []
  | last {tokens : List TokenKind} {arg : Tree} (h : Derives 1 tokens arg) :
      DerivesArguments tokens [arg]
  | more {tokens rest : List TokenKind} {arg next : Tree} {args : List Tree}
      (h : Derives 1 tokens arg) (hrest : DerivesArguments rest (next :: args)) :
      DerivesArguments (tokens ++ .comma :: rest) (arg :: next :: args)

end

/-! ## Printing -/

/-- Parentheses around what stands on a lower level than is needed. -/
def grouped (needed level : ℕ) (tokens : List TokenKind) : List TokenKind :=
  if level < needed then .lParen :: (tokens ++ [.rParen]) else tokens

/-- The token of a binary operator. -/
def Binary.token : Binary → TokenKind
  | .add => .plus
  | .subtract => .minus
  | .multiply => .star
  | .divide => .slash
  | .remainder => .percent
  | .equal => .equalEqual
  | .notEqual => .bangEqual
  | .less => .less
  | .lessEqual => .lessEqual
  | .greater => .greater
  | .greaterEqual => .greaterEqual
  | .and => .andAnd
  | .or => .orOr

/-- The level of a binary operator. -/
def Binary.level : Binary → ℕ
  | .or => 1
  | .and => 2
  | .equal | .notEqual => 3
  | .less | .lessEqual | .greater | .greaterEqual => 4
  | .add | .subtract => 5
  | .multiply | .divide | .remainder => 6

def Unary.token : Unary → TokenKind
  | .not => .bang
  | .negate => .minus

def Value.token : Value → TokenKind
  | .string text => .string text
  | .integer value => .integer value
  | .boolean value => .ident (if value then "true" else "false")

mutual

/-- The tokens of a tree where an expression of the level is needed. -/
def Tree.print (needed : ℕ) : Tree → List TokenKind
  | .literal value => [value.token]
  | .variable name => [.ident name]
  | .member base field => grouped needed 8 (Tree.print 8 base ++ [.dot, .ident field])
  | .unary operator operand => grouped needed 7 (operator.token :: Tree.print 7 operand)
  | .binary operator left right =>
      grouped needed operator.level
        (Tree.print operator.level left ++ operator.token :: Tree.print (operator.level + 1) right)
  | .call name args => .ident name :: .lParen :: (printArguments args ++ [.rParen])

def printArguments : List Tree → List TokenKind
  | [] => []
  | [arg] => Tree.print 1 arg
  | arg :: next :: args => Tree.print 1 arg ++ .comma :: printArguments (next :: args)

end

mutual

/-- The names of the tree are names of the language. -/
def Tree.Named : Tree → Prop
  | .literal _ => True
  | .variable name => IsName name
  | .member base field => Tree.Named base ∧ reserved field = false
  | .unary _ operand => Tree.Named operand
  | .binary _ left right => Tree.Named left ∧ Tree.Named right
  | .call name args => IsName name ∧ argumentsNamed args

def argumentsNamed : List Tree → Prop
  | [] => True
  | arg :: args => Tree.Named arg ∧ argumentsNamed args

end

/-! ## Facts of the grammar -/

section

variable {level : ℕ} {tokens : List TokenKind} {tree : Tree} {args : List Tree}

theorem binary_eq_some_iff {token : TokenKind} {operator : Binary} :
    token.binary = some (operator, level) ↔ token = operator.token ∧ level = operator.level := by
  constructor
  · intro h
    cases token <;> simp only [TokenKind.binary, Option.some.injEq, Prod.mk.injEq, reduceCtorEq] at h
    all_goals
      obtain ⟨rfl, rfl⟩ := h
      exact ⟨rfl, rfl⟩
  · rintro ⟨rfl, rfl⟩
    cases operator <;> rfl

theorem Binary.level_bounds (operator : Binary) : 1 ≤ operator.level ∧ operator.level ≤ 6 := by
  cases operator <;> decide

theorem unary_eq_some_iff {token : TokenKind} {operator : Unary} :
    token.unary = some operator ↔ token = operator.token := by
  constructor
  · intro h
    cases token <;> simp only [TokenKind.unary, Option.some.injEq, reduceCtorEq] at h
    all_goals
      subst h
      rfl
  · rintro rfl
    cases operator <;> rfl

/-- An expression of a level is one of every lower level. -/
theorem Derives.loosen {lower : ℕ} (h : Derives level tokens tree) (hle : lower ≤ level)
    (hlevel : level ≤ 9) : Derives lower tokens tree := by
  induction hgap : level - lower generalizing lower with
  | zero =>
      have heq : lower = level := by omega
      exact heq ▸ h
  | succ gap ih => exact .tighter (by omega) (ih (by omega) (by omega))

/-- Nothing stands on level 0 but what stands on level 1. -/
theorem Derives.of_zero (h : Derives 0 tokens tree) : Derives 1 tokens tree := by
  cases h with
  | tighter _ h => exact h
  | binary htoken _ _ =>
      have hlevel := (binary_eq_some_iff.1 htoken).2
      have hbounds := Binary.level_bounds ‹Binary›
      omega

mutual

/-- What is derived is printable. -/
theorem Derives.named {level : ℕ} {tokens : List TokenKind} {tree : Tree}
    (h : Derives level tokens tree) : tree.Named := by
  match h with
  | .tighter _ h => exact h.named
  | .binary _ hleft hright => exact ⟨hleft.named, hright.named⟩
  | .unary _ h => exact h.named
  | .member h hfield => exact ⟨h.named, hfield⟩
  | .string _ | .integer _ | .boolean _ => trivial
  | .variable hname => exact hname
  | .call hname h => exact ⟨hname, h.named⟩
  | .group h => exact h.named

theorem DerivesArguments.named {tokens : List TokenKind} {args : List Tree}
    (h : DerivesArguments tokens args) : argumentsNamed args := by
  match h with
  | .none => trivial
  | .last h => exact ⟨h.named, trivial⟩
  | .more h hrest => exact ⟨h.named, hrest.named⟩

end

theorem Derives.grouped {needed : ℕ} (h : Derives level tokens tree) (hlevel : level ≤ 9)
    (hpos : 1 ≤ level) (hneeded : needed ≤ 9) :
    Derives needed (grouped needed level tokens) tree := by
  unfold Script.grouped
  split_ifs with hlow
  · exact (Derives.group (h.loosen hpos hlevel)).loosen hneeded (le_refl 9)
  · exact h.loosen (by omega) hlevel

mutual

/-- What is printed is derived, on the level that is needed. -/
theorem Tree.derives_print {needed : ℕ} (hneeded : needed ≤ 9) (tree : Tree)
    (h : tree.Named) : Derives needed (tree.print needed) tree := by
  match tree with
  | .literal (.string text) =>
      exact (Derives.string text).loosen hneeded (le_refl 9)
  | .literal (.integer value) =>
      exact (Derives.integer value).loosen hneeded (le_refl 9)
  | .literal (.boolean value) =>
      exact (Derives.boolean value).loosen hneeded (le_refl 9)
  | .variable name => exact (Derives.variable h).loosen hneeded (le_refl 9)
  | .member base field =>
      have hbase := Tree.derives_print (by omega : 8 ≤ 9) base h.1
      exact (Derives.member hbase h.2).grouped (by omega) (by omega) hneeded
  | .unary operator operand =>
      have hoperand := Tree.derives_print (by omega : 7 ≤ 9) operand h
      exact (Derives.unary (unary_eq_some_iff.2 rfl) hoperand).grouped (by omega) (by omega)
        hneeded
  | .binary operator left right =>
      have hbounds := operator.level_bounds
      have hleft := Tree.derives_print (by omega : operator.level ≤ 9) left h.1
      have hright := Tree.derives_print (by omega : operator.level + 1 ≤ 9) right h.2
      exact (Derives.binary (binary_eq_some_iff.2 ⟨rfl, rfl⟩) hleft hright).grouped (by omega)
        (by omega) hneeded
  | .call name args =>
      exact (Derives.call h.1 (derives_printArguments args h.2)).loosen hneeded (le_refl 9)

theorem derives_printArguments (args : List Tree) (h : argumentsNamed args) :
    DerivesArguments (printArguments args) args := by
  match args with
  | [] => exact .none
  | [arg] => exact .last (Tree.derives_print (by omega) arg h.1)
  | arg :: next :: args =>
      exact .more (Tree.derives_print (by omega) arg h.1) (derives_printArguments (next :: args) h.2)

end

end

end SerialPlatform.Script
