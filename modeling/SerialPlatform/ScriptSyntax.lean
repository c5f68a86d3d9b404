import SerialPlatform.Saturating
import SerialPlatform.TextFields

/-!
# Macro Script v1: data

Values, limits, tokens and syntax trees of the macro language.  An `i64` is an
`Int64`, an ordered map from names is the list of its entries in key order.
-/

namespace SerialPlatform.Script

/-- The number of values of `usize` and of `u64`. -/
def wordLimit : ℕ := 2 ^ 64

/-- `checked_add` on `usize` and on `u64`. -/
def checkedAdd (a b : ℕ) : Option ℕ :=
  if a + b < wordLimit then some (a + b) else none

/-- `checked_add`, `checked_sub`, `checked_mul` and `checked_neg` on `i64`: the
exact result, when it is an `i64`. -/
def checkedInt (exact : ℤ) : Option Int64 :=
  if i64Min ≤ exact ∧ exact ≤ i64Max then some (Int64.ofInt exact) else none

/-- The entries of a `BTreeMap<String, _>`, in key order. -/
abbrev NameMap (α : Type) := List (String × α)

def NameMap.get {α : Type} (entries : NameMap α) (name : String) : Option α :=
  List.lookup name entries

/-- `entry(name).or_insert(value)`. -/
def NameMap.orInsert {α : Type} (entries : NameMap α) (name : String) (value : α) :
    NameMap α :=
  match entries with
  | [] => [(name, value)]
  | (other, kept) :: rest =>
      if name = other then (other, kept) :: rest
      else if name < other then (name, value) :: (other, kept) :: rest
      else (other, kept) :: NameMap.orInsert rest name value

structure Span where
  offset : ℕ
  endOffset : ℕ
  line : ℕ
  column : ℕ
  deriving DecidableEq, Repr

/-- The span of errors which belong to no place of the script. -/
def Span.start : Span := ⟨0, 0, 1, 1⟩

structure Error where
  code : String
  message : String
  span : Span
  deriving DecidableEq, Repr

inductive ValueType
  | string
  | integer
  | boolean
  deriving DecidableEq, Repr

/-- The `Debug` text of a value type. -/
def ValueType.debug : ValueType → String
  | .string => "String"
  | .integer => "Integer"
  | .boolean => "Boolean"

inductive Value
  | string (text : String)
  | integer (value : Int64)
  | boolean (value : Bool)
  deriving DecidableEq

def Value.valueType : Value → ValueType
  | .string _ => .string
  | .integer _ => .integer
  | .boolean _ => .boolean

structure Limits where
  maxSourceBytes : ℕ
  maxStringBytes : ℕ
  maxNesting : ℕ
  maxVariables : ℕ
  maxWatchers : ℕ
  maxInstructions : ℕ
  instructionsPerYield : ℕ
  maxDurationMs : ℕ
  maxTotalCommandBytes : ℕ
  deriving DecidableEq, Repr

def Limits.default : Limits where
  maxSourceBytes := 65536
  maxStringBytes := 4096
  maxNesting := 64
  maxVariables := 256
  maxWatchers := 256
  maxInstructions := 100000
  instructionsPerYield := 256
  maxDurationMs := 300000
  maxTotalCommandBytes := 1048576

/-! ## Tokens -/

inductive TokenKind
  | ident (name : String)
  | string (text : String)
  | integer (value : Int64)
  | lParen
  | rParen
  | lBrace
  | rBrace
  | semicolon
  | comma
  | dot
  | plus
  | minus
  | star
  | slash
  | percent
  | bang
  | equal
  | equalEqual
  | bangEqual
  | less
  | lessEqual
  | greater
  | greaterEqual
  | andAnd
  | orOr
  | plusPlus
  | minusMinus
  | plusEqual
  | minusEqual
  | starEqual
  | slashEqual
  | percentEqual
  deriving DecidableEq

/-- The `Debug` text of the token kinds which the parser expects by name. -/
def TokenKind.debug : TokenKind → String
  | .lParen => "LParen"
  | .rParen => "RParen"
  | .rBrace => "RBrace"
  | .semicolon => "Semicolon"
  | .equal => "Equal"
  | _ => ""

structure Token where
  kind : TokenKind
  span : Span
  deriving DecidableEq

/-- The token vector which the lexer returns: its last token, and only its
last, is `Eof`. -/
structure Tokens where
  ahead : List Token
  eof : Span
  deriving DecidableEq

/-! ## Syntax trees -/

inductive Unary
  | negate
  | not
  deriving DecidableEq, Repr

inductive Binary
  | add
  | subtract
  | multiply
  | divide
  | remainder
  | equal
  | notEqual
  | less
  | lessEqual
  | greater
  | greaterEqual
  | and
  | or
  deriving DecidableEq, Repr

/-- An expression, with its span first. -/
inductive Expr
  | literal (span : Span) (value : Value)
  | variable (span : Span) (name : String)
  | member (span : Span) (base : Expr) (field : String)
  | unary (span : Span) (operator : Unary) (operand : Expr)
  | binary (span : Span) (operator : Binary) (left right : Expr)
  | call (span : Span) (name : String) (args : List Expr)

def Expr.span : Expr → Span
  | .literal span _ => span
  | .variable span _ => span
  | .member span _ _ => span
  | .unary span _ _ => span
  | .binary span _ _ _ => span
  | .call span _ _ => span

/-- `args`, in front of a field access. -/
def Expr.isArgs : Expr → Bool
  | .variable _ name => name = "args"
  | _ => false

/-- The same expression kind at another span. -/
def Expr.withSpan (span : Span) : Expr → Expr
  | .literal _ value => .literal span value
  | .variable _ name => .variable span name
  | .member _ base field => .member span base field
  | .unary _ operator operand => .unary span operator operand
  | .binary _ operator left right => .binary span operator left right
  | .call _ name args => .call span name args

/-- A statement, with its span first. -/
inductive Statement
  | «let» (span : Span) (name : String) (value : Expr)
  | assign (span : Span) (name : String) (value : Expr)
  | expression (span : Span) (value : Expr)
  | block (span : Span) (body : List Statement)
  | cond (span : Span) (condition : Expr) (body : Statement) (alternative : Option Statement)
  | «while» (span : Span) (condition : Expr) (body : Statement)
  | «for» (span : Span) (init : Option Statement) (condition : Option Expr)
      (step : Option Statement) (body : Statement)
  | «break» (span : Span)
  | «continue» (span : Span)
  | empty (span : Span)

def Statement.span : Statement → Span
  | .let span _ _ => span
  | .assign span _ _ => span
  | .expression span _ => span
  | .block span _ => span
  | .cond span _ _ _ => span
  | .while span _ _ => span
  | .for span _ _ _ _ => span
  | .break span => span
  | .continue span => span
  | .empty span => span

def Statement.withSpan (span : Span) : Statement → Statement
  | .let _ name value => .let span name value
  | .assign _ name value => .assign span name value
  | .expression _ value => .expression span value
  | .block _ body => .block span body
  | .cond _ condition body alternative => .cond span condition body alternative
  | .while _ condition body => .while span condition body
  | .for _ init condition step body => .for span init condition step body
  | .break _ => .break span
  | .continue _ => .continue span
  | .empty _ => .empty span

def reserved (name : String) : Bool :=
  ["let", "if", "else", "for", "while", "break", "continue", "true", "false", "args",
    "return", "fn", "function", "import", "eval"].contains name

/-- Commands are line-oriented: no control character, no more than the limit. -/
def validateCommand (text : String) (maxBytes : ℕ) (span : Span) : Except Error Unit :=
  if maxBytes < text.utf8ByteSize then
    .error ⟨"string_limit", "command exceeds " ++ toString maxBytes ++ " UTF-8 bytes", span⟩
  else if text.toList.any isControlChar then
    .error ⟨"command_control_character",
      "cmd text must not contain control characters or embedded EOL", span⟩
  else .ok ()

theorem validateCommand_ok_iff {text : String} {maxBytes : ℕ} {span : Span} :
    validateCommand text maxBytes span = .ok () ↔
      text.utf8ByteSize ≤ maxBytes ∧ text.toList.any isControlChar = false := by
  unfold validateCommand
  by_cases hsize : maxBytes < text.utf8ByteSize
  · simp [hsize]
  · rw [if_neg hsize]
    by_cases hcontrol : text.toList.any isControlChar
    · simp [hcontrol]
    · simp [hcontrol]
      omega

end SerialPlatform.Script
