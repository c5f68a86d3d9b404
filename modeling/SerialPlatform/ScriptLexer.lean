import SerialPlatform.ScriptSyntax

/-!
# The lexer of macro scripts

The lexer holds the characters which are left of the source.  A loop of the
source which consumes characters is a recursion on a bound for their number; at
the end of the text the bound `0` does what the loop does there.
-/

namespace SerialPlatform.Script

/-- `char::is_ascii_whitespace`. -/
def isAsciiWhitespace (c : Char) : Bool :=
  c = ' ' || c = '\t' || c = '\n' || c = '\r' || c.toNat = 0x0c

def isAsciiDigit (c : Char) : Bool := '0' ≤ c && c ≤ '9'

def isAsciiAlphabetic (c : Char) : Bool := ('a' ≤ c && c ≤ 'z') || ('A' ≤ c && c ≤ 'Z')

def isAsciiHexDigit (c : Char) : Bool :=
  isAsciiDigit c || ('a' ≤ c && c ≤ 'f') || ('A' ≤ c && c ≤ 'F')

def isIdentStart (c : Char) : Bool := isAsciiAlphabetic c || c = '_'

def isIdentRest (c : Char) : Bool := isAsciiAlphabetic c || isAsciiDigit c || c = '_'

def hexValue (c : Char) : ℕ :=
  if isAsciiDigit c then c.toNat - 48
  else if 'a' ≤ c then c.toNat - 87
  else c.toNat - 55

/-- `u32::from_str_radix(hex, 16)` followed by `char::from_u32`. -/
def scalarOfHex (hex : List Char) : Option Char :=
  let value := hex.foldl (fun total c => 16 * total + hexValue c) 0
  if value.isValidChar then some (Char.ofNat value) else none

/-- `str::parse::<i64>` on digits. -/
def integerOfDigits (digits : List Char) : Option Int64 :=
  checkedInt (digits.foldl (fun total c => 10 * total + (c.toNat - 48)) 0 : ℕ)

structure Lexer where
  rest : List Char
  offset : ℕ
  line : ℕ
  column : ℕ
  deriving DecidableEq

namespace Lexer

def peek (l : Lexer) : Option Char := l.rest.head?

/-- The lexer behind the character `c`, which it stands before. -/
def past (l : Lexer) (c : Char) : Lexer where
  rest := l.rest.tail
  offset := l.offset + c.utf8Size
  line := if c = '\n' then l.line + 1 else l.line
  column := if c = '\n' then 1 else l.column + 1

def next (l : Lexer) : Option (Char × Lexer) :=
  match l.rest with
  | [] => none
  | c :: _ => some (c, l.past c)

def span (l : Lexer) : Span := ⟨l.offset, l.offset, l.line, l.column⟩

/-- `take`: the lexer behind `c`, if that is the next character. -/
def take? (l : Lexer) (c : Char) : Option Lexer :=
  if l.peek = some c then some (l.past c) else none

/-- `while self.peek().is_some_and(keep) { self.next(); }`, for at most `limit`
characters. -/
def skip (keep : Char → Bool) (limit : ℕ) (l : Lexer) : Lexer :=
  ((l.rest.takeWhile keep).take limit).foldl past l

/-- The hexadecimal digits of a Unicode escape, from behind the letter `u`. -/
def escapeDigits (start : Span) (l : Lexer) : Except Error (List Char × Lexer) :=
  match l.take? '\x7b' with
  | some inner =>
      let hex := (inner.rest.takeWhile isAsciiHexDigit).take 6
      match (inner.skip isAsciiHexDigit 6).take? '\x7d' with
      | some behind =>
          if hex.isEmpty then
            .error ⟨"invalid_escape",
              "Unicode escape requires \\u\x7b1 to 6 hex digits\x7d", start⟩
          else .ok (hex, behind)
      | none =>
          .error ⟨"invalid_escape",
            "Unicode escape requires \\u\x7b1 to 6 hex digits\x7d", start⟩
  | none =>
      let hex := l.rest.take 4
      if hex.length = 4 ∧ hex.all isAsciiHexDigit then .ok (hex, hex.foldl past l)
      else .error ⟨"invalid_escape", "Unicode escape requires four hex digits", start⟩

/-- The character of an escape, from behind the backslash. -/
def escape (start : Span) (l : Lexer) : Except Error (Char × Lexer) :=
  match l.next with
  | none => .error ⟨"invalid_escape", "incomplete string escape", start⟩
  | some (escaped, behind) =>
      if escaped = '"' then .ok ('"', behind)
      else if escaped = '\\' then .ok ('\\', behind)
      else if escaped = 'n' then .ok ('\n', behind)
      else if escaped = 'r' then .ok ('\r', behind)
      else if escaped = 't' then .ok ('\t', behind)
      else if escaped = '0' then .ok ('\x00', behind)
      else if escaped = 'u' then
        match escapeDigits start behind with
        | .error e => .error e
        | .ok (hex, behind) =>
            match scalarOfHex hex with
            | some c => .ok (c, behind)
            | none =>
                .error ⟨"invalid_escape", "Unicode escape is not a scalar value", start⟩
      else
        .error ⟨"invalid_escape", "unknown string escape \\" ++ escaped.toString, start⟩

/-- One turn of the loop of `string`: the character which it pushes, or `none`
behind the closing quote. -/
def stringTurn (start : Span) (l : Lexer) : Except Error (Option Char × Lexer) :=
  match l.next with
  | none => .error ⟨"unterminated_string", "expected closing double quote", start⟩
  | some (c, behind) =>
      if c = '"' then .ok (none, behind)
      else if c = '\\' then
        match escape start behind with
        | .ok (c, behind) => .ok (some c, behind)
        | .error e => .error e
      else if isControlChar c then
        .error ⟨"invalid_string",
          "literal control characters require an explicit escape", start⟩
      else .ok (some c, behind)

/-- `string`, from behind the opening quote. -/
def string (maxString : ℕ) (start : Span) : ℕ → Lexer → String → Except Error (String × Lexer)
  | 0, _, _ => .error ⟨"unterminated_string", "expected closing double quote", start⟩
  | fuel + 1, l, output =>
      match stringTurn start l with
      | .error e => .error e
      | .ok (none, behind) => .ok (output, behind)
      | .ok (some c, behind) =>
          if maxString < (output.push c).utf8ByteSize then
            .error ⟨"string_limit", "string literal exceeds the UTF-8 byte limit", start⟩
          else string maxString start fuel behind (output.push c)

/-- The operators which have a longer form: the token at `l`, behind its first
character. -/
def orElse (l : Lexer) (second : Char) (long : TokenKind)
    (short : TokenKind × Lexer) : TokenKind × Lexer :=
  match l.take? second with
  | some behind => (long, behind)
  | none => short

/-- The token which starts with `c`, from behind it. -/
def kind (maxString : ℕ) (c : Char) (start : Span) (l : Lexer) :
    Except Error (TokenKind × Lexer) :=
  if c = '(' then .ok (.lParen, l)
  else if c = ')' then .ok (.rParen, l)
  else if c = '\x7b' then .ok (.lBrace, l)
  else if c = '\x7d' then .ok (.rBrace, l)
  else if c = ';' then .ok (.semicolon, l)
  else if c = ',' then .ok (.comma, l)
  else if c = '.' then .ok (.dot, l)
  else if c = '+' then .ok (l.orElse '+' .plusPlus (l.orElse '=' .plusEqual (.plus, l)))
  else if c = '-' then .ok (l.orElse '-' .minusMinus (l.orElse '=' .minusEqual (.minus, l)))
  else if c = '*' then .ok (l.orElse '=' .starEqual (.star, l))
  else if c = '/' then .ok (l.orElse '=' .slashEqual (.slash, l))
  else if c = '%' then .ok (l.orElse '=' .percentEqual (.percent, l))
  else if c = '!' then .ok (l.orElse '=' .bangEqual (.bang, l))
  else if c = '=' then .ok (l.orElse '=' .equalEqual (.equal, l))
  else if c = '<' then .ok (l.orElse '=' .lessEqual (.less, l))
  else if c = '>' then .ok (l.orElse '=' .greaterEqual (.greater, l))
  else if c = '&' ∧ l.peek = some '&' then .ok (.andAnd, l.past '&')
  else if c = '|' ∧ l.peek = some '|' then .ok (.orOr, l.past '|')
  else if c = '"' then
    match string maxString start l.rest.length l "" with
    | .ok (text, behind) => .ok (.string text, behind)
    | .error e => .error e
  else if isAsciiDigit c then
    match integerOfDigits (c :: l.rest.takeWhile isAsciiDigit) with
    | some value => .ok (.integer value, l.skip isAsciiDigit l.rest.length)
    | none =>
        .error ⟨"integer_overflow", "integer literal exceeds signed 64-bit range", start⟩
  else if isIdentStart c then
    .ok (.ident (String.ofList (c :: l.rest.takeWhile isIdentRest)),
      l.skip isIdentRest l.rest.length)
  else
    .error ⟨"unexpected_character", "unexpected character " ++ c.quote, start⟩

/-- `tokens`, with the tokens which it has pushed. -/
def tokens (maxString : ℕ) : ℕ → Lexer → List Token → Except Error Tokens
  | 0, l, pushed => .ok ⟨pushed, l.span⟩
  | fuel + 1, l, pushed =>
      match l.next with
      | none => .ok ⟨pushed, l.span⟩
      | some (c, behind) =>
          if isAsciiWhitespace c then tokens maxString fuel behind pushed
          else if c = '/' ∧ behind.peek = some '/' then
            tokens maxString fuel (l.skip (· ≠ '\n') l.rest.length) pushed
          else
            match kind maxString c l.span behind with
            | .error e => .error e
            | .ok (token, behind) =>
                tokens maxString fuel behind
                  (pushed ++ [⟨token, { l.span with endOffset := behind.offset }⟩])

end Lexer

/-- The tokens of a source. -/
def lex (source : String) (maxString : ℕ) : Except Error Tokens :=
  Lexer.tokens maxString source.toList.length ⟨source.toList, 0, 1, 1⟩ []

end SerialPlatform.Script
