import SerialPlatform.ScriptParsed

/-!
# Assignments by an operator and the nesting limit

The expressions which the parser builds from the tokens keep its limit, but for the ones that
it makes of an assignment by an operator: these are not checked again.  Whether they keep the
limit is read off the tokens behind the operator.
-/

namespace SerialPlatform.Script

/-! ## The expressions of a script -/

mutual

def Statement.expressions : Statement → List Expr
  | .let _ _ value => [value]
  | .assign _ _ value => [value]
  | .expression _ value => [value]
  | .block _ body => statementsExpressions body
  | .cond _ condition body alternative =>
      [condition] ++ (Statement.expressions body ++ optionExpressions alternative)
  | .while _ condition body => [condition] ++ Statement.expressions body
  | .for _ init condition step body =>
      optionExpressions init ++
        (condition.toList ++ (optionExpressions step ++ Statement.expressions body))
  | .break _ => []
  | .continue _ => []
  | .empty _ => []

def statementsExpressions : List Statement → List Expr
  | [] => []
  | first :: rest => Statement.expressions first ++ statementsExpressions rest

def optionExpressions : Option Statement → List Expr
  | none => []
  | some inner => Statement.expressions inner

end

@[simp] theorem Statement.expressions_withSpan (span : Span) (s : Statement) :
    (s.withSpan span).expressions = s.expressions := by
  cases s <;> rfl

theorem Expr.depth_pos (e : Expr) : 1 ≤ e.depth := by
  cases e <;> simp [Expr.depth]

/-! ## Operators of assignments -/

/-- Behind an assignment by an operator stands an expression lower than the limit. -/
def Leaves (limit : ℕ) (token : TokenKind) (behind : List TokenKind) : Prop :=
  (∀ operator, (token, operator) ∈ Parser.counts → 1 < limit) ∧
    ∀ operator, (token, operator) ∈ Parser.updates → ∀ tokens more tree, behind = tokens ++ more →
      Derives 1 tokens tree → Stops 0 tokens more → tree.height < limit

/-- This is so of all assignments by an operator among the tokens. -/
def LowUpdates (limit : ℕ) (tokens more : List TokenKind) : Prop :=
  ∀ before token behind, tokens = before ++ token :: behind → Leaves limit token (behind ++ more)

/-- The token is not the operator of such an assignment. -/
def TokenKind.Plain (token : TokenKind) : Prop :=
  ∀ operator, (token, operator) ∉ Parser.updates ∧ (token, operator) ∉ Parser.counts

section

variable {limit : ℕ} {token : TokenKind} {tokens more rest behind : List TokenKind}

theorem lowUpdates_nil : LowUpdates limit [] more := by
  intro before token behind h
  simp at h

theorem lowUpdates_cons : LowUpdates limit (token :: tokens) more ↔
    Leaves limit token (tokens ++ more) ∧ LowUpdates limit tokens more := by
  constructor
  · intro h
    refine ⟨h [] token tokens rfl, fun before other behind heq => ?_⟩
    exact h (token :: before) other behind (by rw [heq, List.cons_append])
  · rintro ⟨hfirst, hrest⟩ before other behind heq
    cases before with
    | nil =>
        obtain ⟨rfl, rfl⟩ := List.cons.inj heq
        exact hfirst
    | cons first before => exact hrest before other behind (List.cons.inj heq).2

theorem lowUpdates_append : LowUpdates limit (tokens ++ rest) more ↔
    LowUpdates limit tokens (rest ++ more) ∧ LowUpdates limit rest more := by
  induction tokens with
  | nil => simp [lowUpdates_nil]
  | cons token tokens ih =>
      rw [List.cons_append, lowUpdates_cons, lowUpdates_cons, ih, List.append_assoc, and_assoc]

theorem TokenKind.Plain.leaves (h : token.Plain) : Leaves limit token behind :=
  ⟨fun operator hmem => absurd hmem (h operator).2,
    fun operator hmem => absurd hmem (h operator).1⟩

theorem lowUpdates_of_plain (h : ∀ token ∈ tokens, TokenKind.Plain token) :
    LowUpdates limit tokens more := by
  intro before token behind heq
  exact (h token (by rw [heq]; simp)).leaves

theorem plain_ident (name : String) : (TokenKind.ident name).Plain :=
  fun operator => by simp [Parser.updates, Parser.counts]

theorem plain_operator (operator : Binary) : operator.token.Plain := by
  intro other
  cases operator <;> simp [Parser.updates, Parser.counts, Binary.token]

mutual

/-- No such operator stands in an expression. -/
theorem Derives.plain {level : ℕ} {tokens : List TokenKind} {tree : Tree}
    (h : Derives level tokens tree) : ∀ token ∈ tokens, TokenKind.Plain token := by
  match h with
  | .tighter _ h => exact h.plain
  | .binary htoken hleft hright =>
      have hl := hleft.plain
      have hr := hright.plain
      obtain ⟨rfl, -⟩ := binary_eq_some_iff.1 htoken
      simp only [List.mem_append, List.mem_cons]
      rintro token (hmem | rfl | hmem)
      · exact hl token hmem
      · exact plain_operator _
      · exact hr token hmem
  | @Derives.unary _ _ _ operator htoken h =>
      have hoperand := h.plain
      obtain rfl := unary_eq_some_iff.1 htoken
      rintro token (_ | ⟨_, hmem⟩)
      · cases operator <;> exact fun other => by simp [Parser.updates, Parser.counts, Unary.token]
      · exact hoperand token hmem
  | .member h _ =>
      have hbase := h.plain
      simp only [List.mem_append, List.mem_cons, List.not_mem_nil, or_false]
      rintro token (hmem | rfl | rfl)
      · exact hbase token hmem
      · exact fun other => by simp [Parser.updates, Parser.counts]
      · exact plain_ident _
  | .string _ | .integer _ | .boolean _ | .variable _ =>
      rintro token (_ | ⟨_, hmem⟩)
      · exact fun other => by simp [Parser.updates, Parser.counts]
      · cases hmem
  | .call _ h =>
      have hargs := h.plain
      simp only [List.mem_append, List.mem_cons, List.not_mem_nil, or_false]
      rintro token (rfl | rfl | hmem | rfl)
      · exact plain_ident _
      · exact fun other => by simp [Parser.updates, Parser.counts]
      · exact hargs token hmem
      · exact fun other => by simp [Parser.updates, Parser.counts]
  | .group h =>
      have hinner := h.plain
      simp only [List.mem_append, List.mem_cons, List.not_mem_nil, or_false]
      rintro token (rfl | hmem | rfl)
      · exact fun other => by simp [Parser.updates, Parser.counts]
      · exact hinner token hmem
      · exact fun other => by simp [Parser.updates, Parser.counts]

theorem DerivesArguments.plain {tokens : List TokenKind} {args : List Tree}
    (h : DerivesArguments tokens args) : ∀ token ∈ tokens, TokenKind.Plain token := by
  match h with
  | .none => exact fun _ hmem => absurd hmem List.not_mem_nil
  | .last h => exact h.plain
  | .more h hrest =>
      have harg := h.plain
      have hothers := hrest.plain
      simp only [List.mem_append, List.mem_cons]
      rintro token (hmem | rfl | hmem)
      · exact harg token hmem
      · exact fun other => by simp [Parser.updates, Parser.counts]
      · exact hothers token hmem

end

/-- Two derivations at the beginning of the same tokens which stop are one. -/
theorem Derives.unique_of_stops {first second : List TokenKind} {tree other : Tree}
    (h : Derives 1 first tree) (hstops : Stops 0 first more) (h' : Derives 1 second other)
    (hstops' : Stops 0 second rest) (heq : first ++ more = second ++ rest) : tree = other := by
  have hlow := h.loosen (Nat.zero_le 1) (by omega)
  have hlow' := h'.loosen (Nat.zero_le 1) (by omega)
  rcases List.append_eq_append_iff.1 heq with ⟨extra, rfl, rfl⟩ | ⟨extra, rfl, rfl⟩
  · exact (hlow.unique (Nat.zero_le 7) hstops.shorter hlow').2.symm
  · exact (hlow'.unique (Nat.zero_le 7) hstops'.shorter hlow).2

end

/-! ## What is parsed -/

namespace Parser

open Except (exists_of_bind_ok)

/-- Between the two states at least so many tokens are read, and the expressions which are parsed
of them keep the limit when the tokens are low. -/
def Keeps (limit least : ℕ) (t u : Tokens) (exprs : List Expr) : Prop :=
  ∃ tokens, t.Reads tokens u ∧ least ≤ tokens.length ∧
    (LowUpdates limit tokens u.kinds ↔ ∀ e ∈ exprs, e.depth ≤ limit)

section

variable {limit maxDepth room least more : ℕ} {t u v : Tokens} {kind : TokenKind} {first rest : List Expr}
  {e : Expr} {s : Statement}

theorem Keeps.append (h : Keeps limit least t u first) (h' : Keeps limit more u v rest) :
    Keeps limit (least + more) t v (first ++ rest) := by
  obtain ⟨tokens, hread, hlength, hlow⟩ := h
  obtain ⟨others, hread', hlength', hlow'⟩ := h'
  refine ⟨tokens ++ others, hread.append hread', ?_, ?_⟩
  · rw [List.length_append]
    omega
  · rw [lowUpdates_append, ← hread'.kinds_eq, hlow, hlow', List.forall_mem_append]

theorem Keeps.fewer (h : Keeps limit more t u rest) (hle : least ≤ more) :
    Keeps limit least t u rest := by
  obtain ⟨tokens, hread, hlength, hlow⟩ := h
  exact ⟨tokens, hread, hle.trans hlength, hlow⟩

theorem keeps_nil (limit : ℕ) (t : Tokens) : Keeps limit 0 t t [] :=
  ⟨[], .nil t, le_refl 0, iff_of_true lowUpdates_nil (by simp)⟩

theorem keeps_of_plain (hread : t.Reads [kind] u) (hplain : kind.Plain) :
    Keeps limit 1 t u [] := by
  refine ⟨[kind], hread, le_refl 1, iff_of_true (lowUpdates_of_plain ?_) (by simp)⟩
  simpa using hplain

theorem keeps_expect (hplain : kind.Plain) (h : t.expect kind = .ok u) : Keeps limit 1 t u [] :=
  keeps_of_plain (Tokens.reads_expect h) hplain

theorem keeps_isAt (hplain : kind.Plain) (h : t.isAt kind = true) : Keeps limit 1 t t.bump [] :=
  keeps_of_plain (Tokens.reads_of_isAt h) hplain

theorem keeps_keyword {text : String} (h : t.keyword text = true) : Keeps limit 1 t t.bump [] :=
  keeps_isAt (plain_ident text) h

theorem keeps_expression {level : ℕ} (hlevel : level ≤ 7)
    (h : expression maxDepth room level t = .ok (e, u)) : Keeps maxDepth 1 t u [e] := by
  obtain ⟨tokens, hread, hderives, -⟩ := expression_finds maxDepth room hlevel h
  obtain ⟨first, rest, rfl, -⟩ := hderives.head
  refine ⟨_, hread, Nat.succ_pos _, iff_of_true (lowUpdates_of_plain hderives.plain) ?_⟩
  simpa using expression_depth h

theorem plain_semicolon : TokenKind.Plain .semicolon := fun other => by simp [updates, counts]
theorem plain_lParen : TokenKind.Plain .lParen := fun other => by simp [updates, counts]
theorem plain_rParen : TokenKind.Plain .rParen := fun other => by simp [updates, counts]
theorem plain_lBrace : TokenKind.Plain .lBrace := fun other => by simp [updates, counts]
theorem plain_rBrace : TokenKind.Plain .rBrace := fun other => by simp [updates, counts]
theorem plain_equal : TokenKind.Plain .equal := fun other => by simp [updates, counts]

/-! ## Simple statements -/

theorem assignmentAt_eq_some {name : String} {operator : Option Binary} {token : Token}
    (h : assignmentAt t = some (name, operator, token)) :
    ∃ more, t.kinds = .ident name :: token.kind :: more ∧
      token.kind.assignment = some operator := by
  unfold assignmentAt at h
  split at h
  · rename_i found span next rest hahead
    obtain ⟨operator', hoperator, heq⟩ := Option.map_eq_some_iff.1 h
    cases heq
    exact ⟨rest.map Token.kind, by simp [Tokens.kinds, hahead], hoperator⟩
  · cases h

/-- The operators of assignments are `=`, those which stand for a binary operator, and those
which count. -/
theorem assignment_cases {token : TokenKind} {operator : Option Binary}
    (h : token.assignment = some operator) :
    token = .equal ∧ operator = none ∨
      (∃ binary, operator = some binary ∧ (token, binary) ∈ updates ∧
        ¬ (token = .plusPlus ∨ token = .minusMinus)) ∨
      ∃ binary, operator = some binary ∧ (token, binary) ∈ counts ∧
        (token = .plusPlus ∨ token = .minusMinus) := by
  cases token <;> simp only [TokenKind.assignment, Option.some.injEq, reduceCtorEq] at h
  all_goals
    subst h
    simp [updates, counts]

theorem counts_of_updates {token : TokenKind} {operator : Binary}
    (h : (token, operator) ∈ updates) : ∀ other, (token, other) ∉ counts := by
  simp only [updates, List.mem_cons, Prod.mk.injEq, List.not_mem_nil, or_false] at h
  rcases h with ⟨rfl, -⟩ | ⟨rfl, -⟩ | ⟨rfl, -⟩ | ⟨rfl, -⟩ | ⟨rfl, -⟩
  all_goals simp [counts]

theorem updates_of_counts {token : TokenKind} {operator : Binary}
    (h : (token, operator) ∈ counts) : ∀ other, (token, other) ∉ updates := by
  simp only [counts, List.mem_cons, Prod.mk.injEq, List.not_mem_nil, or_false] at h
  rcases h with ⟨rfl, -⟩ | ⟨rfl, -⟩
  all_goals simp [updates]

/-- Behind an assignment by an operator the expression decides. -/
theorem keeps_assign {name : String} {operator : Option Binary} {token : Token}
    (hassignment : assignmentAt t = some (name, operator, token))
    (h : assigned maxDepth room token.kind token.span t.bump.bump = .ok (e, u)) :
    Keeps maxDepth 1 t u [compound operator t.span name e] := by
  obtain ⟨more, hkinds, htoken⟩ := assignmentAt_eq_some hassignment
  have hbump := Tokens.kinds_bump hkinds
  have htwo : t.Reads [.ident name, token.kind] t.bump.bump :=
    (Tokens.reads_bump (by rw [Tokens.current_eq_head, hkinds]; rfl)).append
      (Tokens.reads_bump (by rw [Tokens.current_eq_head, hbump]; rfl))
  unfold assigned at h
  rcases assignment_cases htoken with ⟨hequal, rfl⟩ | ⟨binary, rfl, hmem, hnot⟩ |
    ⟨binary, rfl, hmem, hcount⟩
  · rw [hequal] at h htwo
    rw [if_neg (by simp)] at h
    have hname : Keeps maxDepth 1 t t.bump.bump [] := by
      refine ⟨_, htwo, Nat.succ_pos _, iff_of_true (lowUpdates_of_plain ?_) (by simp)⟩
      simpa using ⟨plain_ident name, plain_equal⟩
    exact (hname.append (keeps_expression (Nat.zero_le 7) h)).fewer (by omega)
  · rw [if_neg hnot] at h
    obtain ⟨tokens, hread, hderives, hstops⟩ := expression_finds maxDepth room (Nat.zero_le 7) h
    have hplain : LowUpdates maxDepth tokens u.kinds := lowUpdates_of_plain hderives.plain
    refine ⟨_, htwo.append hread, Nat.succ_pos _, ?_⟩
    rw [List.cons_append, List.cons_append, List.nil_append, lowUpdates_cons, lowUpdates_cons]
    have hheight : Leaves maxDepth token.kind (tokens ++ u.kinds) ↔ e.depth < maxDepth := by
      rw [← Expr.height_tree]
      constructor
      · intro hleaves
        exact hleaves.2 binary hmem tokens _ _ rfl hderives.of_zero hstops
      · intro hlt
        refine ⟨fun other hother => absurd hother (counts_of_updates hmem other),
          fun other _ first rest tree heq hother hstops' => ?_⟩
        rw [hother.unique_of_stops hstops' hderives.of_zero hstops heq.symm]
        exact hlt
    rw [hheight]
    have hpos := e.depth_pos
    simp only [(plain_ident name).leaves, hplain, and_true, true_and, List.mem_singleton,
      forall_eq, compound, Expr.depth]
    omega
  · rw [if_pos hcount] at h
    cases h
    refine ⟨_, htwo, Nat.succ_pos _, ?_⟩
    rw [lowUpdates_cons, lowUpdates_cons]
    have hleaves : Leaves maxDepth token.kind ([] ++ t.bump.bump.kinds) ↔ 1 < maxDepth :=
      ⟨fun h => h.1 binary hmem, fun hlt => ⟨fun _ _ => hlt,
        fun other hother => absurd hother (updates_of_counts hmem other)⟩⟩
    rw [hleaves]
    simp only [(plain_ident name).leaves, lowUpdates_nil, and_true, true_and, List.mem_singleton,
      forall_eq, compound, Expr.depth]
    omega

theorem keeps_simple (h : simple maxDepth room t = .ok (s, u)) :
    Keeps maxDepth 1 t u s.expressions := by
  unfold simple at h
  split_ifs at h with hlet
  · obtain ⟨⟨name, behind⟩, hname, h⟩ := exists_of_bind_ok h
    obtain ⟨middle, hequal, h⟩ := exists_of_bind_ok h
    obtain ⟨⟨value, last⟩, hvalue, h⟩ := exists_of_bind_ok h
    cases h
    have hhead : Keeps maxDepth (1 + 1) t behind [] := (keeps_keyword hlet).append
      (keeps_of_plain (Tokens.reads_identifier hname).1 (plain_ident name))
    exact ((hhead.append (keeps_expect plain_equal hequal)).append
      (keeps_expression (Nat.zero_le 7) hvalue)).fewer (by omega)
  · split at h
    next name operator token hassignment =>
      obtain ⟨⟨rhs, behind⟩, hrhs, h⟩ := exists_of_bind_ok h
      cases h
      exact keeps_assign hassignment hrhs
    next =>
      obtain ⟨⟨value, behind⟩, hvalue, h⟩ := exists_of_bind_ok h
      cases h
      exact keeps_expression (Nat.zero_le 7) hvalue

/-! ## Statements -/

theorem keeps_parenthesized (h : parenthesized maxDepth room t = .ok (e, u)) :
    Keeps maxDepth 1 t u [e] := by
  obtain ⟨first, hopen, h⟩ := exists_of_bind_ok h
  obtain ⟨⟨condition, second⟩, hcondition, h⟩ := exists_of_bind_ok h
  obtain ⟨third, hclose, h⟩ := exists_of_bind_ok h
  cases h
  have hinner := (keeps_expect plain_lParen hopen).append
    (keeps_expression (Nat.zero_le 7) hcondition)
  exact (hinner.append (keeps_expect plain_rParen hclose)).fewer (by omega)

theorem keeps_clause {α : Type} {closing : TokenKind} (hclosing : closing.Plain)
    {item : Tokens → Except Error (α × Tokens)} {expressions : α → List Expr}
    (hitem : ∀ {t u : Tokens} {a : α}, item t = .ok (a, u) → Keeps limit 1 t u (expressions a))
    {value : Option α} (h : clause closing item t = .ok (value, u)) :
    Keeps limit 1 t u (value.toList.flatMap expressions) := by
  unfold clause at h
  split_ifs at h with hat
  · obtain ⟨first, hclose, h⟩ := exists_of_bind_ok h
    cases h
    exact keeps_expect hclosing hclose
  · obtain ⟨⟨a, first⟩, ha, h⟩ := exists_of_bind_ok h
    obtain ⟨second, hclose, h⟩ := exists_of_bind_ok h
    cases h
    have hone := ((hitem ha).append (keeps_expect hclosing hclose)).fewer (by omega : 1 ≤ 1 + 1)
    simpa using hone

theorem optionExpressions_eq (s : Option Statement) :
    optionExpressions s = s.toList.flatMap Statement.expressions := by
  cases s <;> simp [optionExpressions]

/-- The nested statements keep the limit when their tokens are low. -/
def AllKeep (limit : ℕ) (nested : Tokens → Except Error (Statement × Tokens)) : Prop :=
  ∀ {t u : Tokens} {s : Statement}, nested t = .ok (s, u) → Keeps limit 1 t u s.expressions

variable {nested : Tokens → Except Error (Statement × Tokens)}

theorem keeps_statementList (hnested : AllKeep limit nested) {block : Bool} {fuel : ℕ}
    {body : List Statement} (h : statementList nested block fuel t = .ok (body, u)) :
    Keeps limit 0 t u (statementsExpressions body) := by
  induction fuel generalizing t body with
  | zero =>
      cases h
      exact keeps_nil limit _
  | succ fuel ih =>
      rw [statementList] at h
      split_ifs at h
      · cases h
        exact keeps_nil limit _
      · obtain ⟨⟨first, behind⟩, hfirst, h⟩ := exists_of_bind_ok h
        obtain ⟨⟨rest, last⟩, hrest, h⟩ := exists_of_bind_ok h
        cases h
        exact ((hnested hfirst).append (ih hrest)).fewer (Nat.zero_le _)

theorem keeps_braced (hnested : AllKeep limit nested) (h : braced nested t = .ok (s, u)) :
    Keeps limit 1 t u s.expressions := hnested (braced_ok h).2

theorem keeps_alternative (hnested : AllKeep limit nested) {other : Option Statement}
    (h : alternative nested t = .ok (other, u)) : Keeps limit 0 t u (optionExpressions other) := by
  unfold alternative at h
  split_ifs at h with helse hif
  · obtain ⟨⟨inner, behind⟩, hinner, h⟩ := exists_of_bind_ok h
    cases h
    exact ((keeps_keyword helse).append (hnested hinner)).fewer (Nat.zero_le _)
  · obtain ⟨⟨inner, behind⟩, hinner, h⟩ := exists_of_bind_ok h
    cases h
    exact ((keeps_keyword helse).append (keeps_braced hnested hinner)).fewer (Nat.zero_le _)
  · cases h
    exact keeps_nil limit _

theorem keeps_statementKind (hnested : AllKeep maxDepth nested)
    (h : statementKind maxDepth room nested t = .ok (s, u)) :
    Keeps maxDepth 1 t u s.expressions := by
  unfold statementKind at h
  split_ifs at h with hbrace hif hwhile hfor hbreak hcontinue hempty
  · obtain ⟨⟨body, first⟩, hbody, h⟩ := exists_of_bind_ok h
    obtain ⟨second, hclose, h⟩ := exists_of_bind_ok h
    cases h
    have hinner := (keeps_isAt plain_lBrace hbrace).append (keeps_statementList hnested hbody)
    have hall := (hinner.append (keeps_expect plain_rBrace hclose)).fewer (by omega : 1 ≤ 1 + 0 + 1)
    simpa [Statement.expressions] using hall
  · obtain ⟨⟨condition, first⟩, hcondition, h⟩ := exists_of_bind_ok h
    obtain ⟨⟨body, second⟩, hbody, h⟩ := exists_of_bind_ok h
    obtain ⟨⟨other, third⟩, hother, h⟩ := exists_of_bind_ok h
    cases h
    exact (((keeps_keyword hif).append (keeps_parenthesized hcondition)).append
      ((keeps_braced hnested hbody).append (keeps_alternative hnested hother))).fewer (by omega)
  · obtain ⟨⟨condition, first⟩, hcondition, h⟩ := exists_of_bind_ok h
    obtain ⟨⟨body, second⟩, hbody, h⟩ := exists_of_bind_ok h
    cases h
    exact (((keeps_keyword hwhile).append (keeps_parenthesized hcondition)).append
      (keeps_braced hnested hbody)).fewer (by omega)
  · obtain ⟨first, hopen, h⟩ := exists_of_bind_ok h
    obtain ⟨⟨init, second⟩, hinit, h⟩ := exists_of_bind_ok h
    obtain ⟨⟨condition, third⟩, hcondition, h⟩ := exists_of_bind_ok h
    obtain ⟨⟨step, fourth⟩, hstep, h⟩ := exists_of_bind_ok h
    obtain ⟨⟨body, fifth⟩, hbody, h⟩ := exists_of_bind_ok h
    cases h
    have hinit := keeps_clause plain_semicolon keeps_simple hinit
    have hcondition : Keeps maxDepth 1 second third (condition.toList.flatMap fun e => [e]) :=
      keeps_clause plain_semicolon (keeps_expression (Nat.zero_le 7)) hcondition
    have hstep := keeps_clause plain_rParen keeps_simple hstep
    rw [← optionExpressions_eq] at hinit hstep
    rw [List.flatMap_singleton'] at hcondition
    have hhead : Keeps maxDepth (1 + 1) t first [] :=
      (keeps_keyword hfor).append (keeps_expect plain_lParen hopen)
    exact ((hhead.append hinit).append
      (hcondition.append (hstep.append (keeps_braced hnested hbody)))).fewer (by omega)
  · obtain ⟨first, hend, h⟩ := exists_of_bind_ok h
    cases h
    exact ((keeps_keyword hbreak).append (keeps_expect plain_semicolon hend)).fewer (by omega)
  · obtain ⟨first, hend, h⟩ := exists_of_bind_ok h
    cases h
    exact ((keeps_keyword hcontinue).append (keeps_expect plain_semicolon hend)).fewer (by omega)
  · cases h
    exact keeps_isAt plain_semicolon hempty
  · obtain ⟨⟨inner, first⟩, hinner, h⟩ := exists_of_bind_ok h
    obtain ⟨second, hend, h⟩ := exists_of_bind_ok h
    cases h
    have hone := ((keeps_simple hinner).append (keeps_expect plain_semicolon hend)).fewer
      (by omega : 1 ≤ 1 + 1)
    simpa using hone

theorem keeps_statement (maxDepth room : ℕ) : AllKeep maxDepth (statement maxDepth room) := by
  induction room with
  | zero =>
      intro t u s h
      cases h
  | succ room ih =>
      intro t u s h
      exact keeps_statementKind ih h

/-- The statement loop of a script stops at its end. -/
theorem statementList_end (hnested : AllKeep limit nested) {fuel : ℕ}
    (hfuel : t.ahead.length ≤ fuel) {body : List Statement}
    (h : statementList nested false fuel t = .ok (body, u)) : u.kinds = [] := by
  induction fuel generalizing t body with
  | zero =>
      cases h
      exact Tokens.kinds_eq_nil hfuel
  | succ fuel ih =>
      rw [statementList] at h
      by_cases hdone : t.ahead = []
      · rw [if_pos (.inl hdone)] at h
        cases h
        simp [Tokens.kinds, hdone]
      · rw [if_neg (by simp [hdone])] at h
        obtain ⟨⟨first, behind⟩, hfirst, h⟩ := exists_of_bind_ok h
        obtain ⟨⟨rest, last⟩, hrest, h⟩ := exists_of_bind_ok h
        cases h
        obtain ⟨tokens, hread, hlength, -⟩ := hnested hfirst
        have hfewer := hread.length_eq
        exact ih (by omega) hrest

end

end Parser

/-- The expressions of a parsed script keep the limit exactly when its assignments by an operator
are low. -/
theorem parse_expressions_iff {source : String} {limits : Limits} {script : List Statement}
    (h : parse source limits = .ok script) :
    ∃ tokens, lex source limits.maxStringBytes = .ok tokens ∧
      ((∀ e ∈ statementsExpressions script, e.depth ≤ limits.maxNesting) ↔
        LowUpdates limits.maxNesting tokens.kinds []) := by
  unfold parse at h
  split_ifs at h
  obtain ⟨tokens, htokens, h⟩ := Except.exists_of_bind_ok h
  obtain ⟨⟨statements, u⟩, hstatements, h⟩ := Except.exists_of_bind_ok h
  cases h
  have hall : Parser.AllKeep limits.maxNesting
      (Parser.statement limits.maxNesting limits.maxNesting) := Parser.keeps_statement _ _
  have hend := Parser.statementList_end hall (le_refl _) hstatements
  obtain ⟨read, hread, -, hlow⟩ := Parser.keeps_statementList hall hstatements
  rw [hend] at hlow
  have hkinds := hread.kinds_eq
  rw [hend, List.append_nil] at hkinds
  exact ⟨tokens, htokens, by rw [hkinds, hlow]⟩

end SerialPlatform.Script
