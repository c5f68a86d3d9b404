import SerialPlatform.ScriptAccepts

/-!
# What is parsed is derived

Where the expression parser gives a tree, it has read a derivation of it, and nothing behind
goes on with what it has read.
-/

namespace SerialPlatform.Script

/-! ## Tokens which are read -/

namespace Tokens

/-- The tokens are read between two states of the parser. -/
structure Reads (t : Tokens) (tokens : List TokenKind) (behind : Tokens) : Prop where
  kinds_eq : t.kinds = tokens ++ behind.kinds
  skip_eq : t.skip tokens.length = behind

section

variable {t u v : Tokens} {kind : TokenKind} {tokens more : List TokenKind} {name : String}

theorem Reads.nil (t : Tokens) : t.Reads [] t := ⟨rfl, rfl⟩

theorem Reads.append (h : t.Reads tokens u) (h' : u.Reads more v) :
    t.Reads (tokens ++ more) v where
  kinds_eq := by rw [h.kinds_eq, h'.kinds_eq, List.append_assoc]
  skip_eq := by rw [skip_append, h.skip_eq, h'.skip_eq]

theorem Reads.length_eq (h : t.Reads tokens u) :
    t.ahead.length = tokens.length + u.ahead.length := by
  rw [← length_kinds, ← length_kinds, h.kinds_eq, List.length_append]

theorem kinds_of_current (h : t.current = some kind) : ∃ more, t.kinds = kind :: more := by
  rw [current_eq_head] at h
  cases hkinds : t.kinds with
  | nil =>
      rw [hkinds] at h
      cases h
  | cons first more =>
      rw [hkinds] at h
      cases h
      exact ⟨more, rfl⟩

theorem reads_bump (h : t.current = some kind) : t.Reads [kind] t.bump := by
  obtain ⟨more, hkinds⟩ := kinds_of_current h
  refine ⟨?_, (bump_eq_skip t).symm⟩
  rw [kinds_bump hkinds, hkinds]
  rfl

theorem reads_of_isAt (h : t.isAt kind = true) : t.Reads [kind] t.bump :=
  reads_bump (by simpa [isAt] using h)

theorem reads_expect (h : t.expect kind = .ok u) : t.Reads [kind] u := by
  unfold expect at h
  split_ifs at h with hat
  cases h
  exact reads_of_isAt hat

theorem reads_identifier (h : t.identifier = .ok (name, u)) :
    t.Reads [.ident name] u ∧ reserved name = false := by
  unfold identifier at h
  split at h
  · rename_i found hcurrent
    split_ifs at h with hreserved
    cases h
    exact ⟨reads_bump hcurrent, by simpa using hreserved⟩
  · cases h

theorem head_ne_of_isAt (h : ¬ t.isAt kind = true) : t.kinds.head? ≠ some kind := by
  rw [← current_eq_head]
  simpa [isAt] using h

/-- Nothing is ahead. -/
theorem kinds_eq_nil (h : t.ahead.length ≤ 0) : t.kinds = [] := by
  rw [← List.length_eq_zero_iff, length_kinds]
  omega

end

end Tokens

open Tokens (Reads)

/-! ## Ends of derivations -/

section

variable {tokens more : List TokenKind} {kind : TokenKind}

theorem EndsInVariable.of_append (h : EndsInVariable (more ++ tokens)) (hsome : tokens ≠ []) :
    EndsInVariable tokens := by
  obtain ⟨before, name, heq, hname, hlast⟩ := h
  obtain ⟨front, last, rfl⟩ := tokens.eq_nil_or_concat.resolve_left hsome
  rw [List.concat_eq_append, ← List.append_assoc] at heq
  obtain ⟨rfl, hsame⟩ := List.append_inj' heq rfl
  refine ⟨front, name, by rw [List.concat_eq_append, hsame], hname, fun hdot => hlast ?_⟩
  rw [List.getLast?_append, hdot]
  rfl

theorem not_endsInVariable (hlast : tokens.getLast? = some kind)
    (hkind : ∀ name, kind ≠ .ident name) : ¬ EndsInVariable tokens := by
  rintro ⟨before, name, rfl, -⟩
  rw [List.getLast?_concat] at hlast
  exact hkind name (Option.some.inj hlast).symm

/-- A field is not a variable. -/
theorem not_endsInVariable_field (tokens : List TokenKind) (field : String) :
    ¬ EndsInVariable (tokens ++ [.dot, .ident field]) := by
  rintro ⟨before, name, heq, -, hlast⟩
  have hsplit : tokens ++ [.dot, .ident field] = (tokens ++ [.dot]) ++ [.ident field] := by simp
  rw [hsplit] at heq
  obtain ⟨rfl, -⟩ := List.append_inj' heq rfl
  exact hlast List.getLast?_concat

theorem fieldTokens_concat (fields : List String) (field : String) :
    fieldTokens (fields ++ [field]) = fieldTokens fields ++ [.dot, .ident field] := by
  simp [fieldTokens]

theorem Derives.member_fields {first : List TokenKind} {base : Tree} (h : Derives 8 first base)
    (fields : List String) (hfields : ∀ field ∈ fields, reserved field = false) :
    Derives 8 (first ++ fieldTokens fields) (fields.foldl Tree.member base) := by
  induction fields using List.reverseRecOn with
  | nil => simpa [fieldTokens] using h
  | append_singleton fields field ih =>
      have hfront := ih fun other hother => hfields other (List.mem_append_left _ hother)
      have hfield := hfields field (List.mem_append_right _ List.mem_cons_self)
      rw [fieldTokens_concat, ← List.append_assoc, List.foldl_append]
      exact .member hfront hfield

end

namespace Parser

open Except (exists_of_bind_ok)

variable {maxDepth room : ℕ} {nested : ℕ → Tokens → Except Error (Expr × Tokens)} {t u : Tokens}
  {e : Expr}

/-- The nested parses give what they have read. -/
def Finds (nested : ℕ → Tokens → Except Error (Expr × Tokens)) : Prop :=
  ∀ {level : ℕ} {t u : Tokens} {e : Expr}, level ≤ 7 → nested level t = .ok (e, u) →
    ∃ tokens, t.Reads tokens u ∧ Derives level tokens e.tree ∧ Stops level tokens u.kinds

/-! ## Fields and arguments -/

theorem members_finds {span : Span} {fuel : ℕ} {base : Expr} (hfuel : t.ahead.length ≤ fuel)
    (h : members maxDepth span fuel base t = .ok (e, u)) :
    ∃ fields : List String, t.Reads (fieldTokens fields) u ∧
      e.tree = fields.foldl Tree.member base.tree ∧
      (∀ field ∈ fields, reserved field = false) ∧ u.kinds.head? ≠ some .dot := by
  induction fuel generalizing base t with
  | zero =>
      cases h
      exact ⟨[], .nil _, rfl, by simp, by simp [Tokens.kinds_eq_nil hfuel]⟩
  | succ fuel ih =>
      unfold members at h
      split_ifs at h with hdot
      · obtain ⟨⟨field, behind⟩, hfield, h⟩ := exists_of_bind_ok h
        obtain ⟨_, -, h⟩ := exists_of_bind_ok h
        obtain ⟨hname, hreserved⟩ := Tokens.reads_identifier hfield
        have hread := (Tokens.reads_of_isAt hdot).append hname
        have hlength := hread.length_eq
        simp only [List.cons_append, List.nil_append, List.length_cons, List.length_nil] at hlength
        obtain ⟨fields, hfields, htree, hall, hstop⟩ := ih (by omega) h
        refine ⟨field :: fields, ?_, htree, ?_, hstop⟩
        · exact hread.append hfields
        · simpa [hreserved] using hall
      · cases h
        exact ⟨[], .nil _, rfl, by simp, Tokens.head_ne_of_isAt hdot⟩

theorem arguments_finds (hnested : Finds nested) {fuel : ℕ} {args : List Expr}
    (h : arguments (nested 0) fuel t = .ok (args, u)) :
    ∃ tokens, t.Reads tokens u ∧ DerivesArguments tokens (argumentTrees args) ∧ args ≠ [] := by
  induction fuel generalizing t args with
  | zero =>
      obtain ⟨⟨arg, behind⟩, harg, h⟩ := exists_of_bind_ok h
      cases h
      obtain ⟨tokens, hread, hderives, -⟩ := hnested (Nat.zero_le 7) harg
      exact ⟨tokens, hread, .last hderives.of_zero, by simp⟩
  | succ fuel ih =>
      obtain ⟨⟨arg, behind⟩, harg, h⟩ := exists_of_bind_ok h
      obtain ⟨tokens, hread, hderives, -⟩ := hnested (Nat.zero_le 7) harg
      dsimp only at h
      split_ifs at h with hcomma
      · obtain ⟨⟨others, last⟩, hothers, h⟩ := exists_of_bind_ok h
        cases h
        obtain ⟨rest, hrest, hderives', hsome⟩ := ih hothers
        refine ⟨tokens ++ .comma :: rest,
          hread.append ((Tokens.reads_of_isAt hcomma).append hrest), ?_, by simp⟩
        cases others with
        | nil => exact absurd rfl hsome
        | cons next others => exact .more hderives.of_zero hderives'
      · cases h
        exact ⟨tokens, hread, .last hderives.of_zero, by simp⟩

/-! ## Operands -/

theorem nameOrCall_finds (hnested : Finds nested) {span : Span} {name : String} (hname : IsName name)
    (h : nameOrCall nested span name t = .ok (e, u)) :
    ∃ tokens, t.Reads tokens u ∧ Derives 9 (.ident name :: tokens) e.tree ∧
      (u.kinds.head? = some .lParen → ¬ EndsInVariable (.ident name :: tokens)) := by
  unfold nameOrCall at h
  split_ifs at h with hparen hclose
  · cases h
    have hread := (Tokens.reads_of_isAt hparen).append (Tokens.reads_of_isAt hclose)
    exact ⟨_, hread, .call hname .none, fun _ => not_endsInVariable rfl (by simp)⟩
  · obtain ⟨⟨args, behind⟩, hargs, h⟩ := exists_of_bind_ok h
    obtain ⟨last, hlast, h⟩ := exists_of_bind_ok h
    cases h
    obtain ⟨tokens, hread, hderives, -⟩ := arguments_finds hnested hargs
    have hall := (Tokens.reads_of_isAt hparen).append (hread.append (Tokens.reads_expect hlast))
    refine ⟨_, hall, .call hname hderives, fun _ => @not_endsInVariable _ .rParen ?_ (by simp)⟩
    rw [← List.append_assoc, ← List.cons_append, List.getLast?_concat]
  · cases h
    exact ⟨[], .nil t, .variable hname, fun h => absurd h (Tokens.head_ne_of_isAt hparen)⟩

theorem primaryHead_finds (hnested : Finds nested) (h : primaryHead nested t = .ok (e, u)) :
    ∃ tokens, t.Reads tokens u ∧ (u.kinds.head? = some .lParen → ¬ EndsInVariable tokens) ∧
      (Derives 9 tokens e.tree ∨ Derives 7 tokens e.tree ∧ u.kinds.head? ≠ some .dot) := by
  have hunary : ∀ {token : TokenKind} {operator : Unary}, t.current = some token →
      token.unary = some operator →
      (nested 7 t.bump >>= fun result =>
        .ok (.unary t.span operator result.1, result.2)) = .ok (e, u) →
      ∃ tokens, t.Reads tokens u ∧ (u.kinds.head? = some .lParen → ¬ EndsInVariable tokens) ∧
        (Derives 9 tokens e.tree ∨ Derives 7 tokens e.tree ∧ u.kinds.head? ≠ some .dot) := by
    intro token operator hcurrent htoken h
    obtain ⟨⟨operand, behind⟩, hoperand, h⟩ := exists_of_bind_ok h
    cases h
    obtain ⟨tokens, hread, hderives, hstops⟩ := hnested (le_refl 7) hoperand
    refine ⟨token :: tokens, (Tokens.reads_bump hcurrent).append hread, fun hparen hends => ?_,
      .inr ⟨.unary htoken hderives, hstops.dot⟩⟩
    obtain ⟨first, rest, rfl, -⟩ := hderives.head
    have hinner : EndsInVariable ([token] ++ first :: rest) := hends
    exact hstops.call hparen (hinner.of_append (by simp))
  unfold primaryHead at h
  cases hcurrent : t.current with
  | none =>
      rw [hcurrent] at h
      cases h
  | some token =>
      rw [hcurrent] at h
      cases token with
      | string text =>
          cases h
          exact ⟨_, Tokens.reads_bump hcurrent, fun _ => not_endsInVariable rfl (by simp),
            .inl (.string text)⟩
      | integer value =>
          cases h
          exact ⟨_, Tokens.reads_bump hcurrent, fun _ => not_endsInVariable rfl (by simp),
            .inl (.integer value)⟩
      | ident name =>
          dsimp only at h
          split_ifs at h with hboolean hallowed
          · cases h
            refine ⟨_, Tokens.reads_bump hcurrent, fun _ => ?_, .inl ?_⟩
            · rintro ⟨before, other, heq, hother, -⟩
              obtain ⟨-, hsame⟩ :=
                List.append_inj' (show [] ++ [TokenKind.ident name] = _ from heq) rfl
              cases hsame
              exact hother.ne_boolean hboolean
            · rcases hboolean with rfl | rfl
              · exact .boolean true
              · exact .boolean false
          · obtain ⟨tokens, hread, hderives, hcall⟩ := nameOrCall_finds hnested hallowed h
            exact ⟨_, (Tokens.reads_bump hcurrent).append hread, hcall, .inl hderives⟩
      | bang => exact hunary hcurrent rfl h
      | minus => exact hunary hcurrent rfl h
      | lParen =>
          obtain ⟨⟨inner, behind⟩, hinner, h⟩ := exists_of_bind_ok h
          obtain ⟨last, hlast, h⟩ := exists_of_bind_ok h
          cases h
          obtain ⟨tokens, hread, hderives, -⟩ := hnested (Nat.zero_le 7) hinner
          refine ⟨_, (Tokens.reads_bump hcurrent).append (hread.append (Tokens.reads_expect hlast)),
            fun _ => @not_endsInVariable _ .rParen ?_ (by simp), .inl ?_⟩
          · rw [← List.append_assoc, List.getLast?_concat]
          · rw [Expr.tree_withSpan]
            exact .group hderives.of_zero
      | _ => cases h

theorem primary_finds (hnested : Finds nested) (h : primary maxDepth nested t = .ok (e, u)) :
    ∃ tokens, t.Reads tokens u ∧ Derives 7 tokens e.tree ∧ u.kinds.head? ≠ some .dot ∧
      (u.kinds.head? = some .lParen → ¬ EndsInVariable tokens) := by
  obtain ⟨⟨head, behind⟩, hhead, h⟩ := exists_of_bind_ok h
  obtain ⟨⟨expr, last⟩, hmembers, h⟩ := exists_of_bind_ok h
  obtain ⟨_, -, h⟩ := exists_of_bind_ok h
  cases h
  obtain ⟨tokens, hread, hcall, hderives⟩ := primaryHead_finds hnested hhead
  obtain ⟨fields, hfields, htree, hall, hdot⟩ := members_finds (le_refl _) hmembers
  refine ⟨tokens ++ fieldTokens fields, hread.append hfields, ?_, hdot, ?_⟩
  · rw [htree]
    rcases hderives with h9 | ⟨h7, hnodot⟩
    · exact ((h9.loosen (by omega) (le_refl 9)).member_fields fields hall).loosen (by omega)
        (by omega)
    · -- an operator takes the fields of its operand
      cases fields with
      | nil => simpa [fieldTokens] using h7
      | cons field fields =>
          rw [hfields.kinds_eq] at hnodot
          exact absurd rfl hnodot
  · cases fields using List.reverseRecOn with
    | nil =>
        rw [← hfields.skip_eq] at *
        simpa [fieldTokens] using hcall
    | append_singleton fields field =>
        rw [fieldTokens_concat, ← List.append_assoc]
        exact fun _ => not_endsInVariable_field _ field

/-! ## Operators -/

theorem operator_of_current {operator : Binary} {precedence : ℕ}
    (h : t.current.bind TokenKind.binary = some (operator, precedence)) :
    t.current = some operator.token ∧ precedence = operator.level := by
  obtain ⟨token, htoken, hbinary⟩ := Option.bind_eq_some_iff.1 h
  obtain ⟨rfl, hlevel⟩ := binary_eq_some_iff.1 hbinary
  exact ⟨htoken, hlevel⟩

theorem operator_ne_of_current (h : t.current.bind TokenKind.binary = none) (operator : Binary) :
    t.kinds.head? ≠ some operator.token := by
  intro hhead
  rw [Tokens.current_eq_head, hhead, Option.bind_some, binary_eq_some_iff.2 ⟨rfl, rfl⟩] at h
  cases h

/-- The loop ends where no operator binds tightly enough. -/
theorem operators_end {minimum level : ℕ} {left : Expr} {first : List TokenKind}
    (hminimum : minimum ≤ level) (hlevel : level ≤ 7) (hleft : Derives level first left.tree)
    (hstops : Stops (level + 1) first t.kinds)
    (hlow : ∀ operator, t.kinds.head? = some (Binary.token operator) → operator.level < minimum) :
    ∃ tokens, t.Reads tokens t ∧ Derives minimum (first ++ tokens) left.tree ∧
      Stops minimum (first ++ tokens) t.kinds := by
  refine ⟨[], .nil t, ?_, ?_⟩
  · rw [List.append_nil]
    exact hleft.loosen hminimum (by omega)
  · rw [List.append_nil]
    exact ⟨hlow, hstops.dot, hstops.call⟩

/-- The loop over the operators: what is on its left is derived on a level of which the next
operator is, or a lower one. -/
theorem operators_finds (hnested : Finds nested) {minimum level fuel : ℕ} {left : Expr}
    {first : List TokenKind} (hfuel : t.ahead.length ≤ fuel) (hminimum : minimum ≤ level)
    (hlevel : level ≤ 7) (hleft : Derives level first left.tree)
    (hstops : Stops (level + 1) first t.kinds)
    (h : operators maxDepth nested minimum fuel left t = .ok (e, u)) :
    ∃ tokens, t.Reads tokens u ∧ Derives minimum (first ++ tokens) e.tree ∧
      Stops minimum (first ++ tokens) u.kinds := by
  induction fuel generalizing t left first level with
  | zero =>
      cases h
      refine operators_end hminimum hlevel hleft hstops fun operator hhead => ?_
      rw [Tokens.kinds_eq_nil hfuel] at hhead
      cases hhead
  | succ fuel ih =>
      unfold operators at h
      split at h
      next hcurrent =>
        cases h
        exact operators_end hminimum hlevel hleft hstops fun operator hhead =>
          absurd hhead (operator_ne_of_current hcurrent operator)
      next operator precedence hcurrent =>
        obtain ⟨htoken, rfl⟩ := operator_of_current hcurrent
        split_ifs at h with hlow
        · cases h
          refine operators_end hminimum hlevel hleft hstops fun other hhead => ?_
          rw [← Tokens.current_eq_head, htoken] at hhead
          rw [← operator_token_injective (Option.some.inj hhead)]
          exact hlow
        · obtain ⟨⟨right, behind⟩, hright, h⟩ := exists_of_bind_ok h
          obtain ⟨_, -, h⟩ := exists_of_bind_ok h
          have hbounds := operator.level_bounds
          obtain ⟨operand, hoperand, hderives, hends⟩ := hnested (by omega) hright
          have hread := (Tokens.reads_bump htoken).append hoperand
          have hlength := hread.length_eq
          rw [List.length_append, List.length_singleton] at hlength
          -- the operator takes what is on its left, which binds no looser
          have hle : operator.level ≤ level := by
            rw [Tokens.current_eq_head] at htoken
            exact Nat.le_of_lt_succ (hstops.operator operator htoken)
          have hnext : Derives operator.level (first ++ operator.token :: operand)
              (Expr.binary left.span operator left right).tree :=
            .binary (binary_eq_some_iff.2 ⟨rfl, rfl⟩) (hleft.loosen hle (by omega)) hderives
          have hstops' : Stops (operator.level + 1) (first ++ operator.token :: operand)
              behind.kinds := by
            refine ⟨hends.operator, hends.dot, fun hparen hvariable => hends.call hparen ?_⟩
            obtain ⟨head, rest, rfl, -⟩ := hderives.head
            have hsplit : first ++ operator.token :: head :: rest =
                (first ++ [operator.token]) ++ head :: rest := by simp
            rw [hsplit] at hvariable
            exact hvariable.of_append (by simp)
          obtain ⟨tokens, htokens, hresult, hlast⟩ :=
            ih (by omega) (by omega) (by omega) hnext hstops' h
          refine ⟨[operator.token] ++ operand ++ tokens, hread.append htokens, ?_, ?_⟩
          · simpa using hresult
          · simpa using hlast

/-- The parser finds derivations. -/
theorem expression_finds (maxDepth room : ℕ) : Finds (expression maxDepth room) := by
  induction room with
  | zero =>
      intro level t u e _ h
      cases h
  | succ room ih =>
      intro level t u e hlevel h
      obtain ⟨⟨left, behind⟩, hleft, h⟩ := exists_of_bind_ok h
      obtain ⟨first, hfirst, hderives, hdot, hcall⟩ := primary_finds ih hleft
      have hstops : Stops (7 + 1) first behind.kinds := by
        refine ⟨fun operator _ => ?_, hdot, hcall⟩
        have hbounds := operator.level_bounds
        omega
      obtain ⟨tokens, htokens, hresult, hends⟩ :=
        operators_finds ih (le_refl _) hlevel (le_refl 7) hderives hstops h
      exact ⟨first ++ tokens, hfirst.append htokens, hresult, hends⟩

end Parser

/-! ## The tokens determine the tree -/

/-- The tokens in a state of the parser. -/
def Tokens.of (tokens : List TokenKind) : Tokens :=
  ⟨tokens.map fun kind => ⟨kind, .start⟩, .start⟩

@[simp] theorem Tokens.kinds_of (tokens : List TokenKind) : (Tokens.of tokens).kinds = tokens := by
  simp [Tokens.of, Tokens.kinds, Function.comp_def]

theorem Stops.shorter {level : ℕ} {tokens extra rest : List TokenKind}
    (h : Stops level tokens (extra ++ rest)) : Stops level tokens extra := by
  cases extra with
  | nil => exact ⟨by simp, by simp, by simp⟩
  | cons first extra => exact ⟨h.operator, h.dot, h.call⟩

/-- Of the derivations which begin like the tokens, one at most stops. -/
theorem Derives.unique {level : ℕ} {tokens more : List TokenKind} {tree other : Tree}
    (hlevel : level ≤ 7) (h : Derives level tokens tree) (hstops : Stops level tokens more)
    (h' : Derives level (tokens ++ more) other) : more = [] ∧ other = tree := by
  have hstops' : Stops level (tokens ++ more) [] := ⟨by simp, by simp, by simp⟩
  have hfirst := Parser.expression_accepts (tokens ++ more).length (tokens ++ more).length hlevel h
    (Tokens.kinds_of (tokens ++ more)) hstops
  have hwhole := Parser.expression_accepts (tokens ++ more).length (tokens ++ more).length hlevel h'
    (by rw [Tokens.kinds_of, List.append_nil]) hstops'
  rcases hfirst with ⟨e, he, rfl⟩ | ⟨hexceeds, -⟩
  · rcases hwhole with ⟨e', he', rfl⟩ | ⟨hexceeds, -⟩
    · rw [he] at he'
      obtain ⟨rfl, hskip⟩ := Prod.mk.inj (Except.ok.inj he')
      have hlength := congrArg (fun t => t.ahead.length) hskip
      simp only [Tokens.skip, Tokens.of, List.length_drop, List.length_map, List.length_append]
        at hlength
      exact ⟨List.length_eq_zero_iff.1 (by omega), rfl⟩
    · exact absurd ⟨le_refl _, le_refl _⟩ hexceeds
  · exact absurd ⟨by simp, by simp⟩ hexceeds

/-! ## Printing with the fewest parentheses -/

theorem grouped_length_le (level : ℕ) (tokens : List TokenKind) {low high : ℕ} (h : low ≤ high) :
    (grouped low level tokens).length ≤ (grouped high level tokens).length ∧
      (grouped high level tokens).length ≤ (grouped low level tokens).length + 2 := by
  unfold grouped
  by_cases hlow : level < low
  · have hhigh : level < high := by omega
    rw [if_pos hlow, if_pos hhigh]
    omega
  · by_cases hhigh : level < high
    · rw [if_neg hlow, if_pos hhigh]
      simp only [List.length_cons, List.length_append, List.length_nil]
      omega
    · rw [if_neg hlow, if_neg hhigh]
      omega

theorem Tree.print_length_le (tree : Tree) {low high : ℕ} (h : low ≤ high) :
    (tree.print low).length ≤ (tree.print high).length ∧
      (tree.print high).length ≤ (tree.print low).length + 2 := by
  cases tree with
  | member | unary | binary =>
      simp only [Tree.print]
      exact grouped_length_le _ _ h
  | literal | «variable» | call =>
      unfold Tree.print
      exact ⟨le_refl _, Nat.le_add_right _ 2⟩

theorem grouped_length_self (level : ℕ) (tokens : List TokenKind) :
    (grouped level level tokens).length = tokens.length := by
  rw [grouped, if_neg (lt_irrefl level)]

mutual

/-- No derivation of a tree is shorter than its print. -/
theorem Derives.print_length_le {level : ℕ} {tokens : List TokenKind} {tree : Tree}
    (h : Derives level tokens tree) : (tree.print level).length ≤ tokens.length := by
  match h with
  | .tighter _ h => exact ((tree.print_length_le (Nat.le_succ level)).1).trans h.print_length_le
  | .binary htoken hleft hright =>
      have hl := hleft.print_length_le
      have hr := hright.print_length_le
      obtain ⟨rfl, rfl⟩ := binary_eq_some_iff.1 htoken
      rw [Tree.print, grouped_length_self]
      simp only [List.length_append, List.length_cons]
      omega
  | .unary _ h =>
      have hoperand := h.print_length_le
      rw [Tree.print, grouped_length_self]
      simpa using hoperand
  | .member h _ =>
      have hbase := h.print_length_le
      rw [Tree.print, grouped_length_self]
      simpa using hbase
  | .string _ | .integer _ | .boolean _ | .variable _ => exact le_refl 1
  | .call _ h =>
      have hargs := h.print_length_le
      rw [Tree.print]
      simpa using hargs
  | .group h =>
      have hinner := h.print_length_le
      have hparentheses := (tree.print_length_le (by omega : 1 ≤ 9)).2
      simp only [List.length_cons, List.length_append, List.length_nil]
      omega

theorem DerivesArguments.print_length_le {tokens : List TokenKind} {args : List Tree}
    (h : DerivesArguments tokens args) : (printArguments args).length ≤ tokens.length := by
  match h with
  | .none => exact le_refl 0
  | .last h => exact h.print_length_le
  | .more h hrest =>
      have harg := h.print_length_le
      have hothers := hrest.print_length_le
      rw [printArguments]
      simp only [List.length_append, List.length_cons]
      omega

end

/-! ## The grammar of expressions and of assignments -/

namespace Parser

/-- The operators of the assignments `x op= e`. -/
def updates : List (TokenKind × Binary) :=
  [(.plusEqual, .add), (.minusEqual, .subtract), (.starEqual, .multiply), (.slashEqual, .divide),
    (.percentEqual, .remainder)]

/-- The operators of `x++` and of `x--`. -/
def counts : List (TokenKind × Binary) := [(.plusPlus, .add), (.minusMinus, .subtract)]

/-- The value of the assignment to a variable by an operator. -/
def updated (span : Span) (name : String) (operator : Binary) (rhs : Expr) : Statement :=
  .assign span name (.binary span operator (.variable span name) rhs)

/-- An answer to the tokens ahead is that of the grammar. -/
def Answers (t : Tokens) : Except Error (Expr × Tokens) → Prop
  | .ok (e, behind) => ∃ tokens, t.Reads tokens behind ∧ Derives 1 tokens e.tree ∧
      Stops 0 tokens behind.kinds ∧ ∀ other tree, other <+: t.kinds → Derives 1 other tree →
        other <+: tokens ∧ (other = tokens → tree = e.tree)
  | .error e => e.code = "nesting_limit" ∨ ∀ tokens more tree, t.kinds = tokens ++ more →
      Derives 1 tokens tree → ¬ Stops 0 tokens more

theorem answers_expression (maxDepth room : ℕ) (t : Tokens) :
    Answers t (expression maxDepth room 0 t) := by
  cases hresult : expression maxDepth room 0 t with
  | ok result =>
      obtain ⟨e, behind⟩ := result
      obtain ⟨tokens, hread, hderives, hstops⟩ := expression_finds maxDepth room (Nat.zero_le 7) hresult
      refine ⟨tokens, hread, hderives.of_zero, hstops, fun other tree hother hderives' => ?_⟩
      have hwhole : tokens <+: t.kinds := ⟨_, hread.kinds_eq.symm⟩
      have hother' := hderives'.loosen (Nat.zero_le 1) (by omega)
      rcases List.prefix_or_prefix_of_prefix hother hwhole with hshort | ⟨extra, rfl⟩
      · refine ⟨hshort, fun heq => ?_⟩
        subst heq
        have hnone : Stops 0 other ([] ++ behind.kinds) := hstops
        exact (hderives.unique (Nat.zero_le 7) hnone.shorter (by rwa [List.append_nil])).2
      · -- a longer derivation would go on where the parser stopped
        obtain ⟨rest, hrest⟩ := hother
        have hbehind : behind.kinds = extra ++ rest := by
          have hsame := hread.kinds_eq
          rw [← hrest, List.append_assoc] at hsame
          exact (List.append_cancel_left hsame).symm
        rw [hbehind] at hstops
        obtain ⟨rfl, htree⟩ := hderives.unique (Nat.zero_le 7) hstops.shorter hother'
        rw [List.append_nil]
        exact ⟨List.prefix_refl _, fun _ => htree⟩
  | error e =>
      by_cases hlimit : e.code = "nesting_limit"
      · exact .inl hlimit
      · refine .inr fun tokens more tree hkinds hderives hstops => ?_
        have hother := hderives.loosen (Nat.zero_le 1) (by omega)
        rcases expression_accepts maxDepth room (Nat.zero_le 7) hother hkinds hstops with
          ⟨value, hok, -⟩ | ⟨-, e', herror, hcode⟩
        · rw [hresult] at hok
          cases hok
        · rw [hresult] at herror
          cases herror
          exact hlimit hcode

theorem simple_assign (maxDepth room : ℕ) {t : Tokens} {name : String} {token : TokenKind}
    {operator : Option Binary} {more : List TokenKind}
    (hkinds : t.kinds = .ident name :: token :: more) (hname : name ≠ "let")
    (htoken : token.assignment = some operator) :
    simple maxDepth room t = (assigned maxDepth room token t.bump.span t.bump.bump).map
      fun result => (.assign t.span name (compound operator t.span name result.1), result.2) := by
  obtain ⟨ahead, eof⟩ := t
  match ahead, hkinds with
  | ⟨first, span⟩ :: ⟨second, next⟩ :: rest, hkinds =>
      have hsame : first = .ident name ∧ second = token := by
        obtain ⟨hfirst, hrest⟩ := List.cons.inj hkinds
        exact ⟨hfirst, (List.cons.inj hrest).1⟩
      obtain ⟨rfl, rfl⟩ := hsame
      have hlet : (⟨⟨.ident name, span⟩ :: ⟨second, next⟩ :: rest, eof⟩ : Tokens).keyword "let" =
          false := by
        simpa [Tokens.keyword, Tokens.isAt, Tokens.current] using hname
      unfold simple
      rw [hlet]
      simp only [assignmentAt, htoken, Option.map_some, Tokens.bump, Tokens.span, List.tail_cons]
      cases assigned maxDepth room _ next ⟨rest, eof⟩ <;> rfl

/-- An assignment operator stands for the binary operator. -/
theorem simple_updates (maxDepth room : ℕ) {token : TokenKind} {operator : Binary}
    (hmem : (token, operator) ∈ updates) {t : Tokens} {name : String} {more : List TokenKind}
    (hkinds : t.kinds = .ident name :: token :: more) (hname : name ≠ "let") :
    simple maxDepth room t = (expression maxDepth room 0 t.bump.bump).map
      fun result => (updated t.span name operator result.1, result.2) := by
  have htoken : token.assignment = some (some operator) ∧ token ≠ .plusPlus ∧ token ≠ .minusMinus := by
    simp only [updates, List.mem_cons, Prod.mk.injEq, List.not_mem_nil, or_false] at hmem
    rcases hmem with ⟨rfl, rfl⟩ | ⟨rfl, rfl⟩ | ⟨rfl, rfl⟩ | ⟨rfl, rfl⟩ | ⟨rfl, rfl⟩
    all_goals simp [TokenKind.assignment]
  rw [simple_assign maxDepth room hkinds hname htoken.1, assigned,
    if_neg (not_or.2 htoken.2)]
  rfl

/-- To count is to assign by an operator with one. -/
theorem simple_counts (maxDepth room : ℕ) {token : TokenKind} {operator : Binary}
    (hmem : (token, operator) ∈ counts) {t : Tokens} {name : String} {more : List TokenKind}
    (hkinds : t.kinds = .ident name :: token :: more) (hname : name ≠ "let") :
    simple maxDepth room t =
      .ok (updated t.span name operator (.literal t.bump.span (.integer 1)), t.bump.bump) := by
  have htoken : token.assignment = some (some operator) ∧ (token = .plusPlus ∨ token = .minusMinus) := by
    simp only [counts, List.mem_cons, Prod.mk.injEq, List.not_mem_nil, or_false] at hmem
    rcases hmem with ⟨rfl, rfl⟩ | ⟨rfl, rfl⟩
    all_goals simp [TokenKind.assignment]
  rw [simple_assign maxDepth room hkinds hname htoken.1, assigned, if_pos htoken.2]
  rfl

/-! ## Main results -/

/-- The parser of expressions is that of the grammar, an assignment operator stands for the
binary operator, and what is printed is parsed. -/
theorem expression_grammar :
    -- the answer to any tokens, and no excess of a limit which fits what is derived
    (∀ maxDepth room t, Answers t (expression maxDepth room 0 t)) ∧
    (∀ maxDepth room t tokens more tree, t.kinds = tokens ++ more → Derives 1 tokens tree →
      Stops 0 tokens more → tokens.length ≤ room → tokens.length ≤ maxDepth →
      ∃ e, expression maxDepth room 0 t = .ok (e, t.skip tokens.length) ∧ e.tree = tree) ∧
    -- assignments
    (∀ maxDepth room t name token operator more, t.kinds = .ident name :: token :: more →
      name ≠ "let" →
      ((token, operator) ∈ updates →
        simple maxDepth room t = (expression maxDepth room 0 t.bump.bump).map
          fun result => (updated t.span name operator result.1, result.2)) ∧
      ((token, operator) ∈ counts →
        simple maxDepth room t =
          .ok (updated t.span name operator (.literal t.bump.span (.integer 1)), t.bump.bump))) ∧
    -- the print of a tree, which has the fewest parentheses
    ∀ tree : Tree, tree.Named → Derives 1 (tree.print 1) tree ∧
      (∀ tokens, Derives 1 tokens tree → (tree.print 1).length ≤ tokens.length) ∧
      ∀ maxDepth room t more, t.kinds = tree.print 1 ++ more → Stops 0 (tree.print 1) more →
        Accepts (fun e : Expr => e.tree = tree) (t.skip (tree.print 1).length)
          (Fits maxDepth room (tree.print 1).length) (expression maxDepth room 0 t) := by
  have haccepts : ∀ maxDepth room t tokens more tree, t.kinds = tokens ++ more →
      Derives 1 tokens tree → Stops 0 tokens more →
      Accepts (fun e : Expr => e.tree = tree) (t.skip tokens.length)
        (Fits maxDepth room tokens.length) (expression maxDepth room 0 t) :=
    fun maxDepth room t tokens more tree hkinds hderives hstops =>
      expression_accepts maxDepth room (Nat.zero_le 7)
        (hderives.loosen (Nat.zero_le 1) (by omega)) hkinds hstops
  refine ⟨answers_expression, ?_, ?_, ?_⟩
  · intro maxDepth room t tokens more tree hkinds hderives hstops hroom hdepth
    rcases haccepts maxDepth room t tokens more tree hkinds hderives hstops with
      hok | ⟨hexceeds, -⟩
    · exact hok
    · exact absurd ⟨hroom, hdepth⟩ hexceeds
  · intro maxDepth room t name token operator more hkinds hname
    exact ⟨fun hmem => simple_updates maxDepth room hmem hkinds hname,
      fun hmem => simple_counts maxDepth room hmem hkinds hname⟩
  · intro tree hnamed
    have hprint := tree.derives_print (by omega : 1 ≤ 9) hnamed
    exact ⟨hprint, fun tokens hderives => hderives.print_length_le,
      fun maxDepth room t more => fun hkinds => haccepts maxDepth room t _ more tree hkinds hprint⟩

/-- A token which goes on with an expression and leads nowhere makes the expression fail. -/
theorem prefix_rejected : ¬ ∀ (maxDepth room : ℕ) (t : Tokens),
    (∃ tokens tree, tokens <+: t.kinds ∧ Derives 1 tokens tree) →
    (∃ result, expression maxDepth room 0 t = .ok result) ∨
      ∃ e, expression maxDepth room 0 t = .error e ∧ e.code = "nesting_limit" := by
  intro h
  have hname : Derives 1 [.ident "a"] (.variable "a") :=
    (Derives.variable (by decide)).loosen (by omega) (le_refl 9)
  have hresult : expression 128 127 0 (.of [.ident "a", .plus, .rParen]) = .error
      ⟨"syntax_error", "expected literal, variable or built-in call", .start⟩ := by
    rfl
  rcases h 128 127 (.of [.ident "a", .plus, .rParen])
    ⟨_, _, by rw [Tokens.kinds_of]; exact ⟨_, rfl⟩, hname⟩ with ⟨result, hok⟩ | ⟨e, herror, hcode⟩
  · rw [hresult] at hok
    cases hok
  · rw [hresult] at herror
    cases herror
    exact absurd hcode (by decide)

end Parser

end SerialPlatform.Script
