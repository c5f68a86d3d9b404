import SerialPlatform.ScriptParsing

/-!
# Derivations are accepted

On the tokens of a derivation the parser builds its tree, unless it exceeds the nesting
limit, which it does not when the tokens are no more than the limit.
-/

namespace SerialPlatform.Script

/-- The result is a good value in front of the rest, or the nesting limit is exceeded, which
it is not where the limit fits. -/
def Accepts {α : Type} (good : α → Prop) (rest : Tokens) (fits : Prop)
    (result : Except Error (α × Tokens)) : Prop :=
  (∃ value, result = .ok (value, rest) ∧ good value) ∨
    ¬ fits ∧ ∃ e, result = .error e ∧ e.code = "nesting_limit"

/-- The limit fits so many tokens. -/
def Fits (maxDepth room count : ℕ) : Prop := count ≤ room ∧ count ≤ maxDepth

theorem Fits.fewer {maxDepth room count fewer : ℕ} (h : Fits maxDepth room count)
    (hle : fewer ≤ count) : Fits maxDepth room fewer := ⟨hle.trans h.1, hle.trans h.2⟩

theorem Fits.inside {maxDepth room count fewer : ℕ} (h : Fits maxDepth (room + 1) count)
    (hlt : fewer < count) : Fits maxDepth room fewer :=
  ⟨Nat.le_of_lt_succ (hlt.trans_le h.1), (hlt.trans_le h.2).le⟩

section

variable {α β : Type} {good : α → Prop} {better : β → Prop} {rest rest' : Tokens}
  {fits fits' : Prop} {result : Except Error (α × Tokens)} {value : α}

theorem Accepts.ok (h : good value) : Accepts good rest fits (.ok (value, rest)) :=
  .inl ⟨value, rfl, h⟩

theorem Accepts.bind {next : α × Tokens → Except Error (β × Tokens)}
    (h : Accepts good rest fits result) (hfits : fits' → fits)
    (hnext : ∀ value, good value → Accepts better rest' fits' (next (value, rest))) :
    Accepts better rest' fits' (result >>= next) := by
  rcases h with ⟨value, rfl, hvalue⟩ | ⟨hexceeds, e, rfl, hcode⟩
  · exact hnext value hvalue
  · exact .inr ⟨fun hboth => hexceeds (hfits hboth), e, rfl, hcode⟩

end

namespace Parser

section

variable {maxDepth : ℕ}

/-- The first of two checks which fails is the error of both. -/
theorem limit_bind {first : Except Error Unit} {second : Except Error Unit} {low high : Prop}
    (hfirst : first = .ok () ∨ low ∧ ∃ e, first = .error e ∧ e.code = "nesting_limit")
    (hsecond : second = .ok () ∨ high ∧ ∃ e, second = .error e ∧ e.code = "nesting_limit") :
    (first >>= fun _ => second) = .ok () ∨
      (low ∨ high) ∧ ∃ e, (first >>= fun _ => second) = .error e ∧ e.code = "nesting_limit" := by
  rcases hfirst with rfl | ⟨hlow, e, rfl, hcode⟩
  · rcases hsecond with rfl | ⟨hhigh, e, rfl, hcode⟩
    · exact .inl rfl
    · exact .inr ⟨.inr hhigh, e, rfl, hcode⟩
  · exact .inr ⟨.inl hlow, e, rfl, hcode⟩

theorem checkDepth_cases (maxDepth depth : ℕ) (span : Span) :
    checkDepth maxDepth depth span = .ok () ∨
      maxDepth < depth ∧ ∃ e, checkDepth maxDepth depth span = .error e ∧
        e.code = "nesting_limit" := by
  unfold checkDepth
  split_ifs with hdeep
  · exact .inr ⟨hdeep, _, rfl, rfl⟩
  · exact .inl rfl

mutual

/-- The check of a tree fails only for its height. -/
theorem checkExpressionDepth_cases (maxDepth depth : ℕ) (e : Expr) :
    checkExpressionDepth maxDepth depth e = .ok () ∨
      maxDepth + 1 < depth + e.depth ∧
        ∃ error, checkExpressionDepth maxDepth depth e = .error error ∧
          error.code = "nesting_limit" := by
  match e with
  | .literal span _ =>
      exact (checkDepth_cases maxDepth depth span).imp_right
        (And.imp_left fun hlt => Nat.succ_lt_succ hlt)
  | .variable span _ =>
      exact (checkDepth_cases maxDepth depth span).imp_right
        (And.imp_left fun hlt => Nat.succ_lt_succ hlt)
  | .member span base _ =>
      refine (limit_bind (checkDepth_cases maxDepth depth span)
        (checkExpressionDepth_cases maxDepth (depth + 1) base)).imp_right (And.imp_left ?_)
      rw [Expr.depth]
      omega
  | .unary span _ operand =>
      refine (limit_bind (checkDepth_cases maxDepth depth span)
        (checkExpressionDepth_cases maxDepth (depth + 1) operand)).imp_right (And.imp_left ?_)
      rw [Expr.depth]
      omega
  | .binary span _ left right =>
      refine (limit_bind (checkDepth_cases maxDepth depth span)
        (limit_bind (checkExpressionDepth_cases maxDepth (depth + 1) right)
          (checkExpressionDepth_cases maxDepth (depth + 1) left))).imp_right (And.imp_left ?_)
      rw [Expr.depth]
      omega
  | .call span _ args =>
      refine (limit_bind (checkDepth_cases maxDepth depth span)
        (checkArgumentDepth_cases maxDepth (depth + 1) args)).imp_right (And.imp_left ?_)
      rw [Expr.depth]
      omega

theorem checkArgumentDepth_cases (maxDepth depth : ℕ) (args : List Expr) :
    checkArgumentDepth maxDepth depth args = .ok () ∨
      maxDepth + 1 < depth + argumentsDepth args ∧
        ∃ error, checkArgumentDepth maxDepth depth args = .error error ∧
          error.code = "nesting_limit" := by
  match args with
  | [] => exact .inl rfl
  | arg :: args =>
      refine (limit_bind (checkArgumentDepth_cases maxDepth depth args)
        (checkExpressionDepth_cases maxDepth depth arg)).imp_right (And.imp_left ?_)
      rw [argumentsDepth]
      omega

end

theorem accepts_check {α : Type} {good : α → Prop} {rest : Tokens} {fits : Prop} {e : Expr}
    {next : Except Error (α × Tokens)} (hheight : fits → e.depth ≤ maxDepth)
    (hnext : Accepts good rest fits next) :
    Accepts good rest fits (checkExpressionDepth maxDepth 1 e >>= fun _ => next) := by
  rcases checkExpressionDepth_cases maxDepth 1 e with hok | ⟨hdeep, error, herror, hcode⟩
  · rw [hok]
    exact hnext
  · rw [herror]
    refine .inr ⟨fun hfits => ?_, error, rfl, hcode⟩
    have hle := hheight hfits
    omega

/-- The nested parses accept what is derived. -/
def Parses (maxDepth room : ℕ) (nested : ℕ → Tokens → Except Error (Expr × Tokens)) : Prop :=
  ∀ {level : ℕ} {tokens : List TokenKind} {tree : Tree} {t : Tokens} {more : List TokenKind},
    level ≤ 7 → Derives level tokens tree → t.kinds = tokens ++ more →
    Stops level tokens more →
    Accepts (fun e : Expr => e.tree = tree) (t.skip tokens.length)
      (Fits maxDepth room tokens.length) (nested level t)

/-! ## Fields -/

theorem height_le_foldl_member (fields : List String) (tree : Tree) :
    tree.height ≤ (fields.foldl Tree.member tree).height := by
  induction fields generalizing tree with
  | nil => exact le_refl _
  | cons field fields ih =>
      have hle := ih (.member tree field)
      simp only [Tree.height] at hle
      exact (Nat.le_succ _).trans hle

theorem members_accepts {span : Span} {fits : Prop} (fields : List String)
    (hfields : ∀ field ∈ fields, reserved field = false) {fuel : ℕ} (hfuel : fields.length ≤ fuel)
    {base : Expr} {t : Tokens} {more : List TokenKind}
    (hkinds : t.kinds = fieldTokens fields ++ more) (hdot : more.head? ≠ some .dot)
    (hheight : fits → (fields.foldl Tree.member base.tree).height ≤ maxDepth) :
    Accepts (fun e : Expr => e.tree = fields.foldl Tree.member base.tree)
      (t.skip (fieldTokens fields).length) fits (members maxDepth span fuel base t) := by
  induction fields generalizing fuel base t with
  | nil =>
      have hnot : t.isAt .dot = false := by
        rw [Tokens.isAt, Tokens.current_eq_head, hkinds]
        simpa [fieldTokens] using hdot
      cases fuel with
      | zero => exact .ok rfl
      | succ fuel =>
          rw [members, hnot]
          exact .ok rfl
  | cons field fields ih =>
      cases fuel with
      | zero => simp at hfuel
      | succ fuel =>
          have hcons : t.kinds = .dot :: .ident field :: (fieldTokens fields ++ more) := by
            rw [hkinds]
            simp [fieldTokens]
          have hbump := Tokens.kinds_bump hcons
          have hname : t.bump.identifier = .ok (field, t.bump.bump) := by
            rw [Tokens.identifier, Tokens.current_eq_head, hbump]
            simp [hfields field List.mem_cons_self]
          rw [members, Tokens.isAt_of_kinds hcons, if_pos rfl, hname, Except.ok_bind]
          have hle := height_le_foldl_member fields (Expr.member span base field).tree
          have hrest : Accepts (fun e : Expr => e.tree = (field :: fields).foldl Tree.member base.tree)
              (t.bump.bump.skip (fieldTokens fields).length) fits
              (members maxDepth span fuel (.member span base field) t.bump.bump) :=
            ih (fun other hother => hfields other (List.mem_cons_of_mem _ hother))
              (Nat.le_of_succ_le_succ hfuel) (Tokens.kinds_bump hbump) hheight
          refine accepts_check (fun hfits => ?_) ?_
          · rw [← Expr.height_tree]
            exact hle.trans (hheight hfits)
          · rw [fieldTokens_cons, Tokens.skip_cons, Tokens.skip_cons]
            exact hrest

/-! ## Operands -/

variable {room : ℕ} {nested : ℕ → Tokens → Except Error (Expr × Tokens)}

theorem isAt_eq_false {t : Tokens} {kind : TokenKind} (h : t.kinds.head? ≠ some kind) :
    t.isAt kind = false := by
  rw [Tokens.isAt, Tokens.current_eq_head]
  simpa using h

/-- Behind an expression stands a token which goes on with none. -/
theorem stops_of_head {tokens more : List TokenKind} {kind : TokenKind}
    (hoperator : ∀ operator, kind ≠ Binary.token operator) (hdot : kind ≠ .dot)
    (hcall : kind ≠ .lParen) (level : ℕ) : Stops level tokens (kind :: more) where
  operator := fun operator h => absurd (Option.some.inj h) (hoperator operator)
  dot := fun h => hdot (Option.some.inj h)
  call := fun h => absurd (Option.some.inj h) hcall

theorem stops_rParen {tokens more : List TokenKind} (level : ℕ) :
    Stops level tokens (.rParen :: more) :=
  stops_of_head (fun operator => by cases operator <;> simp [Binary.token]) (by simp) (by simp)
    level

theorem stops_comma {tokens more : List TokenKind} (level : ℕ) :
    Stops level tokens (.comma :: more) :=
  stops_of_head (fun operator => by cases operator <;> simp [Binary.token]) (by simp) (by simp)
    level

theorem arguments_accepts (hnested : Parses maxDepth room nested) (tokens : List TokenKind)
    (args : List Tree) (h : DerivesArguments tokens args) (hsome : args ≠ []) {fuel : ℕ}
    (hfuel : tokens.length ≤ fuel) {t : Tokens} {more : List TokenKind}
    (hkinds : t.kinds = tokens ++ .rParen :: more) :
    Accepts (fun values => argumentTrees values = args) (t.skip tokens.length)
      (Fits maxDepth room tokens.length) (arguments (nested 0) fuel t) := by
  match h with
  | .none => exact absurd rfl hsome
  | .last h =>
      obtain ⟨first, rest, rfl, -⟩ := h.head
      have hone := hnested (by omega) (h.loosen (Nat.zero_le 1) (by omega)) hkinds
        (stops_rParen 0)
      have hend : (t.skip (first :: rest).length).isAt .comma = false :=
        isAt_eq_false (by rw [Tokens.kinds_skip hkinds]; simp)
      cases fuel with
      | zero => cases hfuel
      | succ fuel =>
          refine hone.bind id fun arg harg => ?_
          simp only [hend]
          exact .ok (by simp [argumentTrees, harg])
  | @DerivesArguments.more tokens rest _ next args h hrest =>
      have hlength : (tokens ++ .comma :: rest).length = tokens.length + (rest.length + 1) := by
        simp
      have hsplit : t.kinds = tokens ++ .comma :: (rest ++ .rParen :: more) := by
        rw [hkinds]
        simp
      have hone := hnested (by omega) (h.loosen (Nat.zero_le 1) (by omega)) hsplit (stops_comma 0)
      have hcomma := Tokens.kinds_skip hsplit
      cases fuel with
      | zero => omega
      | succ fuel =>
          refine hone.bind (fun hfits => hfits.fewer (by omega)) fun arg harg => ?_
          simp only [Tokens.isAt_of_kinds hcomma, if_true]
          have hothers : Accepts (fun values => argumentTrees values = next :: args)
              ((t.skip tokens.length).bump.skip rest.length) (Fits maxDepth room rest.length)
              (arguments (nested 0) fuel (t.skip tokens.length).bump) :=
            arguments_accepts hnested rest _ hrest (by simp) (by omega) (Tokens.kinds_bump hcomma)
          rw [Tokens.skip_append, Tokens.skip_cons]
          refine hothers.bind (fun hfits => hfits.fewer (by omega)) fun values hvalues => .ok ?_
          rw [argumentTrees, harg, hvalues]

/-- What stands before the fields. -/
theorem primaryHead_accepts (hnested : Parses maxDepth room nested) {tokens : List TokenKind}
    {tree : Tree} (h : Derives 9 tokens tree) {t : Tokens} {more : List TokenKind}
    (hkinds : t.kinds = tokens ++ more)
    (hcall : more.head? = some .lParen → ¬ EndsInVariable tokens) :
    Accepts (fun e : Expr => e.tree = tree) (t.skip tokens.length)
      (Fits maxDepth (room + 1) tokens.length) (primaryHead nested t) := by
  unfold primaryHead
  match h with
  | .tighter hlevel _ => omega
  | .binary htoken _ _ =>
      have hlevel := (binary_eq_some_iff.1 htoken).2
      have hbounds := Binary.level_bounds ‹Binary›
      omega
  | .string text =>
      rw [Tokens.current_eq_head, hkinds, Tokens.skip_cons]
      exact .ok rfl
  | .integer value =>
      rw [Tokens.current_eq_head, hkinds, Tokens.skip_cons]
      exact .ok rfl
  | .boolean value =>
      rw [Tokens.current_eq_head, hkinds, Tokens.skip_cons]
      cases value <;> exact .ok rfl
  | @Derives.variable name hname =>
      have hnot : ¬ (name = "true" ∨ name = "false") := hname.ne_boolean
      have hallowed : reserved name = false ∨ name = "args" := hname
      have hbump : t.bump.kinds = more := Tokens.kinds_bump hkinds
      have hplain : t.bump.isAt .lParen = false := by
        refine isAt_eq_false fun hparen => ?_
        rw [hbump] at hparen
        exact hcall hparen ⟨[], name, rfl, hname, by simp⟩
      rw [Tokens.current_eq_head, hkinds, Tokens.skip_cons]
      simp only [List.cons_append, List.head?_cons, if_neg hnot]
      rw [if_pos hallowed, nameOrCall, hplain]
      exact .ok rfl
  | @Derives.call name tokens args hname h =>
      have hnot : ¬ (name = "true" ∨ name = "false") := hname.ne_boolean
      have hallowed : reserved name = false ∨ name = "args" := hname
      have hsplit : t.kinds = .ident name :: .lParen :: (tokens ++ .rParen :: more) := by
        rw [hkinds]
        simp
      have hparen := Tokens.kinds_bump hsplit
      have hinner := Tokens.kinds_bump hparen
      rw [Tokens.current_eq_head, hsplit, Tokens.skip_cons, Tokens.skip_cons, Tokens.skip_append,
        Tokens.skip_cons]
      simp only [List.head?_cons, if_neg hnot]
      rw [if_pos hallowed, nameOrCall, Tokens.isAt_of_kinds hparen, if_pos rfl]
      by_cases hargs : args = []
      · subst hargs
        obtain rfl : tokens = [] := by
          cases h
          rfl
        rw [Tokens.isAt_of_kinds hinner, if_pos rfl]
        exact .ok rfl
      · have hfirst : t.bump.bump.isAt .rParen = false := by
          obtain ⟨first, rest, rfl, hfirst⟩ := h.head hargs
          refine isAt_eq_false ?_
          rw [hinner]
          simpa using hfirst
        have hfuel : tokens.length ≤ t.bump.bump.ahead.length := by
          rw [← Tokens.length_kinds, hinner]
          simp
        have haccepts := arguments_accepts hnested tokens args h hargs hfuel hinner
        have hclose := Tokens.kinds_skip hinner
        rw [hfirst]
        refine haccepts.bind (fun hfits => hfits.inside (by simp; omega)) fun values hvalues => ?_
        dsimp only
        rw [Tokens.expect_of_kinds hclose, Except.ok_bind]
        refine .ok ?_
        rw [Expr.tree, hvalues]
  | @Derives.group tokens tree h =>
      have hsplit : t.kinds = .lParen :: (tokens ++ .rParen :: more) := by
        rw [hkinds]
        simp
      have hinner := Tokens.kinds_bump hsplit
      have hone := hnested (by omega) (h.loosen (Nat.zero_le 1) (by omega)) hinner
        (stops_rParen 0)
      have hclose := Tokens.kinds_skip hinner
      rw [Tokens.current_eq_head, hsplit, Tokens.skip_cons, Tokens.skip_append, Tokens.skip_cons]
      refine hone.bind (fun hfits => hfits.inside (by simp)) fun inner hinner' => ?_
      dsimp only
      rw [Tokens.expect_of_kinds hclose, Except.ok_bind]
      refine .ok ?_
      rw [Expr.tree_withSpan, hinner']

theorem primary_accepts (hnested : Parses maxDepth room nested) {tokens : List TokenKind}
    {tree : Tree} (h : Derives 7 tokens tree) {t : Tokens} {more : List TokenKind}
    (hkinds : t.kinds = tokens ++ more) (hdot : more.head? ≠ some .dot)
    (hcall : more.head? = some .lParen → ¬ EndsInVariable tokens) :
    Accepts (fun e : Expr => e.tree = tree) (t.skip tokens.length)
      (Fits maxDepth (room + 1) tokens.length) (primary maxDepth nested t) := by
  -- fields behind a head, and the check of the whole
  have hfinish : ∀ {head : Expr} {first : List TokenKind} (fields : List String),
      (∀ field ∈ fields, reserved field = false) → tokens = first ++ fieldTokens fields →
      tree = fields.foldl Tree.member head.tree →
      Accepts (fun e : Expr => e.tree = tree) (t.skip tokens.length)
        (Fits maxDepth (room + 1) tokens.length) (do
          let outer ← members maxDepth t.span (t.skip first.length).ahead.length head
            (t.skip first.length)
          checkExpressionDepth maxDepth 1 outer.1
          .ok outer) := by
    intro head first fields hfields htokens htree
    have hsplit : t.kinds = first ++ (fieldTokens fields ++ more) := by
      rw [hkinds, htokens, List.append_assoc]
    have hbehind := Tokens.kinds_skip hsplit
    have hfuel : fields.length ≤ (t.skip first.length).ahead.length := by
      rw [← Tokens.length_kinds, hbehind]
      simp [fieldTokens]
      omega
    have hheight : Fits maxDepth (room + 1) tokens.length → tree.height ≤ maxDepth :=
      fun hfits => h.height_le.trans hfits.2
    have hmembers := @members_accepts maxDepth t.span _ fields hfields _ hfuel _ _ _ hbehind hdot
      (htree ▸ hheight)
    rw [← Tokens.skip_append, ← htokens, ← htree] at hmembers
    refine hmembers.bind id fun value hvalue => ?_
    refine accepts_check (fun hfits => ?_) (.ok hvalue)
    rw [← Expr.height_tree, hvalue]
    exact hheight hfits
  unfold primary
  have hpostfix (h8 : Derives 8 tokens tree) : Accepts (fun e : Expr => e.tree = tree)
      (t.skip tokens.length) (Fits maxDepth (room + 1) tokens.length)
      (primary maxDepth nested t) := by
    obtain ⟨first, base, fields, hfirst, htokens, htree, hfields⟩ := h8.fields
    have hsplit : t.kinds = first ++ (fieldTokens fields ++ more) := by
      rw [hkinds, htokens, List.append_assoc]
    have hhead := primaryHead_accepts hnested hfirst hsplit (fun hparen hends => by
      cases fields with
      | nil =>
          rw [htokens] at hcall
          simp only [fieldTokens, List.flatMap_nil, List.nil_append, List.append_nil] at hparen hcall
          exact hcall hparen hends
      | cons field fields => simp [fieldTokens_cons] at hparen)
    refine hhead.bind (fun hfits => hfits.fewer (by rw [htokens]; simp)) fun head hbase => ?_
    exact hfinish fields hfields htokens (by rw [hbase]; exact htree)
  cases h with
  | tighter _ h8 => exact hpostfix h8
  | binary htoken _ _ =>
      have hlevel := (binary_eq_some_iff.1 htoken).2
      have hbounds := Binary.level_bounds ‹Binary›
      omega
  | @unary tokens operand _ operator htoken h7 =>
      obtain rfl := unary_eq_some_iff.1 htoken
      have hbump : t.bump.kinds = tokens ++ more := Tokens.kinds_bump hkinds
      have hone := hnested (le_refl 7) h7 hbump
        ⟨fun operator _ => by have := operator.level_bounds; omega, hdot,
          fun hparen hends => hcall hparen (hends.cons (by cases operator <;> simp [Unary.token]))⟩
      have hhead : Accepts (fun e : Expr => e.tree = .unary operator operand)
          (t.skip (operator.token :: tokens).length)
          (Fits maxDepth (room + 1) (operator.token :: tokens).length) (primaryHead nested t) := by
        unfold primaryHead
        rw [Tokens.current_eq_head, hkinds, Tokens.skip_cons]
        cases operator
        all_goals
          refine hone.bind (fun hfits => hfits.inside (by simp)) fun value hvalue => .ok ?_
          rw [Expr.tree, hvalue]
      refine hhead.bind id fun head hbase => ?_
      exact hfinish [] (by simp) (by simp [fieldTokens]) hbase.symm

/-! ## Operators -/

theorem height_le_foldSegments (segments : List OperatorSegment) (left : Tree) :
    left.height ≤ (foldSegments left segments).height := by
  induction segments generalizing left with
  | nil => exact le_refl _
  | cons segment segments ih =>
      have hle := ih (.binary segment.operator left segment.tree)
      simp only [Tree.height] at hle
      have hleft := le_max_left left.height segment.tree.height
      exact (hleft.trans (Nat.le_succ _)).trans hle

theorem operator_not_ident (operator : Binary) (name : String) :
    operator.token ≠ .ident name := by
  cases operator <;> simp [Binary.token]

theorem operator_ne_dot (operator : Binary) : operator.token ≠ .dot := by
  cases operator <;> simp [Binary.token]

theorem operator_ne_lParen (operator : Binary) : operator.token ≠ .lParen := by
  cases operator <;> simp [Binary.token]

theorem operator_token_injective {a b : Binary} (h : a.token = b.token) : a = b := by
  cases a <;> cases b <;> first | rfl | cases h

theorem operators_accepts (hnested : Parses maxDepth room nested) (segments : List OperatorSegment)
    (hfalling : segments.Pairwise fun a b => b.operator.level ≤ a.operator.level) {minimum : ℕ}
    (hminimum : ∀ segment ∈ segments, minimum ≤ segment.operator.level) {fuel : ℕ}
    (hfuel : (segments.flatMap OperatorSegment.tokens).length ≤ fuel) {fits : Prop}
    (hfits : fits → Fits maxDepth room (segments.flatMap OperatorSegment.tokens).length) {left : Expr}
    {t : Tokens} {more : List TokenKind}
    (hkinds : t.kinds = segments.flatMap OperatorSegment.tokens ++ more)
    (hstops : Stops minimum (segments.flatMap OperatorSegment.tokens) more)
    (hheight : fits → (foldSegments left.tree segments).height ≤ maxDepth) :
    Accepts (fun e : Expr => e.tree = foldSegments left.tree segments)
      (t.skip (segments.flatMap OperatorSegment.tokens).length) fits
      (operators maxDepth nested minimum fuel left t) := by
  induction segments generalizing fuel left t with
  | nil =>
      cases fuel with
      | zero => exact .ok rfl
      | succ fuel =>
          rw [operators, Tokens.current_eq_head, hkinds]
          cases hbinary : more.head?.bind TokenKind.binary with
          | none =>
              simp only [List.flatMap_nil, List.nil_append, hbinary]
              exact .ok rfl
          | some found =>
              obtain ⟨token, htoken, hfound⟩ := Option.bind_eq_some_iff.1 hbinary
              obtain ⟨rfl, hlevel⟩ := binary_eq_some_iff.1 (show token.binary =
                some (found.1, found.2) from hfound)
              have hlow := hstops.operator found.1 htoken
              simp only [List.flatMap_nil, List.nil_append, hbinary]
              rw [if_pos (by omega)]
              exact .ok rfl
  | cons segment segments ih =>
      obtain ⟨hfirst, hlater⟩ := List.pairwise_cons.1 hfalling
      have hlevel := hminimum segment List.mem_cons_self
      have hbounds := segment.operator.level_bounds
      have hsplit : t.kinds = segment.operator.token ::
          (segment.operand ++ (segments.flatMap OperatorSegment.tokens ++ more)) := by
        rw [hkinds]
        simp [OperatorSegment.tokens]
      have hbinary : segment.operator.token.binary =
          some (segment.operator, segment.operator.level) := binary_eq_some_iff.2 ⟨rfl, rfl⟩
      have hbump := Tokens.kinds_bump hsplit
      have hlength : ((segment :: segments).flatMap OperatorSegment.tokens).length =
          1 + segment.operand.length + (segments.flatMap OperatorSegment.tokens).length := by
        simp [OperatorSegment.tokens]
        omega
      -- the operand ends before an operator which does not bind tighter, or at the end
      have hends : Stops (segment.operator.level + 1) segment.operand
          (segments.flatMap OperatorSegment.tokens ++ more) := by
        cases segments with
        | nil =>
            refine ⟨fun operator hoperator => ?_, hstops.dot, fun hparen hvariable => ?_⟩
            · exact (hstops.operator operator hoperator).trans_le (by omega)
            · refine hstops.call hparen ?_
              simpa [OperatorSegment.tokens] using hvariable.cons (operator_ne_dot segment.operator)
        | cons second segments =>
            refine ⟨fun operator hoperator => ?_, ?_, ?_⟩
            · have hsame : second.operator = operator :=
                operator_token_injective (by simpa [OperatorSegment.tokens] using hoperator)
              have hle := hfirst second List.mem_cons_self
              rw [hsame] at hle
              omega
            · simpa [OperatorSegment.tokens] using operator_ne_dot second.operator
            · intro hparen
              exact absurd (by simpa [OperatorSegment.tokens] using hparen)
                (operator_ne_lParen second.operator)
      have hone := hnested (by omega) segment.derives hbump hends
      cases fuel with
      | zero => omega
      | succ fuel =>
          rw [operators, Tokens.current_eq_head, hsplit]
          simp only [List.head?_cons, Option.bind_some, hbinary, if_neg (not_lt.2 hlevel)]
          refine hone.bind (fun hfit => (hfits hfit).fewer (by omega)) fun right hright => ?_
          dsimp only
          have hnext : (Expr.binary left.span segment.operator left right).tree =
              .binary segment.operator left.tree segment.tree := by
            rw [Expr.tree, hright]
          have hfold : foldSegments left.tree (segment :: segments) = foldSegments
              (Expr.binary left.span segment.operator left right).tree segments := by
            rw [hnext]
            rfl
          have hrest := Tokens.kinds_skip hbump
          have hstops' : Stops minimum (segments.flatMap OperatorSegment.tokens) more := by
            refine ⟨hstops.operator, hstops.dot, fun hparen hvariable => hstops.call hparen ?_⟩
            cases segments with
            | nil =>
                obtain ⟨before, name, hnil, -⟩ := hvariable
                simp at hnil
            | cons second segments =>
                rw [List.flatMap_cons]
                exact hvariable.append (operator_not_ident second.operator)
          have hlast : Accepts (fun e : Expr => e.tree = foldSegments
                (Expr.binary left.span segment.operator left right).tree segments)
              ((t.bump.skip segment.operand.length).skip (segments.flatMap OperatorSegment.tokens).length)
              fits (operators maxDepth nested minimum fuel
                (.binary left.span segment.operator left right)
                (t.bump.skip segment.operand.length)) :=
            ih hlater (fun other hother => hminimum other (List.mem_cons_of_mem _ hother))
              (by omega) (fun hfit => (hfits hfit).fewer (by omega)) hrest hstops'
              (fun hfit => by rw [← hfold]; exact hheight hfit)
          rw [← hfold] at hlast
          have hskip : t.skip ((segment :: segments).flatMap OperatorSegment.tokens).length =
              (t.bump.skip segment.operand.length).skip
                (segments.flatMap OperatorSegment.tokens).length := by
            rw [List.flatMap_cons, Tokens.skip_append, OperatorSegment.tokens, Tokens.skip_cons]
          rw [hskip]
          refine accepts_check (fun hfit => ?_) hlast
          rw [← Expr.height_tree]
          refine (height_le_foldSegments segments _).trans ?_
          rw [← hfold]
          exact hheight hfit

/-- The parser accepts what the grammar derives. -/
theorem expression_accepts (maxDepth room : ℕ) : Parses maxDepth room (expression maxDepth room) := by
  induction room with
  | zero =>
      intro level tokens tree t more _ h _ _
      obtain ⟨first, rest, rfl, -⟩ := h.head
      exact .inr ⟨fun hfits => by have := hfits.1; simp at this, nestingError t, rfl, rfl⟩
  | succ room ih =>
      intro level tokens tree t more hlevel h hkinds hstops
      obtain ⟨first, left, segments, hfirst, htokens, htree, hfalling, hge⟩ := h.segments hlevel
      have hsplit : t.kinds = first ++ (segments.flatMap OperatorSegment.tokens ++ more) := by
        rw [hkinds, htokens, List.append_assoc]
      have hfuel : (segments.flatMap OperatorSegment.tokens).length ≤ (t.skip first.length).ahead.length := by
        rw [← Tokens.length_kinds, Tokens.kinds_skip hsplit]
        simp
      have hlength : tokens.length = first.length + (segments.flatMap OperatorSegment.tokens).length := by
        rw [htokens, List.length_append]
      obtain ⟨head, rest, hfirst', -⟩ := hfirst.head
      have hpos : 0 < first.length := by
        rw [hfirst']
        exact Nat.succ_pos _
      have hoperand : Accepts (fun e : Expr => e.tree = left) (t.skip first.length)
          (Fits maxDepth (room + 1) first.length) (primary maxDepth (expression maxDepth room) t) := by
        cases segments with
        | nil =>
            rw [List.flatMap_nil, List.append_nil] at htokens
            subst htokens
            exact primary_accepts ih hfirst hsplit hstops.dot hstops.call
        | cons segment segments =>
            refine primary_accepts ih hfirst hsplit ?_ ?_
            · simpa [OperatorSegment.tokens] using operator_ne_dot segment.operator
            · intro hparen
              exact absurd (by simpa [OperatorSegment.tokens] using hparen)
                (operator_ne_lParen segment.operator)
      have hstops' : Stops level (segments.flatMap OperatorSegment.tokens) more := by
        refine ⟨hstops.operator, hstops.dot, fun hparen hvariable => hstops.call hparen ?_⟩
        rw [htokens]
        cases segments with
        | nil =>
            obtain ⟨before, name, hnil, -⟩ := hvariable
            simp at hnil
        | cons segment segments => exact hvariable.append (operator_not_ident segment.operator)
      unfold expression
      refine hoperand.bind (fun hfits => hfits.fewer (by omega)) fun value hvalue => ?_
      have hlast := @operators_accepts maxDepth room _ ih segments hfalling level hge _ hfuel
        (Fits maxDepth (room + 1) tokens.length) (fun hfits => hfits.inside (by omega)) value _ _
        (Tokens.kinds_skip hsplit) hstops' (fun hfits => by
          rw [hvalue, ← htree]
          exact h.height_le.trans hfits.2)
      rw [hvalue, ← htree, ← Tokens.skip_append, ← htokens] at hlast
      exact hlast

end

end Parser

end SerialPlatform.Script
