import Mathlib
import SerialPlatform.MonitorState

/-!
# Literals of a regular expression

A monitor asks of an expression what every match begins with and what every match
contains, and keeps its engine idle until that is in the window.  The answer is
computed from the parsed expression, case by case.
-/

namespace SerialPlatform.Monitor

/-- What the parser's library knows of a character class: the bytes of its only element, if
it has only one, and the bytes of each element. -/
structure Classes (κ : Type) where
  literal : κ → Option Bytes
  language : κ → Language UInt8

/-- A parsed expression. -/
inductive Hir (κ : Type) where
  | empty
  | literal (bytes : Bytes)
  | byteClass (elements : κ)
  | look
  | repetition (min : ℕ) (max : Option ℕ) (sub : Hir κ)
  | capture (sub : Hir κ)
  | concat (parts : List (Hir κ))
  | alternation (branches : List (Hir κ))

structure RegexLiteralAnalysis where
  literalPrefix : Bytes
  required : Option Bytes
  exact : Bool
  deriving DecidableEq

def RegexLiteralAnalysis.default : RegexLiteralAnalysis where
  literalPrefix := []
  required := none
  exact := false

/-! ## The analysis -/

/-- The loop of `repeat_literal` over the copies which are left. -/
def repeatFrom (literal : Bytes) : ℕ → Bytes → Bytes × Bool
  | 0, repeated => (repeated, true)
  | count + 1, repeated =>
      if maxMonitorPatternBytes < repeated.length + literal.length then (repeated, false)
      else repeatFrom literal count (repeated ++ literal)

def repeatLiteral (literal : Bytes) (count : ℕ) : Bytes × Bool := repeatFrom literal count []

def longerLiteral (left right : Option Bytes) : Option Bytes :=
  match left, right with
  | some left, some right => if right.length ≤ left.length then some left else some right
  | none, some right => some right
  | left, none => left

def commonPrefixLen (left right : Bytes) : ℕ :=
  ((left.zip right).takeWhile fun pair => pair.1 = pair.2).length

def repetitionLiterals (min : ℕ) (max : Option ℕ) (child : RegexLiteralAnalysis) :
    RegexLiteralAnalysis :=
  if min = 0 then { RegexLiteralAnalysis.default with exact := max = some 0 }
  else
    let (literalPrefix, repeatedExactly) :=
      if child.exact then repeatLiteral child.literalPrefix min else (child.literalPrefix, false)
    { literalPrefix := literalPrefix
      required := child.required
      exact := repeatedExactly && max = some min }

/-- One part of a concatenation behind the parts before; `exact` is `prefix_complete`. -/
def concatPart (before part : RegexLiteralAnalysis) : RegexLiteralAnalysis where
  literalPrefix :=
    if before.exact then before.literalPrefix ++ part.literalPrefix else before.literalPrefix
  required := longerLiteral before.required part.required
  exact := if before.exact then part.exact else before.exact

def concatLiterals (parts : List RegexLiteralAnalysis) : RegexLiteralAnalysis :=
  parts.foldl concatPart { literalPrefix := [], required := none, exact := true }

/-- The loop of an alternation over the branches which are left. -/
def alternationFrom : List RegexLiteralAnalysis → RegexLiteralAnalysis → Option Bytes →
    RegexLiteralAnalysis
  | [], analysis, _ => analysis
  | branch :: branches, analysis, exactValue =>
      let exact := analysis.exact && (branch.exact && exactValue.any (· = branch.literalPrefix))
      alternationFrom branches
        { literalPrefix :=
            analysis.literalPrefix.take (commonPrefixLen analysis.literalPrefix branch.literalPrefix)
          required := if analysis.required = branch.required then analysis.required else none
          exact := exact }
        (if exact then exactValue else none)

def alternationLiterals : List RegexLiteralAnalysis → RegexLiteralAnalysis
  | [] => .default
  | first :: branches =>
      alternationFrom branches first (if first.exact then some first.literalPrefix else none)

/-- A prefix which is longer than what is required is required itself. -/
def requirePrefix (analysis : RegexLiteralAnalysis) : RegexLiteralAnalysis :=
  if analysis.literalPrefix ≠ [] ∧
      analysis.required.all fun required => required.length < analysis.literalPrefix.length then
    { analysis with required := some analysis.literalPrefix }
  else analysis

mutual

def analyzeRegexLiterals {κ : Type} (classes : Classes κ) : Hir κ → RegexLiteralAnalysis
  | .empty => requirePrefix { RegexLiteralAnalysis.default with exact := true }
  | .look => requirePrefix { RegexLiteralAnalysis.default with exact := true }
  | .literal bytes =>
      requirePrefix
        { literalPrefix := bytes
          required := if bytes = [] then none else some bytes
          exact := true }
  | .byteClass elements =>
      requirePrefix
        (match classes.literal elements with
        | none => .default
        | some literal => { literalPrefix := literal, required := some literal, exact := true })
  | .capture sub => requirePrefix (analyzeRegexLiterals classes sub)
  | .repetition min max sub =>
      requirePrefix (repetitionLiterals min max (analyzeRegexLiterals classes sub))
  | .concat parts => requirePrefix (concatLiterals (analyzeAll classes parts))
  | .alternation branches => requirePrefix (alternationLiterals (analyzeAll classes branches))

def analyzeAll {κ : Type} (classes : Classes κ) : List (Hir κ) → List RegexLiteralAnalysis
  | [] => []
  | part :: parts => analyzeRegexLiterals classes part :: analyzeAll classes parts

end

/-! ## What an expression matches -/

mutual

/-- The bytes of the matches; an assertion consumes nothing. -/
def Hir.language {κ : Type} (classes : Classes κ) : Hir κ → Language UInt8
  | .empty => 1
  | .look => 1
  | .literal bytes => {bytes}
  | .byteClass elements => classes.language elements
  | .capture sub => sub.language classes
  | .repetition min max sub =>
      ⨆ count : {count : ℕ // min ≤ count ∧ ∀ most ∈ max, count ≤ most},
        sub.language classes ^ count.val
  | .concat parts => (languages classes parts).prod
  | .alternation branches => (languages classes branches).sum

def languages {κ : Type} (classes : Classes κ) : List (Hir κ) → List (Language UInt8)
  | [] => []
  | part :: parts => part.language classes :: languages classes parts

end

/-! ## Soundness -/

/-- What an analysis says of the words of a language. -/
structure Describes (analysis : RegexLiteralAnalysis) (words : Language UInt8) : Prop where
  begins : ∀ word ∈ words, analysis.literalPrefix <+: word
  contains : ∀ required, analysis.required = some required → ∀ word ∈ words, required <:+: word
  exact : analysis.exact = true → ∀ word ∈ words, word = analysis.literalPrefix

section

variable {analysis before part child : RegexLiteralAnalysis} {words others : Language UInt8}
  {literal : Bytes} {required : Option Bytes} {min : ℕ} {max : Option ℕ}

theorem describes_default (words : Language UInt8) : Describes .default words where
  begins := fun word _ => List.nil_prefix
  contains := fun _ h => by cases h
  exact := fun h => by cases h

theorem describes_literal (hwords : ∀ word ∈ words, word = literal)
    (hrequired : ∀ other, required = some other → other = literal) :
    Describes { literalPrefix := literal, required := required, exact := true } words where
  begins := fun word hword => (hwords word hword).symm ▸ List.prefix_rfl
  contains := by
    intro other hother word hword
    rw [hrequired other hother, hwords word hword]
  exact := fun _ => hwords

theorem Describes.requirePrefix (h : Describes analysis words) :
    Describes (requirePrefix analysis) words := by
  unfold Monitor.requirePrefix
  split
  · refine ⟨h.begins, ?_, h.exact⟩
    intro required hrequired word hword
    rw [← Option.some.inj hrequired]
    exact (h.begins word hword).isInfix
  · exact h

/-! ### Repetitions -/

theorem repeatFrom_spec (literal : Bytes) (count : ℕ) (repeated : Bytes) :
    (repeatFrom literal count repeated).1 <+: repeated ++ (List.replicate count literal).flatten ∧
      ((repeatFrom literal count repeated).2 = true →
        (repeatFrom literal count repeated).1 =
          repeated ++ (List.replicate count literal).flatten) := by
  induction count generalizing repeated with
  | zero =>
      rw [List.replicate_zero, List.flatten_nil, List.append_nil]
      exact ⟨List.prefix_rfl, fun _ => rfl⟩
  | succ count ih =>
      unfold repeatFrom
      split
      · exact ⟨List.prefix_append _ _, fun h => by cases h⟩
      · rw [List.replicate_succ, List.flatten_cons, ← List.append_assoc]
        exact ih (repeated ++ literal)

theorem repeatLiteral_isPrefix (literal : Bytes) (count : ℕ) :
    (repeatLiteral literal count).1 <+: (List.replicate count literal).flatten :=
  (repeatFrom_spec literal count []).1

theorem repeatLiteral_eq {count : ℕ} (h : (repeatLiteral literal count).2 = true) :
    (repeatLiteral literal count).1 = (List.replicate count literal).flatten :=
  (repeatFrom_spec literal count []).2 h

theorem Describes.flatten_eq (h : Describes child words) (hexact : child.exact = true)
    {parts : List Bytes} (hparts : ∀ part ∈ parts, part ∈ words) :
    parts.flatten = (List.replicate parts.length child.literalPrefix).flatten := by
  have hall : parts = List.replicate parts.length child.literalPrefix :=
    List.eq_replicate_of_mem fun part hpart => h.exact hexact part (hparts part hpart)
  rw [← hall]

theorem replicate_flatten_isPrefix {least count : ℕ} (hle : least ≤ count) (literal : Bytes) :
    (List.replicate least literal).flatten <+: (List.replicate count literal).flatten := by
  obtain ⟨more, rfl⟩ := Nat.exists_eq_add_of_le hle
  rw [List.replicate_add, List.flatten_append]
  exact List.prefix_append _ _

theorem Describes.repetition (h : Describes child words) :
    Describes (repetitionLiterals min max child)
      (⨆ count : {count : ℕ // min ≤ count ∧ ∀ most ∈ max, count ≤ most}, words ^ count.val) := by
  have hsplit : ∀ word ∈ (⨆ count : {count : ℕ // min ≤ count ∧ ∀ most ∈ max, count ≤ most},
      words ^ count.val : Language UInt8),
      ∃ parts : List Bytes, word = parts.flatten ∧ (∀ part ∈ parts, part ∈ words) ∧
        min ≤ parts.length ∧ ∀ most ∈ max, parts.length ≤ most := by
    intro word hword
    obtain ⟨⟨count, hmin, hmax⟩, hpower⟩ := Language.mem_iSup.mp hword
    obtain ⟨parts, hflatten, hlength, hparts⟩ := Language.mem_pow.mp hpower
    exact ⟨parts, hflatten, hparts, hlength ▸ hmin, hlength ▸ hmax⟩
  unfold repetitionLiterals
  by_cases hzero : min = 0
  · rw [if_pos hzero]
    refine ⟨fun word _ => List.nil_prefix, fun _ h => (by cases h), ?_⟩
    intro hexact word hword
    obtain ⟨parts, rfl, -, -, hmax⟩ := hsplit word hword
    have hnone := hmax 0 (of_decide_eq_true hexact)
    rw [List.length_eq_zero_iff.mp (Nat.le_zero.mp hnone)]
    rfl
  · rw [if_neg hzero]
    have hfirst : ∀ parts : List Bytes, min ≤ parts.length →
        ∃ first rest, parts = first :: rest := by
      intro parts hmin
      cases parts with
      | nil => exact absurd (Nat.le_zero.mp hmin) hzero
      | cons first rest => exact ⟨first, rest, rfl⟩
    refine ⟨?_, ?_, ?_⟩
    · intro word hword
      obtain ⟨parts, rfl, hparts, hmin, -⟩ := hsplit word hword
      cases hexact : child.exact with
      | true =>
          rw [h.flatten_eq hexact hparts]
          exact (repeatLiteral_isPrefix _ _).trans (replicate_flatten_isPrefix hmin _)
      | false =>
          obtain ⟨first, rest, rfl⟩ := hfirst parts hmin
          exact (h.begins first (hparts first List.mem_cons_self)).trans (List.prefix_append _ _)
    · intro required hrequired word hword
      obtain ⟨parts, rfl, hparts, hmin, -⟩ := hsplit word hword
      obtain ⟨first, rest, rfl⟩ := hfirst parts hmin
      exact (h.contains required hrequired first (hparts first List.mem_cons_self)).trans
        (List.prefix_append first rest.flatten).isInfix
    · intro hrepeated word hword
      obtain ⟨parts, rfl, hparts, hmin, hmax⟩ := hsplit word hword
      obtain ⟨hrepeated, hmost⟩ := Bool.and_eq_true_iff.mp hrepeated
      have hcount : parts.length = min :=
        le_antisymm (hmax min (of_decide_eq_true hmost)) hmin
      cases hexact : child.exact with
      | true =>
          rw [hexact] at hrepeated
          rw [h.flatten_eq hexact hparts, hcount]
          exact (repeatLiteral_eq hrepeated).symm
      | false =>
          rw [hexact] at hrepeated
          cases hrepeated

/-! ### Concatenations -/

theorem longerLiteral_eq {left right : Option Bytes} (h : longerLiteral left right = some literal) :
    left = some literal ∨ right = some literal := by
  unfold longerLiteral at h
  split at h
  · split at h
    · exact Or.inl h
    · exact Or.inr h
  · exact Or.inr h
  · exact Or.inl h

theorem Describes.concatPart (h : Describes before words) (hpart : Describes part others) :
    Describes (concatPart before part) (words * others) := by
  unfold Monitor.concatPart
  refine ⟨?_, ?_, ?_⟩
  · intro word hword
    obtain ⟨first, hfirst, second, hsecond, rfl⟩ := Language.mem_mul.mp hword
    dsimp only
    split
    case isTrue hexact =>
      rw [h.exact hexact first hfirst]
      exact (List.prefix_append_right_inj _).mpr (hpart.begins second hsecond)
    case isFalse => exact (h.begins first hfirst).trans (List.prefix_append first second)
  · intro required hrequired word hword
    obtain ⟨first, hfirst, second, hsecond, rfl⟩ := Language.mem_mul.mp hword
    rcases longerLiteral_eq hrequired with hleft | hright
    · exact (h.contains required hleft first hfirst).trans (List.prefix_append first second).isInfix
    · exact (hpart.contains required hright second hsecond).trans
        (List.suffix_append first second).isInfix
  · intro hexact word hword
    obtain ⟨first, hfirst, second, hsecond, rfl⟩ := Language.mem_mul.mp hword
    dsimp only at hexact ⊢
    cases hbefore : before.exact with
    | true =>
        rw [hbefore, if_pos rfl] at hexact
        rw [if_pos rfl, h.exact hbefore first hfirst, hpart.exact hexact second hsecond]
    | false =>
        rw [hbefore] at hexact
        cases hexact

theorem Describes.concatFold {parts : List RegexLiteralAnalysis} {languages : List (Language UInt8)}
    (hparts : List.Forall₂ Describes parts languages) (h : Describes before words) :
    Describes (parts.foldl Monitor.concatPart before) (words * languages.prod) := by
  induction hparts generalizing before words with
  | nil =>
      rw [List.prod_nil, mul_one]
      exact h
  | cons hpart _ ih =>
      rw [List.foldl_cons, List.prod_cons, ← mul_assoc]
      exact ih (h.concatPart hpart)

theorem describes_concat {parts : List RegexLiteralAnalysis} {languages : List (Language UInt8)}
    (hparts : List.Forall₂ Describes parts languages) :
    Describes (concatLiterals parts) languages.prod := by
  have hempty : Describes { literalPrefix := [], required := none, exact := true }
      (1 : Language UInt8) :=
    describes_literal (fun word hword => (Language.mem_one word).mp hword) fun _ h => by cases h
  have hall := hempty.concatFold hparts
  rw [one_mul] at hall
  exact hall

/-! ### Alternations -/

theorem take_commonPrefixLen (left right : Bytes) :
    left.take (commonPrefixLen left right) <+: right := by
  induction left generalizing right with
  | nil =>
      rw [List.take_nil]
      exact List.nil_prefix
  | cons x left ih =>
      cases right with
      | nil => exact List.prefix_rfl
      | cons y right =>
          unfold commonPrefixLen
          rw [List.zip_cons_cons]
          by_cases hxy : x = y
          · rw [List.takeWhile_cons_of_pos (by simpa using hxy), List.length_cons,
              List.take_succ_cons, hxy]
            exact (List.cons_prefix_cons).mpr ⟨rfl, ih right⟩
          · rw [List.takeWhile_cons_of_neg (by simpa using hxy)]
            exact List.nil_prefix

theorem take_commonPrefixLen_self (bytes : Bytes) :
    bytes.take (commonPrefixLen bytes bytes) = bytes := by
  induction bytes with
  | nil => exact List.take_nil
  | cons x bytes ih =>
      unfold commonPrefixLen
      rw [List.zip_cons_cons, List.takeWhile_cons_of_pos (by simp), List.length_cons,
        List.take_succ_cons]
      exact congrArg (x :: ·) ih

theorem Describes.alternation {branches : List RegexLiteralAnalysis}
    {languages : List (Language UInt8)} (hbranches : List.Forall₂ Describes branches languages)
    {exactValue : Option Bytes} (h : Describes analysis words)
    (hvalue : analysis.exact = true → exactValue = some analysis.literalPrefix) :
    Describes (alternationFrom branches analysis exactValue) (words + languages.sum) := by
  induction hbranches generalizing analysis words exactValue with
  | nil =>
      rw [List.sum_nil, add_zero]
      exact h
  | @cons branch language branches languages hbranch _ ih =>
      rw [List.sum_cons, ← add_assoc]
      unfold alternationFrom
      dsimp only
      -- An exact branch has the value of every branch before it.
      have hsame : (analysis.exact &&
          (branch.exact && exactValue.any (· = branch.literalPrefix))) = true →
          analysis.exact = true ∧ branch.exact = true ∧
            branch.literalPrefix = analysis.literalPrefix := by
        intro hexact
        obtain ⟨hanalysis, hbranch⟩ := Bool.and_eq_true_iff.mp hexact
        obtain ⟨hbranch, hany⟩ := Bool.and_eq_true_iff.mp hbranch
        rw [hvalue hanalysis] at hany
        exact ⟨hanalysis, hbranch, (of_decide_eq_true hany).symm⟩
      refine ih ⟨?_, ?_, ?_⟩ ?_
      · intro word hword
        rcases (Language.mem_add words language word).mp hword with hword | hword
        · exact (List.take_prefix _ _).trans (h.begins word hword)
        · exact (take_commonPrefixLen _ _).trans (hbranch.begins word hword)
      · intro required hrequired word hword
        dsimp only at hrequired
        split at hrequired
        case isTrue heq =>
          rcases (Language.mem_add words language word).mp hword with hword | hword
          · exact h.contains required hrequired word hword
          · exact hbranch.contains required (heq ▸ hrequired) word hword
        case isFalse => cases hrequired
      · intro hexact word hword
        obtain ⟨hanalysis, hexactBranch, hstart⟩ := hsame hexact
        dsimp only
        rw [hstart, take_commonPrefixLen_self]
        rcases (Language.mem_add words language word).mp hword with hword | hword
        · exact h.exact hanalysis word hword
        · rw [hbranch.exact hexactBranch word hword, hstart]
      · intro hexact
        obtain ⟨hanalysis, -, hstart⟩ := hsame hexact
        dsimp only
        rw [if_pos hexact, hstart, take_commonPrefixLen_self]
        exact hvalue hanalysis

theorem describes_alternation {branches : List RegexLiteralAnalysis}
    {languages : List (Language UInt8)}
    (hbranches : List.Forall₂ Describes branches languages) :
    Describes (alternationLiterals branches) languages.sum := by
  cases hbranches with
  | nil => exact describes_default _
  | cons hfirst hrest =>
      rw [List.sum_cons]
      exact hfirst.alternation hrest fun hexact => if_pos hexact

end

/-! ### Expressions -/

section

variable {κ : Type} {classes : Classes κ}

mutual

theorem describes_analyzeRegexLiterals
    (hliteral : ∀ elements literal, classes.literal elements = some literal →
      classes.language elements = {literal}) :
    ∀ hir : Hir κ, Describes (analyzeRegexLiterals classes hir) (hir.language classes)
  | .empty => by
      unfold analyzeRegexLiterals Hir.language
      exact (describes_literal (fun word hword => (Language.mem_one word).mp hword)
        fun _ h => by cases h).requirePrefix
  | .look => by
      unfold analyzeRegexLiterals Hir.language
      exact (describes_literal (fun word hword => (Language.mem_one word).mp hword)
        fun _ h => by cases h).requirePrefix
  | .literal bytes => by
      unfold analyzeRegexLiterals Hir.language
      refine (describes_literal (fun word hword => hword) fun other hother => ?_).requirePrefix
      split at hother
      · cases hother
      · exact (Option.some.inj hother).symm
  | .byteClass elements => by
      unfold analyzeRegexLiterals Hir.language
      cases hfound : classes.literal elements with
      | none => exact (describes_default _).requirePrefix
      | some literal =>
          rw [hliteral elements literal hfound]
          exact (describes_literal (fun word hword => hword)
            fun other hother => (Option.some.inj hother).symm).requirePrefix
  | .capture sub => by
      unfold analyzeRegexLiterals Hir.language
      exact (describes_analyzeRegexLiterals hliteral sub).requirePrefix
  | .repetition min max sub => by
      unfold analyzeRegexLiterals Hir.language
      exact (describes_analyzeRegexLiterals hliteral sub).repetition.requirePrefix
  | .concat parts => by
      unfold analyzeRegexLiterals Hir.language
      exact (describes_concat (describes_analyzeAll hliteral parts)).requirePrefix
  | .alternation branches => by
      unfold analyzeRegexLiterals Hir.language
      exact (describes_alternation (describes_analyzeAll hliteral branches)).requirePrefix

theorem describes_analyzeAll
    (hliteral : ∀ elements literal, classes.literal elements = some literal →
      classes.language elements = {literal}) :
    ∀ parts : List (Hir κ),
      List.Forall₂ Describes (analyzeAll classes parts) (languages classes parts)
  | [] => List.Forall₂.nil
  | part :: parts =>
      List.Forall₂.cons (describes_analyzeRegexLiterals hliteral part)
        (describes_analyzeAll hliteral parts)

end

end

end SerialPlatform.Monitor
