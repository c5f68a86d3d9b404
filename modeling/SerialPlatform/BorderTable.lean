import Mathlib.Tactic

/-!
# Matching with a table of borders

A pattern is followed through a stream by the length of the longest proper prefix of it
which the stream ends with.  Where the next element does not go on with that prefix, the
table of the borders of the pattern gives the next shorter one.
-/

namespace BorderTable

variable {α : Type} {pattern stream : List α} {table : List ℕ} {bound matched other : ℕ} {x : α}

/-- The longest prefix shorter than `bound` with which the stream ends. -/
structure IsLongest (pattern stream : List α) (bound matched : ℕ) : Prop where
  lt : matched < bound
  ends : pattern.take matched <:+ stream
  longest : ∀ other < bound, pattern.take other <:+ stream → other ≤ matched

/-- The first entries of the table of the pattern. -/
def IsTable (pattern : List α) (table : List ℕ) : Prop :=
  ∀ length, 0 < length → length ≤ table.length →
    IsLongest pattern (pattern.take length) length (table.getD (length - 1) 0)

theorem take_suffix_take_of_le (hother : pattern.take other <:+ stream)
    (hmatched : pattern.take matched <:+ stream) (hle : other ≤ matched) :
    pattern.take other <:+ pattern.take matched := by
  refine List.suffix_of_suffix_length_le hother hmatched ?_
  simp only [List.length_take]
  omega

/-- One more element is matched, where it goes on with a shorter prefix. -/
theorem take_succ_suffix_iff (hlt : other < pattern.length) :
    pattern.take (other + 1) <:+ stream ++ [x] ↔
      pattern.take other <:+ stream ∧ pattern[other]? = some x := by
  rw [List.take_add_one, List.getElem?_eq_getElem hlt, Option.toList_some, Option.some.injEq]
  constructor
  · rintro ⟨before, happend⟩
    rw [← List.append_assoc] at happend
    obtain ⟨hstream, hlast⟩ := List.append_inj' happend rfl
    exact ⟨⟨before, hstream⟩, (List.cons.inj hlast).1⟩
  · rintro ⟨⟨before, hstream⟩, hlast⟩
    exact ⟨before, by rw [← List.append_assoc, hstream, hlast]⟩

/-- A shorter prefix of what the stream ends with is a border of it. -/
theorem IsLongest.shorter (hmatched : pattern.take matched <:+ stream)
    (hborder : IsLongest pattern (pattern.take matched) matched other) :
    IsLongest pattern stream matched other where
  lt := hborder.lt
  ends := hborder.ends.trans hmatched
  longest := fun third hthird hends =>
    hborder.longest third hthird (take_suffix_take_of_le hends hmatched hthird.le)

theorem isLongest_nil (hpattern : pattern ≠ []) : IsLongest pattern [] pattern.length 0 where
  lt := List.length_pos_iff.2 hpattern
  ends := by simp
  longest := by
    intro other hother hends
    have hnil := List.suffix_nil.1 hends
    rw [List.take_eq_nil_iff] at hnil
    grind

/-- The stream ends with the whole pattern, when the matched prefix has its length. -/
theorem IsLongest.eq_length_iff (h : IsLongest pattern stream (pattern.length + 1) matched) :
    matched = pattern.length ↔ pattern <:+ stream := by
  constructor
  · intro heq
    have hends := h.ends
    rw [heq, List.take_length] at hends
    exact hends
  · intro hends
    have hle := h.longest pattern.length (by omega) (by rwa [List.take_length])
    have hlt := h.lt
    omega

/-- The prefix with which the matching goes on behind an element: the border of a whole
match, or what is matched. -/
theorem IsLongest.settle (htable : IsTable pattern table) (hlength : table.length = pattern.length)
    (hpattern : pattern ≠ []) (h : IsLongest pattern stream (pattern.length + 1) matched) :
    IsLongest pattern stream pattern.length
      (if matched = pattern.length then table.getD (matched - 1) 0 else matched) := by
  have hlt := h.lt
  split_ifs with hwhole
  · have hborder := htable pattern.length (List.length_pos_iff.2 hpattern) hlength.ge
    rw [hwhole]
    refine hborder.shorter ?_
    rw [List.take_length]
    exact h.eq_length_iff.1 hwhole
  · exact ⟨by omega, h.ends, fun other hother hends => h.longest other (by omega) hends⟩

/-! ## The table -/

section

variable [DecidableEq α]

/-- The loop which shortens a matched prefix until `x` goes on with it; an entry of the
table is shorter than its index, so `fuel` bounds the turns. -/
def shorten (pattern : List α) (table : List ℕ) (x : α) : ℕ → ℕ → ℕ
  | 0, matched => matched
  | fuel + 1, matched =>
      if 0 < matched ∧ pattern[matched]? ≠ some x then
        shorten pattern table x fuel (table.getD (matched - 1) 0)
      else matched

/-- The matched prefix behind one more element. -/
def advance (pattern : List α) (table : List ℕ) (matched : ℕ) (x : α) : ℕ :=
  let shortened := shorten pattern table x matched matched
  if pattern[shortened]? = some x then shortened + 1 else shortened

/-- The table with the entries of further elements of the pattern. -/
def extend (pattern : List α) : List ℕ → List α → List ℕ
  | table, [] => table
  | table, x :: rest =>
      extend pattern (table ++ [advance pattern table (table.getD (table.length - 1) 0) x]) rest

/-- The table of a pattern. -/
def build (pattern : List α) : List ℕ := extend pattern (pattern.take 1 |>.map fun _ => 0) pattern.tail

theorem shorten_spec (htable : IsTable pattern table) {fuel : ℕ} (hfuel : matched ≤ fuel)
    (hknown : matched ≤ table.length) (hmatched : pattern.take matched <:+ stream) :
    shorten pattern table x fuel matched ≤ matched ∧
    pattern.take (shorten pattern table x fuel matched) <:+ stream ∧
    (shorten pattern table x fuel matched = 0 ∨
      pattern[shorten pattern table x fuel matched]? = some x) ∧
    ∀ other ≤ matched, pattern.take other <:+ stream → pattern[other]? = some x →
      other ≤ shorten pattern table x fuel matched := by
  induction fuel generalizing matched with
  | zero =>
      have hzero : matched = 0 := by omega
      exact ⟨le_refl _, hmatched, .inl hzero, fun other hle _ _ => hle⟩
  | succ fuel ih =>
      unfold shorten
      split_ifs with hfails
      · have hborder := (htable matched hfails.1 hknown).shorter hmatched
        have hlt := hborder.lt
        obtain ⟨hle, hends, hexit, hlongest⟩ := ih (by omega) (by omega) hborder.ends
        refine ⟨by omega, hends, hexit, fun other hother hbegins hgoes => ?_⟩
        have hne : other ≠ matched := fun heq => hfails.2 (heq ▸ hgoes)
        exact hlongest other (hborder.longest other (by omega) hbegins) hbegins hgoes
      · refine ⟨le_refl _, hmatched, ?_, fun other hle _ _ => hle⟩
        by_cases hzero : matched = 0
        · exact .inl hzero
        · exact .inr (by_contra fun hne => hfails ⟨by omega, hne⟩)

theorem IsLongest.advance (htable : IsTable pattern table) (hbound : bound ≤ pattern.length)
    (hknown : matched ≤ table.length) (h : IsLongest pattern stream bound matched) :
    IsLongest pattern (stream ++ [x]) (bound + 1) (advance pattern table matched x) := by
  obtain ⟨hle, hends, hexit, hlongest⟩ :=
    shorten_spec (x := x) htable (le_refl matched) hknown h.ends
  have hlt := h.lt
  -- every longer prefix which the new stream ends with goes on with an old one
  have hgoes : ∀ other < bound, pattern.take (other + 1) <:+ stream ++ [x] →
      other ≤ shorten pattern table x matched matched ∧ pattern[other]? = some x := by
    intro other hother hbegins
    have hold := (take_succ_suffix_iff (by omega)).1 hbegins
    exact ⟨hlongest other (h.longest other hother hold.1) hold.1 hold.2, hold.2⟩
  unfold BorderTable.advance
  dsimp only
  split_ifs with hnext
  · refine ⟨by omega, (take_succ_suffix_iff (by omega)).2 ⟨hends, hnext⟩, ?_⟩
    intro other hother hbegins
    cases other with
    | zero => omega
    | succ other =>
        have hold := hgoes other (by omega) hbegins
        omega
  · have hzero : shorten pattern table x matched matched = 0 := hexit.resolve_right hnext
    rw [hzero] at hnext ⊢
    refine ⟨by omega, by simp, ?_⟩
    intro other hother hbegins
    cases other with
    | zero => exact le_refl _
    | succ other =>
        have hold := hgoes other (by omega) hbegins
        rw [hzero] at hold
        exact absurd (Nat.le_zero.1 hold.1 ▸ hold.2) hnext

theorem IsTable.extend (rest : List α) (htable : IsTable pattern table)
    (hsome : 0 < table.length) (hrest : pattern.drop table.length = rest) :
    IsTable pattern (extend pattern table rest) ∧
      (BorderTable.extend pattern table rest).length = table.length + rest.length := by
  induction rest generalizing table with
  | nil => exact ⟨htable, rfl⟩
  | cons x rest ih =>
      have hlt : table.length < pattern.length := by
        rw [← List.drop_eq_nil_iff.not.trans not_le, hrest]
        exact List.cons_ne_nil _ _
      have hx : pattern[table.length]? = some x := by
        rw [← List.head?_drop, hrest, List.head?_cons]
      have htake : pattern.take (table.length + 1) = pattern.take table.length ++ [x] := by
        rw [List.take_add_one, hx]
        rfl
      have hlast := htable table.length hsome (le_refl _)
      have hentry := hlast.advance (x := x) htable hlt.le hlast.lt.le
      have hlonger : IsTable pattern
          (table ++ [advance pattern table (table.getD (table.length - 1) 0) x]) := by
        intro length hpos hlength
        rw [List.length_append, List.length_singleton] at hlength
        by_cases hold : length ≤ table.length
        · rw [List.getD_eq_getElem?_getD, List.getElem?_append_left (by omega),
            ← List.getD_eq_getElem?_getD]
          exact htable length hpos hold
        · have heq : length = table.length + 1 := by omega
          rw [heq, htake, Nat.add_sub_cancel, List.getD_eq_getElem?_getD,
            List.getElem?_append_right (le_refl _), Nat.sub_self]
          exact hentry
      have hdrop : pattern.drop (table ++ [advance pattern table
          (table.getD (table.length - 1) 0) x]).length = rest := by
        rw [List.length_append, List.length_singleton, ← List.tail_drop, hrest, List.tail_cons]
      obtain ⟨hwhole, hlength⟩ := ih hlonger (by simp) hdrop
      refine ⟨hwhole, ?_⟩
      unfold BorderTable.extend
      rw [hlength, List.length_append, List.length_singleton, List.length_cons]
      omega

theorem isTable_build (hpattern : pattern ≠ []) :
    IsTable pattern (build pattern) ∧ (build pattern).length = pattern.length := by
  obtain ⟨first, rest, rfl⟩ := List.exists_cons_of_ne_nil hpattern
  have hfirst : IsTable (first :: rest) [0] := by
    intro length hpos hlength
    have hone : length = 1 := by simp at hlength; omega
    subst hone
    exact ⟨by simp, by simp, fun other hother _ => by omega⟩
  obtain ⟨htable, hlength⟩ := hfirst.extend rest (by simp) rfl
  refine ⟨htable, ?_⟩
  change (extend (first :: rest) [0] rest).length = _
  rw [hlength, List.length_singleton, List.length_cons, Nat.add_comm]

end

end BorderTable
