import SerialPlatform.CommandEcho
import SerialPlatform.EditDistance

/-!
# The banded distance

Only the cells near the diagonal are computed, in two rows which are used in turn.  A cell
in the band agrees with the distance of the prefixes as far as the bound is concerned; the
cells next to the band are out of reach by their position alone.
-/

namespace SerialPlatform.Capture

open EditDistance

/-- Two distances which no bound up to `maxEdits` tells apart. -/
def SameWithin (maxEdits a b : ℕ) : Prop := min a (maxEdits + 1) = min b (maxEdits + 1)

/-- The row behind `i` bytes of `left`, in the band and next to it. -/
structure RowAgrees (left right : Bytes) (maxEdits i : ℕ) (row : List ℕ) : Prop where
  length : row.length = right.length + 1
  cells : ∀ j ≤ right.length, i ≤ j + maxEdits + 1 → j ≤ i + maxEdits + 1 →
    SameWithin maxEdits (row.getD j 0) (cell left right i j)

/-- A row which is filled up to a cell. -/
structure RowFilled (left right : Bytes) (maxEdits i stop : ℕ) (row : List ℕ) : Prop where
  length : row.length = right.length + 1
  cells : ∀ j < stop, j ≤ right.length → i ≤ j + maxEdits + 1 →
    SameWithin maxEdits (row.getD j 0) (cell left right i j)

section

variable {left right : Bytes} {maxEdits i j : ℕ} {row previous reused : List ℕ}

theorem getD_set {index value : ℕ} (hindex : index < row.length) :
    (row.set index value).getD j 0 = if j = index then value else row.getD j 0 := by
  simp only [List.getD_eq_getElem?_getD, List.getElem?_set]
  split_ifs with hsame hother
  · rfl
  · omega
  · omega
  · rfl

/-- A cell at least as far from the diagonal as the bound is out of reach. -/
theorem sameWithin_far {value : ℕ} (hvalue : maxEdits < value) (hi : i ≤ left.length)
    (hj : j ≤ right.length) (hfar : j + maxEdits < i ∨ i + maxEdits < j) :
    SameWithin maxEdits value (cell left right i j) := by
  have hdistance := @cell_far _ left right _ i j hi hj
  unfold SameWithin
  omega

/-- The next cell, from the three before it. -/
theorem sameWithin_next {a a' b b' c c' cost : ℕ} (ha : SameWithin maxEdits a a')
    (hb : SameWithin maxEdits b b') (hc : SameWithin maxEdits c c') :
    SameWithin maxEdits (min (min (a + cost) (b + 1)) (c + 1))
      (min (min (a' + cost) (b' + 1)) (c' + 1)) := by
  unfold SameWithin at *
  omega

/-- What a row does at one of its cells. -/
def fillCell (left right : Bytes) (leftIndex : ℕ) (previous current : List ℕ)
    (rightIndex : ℕ) : List ℕ :=
  let cost := if left[leftIndex - 1]? = right[rightIndex - 1]? then 0 else 1
  let substitution := previous.getD (rightIndex - 1) 0 + cost
  let deletion := previous.getD rightIndex 0 + 1
  let insertion := current.getD (rightIndex - 1) 0 + 1
  current.set rightIndex (min (min substitution deletion) insertion)

theorem RowFilled.fillCell (h : RowFilled left right maxEdits (i + 1) (j + 1) row)
    (hprevious : RowAgrees left right maxEdits i previous) (hi : i < left.length)
    (hj : j < right.length) (hstart : i + 1 ≤ j + 1 + maxEdits) (hstop : j + 1 ≤ i + 1 + maxEdits) :
    RowFilled left right maxEdits (i + 1) (j + 2)
      (fillCell left right (i + 1) previous row (j + 1)) := by
  have hlength := h.length
  constructor
  · rw [Capture.fillCell, List.length_set, hlength]
  intro column hcolumn hinside hband
  unfold Capture.fillCell
  dsimp only
  rw [getD_set (by omega)]
  by_cases hsame : column = j + 1
  · have hboth := hprevious.cells j hj.le (by omega) (by omega)
    have hdeletion := hprevious.cells (j + 1) hj (by omega) (by omega)
    have hinsertion := h.cells j (Nat.lt_succ_self j) hj.le (by omega)
    rw [if_pos hsame, hsame, cell_succ hi hj, Nat.add_sub_cancel, Nat.add_sub_cancel]
    exact sameWithin_next hboth hdeletion hinsertion
  · rw [if_neg hsame]
    exact h.cells column (by omega) hinside hband

/-- The cells of a row from left to right. -/
theorem RowFilled.fillCells (h : RowFilled left right maxEdits (i + 1) (j + 1) row)
    (hprevious : RowAgrees left right maxEdits i previous) (hi : i < left.length)
    (hstart : i + 1 ≤ j + 1 + maxEdits) (count : ℕ) (hcount : j + count ≤ right.length)
    (hstop : j + count ≤ i + 1 + maxEdits) :
    RowFilled left right maxEdits (i + 1) (j + count + 1)
      ((List.range' (j + 1) count).foldl (Capture.fillCell left right (i + 1) previous) row) := by
  induction count generalizing j row with
  | zero => exact h
  | succ count ih =>
      rw [List.range'_succ, List.foldl_cons]
      have hnext := h.fillCell hprevious hi (by omega) hstart (by omega)
      have hrest := ih hnext (by omega) (by omega) (by omega)
      rwa [show j + (count + 1) + 1 = j + 1 + count + 1 by omega]

/-- The cell before the band, or the first column. -/
theorem RowFilled.first (hreused : reused.length = right.length + 1)
    (hi : i + 1 ≤ left.length) :
    RowFilled left right maxEdits (i + 1) (max (i + 1 - maxEdits) 1)
      (if i + 1 - maxEdits = 0 then reused.set 0 (i + 1)
        else reused.set (i + 1 - maxEdits - 1) (maxEdits + 1)) := by
  split_ifs with hstart
  · constructor
    · rw [List.length_set, hreused]
    intro j hj hinside hband
    obtain rfl : j = 0 := by omega
    rw [getD_set (by omega), if_pos rfl, cell_zero_right hi]
    rfl
  · constructor
    · rw [List.length_set, hreused]
    intro j hj hinside hband
    obtain rfl : j = i + 1 - maxEdits - 1 := by omega
    rw [getD_set (by omega), if_pos rfl]
    exact sameWithin_far (Nat.lt_succ_self _) hi hinside (by omega)

/-- One row. -/
theorem RowAgrees.distanceRow (h : RowAgrees left right maxEdits i previous)
    (hreused : reused.length = right.length + 1) (hi : i + 1 ≤ left.length)
    (hreach : i + 1 ≤ right.length + maxEdits) :
    RowAgrees left right maxEdits (i + 1)
      (distanceRow left right maxEdits (i + 1) previous reused) := by
  have hfirst : RowFilled left right maxEdits (i + 1) (max (i + 1 - maxEdits) 1) _ :=
    RowFilled.first hreused hi
  obtain ⟨column, hcolumn⟩ : ∃ column, max (i + 1 - maxEdits) 1 = column + 1 :=
    ⟨max (i + 1 - maxEdits) 1 - 1, by omega⟩
  unfold Capture.distanceRow
  extract_lets bandStart bandEnd current first filled
  have hbandEnd : bandEnd = min right.length (i + 1 + maxEdits) := rfl
  have hfilled : RowFilled left right maxEdits (i + 1) (bandEnd + 1) filled := by
    have hall := (hcolumn ▸ hfirst).fillCells h hi (by omega) (bandEnd - column) (by omega)
      (by omega)
    rw [Nat.add_sub_cancel' (by omega)] at hall
    have hcount : bandEnd + 1 - first = bandEnd - column := by
      change bandEnd + 1 - max (i + 1 - maxEdits) 1 = _
      omega
    change RowFilled left right maxEdits (i + 1) (bandEnd + 1)
      ((List.range' (max (i + 1 - maxEdits) 1) (bandEnd + 1 - first)).foldl _ current)
    rw [hcount, hcolumn]
    exact hall
  have hlength := hfilled.length
  split_ifs with hinside
  · constructor
    · rw [List.length_set, hlength]
    intro j hj hband hafter
    rw [getD_set (by omega)]
    split_ifs with hsame
    · exact sameWithin_far (Nat.lt_succ_self _) hi hj (by omega)
    · exact hfilled.cells j (by omega) hj hband
  · exact ⟨hlength, fun j hj hband _ => hfilled.cells j (by omega) hj hband⟩

theorem rowAgrees_first (left right : Bytes) (maxEdits : ℕ) :
    RowAgrees left right maxEdits 0 ((List.range (right.length + 1)).map fun index =>
      if index ≤ min right.length maxEdits then index else maxEdits + 1) := by
  constructor
  · rw [List.length_map, List.length_range]
  intro j hj _ _
  rw [List.getD_eq_getElem?_getD, List.getElem?_map, List.getElem?_range (by omega),
    cell_zero_left hj]
  unfold SameWithin
  simp only [Option.map_some, Option.getD_some]
  split_ifs <;> omega

/-- All rows up to one. -/
theorem rowAgrees_rows (hreach : left.length ≤ right.length + maxEdits) (hi : i ≤ left.length) :
    ∃ previous current : List ℕ,
      (List.range i).foldl
        (fun (rows : List ℕ × List ℕ) index =>
          (distanceRow left right maxEdits (index + 1) rows.1 rows.2, rows.1))
        ((List.range (right.length + 1)).map fun index =>
          if index ≤ min right.length maxEdits then index else maxEdits + 1,
        List.replicate (right.length + 1) (maxEdits + 1)) = (previous, current) ∧
      RowAgrees left right maxEdits i previous ∧ current.length = right.length + 1 := by
  induction i with
  | zero => exact ⟨_, _, rfl, rowAgrees_first left right maxEdits, List.length_replicate⟩
  | succ i ih =>
      obtain ⟨previous, current, hrows, hagrees, hlength⟩ := ih (by omega)
      rw [@List.range_succ i, List.foldl_concat, hrows]
      exact ⟨_, _, rfl, hagrees.distanceRow hlength hi (by omega), hagrees.length⟩

/-- The banded check decides whether the edit distance is within the bound. -/
theorem editDistanceWithin_iff (left right : Bytes) (maxEdits : ℕ) :
    editDistanceWithin left right maxEdits = true ↔ levenshtein left right ≤ maxEdits := by
  have hlengths := length_le_levenshtein left right
  unfold editDistanceWithin
  split_ifs with hdifference
  · constructor
    · intro hfalse
      cases hfalse
    · omega
  rw [not_or, not_lt, not_lt] at hdifference
  obtain ⟨previous, current, hrows, hagrees, -⟩ :=
    @rowAgrees_rows left right maxEdits left.length (by omega) (le_refl _)
  dsimp only
  rw [hrows]
  dsimp only
  have hlast := hagrees.cells right.length (le_refl _) (by omega) (by omega)
  rw [cell, List.take_length, List.take_length] at hlast
  unfold SameWithin at hlast
  rw [decide_eq_true_eq]
  omega

end

end SerialPlatform.Capture
