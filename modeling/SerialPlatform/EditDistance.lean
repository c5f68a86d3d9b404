import Mathlib.Data.List.Basic
import Mathlib.Tactic

/-!
# Edit distance

The Levenshtein distance of two words is the least number of deletions, insertions and
substitutions which turn one into the other.  It can be computed from either end.
-/

namespace EditDistance

variable {α : Type*} {xs ys xs' ys' : List α} {x y : α} {n m : ℕ}

/-- The first word becomes the second by `n` edits. -/
inductive Edits : List α → List α → ℕ → Prop
  | nil : Edits [] [] 0
  | keep (x : α) {xs ys : List α} {n : ℕ} (h : Edits xs ys n) : Edits (x :: xs) (x :: ys) n
  | substitute (x y : α) {xs ys : List α} {n : ℕ} (h : Edits xs ys n) :
      Edits (x :: xs) (y :: ys) (n + 1)
  | delete (x : α) {xs ys : List α} {n : ℕ} (h : Edits xs ys n) : Edits (x :: xs) ys (n + 1)
  | insert (y : α) {xs ys : List α} {n : ℕ} (h : Edits xs ys n) : Edits xs (y :: ys) (n + 1)

theorem Edits.append (h : Edits xs ys n) (h' : Edits xs' ys' m) :
    Edits (xs ++ xs') (ys ++ ys') (n + m) := by
  induction h with
  | nil => rwa [Nat.zero_add]
  | keep x _ ih => exact .keep x ih
  | substitute x y _ ih =>
      rw [Nat.add_right_comm]
      exact .substitute x y ih
  | delete x _ ih =>
      rw [Nat.add_right_comm]
      exact .delete x ih
  | insert y _ ih =>
      rw [Nat.add_right_comm]
      exact .insert y ih

theorem Edits.reverse (h : Edits xs ys n) : Edits xs.reverse ys.reverse n := by
  induction h with
  | nil => exact .nil
  | keep x _ ih =>
      rw [List.reverse_cons, List.reverse_cons]
      exact ih.append (.keep x .nil)
  | substitute x y _ ih =>
      rw [List.reverse_cons, List.reverse_cons]
      exact ih.append (.substitute x y .nil)
  | delete x _ ih =>
      rw [List.reverse_cons]
      have hlonger := ih.append (.delete x .nil)
      rwa [List.append_nil] at hlonger
  | insert y _ ih =>
      rw [List.reverse_cons]
      have hlonger := ih.append (.insert y .nil)
      rwa [List.append_nil] at hlonger

/-- Each edit changes the length by one at most. -/
theorem Edits.length_le (h : Edits xs ys n) :
    xs.length ≤ ys.length + n ∧ ys.length ≤ xs.length + n := by
  induction h with
  | nil => exact ⟨le_refl _, le_refl _⟩
  | keep _ _ ih | substitute _ _ _ ih | delete _ _ ih | insert _ _ ih =>
      simp only [List.length_cons]
      omega

theorem edits_of_nil_left (ys : List α) : Edits [] ys ys.length := by
  induction ys with
  | nil => exact .nil
  | cons y ys ih => exact .insert y ih

theorem edits_of_nil_right (xs : List α) : Edits xs [] xs.length := by
  induction xs with
  | nil => exact .nil
  | cons x xs ih => exact .delete x ih

variable [DecidableEq α]

/-- The distance, from the first elements on. -/
def levenshtein : List α → List α → ℕ
  | [], ys => ys.length
  | x :: xs, [] => xs.length + 1
  | x :: xs, y :: ys =>
      min (min (levenshtein xs ys + if x = y then 0 else 1) (levenshtein xs (y :: ys) + 1))
        (levenshtein (x :: xs) ys + 1)
termination_by xs ys => xs.length + ys.length

@[simp] theorem levenshtein_nil_left (ys : List α) : levenshtein [] ys = ys.length := by
  rw [levenshtein]

@[simp] theorem levenshtein_nil_right (xs : List α) : levenshtein xs [] = xs.length := by
  cases xs with
  | nil => rw [levenshtein]
  | cons x xs => rw [levenshtein, List.length_cons]

theorem levenshtein_cons (x y : α) (xs ys : List α) :
    levenshtein (x :: xs) (y :: ys) =
      min (min (levenshtein xs ys + if x = y then 0 else 1) (levenshtein xs (y :: ys) + 1))
        (levenshtein (x :: xs) ys + 1) := by
  rw [levenshtein]

theorem edits_levenshtein (xs ys : List α) : Edits xs ys (levenshtein xs ys) := by
  fun_induction levenshtein xs ys with
  | case1 ys => exact edits_of_nil_left ys
  | case2 x xs => exact edits_of_nil_right (x :: xs)
  | case3 x xs y ys hboth hdelete hinsert =>
      rcases min_choice (min (levenshtein xs ys + if x = y then 0 else 1)
        (levenshtein xs (y :: ys) + 1)) (levenshtein (x :: xs) ys + 1) with hmin | hmin
      · rw [hmin]
        rcases min_choice (levenshtein xs ys + if x = y then 0 else 1)
          (levenshtein xs (y :: ys) + 1) with hmin | hmin
        · rw [hmin]
          split_ifs with hsame
          · rw [hsame]
            exact .keep y hboth
          · exact .substitute x y hboth
        · rw [hmin]
          exact .delete x hdelete
      · rw [hmin]
        exact .insert y hinsert

theorem levenshtein_le (h : Edits xs ys n) : levenshtein xs ys ≤ n := by
  induction h with
  | nil => rw [levenshtein_nil_left, List.length_nil]
  | keep x _ ih =>
      rw [levenshtein_cons, if_pos rfl]
      exact (min_le_left _ _).trans ((min_le_left _ _).trans ih)
  | substitute x y _ ih =>
      rw [levenshtein_cons]
      apply (min_le_left _ _).trans ((min_le_left _ _).trans _)
      split_ifs <;> omega
  | @delete x xs ys n _ ih =>
      cases ys with
      | nil =>
          rw [levenshtein_nil_right] at ih ⊢
          exact Nat.succ_le_succ ih
      | cons y ys =>
          rw [levenshtein_cons]
          exact (min_le_left _ _).trans ((min_le_right _ _).trans (Nat.succ_le_succ ih))
  | @insert y xs ys n _ ih =>
      cases xs with
      | nil =>
          rw [levenshtein_nil_left] at ih ⊢
          exact Nat.succ_le_succ ih
      | cons x xs =>
          rw [levenshtein_cons]
          exact (min_le_right _ _).trans (Nat.succ_le_succ ih)

/-- The distance is the least number of edits. -/
theorem levenshtein_le_iff : levenshtein xs ys ≤ n ↔ ∃ m ≤ n, Edits xs ys m := by
  constructor
  · intro hle
    exact ⟨_, hle, edits_levenshtein xs ys⟩
  · rintro ⟨m, hle, hedits⟩
    exact (levenshtein_le hedits).trans hle

theorem length_le_levenshtein (xs ys : List α) :
    xs.length ≤ ys.length + levenshtein xs ys ∧ ys.length ≤ xs.length + levenshtein xs ys :=
  (edits_levenshtein xs ys).length_le

theorem levenshtein_reverse (xs ys : List α) :
    levenshtein xs.reverse ys.reverse = levenshtein xs ys := by
  apply le_antisymm
  · exact levenshtein_le (edits_levenshtein xs ys).reverse
  · have hback := levenshtein_le (edits_levenshtein xs.reverse ys.reverse).reverse
    rwa [List.reverse_reverse, List.reverse_reverse] at hback

/-- The same, from the last elements on. -/
theorem levenshtein_concat (xs ys : List α) (x y : α) :
    levenshtein (xs ++ [x]) (ys ++ [y]) =
      min (min (levenshtein xs ys + if x = y then 0 else 1) (levenshtein xs (ys ++ [y]) + 1))
        (levenshtein (xs ++ [x]) ys + 1) := by
  rw [← levenshtein_reverse (xs ++ [x]) (ys ++ [y]), ← levenshtein_reverse xs ys,
    ← levenshtein_reverse xs (ys ++ [y]), ← levenshtein_reverse (xs ++ [x]) ys,
    List.reverse_concat, List.reverse_concat, levenshtein_cons]

/-! ## Prefixes -/

/-- The distance of two prefixes. -/
def cell (xs ys : List α) (i j : ℕ) : ℕ := levenshtein (xs.take i) (ys.take j)

theorem cell_zero_left {j : ℕ} (hj : j ≤ ys.length) : cell xs ys 0 j = j := by
  rw [cell, List.take_zero, levenshtein_nil_left, List.length_take, min_eq_left hj]

theorem cell_zero_right {i : ℕ} (hi : i ≤ xs.length) : cell xs ys i 0 = i := by
  rw [cell, List.take_zero, levenshtein_nil_right, List.length_take, min_eq_left hi]

theorem cell_succ {i j : ℕ} (hi : i < xs.length) (hj : j < ys.length) :
    cell xs ys (i + 1) (j + 1) =
      min (min (cell xs ys i j + if xs[i]? = ys[j]? then 0 else 1) (cell xs ys i (j + 1) + 1))
        (cell xs ys (i + 1) j + 1) := by
  have hequal : (xs[i]? = ys[j]?) = (xs[i] = ys[j]) := by
    rw [List.getElem?_eq_getElem hi, List.getElem?_eq_getElem hj, Option.some.injEq]
  simp only [cell, List.take_add_one, List.getElem?_eq_getElem hi, List.getElem?_eq_getElem hj,
    Option.toList_some, Option.some.injEq]
  exact levenshtein_concat _ _ _ _

theorem cell_far {i j : ℕ} (hi : i ≤ xs.length) (hj : j ≤ ys.length) :
    i ≤ j + cell xs ys i j ∧ j ≤ i + cell xs ys i j := by
  have hfar := length_le_levenshtein (xs.take i) (ys.take j)
  rw [List.length_take, List.length_take, min_eq_left hi, min_eq_left hj] at hfar
  exact hfar

end EditDistance
