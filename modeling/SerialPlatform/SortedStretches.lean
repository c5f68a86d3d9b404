import Mathlib.Tactic

/-!
# Stretches of a list in the order of a key

The elements of a list whose keys increase, cut at bounds on the key.
-/

namespace SortedStretches

variable {α : Type} {key : α → ℕ} {items : List α}

theorem filter_eq_takeWhile (bound : ℕ) (h : items.Pairwise fun a b => key a ≤ key b) :
    items.filter (fun item => key item ≤ bound) =
      items.takeWhile fun item => key item ≤ bound := by
  induction items with
  | nil => rfl
  | cons item rest ih =>
      obtain ⟨hfirst, hrest⟩ := List.pairwise_cons.1 h
      by_cases hle : key item ≤ bound
      · rw [List.filter_cons_of_pos (by simpa using hle),
          List.takeWhile_cons_of_pos (by simpa using hle), ih hrest]
      · rw [List.filter_cons_of_neg (by simpa using hle),
          List.takeWhile_cons_of_neg (by simpa using hle), List.filter_eq_nil_iff]
        intro other hother
        have hlater := hfirst other hother
        simp only [decide_eq_true_eq, not_le]
        omega

/-- Two neighbouring stretches are one stretch. -/
theorem filter_append_filter (h : items.Pairwise fun a b => key a < key b) {low high : ℕ}
    (hle : low ≤ high) :
    items.filter (fun item => key item ≤ low) ++
        items.filter (fun item => low < key item ∧ key item ≤ high) =
      items.filter fun item => key item ≤ high := by
  induction items with
  | nil => rfl
  | cons item rest ih =>
      obtain ⟨hfirst, hrest⟩ := List.pairwise_cons.1 h
      by_cases hearly : key item ≤ low
      · rw [List.filter_cons_of_pos (by simpa using hearly),
          List.filter_cons_of_neg (by simp; omega),
          List.filter_cons_of_pos (by simp; omega), List.cons_append, ih hrest]
      · have hlater : ∀ other ∈ item :: rest, low < key other := by
          intro other hother
          rcases List.mem_cons.1 hother with rfl | hmem
          · omega
          · have hlt := hfirst other hmem
            omega
        have hnone : (item :: rest).filter (fun item => key item ≤ low) = [] := by
          rw [List.filter_eq_nil_iff]
          intro other hother
          simpa using hlater other hother
        rw [hnone, List.nil_append]
        apply List.filter_congr
        intro other hother
        simp [hlater other hother]

/-- The elements with one key. -/
theorem filter_key (h : items.Pairwise fun a b => key a < key b) {item : α}
    (hitem : item ∈ items) : items.filter (fun other => key other = key item) = [item] := by
  induction items with
  | nil => cases hitem
  | cons first rest ih =>
      obtain ⟨hfirst, hrest⟩ := List.pairwise_cons.1 h
      rcases List.mem_cons.1 hitem with rfl | hmem
      · rw [List.filter_cons_of_pos (by simp), List.filter_eq_nil_iff.2]
        intro other hother
        have hlater := hfirst other hother
        simp only [decide_eq_true_eq]
        omega
      · have hlater := hfirst item hmem
        rw [List.filter_cons_of_neg (by simp; omega), ih hrest hmem]

/-- The stretch up to the next element. -/
theorem filter_next (h : items.Pairwise fun a b => key a < key b) {low : ℕ} {item : α}
    (hitem : item ∈ items) (hlow : low < key item)
    (hnext : ∀ other ∈ items, low < key other → key item ≤ key other) :
    items.filter (fun other => key other ≤ key item) =
      items.filter (fun other => key other ≤ low) ++ [item] := by
  rw [← filter_append_filter h (le_of_lt hlow), ← filter_key h hitem]
  congr 1
  apply List.filter_congr
  intro other hother
  have hbound := hnext other hother
  rw [decide_eq_decide]
  omega

end SortedStretches
