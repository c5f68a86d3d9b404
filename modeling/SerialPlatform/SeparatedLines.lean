import Mathlib.Data.List.DropRight

/-!
# Lists in lines

Each line of a list ends with a separator, the last one perhaps not.  A prefix of
the lines has just these lines again, so a list may be cut behind any of its lines.
-/

namespace SeparatedLines

section

variable {α : Type*} [DecidableEq α]

def lines (sep : α) : List α → List (List α)
  | [] => []
  | x :: xs =>
      if x = sep then [x] :: lines sep xs
      else
        match lines sep xs with
        | [] => [[x]]
        | line :: rest => (x :: line) :: rest

variable {sep : α} {text rest list : List α} {kept : List (List α)}

@[simp]
theorem lines_nil : lines sep [] = [] := rfl

theorem lines_append (hsep : sep ∉ text) :
    lines sep (text ++ sep :: rest) = (text ++ [sep]) :: lines sep rest := by
  induction text with
  | nil => simp [lines]
  | cons x text ih =>
      obtain ⟨hx, hsep⟩ := not_or.mp (fun h => hsep (List.mem_cons.mpr h))
      rw [List.cons_append, lines, if_neg (Ne.symm hx), ih hsep]
      rfl

theorem lines_of_notMem (hsep : sep ∉ text) (htext : text ≠ []) : lines sep text = [text] := by
  induction text with
  | nil => exact absurd rfl htext
  | cons x text ih =>
      obtain ⟨hx, hsep⟩ := not_or.mp (fun h => hsep (List.mem_cons.mpr h))
      rw [lines, if_neg (Ne.symm hx)]
      cases text with
      | nil => rfl
      | cons y text => rw [ih hsep (List.cons_ne_nil y text)]

/-- A list is one line without its separator, or a whole line and a list. -/
theorem lines_induction (sep : α) {motive : List α → Prop} (torn : ∀ text, sep ∉ text → motive text)
    (line : ∀ text rest, sep ∉ text → motive rest → motive (text ++ sep :: rest)) :
    ∀ list, motive list := by
  intro list
  induction hlength : list.length using Nat.strong_induction_on generalizing list with
  | _ length ih =>
      by_cases hmem : sep ∈ list
      · obtain ⟨text, rest, rfl, hsep⟩ := List.eq_append_cons_of_mem hmem
        refine line text rest hsep (ih rest.length ?_ rest rfl)
        rw [← hlength, List.length_append, List.length_cons]
        omega
      · exact torn list hmem

theorem flatten_lines (list : List α) : (lines sep list).flatten = list := by
  induction list using lines_induction sep with
  | torn text hsep =>
      rcases eq_or_ne text [] with rfl | htext
      · rfl
      · rw [lines_of_notMem hsep htext, List.flatten_singleton]
  | line text rest hsep ih =>
      rw [lines_append hsep, List.flatten_cons, ih, List.append_assoc, List.singleton_append]

/-- A list which is cut behind one of its lines keeps the lines before. -/
theorem lines_flatten_of_isPrefix (hkept : kept <+: lines sep list) :
    lines sep kept.flatten = kept := by
  induction list using lines_induction sep generalizing kept with
  | torn text hsep =>
      rcases eq_or_ne text [] with rfl | htext
      · rw [List.prefix_nil.mp hkept]
        rfl
      · rw [lines_of_notMem hsep htext, List.prefix_cons_iff] at hkept
        rcases hkept with rfl | ⟨others, rfl, hothers⟩
        · rfl
        · rw [List.prefix_nil.mp hothers, List.flatten_singleton, lines_of_notMem hsep htext]
  | line text rest hsep ih =>
      rw [lines_append hsep, List.prefix_cons_iff] at hkept
      rcases hkept with rfl | ⟨others, rfl, hothers⟩
      · rfl
      · rw [List.flatten_cons, List.append_assoc, List.singleton_append, lines_append hsep,
          ih hothers]

theorem lines_append_line (hlist : list.getLast?.all (· = sep)) (hsep : sep ∉ text) :
    lines sep (list ++ text ++ [sep]) = lines sep list ++ [text ++ [sep]] := by
  induction list using lines_induction sep with
  | torn before hbefore =>
      rcases eq_or_ne before [] with rfl | hne
      · rw [List.nil_append, lines_append hsep]
        rfl
      · rw [List.getLast?_eq_some_getLast hne, Option.all_some, decide_eq_true_eq] at hlist
        exact absurd (hlist ▸ List.getLast_mem hne) hbefore
  | line before rest hbefore ih =>
      have hrest : rest.getLast?.all (· = sep) := by
        cases hlast : rest.getLast? with
        | none => rfl
        | some last =>
            rw [List.getLast?_append, List.getLast?_cons, hlast] at hlist
            exact hlist
      rw [lines_append hbefore, List.append_assoc, List.append_assoc, List.cons_append,
        lines_append hbefore, ← List.append_assoc, ih hrest, List.cons_append]

end

/-! ## Dropping at the end -/

section

variable {α : Type*} {p : α → Bool} {before after list : List α}

theorem rdropWhile_append_of_mem (hmem : ∃ x ∈ after, ¬p x) :
    (before ++ after).rdropWhile p = before ++ after.rdropWhile p := by
  have hkept : ¬(after.reverse.dropWhile p).isEmpty := by
    obtain ⟨x, hx, hp⟩ := hmem
    rw [List.isEmpty_iff, List.dropWhile_eq_nil_iff]
    exact fun hall => hp (hall x (List.mem_reverse.mpr hx))
  rw [List.rdropWhile, List.reverse_append, List.dropWhile_append, if_neg hkept,
    List.reverse_append, List.reverse_reverse, List.rdropWhile]

theorem rdropWhile_append_of_forall (hall : ∀ x ∈ after, p x) :
    (before ++ after).rdropWhile p = before.rdropWhile p := by
  have hdropped : (after.reverse.dropWhile p).isEmpty := by
    rw [List.isEmpty_iff, List.dropWhile_eq_nil_iff]
    exact fun x hx => hall x (List.mem_reverse.mp hx)
  rw [List.rdropWhile, List.reverse_append, List.dropWhile_append, if_pos hdropped,
    List.rdropWhile]

theorem rdropWhile_cons (x : α) (list : List α) :
    (x :: list).rdropWhile p =
      if list.rdropWhile p = [] then if p x then [] else [x] else x :: list.rdropWhile p := by
  by_cases hall : ∀ y ∈ list, p y
  · rw [if_pos (List.rdropWhile_eq_nil_iff.mpr hall), ← List.singleton_append,
      rdropWhile_append_of_forall hall, List.rdropWhile_singleton]
  · have hkept : ∃ y ∈ list, ¬p y := by
      push Not at hall
      exact hall
    rw [if_neg fun hnil => hall (List.rdropWhile_eq_nil_iff.mp hnil), ← List.singleton_append,
      rdropWhile_append_of_mem hkept]
    rfl

theorem filter_rdropWhile (list : List α) :
    (list.rdropWhile p).filter (fun x => !p x) = list.filter fun x => !p x := by
  have hdropped : (list.rtakeWhile p).filter (fun x => !p x) = [] := by
    refine List.filter_eq_nil_iff.mpr fun x hx => ?_
    rw [List.mem_rtakeWhile_imp hx, Bool.not_true]
    exact Bool.false_ne_true
  calc
    (list.rdropWhile p).filter (fun x => !p x) =
        (list.rdropWhile p ++ list.rtakeWhile p).filter fun x => !p x := by
      rw [List.filter_append, hdropped, List.append_nil]
    _ = list.filter fun x => !p x := by rw [List.rdropWhile_append_rtakeWhile]

/-- What holds of the elements which stay, holds in front of every one which stops
the dropping. -/
theorem forall_mem_rdropWhile_iff {q : α → Prop} (hq : ∀ x, ¬p x → q x) :
    (∀ x ∈ list.rdropWhile p, q x) ↔
      ∀ before after, list = before ++ after → (∃ x ∈ after, ¬p x) → ∀ x ∈ before, q x := by
  constructor
  · rintro hall before after rfl hmem x hx
    rw [rdropWhile_append_of_mem hmem] at hall
    exact hall x (List.mem_append_left _ hx)
  · intro hall x hx
    obtain ⟨dropped, hdropped⟩ := List.rdropWhile_prefix p (l := list)
    have hne : list.rdropWhile p ≠ [] := List.ne_nil_of_mem hx
    have hlast := List.rdropWhile_last_not p list hne
    by_cases hp : p x
    · refine hall (list.rdropWhile p).dropLast
        ((list.rdropWhile p).getLast hne :: dropped) ?_ ⟨_, List.mem_cons_self, hlast⟩ x ?_
      · rw [← List.singleton_append, ← List.append_assoc, List.dropLast_append_getLast, hdropped]
      · rw [← List.dropLast_append_getLast hne, List.mem_append, List.mem_singleton] at hx
        rcases hx with hx | rfl
        · exact hx
        · exact absurd hp hlast
    · exact hq x hp

end

end SeparatedLines
