import Mathlib.Tactic

/-!
# The most recent item of every key, up to a capacity

A list of items, newest first.  `latest` keeps the newest item of every key;
taking a prefix of it keeps the most recently used keys.  A bounded store which
moves each arriving item to the front and drops its oldest one computes exactly
this prefix.
-/

namespace Recency

variable {α κ : Type*} [DecidableEq κ] (key : α → κ)

/-- The items of every key but one. -/
def without (k : κ) (items : List α) : List α :=
  items.filter fun other => decide (key other ≠ k)

/-- The newest item of every key, newest first. -/
def latest : List α → List α
  | [] => []
  | item :: older => item :: without key (key item) (latest older)

/-- Moves `item` to the front of a store, which keeps at most `capacity` items. -/
def touch (capacity : ℕ) (item : α) (kept : List α) : List α :=
  (item :: without key (key item) kept).take capacity

variable {key}

@[simp] theorem without_nil (k : κ) : without key k ([] : List α) = [] := rfl

theorem without_cons_self {k : κ} {item : α} (hkey : key item = k) (items : List α) :
    without key k (item :: items) = without key k items :=
  List.filter_cons_of_neg (by simpa using hkey)

theorem without_cons_ne {k : κ} {item : α} (hkey : key item ≠ k) (items : List α) :
    without key k (item :: items) = item :: without key k items :=
  List.filter_cons_of_pos (by simpa using hkey)

theorem mem_without {k : κ} {item : α} {items : List α} :
    item ∈ without key k items ↔ item ∈ items ∧ key item ≠ k := by
  simp [without]

theorem without_eq_self {k : κ} {items : List α} (h : k ∉ items.map key) :
    without key k items = items := by
  refine List.filter_eq_self.mpr fun other hother => decide_eq_true fun hkey => ?_
  exact h (List.mem_map.mpr ⟨other, hother, hkey⟩)

theorem nodup_without {items : List α} (hnodup : (items.map key).Nodup) (k : κ) :
    ((without key k items).map key).Nodup :=
  hnodup.sublist (List.Sublist.map key List.filter_sublist)

theorem mem_of_mem_latest {item : α} {items : List α} (h : item ∈ latest key items) :
    item ∈ items := by
  induction items with
  | nil => exact h
  | cons head older ih =>
      rcases List.mem_cons.mp h with rfl | hrest
      · exact List.mem_cons_self
      · exact List.mem_cons_of_mem _ (ih (mem_without.mp hrest).1)

theorem latest_sublist (items : List α) : (latest key items).Sublist items := by
  induction items with
  | nil => exact List.nil_sublist _
  | cons item older ih => exact (List.filter_sublist.trans ih).cons_cons item

/-- No key occurs twice. -/
theorem latest_nodup (items : List α) : ((latest key items).map key).Nodup := by
  induction items with
  | nil => exact List.nodup_nil
  | cons item older ih =>
      rw [latest, List.map_cons, List.nodup_cons]
      refine ⟨fun hmem => ?_, nodup_without ih (key item)⟩
      obtain ⟨other, hother, hkey⟩ := List.mem_map.mp hmem
      exact (mem_without.mp hother).2 hkey

/-- Items of pairwise distinct keys are all kept. -/
theorem latest_eq_self {items : List α} (hnodup : (items.map key).Nodup) :
    latest key items = items := by
  induction items with
  | nil => rfl
  | cons item older ih =>
      rw [List.map_cons, List.nodup_cons] at hnodup
      rw [latest, ih hnodup.2, without_eq_self hnodup.1]

/-- Where a key occurs once, erasing it is removing it. -/
theorem eraseP_eq_without {items : List α} (hnodup : (items.map key).Nodup) (k : κ) :
    items.eraseP (fun item => decide (key item = k)) = without key k items := by
  induction items with
  | nil => rfl
  | cons item older ih =>
      rw [List.map_cons, List.nodup_cons] at hnodup
      by_cases hkey : key item = k
      · rw [without_cons_self hkey, without_eq_self (hkey ▸ hnodup.1)]
        simp [hkey]
      · rw [without_cons_ne hkey, ← ih hnodup.2]
        simp [hkey]

/-- Removing one key removes at most one item. -/
theorem length_le_without {items : List α} (hnodup : (items.map key).Nodup) (k : κ) :
    items.length ≤ (without key k items).length + 1 := by
  induction items with
  | nil => exact Nat.zero_le _
  | cons item older ih =>
      rw [List.map_cons, List.nodup_cons] at hnodup
      by_cases hkey : key item = k
      · rw [without_cons_self hkey, without_eq_self (hkey ▸ hnodup.1), List.length_cons]
      · rw [without_cons_ne hkey, List.length_cons, List.length_cons]
        exact Nat.succ_le_succ (ih hnodup.2)

/-- Removing one key before or after cutting gives the same shorter prefix. -/
theorem take_without_take {items : List α} (hnodup : (items.map key).Nodup) (k : κ) (n : ℕ) :
    (without key k (items.take (n + 1))).take n = (without key k items).take n := by
  induction items generalizing n with
  | nil => simp
  | cons item older ih =>
      rw [List.map_cons, List.nodup_cons] at hnodup
      rw [List.take_succ_cons]
      by_cases hkey : key item = k
      · have hold : k ∉ older.map key := hkey ▸ hnodup.1
        have hcut : k ∉ (older.take n).map key := fun hmem =>
          hold ((List.Sublist.map key (List.take_sublist n older)).subset hmem)
        rw [without_cons_self hkey, without_cons_self hkey, without_eq_self hold,
          without_eq_self hcut, List.take_take, min_self]
      · rw [without_cons_ne hkey, without_cons_ne hkey]
        cases n with
        | zero => rfl
        | succ n => rw [List.take_succ_cons, List.take_succ_cons, ih hnodup.2 n]

/-- The bounded store is a prefix of the unbounded one. -/
theorem take_latest_cons (capacity : ℕ) (item : α) (older : List α) :
    (latest key (item :: older)).take capacity =
      touch key capacity item ((latest key older).take capacity) := by
  cases capacity with
  | zero => simp [touch]
  | succ n =>
      rw [latest, touch, List.take_succ_cons, List.take_succ_cons,
        take_without_take (latest_nodup older)]

/-- A store which is already within the capacity loses at most its oldest item. -/
theorem take_cons_take (capacity : ℕ) (item : α) (items : List α) :
    (item :: items.take capacity).take capacity = (item :: items).take capacity := by
  cases capacity with
  | zero => rfl
  | succ n => rw [List.take_succ_cons, List.take_succ_cons, List.take_take, min_eq_left n.le_succ]

/-- Dropping the last of at most `capacity + 1` items is taking `capacity` of them. -/
theorem reverse_take {items : List α} {capacity : ℕ} (h : items.length ≤ capacity + 1) :
    (if capacity < items.length then items.reverse.tail else items.reverse) =
      (items.take capacity).reverse := by
  by_cases hlong : capacity < items.length
  · have hlength : items.length - 1 = capacity := by omega
    rw [if_pos hlong, List.tail_reverse, List.dropLast_eq_take, hlength]
  · rw [if_neg hlong, List.take_of_length_le (Nat.le_of_not_lt hlong)]

end Recency
