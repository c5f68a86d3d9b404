import Mathlib.Tactic

/-!
# Folding items into a map, key by key

A store which keeps one value for each key and merges every arriving item into
the value of its own key.  The value found at a key afterwards depends only on
the items of that key, in the order in which they arrived.
-/

namespace KeyedFold

section

variable {ι κ β : Type*} [DecidableEq κ] (key : ι → κ) (merge : β → ι → β)

/-- Merges one item into the value stored at its key. -/
def step (store : κ → β) (item : ι) : κ → β :=
  Function.update store (key item) (merge (store (key item)) item)

theorem step_self (store : κ → β) (item : ι) :
    step key merge store item (key item) = merge (store (key item)) item := by
  simp [step]

theorem step_of_ne {store : κ → β} {item : ι} {k : κ} (hne : key item ≠ k) :
    step key merge store item k = store k := by
  rw [step, Function.update_of_ne hne.symm]

/-- The value at a key is the fold of the items of that key alone. -/
theorem foldl_step_apply (items : List ι) (store : κ → β) (k : κ) :
    items.foldl (step key merge) store k =
      (items.filter fun item => key item = k).foldl merge (store k) := by
  induction items generalizing store with
  | nil => rfl
  | cons item items ih =>
      rw [List.foldl_cons, ih]
      by_cases hkey : key item = k
      · subst hkey
        simp [step_self]
      · simp [hkey, step_of_ne]

end

/-! ## Keeping the latest item -/

section

variable {ι : Type*} (rank : ι → ℕ)

/-- `item` belongs to `seen` and nothing seen outranks it. -/
structure IsLatest (item : ι) (seen : List ι) : Prop where
  mem : item ∈ seen
  le : ∀ other ∈ seen, rank other ≤ rank item

variable {rank}

theorem IsLatest.singleton (item : ι) : IsLatest rank item [item] where
  mem := List.mem_singleton_self item
  le := by simp

/-- An item which does not outrank the latest one leaves it in place. -/
theorem IsLatest.keep {item arriving : ι} {seen : List ι} (hlatest : IsLatest rank item seen)
    (hle : rank arriving ≤ rank item) : IsLatest rank item (seen ++ [arriving]) where
  mem := List.mem_append_left _ hlatest.mem
  le other hother := by
    rcases List.mem_append.mp hother with hseen | hnew
    · exact hlatest.le other hseen
    · rw [List.mem_singleton.mp hnew]
      exact hle

/-- An item which outranks the latest one becomes the latest. -/
theorem IsLatest.replace {item arriving : ι} {seen : List ι}
    (hlatest : IsLatest rank item seen) (hlt : rank item < rank arriving) :
    IsLatest rank arriving (seen ++ [arriving]) where
  mem := by simp
  le other hother := by
    rcases List.mem_append.mp hother with hseen | hnew
    · exact (hlatest.le other hseen).trans hlt.le
    · rw [List.mem_singleton.mp hnew]

/-- Two lists with the same items, no two of one rank, have the same latest item. -/
theorem IsLatest.unique {item item' : ι} {seen seen' : List ι}
    (hlatest : IsLatest rank item seen) (hlatest' : IsLatest rank item' seen')
    (hsame : ∀ other, other ∈ seen ↔ other ∈ seen')
    (hinj : ∀ a ∈ seen, ∀ b ∈ seen, rank a = rank b → a = b) : item = item' := by
  have hmem' : item' ∈ seen := (hsame item').mpr hlatest'.mem
  have hle : rank item' ≤ rank item := hlatest.le item' hmem'
  have hge : rank item ≤ rank item' := hlatest'.le item ((hsame item).mp hlatest.mem)
  exact hinj item hlatest.mem item' hmem' (le_antisymm hge hle)

end

end KeyedFold
