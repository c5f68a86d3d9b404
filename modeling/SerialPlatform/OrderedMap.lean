import Mathlib.Tactic

/-!
# Maps kept in key order

A finite map as the list of its entries, in strictly increasing key order.  An
insertion and a removal are described by the entries they leave, and sums over the
entries by the one which comes or goes.
-/

structure OrderedMap (κ α : Type) [LinearOrder κ] where
  entries : List (κ × α)
  sorted : entries.Pairwise (fun a b => a.1 < b.1)

namespace OrderedMap

variable {κ α β : Type} [LinearOrder κ]

instance [DecidableEq α] : DecidableEq (OrderedMap κ α) := fun a b =>
  decidable_of_iff (a.entries = b.entries) ⟨fun h => by cases a; cases b; cases h; rfl, congrArg _⟩

def empty : OrderedMap κ α := ⟨[], .nil⟩

def lookup (m : OrderedMap κ α) (k : κ) : Option α :=
  (m.entries.find? (fun entry => entry.1 = k)).map Prod.snd

def contains (m : OrderedMap κ α) (k : κ) : Bool := (m.lookup k).isSome

def values (m : OrderedMap κ α) : List α := m.entries.map Prod.snd

def erase (m : OrderedMap κ α) (k : κ) : OrderedMap κ α where
  entries := m.entries.filter (fun entry => entry.1 ≠ k)
  sorted := m.sorted.filter _

def insert (m : OrderedMap κ α) (k : κ) (v : α) : OrderedMap κ α where
  entries := m.entries.filter (fun entry => entry.1 < k) ++
    (k, v) :: m.entries.filter (fun entry => k < entry.1)
  sorted := by
    rw [List.pairwise_append]
    refine ⟨m.sorted.filter _, ?_, ?_⟩
    · rw [List.pairwise_cons]
      refine ⟨fun entry hentry => ?_, m.sorted.filter _⟩
      simpa using (List.mem_filter.mp hentry).2
    · intro a ha b hb
      have hak : a.1 < k := by simpa using (List.mem_filter.mp ha).2
      rcases List.mem_cons.mp hb with rfl | hb
      · exact hak
      · have hkb : k < b.1 := by simpa using (List.mem_filter.mp hb).2
        exact hak.trans hkb

/-- Every value changed, with its key at hand. -/
def mapValues (f : κ → α → β) (m : OrderedMap κ α) : OrderedMap κ β where
  entries := m.entries.map (fun entry => (entry.1, f entry.1 entry.2))
  sorted := by
    rw [List.pairwise_map]
    exact m.sorted

/-! ## Lookups -/

theorem unique {m : OrderedMap κ α} {k : κ} {v w : α} (hv : (k, v) ∈ m.entries)
    (hw : (k, w) ∈ m.entries) : v = w := by
  obtain ⟨i, hi, hiv⟩ := List.mem_iff_getElem.mp hv
  obtain ⟨j, hj, hjw⟩ := List.mem_iff_getElem.mp hw
  have hpair := List.pairwise_iff_getElem.mp m.sorted
  rcases lt_trichotomy i j with hlt | heq | hgt
  · have hkey := hpair i j hi hj hlt
    rw [hiv, hjw] at hkey
    exact absurd hkey (lt_irrefl _)
  · subst heq
    rw [hiv] at hjw
    exact (Prod.mk.inj hjw).2
  · have hkey := hpair j i hj hi hgt
    rw [hiv, hjw] at hkey
    exact absurd hkey (lt_irrefl _)

theorem lookup_eq_some_iff {m : OrderedMap κ α} {k : κ} {v : α} :
    m.lookup k = some v ↔ (k, v) ∈ m.entries := by
  unfold lookup
  constructor
  · intro h
    obtain ⟨⟨k', v'⟩, hfind, hvalue⟩ := Option.map_eq_some_iff.mp h
    have hkey := List.find?_some hfind
    have hmem := List.mem_of_find?_eq_some hfind
    simp only [decide_eq_true_eq] at hkey hvalue
    rw [← hkey, ← hvalue]
    exact hmem
  · intro hmem
    cases hfind : m.entries.find? (fun entry => entry.1 = k) with
    | none => simpa using List.find?_eq_none.mp hfind _ hmem
    | some entry =>
        have hkey := List.find?_some hfind
        have hmem' := List.mem_of_find?_eq_some hfind
        simp only [decide_eq_true_eq] at hkey
        rw [Option.map_some, Option.some.injEq]
        apply unique (m := m) (k := k) _ hmem
        rw [← hkey]
        exact hmem'

theorem lookup_eq_none_iff {m : OrderedMap κ α} {k : κ} :
    m.lookup k = none ↔ ∀ v, (k, v) ∉ m.entries := by
  constructor
  · intro h v hmem
    rw [lookup_eq_some_iff.mpr hmem] at h
    cases h
  · intro h
    cases hlookup : m.lookup k with
    | none => rfl
    | some v => exact absurd (lookup_eq_some_iff.mp hlookup) (h v)

theorem contains_iff {m : OrderedMap κ α} {k : κ} :
    m.contains k = true ↔ ∃ v, m.lookup k = some v := by
  rw [contains, Option.isSome_iff_exists]

@[simp] theorem lookup_empty (k : κ) : (empty : OrderedMap κ α).lookup k = none := rfl

theorem lookup_insert (m : OrderedMap κ α) (k : κ) (v : α) (k' : κ) :
    (m.insert k v).lookup k' = if k' = k then some v else m.lookup k' := by
  by_cases hkey : k' = k
  · rw [if_pos hkey, lookup_eq_some_iff, hkey]
    simp [insert]
  · rw [if_neg hkey]
    apply Option.ext
    intro w
    rw [lookup_eq_some_iff, lookup_eq_some_iff]
    simp only [insert, List.mem_append, List.mem_filter, List.mem_cons, Prod.mk.injEq,
      decide_eq_true_eq]
    rcases lt_or_gt_of_ne hkey with hlt | hgt
    · simp [hkey, hlt, hlt.not_gt]
    · simp [hkey, hgt, hgt.not_gt]

@[simp] theorem lookup_insert_self (m : OrderedMap κ α) (k : κ) (v : α) :
    (m.insert k v).lookup k = some v := by
  rw [lookup_insert, if_pos rfl]

theorem lookup_insert_of_ne (m : OrderedMap κ α) {k k' : κ} (v : α) (h : k' ≠ k) :
    (m.insert k v).lookup k' = m.lookup k' := by
  rw [lookup_insert, if_neg h]

theorem lookup_erase (m : OrderedMap κ α) (k k' : κ) :
    (m.erase k).lookup k' = if k' = k then none else m.lookup k' := by
  by_cases hkey : k' = k
  · rw [if_pos hkey, lookup_eq_none_iff]
    simp [erase, hkey]
  · rw [if_neg hkey]
    apply Option.ext
    intro w
    rw [lookup_eq_some_iff, lookup_eq_some_iff]
    simp [erase, hkey]

theorem lookup_mapValues (f : κ → α → β) (m : OrderedMap κ α) (k : κ) :
    (m.mapValues f).lookup k = (m.lookup k).map (f k) := by
  apply Option.ext
  intro w
  rw [lookup_eq_some_iff, Option.map_eq_some_iff]
  simp only [mapValues, List.mem_map, Prod.mk.injEq, Prod.exists]
  constructor
  · rintro ⟨k', v, hmem, rfl, rfl⟩
    exact ⟨v, lookup_eq_some_iff.mpr hmem, rfl⟩
  · rintro ⟨v, hlookup, rfl⟩
    exact ⟨k, v, lookup_eq_some_iff.mp hlookup, rfl, rfl⟩

theorem mem_values {m : OrderedMap κ α} {v : α} : v ∈ m.values ↔ ∃ k, m.lookup k = some v := by
  simp only [values, List.mem_map, Prod.exists, lookup_eq_some_iff]
  constructor
  · rintro ⟨k, w, hmem, rfl⟩
    exact ⟨k, hmem⟩
  · rintro ⟨k, hmem⟩
    exact ⟨k, v, hmem, rfl⟩

/-! ## Sums -/

/-- The sum of a weight over the values. -/
def weight (f : α → ℕ) (m : OrderedMap κ α) : ℕ := (m.values.map f).sum

theorem entries_perm_of_lookup {m : OrderedMap κ α} {k : κ} {v : α} (h : m.lookup k = some v) :
    m.entries.Perm ((k, v) :: (m.erase k).entries) := by
  have hmem := lookup_eq_some_iff.mp h
  have hnodup : m.entries.Nodup := m.sorted.imp (fun hlt heq => hlt.ne (congrArg Prod.fst heq))
  have hnodup' : ((k, v) :: (m.erase k).entries).Nodup := by
    rw [List.nodup_cons]
    exact ⟨by simp [erase], hnodup.filter _⟩
  rw [List.perm_ext_iff_of_nodup hnodup hnodup']
  rintro ⟨k', v'⟩
  simp only [erase, List.mem_cons, Prod.mk.injEq, List.mem_filter, decide_eq_true_eq]
  constructor
  · intro hmem'
    by_cases hkey : k' = k
    · subst hkey
      exact .inl ⟨rfl, unique hmem' hmem⟩
    · exact .inr ⟨hmem', hkey⟩
  · rintro (⟨rfl, rfl⟩ | ⟨hmem', -⟩)
    · exact hmem
    · exact hmem'

theorem weight_of_lookup {m : OrderedMap κ α} {k : κ} {v : α} (f : α → ℕ)
    (h : m.lookup k = some v) : m.weight f = f v + (m.erase k).weight f := by
  have hperm := (((entries_perm_of_lookup h).map Prod.snd).map f).sum_eq
  simpa [weight, values] using hperm

theorem erase_of_lookup_none {m : OrderedMap κ α} {k : κ} (h : m.lookup k = none) :
    m.erase k = m := by
  have hentries : (m.erase k).entries = m.entries := by
    unfold erase
    rw [List.filter_eq_self]
    rintro ⟨k', v⟩ hmem
    rw [lookup_eq_none_iff] at h
    simp only [decide_eq_true_eq]
    rintro rfl
    exact h v hmem
  cases m
  simpa [erase] using hentries

theorem erase_insert (m : OrderedMap κ α) (k : κ) (v : α) : (m.insert k v).erase k = m.erase k := by
  have hentries : ((m.insert k v).erase k).entries = (m.erase k).entries := by
    apply List.Perm.eq_of_pairwise (fun a b _ _ hab hba => absurd (hab.trans hba) (lt_irrefl _))
      ((m.insert k v).erase k).sorted (m.erase k).sorted
    have hnodup (m' : OrderedMap κ α) : m'.entries.Nodup :=
      m'.sorted.imp (fun hlt heq => hlt.ne (congrArg Prod.fst heq))
    rw [List.perm_ext_iff_of_nodup (hnodup _) (hnodup _)]
    rintro ⟨k', v'⟩
    rw [← lookup_eq_some_iff, ← lookup_eq_some_iff, lookup_erase, lookup_erase]
    by_cases hkey : k' = k
    · rw [if_pos hkey, if_pos hkey]
    · rw [if_neg hkey, if_neg hkey, lookup_insert_of_ne m v hkey]
  generalize (m.insert k v).erase k = a at hentries ⊢
  generalize m.erase k = b at hentries ⊢
  cases a
  cases b
  cases hentries
  rfl

theorem weight_insert (m : OrderedMap κ α) (k : κ) (v : α) (f : α → ℕ) :
    (m.insert k v).weight f = f v + (m.erase k).weight f := by
  rw [weight_of_lookup f (lookup_insert_self m k v), erase_insert]

theorem weight_erase_le (m : OrderedMap κ α) (k : κ) (f : α → ℕ) :
    (m.erase k).weight f ≤ m.weight f := by
  cases h : m.lookup k with
  | none => rw [erase_of_lookup_none h]
  | some v =>
      rw [weight_of_lookup f h]
      exact Nat.le_add_left _ _

theorem weight_mapValues (f : β → ℕ) (g : κ → α → β) (m : OrderedMap κ α) (f' : α → ℕ)
    (h : ∀ k v, f (g k v) = f' v) : (m.mapValues g).weight f = m.weight f' := by
  simp only [weight, values, mapValues, List.map_map]
  congr 1
  apply List.map_congr_left
  intro entry _
  exact h _ _

/-- The number of entries. -/
def size (m : OrderedMap κ α) : ℕ := m.entries.length

theorem size_eq_weight (m : OrderedMap κ α) : m.size = m.weight (fun _ => 1) := by
  simp only [size, weight, values, List.map_map, Function.comp_def, List.map_const',
    List.sum_replicate, smul_eq_mul, mul_one]

end OrderedMap
