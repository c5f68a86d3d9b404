import Mathlib.Data.List.AList
import Mathlib.Tactic

/-!
# Stores of files

A directory tree as the finite map of its files to their bytes.  A file is renamed
over whatever carries the new name, and the size of a store counts the files which a
predicate selects.
-/

/-- The files of a tree by their paths. -/
abbrev FileStore (κ : Type) := AList (fun _ : κ => List UInt8)

namespace FileStore

variable {κ : Type} [DecidableEq κ]

/-- The file `source`, if there is one, takes the name `target`. -/
def rename (files : FileStore κ) (source target : κ) : FileStore κ :=
  match files.lookup source with
  | none => files
  | some bytes => (files.erase source).insert target bytes

/-- The paths of the files which a predicate selects. -/
def select (files : FileStore κ) (p : κ → Bool) : List κ := files.keys.filter p

/-- The number of bytes in the files which count. -/
def size (counts : κ → Bool) (files : FileStore κ) : ℕ :=
  (files.entries.map fun file => if counts file.1 then file.2.length else 0).sum

theorem mem_select {files : FileStore κ} {p : κ → Bool} {path : κ} :
    path ∈ files.select p ↔ (∃ bytes, files.lookup path = some bytes) ∧ p path = true := by
  rw [select, List.mem_filter, ← AList.mem_keys, ← AList.lookup_isSome, Option.isSome_iff_exists]

theorem select_nodup (files : FileStore κ) (p : κ → Bool) : (files.select p).Nodup :=
  files.keys_nodup.filter _

theorem lookup_rename {files : FileStore κ} {source target path : κ} {bytes : List UInt8}
    (hsource : files.lookup source = some bytes) :
    (files.rename source target).lookup path =
      if path = target then some bytes else if path = source then none else files.lookup path := by
  unfold rename
  rw [hsource]
  by_cases htarget : path = target
  · rw [if_pos htarget, htarget]
    exact AList.lookup_insert _
  · rw [if_neg htarget, AList.lookup_insert_ne htarget]
    by_cases hpath : path = source
    · rw [if_pos hpath, hpath]
      exact AList.lookup_erase _ _
    · rw [if_neg hpath]
      exact AList.lookup_erase_ne hpath

theorem lookup_insert_eq (files : FileStore κ) (path other : κ) (bytes : List UInt8) :
    AList.lookup other (files.insert path bytes) =
      if other = path then some bytes else files.lookup other := by
  by_cases h : other = path
  · rw [if_pos h, h]
    exact AList.lookup_insert _
  · rw [if_neg h]
    exact AList.lookup_insert_ne h

theorem lookup_erase_eq (files : FileStore κ) (path other : κ) :
    AList.lookup other (files.erase path) = if other = path then none else files.lookup other := by
  by_cases h : other = path
  · rw [if_pos h, h]
    exact AList.lookup_erase _ _
  · rw [if_neg h]
    exact AList.lookup_erase_ne h

/-! ## Sizes -/

section

variable (counts : κ → Bool)

/-- What one file contributes to the size. -/
def weight (path : κ) (bytes : List UInt8) : ℕ := if counts path then bytes.length else 0

theorem size_erase {files : FileStore κ} {path : κ} {bytes : List UInt8}
    (hpath : files.lookup path = some bytes) :
    size counts (files.erase path) + weight counts path bytes = size counts files := by
  have hkeys : path ∈ files.entries.keys :=
    AList.lookup_isSome.mp (Option.isSome_iff_exists.mpr ⟨bytes, hpath⟩)
  obtain ⟨found, front, back, -, hsplit, herase⟩ := List.exists_of_kerase hkeys
  have hmem : (⟨path, found⟩ : Sigma fun _ : κ => List UInt8) ∈ files.entries := by
    rw [hsplit]
    exact List.mem_append_right _ List.mem_cons_self
  have hfound : found = bytes := by
    have hlookup : files.lookup path = some found := AList.mem_lookup_iff.mpr hmem
    rw [hpath, Option.some.injEq] at hlookup
    exact hlookup.symm
  have hentries : (files.erase path).entries = front ++ back := herase
  unfold size
  rw [hentries, hsplit, hfound]
  simp only [List.map_append, List.map_cons, List.sum_append, List.sum_cons, weight]
  omega

theorem size_erase_absent {files : FileStore κ} {path : κ} (hpath : files.lookup path = none) :
    size counts (files.erase path) = size counts files := by
  have hentries : (files.erase path).entries = files.entries :=
    List.kerase_of_notMem_keys (AList.lookup_eq_none.mp hpath)
  unfold size
  rw [hentries]

theorem size_erase_le (files : FileStore κ) (path : κ) :
    size counts (files.erase path) ≤ size counts files := by
  cases hpath : files.lookup path with
  | none => rw [size_erase_absent counts hpath]
  | some bytes => exact Nat.le_of_add_right_le (size_erase counts hpath).le

theorem size_insert (files : FileStore κ) (path : κ) (bytes : List UInt8) :
    size counts (files.insert path bytes) =
      weight counts path bytes + size counts (files.erase path) := by
  unfold size
  rw [AList.entries_insert]
  rfl

theorem size_insert_new {files : FileStore κ} {path : κ} (hpath : files.lookup path = none)
    (bytes : List UInt8) :
    size counts (files.insert path bytes) = size counts files + weight counts path bytes := by
  rw [size_insert, size_erase_absent counts hpath, Nat.add_comm]

/-- A file is written over. -/
theorem size_insert_over {files : FileStore κ} {path : κ} {old : List UInt8}
    (hpath : files.lookup path = some old) (bytes : List UInt8) :
    size counts (files.insert path bytes) + weight counts path old =
      size counts files + weight counts path bytes := by
  rw [size_insert, ← size_erase counts hpath]
  omega

/-- A file keeps its weight when it is renamed to a fresh name which counts alike. -/
theorem size_rename {files : FileStore κ} {source target : κ} {bytes : List UInt8}
    (hsource : files.lookup source = some bytes) (htarget : files.lookup target = none)
    (hcounts : counts source = counts target) :
    size counts (files.rename source target) = size counts files := by
  have hfresh : (files.erase source).lookup target = none := by
    rw [lookup_erase_eq, htarget, ite_self]
  have hweight : weight counts target bytes = weight counts source bytes := by
    unfold weight
    rw [hcounts]
  unfold rename
  rw [hsource]
  simp only
  rw [size_insert_new counts hfresh, hweight, size_erase counts hsource]

end

end FileStore
