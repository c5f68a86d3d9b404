import Mathlib.Tactic

/-!
# Replacing a file atomically

`atomic_write` fills a private temporary file beside the target, renames it over
the target and then synchronizes the directory.  A failure before the rename
leaves the target as it was; a failure after it is reported although the new
contents are already in place.
-/

namespace SerialPlatform

/-- The steps of `atomic_write`, in their order. -/
inductive WriteStep where
  | createTemporary
  | writeAll
  | syncAll
  | replaceFile
  | syncParentDirectory
  deriving DecidableEq

/-- The step at which the file system refuses, and what it reports. -/
structure WriteFault where
  step : WriteStep
  error : String
  deriving DecidableEq

/-- The result of one call together with the target's contents afterwards. -/
def atomicWrite {α : Type} (target : Option α) (contents : α) :
    Option WriteFault → Except String Unit × Option α
  | none => (.ok (), some contents)
  | some fault =>
      match fault.step with
      | .syncParentDirectory => (.error fault.error, some contents)
      | _ => (.error fault.error, target)

@[simp] theorem atomicWrite_none {α : Type} (target : Option α) (contents : α) :
    atomicWrite target contents none = (.ok (), some contents) := rfl

theorem atomicWrite_ok {α : Type} {target : Option α} {contents : α}
    {fault : Option WriteFault} (hok : (atomicWrite target contents fault).1 = .ok ()) :
    fault = none := by
  cases fault with
  | none => rfl
  | some fault =>
      obtain ⟨step, error⟩ := fault
      cases step <;> simp [atomicWrite] at hok

theorem atomicWrite_target {α : Type} (target : Option α) (contents : α)
    (fault : Option WriteFault) :
    (atomicWrite target contents fault).2 = target ∨
      (atomicWrite target contents fault).2 = some contents := by
  cases fault with
  | none => exact .inr rfl
  | some fault =>
      obtain ⟨step, error⟩ := fault
      cases step
      case syncParentDirectory => exact .inr rfl
      all_goals exact .inl rfl

end SerialPlatform
