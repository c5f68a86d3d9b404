import SerialPlatform.ExceptBind

/-!
# Readers which may fail

A reader takes in one element after the other, keeps a state, shows elements of its own,
and may fail.  How its input is cut into parts makes no difference.
-/

namespace Transducer

variable {α β σ ε : Type} (step : σ → α → Except ε (List β × σ))

/-- The reader over a list, with all that it shows. -/
def run : σ → List α → Except ε (List β × σ)
  | state, [] => .ok ([], state)
  | state, first :: rest =>
      match step state first with
      | .error e => .error e
      | .ok (shown, state) => (run state rest).map fun result => (shown ++ result.1, result.2)

variable {step} {state state' : σ} {shown : List β} {first : α} {before rest whole : List α}

theorem run_cons_ok (h : step state first = .ok (shown, state')) :
    run step state (first :: rest) =
      (run step state' rest).map fun result => (shown ++ result.1, result.2) := by
  rw [run, h]

theorem run_cons_error {e : ε} (h : step state first = .error e) :
    run step state (first :: rest) = .error e := by
  rw [run, h]

theorem run_singleton : run step state [first] = step state first := by
  cases hstep : step state first with
  | error e => exact run_cons_error hstep
  | ok result =>
      rw [run_cons_ok hstep, run]
      simp [Except.map]

theorem run_append (before rest : List α) (state : σ) :
    run step state (before ++ rest) =
      (run step state before) >>= fun result =>
        (run step result.2 rest).map fun other => (result.1 ++ other.1, other.2) := by
  induction before generalizing state with
  | nil =>
      rw [List.nil_append, run, Except.ok_bind]
      cases run step state rest <;> rfl
  | cons first before ih =>
      rw [List.cons_append]
      cases hstep : step state first with
      | error e => rw [run_cons_error hstep, run_cons_error hstep, Except.error_bind]
      | ok result =>
          rw [run_cons_ok hstep, run_cons_ok hstep, ih]
          cases run step result.2 before with
          | error e => rfl
          | ok middle =>
              change Except.map _ (Except.map _ (run step middle.2 rest)) = Except.map _ _
              cases run step middle.2 rest with
              | error e => rfl
              | ok last => simp [Except.map]

/-- What a reader shows of a part of its input comes first. -/
theorem run_append_ok (h : run step state before = .ok (shown, state')) :
    run step state (before ++ rest) =
      (run step state' rest).map fun other => (shown ++ other.1, other.2) := by
  rw [run_append, h, Except.ok_bind]

theorem run_append_error {e : ε} (h : run step state before = .error e) :
    run step state (before ++ rest) = .error e := by
  rw [run_append, h, Except.error_bind]

/-- Of two parts from the begin, the reader shows the one before the other. -/
theorem shown_comparable {first second : List α} {shown shown' : List β} {after after' : σ}
    (hfirst : first <+: whole) (hsecond : second <+: whole)
    (hrun : run step state first = .ok (shown, after))
    (hrun' : run step state second = .ok (shown', after')) :
    shown <+: shown' ∨ shown' <+: shown := by
  have hlonger : ∀ {a b : List α} {x y : List β} {s t : σ}, a <+: b →
      run step state a = .ok (x, s) → run step state b = .ok (y, t) → x <+: y := by
    rintro a _ x y s t ⟨more, rfl⟩ ha hb
    rw [run_append_ok ha] at hb
    cases hmore : run step s more with
    | error e =>
        rw [hmore] at hb
        cases hb
    | ok other =>
        rw [hmore] at hb
        exact ⟨other.1, congrArg Prod.fst (Except.ok.inj hb)⟩
  cases List.prefix_or_prefix_of_prefix hfirst hsecond with
  | inl hle => exact .inl (hlonger hle hrun hrun')
  | inr hle => exact .inr (hlonger hle hrun' hrun)

end Transducer
