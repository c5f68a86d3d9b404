import Mathlib.Tactic

/-!
# Computations on a state which may fail

`Ends m s Q E` says how the computation `m` ends when it is started in `s`: with
a value and a state which satisfy `Q`, or with an error and a state which satisfy
`E`.  An error keeps the changes which were made before it.  The rules compute
the condition of a program from those of its parts.
-/

namespace FallibleState

variable {ε σ α β : Type}

/-- How a computation ends from a state. -/
def Ends (m : ExceptT ε (StateM σ) α) (s : σ) (Q : α → σ → Prop) (E : ε → σ → Prop) : Prop :=
  match m.run.run s with
  | (.ok a, s') => Q a s'
  | (.error e, s') => E e s'

variable {m : ExceptT ε (StateM σ) α} {s : σ} {Q Q' : α → σ → Prop} {E E' : ε → σ → Prop}

@[simp] theorem ends_pure (a : α) : Ends (pure a : ExceptT ε (StateM σ) α) s Q E ↔ Q a s := Iff.rfl

@[simp] theorem ends_throw (e : ε) : Ends (throw e : ExceptT ε (StateM σ) α) s Q E ↔ E e s := Iff.rfl

@[simp] theorem ends_get {R : σ → σ → Prop} :
    Ends (get : ExceptT ε (StateM σ) σ) s R E ↔ R s s := Iff.rfl

@[simp] theorem ends_modify {R : PUnit → σ → Prop} (f : σ → σ) :
    Ends (modify f : ExceptT ε (StateM σ) PUnit) s R E ↔ R ⟨⟩ (f s) := Iff.rfl

@[simp] theorem ends_bind (f : α → ExceptT ε (StateM σ) β) {R : β → σ → Prop} :
    Ends (m >>= f) s R E ↔ Ends m s (fun a s' => Ends (f a) s' R E) E := by
  have hrun : (m >>= f).run.run s =
      match m.run.run s with
      | (.ok a, s') => (f a).run.run s'
      | (.error e, s') => (.error e, s') := by
    change (ExceptT.bind m f).run.run s = _
    simp only [ExceptT.bind, ExceptT.run, ExceptT.mk, StateT.run, bind, StateT.bind]
    rcases m s with ⟨a | e, s'⟩ <;> rfl
  unfold Ends
  rw [hrun]
  rcases m.run.run s with ⟨a | e, s'⟩ <;> rfl

@[simp] theorem ends_discard {R : PUnit → σ → Prop} :
    Ends (discard m) s R E ↔ Ends m s (fun _ s' => R ⟨⟩ s') E := by
  change Ends (m >>= fun _ => pure PUnit.unit) s R E ↔ _
  rw [ends_bind]
  rfl

@[simp] theorem ends_ite {c : Prop} [Decidable c] {m' : ExceptT ε (StateM σ) α} :
    Ends (if c then m else m') s Q E ↔ if c then Ends m s Q E else Ends m' s Q E := by
  by_cases h : c
  · rw [if_pos h, if_pos h]
  · rw [if_neg h, if_neg h]

theorem Ends.mono (h : Ends m s Q E) (hQ : ∀ a s', Q a s' → Q' a s')
    (hE : ∀ e s', E e s' → E' e s') : Ends m s Q' E' := by
  unfold Ends at h ⊢
  rcases hrun : m.run.run s with ⟨a | e, s'⟩
  · rw [hrun] at h
    exact hE a s' h
  · rw [hrun] at h
    exact hQ e s' h

theorem Ends.and (h : Ends m s Q E) (h' : Ends m s Q' E') :
    Ends m s (fun a s' => Q a s' ∧ Q' a s') (fun e s' => E e s' ∧ E' e s') := by
  unfold Ends at h h' ⊢
  rcases hrun : m.run.run s with ⟨a | e, s'⟩
  · rw [hrun] at h h'
    exact ⟨h, h'⟩
  · rw [hrun] at h h'
    exact ⟨h, h'⟩

/-- Sequencing, from what is known of the first part. -/
theorem Ends.bind {f : α → ExceptT ε (StateM σ) β} {R : β → σ → Prop} (h : Ends m s Q E)
    (hf : ∀ a s', Q a s' → Ends (f a) s' R E') (hE : ∀ e s', E e s' → E' e s') :
    Ends (m >>= f) s R E' :=
  (ends_bind f).mpr (h.mono hf hE)

theorem Ends.run {a : α} {s' : σ} (h : Ends m s Q E) (hrun : m.run.run s = (.ok a, s')) :
    Q a s' := by
  unfold Ends at h
  rw [hrun] at h
  exact h

theorem Ends.run_error {e : ε} {s' : σ} (h : Ends m s Q E)
    (hrun : m.run.run s = (.error e, s')) : E e s' := by
  unfold Ends at h
  rw [hrun] at h
  exact h

/-- A computation which only ends with a value. -/
theorem Ends.returns (h : Ends m s Q (fun _ _ => False)) :
    ∃ a s', m.run.run s = (.ok a, s') ∧ Q a s' := by
  unfold Ends at h
  rcases hrun : m.run.run s with ⟨a | e, s'⟩
  · rw [hrun] at h
    exact h.elim
  · rw [hrun] at h
    exact ⟨e, s', rfl, h⟩

theorem Ends.of_run {a : α} {s' : σ} (hrun : m.run.run s = (.ok a, s')) (h : Q a s') :
    Ends m s Q E := by
  unfold Ends
  rw [hrun]
  exact h

/-! ## Computations which keep a relation -/

/-- However the computation ends, its last state is related to its first. -/
def Keeps (R : σ → σ → Prop) (m : ExceptT ε (StateM σ) α) : Prop :=
  ∀ s, Ends m s (fun _ s' => R s s') (fun _ s' => R s s')

namespace Keeps

variable {R : σ → σ → Prop}

theorem of_pure [Std.Refl R] (a : α) : Keeps R (pure a : ExceptT ε (StateM σ) α) :=
  fun s => Std.Refl.refl s

theorem of_throw [Std.Refl R] (e : ε) : Keeps R (throw e : ExceptT ε (StateM σ) α) :=
  fun s => Std.Refl.refl s

theorem of_get [Std.Refl R] : Keeps R (get : ExceptT ε (StateM σ) σ) :=
  fun s => Std.Refl.refl s

theorem of_modify {f : σ → σ} (h : ∀ s, R s (f s)) :
    Keeps R (modify f : ExceptT ε (StateM σ) PUnit) :=
  fun s => h s

theorem of_bind [IsTrans σ R] {f : α → ExceptT ε (StateM σ) β} (hm : Keeps R m)
    (hf : ∀ a, Keeps R (f a)) : Keeps R (m >>= f) := by
  intro s
  refine (hm s).bind (fun a s' h => ?_) (fun _ _ h => h)
  exact (hf a s').mono (fun _ _ h' => IsTrans.trans _ _ _ h h')
    (fun _ _ h' => IsTrans.trans _ _ _ h h')

theorem of_ite {c : Prop} [Decidable c] {m' : ExceptT ε (StateM σ) α} (h : Keeps R m)
    (h' : Keeps R m') : Keeps R (if c then m else m') := by
  by_cases hc : c
  · rw [if_pos hc]
    exact h
  · rw [if_neg hc]
    exact h'

end Keeps

end FallibleState
