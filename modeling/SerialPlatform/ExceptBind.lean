import Mathlib.Tactic

/-!
# Fallible steps in sequence

What a sequence of fallible steps tells about its steps when it succeeds.
-/

namespace Except

variable {ε α β : Type}

theorem exists_of_bind_ok {x : Except ε α} {f : α → Except ε β} {b : β}
    (h : (x >>= f) = .ok b) : ∃ a, x = .ok a ∧ f a = .ok b := by
  cases x with
  | error e => cases h
  | ok a => exact ⟨a, rfl, h⟩

theorem ok_bind (a : α) (f : α → Except ε β) : ((.ok a : Except ε α) >>= f) = f a := rfl

theorem error_bind (e : ε) (f : α → Except ε β) :
    ((.error e : Except ε α) >>= f) = .error e := rfl

/-- A list of steps succeeds when each of them does. -/
theorem exists_mapM_ok {f : α → Except ε β} {items : List α}
    (h : ∀ item ∈ items, ∃ b, f item = .ok b) : ∃ results, items.mapM f = .ok results := by
  induction items with
  | nil => exact ⟨[], rfl⟩
  | cons item items ih =>
      obtain ⟨b, hb⟩ := h item List.mem_cons_self
      obtain ⟨results, hresults⟩ := ih fun other hother => h other (List.mem_cons_of_mem _ hother)
      exact ⟨b :: results, by rw [List.mapM_cons, hb, ok_bind, hresults]; rfl⟩

/-- What a list of steps gives when it succeeds. -/
theorem forall₂_of_mapM_ok {f : α → Except ε β} {items : List α} {results : List β}
    (h : items.mapM f = .ok results) : List.Forall₂ (fun item b => f item = .ok b) items results := by
  induction items generalizing results with
  | nil =>
      cases h
      exact List.Forall₂.nil
  | cons item items ih =>
      rw [List.mapM_cons] at h
      obtain ⟨b, hb, h⟩ := exists_of_bind_ok h
      obtain ⟨rest, hrest, h⟩ := exists_of_bind_ok h
      cases h
      exact List.Forall₂.cons hb (ih hrest)

end Except

/-! ## Steps with a state -/

namespace StatefulSteps

variable {ε σ α β : Type}

/-- Whatever state the computation starts in, what it returns satisfies `P`. -/
structure Gives (m : StateT σ (Except ε) α) (P : α → Prop) : Prop where
  holds : ∀ s a s', m s = .ok (a, s') → P a

variable {m : StateT σ (Except ε) α} {P P' : α → Prop} {Q : β → Prop}

theorem gives_any : Gives m fun _ => True := ⟨fun _ _ _ _ => trivial⟩

theorem gives_pure {a : α} (h : P a) : Gives (pure a : StateT σ (Except ε) α) P := by
  constructor
  intro s b s' hrun
  cases hrun
  exact h

theorem gives_throw {e : ε} : Gives (throw e : StateT σ (Except ε) α) P := by
  constructor
  intro s a s' hrun
  cases hrun

/-- A computation which fails in every state. -/
theorem gives_error (h : ∀ s, ∃ e, m s = .error e) : Gives m P := by
  constructor
  intro s a s' hrun
  obtain ⟨e, he⟩ := h s
  rw [he] at hrun
  cases hrun

theorem gives_lift {result : Except ε α} (h : ∀ a, result = .ok a → P a) :
    Gives (liftM result : StateT σ (Except ε) α) P := by
  constructor
  intro s a s' hrun
  cases result with
  | error e => cases hrun
  | ok value =>
      cases hrun
      exact h _ rfl

theorem Gives.mono (h : Gives m P) (hP : ∀ a, P a → P' a) : Gives m P' :=
  ⟨fun s a s' hrun => hP a (h.holds s a s' hrun)⟩

theorem Gives.and (h : Gives m P) (h' : Gives m P') : Gives m fun a => P a ∧ P' a :=
  ⟨fun s a s' hrun => ⟨h.holds s a s' hrun, h'.holds s a s' hrun⟩⟩

theorem Gives.bind {f : α → StateT σ (Except ε) β} (h : Gives m P)
    (hf : ∀ a, P a → Gives (f a) Q) : Gives (m >>= f) Q := by
  constructor
  intro s b s' hrun
  obtain ⟨⟨a, s₁⟩, hm, hrest⟩ := Except.exists_of_bind_ok hrun
  exact (hf a (h.holds s a s₁ hm)).holds s₁ b s' hrest

theorem bind_of_ok {f : α → StateT σ (Except ε) β} {s s' : σ} {a : α} (h : m s = .ok (a, s')) :
    (m >>= f) s = f a s' := by
  change (m s >>= fun result => f result.1 result.2) = f a s'
  rw [h]
  rfl

theorem lift_bind (result : Except ε α) (f : α → StateT σ (Except ε) β) (s : σ) :
    ((liftM result : StateT σ (Except ε) α) >>= f) s = result >>= fun a => f a s := by
  cases result <;> rfl

theorem gives_ite {c : Prop} [Decidable c] {m' : StateT σ (Except ε) α} (h : c → Gives m P)
    (h' : ¬c → Gives m' P) : Gives (if c then m else m') P := by
  by_cases hc : c
  · rw [if_pos hc]
    exact h hc
  · rw [if_neg hc]
    exact h' hc

end StatefulSteps
