import Mathlib.Tactic

/-!
# Runs of a partial step function

A step function tells what an event makes of a state, if the event can come there.  A run
is admitted when a condition on the event and on the state before it holds at every step;
what holds at the start and is kept by every admitted step holds wherever such a run leads.
-/

namespace GuardedRuns

variable {ε σ : Type*} {step : ε → σ → Option σ} {admits : ε → σ → Prop}

inductive Reaches (step : ε → σ → Option σ) (admits : ε → σ → Prop) (start : σ) : σ → Prop
  | refl : Reaches step admits start start
  | tail {state next : σ} {event : ε} (before : Reaches step admits start state)
      (admitted : admits event state) (stepped : step event state = some next) :
      Reaches step admits start next

theorem Reaches.invariant {holds : σ → Prop} {start state : σ}
    (h : Reaches step admits start state) (hstart : holds start)
    (hstep : ∀ {event state next}, holds state → admits event state →
      step event state = some next → holds next) :
    holds state := by
  induction h with
  | refl => exact hstart
  | tail _ hadmitted hstepped ih => exact hstep ih hadmitted hstepped

theorem Reaches.mono {admits' : ε → σ → Prop} {start state : σ}
    (h : Reaches step admits start state)
    (hadmits : ∀ {event state}, admits event state → admits' event state) :
    Reaches step admits' start state := by
  induction h with
  | refl => exact .refl
  | tail _ hadmitted hstepped ih => exact ih.tail (hadmits hadmitted) hstepped

theorem Reaches.trans {start middle state : σ} (h : Reaches step admits start middle)
    (h' : Reaches step admits middle state) : Reaches step admits start state := by
  induction h' with
  | refl => exact h
  | tail _ hadmitted hstepped ih => exact ih.tail hadmitted hstepped

/-- The state after these events, if each of them can come. -/
def follow (step : ε → σ → Option σ) : List ε → σ → Option σ
  | [], state => some state
  | event :: events, state => (step event state).bind (follow step events)

/-- Every event of the list is admitted where it comes. -/
def Admitted (step : ε → σ → Option σ) (admits : ε → σ → Prop) : List ε → σ → Prop
  | [], _ => True
  | event :: events, state =>
      admits event state ∧
        match step event state with
        | none => False
        | some next => Admitted step admits events next

instance Admitted.decidable [∀ event state, Decidable (admits event state)] :
    ∀ (events : List ε) (state : σ), Decidable (Admitted step admits events state)
  | [], _ => isTrue trivial
  | event :: events, state => by
      unfold Admitted
      cases step event state with
      | none => exact inferInstance
      | some next =>
          have := Admitted.decidable events next
          exact inferInstanceAs (Decidable (_ ∧ _))

theorem reaches_of_follow {events : List ε} {start state : σ}
    (hadmitted : Admitted step admits events start)
    (hfollow : follow step events start = some state) : Reaches step admits start state := by
  induction events generalizing start with
  | nil =>
      have hstate : start = state := by simpa [follow] using hfollow
      rw [hstate]
      exact .refl
  | cons event events ih =>
      unfold Admitted at hadmitted
      cases hstep : step event start with
      | none => simp [hstep] at hadmitted
      | some next =>
          simp only [hstep] at hadmitted
          have hrest : follow step events next = some state := by
            simpa [follow, hstep] using hfollow
          have hfirst : Reaches step admits start next := Reaches.refl.tail hadmitted.1 hstep
          exact hfirst.trans (ih hadmitted.2 hrest)

/-- Without a condition every run is admitted. -/
theorem reaches_any {events : List ε} {start state : σ}
    (hfollow : follow step events start = some state) :
    Reaches step (fun _ _ => True) start state := by
  induction events generalizing start with
  | nil =>
      have hstate : start = state := by simpa [follow] using hfollow
      rw [hstate]
      exact .refl
  | cons event events ih =>
      cases hstep : step event start with
      | none => simp [follow, hstep] at hfollow
      | some next =>
          have hrest : follow step events next = some state := by
            simpa [follow, hstep] using hfollow
          have hfirst : Reaches step (fun _ _ => True) start next :=
            Reaches.refl.tail trivial hstep
          exact hfirst.trans (ih hrest)

/-- Where a step which is not admitted ends in no good state, and admitted ones keep a stronger
property, the states on the way are good if and only if every event is admitted. -/
theorem everywhere_iff_admitted {invariant good : σ → Prop} {events : List ε} {start : σ}
    (hgood : ∀ {state}, invariant state → good state)
    (hstep : ∀ {event state next}, invariant state → step event state = some next →
      (admits event state → invariant next) ∧ (¬ admits event state → ¬ good next))
    (hstart : invariant start) (hfollow : (follow step events start).isSome) :
    (∀ taken, taken <+: events → ∀ state, follow step taken start = some state → good state) ↔
      Admitted step admits events start := by
  induction events generalizing start with
  | nil =>
      simp only [List.prefix_nil, Admitted, iff_true]
      rintro taken rfl state hstate
      cases hstate
      exact hgood hstart
  | cons event events ih =>
      cases hnext : step event start with
      | none => simp [follow, hnext] at hfollow
      | some next =>
          have hrest : (follow step events next).isSome := by simpa [follow, hnext] using hfollow
          have hafter (taken : List ε) (state : σ) :
              follow step (event :: taken) start = some state ↔ follow step taken next = some state := by
            simp [follow, hnext]
          simp only [Admitted, hnext]
          constructor
          · intro hall
            have hnextGood : good next :=
              hall [event] (List.prefix_append [event] events) next ((hafter [] next).mpr rfl)
            have hadmitted : admits event start := by
              by_contra hnot
              exact (hstep hstart hnext).2 hnot hnextGood
            refine ⟨hadmitted, (ih ((hstep hstart hnext).1 hadmitted) hrest).mp ?_⟩
            intro taken htaken state hstate
            exact hall (event :: taken) (List.prefix_cons_inj event |>.mpr htaken) state
              ((hafter taken state).mpr hstate)
          · rintro ⟨hadmitted, hlater⟩ taken htaken state hstate
            cases taken with
            | nil =>
                cases hstate
                exact hgood hstart
            | cons first taken =>
                obtain ⟨rfl, hlast⟩ := List.cons_prefix_cons.mp htaken
                exact (ih ((hstep hstart hnext).1 hadmitted) hrest).mpr hlater taken hlast state
                  ((hafter taken state).mp hstate)

end GuardedRuns
