import Mathlib.Tactic

/-!
# Monitors of traces

A monitor reads a trace and keeps a state.  Of every entry it says whether the
entry may follow what was read before it.  A system whose states carry their
trace keeps to a monitor when each of its steps does.
-/

/-- A reader of traces which allows an entry or not. -/
structure TraceMonitor (σ α : Type*) where
  start : σ
  step : σ → α → σ
  Allows : σ → α → Prop

namespace TraceMonitor

variable {σ α V : Type*} (m : TraceMonitor σ α)

/-- The state once a trace is read. -/
def after (state : σ) (trace : List α) : σ := trace.foldl m.step state

/-- Every entry may follow what is before it. -/
def AllowsAll : σ → List α → Prop
  | _, [] => True
  | state, entry :: rest => m.Allows state entry ∧ AllowsAll (m.step state entry) rest

def Accepts (trace : List α) : Prop := m.AllowsAll m.start trace

variable {m} {state : σ} {entry : α} {before rest trace : List α}

theorem after_append : m.after state (before ++ rest) = m.after (m.after state before) rest :=
  List.foldl_append

theorem after_concat : m.after state (before ++ [entry]) = m.step (m.after state before) entry :=
  List.foldl_concat ..

theorem allowsAll_append :
    m.AllowsAll state (before ++ rest) ↔
      m.AllowsAll state before ∧ m.AllowsAll (m.after state before) rest := by
  induction before generalizing state with
  | nil => simp [AllowsAll, after]
  | cons first before ih =>
      rw [List.cons_append, AllowsAll, AllowsAll, ih, and_assoc]
      rfl

/-- What an accepted trace says of one of its entries. -/
theorem Accepts.allows (h : m.Accepts (before ++ entry :: rest)) :
    m.Allows (m.after m.start before) entry :=
  (allowsAll_append.mp h).2.1

theorem Accepts.of_append (h : m.Accepts (before ++ rest)) : m.Accepts before :=
  (allowsAll_append.mp h).1

/-! ## Stretches of a trace -/

variable (m)

/-- From related states the stretch is read, and it leads to related states. -/
def Reads (P : σ → Prop) (stretch : List α) (Q : σ → Prop) : Prop :=
  ∀ state, P state → m.AllowsAll state stretch ∧ Q (m.after state stretch)

variable {m} {P Q R : σ → Prop}

theorem Reads.nil (h : ∀ state, P state → Q state) : m.Reads P [] Q :=
  fun state hstate => ⟨trivial, h state hstate⟩

theorem Reads.append (hbefore : m.Reads P before Q) (hrest : m.Reads Q rest R) :
    m.Reads P (before ++ rest) R := by
  intro state hstate
  obtain ⟨hallowed, hmiddle⟩ := hbefore state hstate
  obtain ⟨hthen, hend⟩ := hrest _ hmiddle
  rw [after_append]
  exact ⟨allowsAll_append.mpr ⟨hallowed, hthen⟩, hend⟩

theorem Reads.one (hallows : ∀ state, P state → m.Allows state entry)
    (hstep : ∀ state, P state → Q (m.step state entry)) : m.Reads P [entry] Q :=
  fun state hstate => ⟨⟨hallows state hstate, trivial⟩, hstep state hstate⟩

/-- Entries of which the monitor takes no notice. -/
def Ignores (m : TraceMonitor σ α) (entry : α) : Prop :=
  ∀ state, m.Allows state entry ∧ m.step state entry = state

theorem Reads.ignored {stretch : List α} (hignored : ∀ entry ∈ stretch, m.Ignores entry)
    (h : ∀ state, P state → Q state) : m.Reads P stretch Q := by
  induction stretch with
  | nil => exact .nil h
  | cons first stretch ih =>
      have hfirst := hignored first List.mem_cons_self
      have hstretch := ih fun entry hmem => hignored entry (List.mem_cons_of_mem _ hmem)
      have hread : m.Reads P [first] P := by
        refine .one (fun state _ => (hfirst state).1) fun state hstate => ?_
        rw [(hfirst state).2]
        exact hstate
      exact hread.append hstretch

/-! ## Systems -/

section Systems

variable (m) (trace : V → List α)

/-- A step of the system appends a stretch which the monitor reads. -/
def Carries (P Q : V → σ → Prop) (v w : V) : Prop :=
  ∃ stretch, trace w = trace v ++ stretch ∧ m.Reads (P v) stretch (Q w)

/-- The monitor read the trace and is in a related state. -/
structure Follows (P : V → σ → Prop) (v : V) : Prop where
  accepts : m.Accepts (trace v)
  related : P v (m.after m.start (trace v))

variable {m trace} {u v w : V} {S T U : V → σ → Prop}

theorem Carries.trans (huv : m.Carries trace S T u v) (hvw : m.Carries trace T U v w) :
    m.Carries trace S U u w := by
  obtain ⟨first, hv, hfirst⟩ := huv
  obtain ⟨second, hw, hsecond⟩ := hvw
  exact ⟨first ++ second, by rw [hw, hv, List.append_assoc], hfirst.append hsecond⟩

theorem Carries.silent (htrace : trace w = trace v) (h : ∀ state, S v state → T w state) :
    m.Carries trace S T v w :=
  ⟨[], by rw [htrace, List.append_nil], .nil h⟩

theorem Carries.reading (entry : α) (htrace : trace w = trace v ++ [entry])
    (hallows : ∀ state, S v state → m.Allows state entry)
    (hstep : ∀ state, S v state → T w (m.step state entry)) : m.Carries trace S T v w :=
  ⟨[entry], htrace, .one hallows hstep⟩

theorem Follows.carried (h : m.Follows trace S v) (hstep : m.Carries trace S T v w) :
    m.Follows trace T w := by
  obtain ⟨stretch, htrace, hreads⟩ := hstep
  obtain ⟨hallowed, hrelated⟩ := hreads _ h.related
  refine ⟨?_, ?_⟩
  · rw [htrace]
    exact allowsAll_append.mpr ⟨h.accepts, hallowed⟩
  · rw [htrace, after_append]
    exact hrelated

/-- A system whose steps carry the relation keeps to the monitor in every run. -/
theorem Follows.run {Step : V → V → Prop} (hstep : ∀ v w, Step v w → m.Carries trace S S v w)
    (h : m.Follows trace S v) (hrun : Relation.ReflTransGen Step v w) :
    m.Follows trace S w := by
  induction hrun with
  | refl => exact h
  | tail _ hlast ih => exact ih.carried (hstep _ _ hlast)

end Systems

end TraceMonitor
