import SerialPlatform.MonitorTasks

/-!
# The retained state is loadable

Every mutation keeps the bounds which the daemon checks when it loads the state file,
and a write that fails gives back the state before it.
-/

namespace SerialPlatform.Monitor

/-! ## The bounds -/

/-- The bounds of a loaded state, and what the daemon relies on besides. -/
structure Retained (regexError : String → Option String) (state : PersistedState) : Prop where
  schema : state.schemaVersion = stateSchemaVersion
  monitors : state.monitors.size ≤ maxMonitors
  active : activeCount state ≤ maxActiveMonitors
  incidents : incidentTotal state ≤ maxIncidentsTotal
  queues : ∀ id queue, state.incidents.lookup id = some queue → queue.length ≤ maxIncidentsPerMonitor
  views : ∀ id view, state.monitors.lookup id = some view →
    view.id = id ∧ validateSpec regexError view.spec = .ok () ∧ view.gapCount ≤ u64Max
  queueOwner : ∀ id queue, state.incidents.lookup id = some queue →
    ∃ view, state.monitors.lookup id = some view
  checkpointOwner : ∀ id checkpoint, state.checkpoints.lookup id = some checkpoint →
    ∃ view, state.monitors.lookup id = some view

section
variable {regexError : String → Option String} {state : PersistedState} {id : Uuid}

theorem retained_default : Retained regexError .default := by
  constructor
  · rfl
  · decide
  · decide
  · decide
  · intro id queue h
    cases h
  · intro id view h
    cases h
  · intro id queue h
    cases h
  · intro id checkpoint h
    cases h

theorem validateSpecs_ok {views : List MonitorView}
    (h : ∀ view ∈ views, validateSpec regexError view.spec = .ok ()) :
    validateSpecs regexError views = .ok () := by
  induction views with
  | nil => rfl
  | cons view rest ih =>
      rw [validateSpecs, h view List.mem_cons_self]
      exact ih fun other hother => h other (List.mem_cons_of_mem _ hother)

theorem Retained.loads (h : Retained regexError state) :
    validateLoadedState regexError state = .ok () := by
  have hbounds : ¬ (maxMonitors < state.monitors.size ∨ maxActiveMonitors < activeCount state ∨
      maxIncidentsTotal < incidentTotal state ∨
      ∃ queue ∈ state.incidents.values, maxIncidentsPerMonitor < queue.length) := by
    rintro (hmany | hactive | htotal | ⟨queue, hqueue, hlong⟩)
    · exact absurd h.monitors (not_le.mpr hmany)
    · exact absurd h.active (not_le.mpr hactive)
    · exact absurd h.incidents (not_le.mpr htotal)
    · obtain ⟨id, hlookup⟩ := OrderedMap.mem_values.mp hqueue
      exact absurd (h.queues id queue hlookup) (not_le.mpr hlong)
  rw [validateLoadedState, if_neg (not_not.mpr h.schema), if_neg hbounds]
  apply validateSpecs_ok
  intro view hview
  obtain ⟨id, hlookup⟩ := OrderedMap.mem_values.mp hview
  exact (h.views id view hlookup).2.1

theorem validateSpec_startCursor (spec : MonitorSpec) (cursor : Option Cursor) :
    validateSpec regexError { spec with startCursor := cursor } = validateSpec regexError spec :=
  rfl

/-! ## Single changes -/

/-- The view of a known monitor is replaced. -/
theorem Retained.setView (h : Retained regexError state) {old : MonitorView} (view : MonitorView)
    (hold : state.monitors.lookup id = some old) (hid : view.id = id)
    (hspec : validateSpec regexError view.spec = .ok ()) (hgap : view.gapCount ≤ u64Max)
    (hactive : view.isRunning = true → old.isRunning = true ∨ activeCount state < maxActiveMonitors) :
    Retained regexError { state with monitors := state.monitors.insert id view } := by
  have hknown (id' : Uuid) (hsome : ∃ view', state.monitors.lookup id' = some view') :
      ∃ view', (state.monitors.insert id view).lookup id' = some view' := by
    obtain ⟨view', hview'⟩ := hsome
    by_cases hsame : id' = id
    · exact ⟨view, by rw [hsame, OrderedMap.lookup_insert_self]⟩
    · exact ⟨view', by rw [OrderedMap.lookup_insert_of_ne _ _ hsame, hview']⟩
  constructor
  · exact h.schema
  · have hsize := h.monitors
    rw [OrderedMap.size_eq_weight, OrderedMap.weight_of_lookup _ hold] at hsize
    rw [OrderedMap.size_eq_weight, OrderedMap.weight_insert]
    exact hsize
  · have hcount := h.active
    unfold activeCount at hcount hactive ⊢
    rw [OrderedMap.weight_of_lookup _ hold] at hcount hactive
    rw [OrderedMap.weight_insert]
    by_cases hrunning : view.isRunning = true
    · rw [if_pos hrunning]
      rcases hactive hrunning with hwas | hroom
      · rw [if_pos hwas] at hcount
        exact hcount
      · omega
    · rw [if_neg hrunning]
      omega
  · exact h.incidents
  · exact h.queues
  · intro id' view' hlookup
    change (state.monitors.insert id view).lookup id' = some view' at hlookup
    rw [OrderedMap.lookup_insert] at hlookup
    by_cases hsame : id' = id
    · rw [if_pos hsame, Option.some.injEq] at hlookup
      rw [← hlookup, hsame]
      exact ⟨hid, hspec, hgap⟩
    · rw [if_neg hsame] at hlookup
      exact h.views id' view' hlookup
  · intro id' queue hqueue
    exact hknown id' (h.queueOwner id' queue hqueue)
  · intro id' checkpoint hcheckpoint
    exact hknown id' (h.checkpointOwner id' checkpoint hcheckpoint)

/-- A change of a view which keeps its id, specification and activity. -/
theorem Retained.editView (h : Retained regexError state) {old : MonitorView} (view : MonitorView)
    (hold : state.monitors.lookup id = some old) (hid : view.id = old.id)
    (hspec : view.spec = old.spec) (hgap : view.gapCount ≤ u64Max)
    (hactive : view.isRunning = true → old.isRunning = true) :
    Retained regexError { state with monitors := state.monitors.insert id view } := by
  obtain ⟨hold_id, hold_spec, -⟩ := h.views id old hold
  apply h.setView view hold (hid.trans hold_id) _ hgap (fun hrunning => .inl (hactive hrunning))
  rw [hspec]
  exact hold_spec

theorem Retained.setCheckpoint (h : Retained regexError state)
    (hknown : ∃ view, state.monitors.lookup id = some view) (checkpoint : MonitorCheckpoint) :
    Retained regexError { state with checkpoints := state.checkpoints.insert id checkpoint } := by
  refine ⟨h.schema, h.monitors, h.active, h.incidents, h.queues, h.views, h.queueOwner, ?_⟩
  intro id' checkpoint' hlookup
  change (state.checkpoints.insert id checkpoint).lookup id' = some checkpoint' at hlookup
  rw [OrderedMap.lookup_insert] at hlookup
  by_cases hsame : id' = id
  · rw [hsame]
    exact hknown
  · rw [if_neg hsame] at hlookup
    exact h.checkpointOwner id' checkpoint' hlookup

theorem Retained.setQueue (h : Retained regexError state)
    (hknown : ∃ view, state.monitors.lookup id = some view) (queue : List MonitorIncident)
    (hlength : queue.length ≤ maxIncidentsPerMonitor)
    (htotal : queue.length + (state.incidents.erase id).weight List.length ≤ maxIncidentsTotal) :
    Retained regexError { state with incidents := state.incidents.insert id queue } := by
  refine ⟨h.schema, h.monitors, h.active, ?_, ?_, h.views, ?_, h.checkpointOwner⟩
  · change (state.incidents.insert id queue).weight List.length ≤ maxIncidentsTotal
    rw [OrderedMap.weight_insert]
    exact htotal
  · intro id' queue' hlookup
    change (state.incidents.insert id queue).lookup id' = some queue' at hlookup
    rw [OrderedMap.lookup_insert] at hlookup
    by_cases hsame : id' = id
    · rw [if_pos hsame, Option.some.injEq] at hlookup
      rw [← hlookup]
      exact hlength
    · rw [if_neg hsame] at hlookup
      exact h.queues id' queue' hlookup
  · intro id' queue' hlookup
    change (state.incidents.insert id queue).lookup id' = some queue' at hlookup
    rw [OrderedMap.lookup_insert] at hlookup
    by_cases hsame : id' = id
    · rw [hsame]
      exact hknown
    · rw [if_neg hsame] at hlookup
      exact h.queueOwner id' queue' hlookup

theorem incidentTotal_eq (state : PersistedState) (id : Uuid) :
    incidentTotal state = ((state.incidents.lookup id).getD []).length +
      (state.incidents.erase id).weight List.length := by
  unfold incidentTotal
  cases hlookup : state.incidents.lookup id with
  | none =>
      rw [OrderedMap.erase_of_lookup_none hlookup, Option.getD_none, List.length_nil, Nat.zero_add]
  | some queue =>
      rw [OrderedMap.weight_of_lookup _ hlookup]
      rfl

/-- The queue of a known monitor does not grow. -/
theorem Retained.shrinkQueue (h : Retained regexError state)
    (hknown : ∃ view, state.monitors.lookup id = some view) (queue : List MonitorIncident)
    (hle : queue.length ≤ ((state.incidents.lookup id).getD []).length) :
    Retained regexError { state with incidents := state.incidents.insert id queue } := by
  have htotal := h.incidents
  rw [incidentTotal_eq state id] at htotal
  apply h.setQueue hknown queue
  · cases hlookup : state.incidents.lookup id with
    | none =>
        rw [hlookup] at hle
        exact hle.trans (Nat.zero_le _)
    | some old =>
        rw [hlookup] at hle
        exact hle.trans (h.queues id old hlookup)
  · omega

theorem activeCount_removeMonitor (id : Uuid) (state : PersistedState) :
    activeCount (removeMonitor id state) ≤ activeCount state :=
  OrderedMap.weight_erase_le _ _ _

theorem Retained.remove (h : Retained regexError state) (id : Uuid) :
    Retained regexError (removeMonitor id state) := by
  have howner {α : Type} (m : OrderedMap Uuid α) (howned : ∀ id' a, m.lookup id' = some a →
      ∃ view, state.monitors.lookup id' = some view) (id' : Uuid) (a : α)
      (hlookup : (m.erase id).lookup id' = some a) :
      ∃ view, (state.monitors.erase id).lookup id' = some view := by
    rw [OrderedMap.lookup_erase] at hlookup ⊢
    by_cases hsame : id' = id
    · rw [if_pos hsame] at hlookup
      cases hlookup
    · rw [if_neg hsame] at hlookup ⊢
      exact howned id' a hlookup
  constructor
  · exact h.schema
  · have hsize := OrderedMap.weight_erase_le state.monitors id (fun _ => 1)
    rw [← OrderedMap.size_eq_weight, ← OrderedMap.size_eq_weight] at hsize
    exact hsize.trans h.monitors
  · exact (activeCount_removeMonitor id state).trans h.active
  · exact (OrderedMap.weight_erase_le _ _ _).trans h.incidents
  · intro id' queue hlookup
    change (state.incidents.erase id).lookup id' = some queue at hlookup
    rw [OrderedMap.lookup_erase] at hlookup
    by_cases hsame : id' = id
    · rw [if_pos hsame] at hlookup
      cases hlookup
    · rw [if_neg hsame] at hlookup
      exact h.queues id' queue hlookup
  · intro id' view hlookup
    change (state.monitors.erase id).lookup id' = some view at hlookup
    rw [OrderedMap.lookup_erase] at hlookup
    by_cases hsame : id' = id
    · rw [if_pos hsame] at hlookup
      cases hlookup
    · rw [if_neg hsame] at hlookup
      exact h.views id' view hlookup
  · exact howner state.incidents h.queueOwner
  · exact howner state.checkpoints h.checkpointOwner

theorem Retained.recompute (h : Retained regexError state) :
    Retained regexError (recomputeUnackedCounts state) := by
  have hknown (id' : Uuid) (hsome : ∃ view, state.monitors.lookup id' = some view) :
      ∃ view, (recomputeUnackedCounts state).monitors.lookup id' = some view := by
    obtain ⟨view, hview⟩ := hsome
    unfold recomputeUnackedCounts
    rw [OrderedMap.lookup_mapValues, hview]
    exact ⟨_, rfl⟩
  constructor
  · exact h.schema
  · have hsize : (recomputeUnackedCounts state).monitors.weight (fun _ => 1) =
        state.monitors.weight (fun _ => 1) :=
      OrderedMap.weight_mapValues _ _ _ _ (fun _ _ => rfl)
    rw [← OrderedMap.size_eq_weight, ← OrderedMap.size_eq_weight] at hsize
    exact hsize.le.trans h.monitors
  · have hcount : activeCount (recomputeUnackedCounts state) = activeCount state :=
      OrderedMap.weight_mapValues _ _ _ _ (fun _ _ => rfl)
    exact hcount.le.trans h.active
  · exact h.incidents
  · exact h.queues
  · intro id' view hlookup
    unfold recomputeUnackedCounts at hlookup
    rw [OrderedMap.lookup_mapValues, Option.map_eq_some_iff] at hlookup
    obtain ⟨old, hold, rfl⟩ := hlookup
    exact h.views id' old hold
  · intro id' queue hqueue
    exact hknown id' (h.queueOwner id' queue hqueue)
  · intro id' checkpoint hcheckpoint
    exact hknown id' (h.checkpointOwner id' checkpoint hcheckpoint)

/-! ## Pruning -/

theorem foldl_min_mem {α : Type} (before : α → α → Bool) (rest : List α) (least : α) :
    rest.foldl (fun least next => if before next least then next else least) least ∈
      least :: rest := by
  induction rest generalizing least with
  | nil => exact List.mem_cons_self
  | cons next rest ih =>
      rw [List.foldl_cons]
      by_cases hbefore : before next least = true
      · rw [if_pos hbefore]
        exact List.mem_cons_of_mem _ (ih next)
      · rw [if_neg hbefore]
        rcases List.mem_cons.mp (ih least) with heq | hrest
        · rw [heq]
          exact List.mem_cons_self
        · exact List.mem_cons_of_mem _ (List.mem_cons_of_mem _ hrest)

theorem firstMin_mem {α : Type} (before : α → α → Bool) {items : List α} {least : α}
    (h : firstMin before items = some least) : least ∈ items := by
  cases items with
  | nil => cases h
  | cons candidate rest =>
      rw [firstMin, Option.some.injEq] at h
      rw [← h]
      exact foldl_min_mem before rest candidate

theorem firstMin_eq_none {α : Type} (before : α → α → Bool) {items : List α}
    (h : firstMin before items = none) : items = [] := by
  cases items with
  | nil => rfl
  | cons candidate rest => cases h

theorem Retained.pruneMonitors (h : Retained regexError state) (fuel : ℕ) :
    Retained regexError (pruneMonitors fuel state) := by
  induction fuel generalizing state with
  | zero => exact h
  | succ fuel ih =>
      unfold Monitor.pruneMonitors
      split
      · split
        · exact h
        · exact ih (h.remove _)
      · exact h

theorem activeCount_pruneMonitors (fuel : ℕ) (state : PersistedState) :
    activeCount (pruneMonitors fuel state) ≤ activeCount state := by
  induction fuel generalizing state with
  | zero => exact le_refl _
  | succ fuel ih =>
      unfold Monitor.pruneMonitors
      split
      · split
        · exact le_refl _
        · exact (ih _).trans (activeCount_removeMonitor _ _)
      · exact le_refl _

theorem Retained.markGap (h : Retained regexError state) (id : Uuid) (message : String) :
    Retained regexError (markIncidentRetentionGap id message state) := by
  unfold markIncidentRetentionGap
  split
  · exact h
  · rename_i view hview
    exact h.editView _ hview rfl rfl (satAdd_le_cap _ _ _) (fun hrunning => hrunning)

theorem incidents_markGap (id : Uuid) (message : String) (state : PersistedState) :
    (markIncidentRetentionGap id message state).incidents = state.incidents := by
  unfold markIncidentRetentionGap
  split <;> rfl

theorem Retained.pruneOneMonitorIncident (h : Retained regexError state) (id : Uuid) :
    Retained regexError (pruneOneMonitorIncident id state) := by
  unfold Monitor.pruneOneMonitorIncident
  split
  · exact h
  · exact h
  · rename_i first rest hqueue
    apply Retained.markGap
    apply h.shrinkQueue (h.queueOwner id _ hqueue) rest
    rw [hqueue]
    exact Nat.le_succ _

theorem mem_incidentPlaces {place : Uuid × ℕ × ℤ} (h : place ∈ incidentPlaces state) :
    ∃ queue, state.incidents.lookup place.1 = some queue ∧ place.2.1 < queue.length := by
  obtain ⟨⟨id, queue⟩, hentry, hplace⟩ := List.mem_flatMap.mp h
  obtain ⟨index, hindex, rfl⟩ := List.mem_mapIdx.mp hplace
  exact ⟨queue, OrderedMap.lookup_eq_some_iff.mpr hentry, hindex⟩

theorem length_incidentPlaces (state : PersistedState) :
    (incidentPlaces state).length = incidentTotal state := by
  simp [incidentPlaces, incidentTotal, OrderedMap.weight, OrderedMap.values, List.length_flatMap,
    Function.comp_def]

theorem Retained.pruneOneGlobalIncident (h : Retained regexError state) :
    Retained regexError (pruneOneGlobalIncident state) := by
  unfold Monitor.pruneOneGlobalIncident
  split
  · exact h
  · split
    · exact h
    · rename_i queue hqueue
      apply Retained.markGap
      apply h.shrinkQueue (h.queueOwner _ _ hqueue) (queue.eraseIdx _)
      rw [hqueue]
      exact List.length_eraseIdx_le _ _

/-- One incident less, and no queue longer, when there is any. -/
theorem pruneOneGlobalIncident_total (hsome : 0 < incidentTotal state) :
    incidentTotal (pruneOneGlobalIncident state) + 1 = incidentTotal state ∧
      ∀ id, (((pruneOneGlobalIncident state).incidents.lookup id).getD []).length ≤
        ((state.incidents.lookup id).getD []).length := by
  have hplace : firstMin (fun a b => a.2.2 < b.2.2) (incidentPlaces state) ≠ none := by
    intro hnone
    have hempty := congrArg List.length (firstMin_eq_none _ hnone)
    rw [length_incidentPlaces] at hempty
    exact absurd hempty hsome.ne'
  obtain ⟨place, hmin⟩ := Option.ne_none_iff_exists'.mp hplace
  obtain ⟨queue, hqueue, hindex⟩ := mem_incidentPlaces (firstMin_mem _ hmin)
  have hpruned : (pruneOneGlobalIncident state).incidents =
      state.incidents.insert place.1 (queue.eraseIdx place.2.1) := by
    unfold Monitor.pruneOneGlobalIncident
    simp only [hmin, hqueue, incidents_markGap]
  have hlength := List.length_eraseIdx_of_lt hindex
  constructor
  · have htotal := OrderedMap.weight_of_lookup List.length hqueue
    unfold incidentTotal
    rw [hpruned, OrderedMap.weight_insert, htotal]
    omega
  · intro id
    rw [hpruned, OrderedMap.lookup_insert]
    by_cases hsame : id = place.1
    · rw [if_pos hsame, hsame, hqueue]
      change (queue.eraseIdx place.2.1).length ≤ queue.length
      omega
    · rw [if_neg hsame]

theorem length_pruneOneMonitorIncident (id : Uuid) (state : PersistedState) :
    (((pruneOneMonitorIncident id state).incidents.lookup id).getD []).length =
      ((state.incidents.lookup id).getD []).length - 1 := by
  unfold Monitor.pruneOneMonitorIncident
  split
  · rename_i hqueue
    rw [hqueue]
    rfl
  · rename_i hqueue
    rw [hqueue]
    rfl
  · rename_i first rest hqueue
    rw [incidents_markGap, hqueue]
    change (((state.incidents.insert id rest).lookup id).getD []).length = _
    rw [OrderedMap.lookup_insert_self]
    rfl

theorem Retained.makeIncidentRoom (h : Retained regexError state) (id : Uuid) :
    Retained regexError (makeIncidentRoom id state) := by
  unfold Monitor.makeIncidentRoom
  simp only
  split_ifs
  · exact (h.pruneOneMonitorIncident id).pruneOneGlobalIncident
  · exact h.pruneOneMonitorIncident id
  · exact h.pruneOneGlobalIncident
  · exact h

theorem makeIncidentRoom_room (h : Retained regexError state) (id : Uuid) :
    (((makeIncidentRoom id state).incidents.lookup id).getD []).length < maxIncidentsPerMonitor ∧
      incidentTotal (makeIncidentRoom id state) < maxIncidentsTotal := by
  have hpositive : 0 < maxIncidentsPerMonitor := by decide
  have hpositive' : 0 < maxIncidentsTotal := by decide
  unfold Monitor.makeIncidentRoom
  simp only
  generalize hfirst : (if maxIncidentsPerMonitor ≤ ((state.incidents.lookup id).getD []).length then
    Monitor.pruneOneMonitorIncident id state else state) = first
  have hretained : Retained regexError first := by
    rw [← hfirst]
    split
    · exact h.pruneOneMonitorIncident id
    · exact h
  have hroom : ((first.incidents.lookup id).getD []).length < maxIncidentsPerMonitor := by
    rw [← hfirst]
    by_cases hfull : maxIncidentsPerMonitor ≤ ((state.incidents.lookup id).getD []).length
    · rw [if_pos hfull, length_pruneOneMonitorIncident]
      have hbound : ((state.incidents.lookup id).getD []).length ≤ maxIncidentsPerMonitor := by
        cases hlookup : state.incidents.lookup id with
        | none => exact Nat.zero_le _
        | some queue => exact h.queues id queue hlookup
      omega
    · rw [if_neg hfull]
      exact not_le.mp hfull
  by_cases htotal : maxIncidentsTotal ≤ incidentTotal first
  · rw [if_pos htotal]
    obtain ⟨hless, hqueues⟩ := pruneOneGlobalIncident_total (hpositive'.trans_le htotal)
    have hbound := hretained.incidents
    exact ⟨(hqueues id).trans_lt hroom, by omega⟩
  · rw [if_neg htotal]
    exact ⟨hroom, not_le.mp htotal⟩

/-! ## Mutations -/

/-- A new monitor, when there is room for it. -/
theorem Retained.addMonitor (h : Retained regexError state) (view : MonitorView) (hid : view.id = id)
    (hspec : validateSpec regexError view.spec = .ok ()) (hgap : view.gapCount ≤ u64Max)
    (hsize : state.monitors.size < maxMonitors) (hactive : activeCount state < maxActiveMonitors) :
    Retained regexError { state with monitors := state.monitors.insert id view } := by
  have hknown (id' : Uuid) (hsome : ∃ view', state.monitors.lookup id' = some view') :
      ∃ view', (state.monitors.insert id view).lookup id' = some view' := by
    obtain ⟨view', hview'⟩ := hsome
    by_cases hsame : id' = id
    · exact ⟨view, by rw [hsame, OrderedMap.lookup_insert_self]⟩
    · exact ⟨view', by rw [OrderedMap.lookup_insert_of_ne _ _ hsame, hview']⟩
  constructor
  · exact h.schema
  · have herase := OrderedMap.weight_erase_le state.monitors id (fun _ => 1)
    rw [OrderedMap.size_eq_weight] at hsize ⊢
    rw [OrderedMap.weight_insert]
    omega
  · have herase := OrderedMap.weight_erase_le state.monitors id
      (fun view => if view.isRunning then 1 else 0)
    unfold activeCount at hactive ⊢
    rw [OrderedMap.weight_insert]
    split_ifs
    · omega
    · omega
  · exact h.incidents
  · exact h.queues
  · intro id' view' hlookup
    change (state.monitors.insert id view).lookup id' = some view' at hlookup
    rw [OrderedMap.lookup_insert] at hlookup
    by_cases hsame : id' = id
    · rw [if_pos hsame, Option.some.injEq] at hlookup
      rw [← hlookup, hsame]
      exact ⟨hid, hspec, hgap⟩
    · rw [if_neg hsame] at hlookup
      exact h.views id' view' hlookup
  · intro id' queue hqueue
    exact hknown id' (h.queueOwner id' queue hqueue)
  · intro id' checkpoint hcheckpoint
    exact hknown id' (h.checkpointOwner id' checkpoint hcheckpoint)

theorem Retained.create (h : Retained regexError state) (now : ℤ) (requestId : Uuid)
    (requested : MonitorSpec) (slot : Option (Uuid × ℕ)) :
    Retained regexError (create regexError now requestId requested slot state).2 := by
  unfold Monitor.create
  cases hspec : validateSpec regexError requested with
  | error error => exact h
  | ok _ =>
      simp only
      split
      · split_ifs
        · exact h
        · exact h
      · split
        · exact h
        · split
          · exact h
          · rename_i cursor hcursor
            by_cases hactive : maxActiveMonitors ≤ activeCount state
            · rw [if_pos hactive]
              exact h
            rw [if_neg hactive]
            have hpruned : Retained regexError (pruneMonitorCapacity state) := h.pruneMonitors _
            have hcount : activeCount (pruneMonitorCapacity state) < maxActiveMonitors :=
              (activeCount_pruneMonitors _ _).trans_lt (not_le.mp hactive)
            by_cases hsize : maxMonitors ≤ (pruneMonitorCapacity state).monitors.size
            · rw [if_pos hsize]
              exact hpruned
            · rw [if_neg hsize]
              have hspec' : validateSpec regexError { requested with startCursor := some cursor } =
                  .ok () := hspec
              have hadded := hpruned.addMonitor
                ⟨requestId, 1, { requested with startCursor := some cursor }, .running, now,
                  now, durationDeadline now requested.durationMs, none, some cursor, 0, 0, 0, none⟩
                rfl hspec' (Nat.zero_le _) (not_le.mp hsize) hcount
              have hknown := OrderedMap.lookup_insert_self
                (pruneMonitorCapacity state).monitors requestId
                (⟨requestId, 1, { requested with startCursor := some cursor }, .running, now,
                  now, durationDeadline now requested.durationMs, none, some cursor, 0, 0, 0, none⟩ :
                    MonitorView)
              have hqueued := hadded.shrinkQueue ⟨_, hknown⟩
                (((pruneMonitorCapacity state).incidents.lookup requestId).getD [])
                (le_refl _)
              exact hqueued.setCheckpoint ⟨_, hknown⟩ ⟨cursor, none, none⟩

theorem Retained.update (h : Retained regexError state) (now : ℤ) {view : MonitorView}
    {spec : MonitorSpec} (cursor : Cursor) (expectedRevision : ℕ) (hid : view.id = id)
    (hspec : validateSpec regexError spec = .ok ()) (hgap : view.gapCount ≤ u64Max) :
    Retained regexError (update now id view spec cursor expectedRevision state).2 := by
  unfold Monitor.update
  split
  · exact h
  · rename_i current hcurrent
    split_ifs with hrevision hactive
    · exact h
    · exact h
    · have hroom : (updatedView now view spec cursor).isRunning = true →
          current.isRunning = true ∨ activeCount state < maxActiveMonitors := by
        intro _
        by_cases hrunning : current.isRunning = true
        · exact .inl hrunning
        · exact .inr (not_le.mp fun hfull => hactive ⟨hrunning, hfull⟩)
      have hset := h.setView (updatedView now view spec cursor) hcurrent hid hspec hgap hroom
      exact hset.setCheckpoint ⟨_, OrderedMap.lookup_insert_self _ _ _⟩ ⟨cursor, none, none⟩

theorem Retained.stop (h : Retained regexError state) (now : ℤ) (id : Uuid) (expectedRevision : ℕ) :
    Retained regexError (stop now id expectedRevision state).2 := by
  unfold Monitor.stop
  split
  · exact h
  · rename_i monitor hmonitor
    split_ifs
    · exact h
    · exact h.editView _ hmonitor rfl rfl (h.views id monitor hmonitor).2.2 (fun hfalse => by cases hfalse)
    · exact h

theorem Retained.deleteStopped (h : Retained regexError state) (id : Uuid) (expectedRevision : ℕ) :
    Retained regexError (deleteStopped id expectedRevision state).2 := by
  unfold Monitor.deleteStopped
  split
  · exact h
  · split_ifs
    · exact h
    · exact h
    · exact h.remove id

theorem length_ackFirst (now : ℤ) (incidentId : Uuid) (queue : List MonitorIncident) :
    (ackFirst now incidentId queue).length = queue.length := by
  induction queue with
  | nil => rfl
  | cons incident rest ih =>
      unfold ackFirst
      split
      · rfl
      · rw [List.length_cons, ih, List.length_cons]

theorem Retained.acknowledgeIncident (h : Retained regexError state) (now : ℤ) (id incidentId : Uuid) :
    Retained regexError (acknowledgeIncident now id incidentId state).2 := by
  unfold Monitor.acknowledgeIncident
  split
  · exact h
  · rename_i queue hqueue
    split
    · exact h
    · split
      · obtain ⟨monitor, hmonitor⟩ := h.queueOwner id queue hqueue
        have hshorter : (ackFirst now incidentId queue).length ≤
            ((state.incidents.lookup id).getD []).length := by
          rw [hqueue, length_ackFirst]
          exact le_refl _
        have hacked := h.shrinkQueue ⟨monitor, hmonitor⟩ _ hshorter
        simp only [hmonitor]
        exact hacked.editView _ hmonitor rfl rfl (h.views id monitor hmonitor).2.2
          (fun hrunning => hrunning)
      · exact h

theorem Retained.failMonitor (h : Retained regexError state) (now : ℤ) (id : Uuid) (revision : ℕ)
    (error : String) : Retained regexError (failMonitor now id revision error state).2 := by
  unfold Monitor.failMonitor
  split
  · exact h
  · rename_i monitor hmonitor
    split
    · exact h.editView _ hmonitor rfl rfl (h.views id monitor hmonitor).2.2 (fun hfalse => by cases hfalse)
    · exact h

theorem Retained.completeMonitor (h : Retained regexError state) (now : ℤ) (id : Uuid)
    (expectedRevision : ℕ) : Retained regexError (completeMonitor now id expectedRevision state).2 := by
  unfold Monitor.completeMonitor
  split
  · exact h
  · rename_i monitor hmonitor
    split
    · exact h.editView _ hmonitor rfl rfl (h.views id monitor hmonitor).2.2 (fun hfalse => by cases hfalse)
    · exact h

theorem Retained.checkpointProgress (h : Retained regexError state) (id : Uuid)
    (expectedRevision : ℕ) (checkpoint : MonitorCheckpoint) :
    Retained regexError (checkpointProgress id expectedRevision checkpoint state).2 := by
  unfold Monitor.checkpointProgress
  split
  · exact h
  · rename_i monitor hmonitor
    split_ifs
    · exact h
    · exact h
    · exact h.setCheckpoint ⟨monitor, hmonitor⟩ checkpoint

theorem Retained.recordGap (h : Retained regexError state) (id : Uuid) (expectedRevision : ℕ)
    (message : String) : Retained regexError (recordGap id expectedRevision message state).2 := by
  unfold Monitor.recordGap
  split
  · exact h
  · rename_i monitor hmonitor
    split
    · exact h
    · exact h.editView _ hmonitor rfl rfl (satAdd_le_cap _ _ _) (fun hrunning => hrunning)

theorem Retained.recordIncident (h : Retained regexError state) (now : ℤ)
    (serverId incidentId id : Uuid) (expectedRevision : ℕ) (pending : PendingIncident)
    (checkpoint : MonitorCheckpoint) :
    Retained regexError
      (recordIncident now serverId incidentId id expectedRevision pending checkpoint state).2 := by
  unfold Monitor.recordIncident
  split
  · exact h
  · split
    · exact h
    · have hroom := h.makeIncidentRoom id
      obtain ⟨hqueue, htotal⟩ := makeIncidentRoom_room h id
      simp only
      split
      · exact hroom
      · rename_i monitor hmonitor
        unfold pushIncident
        apply Retained.recompute
        have hviewed := hroom.editView
          { monitor with
            incidentCount := (newIncident now serverId incidentId monitor pending).incidentSeq
            unackedIncidentCount := satAdd u64Max monitor.unackedIncidentCount 1 }
          hmonitor rfl rfl (hroom.views id monitor hmonitor).2.2 (fun hrunning => hrunning)
        rw [incidentTotal_eq _ id] at htotal
        have hknown := OrderedMap.lookup_insert_self (Monitor.makeIncidentRoom id state).monitors id
          ({ monitor with
            incidentCount := (newIncident now serverId incidentId monitor pending).incidentSeq
            unackedIncidentCount := satAdd u64Max monitor.unackedIncidentCount 1 } : MonitorView)
        have hpushed := hviewed.setQueue ⟨_, hknown⟩
          ((((Monitor.makeIncidentRoom id state).incidents.lookup id).getD []) ++
            [newIncident now serverId incidentId monitor pending])
          (by rw [List.length_append]; exact hqueue)
          (by
            rw [List.length_append, List.length_singleton]
            change _ + 1 + ((Monitor.makeIncidentRoom id state).incidents.erase id).weight
              List.length ≤ maxIncidentsTotal
            omega)
        exact hpushed.setCheckpoint ⟨_, hknown⟩ checkpoint

/-- What an `update` has checked before its mutation. -/
def Operation.Checked (regexError : String → Option String) : Operation → Prop
  | .update _ id view spec _ _ =>
      view.id = id ∧ validateSpec regexError spec = .ok () ∧ view.gapCount ≤ u64Max
  | _ => True

/-- The step: every mutation keeps the bounds. -/
theorem Retained.mutate (h : Retained regexError state) {operation : Operation}
    (hchecked : operation.Checked regexError) :
    Retained regexError (operation.mutate regexError state).2 := by
  cases operation with
  | create now requestId requested slot => exact h.create now requestId requested slot
  | update now id view spec cursor expectedRevision =>
      exact h.update now cursor expectedRevision hchecked.1 hchecked.2.1 hchecked.2.2
  | stop now id expectedRevision => exact h.stop now id expectedRevision
  | deleteStopped id expectedRevision => exact h.deleteStopped id expectedRevision
  | acknowledgeIncident now id incidentId => exact h.acknowledgeIncident now id incidentId
  | failMonitor now id revision error => exact h.failMonitor now id revision error
  | completeMonitor now id expectedRevision => exact h.completeMonitor now id expectedRevision
  | checkpointProgress id expectedRevision checkpoint =>
      exact h.checkpointProgress id expectedRevision checkpoint
  | recordGap id expectedRevision message => exact h.recordGap id expectedRevision message
  | recordIncident now serverId incidentId id expectedRevision pending checkpoint =>
      exact h.recordIncident now serverId incidentId id expectedRevision pending checkpoint

/-! ## Runs -/

/-- A call has checked what it will write. -/
def Call.Checked (regexError : String → Option String) (call : Call) : Prop :=
  call.view.id = call.id ∧ call.view.gapCount ≤ u64Max ∧
    ∀ spec cursor, call.change = some (spec, cursor) → validateSpec regexError spec = .ok ()

/-- The bounds hold of the state, of the one before a mutation in flight, and of the file. -/
structure Manager.Kept (regexError : String → Option String) (manager : Manager) : Prop where
  state : Retained regexError manager.state
  previous : ∀ writing, manager.writing = some writing → Retained regexError writing.previous
  file : ∀ file, manager.file = some file → Retained regexError file
  calls : ∀ call ∈ manager.calls, call.Checked regexError

variable {manager manager' : Manager}

theorem Manager.Kept.begin (h : manager.Kept regexError) {operation : Operation}
    (hchecked : operation.Checked regexError)
    (hbegin : manager.begin regexError operation = some manager') : manager'.Kept regexError := by
  have hmutated := h.state.mutate hchecked
  unfold Manager.begin at hbegin
  cases hwriting : manager.writing with
  | some writing =>
      rw [hwriting] at hbegin
      cases hbegin
  | none =>
      rw [hwriting] at hbegin
      simp only at hbegin
      cases hattempt : (operation.mutate regexError manager.state).1 with
      | returned result =>
          simp only [hattempt, Option.some.injEq] at hbegin
          subst hbegin
          exact ⟨hmutated, fun _ hnone => (by cases hnone), h.file, h.calls⟩
      | persisting =>
          simp only [hattempt, Option.some.injEq] at hbegin
          subst hbegin
          refine ⟨hmutated, ?_, h.file, h.calls⟩
          rintro writing hwriting'
          rw [← Option.some.inj hwriting']
          exact h.state

theorem Manager.begin_calls {operation : Operation}
    (hbegin : manager.begin regexError operation = some manager') : manager'.calls = manager.calls := by
  unfold Manager.begin at hbegin
  split at hbegin
  · cases hbegin
  · simp only at hbegin
    split at hbegin
    · rw [← Option.some.inj hbegin]
    · rw [← Option.some.inj hbegin]

theorem Manager.Kept.read (h : manager.Kept regexError) (id : Uuid) (expectedRevision : ℕ)
    (change : Option (MonitorSpec × Cursor))
    (hchange : ∀ spec cursor, change = some (spec, cursor) → validateSpec regexError spec = .ok ())
    (hread : manager.read id expectedRevision change = some manager') : manager'.Kept regexError := by
  unfold Manager.read at hread
  split at hread
  · cases hread
  · rename_i view hview
    split at hread
    · rw [← Option.some.inj hread]
      refine ⟨h.state, h.previous, h.file, fun call hcall => ?_⟩
      rcases List.mem_append.mp hcall with hcall | hcall
      · exact h.calls call hcall
      · rw [List.mem_singleton.mp hcall]
        obtain ⟨hid, -, hgap⟩ := h.state.views id view hview
        exact ⟨hid, hgap, hchange⟩
    · cases hread

theorem Manager.Kept.readUpdate (h : manager.Kept regexError) {id : Uuid} {expectedRevision : ℕ}
    {spec : MonitorSpec} {slot : Option (Uuid × ℕ)}
    (hread : manager.readUpdate regexError id expectedRevision spec slot = some manager') :
    manager'.Kept regexError := by
  unfold Manager.readUpdate at hread
  split at hread
  · rename_i hspec
    split at hread
    · cases hread
    · apply h.read _ _ _ _ hread
      intro spec' cursor' heq
      rw [← (Prod.mk.inj (Option.some.inj heq)).1]
      exact hspec
  · cases hread

/-- A call which only moves to another stage. -/
theorem Call.Checked.at_stage {call : Call} (h : call.Checked regexError) (stage : CallStage) :
    ({ call with stage := stage } : Call).Checked regexError := h

theorem Manager.Kept.setCall (h : manager.Kept regexError) {place : ℕ} {call : Call}
    (hcall : manager.calls[place]? = some call) (stage : CallStage) :
    ∀ other ∈ manager.calls.set place { call with stage := stage }, other.Checked regexError := by
  intro other hother
  rcases List.mem_or_eq_of_mem_set hother with hold | hnew
  · exact h.calls other hold
  · rw [hnew]
    exact (h.calls call (List.mem_of_getElem? hcall)).at_stage stage

theorem Manager.Kept.stopWorker (h : manager.Kept regexError) {place : ℕ}
    (hstop : manager.stopWorker place = some manager') : manager'.Kept regexError := by
  unfold Manager.stopWorker at hstop
  obtain ⟨call, hcall, hstop⟩ := Option.bind_eq_some_iff.mp hstop
  have hset := h.setCall hcall
  simp only at hstop
  cases hstage : call.stage with
  | read =>
      simp only [hstage, Option.some.injEq] at hstop
      subst hstop
      split
      · exact ⟨h.state, h.previous, h.file, hset _⟩
      · exact ⟨h.state, h.previous, h.file, hset _⟩
  | stopping awaited =>
      simp only [hstage] at hstop
      cases hstop
  | mutated =>
      simp only [hstage, Option.some.injEq] at hstop
      subst hstop
      have hless (other : Call) (hother : other ∈ manager.calls.eraseIdx place) :
          other.Checked regexError := h.calls other (List.mem_of_mem_eraseIdx hother)
      split
      · exact ⟨h.state, h.previous, h.file, hless⟩
      · exact ⟨h.state, h.previous, h.file, hless⟩

theorem Manager.Kept.mutateCall (h : manager.Kept regexError) {place : ℕ} {now : ℤ}
    (hmutate : manager.mutateCall regexError place now = some manager') :
    manager'.Kept regexError := by
  unfold Manager.mutateCall at hmutate
  obtain ⟨call, hcall, hmutate⟩ := Option.bind_eq_some_iff.mp hmutate
  obtain ⟨hid, hgap, hchange⟩ := h.calls call (List.mem_of_getElem? hcall)
  split at hmutate
  · split at hmutate
    · cases hmutate
    · simp only at hmutate
      obtain ⟨begun, hbegin, hdone⟩ := Option.bind_eq_some_iff.mp hmutate
      have hkept : begun.Kept regexError := by
        apply h.begin _ hbegin
        split
        · rename_i spec cursor heq
          exact ⟨hid, hchange spec cursor heq, hgap⟩
        · exact trivial
      rw [← Option.some.inj hdone]
      have hset := h.setCall hcall .mutated
      rw [← Manager.begin_calls hbegin] at hset
      exact ⟨hkept.state, hkept.previous, hkept.file, hset⟩
  · cases hmutate

theorem Retained.progress (h : Retained regexError state) {view : MonitorView}
    (hview : state.monitors.lookup id = some view) (cursor : Cursor) :
    Retained regexError
      { state with
        monitors := state.monitors.insert id { view with currentCursor := some cursor } } :=
  h.editView _ hview rfl rfl (h.views id view hview).2.2 (fun hrunning => hrunning)

theorem Manager.Kept.progress (h : manager.Kept regexError) {token : Uuid} {cursor : Cursor}
    (hprogress : manager.progress token cursor = some manager') : manager'.Kept regexError := by
  unfold Manager.progress at hprogress
  obtain ⟨worker, -, hprogress⟩ := Option.bind_eq_some_iff.mp hprogress
  obtain ⟨view, hview, hprogress⟩ := Option.bind_eq_some_iff.mp hprogress
  split at hprogress
  · rw [← Option.some.inj hprogress]
    exact ⟨h.state.progress hview cursor, h.previous, h.file, h.calls⟩
  · rw [← Option.some.inj hprogress]
    exact h

theorem Manager.Kept.persisted (h : manager.Kept regexError)
    (hpersisted : manager.persisted = some manager') : manager'.Kept regexError := by
  unfold Manager.persisted at hpersisted
  obtain ⟨writing, -, hdone⟩ := Option.bind_eq_some_iff.mp hpersisted
  rw [← Option.some.inj hdone]
  refine ⟨h.state, fun writing hwriting => (by cases hwriting), ?_, h.calls⟩
  rintro file hfile
  rw [← Option.some.inj hfile]
  exact h.state

theorem Manager.Kept.persistFailed (h : manager.Kept regexError) {replaced : Bool}
    (hfailed : manager.persistFailed replaced = some manager') : manager'.Kept regexError := by
  unfold Manager.persistFailed at hfailed
  obtain ⟨writing, hwriting, hdone⟩ := Option.bind_eq_some_iff.mp hfailed
  rw [← Option.some.inj hdone]
  refine ⟨h.previous writing hwriting, fun writing hwriting => (by cases hwriting), ?_, h.calls⟩
  rintro file hfile
  cases replaced with
  | true =>
      rw [← Option.some.inj hfile]
      exact h.state
  | false => exact h.file file hfile

theorem Manager.Kept.perform (h : manager.Kept regexError) {act : Act}
    (hact : manager.perform regexError act = some manager') : manager'.Kept regexError := by
  cases act with
  | request operation =>
      simp only [Manager.perform] at hact
      split at hact
      · rename_i hrequest
        apply h.begin _ hact
        cases operation <;> first | exact trivial | cases hrequest
      · cases hact
  | readUpdate id expectedRevision spec slot => exact h.readUpdate hact
  | readStop id expectedRevision =>
      exact h.read id expectedRevision none (fun _ _ hnone => by cases hnone) hact
  | stopWorker place => exact h.stopWorker hact
  | mutateCall place now => exact h.mutateCall hact
  | work token operation =>
      simp only [Manager.perform] at hact
      split at hact
      · rename_i hworker
        obtain ⟨worker, -, -, hallowed⟩ := hworker
        apply h.begin _ hact
        cases operation <;> first | exact trivial | cases hallowed
      · cases hact
  | progress token cursor => exact h.progress hact
  | persisted => exact h.persisted hact
  | persistFailed replaced => exact h.persistFailed hact
  | reserve id revision token =>
      simp only [Manager.perform, Manager.reserve] at hact
      split at hact
      · rw [← Option.some.inj hact]
        exact ⟨h.state, h.previous, h.file, h.calls⟩
      · cases hact
  | launch place =>
      simp only [Manager.perform, Manager.launch] at hact
      obtain ⟨spawn, -, hact⟩ := Option.bind_eq_some_iff.mp hact
      split at hact
      · cases hact
      split at hact
      · rw [← Option.some.inj hact]
        exact ⟨h.state, h.previous, h.file, h.calls⟩
      split at hact
      · rw [← Option.some.inj hact]
        exact ⟨h.state, h.previous, h.file, h.calls⟩
      · rw [← Option.some.inj hact]
        exact ⟨h.state, h.previous, h.file, h.calls⟩
  | clearHandle token =>
      simp only [Manager.perform, Manager.clearHandle] at hact
      obtain ⟨worker, -, hact⟩ := Option.bind_eq_some_iff.mp hact
      rw [← Option.some.inj hact]
      exact ⟨h.state, h.previous, h.file, h.calls⟩
  | exit token =>
      simp only [Manager.perform] at hact
      rw [← Option.some.inj hact]
      exact ⟨h.state, h.previous, h.file, h.calls⟩

theorem Manager.Kept.opened (h : Retained regexError state) {file : Option PersistedState}
    (hfile : ∀ file', file = some file' → Retained regexError file') :
    (Manager.opened state file).Kept regexError :=
  ⟨h, fun _ hnone => (by cases hnone), hfile, fun _ hnone => (by cases hnone)⟩

theorem Reachable.kept (h : Reachable regexError manager) : manager.Kept regexError := by
  induction h with
  | fresh => exact .opened retained_default (fun _ hnone => by cases hnone)
  | act _ act hact ih => exact ih.perform hact
  | reopened _ hfile _ ih =>
      have hretained := ih.file _ hfile
      exact .opened hretained (fun file' heq => by rw [← Option.some.inj heq]; exact hretained)

/-! ## Failed writes -/

/-- The acts which end a write. -/
def Act.endsWrite : Act → Bool
  | .persisted => true
  | .persistFailed _ => true
  | _ => false

theorem Manager.begin_writing {operation : Operation}
    (hbegin : manager.begin regexError operation = some manager') :
    manager.writing = none ∧
      (manager'.writing = none ∨ manager'.writing = some ⟨manager.state, operation⟩) := by
  unfold Manager.begin at hbegin
  split at hbegin
  · cases hbegin
  · rename_i hwriting
    refine ⟨hwriting, ?_⟩
    simp only at hbegin
    split at hbegin
    · rw [← Option.some.inj hbegin]
      exact .inl hwriting
    · rw [← Option.some.inj hbegin]
      exact .inr rfl

/-- The catalog, the lock and the ledger are the same. -/
structure Manager.SameCore (manager manager' : Manager) : Prop where
  state : manager'.state = manager.state
  writing : manager'.writing = manager.writing
  ledger : manager'.ledger = manager.ledger

theorem Manager.SameCore.refl (manager : Manager) : manager.SameCore manager := ⟨rfl, rfl, rfl⟩

/-- What an act does to the catalog, the lock and the ledger. -/
inductive Manager.CoreStep (regexError : String → Option String) (manager manager' : Manager) :
    Act → Prop
  | quiet {act : Act} (hsame : manager.SameCore manager') (hends : act.endsWrite = false) :
      CoreStep regexError manager manager' act
  | began {act : Act} {operation : Operation} {begun : Manager}
      (hbegin : manager.begin regexError operation = some begun) (hsame : begun.SameCore manager')
      (hchecked : operation.Checked regexError) (hends : act.endsWrite = false) :
      CoreStep regexError manager manager' act
  | progress {act : Act} {id : Uuid} {view : MonitorView} {cursor : Cursor}
      (hview : manager.state.monitors.lookup id = some view)
      (hstate : manager'.state =
        { manager.state with
          monitors := manager.state.monitors.insert id { view with currentCursor := some cursor } })
      (hwriting : manager'.writing = manager.writing) (hledger : manager'.ledger = manager.ledger)
      (hends : act.endsWrite = false) : CoreStep regexError manager manager' act
  | persisted {writing : Writing} (hwriting : manager.writing = some writing)
      (hstate : manager'.state = manager.state) (hfree : manager'.writing = none)
      (hledger : manager'.ledger = writing.commit manager.state manager.ledger) :
      CoreStep regexError manager manager' .persisted
  | persistFailed {writing : Writing} {replaced : Bool} (hwriting : manager.writing = some writing)
      (hstate : manager'.state = writing.previous) (hfree : manager'.writing = none)
      (hledger : manager'.ledger = manager.ledger) :
      CoreStep regexError manager manager' (.persistFailed replaced)

theorem Manager.perform_cases (hkept : manager.Kept regexError) {act : Act}
    (hact : manager.perform regexError act = some manager') :
    manager.CoreStep regexError manager' act := by
  have hread {id : Uuid} {revision : ℕ} {change : Option (MonitorSpec × Cursor)}
      (hread : manager.read id revision change = some manager') : manager.SameCore manager' := by
    unfold Manager.read at hread
    split at hread
    · cases hread
    · split at hread
      · rw [← Option.some.inj hread]
        exact ⟨rfl, rfl, rfl⟩
      · cases hread
  cases act with
  | request operation =>
      simp only [Manager.perform] at hact
      split at hact
      · rename_i hrequest
        have hchecked : operation.Checked regexError := by
          cases operation <;> first | exact trivial | cases hrequest
        exact .began hact (.refl _) hchecked rfl
      · cases hact
  | readUpdate id expectedRevision spec slot =>
      simp only [Manager.perform, Manager.readUpdate] at hact
      split at hact
      · split at hact
        · cases hact
        · exact .quiet (hread hact) rfl
      · cases hact
  | readStop id expectedRevision => exact .quiet (hread hact) rfl
  | stopWorker place =>
      simp only [Manager.perform, Manager.stopWorker] at hact
      obtain ⟨call, -, hact⟩ := Option.bind_eq_some_iff.mp hact
      split at hact
      · rw [← Option.some.inj hact]
        apply Manager.CoreStep.quiet _ rfl
        cases manager.handleOf call.id call.expectedRevision with
        | none => exact ⟨rfl, rfl, rfl⟩
        | some handle => exact ⟨rfl, rfl, rfl⟩
      · cases hact
      · rw [← Option.some.inj hact]
        apply Manager.CoreStep.quiet _ rfl
        cases manager.handleOf call.id call.expectedRevision with
        | none => exact ⟨rfl, rfl, rfl⟩
        | some handle => exact ⟨rfl, rfl, rfl⟩
  | mutateCall place now =>
      simp only [Manager.perform, Manager.mutateCall] at hact
      obtain ⟨call, hcall, hact⟩ := Option.bind_eq_some_iff.mp hact
      obtain ⟨hid, hgap, hchange⟩ := hkept.calls call (List.mem_of_getElem? hcall)
      split at hact
      · split at hact
        · cases hact
        · obtain ⟨begun, hbegin, hdone⟩ := Option.bind_eq_some_iff.mp hact
          rw [← Option.some.inj hdone]
          refine .began hbegin ⟨rfl, rfl, rfl⟩ ?_ rfl
          split
          · rename_i spec cursor heq
            exact ⟨hid, hchange spec cursor heq, hgap⟩
          · exact trivial
      · cases hact
  | work token operation =>
      simp only [Manager.perform] at hact
      split at hact
      · rename_i hworker
        obtain ⟨worker, -, -, hallowed⟩ := hworker
        have hchecked : operation.Checked regexError := by
          cases operation <;> first | exact trivial | cases hallowed
        exact .began hact (.refl _) hchecked rfl
      · cases hact
  | progress token cursor =>
      simp only [Manager.perform, Manager.progress] at hact
      obtain ⟨worker, -, hact⟩ := Option.bind_eq_some_iff.mp hact
      obtain ⟨view, hview, hact⟩ := Option.bind_eq_some_iff.mp hact
      split at hact
      · rw [← Option.some.inj hact]
        exact .progress hview rfl rfl rfl rfl
      · rw [← Option.some.inj hact]
        exact .quiet (.refl _) rfl
  | persisted =>
      obtain ⟨writing, hwriting, hdone⟩ := Option.bind_eq_some_iff.mp hact
      rw [← Option.some.inj hdone]
      exact .persisted hwriting rfl rfl rfl
  | persistFailed replaced =>
      obtain ⟨writing, hwriting, hdone⟩ := Option.bind_eq_some_iff.mp hact
      rw [← Option.some.inj hdone]
      exact .persistFailed hwriting rfl rfl rfl
  | reserve id revision token =>
      simp only [Manager.perform, Manager.reserve] at hact
      split at hact
      · rw [← Option.some.inj hact]
        exact .quiet ⟨rfl, rfl, rfl⟩ rfl
      · cases hact
  | launch place =>
      simp only [Manager.perform, Manager.launch] at hact
      obtain ⟨spawn, -, hact⟩ := Option.bind_eq_some_iff.mp hact
      split at hact
      · cases hact
      split at hact
      · rw [← Option.some.inj hact]
        exact .quiet ⟨rfl, rfl, rfl⟩ rfl
      split at hact
      · rw [← Option.some.inj hact]
        exact .quiet ⟨rfl, rfl, rfl⟩ rfl
      · rw [← Option.some.inj hact]
        exact .quiet ⟨rfl, rfl, rfl⟩ rfl
  | clearHandle token =>
      simp only [Manager.perform, Manager.clearHandle] at hact
      obtain ⟨worker, -, hact⟩ := Option.bind_eq_some_iff.mp hact
      rw [← Option.some.inj hact]
      exact .quiet ⟨rfl, rfl, rfl⟩ rfl
  | exit token =>
      simp only [Manager.perform] at hact
      rw [← Option.some.inj hact]
      exact .quiet ⟨rfl, rfl, rfl⟩ rfl

/-- An act keeps the lock, or takes it with the state it finds. -/
theorem Manager.perform_writing (hkept : manager.Kept regexError) {act : Act}
    (hends : act.endsWrite = false) (hact : manager.perform regexError act = some manager') :
    manager'.writing = manager.writing ∨
      (manager.writing = none ∧ ∃ operation, manager'.writing = some ⟨manager.state, operation⟩) := by
  cases perform_cases hkept hact with
  | quiet hsame _ => exact .inl hsame.writing
  | began hbegin hsame _ _ =>
      rw [hsame.writing]
      obtain ⟨hfree, hnone | hsome⟩ := Manager.begin_writing hbegin
      · exact .inl (hnone.trans hfree.symm)
      · exact .inr ⟨hfree, _, hsome⟩
  | progress _ _ hwriting _ _ => exact .inl hwriting
  | persisted => cases hends
  | persistFailed => cases hends

theorem Manager.performAll_writing (hkept : manager.Kept regexError) {acts : List Act} (hends : ∀ act ∈ acts, act.endsWrite = false)
    {writing : Writing} (hwriting : manager.writing = some writing)
    (hacts : performAll regexError acts manager = some manager') :
    manager'.writing = some writing := by
  induction acts generalizing manager with
  | nil =>
      rw [← Option.some.inj hacts]
      exact hwriting
  | cons act rest ih =>
      obtain ⟨next, hact, hrest⟩ := Option.bind_eq_some_iff.mp hacts
      have hrest' := fun other hother => hends other (List.mem_cons_of_mem _ hother)
      rcases perform_writing hkept (hends act List.mem_cons_self) hact with hsame | ⟨hfree, -⟩
      · exact ih (hkept.perform hact) hrest' (hsame.trans hwriting) hrest
      · rw [hwriting] at hfree
        cases hfree

/-- The act which takes the lock, anything meanwhile, and a failed write. -/
theorem Manager.rolled_back (hkept : manager.Kept regexError) {act : Act} {acts : List Act} {begun waiting ended : Manager}
    {replaced : Bool} (hfree : manager.writing = none) (hact_ends : act.endsWrite = false)
    (hact : manager.perform regexError act = some begun) (hbegun : begun.writing ≠ none)
    (hends : ∀ act ∈ acts, act.endsWrite = false)
    (hacts : performAll regexError acts begun = some waiting)
    (hfailed : waiting.perform regexError (.persistFailed replaced) = some ended) :
    ended.state = manager.state := by
  rcases perform_writing hkept hact_ends hact with hsame | ⟨-, operation, hwriting⟩
  · exact absurd (hsame.trans hfree) hbegun
  · have hwaiting := performAll_writing (hkept.perform hact) hends hwriting hacts
    obtain ⟨writing, hwriting', hdone⟩ := Option.bind_eq_some_iff.mp hfailed
    rw [hwaiting] at hwriting'
    rw [← Option.some.inj hdone, ← Option.some.inj hwriting']

end

end SerialPlatform.Monitor
