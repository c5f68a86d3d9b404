import SerialPlatform.MonitorBounds

/-!
# Incident numbers

The counters of a monitor follow its ledger through every interleaving in which no
`update` writes back a view whose counters have changed since it was read.  An
incident which is recorded between the two gets its number again.
-/

namespace SerialPlatform.Monitor

/-! ## The account of a monitor -/

/-- The counters of a view, the ledger of its monitor and its queue agree. -/
structure Accounted (view : MonitorView) (ledger : Ledger) (queue : List MonitorIncident) : Prop where
  assigned : ledger.assigned = List.range' 1 view.incidentCount
  gaps : ledger.gapCounts.Pairwise (fun a b => a ≤ b)
  lastGap : ∀ count ∈ ledger.gapCounts, count ≤ view.gapCount
  unacked : view.unackedIncidentCount = unackedIn queue

def Accounts (state : PersistedState) (ledger : Uuid → Ledger) : Prop :=
  ∀ id view, state.monitors.lookup id = some view →
    Accounted view (ledger id) ((state.incidents.lookup id).getD [])

/-- The write may be committed: the view of an `update` has the counters of its monitor
still, though it may count more gaps, and a recorded incident has a number left. -/
def Writing.Timely (writing : Writing) : Prop :=
  match writing.operation with
  | .update _ id view _ _ _ =>
      ∀ current ∈ writing.previous.monitors.lookup id,
        view.incidentCount = current.incidentCount ∧
          view.unackedIncidentCount = current.unackedIncidentCount ∧
          current.gapCount ≤ view.gapCount
  | .recordIncident _ _ _ id expectedRevision _ _ =>
      ∀ current ∈ writing.previous.monitors.lookup id, current.isRunning = true →
        current.revision = expectedRevision → current.incidentCount < u64Max
  | _ => True

instance (writing : Writing) : Decidable writing.Timely :=
  match writing with
  | ⟨_, .update ..⟩ => inferInstanceAs (Decidable (∀ current ∈ _, _))
  | ⟨_, .recordIncident ..⟩ => inferInstanceAs (Decidable (∀ current ∈ _, _))
  | ⟨_, .create ..⟩ => isTrue trivial
  | ⟨_, .stop ..⟩ => isTrue trivial
  | ⟨_, .deleteStopped ..⟩ => isTrue trivial
  | ⟨_, .acknowledgeIncident ..⟩ => isTrue trivial
  | ⟨_, .failMonitor ..⟩ => isTrue trivial
  | ⟨_, .completeMonitor ..⟩ => isTrue trivial
  | ⟨_, .checkpointProgress ..⟩ => isTrue trivial
  | ⟨_, .recordGap ..⟩ => isTrue trivial

section
variable {regexError : String → Option String} {state state' : PersistedState} {id : Uuid}
  {ledger : Uuid → Ledger} {writing : Writing}

/-- A monitor whose counters did not change, but perhaps its gaps. -/
theorem Accounted.steady {old view : MonitorView} {entry : Ledger} {queue queue' : List MonitorIncident}
    (h : Accounted old entry queue) (hcount : view.incidentCount = old.incidentCount)
    (hgap : old.gapCount ≤ view.gapCount) (hunacked : view.unackedIncidentCount = unackedIn queue') :
    Accounted view ⟨entry.assigned, entry.gapCounts ++ [view.gapCount]⟩ queue' := by
  constructor
  · rw [hcount]
    exact h.assigned
  · rw [List.pairwise_append]
    refine ⟨h.gaps, List.pairwise_singleton _ _, fun a ha b hb => ?_⟩
    rw [List.mem_singleton.mp hb]
    exact (h.lastGap a ha).trans hgap
  · intro count hcount'
    rcases List.mem_append.mp hcount' with hold | hnew
    · exact (h.lastGap count hold).trans hgap
    · rw [List.mem_singleton.mp hnew]
  · exact hunacked

/-- A monitor which records its next incident. -/
theorem Accounted.recorded {old view : MonitorView} {entry : Ledger}
    {queue queue' : List MonitorIncident} (h : Accounted old entry queue)
    (hcount : view.incidentCount = old.incidentCount + 1) (hgap : old.gapCount ≤ view.gapCount)
    (hunacked : view.unackedIncidentCount = unackedIn queue') :
    Accounted view ⟨entry.assigned ++ [view.incidentCount], entry.gapCounts ++ [view.gapCount]⟩
      queue' := by
  have hsteady : Accounted { view with incidentCount := old.incidentCount }
      ⟨entry.assigned, entry.gapCounts ++ [view.gapCount]⟩ queue' := h.steady rfl hgap hunacked
  refine ⟨?_, hsteady.gaps, hsteady.lastGap, hunacked⟩
  rw [h.assigned, hcount, List.range'_concat]
  simp [Nat.add_comm]

/-- A mutation which records nothing. -/
theorem Writing.assigned_of_quiet (h : ∀ now serverId incidentId id revision pending checkpoint,
    writing.operation ≠ .recordIncident now serverId incidentId id revision pending checkpoint) :
    writing.assigned state id = [] := by
  unfold Writing.assigned
  split
  · rename_i hoperation
    exact absurd hoperation (h _ _ _ _ _ _ _)
  · rfl

theorem Writing.commit_of_known {old view : MonitorView}
    (hold : writing.previous.monitors.lookup id = some old)
    (hview : state.monitors.lookup id = some view) :
    writing.commit state ledger id =
      ⟨(ledger id).assigned ++ writing.assigned state id, (ledger id).gapCounts ++ [view.gapCount]⟩ := by
  unfold Writing.commit
  rw [hview, hold]

theorem Writing.commit_of_new {view : MonitorView}
    (hold : writing.previous.monitors.lookup id = none)
    (hview : state.monitors.lookup id = some view) :
    writing.commit state ledger id = ⟨[], [view.gapCount]⟩ := by
  unfold Writing.commit
  rw [hview, hold]

/-- A mutation which records nothing and keeps the counters of the known monitors. -/
theorem Accounts.commit_steady (h : Accounts writing.previous ledger)
    (hquiet : ∀ id, writing.assigned state id = [])
    (hsteady : ∀ id view, state.monitors.lookup id = some view →
      view.unackedIncidentCount = unackedIn ((state.incidents.lookup id).getD []) ∧
      match writing.previous.monitors.lookup id with
      | none => view.incidentCount = 0
      | some old => view.incidentCount = old.incidentCount ∧ old.gapCount ≤ view.gapCount) :
    Accounts state (writing.commit state ledger) := by
  intro id view hview
  obtain ⟨hunacked, hcounts⟩ := hsteady id view hview
  cases hold : writing.previous.monitors.lookup id with
  | none =>
      rw [hold] at hcounts
      rw [Writing.commit_of_new hold hview]
      refine ⟨?_, List.pairwise_singleton _ _, ?_, hunacked⟩
      · rw [hcounts]
        rfl
      · intro count hcount
        rw [List.mem_singleton.mp hcount]
  | some old =>
      rw [hold] at hcounts
      rw [Writing.commit_of_known hold hview, hquiet, List.append_nil]
      exact (h id old hold).steady hcounts.1 hcounts.2 hunacked

/-- A mutation of one view and its queue which keeps the counters. -/
theorem Accounts.commit_view (h : Accounts writing.previous ledger)
    (hquiet : ∀ id, writing.assigned state id = []) {old view : MonitorView}
    (hold : writing.previous.monitors.lookup id = some old)
    (hmonitors : state.monitors = writing.previous.monitors.insert id view)
    (hqueues : ∀ other ≠ id,
      state.incidents.lookup other = writing.previous.incidents.lookup other)
    (hcount : view.incidentCount = old.incidentCount) (hgap : old.gapCount ≤ view.gapCount)
    (hunacked : view.unackedIncidentCount = unackedIn ((state.incidents.lookup id).getD [])) :
    Accounts state (writing.commit state ledger) := by
  apply h.commit_steady hquiet
  intro other view' hview'
  rw [hmonitors, OrderedMap.lookup_insert] at hview'
  by_cases hsame : other = id
  · rw [if_pos hsame, Option.some.injEq] at hview'
    rw [← hview', hsame, hold]
    exact ⟨hunacked, hcount, hgap⟩
  · rw [if_neg hsame] at hview'
    rw [hview', hqueues other hsame]
    exact ⟨(h other view' hview').unacked, rfl, le_refl _⟩

/-- A mutation which leaves monitors and queues alone. -/
theorem Accounts.commit_same (h : Accounts writing.previous ledger)
    (hquiet : ∀ id, writing.assigned state id = [])
    (hmonitors : state.monitors = writing.previous.monitors)
    (hqueues : state.incidents = writing.previous.incidents) :
    Accounts state (writing.commit state ledger) := by
  apply h.commit_steady hquiet
  intro id view hview
  rw [hmonitors] at hview
  rw [hview, hqueues]
  exact ⟨(h id view hview).unacked, rfl, le_refl _⟩

/-! ## Pruning -/

theorem lookup_removeMonitor {view : MonitorView} {removed : Uuid}
    (hview : (removeMonitor removed state).monitors.lookup id = some view) :
    state.monitors.lookup id = some view ∧
      (removeMonitor removed state).incidents.lookup id = state.incidents.lookup id := by
  change (state.monitors.erase removed).lookup id = some view at hview
  change _ ∧ (state.incidents.erase removed).lookup id = _
  rw [OrderedMap.lookup_erase] at hview ⊢
  by_cases hsame : id = removed
  · rw [if_pos hsame] at hview
    cases hview
  · rw [if_neg hsame] at hview
    rw [if_neg hsame]
    exact ⟨hview, rfl⟩

/-- A monitor which is still there was there before, with its queue. -/
theorem lookup_pruneMonitors {view : MonitorView} (fuel : ℕ)
    (hview : (pruneMonitors fuel state).monitors.lookup id = some view) :
    state.monitors.lookup id = some view ∧
      (pruneMonitors fuel state).incidents.lookup id = state.incidents.lookup id := by
  induction fuel generalizing state with
  | zero => exact ⟨hview, rfl⟩
  | succ fuel ih =>
      unfold Monitor.pruneMonitors at hview ⊢
      split at hview
      · rename_i hfull
        rw [if_pos hfull]
        split at hview
        · exact ⟨hview, rfl⟩
        · obtain ⟨hkept, hqueue⟩ := ih hview
          obtain ⟨hkept', hqueue'⟩ := lookup_removeMonitor hkept
          exact ⟨hkept', hqueue.trans hqueue'⟩
      · rename_i hfull
        rw [if_neg hfull]
        exact ⟨hview, rfl⟩

/-- Incidents may go, and their monitors count a gap. -/
def Thinned (state state' : PersistedState) : Prop :=
  ∀ id, match state'.monitors.lookup id with
    | none => state.monitors.lookup id = none
    | some view' => ∃ view, state.monitors.lookup id = some view ∧
        view'.incidentCount = view.incidentCount ∧ view.gapCount ≤ view'.gapCount

theorem Thinned.of_monitors_eq (h : state'.monitors = state.monitors) : Thinned state state' := by
  intro id
  rw [h]
  cases state.monitors.lookup id with
  | none => rfl
  | some view => exact ⟨view, rfl, rfl, le_refl _⟩

theorem Thinned.trans {state'' : PersistedState} (h : Thinned state state')
    (h' : Thinned state' state'') : Thinned state state'' := by
  intro id
  have hid := h id
  have hid' := h' id
  cases hview'' : state''.monitors.lookup id with
  | none =>
      simp only [hview''] at hid'
      simp only [hid'] at hid
      exact hid
  | some view'' =>
      simp only [hview''] at hid'
      obtain ⟨view', hview', hcount', hgap'⟩ := hid'
      simp only [hview'] at hid
      obtain ⟨view, hview, hcount, hgap⟩ := hid
      exact ⟨view, hview, hcount'.trans hcount, hgap.trans hgap'⟩

theorem Thinned.markGap (h : Retained regexError state) (marked : Uuid) (message : String) :
    Thinned state (markIncidentRetentionGap marked message state) := by
  unfold markIncidentRetentionGap
  split
  · exact .of_monitors_eq rfl
  · rename_i view hview
    intro id
    simp only [OrderedMap.lookup_insert]
    by_cases hsame : id = marked
    · rw [if_pos hsame, hsame]
      exact ⟨view, hview, rfl, le_satAdd 1 (h.views marked view hview).2.2⟩
    · rw [if_neg hsame]
      exact (Thinned.of_monitors_eq rfl : Thinned state state) id

theorem Thinned.pruneOneMonitorIncident (h : Retained regexError state) (id : Uuid) :
    Thinned state (pruneOneMonitorIncident id state) := by
  unfold Monitor.pruneOneMonitorIncident
  split
  · exact .of_monitors_eq rfl
  · exact .of_monitors_eq rfl
  · rename_i first rest hqueue
    have hshorter : rest.length ≤ ((state.incidents.lookup id).getD []).length := by
      rw [hqueue]
      exact Nat.le_succ _
    have hretained := h.shrinkQueue (h.queueOwner id _ hqueue) rest hshorter
    exact .trans (.of_monitors_eq rfl) (.markGap hretained id _)

theorem Thinned.pruneOneGlobalIncident (h : Retained regexError state) :
    Thinned state (pruneOneGlobalIncident state) := by
  unfold Monitor.pruneOneGlobalIncident
  split
  · exact .of_monitors_eq rfl
  · split
    · exact .of_monitors_eq rfl
    · rename_i queue hqueue
      have hretained (shorter : List MonitorIncident) (hle : shorter.length ≤ queue.length) :=
        h.shrinkQueue (h.queueOwner _ _ hqueue) shorter (by rw [hqueue]; exact hle)
      exact .trans (.of_monitors_eq rfl) (.markGap (hretained _ (List.length_eraseIdx_le _ _)) _ _)

theorem Thinned.makeIncidentRoom (h : Retained regexError state) (id : Uuid) :
    Thinned state (makeIncidentRoom id state) := by
  unfold Monitor.makeIncidentRoom
  simp only
  split_ifs
  · exact .trans (.pruneOneMonitorIncident h id)
      (.pruneOneGlobalIncident (h.pruneOneMonitorIncident id))
  · exact .pruneOneMonitorIncident h id
  · exact .pruneOneGlobalIncident h
  · exact .of_monitors_eq rfl

/-! ## Mutations -/

/-- A state which is written after the mutation of an operation. -/
def Operation.Writes (regexError : String → Option String) (operation : Operation)
    (previous state : PersistedState) : Prop :=
  operation.mutate regexError previous = (.persisting, state)

variable {previous : PersistedState}

theorem Accounts.create {now : ℤ} {requestId : Uuid} {requested : MonitorSpec}
    {slot : Option (Uuid × ℕ)} (hretained : Retained regexError previous) (h : Accounts previous ledger)
    (hwrites : create regexError now requestId requested slot previous = (.persisting, state)) :
    Accounts state
      ((⟨previous, .create now requestId requested slot⟩ : Writing).commit state ledger) := by
  have hquiet (id : Uuid) :
      (⟨previous, .create now requestId requested slot⟩ : Writing).assigned state id = [] := rfl
  unfold Monitor.create at hwrites
  split at hwrites
  · cases hwrites
  split at hwrites
  · split at hwrites
    · cases hwrites
    · cases hwrites
  rename_i hnew
  split at hwrites
  · cases hwrites
  split at hwrites
  · cases hwrites
  rename_i cursor _
  split at hwrites
  · cases hwrites
  simp only at hwrites
  split at hwrites
  · cases hwrites
  obtain ⟨-, rfl⟩ := Prod.mk.inj hwrites
  apply h.commit_steady hquiet
  have hpruned : Retained regexError (pruneMonitorCapacity previous) := hretained.pruneMonitors _
  intro id view hview
  change ((pruneMonitorCapacity previous).monitors.insert requestId _).lookup id = some view at hview
  change view.unackedIncidentCount = unackedIn
    ((((pruneMonitorCapacity previous).incidents.insert requestId _).lookup id).getD []) ∧ _
  rw [OrderedMap.lookup_insert] at hview ⊢
  by_cases hsame : id = requestId
  · rw [if_pos hsame, Option.some.injEq] at hview
    rw [if_pos hsame, ← hview, hsame, hnew]
    have hqueue : (pruneMonitorCapacity previous).incidents.lookup requestId = none := by
      cases hlookup : (pruneMonitorCapacity previous).incidents.lookup requestId with
      | none => rfl
      | some queue =>
          obtain ⟨kept, hkept⟩ := hpruned.queueOwner requestId queue hlookup
          have hbefore := (lookup_pruneMonitors _ hkept).1
          rw [hnew] at hbefore
          cases hbefore
    rw [hqueue]
    exact ⟨rfl, rfl⟩
  · rw [if_neg hsame] at hview
    obtain ⟨hbefore, hqueue⟩ := lookup_pruneMonitors _ hview
    have hqueue' : (pruneMonitorCapacity previous).incidents.lookup id =
        previous.incidents.lookup id := hqueue
    rw [if_neg hsame, hbefore, hqueue']
    exact ⟨(h id view hbefore).unacked, rfl, le_refl _⟩

theorem Accounts.update {now : ℤ} {view : MonitorView} {spec : MonitorSpec} {cursor : Cursor}
    {expectedRevision : ℕ} (h : Accounts previous ledger)
    (htimely : (⟨previous, .update now id view spec cursor expectedRevision⟩ : Writing).Timely)
    (hwrites : update now id view spec cursor expectedRevision previous = (.persisting, state)) :
    Accounts state
      ((⟨previous, .update now id view spec cursor expectedRevision⟩ : Writing).commit state
        ledger) := by
  unfold Monitor.update at hwrites
  split at hwrites
  · cases hwrites
  rename_i current hcurrent
  split at hwrites
  · cases hwrites
  split at hwrites
  · cases hwrites
  obtain ⟨-, rfl⟩ := Prod.mk.inj hwrites
  obtain ⟨hcount, hunacked, hgap⟩ := htimely current hcurrent
  refine h.commit_view (fun _ => rfl) hcurrent rfl (fun _ _ => rfl) hcount hgap ?_
  exact hunacked.trans (h id current hcurrent).unacked

/-- A change of one view which keeps its counters, but perhaps its gaps. -/
theorem Accounts.editView {operation : Operation} {old view : MonitorView}
    (h : Accounts previous ledger) (hold : previous.monitors.lookup id = some old)
    (hquiet : ∀ other, (⟨previous, operation⟩ : Writing).assigned
      { previous with monitors := previous.monitors.insert id view } other = [])
    (hcount : view.incidentCount = old.incidentCount) (hgap : old.gapCount ≤ view.gapCount)
    (hunacked : view.unackedIncidentCount = old.unackedIncidentCount) :
    Accounts { previous with monitors := previous.monitors.insert id view }
      ((⟨previous, operation⟩ : Writing).commit
        { previous with monitors := previous.monitors.insert id view } ledger) := by
  refine h.commit_view hquiet hold rfl (fun _ _ => rfl) hcount hgap ?_
  exact hunacked.trans (h id old hold).unacked

theorem Accounts.stop {now : ℤ} {expectedRevision : ℕ} (h : Accounts previous ledger)
    (hwrites : stop now id expectedRevision previous = (.persisting, state)) :
    Accounts state ((⟨previous, .stop now id expectedRevision⟩ : Writing).commit state ledger) := by
  unfold Monitor.stop at hwrites
  split at hwrites
  · cases hwrites
  rename_i monitor hmonitor
  split at hwrites
  · cases hwrites
  split at hwrites
  · obtain ⟨-, rfl⟩ := Prod.mk.inj hwrites
    exact h.editView hmonitor (fun _ => rfl) rfl (le_refl _) rfl
  · obtain ⟨-, rfl⟩ := Prod.mk.inj hwrites
    exact h.commit_same (fun _ => rfl) rfl rfl

theorem Accounts.deleteStopped {removed : Uuid} {expectedRevision : ℕ} (h : Accounts previous ledger)
    (hwrites : deleteStopped removed expectedRevision previous = (.persisting, state)) :
    Accounts state
      ((⟨previous, .deleteStopped removed expectedRevision⟩ : Writing).commit state ledger) := by
  unfold Monitor.deleteStopped at hwrites
  split at hwrites
  · cases hwrites
  split at hwrites
  · cases hwrites
  split at hwrites
  · cases hwrites
  obtain ⟨-, rfl⟩ := Prod.mk.inj hwrites
  apply h.commit_steady (fun _ => rfl)
  intro id view hview
  obtain ⟨hbefore, hqueue⟩ := lookup_removeMonitor hview
  rw [hqueue, hbefore]
  exact ⟨(h id view hbefore).unacked, rfl, le_refl _⟩

theorem unackedIn_ackFirst (now : ℤ) {incidentId : Uuid} {queue : List MonitorIncident}
    {incident : MonitorIncident}
    (hfind : queue.find? (fun incident => incident.id = incidentId) = some incident)
    (hunacked : incident.isUnacked = true) :
    unackedIn (ackFirst now incidentId queue) + 1 = unackedIn queue := by
  induction queue with
  | nil => cases hfind
  | cons first rest ih =>
      unfold unackedIn at ih ⊢
      rw [ackFirst]
      rw [List.find?_cons] at hfind
      by_cases hfirst : first.id = incidentId
      · rw [if_pos hfirst]
        simp only [hfirst, decide_true, Option.some.injEq] at hfind
        rw [hfind, if_pos hunacked, List.countP_cons, List.countP_cons, if_pos hunacked]
        simp [MonitorIncident.isUnacked]
      · rw [if_neg hfirst]
        simp only [hfirst, decide_false] at hfind
        have hrest := ih hfind
        rw [List.countP_cons, List.countP_cons]
        omega

theorem Accounts.acknowledgeIncident {now : ℤ} {incidentId : Uuid}
    (hretained : Retained regexError previous) (h : Accounts previous ledger)
    (hwrites : acknowledgeIncident now id incidentId previous = (.persisting, state)) :
    Accounts state
      ((⟨previous, .acknowledgeIncident now id incidentId⟩ : Writing).commit state ledger) := by
  unfold Monitor.acknowledgeIncident at hwrites
  split at hwrites
  · cases hwrites
  rename_i queue hqueue
  split at hwrites
  · cases hwrites
  rename_i incident hfind
  split at hwrites
  · rename_i hunacked
    obtain ⟨monitor, hmonitor⟩ := hretained.queueOwner id queue hqueue
    simp only [hmonitor] at hwrites
    obtain ⟨-, rfl⟩ := Prod.mk.inj hwrites
    have hcounted := (h id monitor hmonitor).unacked
    rw [hqueue] at hcounted
    have hless := unackedIn_ackFirst now hfind hunacked
    have hothers (other : Uuid) (hother : other ≠ id) :
        (previous.incidents.insert id (ackFirst now incidentId queue)).lookup other =
          previous.incidents.lookup other := OrderedMap.lookup_insert_of_ne _ _ hother
    refine h.commit_view (fun _ => rfl) hmonitor rfl hothers rfl (le_refl _) ?_
    change monitor.unackedIncidentCount - 1 =
      unackedIn (((previous.incidents.insert id (ackFirst now incidentId queue)).lookup id).getD [])
    rw [OrderedMap.lookup_insert_self, Option.getD_some, hcounted, Option.getD_some]
    omega
  · obtain ⟨-, rfl⟩ := Prod.mk.inj hwrites
    exact h.commit_same (fun _ => rfl) rfl rfl

theorem Accounts.failMonitor {now : ℤ} {revision : ℕ} {error : String} (h : Accounts previous ledger)
    (hwrites : failMonitor now id revision error previous = (.persisting, state)) :
    Accounts state
      ((⟨previous, .failMonitor now id revision error⟩ : Writing).commit state ledger) := by
  unfold Monitor.failMonitor at hwrites
  split at hwrites
  · cases hwrites
  rename_i monitor hmonitor
  split at hwrites
  · obtain ⟨-, rfl⟩ := Prod.mk.inj hwrites
    exact h.editView hmonitor (fun _ => rfl) rfl (le_refl _) rfl
  · obtain ⟨-, rfl⟩ := Prod.mk.inj hwrites
    exact h.commit_same (fun _ => rfl) rfl rfl

theorem Accounts.completeMonitor {now : ℤ} {expectedRevision : ℕ} (h : Accounts previous ledger)
    (hwrites : completeMonitor now id expectedRevision previous = (.persisting, state)) :
    Accounts state
      ((⟨previous, .completeMonitor now id expectedRevision⟩ : Writing).commit state ledger) := by
  unfold Monitor.completeMonitor at hwrites
  split at hwrites
  · cases hwrites
  rename_i monitor hmonitor
  split at hwrites
  · obtain ⟨-, rfl⟩ := Prod.mk.inj hwrites
    exact h.editView hmonitor (fun _ => rfl) rfl (le_refl _) rfl
  · obtain ⟨-, rfl⟩ := Prod.mk.inj hwrites
    exact h.commit_same (fun _ => rfl) rfl rfl

theorem Accounts.checkpointProgress {expectedRevision : ℕ} {checkpoint : MonitorCheckpoint}
    (h : Accounts previous ledger)
    (hwrites : checkpointProgress id expectedRevision checkpoint previous = (.persisting, state)) :
    Accounts state
      ((⟨previous, .checkpointProgress id expectedRevision checkpoint⟩ : Writing).commit state
        ledger) := by
  unfold Monitor.checkpointProgress at hwrites
  split at hwrites
  · cases hwrites
  split at hwrites
  · cases hwrites
  split at hwrites
  · cases hwrites
  obtain ⟨-, rfl⟩ := Prod.mk.inj hwrites
  exact h.commit_same (fun _ => rfl) rfl rfl

theorem Accounts.recordGap {expectedRevision : ℕ} {message : String}
    (hretained : Retained regexError previous) (h : Accounts previous ledger)
    (hwrites : recordGap id expectedRevision message previous = (.persisting, state)) :
    Accounts state
      ((⟨previous, .recordGap id expectedRevision message⟩ : Writing).commit state ledger) := by
  unfold Monitor.recordGap at hwrites
  split at hwrites
  · cases hwrites
  rename_i monitor hmonitor
  split at hwrites
  · obtain ⟨-, rfl⟩ := Prod.mk.inj hwrites
    exact h.commit_same (fun _ => rfl) rfl rfl
  · obtain ⟨-, rfl⟩ := Prod.mk.inj hwrites
    exact h.editView hmonitor (fun _ => rfl) rfl
      (le_satAdd 1 (hretained.views id monitor hmonitor).2.2) rfl

theorem Accounts.recordIncident {now : ℤ} {serverId incidentId recorded : Uuid}
    {expectedRevision : ℕ} {pending : PendingIncident} {checkpoint : MonitorCheckpoint}
    (hretained : Retained regexError previous) (h : Accounts previous ledger)
    (htimely : (⟨previous, .recordIncident now serverId incidentId recorded expectedRevision pending
      checkpoint⟩ : Writing).Timely)
    (hwrites : recordIncident now serverId incidentId recorded expectedRevision pending checkpoint
      previous = (.persisting, state)) :
    Accounts state ((⟨previous, .recordIncident now serverId incidentId recorded expectedRevision
      pending checkpoint⟩ : Writing).commit state ledger) := by
  unfold Monitor.recordIncident at hwrites
  split at hwrites
  · cases hwrites
  rename_i current hcurrent
  split at hwrites
  · rename_i hother
    obtain ⟨-, rfl⟩ := Prod.mk.inj hwrites
    refine h.commit_same (fun id => ?_) rfl rfl
    simp only [Writing.assigned, hcurrent]
    rw [if_neg]
    rintro ⟨-, hrunning, hrevision⟩
    rcases hother with hstopped | hchanged
    · exact hstopped hrunning
    · exact hchanged hrevision
  rename_i hmatches
  simp only [not_or, not_not] at hmatches
  obtain ⟨hrunning, hrevision⟩ := hmatches
  simp only at hwrites
  split at hwrites
  · cases hwrites
  rename_i monitor hmonitor
  obtain ⟨-, rfl⟩ := Prod.mk.inj hwrites
  have hthinned := Thinned.makeIncidentRoom hretained recorded
  have hroom := hretained.makeIncidentRoom recorded
  obtain ⟨old, hold, hcount, hgap⟩ : ∃ old, previous.monitors.lookup recorded = some old ∧
      monitor.incidentCount = old.incidentCount ∧ old.gapCount ≤ monitor.gapCount := by
    have hfound := hthinned recorded
    simp only [hmonitor] at hfound
    exact hfound
  have hroomleft : monitor.incidentCount < u64Max := by
    rw [hcount]
    rw [hcurrent, Option.some.injEq] at hold
    rw [← hold]
    exact htimely current hcurrent hrunning hrevision
  have hseq : (newIncident now serverId incidentId monitor pending).incidentSeq =
      monitor.incidentCount + 1 := satAdd_eq_add hroomleft
  generalize hroomed : makeIncidentRoom recorded previous = room at *
  generalize hincident : newIncident now serverId incidentId monitor pending = incident at *
  set queue := ((room.incidents.lookup recorded).getD []) ++ [incident] with hqueue
  have hqueues (id : Uuid) :
      (pushIncident recorded incident checkpoint monitor room).incidents.lookup id =
        if id = recorded then some queue else room.incidents.lookup id :=
    OrderedMap.lookup_insert _ _ _ _
  intro id view hview
  have hstored := hview
  simp only [pushIncident, recomputeUnackedCounts, OrderedMap.lookup_mapValues,
    Option.map_eq_some_iff] at hstored
  obtain ⟨stored, hstored, hcounted⟩ := hstored
  -- the recount looks the queue up by the id in the view, which is its key
  have hid : stored.id = id := by
    rw [OrderedMap.lookup_insert] at hstored
    by_cases hsame : id = recorded
    · rw [if_pos hsame, Option.some.injEq] at hstored
      rw [← hstored, hsame]
      exact (hroom.views recorded monitor hmonitor).1
    · rw [if_neg hsame] at hstored
      exact (hroom.views id stored hstored).1
  have hunacked : view.unackedIncidentCount = unackedIn
      (((pushIncident recorded incident checkpoint monitor room).incidents.lookup id).getD []) := by
    rw [← hcounted, hid]
    change (Option.map unackedIn
      ((pushIncident recorded incident checkpoint monitor room).incidents.lookup id)).getD 0 = _
    cases (pushIncident recorded incident checkpoint monitor room).incidents.lookup id with
    | none => rfl
    | some _ => rfl
  by_cases hsame : id = recorded
  · subst hsame
    rw [OrderedMap.lookup_insert_self, Option.some.injEq] at hstored
    have hview_count : view.incidentCount = old.incidentCount + 1 := by
      rw [← hcounted, ← hstored, ← hcount]
      exact hseq
    have hview_gap : old.gapCount ≤ view.gapCount := by
      rw [← hcounted, ← hstored]
      exact hgap
    rw [Writing.commit_of_known hold hview]
    have hassigned : (⟨previous, .recordIncident now serverId incidentId id expectedRevision pending
        checkpoint⟩ : Writing).assigned (pushIncident id incident checkpoint monitor room) id =
          [view.incidentCount] := by
      simp only [Writing.assigned, hcurrent]
      rw [if_pos ⟨trivial, hrunning, hrevision⟩, hqueues, if_pos rfl, Option.getD_some, hqueue,
        List.getLast?_append]
      simp only [List.getLast?_singleton, Option.some_or, Option.map_some, Option.toList_some]
      rw [hseq, hview_count, hcount]
    rw [hassigned]
    exact (h id old hold).recorded hview_count hview_gap hunacked
  · rw [OrderedMap.lookup_insert_of_ne _ _ hsame] at hstored
    have hfound := hthinned id
    simp only [hstored] at hfound
    obtain ⟨before, hbefore, hcount', hgap'⟩ := hfound
    have hview_count : view.incidentCount = before.incidentCount := by
      rw [← hcounted]
      exact hcount'
    have hview_gap : before.gapCount ≤ view.gapCount := by
      rw [← hcounted]
      exact hgap'
    rw [Writing.commit_of_known hbefore hview]
    have hassigned : (⟨previous, .recordIncident now serverId incidentId recorded expectedRevision
        pending checkpoint⟩ : Writing).assigned
          (pushIncident recorded incident checkpoint monitor room) id = [] := by
      simp only [Writing.assigned, hcurrent]
      rw [if_neg]
      rintro ⟨hrecorded, -⟩
      exact hsame hrecorded.symm
    rw [hassigned, List.append_nil]
    exact (h id before hbefore).steady hview_count hview_gap hunacked

/-- The step: a timely mutation keeps the accounts, with what it commits. -/
theorem Accounts.mutate (hretained : Retained regexError previous) (h : Accounts previous ledger)
    {operation : Operation} (htimely : (⟨previous, operation⟩ : Writing).Timely)
    (hwrites : operation.mutate regexError previous = (.persisting, state)) :
    Accounts state ((⟨previous, operation⟩ : Writing).commit state ledger) := by
  cases operation with
  | create now requestId requested slot => exact .create hretained h hwrites
  | update now id view spec cursor expectedRevision => exact .update h htimely hwrites
  | stop now id expectedRevision => exact .stop h hwrites
  | deleteStopped id expectedRevision => exact .deleteStopped h hwrites
  | acknowledgeIncident now id incidentId => exact .acknowledgeIncident hretained h hwrites
  | failMonitor now id revision error => exact .failMonitor h hwrites
  | completeMonitor now id expectedRevision => exact .completeMonitor h hwrites
  | checkpointProgress id expectedRevision checkpoint => exact .checkpointProgress h hwrites
  | recordGap id expectedRevision message => exact .recordGap hretained h hwrites
  | recordIncident now serverId incidentId id expectedRevision pending checkpoint =>
      exact .recordIncident hretained h htimely hwrites

/-- A mutation which returns at once has at most made room for a monitor. -/
theorem Accounts.returned (hretained : Retained regexError previous) (h : Accounts previous ledger)
    {operation : Operation} {result : Except MonitorError Unit}
    (hreturns : operation.mutate regexError previous = (.returned result, state)) :
    Accounts state ledger := by
  have hsame {result' : Except MonitorError Unit}
      (heq : ((.returned result', previous) : Attempt × PersistedState) = (.returned result, state)) :
      Accounts state ledger := by
    rw [← (Prod.mk.inj heq).2]
    exact h
  cases operation with
  | create now requestId requested slot =>
      simp only [Operation.mutate, Monitor.create] at hreturns
      split at hreturns
      · exact hsame hreturns
      split at hreturns
      · split at hreturns
        · exact hsame hreturns
        · exact hsame hreturns
      split at hreturns
      · exact hsame hreturns
      split at hreturns
      · exact hsame hreturns
      split at hreturns
      · exact hsame hreturns
      split at hreturns
      · obtain ⟨-, rfl⟩ := Prod.mk.inj hreturns
        intro id view hview
        obtain ⟨hbefore, hqueue⟩ := lookup_pruneMonitors _ hview
        rw [pruneMonitorCapacity, hqueue]
        exact h id view hbefore
      · cases hreturns
  | update now id view spec cursor expectedRevision =>
      simp only [Operation.mutate, Monitor.update] at hreturns
      split at hreturns
      · exact hsame hreturns
      split at hreturns
      · exact hsame hreturns
      split at hreturns
      · exact hsame hreturns
      · cases hreturns
  | stop now id expectedRevision =>
      simp only [Operation.mutate, Monitor.stop] at hreturns
      split at hreturns
      · exact hsame hreturns
      split at hreturns
      · exact hsame hreturns
      split at hreturns
      · cases hreturns
      · cases hreturns
  | deleteStopped id expectedRevision =>
      simp only [Operation.mutate, Monitor.deleteStopped] at hreturns
      split at hreturns
      · exact hsame hreturns
      split at hreturns
      · exact hsame hreturns
      split at hreturns
      · exact hsame hreturns
      · cases hreturns
  | acknowledgeIncident now id incidentId =>
      simp only [Operation.mutate, Monitor.acknowledgeIncident] at hreturns
      split at hreturns
      · exact hsame hreturns
      split at hreturns
      · exact hsame hreturns
      split at hreturns
      · cases hreturns
      · cases hreturns
  | failMonitor now id revision error =>
      simp only [Operation.mutate, Monitor.failMonitor] at hreturns
      split at hreturns
      · exact hsame hreturns
      split at hreturns
      · cases hreturns
      · cases hreturns
  | completeMonitor now id expectedRevision =>
      simp only [Operation.mutate, Monitor.completeMonitor] at hreturns
      split at hreturns
      · exact hsame hreturns
      split at hreturns
      · cases hreturns
      · cases hreturns
  | checkpointProgress id expectedRevision checkpoint =>
      simp only [Operation.mutate, Monitor.checkpointProgress] at hreturns
      split at hreturns
      · exact hsame hreturns
      split at hreturns
      · exact hsame hreturns
      split at hreturns
      · exact hsame hreturns
      · cases hreturns
  | recordGap id expectedRevision message =>
      simp only [Operation.mutate, Monitor.recordGap] at hreturns
      split at hreturns
      · exact hsame hreturns
      split at hreturns
      · cases hreturns
      · cases hreturns
  | recordIncident now serverId incidentId id expectedRevision pending checkpoint =>
      simp only [Operation.mutate, Monitor.recordIncident] at hreturns
      split at hreturns
      · exact hsame hreturns
      rename_i current hcurrent
      split at hreturns
      · cases hreturns
      split at hreturns
      · rename_i hgone
        -- the monitor was found before, and pruning incidents keeps it
        have hkept := Thinned.makeIncidentRoom hretained id id
        simp only [hgone, hcurrent] at hkept
        cases hkept
      · cases hreturns

/-! ## Runs -/

/-- The committed catalog has its accounts, and so has the one in flight if it is timely. -/
structure Manager.Counted (manager : Manager) : Prop where
  committed : Accounts manager.committed manager.ledger
  staged : ∀ writing, manager.writing = some writing → writing.Timely →
    Accounts manager.state (writing.commit manager.state manager.ledger)

/-- A write is committed only if it is timely. -/
def Act.Timely (manager : Manager) : Act → Prop
  | .persisted => ∀ writing ∈ manager.writing, writing.Timely
  | _ => True

instance (manager : Manager) (act : Act) : Decidable (act.Timely manager) :=
  match act with
  | .persisted => inferInstanceAs (Decidable (∀ writing ∈ manager.writing, writing.Timely))
  | .request _ => isTrue trivial
  | .readUpdate .. => isTrue trivial
  | .readStop .. => isTrue trivial
  | .stopWorker _ => isTrue trivial
  | .mutateCall .. => isTrue trivial
  | .work .. => isTrue trivial
  | .progress .. => isTrue trivial
  | .persistFailed _ => isTrue trivial
  | .reserve .. => isTrue trivial
  | .launch _ => isTrue trivial
  | .clearHandle _ => isTrue trivial
  | .exit _ => isTrue trivial

/-- The acts one after the other, as long as each is timely. -/
def Manager.performTimely (regexError : String → Option String) :
    List Act → Manager → Option Manager
  | [], manager => some manager
  | act :: rest, manager =>
      if act.Timely manager then do
        let manager ← manager.perform regexError act
        performTimely regexError rest manager
      else none

theorem Accounts.progress {view : MonitorView} {cursor : Cursor} (h : Accounts state ledger)
    (hview : state.monitors.lookup id = some view) :
    Accounts
      { state with
        monitors := state.monitors.insert id { view with currentCursor := some cursor } } ledger := by
  intro other view' hview'
  change (state.monitors.insert id _).lookup other = some view' at hview'
  rw [OrderedMap.lookup_insert] at hview'
  by_cases hsame : other = id
  · rw [if_pos hsame, Option.some.injEq] at hview'
    obtain ⟨hassigned, hgaps, hlast, hunacked⟩ := h id view hview
    rw [← hview', hsame]
    exact ⟨hassigned, hgaps, hlast, hunacked⟩
  · rw [if_neg hsame] at hview'
    exact h other view' hview'

theorem Writing.commit_progress {view : MonitorView} {cursor : Cursor}
    (hview : state.monitors.lookup id = some view) :
    writing.commit
      { state with
        monitors := state.monitors.insert id { view with currentCursor := some cursor } } ledger =
      writing.commit state ledger := by
  funext other
  unfold Writing.commit
  simp only [OrderedMap.lookup_insert]
  by_cases hsame : other = id
  · rw [if_pos hsame, hsame, hview]
    cases writing.previous.monitors.lookup id with
    | none => rfl
    | some _ => rfl
  · rw [if_neg hsame]
    rfl

variable {manager manager' : Manager}

theorem Manager.Counted.same (h : manager.Counted) (hsame : manager.SameCore manager') :
    manager'.Counted := by
  have hcommitted : manager'.committed = manager.committed := by
    unfold Manager.committed
    rw [hsame.writing, hsame.state]
  constructor
  · rw [hcommitted, hsame.ledger]
    exact h.committed
  · rw [hsame.writing, hsame.state, hsame.ledger]
    exact h.staged

theorem Manager.Counted.begin (hkept : manager.Kept regexError) (h : manager.Counted)
    {operation : Operation} (hbegin : manager.begin regexError operation = some manager') :
    manager'.Counted := by
  unfold Manager.begin at hbegin
  split at hbegin
  · cases hbegin
  rename_i hfree
  have hcommitted : Accounts manager.state manager.ledger := by
    have haccounts := h.committed
    unfold Manager.committed at haccounts
    rw [hfree] at haccounts
    exact haccounts
  rcases hmutate : operation.mutate regexError manager.state with ⟨result | _, state⟩
  · simp only [hmutate, Option.some.injEq] at hbegin
    subst hbegin
    constructor
    · have hstill := hcommitted.returned hkept.state hmutate
      unfold Manager.committed
      simp only [hfree]
      exact hstill
    · intro writing hwriting
      change manager.writing = some writing at hwriting
      rw [hfree] at hwriting
      cases hwriting
  · simp only [hmutate, Option.some.injEq] at hbegin
    subst hbegin
    constructor
    · exact hcommitted
    · intro writing hwriting htimely
      have hsame := Option.some.inj hwriting
      subst hsame
      exact hcommitted.mutate hkept.state htimely hmutate

/-- The step lemma of a timely run. -/
theorem Manager.Counted.perform (hkept : manager.Kept regexError) (h : manager.Counted) {act : Act}
    (htimely : act.Timely manager) (hact : manager.perform regexError act = some manager') :
    manager'.Counted := by
  cases perform_cases hkept hact with
  | quiet hsame _ => exact h.same hsame
  | began hbegin hsame _ _ => exact (h.begin hkept hbegin).same hsame
  | @progress _ id view cursor hview hstate hwriting hledger _ =>
      constructor
      · unfold Manager.committed
        rw [hwriting, hledger]
        have haccounts := h.committed
        unfold Manager.committed at haccounts
        cases hlock : manager.writing with
        | none =>
            rw [hlock] at haccounts
            change Accounts manager'.state manager.ledger
            rw [hstate]
            exact haccounts.progress hview
        | some writing =>
            rw [hlock] at haccounts
            exact haccounts
      · intro writing hwriting' htimely'
        rw [hwriting] at hwriting'
        rw [hstate, hledger, Writing.commit_progress hview]
        exact (h.staged writing hwriting' htimely').progress hview
  | @persisted writing hwriting hstate hfree hledger =>
      have hstaged := h.staged writing hwriting (htimely writing hwriting)
      constructor
      · unfold Manager.committed
        rw [hfree, hledger]
        change Accounts manager'.state _
        rw [hstate]
        exact hstaged
      · intro writing' hwriting'
        rw [hfree] at hwriting'
        cases hwriting'
  | @persistFailed writing replaced hwriting hstate hfree hledger =>
      have haccounts := h.committed
      unfold Manager.committed at haccounts
      rw [hwriting] at haccounts
      constructor
      · unfold Manager.committed
        rw [hfree, hledger]
        change Accounts manager'.state _
        rw [hstate]
        exact haccounts
      · intro writing' hwriting'
        rw [hfree] at hwriting'
        cases hwriting'

theorem Manager.Counted.run {acts : List Act} (hkept : manager.Kept regexError) (h : manager.Counted)
    (hrun : performTimely regexError acts manager = some manager') : manager'.Counted := by
  induction acts generalizing manager with
  | nil =>
      rw [← Option.some.inj hrun]
      exact h
  | cons act rest ih =>
      rw [performTimely] at hrun
      split at hrun
      · rename_i htimely
        obtain ⟨next, hact, hrest⟩ := Option.bind_eq_some_iff.mp hrun
        exact ih (hkept.perform hact) (h.perform hkept htimely hact) hrest
      · cases hrun

theorem Manager.Counted.fresh (file : Option PersistedState) :
    (Manager.opened .default file).Counted := by
  constructor
  · intro id view hview
    cases hview
  · intro writing hwriting
    cases hwriting

end

/-- In every interleaving whose writes are committed timely, the incident numbers of each
monitor since its creation are strictly increasing and as many as its incident count,
its gap counts never decreased, and its unacked count is that of its retained incidents. -/
theorem incident_numbers_of_timely {regexError : String → Option String} {acts : List Act}
    {manager : Manager}
    (hrun : Manager.performTimely regexError acts (.opened .default none) = some manager) (id : Uuid)
    (view : MonitorView) (hview : manager.committed.monitors.lookup id = some view) :
    (manager.ledger id).assigned.Pairwise (fun a b => a < b) ∧
    view.incidentCount = (manager.ledger id).assigned.length ∧
    (manager.ledger id).gapCounts.Pairwise (fun a b => a ≤ b) ∧
    view.unackedIncidentCount = unackedIn ((manager.committed.incidents.lookup id).getD []) := by
  have hkept : (Manager.opened .default none).Kept regexError :=
    .opened retained_default (fun _ hnone => (by cases hnone))
  have haccounted := (Manager.Counted.run hkept (.fresh none) hrun).committed id view hview
  refine ⟨?_, ?_, haccounted.gaps, haccounted.unacked⟩
  · rw [haccounted.assigned]
    exact List.pairwise_lt_range'
  · rw [haccounted.assigned, List.length_range']

/-! ## A number given twice -/

def watchedSpec : MonitorSpec where
  port := "ttyS0"
  matchers := [.contains "panic"]
  startCursor := none
  severity := .warning
  description := none
  debounceMs := 250
  cooldownMs := 30000
  durationMs := none

def panicSeen : PendingIncident := ⟨1, 5, 5, 0, 0, [⟨0, .contains "panic"⟩], "panic"⟩

/-- A monitor is created and its worker is started. -/
def watching : List Act :=
  [.request (.create 0 7 watchedSpec (some (1, 0))), .persisted, .reserve 7 1 100, .launch 0]

/-- The worker with this token records an incident. -/
def panics (token incidentId : Uuid) (revision : ℕ) : List Act :=
  [.work token (.recordIncident 0 3 incidentId 7 revision panicSeen ⟨⟨1, 5⟩, none, none⟩), .persisted]

/-- The first incident has its number when no update interferes. -/
theorem incident_numbers_watching :
    ∃ manager view, Manager.performTimely (fun _ => none) (watching ++ panics 100 900 1)
        (.opened .default none) = some manager ∧
      manager.committed.monitors.lookup 7 = some view ∧
      (manager.ledger 7).assigned.Pairwise (fun a b => a < b) ∧
      view.incidentCount = (manager.ledger 7).assigned.length := by
  have hsome : ((Manager.performTimely (fun _ => none) (watching ++ panics 100 900 1)
      (.opened .default none)).bind fun manager => manager.committed.monitors.lookup 7).isSome := by
    decide
  obtain ⟨view, hview⟩ := Option.isSome_iff_exists.mp hsome
  obtain ⟨manager, hrun, hview⟩ := Option.bind_eq_some_iff.mp hview
  have hnumbers := incident_numbers_of_timely hrun 7 view hview
  exact ⟨manager, view, hrun, hview, hnumbers.1, hnumbers.2.1⟩

/-- An update reads its view, the worker records an incident before it is stopped, and
the update writes the old counters back: the next incident has number 1 again. -/
theorem incident_number_reused :
    (Manager.performAll (fun _ => none)
      (watching ++ .readUpdate 7 1 watchedSpec (some (1, 0)) :: panics 100 900 1 ++
        [.stopWorker 0, .exit 100, .mutateCall 0 0, .persisted, .reserve 7 2 101, .launch 0] ++
        panics 101 901 2)
      (.opened .default none)).map (fun manager => (manager.ledger 7).assigned) = some [1, 1] := by
  decide

end SerialPlatform.Monitor
