import SerialPlatform.MonitorIncidentPages

/-!
# A poller of incidents

A poller asks for page after page while the daemon works and is started again.  As long as
every number is given once and every incident leaves its queue at the front, its pages
together hide nothing.
-/

namespace SerialPlatform.Monitor

/-! ## Histories -/

/-- The mutation which an act makes. -/
def Act.operation (manager : Manager) : Act → Option Operation
  | .request operation => some operation
  | .work _ operation => some operation
  | .mutateCall place now =>
      manager.calls[place]?.map fun call =>
        match call.change with
        | some (spec, cursor) => .update now call.id call.view spec cursor call.expectedRevision
        | none => .stop now call.id call.expectedRevision
  | _ => none

def Act.Orderly (manager : Manager) (act : Act) : Prop :=
  ∀ operation ∈ act.operation manager, operation.Orderly manager.state

/-- The daemon is stopped and reads the file which it finds. -/
def Manager.restart (regexError : String → Option String) (manager : Manager) : Option Manager :=
  match manager.file with
  | none => some (.opened .default none)
  | some file =>
      match validateLoadedState regexError file with
      | .error _ => none
      | .ok () => some (.opened file (some file))

inductive PollEvent
  | act (act : Act)
  | restart
  | poll (limit : Option ℕ)

/-- A page with the cursor which it was asked for. -/
structure Answer where
  after : Option ℕ
  page : IncidentPage
  deriving DecidableEq

/-- The pages of a monitor which a poller gets; it asks for each behind the one before. -/
def answers (regexError : String → Option String) (id : Uuid) :
    List PollEvent → Manager → Option ℕ → Option (List Answer)
  | [], _, _ => some []
  | .act act :: events, manager, cursor => do
      let manager ← manager.perform regexError act
      answers regexError id events manager cursor
  | .restart :: events, manager, cursor => do
      let manager ← manager.restart regexError
      answers regexError id events manager cursor
  | .poll limit :: events, manager, cursor =>
      match incidents id cursor limit true manager.state with
      | .error _ => answers regexError id events manager cursor
      | .ok page => do
          let later ← answers regexError id events manager page.nextCursor
          some (⟨cursor, page⟩ :: later)

/-- Every act of the history is orderly where it is made. -/
def Orderly (regexError : String → Option String) : List PollEvent → Manager → Prop
  | [], _ => True
  | .act act :: events, manager =>
      act.Orderly manager ∧
        ∀ next ∈ manager.perform regexError act, Orderly regexError events next
  | .restart :: events, manager =>
      ∀ next ∈ manager.restart regexError, Orderly regexError events next
  | .poll _ :: events, manager => Orderly regexError events manager

instance (manager : Manager) (act : Act) : Decidable (act.Orderly manager) :=
  inferInstanceAs (Decidable (∀ operation ∈ act.operation manager, _))

instance decidableOrderly (regexError : String → Option String) :
    ∀ events manager, Decidable (Orderly regexError events manager)
  | [], _ => isTrue trivial
  | .act act :: events, manager =>
      haveI := decidableOrderly regexError events
      inferInstanceAs (Decidable (act.Orderly manager ∧
        ∀ next ∈ manager.perform regexError act, Orderly regexError events next))
  | .restart :: events, manager =>
      haveI := decidableOrderly regexError events
      inferInstanceAs (Decidable
        (∀ next ∈ manager.restart regexError, Orderly regexError events next))
  | .poll _ :: events, manager => decidableOrderly regexError events manager

/-- A cursor does not go back; the newest page gives the first one. -/
def Advances (earlier later : Option ℕ) : Prop :=
  ∀ cursor, earlier = some cursor → ∃ next, later = some next ∧ cursor ≤ next

section

variable {regexError : String → Option String} {manager manager' : Manager} {act : Act}
  {id : Uuid} {events : List PollEvent} {cursor : Option ℕ} {pages : List Answer}

/-! ## Acts -/

/-- What an act does to the catalog, to the write and to the file. -/
inductive Manager.CatalogStep (regexError : String → Option String) (manager manager' : Manager)
    (act : Act) : Prop
  | idle (hstate : manager'.state = manager.state) (hwriting : manager'.writing = manager.writing)
      (hfile : manager'.file = manager.file)
  | began {operation : Operation} {begun : Manager}
      (hoperation : act.operation manager = some operation)
      (hbegin : manager.begin regexError operation = some begun)
      (hstate : manager'.state = begun.state) (hwriting : manager'.writing = begun.writing)
      (hfile : manager'.file = begun.file)
  | progress {id : Uuid} {view : MonitorView} {cursor : Cursor}
      (hview : manager.state.monitors.lookup id = some view)
      (hstate : manager'.state =
        { manager.state with
          monitors := manager.state.monitors.insert id { view with currentCursor := some cursor } })
      (hwriting : manager'.writing = manager.writing) (hfile : manager'.file = manager.file)
  | persisted (hstate : manager'.state = manager.state) (hwriting : manager'.writing = none)
      (hfile : manager'.file = some manager.state)
  | failed {writing : Writing} (hprevious : manager.writing = some writing)
      (hstate : manager'.state = writing.previous) (hwriting : manager'.writing = none)
      (hfile : manager'.file = some manager.state ∨ manager'.file = manager.file)

theorem Manager.perform_catalog (hact : manager.perform regexError act = some manager') :
    manager.CatalogStep regexError manager' act := by
  have hread {id : Uuid} {revision : ℕ} {change : Option (MonitorSpec × Cursor)}
      (hread : manager.read id revision change = some manager') :
      manager.CatalogStep regexError manager' act := by
    unfold Manager.read at hread
    split at hread
    · cases hread
    · split at hread
      · cases hread
        exact .idle rfl rfl rfl
      · cases hread
  cases act with
  | request operation =>
      simp only [Manager.perform] at hact
      split at hact
      · exact .began rfl hact rfl rfl rfl
      · cases hact
  | readUpdate id expectedRevision spec slot =>
      simp only [Manager.perform, Manager.readUpdate] at hact
      split at hact
      · split at hact
        · cases hact
        · exact hread hact
      · cases hact
  | readStop id expectedRevision => exact hread hact
  | stopWorker place =>
      simp only [Manager.perform, Manager.stopWorker] at hact
      obtain ⟨call, -, hact⟩ := Option.bind_eq_some_iff.mp hact
      split at hact
      · cases hact
        cases manager.handleOf call.id call.expectedRevision with
        | none => exact .idle rfl rfl rfl
        | some handle => exact .idle rfl rfl rfl
      · cases hact
      · cases hact
        cases manager.handleOf call.id call.expectedRevision with
        | none => exact .idle rfl rfl rfl
        | some handle => exact .idle rfl rfl rfl
  | mutateCall place now =>
      simp only [Manager.perform, Manager.mutateCall] at hact
      obtain ⟨call, hcall, hact⟩ := Option.bind_eq_some_iff.mp hact
      split at hact
      · split at hact
        · cases hact
        · obtain ⟨begun, hbegin, hdone⟩ := Option.bind_eq_some_iff.mp hact
          cases hdone
          refine .began ?_ hbegin rfl rfl rfl
          dsimp only [Act.operation]
          rw [hcall]
          rfl
      · cases hact
  | work token operation =>
      simp only [Manager.perform] at hact
      split at hact
      · exact .began rfl hact rfl rfl rfl
      · cases hact
  | progress token cursor =>
      simp only [Manager.perform, Manager.progress] at hact
      obtain ⟨worker, -, hact⟩ := Option.bind_eq_some_iff.mp hact
      obtain ⟨view, hview, hact⟩ := Option.bind_eq_some_iff.mp hact
      split at hact
      · cases hact
        exact .progress hview rfl rfl rfl
      · cases hact
        exact .idle rfl rfl rfl
  | persisted =>
      obtain ⟨writing, -, hdone⟩ := Option.bind_eq_some_iff.mp hact
      cases hdone
      exact .persisted rfl rfl rfl
  | persistFailed replaced =>
      obtain ⟨writing, hwriting, hdone⟩ := Option.bind_eq_some_iff.mp hact
      cases hdone
      refine .failed hwriting rfl rfl ?_
      cases replaced with
      | true => exact Or.inl rfl
      | false => exact Or.inr rfl
  | reserve id revision token =>
      simp only [Manager.perform, Manager.reserve] at hact
      split at hact
      · cases hact
        exact .idle rfl rfl rfl
      · cases hact
  | launch place =>
      simp only [Manager.perform, Manager.launch] at hact
      obtain ⟨spawn, -, hact⟩ := Option.bind_eq_some_iff.mp hact
      split at hact
      · cases hact
      split at hact
      · cases hact
        exact .idle rfl rfl rfl
      split at hact
      · cases hact
        exact .idle rfl rfl rfl
      · cases hact
        exact .idle rfl rfl rfl
  | clearHandle token =>
      simp only [Manager.perform, Manager.clearHandle] at hact
      obtain ⟨worker, -, hact⟩ := Option.bind_eq_some_iff.mp hact
      cases hact
      exact .idle rfl rfl rfl
  | exit token =>
      cases hact
      exact .idle rfl rfl rfl

/-! ## Unbroken catalogs -/

/-- Every catalog which a poller may come to see is unbroken. -/
structure Manager.Whole (manager : Manager) : Prop where
  state : Unbroken manager.state
  previous : ∀ writing, manager.writing = some writing → Unbroken writing.previous
  file : ∀ file, manager.file = some file → Unbroken file

theorem Manager.Whole.opened {state : PersistedState} {file : Option PersistedState}
    (hstate : Unbroken state) (hfile : ∀ kept, file = some kept → Unbroken kept) :
    (Manager.opened state file).Whole :=
  ⟨hstate, fun _ hnone => (by cases hnone), hfile⟩

theorem unbroken_default : Unbroken .default := by
  intro id view hview
  cases hview

theorem Manager.Whole.begin (hkept : manager.Kept regexError) (h : manager.Whole)
    {operation : Operation} (horderly : operation.Orderly manager.state)
    (hbegin : manager.begin regexError operation = some manager') : manager'.Whole := by
  have hmutated : Unbroken (operation.mutate regexError manager.state).2 :=
    h.state.mutate hkept.state horderly
  unfold Manager.begin at hbegin
  split at hbegin
  · cases hbegin
  dsimp only at hbegin
  split at hbegin
  · cases hbegin
    exact ⟨hmutated, h.previous, h.file⟩
  · cases hbegin
    refine ⟨hmutated, fun writing hwriting => ?_, h.file⟩
    rw [← Option.some.inj hwriting]
    exact h.state

theorem Manager.Whole.perform (hkept : manager.Kept regexError) (h : manager.Whole)
    (horderly : act.Orderly manager) (hact : manager.perform regexError act = some manager') :
    manager'.Whole := by
  cases perform_catalog hact with
  | idle hstate hwriting hfile => exact ⟨hstate ▸ h.state, hwriting ▸ h.previous, hfile ▸ h.file⟩
  | began hoperation hbegin hstate hwriting hfile =>
      have hbegun := h.begin hkept (horderly _ hoperation) hbegin
      exact ⟨hstate ▸ hbegun.state, hwriting ▸ hbegun.previous, hfile ▸ hbegun.file⟩
  | progress hview hstate hwriting hfile =>
      refine ⟨?_, hwriting ▸ h.previous, hfile ▸ h.file⟩
      rw [hstate]
      exact h.state.carry (.edit hview rfl)
  | persisted hstate hwriting hfile =>
      refine ⟨hstate ▸ h.state, fun writing hsome => ?_, fun file hsome => ?_⟩
      · rw [hwriting] at hsome
        cases hsome
      · rw [hfile] at hsome
        rw [← Option.some.inj hsome]
        exact h.state
  | failed hprevious hstate hwriting hfile =>
      refine ⟨hstate ▸ h.previous _ hprevious, fun writing hsome => ?_, fun file hsome => ?_⟩
      · rw [hwriting] at hsome
        cases hsome
      · rcases hfile with hreplaced | hsame
        · rw [hreplaced] at hsome
          rw [← Option.some.inj hsome]
          exact h.state
        · exact h.file file (hsame ▸ hsome)

theorem Manager.restart_whole (hkept : manager.Kept regexError) (h : manager.Whole)
    (hrestart : manager.restart regexError = some manager') :
    manager'.Kept regexError ∧ manager'.Whole := by
  unfold Manager.restart at hrestart
  split at hrestart
  case h_1 =>
    cases hrestart
    exact ⟨.opened retained_default (fun _ hnone => (by cases hnone)),
      .opened unbroken_default (fun _ hnone => (by cases hnone))⟩
  case h_2 file hfile =>
    split at hrestart
    · cases hrestart
    · cases hrestart
      have hretained := hkept.file file hfile
      have hunbroken := h.file file hfile
      refine ⟨.opened hretained fun kept hkept => ?_, .opened hunbroken fun kept hkept => ?_⟩
      · rwa [← Option.some.inj hkept]
      · rwa [← Option.some.inj hkept]

/-! ## Polls -/

theorem Honest.advances {after : Option ℕ} {page : IncidentPage} (h : Honest after page) :
    Advances after page.nextCursor := h.moves

theorem Advances.trans {first second third : Option ℕ} (h : Advances first second)
    (h' : Advances second third) : Advances first third := by
  intro cursor hcursor
  obtain ⟨next, hnext, hle⟩ := h cursor hcursor
  obtain ⟨last, hlast, hle'⟩ := h' next hnext
  exact ⟨last, hlast, hle.trans hle'⟩

theorem honest_of_unbroken {state : PersistedState} {limit : Option ℕ} {page : IncidentPage}
    (h : Unbroken state) (hpage : incidents id cursor limit true state = .ok page) :
    Honest cursor page := by
  cases hview : state.monitors.lookup id with
  | none =>
      unfold incidents at hpage
      rw [hview] at hpage
      cases hpage
  | some view => exact honest_of_consecutive hview (h id view hview) hpage

/-- The pages of a poller, from any catalog which is whole. -/
theorem answers_honest (hkept : manager.Kept regexError) (hwhole : manager.Whole)
    (horderly : Orderly regexError events manager)
    (hpages : answers regexError id events manager cursor = some pages) :
    (∀ answer ∈ pages, Honest answer.after answer.page ∧
      Advances cursor answer.page.nextCursor) ∧
      pages.Pairwise fun earlier later =>
        Advances earlier.page.nextCursor later.page.nextCursor := by
  induction events generalizing manager cursor pages with
  | nil =>
      cases hpages
      exact ⟨fun answer hanswer => (by cases hanswer), List.Pairwise.nil⟩
  | cons event events ih =>
      cases event with
      | act act =>
          obtain ⟨next, hact, hrest⟩ := Option.bind_eq_some_iff.mp hpages
          exact ih (hkept.perform hact) (hwhole.perform hkept horderly.1 hact)
            (horderly.2 next hact) hrest
      | restart =>
          obtain ⟨next, hrestart, hrest⟩ := Option.bind_eq_some_iff.mp hpages
          obtain ⟨hkeptNext, hwholeNext⟩ := Manager.restart_whole hkept hwhole hrestart
          exact ih hkeptNext hwholeNext (horderly next hrestart) hrest
      | poll limit =>
          unfold answers at hpages
          cases hpage : incidents id cursor limit true manager.state with
          | error error =>
              rw [hpage] at hpages
              exact ih hkept hwhole horderly hpages
          | ok page =>
              rw [hpage] at hpages
              obtain ⟨later, hlater, hdone⟩ := Option.bind_eq_some_iff.mp hpages
              cases hdone
              have hhonest := honest_of_unbroken hwhole.state hpage
              obtain ⟨hall, hpairwise⟩ := ih hkept hwhole horderly hlater
              constructor
              · intro answer hanswer
                rcases List.mem_cons.mp hanswer with rfl | hanswer
                · exact ⟨hhonest, hhonest.advances⟩
                · obtain ⟨hanswerHonest, hadvances⟩ := hall answer hanswer
                  exact ⟨hanswerHonest, hhonest.advances.trans hadvances⟩
              · exact List.pairwise_cons.mpr
                  ⟨fun answer hanswer => (hall answer hanswer).2, hpairwise⟩

end

/-- Where each number is given once and each incident leaves its queue at the front, the pages
of a poller are in order and hide nothing, and its cursor never goes back. -/
theorem incident_pages_hide_nothing {regexError : String → Option String} {id : Uuid}
    {events : List PollEvent} {cursor : Option ℕ} {pages : List Answer}
    (hpages : answers regexError id events (.opened .default none) cursor = some pages)
    (horderly : Orderly regexError events (.opened .default none)) :
    (∀ answer ∈ pages,
      (answer.page.incidents.Pairwise fun a b => a.incidentSeq < b.incidentSeq) ∧
      ∀ after next, answer.after = some after → answer.page.nextCursor = some next →
        after ≤ next ∧ ∀ number, after < number → number ≤ next →
          number ∈ seqs answer.page.incidents ∨ answer.page.retentionGap = true) ∧
      pages.Pairwise fun earlier later =>
        Advances earlier.page.nextCursor later.page.nextCursor := by
  have hkept : (Manager.opened .default none).Kept regexError :=
    .opened retained_default (fun _ hnone => (by cases hnone))
  have hwhole : (Manager.opened .default none).Whole :=
    .opened unbroken_default (fun _ hnone => (by cases hnone))
  obtain ⟨hall, hpairwise⟩ := answers_honest hkept hwhole horderly hpages
  refine ⟨fun answer hanswer => ?_, hpairwise⟩
  have hhonest := (hall answer hanswer).1
  refine ⟨hhonest.ordered, fun after next hafter hnext => ⟨?_, ?_⟩⟩
  · obtain ⟨later, hlater, hle⟩ := hhonest.moves after hafter
    obtain rfl := Option.some.inj (hnext.symm.trans hlater)
    exact hle
  · exact hhonest.complete after next hafter hnext

/-- One incident, the page with it, and an empty page behind it. -/
theorem incident_pages_hide_nothing_once :
    ∃ pages, answers (fun _ => none) 7
        ((watching ++ panics 100 900 1).map .act ++ [.poll none, .restart, .poll none])
        (.opened .default none) (some 0) = some pages ∧
      pages.map (fun answer => seqs answer.page.incidents) = [[1], []] ∧
      pages.Pairwise fun earlier later =>
        Advances earlier.page.nextCursor later.page.nextCursor := by
  have hsome : ((answers (fun _ => none) 7
      ((watching ++ panics 100 900 1).map .act ++ [.poll none, .restart, .poll none])
      (.opened .default none) (some 0)).map fun pages =>
        pages.map fun answer => seqs answer.page.incidents) = some [[1], []] := by
    decide
  obtain ⟨pages, hpages, hseqs⟩ := Option.map_eq_some_iff.mp hsome
  exact ⟨pages, hpages, hseqs, (incident_pages_hide_nothing hpages (by decide)).2⟩

/-! ## A clock which steps back -/

/-- A monitor is created and its worker is started. -/
def watches (id token : Uuid) : List Act :=
  [.request (.create 0 id watchedSpec (some (1, 0))), .persisted, .reserve id 1 token, .launch 0]

/-- The worker with this token records an incident at each of the times. -/
def records (id token : Uuid) (times : List ℤ) : List Act :=
  times.flatMap fun now =>
    [.work token (.recordIncident now 3 900 id 1 panicSeen ⟨⟨1, 5⟩, none, none⟩), .persisted]

/-- Three monitors with their workers. -/
def threeWatched : List (Uuid × Uuid) := [(7, 100), (8, 101), (9, 102)]

/-- The monitors have incidents of these times, with numbers from one on. -/
structure Filled (times : Uuid → List ℤ) (total : ℕ) (manager : Manager) : Prop where
  free : manager.writing = none
  workers : ∀ pair ∈ threeWatched, ∃ worker ∈ manager.workers, worker.token = pair.2 ∧
    worker.monitorId = pair.1 ∧ worker.revision = 1
  views : ∀ pair ∈ threeWatched, ∃ view, manager.state.monitors.lookup pair.1 = some view ∧
    view.isRunning = true ∧ view.revision = 1 ∧ view.incidentCount = (times pair.1).length
  created : ∀ id, (manager.state.queue id).map MonitorIncident.createdWallTimeNs = times id
  numbered : ∀ id, seqs (manager.state.queue id) = List.range' 1 (times id).length
  total : incidentTotal manager.state = total

section

variable {manager : Manager} {times : Uuid → List ℤ} {total : ℕ} {id token : Uuid} {now : ℤ}

theorem performAll_append {regexError : String → Option String} (first second : List Act)
    (manager : Manager) :
    Manager.performAll regexError (first ++ second) manager =
      (Manager.performAll regexError first manager).bind
        (Manager.performAll regexError second) := by
  induction first generalizing manager with
  | nil => rfl
  | cons act first ih =>
      rw [List.cons_append, Manager.performAll, Manager.performAll]
      cases manager.perform regexError act with
      | none => rfl
      | some next => exact ih next

theorem answers_act {regexError : String → Option String} {acts : List Act} {next : Manager}
    (hacts : Manager.performAll regexError acts manager = some next) (id : Uuid)
    (events : List PollEvent) (cursor : Option ℕ) :
    answers regexError id (acts.map .act ++ events) manager cursor =
      answers regexError id events next cursor := by
  induction acts generalizing manager with
  | nil =>
      cases hacts
      rfl
  | cons act acts ih =>
      obtain ⟨middle, hact, hrest⟩ := Option.bind_eq_some_iff.mp hacts
      rw [List.map_cons, List.cons_append, answers, hact]
      exact ih hrest

theorem exists_threeWatched :
    ∃ manager, Manager.performAll (fun _ => none) (watches 7 100 ++ watches 8 101 ++ watches 9 102)
        (.opened .default none) = some manager ∧ Filled (fun _ => []) 0 manager := by
  have hany : ((Manager.performAll (fun _ => none)
      (watches 7 100 ++ watches 8 101 ++ watches 9 102) (.opened .default none)).any
        fun manager => decide (manager.writing.isNone ∧
          (∀ pair ∈ threeWatched, ∃ worker ∈ manager.workers, worker.token = pair.2 ∧
            worker.monitorId = pair.1 ∧ worker.revision = 1) ∧
          (∀ pair ∈ threeWatched, ∃ view ∈ manager.state.monitors.lookup pair.1,
            view.isRunning = true ∧ view.revision = 1 ∧ view.incidentCount = 0) ∧
          (∀ entry ∈ manager.state.incidents.entries, entry.2 = []) ∧
          incidentTotal manager.state = 0)) = true := by
    decide
  obtain ⟨manager, hmanager, hstart⟩ := Option.any_eq_true _ _ |>.mp hany
  obtain ⟨hfree, hworkers, hviews, hqueues, htotal⟩ := of_decide_eq_true hstart
  have hempty : ∀ id, manager.state.queue id = [] := by
    intro id
    unfold PersistedState.queue
    cases hqueue : manager.state.incidents.lookup id with
    | none => rfl
    | some queue => exact hqueues _ (OrderedMap.lookup_eq_some_iff.mp hqueue)
  refine ⟨manager, hmanager, Option.isNone_iff_eq_none.mp hfree, hworkers, hviews, fun id => ?_,
    fun id => ?_, htotal⟩
  · rw [hempty]
    rfl
  · rw [hempty]
    rfl

/-- A worker records an incident and it is written. -/
theorem perform_records {view after : MonitorView} {room : PersistedState}
    (hfree : manager.writing = none)
    (hworker : ∃ worker ∈ manager.workers, worker.token = token ∧ worker.monitorId = id ∧
      worker.revision = 1)
    (hview : manager.state.monitors.lookup id = some view) (hrunning : view.isRunning = true)
    (hrevision : view.revision = 1) (hroom : makeIncidentRoom id manager.state = room)
    (hafter : room.monitors.lookup id = some after) (now : ℤ) :
    ∃ next, Manager.performAll (fun _ => none) (records id token [now]) manager = some next ∧
      next.writing = none ∧ next.workers = manager.workers ∧
      next.state = pushIncident id (newIncident now 3 900 after panicSeen)
        ⟨⟨1, 5⟩, none, none⟩ after room := by
  have hmutate : recordIncident now 3 900 id 1 panicSeen ⟨⟨1, 5⟩, none, none⟩ manager.state =
      (.persisting, pushIncident id (newIncident now 3 900 after panicSeen)
        ⟨⟨1, 5⟩, none, none⟩ after room) := by
    have hmatches : ¬(¬view.isRunning = true ∨ view.revision ≠ 1) := by
      rw [not_or, not_not, not_not]
      exact ⟨hrunning, hrevision⟩
    unfold recordIncident
    rw [hview]
    dsimp only
    rw [if_neg hmatches, hroom, hafter]
  have hallowed : ∃ worker ∈ manager.workers, worker.token = token ∧
      Manager.workerOperation worker
        (.recordIncident now 3 900 id 1 panicSeen ⟨⟨1, 5⟩, none, none⟩) = true := by
    obtain ⟨worker, hmem, htoken, hid, hworkerRevision⟩ := hworker
    exact ⟨worker, hmem, htoken, by simp [Manager.workerOperation, hid, hworkerRevision]⟩
  obtain ⟨writing, hwriting⟩ : ∃ writing : Writing, writing = ⟨manager.state,
      .recordIncident now 3 900 id 1 panicSeen ⟨⟨1, 5⟩, none, none⟩⟩ := ⟨_, rfl⟩
  obtain ⟨state, hstate⟩ : ∃ state, state = pushIncident id (newIncident now 3 900 after panicSeen)
      ⟨⟨1, 5⟩, none, none⟩ after room := ⟨_, rfl⟩
  have hbegin : manager.begin (fun _ => none)
      (.recordIncident now 3 900 id 1 panicSeen ⟨⟨1, 5⟩, none, none⟩) =
        some { manager with state := state, writing := some writing } := by
    unfold Manager.begin
    rw [hfree]
    dsimp only [Operation.mutate]
    rw [hmutate, hwriting, hstate]
  refine ⟨{ manager with
    state := state
    file := some state
    writing := none
    ledger := writing.commit state manager.ledger }, ?_, rfl, rfl, hstate⟩
  have hperform : manager.perform (fun _ => none)
      (.work token (.recordIncident now 3 900 id 1 panicSeen ⟨⟨1, 5⟩, none, none⟩)) =
        some { manager with state := state, writing := some writing } :=
    (if_pos hallowed).trans hbegin
  unfold records
  rw [List.flatMap_singleton, Manager.performAll, hperform]
  rfl

theorem makeIncidentRoom_of_room {state : PersistedState}
    (hroom : (state.queue id).length < maxIncidentsPerMonitor)
    (htotal : incidentTotal state < maxIncidentsTotal) : makeIncidentRoom id state = state := by
  have hown : pruneOwnIncident id state = state := if_neg (Nat.not_le.mpr hroom)
  rw [makeIncidentRoom_eq, hown]
  exact if_neg (Nat.not_le.mpr htotal)

theorem Filled.length_queue (h : Filled times total manager) (id : Uuid) :
    (manager.state.queue id).length = (times id).length := by
  rw [← h.created id, List.length_map]

/-- One more incident, where there is room for it. -/
theorem Filled.record (h : Filled times total manager) (hwatched : (id, token) ∈ threeWatched)
    (hroom : (times id).length < maxIncidentsPerMonitor) (htotal : total < maxIncidentsTotal)
    (now : ℤ) :
    ∃ next, Manager.performAll (fun _ => none) (records id token [now]) manager = some next ∧
      Filled (Function.update times id (times id ++ [now])) (total + 1) next := by
  obtain ⟨view, hview, hrunning, hrevision, hcount⟩ := h.views _ hwatched
  dsimp only at hview hcount
  have hfits : makeIncidentRoom id manager.state = manager.state := by
    refine makeIncidentRoom_of_room ?_ (h.total ▸ htotal)
    rw [h.length_queue]
    exact hroom
  obtain ⟨next, hrecords, hfree, hworkers, hstate⟩ :=
    perform_records h.free (h.workers _ hwatched) hview hrunning hrevision hfits hview now
  have hbound : view.incidentCount + 1 ≤ u64Max := by
    have hmax : maxIncidentsPerMonitor ≤ u64Max := by decide
    omega
  have hseq : (newIncident now 3 900 view panicSeen).incidentSeq = (times id).length + 1 := by
    rw [← hcount]
    exact satAdd_eq_add hbound
  have hlength : ∀ other, (Function.update times id (times id ++ [now]) other).length =
      if other = id then (times id).length + 1 else (times other).length := by
    intro other
    by_cases hsame : other = id
    · rw [hsame, Function.update_self, if_pos rfl, List.length_append, List.length_singleton]
    · rw [Function.update_of_ne hsame, if_neg hsame]
  refine ⟨next, hrecords, hfree, hworkers ▸ h.workers, fun pair hpair => ?_, fun other => ?_,
    fun other => ?_, ?_⟩
  · obtain ⟨old, hold, holdRunning, holdRevision, holdCount⟩ := h.views pair hpair
    obtain ⟨unacked, hlookup⟩ := lookup_pushIncident manager.state id view
      (newIncident now 3 900 view panicSeen) ⟨⟨1, 5⟩, none, none⟩ pair.1
    rw [hstate, hlookup, hlength]
    split
    case isTrue => exact ⟨_, rfl, hrunning, hrevision, hseq⟩
    case isFalse =>
      rw [hold]
      exact ⟨_, rfl, holdRunning, holdRevision, holdCount⟩
  · rw [hstate, queue_pushIncident]
    by_cases hsame : other = id
    · rw [if_pos hsame, List.map_append, h.created, hsame, Function.update_self]
      rfl
    · rw [if_neg hsame, h.created, Function.update_of_ne hsame]
  · rw [hstate, queue_pushIncident, hlength]
    split
    case isTrue =>
      rw [List.range'_concat, ← h.numbered id, Nat.one_mul, Nat.add_comm 1, ← hseq]
      exact List.map_append
    case isFalse => exact h.numbered other
  · rw [hstate, incidentTotal_pushIncident, h.total]

theorem Filled.recordAll (h : Filled times total manager) (hwatched : (id, token) ∈ threeWatched)
    (news : List ℤ) (hroom : (times id).length + news.length ≤ maxIncidentsPerMonitor)
    (htotal : total + news.length ≤ maxIncidentsTotal) :
    ∃ next, Manager.performAll (fun _ => none) (records id token news) manager = some next ∧
      Filled (Function.update times id (times id ++ news)) (total + news.length) next := by
  induction news generalizing manager times total with
  | nil =>
      refine ⟨manager, rfl, ?_⟩
      rw [List.append_nil, Function.update_eq_self]
      exact h
  | cons now news ih =>
      rw [List.length_cons] at hroom htotal
      obtain ⟨middle, hfirst, hmiddle⟩ := h.record hwatched (by omega) (by omega) now
      have hlength : (Function.update times id (times id ++ [now]) id).length =
          (times id).length + 1 := by
        rw [Function.update_self, List.length_append, List.length_singleton]
      obtain ⟨next, hrest, hnext⟩ := ih hmiddle (by omega) (by omega)
      refine ⟨next, ?_, ?_⟩
      · have hsplit : records id token (now :: news) =
            records id token [now] ++ records id token news := rfl
        rw [hsplit, performAll_append, hfirst]
        exact hrest
      · rw [Function.update_self, Function.update_idem, List.append_assoc,
          List.singleton_append] at hnext
        rw [List.length_cons, Nat.add_comm news.length, ← Nat.add_assoc]
        exact hnext

/-- Three monitors fill the catalog, and the clock is set back while the first one records its
second incident; then the last one records once more. -/
def steppedBack : List Act :=
  watches 7 100 ++ watches 8 101 ++ watches 9 102 ++
    (records 7 100 [1, 0, 1] ++ (records 8 101 (List.replicate 511 1) ++
      (records 9 102 (List.replicate 510 1) ++ records 9 102 [1])))

def steppedTimes : Uuid → List ℤ :=
  Function.update (Function.update (Function.update (fun _ => []) 7 [1, 0, 1]) 8
    (List.replicate 511 1)) 9 (List.replicate 510 1)

theorem exists_filled :
    ∃ manager, Manager.performAll (fun _ => none)
        (watches 7 100 ++ watches 8 101 ++ watches 9 102 ++
          (records 7 100 [1, 0, 1] ++ (records 8 101 (List.replicate 511 1) ++
            records 9 102 (List.replicate 510 1)))) (.opened .default none) = some manager ∧
      Filled steppedTimes 1024 manager := by
  obtain ⟨start, hstart, hempty⟩ := exists_threeWatched
  obtain ⟨first, hfirst, hfilledFirst⟩ :=
    hempty.recordAll (by decide : ((7, 100) : Uuid × Uuid) ∈ threeWatched) [1, 0, 1] (by decide)
      (by decide)
  obtain ⟨second, hsecond, hfilledSecond⟩ :=
    hfilledFirst.recordAll (by decide : ((8, 101) : Uuid × Uuid) ∈ threeWatched)
      (List.replicate 511 1) (by rw [List.length_replicate]; decide)
      (by rw [List.length_replicate]; decide)
  obtain ⟨third, hthird, hfilledThird⟩ :=
    hfilledSecond.recordAll (by decide : ((9, 102) : Uuid × Uuid) ∈ threeWatched)
      (List.replicate 510 1) (by rw [List.length_replicate]; decide)
      (by rw [List.length_replicate, List.length_replicate]; decide)
  refine ⟨third, ?_, ?_⟩
  · rw [performAll_append, hstart, Option.bind_some, performAll_append, hfirst, Option.bind_some,
      performAll_append, hsecond, Option.bind_some]
    exact hthird
  · rw [List.length_replicate, List.length_replicate] at hfilledThird
    exact hfilledThird

theorem least_of_filled (h : Filled steppedTimes 1024 manager) :
    firstMin (fun a b => a.2.2 < b.2.2) (incidentPlaces manager.state) = some (7, 1, 0) := by
  have hplaces : ∀ place, place ∈ incidentPlaces manager.state ↔
      (steppedTimes place.1)[place.2.1]? = some place.2.2 := by
    intro place
    rw [mem_incidentPlaces_iff, ← h.created, List.getElem?_map]
  have hold : (7, 1, 0) ∈ incidentPlaces manager.state := (hplaces _).mpr rfl
  have hsome : firstMin (fun a b => a.2.2 < b.2.2) (incidentPlaces manager.state) ≠ none := by
    intro hnone
    rw [firstMin_eq_none _ hnone] at hold
    cases hold
  obtain ⟨⟨id, index, time⟩, hmin⟩ := Option.ne_none_iff_exists'.mp hsome
  obtain ⟨earlier, later, hsplit, hearlier, hlater⟩ := firstMin_split hmin
  have hle : time ≤ 0 := by
    rw [hsplit] at hold
    rcases List.mem_append.mp hold with hbefore | hbehind
    · exact (hearlier _ hbefore).le
    · rcases List.mem_cons.mp hbehind with hsame | hafter
      · exact (Prod.mk.inj (Prod.mk.inj hsame).2).2.ge
      · exact hlater _ hafter
  have hplace := (hplaces _).mp (firstMin_mem _ hmin)
  dsimp only [steppedTimes] at hplace
  rw [hmin]
  have hones : ∀ count : ℕ, (List.replicate count (1 : ℤ))[index]? ≠ some time := by
    intro count hsome
    have hone := List.eq_of_mem_replicate (List.mem_of_getElem? hsome)
    omega
  by_cases hlast : id = 9
  · rw [hlast, Function.update_self] at hplace
    exact absurd hplace (hones 510)
  rw [Function.update_of_ne hlast] at hplace
  by_cases hmiddle : id = 8
  · rw [hmiddle, Function.update_self] at hplace
    exact absurd hplace (hones 511)
  rw [Function.update_of_ne hmiddle] at hplace
  by_cases hfirst : id = 7
  · subst hfirst
    rw [Function.update_self] at hplace
    match index, hplace with
    | 0, hplace =>
        cases hplace
        omega
    | 1, hplace =>
        cases hplace
        rfl
    | 2, hplace =>
        cases hplace
        omega
  · rw [Function.update_of_ne hfirst] at hplace
    cases hplace

/-- The first monitor has lost its second incident, which is older by its time than the first. -/
theorem exists_holed :
    ∃ manager view, Manager.performAll (fun _ => none) steppedBack (.opened .default none) =
        some manager ∧
      manager.state.monitors.lookup 7 = some view ∧ view.incidentCount = 3 ∧
      seqs (manager.state.queue 7) = [1, 3] := by
  obtain ⟨manager, hacts, hfilled⟩ := exists_filled
  have hlast : ((9, 102) : Uuid × Uuid) ∈ threeWatched := by decide
  have hfirst : ((7, 100) : Uuid × Uuid) ∈ threeWatched := by decide
  obtain ⟨view, hview, hrunning, hrevision, -⟩ := hfilled.views _ hlast
  obtain ⟨holed, hholed, -, -, hcount⟩ := hfilled.views _ hfirst
  have hlength : (manager.state.queue 7).length = 3 := hfilled.length_queue 7
  obtain ⟨queue, hqueue⟩ : ∃ queue, manager.state.incidents.lookup 7 = some queue := by
    cases hlookup : manager.state.incidents.lookup 7 with
    | none =>
        unfold PersistedState.queue at hlength
        rw [hlookup] at hlength
        cases hlength
    | some queue => exact ⟨queue, rfl⟩
  have hnumbers : seqs queue = [1, 2, 3] := by
    have hnumbered := hfilled.numbered 7
    unfold PersistedState.queue at hnumbered
    rw [hqueue] at hnumbered
    exact hnumbered
  obtain ⟨room, hroom⟩ : ∃ room, room = markIncidentRetentionGap 7
      "oldest retained Incident was pruned at the global capacity"
      { manager.state with incidents := manager.state.incidents.insert 7 (queue.eraseIdx 1) } :=
    ⟨_, rfl⟩
  have hmakes : makeIncidentRoom 9 manager.state = room := by
    have hfits : (manager.state.queue 9).length < maxIncidentsPerMonitor := by
      rw [hfilled.length_queue, steppedTimes, Function.update_self, List.length_replicate]
      decide
    have hown : pruneOwnIncident 9 manager.state = manager.state := if_neg (Nat.not_le.mpr hfits)
    rw [makeIncidentRoom_eq, hown, hfilled.total, if_pos (by decide), hroom]
    unfold pruneOneGlobalIncident
    rw [least_of_filled hfilled]
    dsimp only
    rw [hqueue]
  have hmonitors : room.monitors = manager.state.monitors.insert 7
      { holed with
        gapCount := satAdd u64Max holed.gapCount 1
        lastError := some "oldest retained Incident was pruned at the global capacity" } := by
    rw [hroom, markIncidentRetentionGap]
    dsimp only
    rw [hholed]
  have hafter : room.monitors.lookup 9 = some view := by
    rw [hmonitors, OrderedMap.lookup_insert_of_ne _ _ (by decide)]
    exact hview
  obtain ⟨next, hrecords, -, -, hstate⟩ := perform_records hfilled.free (hfilled.workers _ hlast)
    hview hrunning hrevision hmakes hafter 1
  obtain ⟨unacked, hlookup⟩ := lookup_pushIncident room 9 view (newIncident 1 3 900 view panicSeen)
    ⟨⟨1, 5⟩, none, none⟩ 7
  rw [if_neg (by decide), hmonitors, OrderedMap.lookup_insert_self, Option.map_some,
    ← hstate] at hlookup
  refine ⟨next, _, ?_, hlookup, hcount, ?_⟩
  · have hsplit : steppedBack = (watches 7 100 ++ watches 8 101 ++ watches 9 102 ++
        (records 7 100 [1, 0, 1] ++ (records 8 101 (List.replicate 511 1) ++
          records 9 102 (List.replicate 510 1)))) ++ records 9 102 [1] := by
      unfold steppedBack
      simp only [List.append_assoc]
    rw [hsplit, performAll_append, hacts]
    exact hrecords
  · rw [hstate, queue_pushIncident, if_neg (by decide)]
    unfold PersistedState.queue
    rw [hroom, incidents_markGap]
    dsimp only
    rw [OrderedMap.lookup_insert_self, Option.getD_some]
    obtain ⟨first, rest, rfl, hone, hrest⟩ := List.map_eq_cons_iff.mp hnumbers
    obtain ⟨second, rest, rfl, -, hthree⟩ := List.map_eq_cons_iff.mp hrest
    rw [List.eraseIdx_cons_succ, List.eraseIdx_cons_zero]
    exact congrArg₂ List.cons hone hthree

/-- A poller which knows of no incident gets the first and the third, and no word of the
second. -/
theorem incident_page_hides_one :
    ∃ page, answers (fun _ => none) 7 (steppedBack.map .act ++ [.poll none])
        (.opened .default none) (some 0) = some [⟨some 0, page⟩] ∧
      page.nextCursor = some 3 ∧ 2 ∉ seqs page.incidents ∧ page.retentionGap = false := by
  obtain ⟨manager, view, hacts, hview, hcount, hseqs⟩ := exists_holed
  have hsome : ∃ page, incidents 7 (some 0) none true manager.state = .ok page := by
    unfold incidents
    rw [hview]
    exact ⟨_, rfl⟩
  obtain ⟨page, hpage⟩ := hsome
  have htaken := taken_of_page hview hpage
  obtain ⟨first, rest, hqueue, hfirst, hrest⟩ := List.map_eq_cons_iff.mp hseqs
  obtain ⟨second, rest, rfl, hsecond, hnil⟩ := List.map_eq_cons_iff.mp hrest
  rw [List.map_eq_nil_iff.mp hnil] at hqueue
  have hselected : (manager.state.queue 7).filter (fun incident => 0 < incident.incidentSeq) =
      [first, second] := by
    rw [hqueue]
    simp [hfirst, hsecond]
  have hincidents := htaken.incidents
  have hfits : [first, second].length ≤ max 1 (min (Option.none.getD defaultPage) maxPage) :=
    (by decide : 2 ≤ max 1 (min (Option.none.getD defaultPage) maxPage))
  have hnext := htaken.whole (hselected ▸ hfits)
  have hgap := htaken.gap
  rw [hselected] at hincidents
  rw [hcount] at hnext
  rw [hqueue] at hgap
  dsimp only at hgap
  refine ⟨page, ?_, hnext, ?_, ?_⟩
  · rw [answers_act hacts, answers, hpage]
    rfl
  · rw [hincidents]
    simp [seqs, hfirst, hsecond, defaultPage, maxPage]
  · rw [hfirst] at hgap
    simpa using hgap

end

end SerialPlatform.Monitor
