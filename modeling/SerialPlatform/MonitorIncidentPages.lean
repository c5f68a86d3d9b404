import SerialPlatform.MonitorCounts

/-!
# Pages of incidents

A poller asks for the incidents of a monitor behind the last one it knows.  The numbers
of a queue follow each other as long as incidents leave it at its front, and then a page
tells of everything which it does not have.
-/

namespace SerialPlatform.Monitor

/-- `DEFAULT_PAGE` -/
def defaultPage : ℕ := 100

/-- `MAX_PAGE` -/
def maxPage : ℕ := 200

/-- `MonitorIncidentListResponse` -/
structure IncidentPage where
  incidents : List MonitorIncident
  nextCursor : Option ℕ
  truncated : Bool
  firstAvailableIncidentSeq : Option ℕ
  retentionGap : Bool
  deriving DecidableEq

def PersistedState.queue (state : PersistedState) (id : Uuid) : List MonitorIncident :=
  (state.incidents.lookup id).getD []

/-- The incidents behind a cursor, or the newest ones. -/
def selectIncidents (eligible : List MonitorIncident) (limit : ℕ) :
    Option ℕ → List MonitorIncident
  | none => eligible.drop (eligible.length - limit)
  | some after => eligible.filter fun incident => after < incident.incidentSeq

/-- `MonitorManager::incidents` -/
def incidents (id : Uuid) (afterIncidentSeq limit : Option ℕ) (includeAcked : Bool)
    (state : PersistedState) : Except MonitorError IncidentPage :=
  match state.monitors.lookup id with
  | none => .error (.notFound id)
  | some monitor =>
      let highWater := monitor.incidentCount
      let all := state.queue id
      let limit := max 1 (min (limit.getD defaultPage) maxPage)
      let first := all.head?.map MonitorIncident.incidentSeq
      let retentionGap := afterIncidentSeq.any fun after =>
        match first with
        | none => after < highWater
        | some first => after < first - 1
      let eligible := all.filter fun incident => includeAcked || incident.isUnacked
      let selected := selectIncidents eligible limit afterIncidentSeq
      let truncated : Bool :=
        afterIncidentSeq.isSome && limit < selected.length ||
          afterIncidentSeq.isNone && limit < eligible.length
      let incidents := selected.take limit
      let nextCursor :=
        match afterIncidentSeq with
        | none => (some highWater).filter (0 < ·)
        | some after =>
            -- an empty page moves a poller behind what was filtered out
            if truncated then incidents.getLast?.map MonitorIncident.incidentSeq
            else some (max after highWater)
      .ok
        { incidents := incidents
          nextCursor := nextCursor
          truncated := truncated
          firstAvailableIncidentSeq := first
          retentionGap := retentionGap }

/-! ## Numbers -/

/-- Numbers which follow each other up to the last one which was given. -/
def Consecutive (count : ℕ) (numbers : List ℕ) : Prop :=
  ∃ first, numbers = List.range' first numbers.length ∧ first + numbers.length = count + 1

def seqs (queue : List MonitorIncident) : List ℕ := queue.map MonitorIncident.incidentSeq

/-- No queue has lost an incident behind another one. -/
def Unbroken (state : PersistedState) : Prop :=
  ∀ id view, state.monitors.lookup id = some view →
    Consecutive view.incidentCount (seqs (state.queue id))

/-- A page has everything up to its next cursor, or says that it does not. -/
structure Honest (after : Option ℕ) (page : IncidentPage) : Prop where
  ordered : page.incidents.Pairwise fun a b => a.incidentSeq < b.incidentSeq
  moves : ∀ cursor, after = some cursor → ∃ next, page.nextCursor = some next ∧ cursor ≤ next
  complete : ∀ cursor next, after = some cursor → page.nextCursor = some next →
    ∀ number, cursor < number → number ≤ next →
      number ∈ seqs page.incidents ∨ page.retentionGap = true

section

variable {count first number : ℕ} {numbers : List ℕ} {state : PersistedState} {id : Uuid}
  {after limit : Option ℕ} {page : IncidentPage} {queue : List MonitorIncident}

namespace Consecutive

theorem nil (count : ℕ) : Consecutive count [] := ⟨count + 1, rfl, rfl⟩

theorem tail (h : Consecutive count (number :: numbers)) : Consecutive count numbers := by
  obtain ⟨first, hnumbers, hcount⟩ := h
  rw [List.length_cons] at hnumbers hcount
  rw [List.range'_succ] at hnumbers
  exact ⟨first + 1, (List.cons.inj hnumbers).2, by omega⟩

theorem concat (h : Consecutive count numbers) : Consecutive (count + 1) (numbers ++ [count + 1]) := by
  obtain ⟨first, hnumbers, hcount⟩ := h
  refine ⟨first, ?_, ?_⟩
  · rw [List.length_append, List.length_singleton, List.range'_concat, ← hnumbers, Nat.one_mul,
      hcount]
  · rw [List.length_append, List.length_singleton]
    omega

theorem pairwise (h : Consecutive count numbers) : numbers.Pairwise (· < ·) := by
  obtain ⟨first, hnumbers, -⟩ := h
  rw [hnumbers]
  exact List.pairwise_lt_range'

theorem mem_iff (h : Consecutive count (first :: numbers)) :
    number ∈ first :: numbers ↔ first ≤ number ∧ number ≤ count := by
  obtain ⟨least, hnumbers, hcount⟩ := h
  have hfirst : first = least := by
    rw [List.length_cons, List.range'_succ] at hnumbers
    exact (List.cons.inj hnumbers).1
  subst hfirst
  rw [hnumbers, List.mem_range'_1]
  omega

end Consecutive

theorem pairwise_seqs :
    (seqs queue).Pairwise (· < ·) ↔ queue.Pairwise fun a b => a.incidentSeq < b.incidentSeq :=
  List.pairwise_map

theorem selectIncidents_sublist (size : ℕ) : (selectIncidents queue size after).Sublist queue := by
  cases after with
  | none => exact List.drop_sublist _ _
  | some cursor => exact List.filter_sublist

/-- What a page takes of the queue. -/
structure Taken (queue : List MonitorIncident) (highWater cursor size : ℕ) (page : IncidentPage) :
    Prop where
  incidents : page.incidents =
    (queue.filter fun incident => cursor < incident.incidentSeq).take size
  whole : (queue.filter fun incident => cursor < incident.incidentSeq).length ≤ size →
    page.nextCursor = some (max cursor highWater)
  part : size < (queue.filter fun incident => cursor < incident.incidentSeq).length →
    page.nextCursor = page.incidents.getLast?.map MonitorIncident.incidentSeq
  gap : page.retentionGap = true ↔
    match queue with
    | [] => cursor < highWater
    | first :: _ => cursor < first.incidentSeq - 1

theorem taken_of_page {view : MonitorView} {cursor : ℕ}
    (hview : state.monitors.lookup id = some view)
    (hpage : incidents id (some cursor) limit true state = .ok page) :
    Taken (state.queue id) view.incidentCount cursor
      (max 1 (min (limit.getD defaultPage) maxPage)) page := by
  unfold incidents at hpage
  simp only [hview, Except.ok.injEq] at hpage
  generalize max 1 (min (limit.getD defaultPage) maxPage) = size at *
  have heligible : (state.queue id).filter (fun incident => true || incident.isUnacked) =
      state.queue id := List.filter_true _
  rw [heligible] at hpage
  subst hpage
  have hselected : selectIncidents (state.queue id) size (some cursor) =
      (state.queue id).filter fun incident => cursor < incident.incidentSeq := rfl
  refine ⟨rfl, fun hwhole => ?_, fun hpart => ?_, ?_⟩
  · have hnot : ¬size < (selectIncidents (state.queue id) size (some cursor)).length :=
      hselected ▸ Nat.not_lt.mpr hwhole
    simp [hnot]
  · rw [← hselected] at hpart
    simp [hpart]
  · cases state.queue id with
    | nil => simp
    | cons first rest => simp

theorem pairwise_of_page {view : MonitorView} (hview : state.monitors.lookup id = some view)
    (hnumbers : Consecutive view.incidentCount (seqs (state.queue id)))
    (hpage : incidents id after limit true state = .ok page) :
    page.incidents.Pairwise fun a b => a.incidentSeq < b.incidentSeq := by
  unfold incidents at hpage
  simp only [hview, Except.ok.injEq] at hpage
  rw [← hpage]
  exact (pairwise_seqs.mp hnumbers.pairwise).sublist
    (((List.take_sublist _ _).trans (selectIncidents_sublist _)).trans List.filter_sublist)

/-- Where the numbers follow each other, a page tells of everything which it does not have. -/
theorem Taken.honest {cursor size : ℕ} (h : Taken queue count cursor size page) (hsize : 0 < size)
    (hnumbers : Consecutive count (seqs queue)) :
    ∃ next, page.nextCursor = some next ∧ cursor ≤ next ∧
      ∀ number, cursor < number → number ≤ next →
        number ∈ seqs page.incidents ∨ page.retentionGap = true := by
  obtain ⟨selected, hselected⟩ : ∃ selected, selected =
      queue.filter fun incident => cursor < incident.incidentSeq := ⟨_, rfl⟩
  have hincidents := h.incidents
  have hwhole := h.whole
  have hpart := h.part
  rw [← hselected] at hincidents hwhole hpart
  have hbehind : ∀ incident ∈ selected, incident ∈ queue ∧ cursor < incident.incidentSeq := by
    intro incident hincident
    rw [hselected] at hincident
    exact ⟨List.mem_of_mem_filter hincident, by simpa using List.of_mem_filter hincident⟩
  -- A number which is neither on the page nor in front of the queue is not given out yet.
  have hpresent : page.retentionGap = false → ∀ number, cursor < number → number ≤ count →
      ∃ incident ∈ selected, incident.incidentSeq = number := by
    intro hgap number hlt hle
    have hnone := mt h.gap.mpr (by rw [hgap]; exact Bool.false_ne_true)
    cases hqueue : queue with
    | nil =>
        rw [hqueue] at hnone
        exact absurd (hlt.trans_le hle) hnone
    | cons first rest =>
        rw [hqueue] at hnone hnumbers
        dsimp only at hnone
        have hmem : number ∈ seqs (first :: rest) := hnumbers.mem_iff.mpr ⟨by omega, hle⟩
        obtain ⟨incident, hincident, rfl⟩ := List.mem_map.mp hmem
        refine ⟨incident, ?_, rfl⟩
        rw [hselected, hqueue]
        exact List.mem_filter.mpr ⟨hincident, by simpa using hlt⟩
  by_cases hfits : selected.length ≤ size
  · rw [List.take_of_length_le hfits] at hincidents
    refine ⟨_, hwhole hfits, le_max_left _ _, fun number hlt hle => ?_⟩
    cases hgap : page.retentionGap with
    | true => exact Or.inr rfl
    | false =>
        obtain ⟨incident, hincident, rfl⟩ := hpresent hgap number hlt (by omega)
        rw [hincidents]
        exact Or.inl (List.mem_map_of_mem hincident)
  · have hsorted : selected.Pairwise fun a b => a.incidentSeq < b.incidentSeq := by
      rw [hselected]
      exact (pairwise_seqs.mp hnumbers.pairwise).sublist List.filter_sublist
    have htaken : selected.take size ≠ [] := by
      intro hnil
      rcases List.take_eq_nil_iff.mp hnil with hzero | hempty
      · omega
      · rw [hempty, List.length_nil] at hfits
        omega
    have hlast := List.getLast_mem htaken
    obtain ⟨hlastQueue, hlastBehind⟩ := hbehind _ (List.mem_of_mem_take hlast)
    refine ⟨((selected.take size).getLast htaken).incidentSeq, ?_, hlastBehind.le, ?_⟩
    · rw [hpart (Nat.lt_of_not_le hfits), hincidents, List.getLast?_eq_some_getLast htaken]
      rfl
    · intro number hlt hle
      cases hgap : page.retentionGap with
      | true => exact Or.inr rfl
      | false =>
          have hgiven : ((selected.take size).getLast htaken).incidentSeq ≤ count := by
            cases hqueue : queue with
            | nil =>
                rw [hqueue] at hlastQueue
                cases hlastQueue
            | cons first rest =>
                rw [hqueue] at hlastQueue hnumbers
                exact (hnumbers.mem_iff.mp (List.mem_map_of_mem hlastQueue)).2
          obtain ⟨incident, hincident, rfl⟩ := hpresent hgap number hlt (hle.trans hgiven)
          rw [← List.take_append_drop size selected] at hincident hsorted
          rw [hincidents]
          rcases List.mem_append.mp hincident with htake | hdrop
          · exact Or.inl (List.mem_map_of_mem htake)
          · have hafter := (List.pairwise_append.mp hsorted).2.2 _ hlast _ hdrop
            omega

theorem honest_of_consecutive {view : MonitorView} (hview : state.monitors.lookup id = some view)
    (hnumbers : Consecutive view.incidentCount (seqs (state.queue id)))
    (hpage : incidents id after limit true state = .ok page) : Honest after page where
  ordered := pairwise_of_page hview hnumbers hpage
  moves := by
    rintro cursor rfl
    obtain ⟨next, hnext, hle, -⟩ :=
      (taken_of_page hview hpage).honest (Nat.le_max_left _ _) hnumbers
    exact ⟨next, hnext, hle⟩
  complete := by
    rintro cursor next rfl hnext
    obtain ⟨next', hnext', -, hcomplete⟩ :=
      (taken_of_page hview hpage).honest (Nat.le_max_left _ _) hnumbers
    obtain rfl := Option.some.inj (hnext.symm.trans hnext')
    exact hcomplete

/-! ## Mutations -/

/-- Each monitor has the last number and the numbers of its queue from before, or none. -/
def Carries (state state' : PersistedState) : Prop :=
  ∀ id view', state'.monitors.lookup id = some view' →
    (∃ view, state.monitors.lookup id = some view ∧ view'.incidentCount = view.incidentCount ∧
      seqs (state'.queue id) = seqs (state.queue id)) ∨
    view'.incidentCount = 0 ∧ state'.queue id = []

variable {state' : PersistedState} {regexError : String → Option String}

theorem Unbroken.carry (h : Unbroken state) (hcarries : Carries state state') :
    Unbroken state' := by
  intro id view' hview'
  rcases hcarries id view' hview' with ⟨view, hview, hcount, hqueue⟩ | ⟨hcount, hqueue⟩
  · rw [hcount, hqueue]
    exact h id view hview
  · rw [hcount, hqueue]
    exact .nil 0

theorem Carries.refl (state : PersistedState) : Carries state state :=
  fun _ view hview => Or.inl ⟨view, hview, rfl, rfl⟩

/-- A change of one view which keeps its last number. -/
theorem Carries.setView {old view : MonitorView} (hold : state.monitors.lookup id = some old)
    (hcount : view.incidentCount = old.incidentCount)
    (hmonitors : state'.monitors = state.monitors.insert id view)
    (hqueues : ∀ other, seqs (state'.queue other) = seqs (state.queue other)) :
    Carries state state' := by
  intro other view' hview'
  rw [hmonitors, OrderedMap.lookup_insert] at hview'
  left
  by_cases hsame : other = id
  · rw [if_pos hsame] at hview'
    obtain rfl := Option.some.inj hview'
    exact ⟨old, hsame ▸ hold, hcount, hqueues other⟩
  · rw [if_neg hsame] at hview'
    exact ⟨view', hview', rfl, hqueues other⟩

theorem Carries.of_same (hmonitors : state'.monitors = state.monitors)
    (hqueues : ∀ other, seqs (state'.queue other) = seqs (state.queue other)) :
    Carries state state' := by
  intro other view' hview'
  rw [hmonitors] at hview'
  exact Or.inl ⟨view', hview', rfl, hqueues other⟩

theorem Carries.removeMonitor (removed : Uuid) (state : PersistedState) :
    Carries state (removeMonitor removed state) := by
  intro other view hview
  obtain ⟨hbefore, hqueue⟩ := lookup_removeMonitor hview
  left
  refine ⟨view, hbefore, rfl, ?_⟩
  unfold PersistedState.queue
  rw [hqueue]

theorem Carries.pruneMonitorCapacity (state : PersistedState) :
    Carries state (pruneMonitorCapacity state) := by
  intro other view hview
  obtain ⟨hbefore, hqueue⟩ := lookup_pruneMonitors _ hview
  left
  refine ⟨view, hbefore, rfl, ?_⟩
  unfold PersistedState.queue Monitor.pruneMonitorCapacity
  rw [hqueue]

theorem Carries.create (hretained : Retained regexError state) (now : ℤ) (requestId : Uuid)
    (requested : MonitorSpec) (slot : Option (Uuid × ℕ)) :
    Carries state (create regexError now requestId requested slot state).2 := by
  unfold Monitor.create
  split
  · exact .refl state
  split
  · split
    · exact .refl state
    · exact .refl state
  rename_i hnew
  split
  · exact .refl state
  split
  · exact .refl state
  split
  · exact .refl state
  have hcarries := Carries.pruneMonitorCapacity state
  have hpruned : Retained regexError (Monitor.pruneMonitorCapacity state) :=
    hretained.pruneMonitors _
  dsimp only
  split
  · exact hcarries
  intro other view hview
  dsimp only at hview
  rw [OrderedMap.lookup_insert] at hview
  by_cases hsame : other = requestId
  · rw [if_pos hsame] at hview
    obtain rfl := Option.some.inj hview
    -- A queue of this monitor would belong to a monitor which was there before.
    have hqueue : (Monitor.pruneMonitorCapacity state).incidents.lookup requestId = none := by
      cases hlookup : (Monitor.pruneMonitorCapacity state).incidents.lookup requestId with
      | none => rfl
      | some queue =>
          obtain ⟨kept, hkept⟩ := hpruned.queueOwner requestId queue hlookup
          have hbefore := (lookup_pruneMonitors _ hkept).1
          rw [hnew] at hbefore
          cases hbefore
    right
    refine ⟨rfl, ?_⟩
    unfold PersistedState.queue
    dsimp only
    rw [hsame, OrderedMap.lookup_insert_self, hqueue]
    rfl
  · rw [if_neg hsame] at hview
    unfold PersistedState.queue
    dsimp only
    rw [OrderedMap.lookup_insert_of_ne _ _ hsame]
    exact hcarries other view hview

theorem seqs_ackFirst (now : ℤ) (incidentId : Uuid) (queue : List MonitorIncident) :
    seqs (ackFirst now incidentId queue) = seqs queue := by
  induction queue with
  | nil => rfl
  | cons first rest ih =>
      rw [ackFirst]
      split
      · split
        · rfl
        · rfl
      · exact congrArg (first.incidentSeq :: ·) ih

theorem Carries.acknowledgeIncident (now : ℤ) (id incidentId : Uuid) (state : PersistedState) :
    Carries state (acknowledgeIncident now id incidentId state).2 := by
  unfold Monitor.acknowledgeIncident
  split
  · exact .refl state
  rename_i queue hqueue
  split
  · exact .refl state
  rename_i incident hfind
  split
  case isFalse => exact .refl state
  case isTrue =>
    have hqueues : ∀ other, seqs ((((state.incidents.insert id
        (ackFirst now incidentId queue))).lookup other).getD []) = seqs (state.queue other) := by
      intro other
      unfold PersistedState.queue
      rw [OrderedMap.lookup_insert]
      split
      case isTrue hsame => rw [Option.getD_some, seqs_ackFirst, hsame, hqueue, Option.getD_some]
      case isFalse => rfl
    cases hmonitor : state.monitors.lookup id with
    | none => exact .of_same rfl hqueues
    | some monitor =>
        refine .setView hmonitor ?_ rfl hqueues
        rfl

/-- The incident with the first of the least times is at the front of its queue. -/
def OldestFirst (state : PersistedState) : Prop :=
  ∀ place ∈ firstMin (fun a b => a.2.2 < b.2.2) (incidentPlaces state), place.2.1 = 0

/-- The monitor's own queue when it makes room. -/
def pruneOwnIncident (id : Uuid) (state : PersistedState) : PersistedState :=
  if maxIncidentsPerMonitor ≤ ((state.incidents.lookup id).getD []).length then
    pruneOneMonitorIncident id state
  else state

/-- The mutation gives a number once, and prunes no incident behind another one. -/
def Operation.Orderly (operation : Operation) (state : PersistedState) : Prop :=
  match operation with
  | .update _ id view _ _ _ =>
      ∀ current ∈ state.monitors.lookup id, view.incidentCount = current.incidentCount
  | .recordIncident _ _ _ id expectedRevision _ _ =>
      ∀ current ∈ state.monitors.lookup id, current.isRunning = true →
        current.revision = expectedRevision →
          current.incidentCount < u64Max ∧
            (maxIncidentsTotal ≤ incidentTotal (pruneOwnIncident id state) →
              OldestFirst (pruneOwnIncident id state))
  | _ => True

instance (state : PersistedState) : Decidable (OldestFirst state) :=
  inferInstanceAs (Decidable (∀ place ∈ firstMin _ _, _))

instance (operation : Operation) (state : PersistedState) : Decidable (operation.Orderly state) :=
  match operation with
  | .update .. => inferInstanceAs (Decidable (∀ current ∈ _, _))
  | .recordIncident .. => inferInstanceAs (Decidable (∀ current ∈ _, _))
  | .create .. => isTrue trivial
  | .stop .. => isTrue trivial
  | .deleteStopped .. => isTrue trivial
  | .acknowledgeIncident .. => isTrue trivial
  | .failMonitor .. => isTrue trivial
  | .completeMonitor .. => isTrue trivial
  | .checkpointProgress .. => isTrue trivial
  | .recordGap .. => isTrue trivial

/-! ## The oldest incident -/

/-- The first of the least stands behind greater ones only. -/
theorem firstMin_split {α κ : Type} [LinearOrder κ] {key : α → κ} {items : List α} {least : α}
    (h : firstMin (fun a b => key a < key b) items = some least) :
    ∃ earlier later, items = earlier ++ least :: later ∧
      (∀ item ∈ earlier, key least < key item) ∧ ∀ item ∈ later, key least ≤ key item := by
  cases items with
  | nil => cases h
  | cons candidate rest =>
      rw [firstMin, Option.some.injEq] at h
      subst h
      induction rest using List.reverseRecOn with
      | nil => exact ⟨[], [], rfl, fun item hitem => (by cases hitem), fun item hitem => (by cases hitem)⟩
      | append_singleton rest next ih =>
          obtain ⟨earlier, later, hsplit, hearlier, hlater⟩ := ih
          rw [List.foldl_concat]
          rw [← List.cons_append, hsplit]
          generalize List.foldl _ candidate rest = least at *
          by_cases hbefore : key next < key least
          · rw [if_pos (decide_eq_true hbefore)]
            refine ⟨earlier ++ least :: later, [], rfl, fun item hitem => ?_,
              fun item hitem => (by cases hitem)⟩
            rcases List.mem_append.mp hitem with hitem | hitem
            · exact hbefore.trans (hearlier item hitem)
            · rcases List.mem_cons.mp hitem with rfl | hitem
              · exact hbefore
              · exact hbefore.trans_le (hlater item hitem)
          · rw [if_neg (by simpa using hbefore)]
            refine ⟨earlier, later ++ [next], by simp, hearlier, fun item hitem => ?_⟩
            rcases List.mem_append.mp hitem with hitem | hitem
            · exact hlater item hitem
            · rw [List.mem_singleton.mp hitem]
              exact not_lt.mp hbefore

theorem mem_incidentPlaces_iff {place : Uuid × ℕ × ℤ} :
    place ∈ incidentPlaces state ↔
      ((state.queue place.1)[place.2.1]?).map MonitorIncident.createdWallTimeNs =
        some place.2.2 := by
  unfold PersistedState.queue
  constructor
  · intro h
    obtain ⟨⟨id, queue⟩, hentry, hplace⟩ := List.mem_flatMap.mp h
    obtain ⟨index, hindex, rfl⟩ := List.mem_mapIdx.mp hplace
    dsimp only
    rw [OrderedMap.lookup_eq_some_iff.mpr hentry, Option.getD_some,
      List.getElem?_eq_getElem hindex]
    rfl
  · intro h
    cases hqueue : state.incidents.lookup place.1 with
    | none =>
        rw [hqueue] at h
        cases h
    | some queue =>
        rw [hqueue, Option.getD_some] at h
        obtain ⟨incident, hincident, htime⟩ := Option.map_eq_some_iff.mp h
        obtain ⟨hindex, hincident⟩ := List.getElem?_eq_some_iff.mp hincident
        refine List.mem_flatMap.mpr
          ⟨(place.1, queue), OrderedMap.lookup_eq_some_iff.mp hqueue,
            List.mem_mapIdx.mpr ⟨place.2.1, hindex, ?_⟩⟩
        dsimp only
        rw [hincident, htime]

/-- The places of one queue come in their order. -/
theorem pairwise_incidentPlaces (state : PersistedState) :
    (incidentPlaces state).Pairwise fun a b => a.1 = b.1 → a.2.1 < b.2.1 := by
  refine List.pairwise_flatMap.mpr ⟨fun entry _ => ?_, ?_⟩
  · rw [List.pairwise_iff_getElem]
    intro i j hi hj hlt _
    rw [List.getElem_mapIdx, List.getElem_mapIdx]
    exact hlt
  · refine state.incidents.sorted.imp fun {first second} hlt place hplace other hother hsame => ?_
    obtain ⟨index, hindex, rfl⟩ := List.mem_mapIdx.mp hplace
    obtain ⟨otherIndex, hotherIndex, rfl⟩ := List.mem_mapIdx.mp hother
    exact absurd hsame hlt.ne

/-- Where the times of each queue do not go back, the oldest incident is at its front. -/
theorem oldestFirst_of_sorted
    (hsorted : ∀ id, (state.queue id).Pairwise fun a b =>
      a.createdWallTimeNs ≤ b.createdWallTimeNs) : OldestFirst state := by
  rintro ⟨id, index, time⟩ hmin
  obtain ⟨earlier, later, hsplit, hearlier, -⟩ := firstMin_split hmin
  by_contra hindex
  dsimp only at hindex
  have hplace : (id, index, time) ∈ incidentPlaces state := firstMin_mem _ hmin
  obtain ⟨incident, hincident, htime⟩ :=
    Option.map_eq_some_iff.mp (mem_incidentPlaces_iff.mp hplace)
  dsimp only at hincident htime
  obtain ⟨hlt, hincident⟩ := List.getElem?_eq_some_iff.mp hincident
  have hfront : 0 < (state.queue id).length := by omega
  have hle : (state.queue id)[0].createdWallTimeNs ≤ time := by
    rw [← htime, ← hincident]
    exact List.pairwise_iff_getElem.mp (hsorted id) 0 index hfront hlt (Nat.pos_of_ne_zero hindex)
  have hfirst : (id, 0, (state.queue id)[0].createdWallTimeNs) ∈ incidentPlaces state := by
    rw [mem_incidentPlaces_iff]
    dsimp only
    rw [List.getElem?_eq_getElem hfront]
    rfl
  have hpairwise := pairwise_incidentPlaces state
  rw [hsplit] at hfirst hpairwise
  rcases List.mem_append.mp hfirst with hbefore | hbehind
  · exact absurd hle (not_le.mpr (hearlier _ hbefore))
  · rcases List.mem_cons.mp hbehind with hsame | hlater
    · exact hindex (Prod.mk.inj (Prod.mk.inj hsame).2).1.symm
    · have hafter := (List.pairwise_append.mp hpairwise).2.1
      exact absurd ((List.pairwise_cons.mp hafter).1 _ hlater rfl) (Nat.not_lt_zero _)

/-! ## Making room -/

theorem makeIncidentRoom_eq (id : Uuid) (state : PersistedState) :
    makeIncidentRoom id state =
      if maxIncidentsTotal ≤ incidentTotal (pruneOwnIncident id state) then
        pruneOneGlobalIncident (pruneOwnIncident id state)
      else pruneOwnIncident id state := rfl

theorem lookup_markGap {other : Uuid} {message : String} {view : MonitorView}
    (h : (markIncidentRetentionGap id message state).monitors.lookup other = some view) :
    ∃ old, state.monitors.lookup other = some old ∧ view.incidentCount = old.incidentCount := by
  unfold markIncidentRetentionGap at h
  split at h
  case h_1 => exact ⟨view, h, rfl⟩
  case h_2 old hold =>
    dsimp only at h
    rw [OrderedMap.lookup_insert] at h
    split at h
    case isTrue hsame =>
      obtain rfl := Option.some.inj h
      exact ⟨old, hsame ▸ hold, rfl⟩
    case isFalse => exact ⟨view, h, rfl⟩

/-- A queue without its first incident. -/
theorem Unbroken.behead (h : Unbroken state) {first : MonitorIncident} {rest : List MonitorIncident}
    (hqueue : state.incidents.lookup id = some (first :: rest)) (message : String) :
    Unbroken (markIncidentRetentionGap id message
      { state with incidents := state.incidents.insert id rest }) := by
  intro other view hview
  obtain ⟨old, hold, hcount⟩ := lookup_markGap hview
  have hbefore := h other old hold
  unfold PersistedState.queue at hbefore ⊢
  rw [incidents_markGap, hcount]
  dsimp only
  rw [OrderedMap.lookup_insert]
  split
  case isTrue hsame =>
    rw [hsame, hqueue] at hbefore
    exact hbefore.tail
  case isFalse => exact hbefore

theorem Unbroken.pruneOwnIncident (h : Unbroken state) (id : Uuid) :
    Unbroken (pruneOwnIncident id state) := by
  unfold Monitor.pruneOwnIncident
  split
  case isFalse => exact h
  case isTrue =>
    unfold pruneOneMonitorIncident
    split
    · exact h
    · exact h
    · rename_i first rest hqueue
      exact h.behead hqueue _

theorem Unbroken.pruneOneGlobalIncident (h : Unbroken state) (holdest : OldestFirst state) :
    Unbroken (pruneOneGlobalIncident state) := by
  unfold Monitor.pruneOneGlobalIncident
  split
  · exact h
  rename_i owner index time hmin
  obtain rfl : index = 0 := holdest _ hmin
  split
  · exact h
  rename_i queue hqueue
  cases queue with
  | nil =>
      obtain ⟨queue, hplaced, hindex⟩ := mem_incidentPlaces (firstMin_mem _ hmin)
      rw [hqueue] at hplaced
      obtain rfl := Option.some.inj hplaced
      cases hindex
  | cons first rest => exact h.behead hqueue _

theorem Unbroken.makeIncidentRoom (h : Unbroken state) (id : Uuid)
    (holdest : maxIncidentsTotal ≤ incidentTotal (Monitor.pruneOwnIncident id state) →
      OldestFirst (Monitor.pruneOwnIncident id state)) :
    Unbroken (makeIncidentRoom id state) := by
  rw [makeIncidentRoom_eq]
  split
  case isTrue hfull => exact (h.pruneOwnIncident id).pruneOneGlobalIncident (holdest hfull)
  case isFalse => exact h.pruneOwnIncident id

theorem queue_pushIncident {monitor : MonitorView} (incident : MonitorIncident)
    (checkpoint : MonitorCheckpoint) (other : Uuid) :
    (pushIncident id incident checkpoint monitor state).queue other =
      if other = id then state.queue id ++ [incident] else state.queue other := by
  unfold PersistedState.queue pushIncident recomputeUnackedCounts
  dsimp only
  rw [OrderedMap.lookup_insert]
  split
  · rfl
  · rfl

/-- A view behind a recorded incident. -/
theorem lookup_pushIncident (state : PersistedState) (id : Uuid) (monitor : MonitorView)
    (incident : MonitorIncident) (checkpoint : MonitorCheckpoint) (other : Uuid) :
    ∃ unacked : MonitorView → ℕ,
      (pushIncident id incident checkpoint monitor state).monitors.lookup other =
        if other = id then
          some { monitor with
            incidentCount := incident.incidentSeq
            unackedIncidentCount := unacked monitor }
        else (state.monitors.lookup other).map fun view =>
          { view with unackedIncidentCount := unacked view } := by
  refine ⟨fun view => (((state.incidents.insert id
    (((state.incidents.lookup id).getD []) ++ [incident])).lookup view.id).map unackedIn).getD 0, ?_⟩
  unfold pushIncident recomputeUnackedCounts
  dsimp only
  rw [OrderedMap.lookup_mapValues, OrderedMap.lookup_insert]
  split
  · rfl
  · rfl

theorem incidentTotal_pushIncident {monitor : MonitorView} (incident : MonitorIncident)
    (checkpoint : MonitorCheckpoint) :
    incidentTotal (pushIncident id incident checkpoint monitor state) =
      incidentTotal state + 1 := by
  have hpushed : incidentTotal (pushIncident id incident checkpoint monitor state) =
      (state.incidents.insert id
        (((state.incidents.lookup id).getD []) ++ [incident])).weight List.length := rfl
  rw [hpushed, OrderedMap.weight_insert, incidentTotal_eq state id, List.length_append,
    List.length_singleton]
  omega

theorem Unbroken.pushIncident (h : Unbroken state) {monitor : MonitorView}
    (hmonitor : state.monitors.lookup id = some monitor) (incident : MonitorIncident)
    (checkpoint : MonitorCheckpoint) (hseq : incident.incidentSeq = monitor.incidentCount + 1) :
    Unbroken (pushIncident id incident checkpoint monitor state) := by
  intro other view hview
  obtain ⟨unacked, hlookup⟩ := lookup_pushIncident state id monitor incident checkpoint other
  rw [hlookup] at hview
  rw [queue_pushIncident]
  by_cases hsame : other = id
  · rw [if_pos hsame] at hview ⊢
    obtain rfl := Option.some.inj hview
    have hbefore := (h id monitor hmonitor).concat
    unfold seqs at hbefore ⊢
    rw [List.map_append, List.map_singleton, hseq]
    exact hbefore
  · rw [if_neg hsame] at hview ⊢
    obtain ⟨stored, hstored, rfl⟩ := Option.map_eq_some_iff.mp hview
    exact h other stored hstored

theorem Unbroken.recordIncident (hretained : Retained regexError state) (h : Unbroken state)
    {now : ℤ} {serverId incidentId recorded : Uuid} {expectedRevision : ℕ}
    {pending : PendingIncident} {checkpoint : MonitorCheckpoint}
    (horderly : (Operation.recordIncident now serverId incidentId recorded expectedRevision pending
      checkpoint).Orderly state) :
    Unbroken (recordIncident now serverId incidentId recorded expectedRevision pending checkpoint
      state).2 := by
  unfold Monitor.recordIncident
  split
  · exact h
  rename_i current hcurrent
  split
  · exact h
  rename_i hmatches
  rw [not_or, not_not, not_not] at hmatches
  obtain ⟨hnumbers, holdest⟩ := horderly current hcurrent hmatches.1 hmatches.2
  have hroom := h.makeIncidentRoom recorded holdest
  dsimp only
  split
  · exact hroom
  rename_i monitor hmonitor
  refine hroom.pushIncident hmonitor _ checkpoint (satAdd_eq_add ?_)
  have hthinned := Thinned.makeIncidentRoom hretained recorded recorded
  rw [hmonitor] at hthinned
  obtain ⟨old, hold, hcount, -⟩ := hthinned
  rw [hcurrent, Option.some.injEq] at hold
  rw [hcount, ← hold]
  exact hnumbers

theorem Carries.edit {old view : MonitorView} (hold : state.monitors.lookup id = some old)
    (hcount : view.incidentCount = old.incidentCount) :
    Carries state { state with monitors := state.monitors.insert id view } :=
  .setView hold hcount rfl fun _ => rfl

/-- A mutation which neither creates nor records, and writes no other last number. -/
theorem Carries.plain {operation : Operation} (horderly : operation.Orderly state)
    (hcreate : ∀ now requestId requested slot,
      operation ≠ .create now requestId requested slot)
    (hrecord : ∀ now serverId incidentId id revision pending checkpoint,
      operation ≠ .recordIncident now serverId incidentId id revision pending checkpoint) :
    Carries state (operation.mutate regexError state).2 := by
  cases operation with
  | create now requestId requested slot => exact absurd rfl (hcreate _ _ _ _)
  | recordIncident now serverId incidentId id expectedRevision pending checkpoint =>
      exact absurd rfl (hrecord _ _ _ _ _ _ _)
  | acknowledgeIncident now id incidentId => exact .acknowledgeIncident _ _ _ _
  | update now id view spec cursor expectedRevision =>
      simp only [Operation.mutate, Monitor.update]
      cases hmonitor : state.monitors.lookup id with
      | none => exact .refl state
      | some monitor =>
          dsimp only
          split_ifs
          · exact .refl state
          · exact .refl state
          · have hcount : (updatedView now view spec cursor).incidentCount =
                monitor.incidentCount := horderly monitor hmonitor
            exact .setView hmonitor hcount rfl fun _ => rfl
  | stop now id expectedRevision =>
      simp only [Operation.mutate, Monitor.stop]
      cases hmonitor : state.monitors.lookup id with
      | none => exact .refl state
      | some monitor =>
          dsimp only
          split_ifs
          · exact .refl state
          · exact .edit hmonitor rfl
          · exact .refl state
  | deleteStopped id expectedRevision =>
      simp only [Operation.mutate, Monitor.deleteStopped]
      cases hmonitor : state.monitors.lookup id with
      | none => exact .refl state
      | some monitor =>
          dsimp only
          split_ifs
          · exact .refl state
          · exact .refl state
          · exact .removeMonitor id state
  | failMonitor now id revision error =>
      simp only [Operation.mutate, Monitor.failMonitor]
      cases hmonitor : state.monitors.lookup id with
      | none => exact .refl state
      | some monitor =>
          dsimp only
          split_ifs
          · exact .edit hmonitor rfl
          · exact .refl state
  | completeMonitor now id expectedRevision =>
      simp only [Operation.mutate, Monitor.completeMonitor]
      cases hmonitor : state.monitors.lookup id with
      | none => exact .refl state
      | some monitor =>
          dsimp only
          split_ifs
          · exact .edit hmonitor rfl
          · exact .refl state
  | checkpointProgress id expectedRevision checkpoint =>
      simp only [Operation.mutate, Monitor.checkpointProgress]
      cases hmonitor : state.monitors.lookup id with
      | none => exact .refl state
      | some monitor =>
          dsimp only
          split_ifs
          · exact .refl state
          · exact .refl state
          · exact .of_same rfl fun _ => rfl
  | recordGap id expectedRevision message =>
      simp only [Operation.mutate, Monitor.recordGap]
      cases hmonitor : state.monitors.lookup id with
      | none => exact .refl state
      | some monitor =>
          dsimp only
          split_ifs
          · exact .refl state
          · exact .edit hmonitor rfl

/-- The step: an orderly mutation breaks no queue. -/
theorem Unbroken.mutate (hretained : Retained regexError state) (h : Unbroken state)
    {operation : Operation} (horderly : operation.Orderly state) :
    Unbroken (operation.mutate regexError state).2 := by
  by_cases hcreate : ∃ now requestId requested slot,
      operation = .create now requestId requested slot
  · obtain ⟨now, requestId, requested, slot, rfl⟩ := hcreate
    exact h.carry (.create hretained now requestId requested slot)
  by_cases hrecord : ∃ now serverId incidentId id revision pending checkpoint,
      operation = .recordIncident now serverId incidentId id revision pending checkpoint
  · obtain ⟨now, serverId, incidentId, id, revision, pending, checkpoint, rfl⟩ := hrecord
    exact h.recordIncident hretained horderly
  · push Not at hcreate hrecord
    exact h.carry (.plain horderly hcreate hrecord)

end

end SerialPlatform.Monitor
