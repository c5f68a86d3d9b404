import SerialPlatform.HexName
import SerialPlatform.KeyedFold
import SerialPlatform.Protocol

/-!
# The Agent run index

The journal keeps one small record for every Agent Run.  Live lifecycle events
maintain the index as they are appended, while a background pass replays the
lifecycle events of the retained segments into it, so the events of one Run can
arrive in any order and more than once.
-/

namespace SerialPlatform

structure RunRecord where
  port : String
  epoch : Uuid
  run : RunInfo
  startedWallTimeNs : ℤ
  throughSeq : ℕ
  hidden : Bool
  deriving DecidableEq

/-- The index files, by port directory and Run id. -/
abbrev RunIndex := String × Uuid → Option RunRecord

namespace RunHistory

def empty : RunIndex := fun _ => none

def portDir (port : String) : String := HexName.ofText port

/-- The Run of a lifecycle event of an Agent Run; other events are not indexed. -/
def agentRun (event : TimelineEvent) : Option RunInfo :=
  match event.kind with
  | .runStarted | .runEnded | .runAborted =>
      match event.metadata.lookup "run" with
      | some (.run run) => if run.owner.kind = .agent then some run else none
      | _ => none
  | _ => none

def path (event : TimelineEvent) (run : RunInfo) : String × Uuid := (portDir event.port, run.id)

/-- The record which replaces `old`, or `old` itself for an event already covered. -/
def merge (old : Option RunRecord) (event : TimelineEvent) (run : RunInfo) :
    Option RunRecord :=
  if old.any fun old => old.epoch = event.daemonEpoch ∧ event.seq ≤ old.throughSeq then old
  else
    some
      { port := event.port
        epoch := event.daemonEpoch
        startedWallTimeNs := (old.map RunRecord.startedWallTimeNs).getD event.wallTimeNs
        throughSeq := event.seq
        hidden := (old.map RunRecord.hidden).getD false
        run := run }

def record (index : RunIndex) (event : TimelineEvent) : RunIndex :=
  match agentRun event with
  | none => index
  | some run =>
      Function.update index (path event run) (merge (index (path event run)) event run)

/-- The index after a sequence of arrivals. -/
def recordAll (arrivals : List TimelineEvent) : RunIndex := arrivals.foldl record empty

/-! ## Lifecycle events and their arrival -/

/-- An indexed event together with its Run. -/
structure Lifecycle where
  event : TimelineEvent
  run : RunInfo

namespace Lifecycle

def path (lifecycle : Lifecycle) : String × Uuid :=
  RunHistory.path lifecycle.event lifecycle.run

def seq (lifecycle : Lifecycle) : ℕ := lifecycle.event.seq

def epoch (lifecycle : Lifecycle) : Uuid := lifecycle.event.daemonEpoch

def wallTimeNs (lifecycle : Lifecycle) : ℤ := lifecycle.event.wallTimeNs

end Lifecycle

def lifecycle (event : TimelineEvent) : Option Lifecycle :=
  (agentRun event).map fun run => { event := event, run := run }

/-- The indexed events among the arrivals, in order of arrival. -/
def lifecycles (arrivals : List TimelineEvent) : List Lifecycle := arrivals.filterMap lifecycle

/-- The lifecycle events of one Run, in order of arrival. -/
def ofRun (arrivals : List TimelineEvent) (path : String × Uuid) : List Lifecycle :=
  (lifecycles arrivals).filter fun lifecycle => lifecycle.path = path

/-- What every set of Runs satisfies: a Run stays on one port in one epoch, a
sequence number names one event, and nothing of a Run follows its end. -/
structure RunsOf (arrivals : List TimelineEvent) : Prop where
  sameEpoch : ∀ a ∈ lifecycles arrivals, ∀ b ∈ lifecycles arrivals,
    a.path = b.path → a.epoch = b.epoch
  seqNames : ∀ a ∈ lifecycles arrivals, ∀ b ∈ lifecycles arrivals,
    a.path = b.path → a.seq = b.seq → a = b
  endIsLast : ∀ a ∈ lifecycles arrivals, ∀ b ∈ lifecycles arrivals,
    a.path = b.path → a.run.status ≠ .active → a.seq ≤ b.seq → b.run.status ≠ .active

/-- `ordered` has the events of `arrivals`, those of each Run once in sequence order. -/
structure InSequence (ordered arrivals : List TimelineEvent) : Prop where
  sameEvents : ∀ event, event ∈ ordered ↔ event ∈ arrivals
  ascending : ∀ path, (ofRun ordered path).Pairwise fun a b => a.seq < b.seq

/-- The first event of a Run to arrive carries the wall time of its earliest event. -/
def StartArrivesFirst (arrivals : List TimelineEvent) : Prop :=
  ∀ path, ∀ first ∈ (ofRun arrivals path).head?, ∀ earliest ∈ ofRun arrivals path,
    (∀ other ∈ ofRun arrivals path, earliest.seq ≤ other.seq) →
      first.wallTimeNs = earliest.wallTimeNs

/-- A Run which the index shows as ended is never shown as active again. -/
def EndsStay (arrivals : List TimelineEvent) : Prop :=
  ∀ before after, arrivals = before ++ after →
    ∀ path, ∀ ended ∈ recordAll before path, ended.run.status ≠ .active →
      ∃ later ∈ recordAll arrivals path, later.run.status ≠ .active

/-! ## One Run at a time -/

def mergeLifecycle (old : Option RunRecord) (lifecycle : Lifecycle) : Option RunRecord :=
  merge old lifecycle.event lifecycle.run

theorem record_eq_step (index : RunIndex) (event : TimelineEvent) :
    record index event =
      ((lifecycle event).map (KeyedFold.step Lifecycle.path mergeLifecycle index)).getD index := by
  unfold record lifecycle
  cases agentRun event with
  | none => rfl
  | some run => rfl

theorem foldl_record (arrivals : List TimelineEvent) (index : RunIndex) :
    arrivals.foldl record index =
      (lifecycles arrivals).foldl (KeyedFold.step Lifecycle.path mergeLifecycle) index := by
  induction arrivals generalizing index with
  | nil => rfl
  | cons event arrivals ih =>
      rw [List.foldl_cons, ih, record_eq_step]
      simp only [lifecycles, List.filterMap_cons]
      cases lifecycle event with
      | none => rfl
      | some lifecycle => rfl

/-- What the index holds of a Run depends on the events of that Run alone. -/
theorem recordAll_apply (arrivals : List TimelineEvent) (path : String × Uuid) :
    recordAll arrivals path = (ofRun arrivals path).foldl mergeLifecycle none := by
  rw [recordAll, foldl_record, KeyedFold.foldl_step_apply]
  rfl

/-- The record of a Run whose first arrival is `first` and whose latest event is `latest`. -/
def summary (first latest : Lifecycle) : RunRecord where
  port := latest.event.port
  epoch := latest.epoch
  run := latest.run
  startedWallTimeNs := first.wallTimeNs
  throughSeq := latest.seq
  hidden := false

/-- One more event of the Run: a later one replaces the record, another is covered. -/
theorem mergeLifecycle_summary {first latest arriving : Lifecycle}
    (hepoch : latest.epoch = arriving.epoch) :
    mergeLifecycle (some (summary first latest)) arriving =
      some (summary first (if arriving.seq ≤ latest.seq then latest else arriving)) := by
  unfold mergeLifecycle merge
  by_cases hle : arriving.seq ≤ latest.seq
  · have hcovered : (some (summary first latest)).any fun old =>
        old.epoch = arriving.event.daemonEpoch ∧ arriving.event.seq ≤ old.throughSeq := by
      simpa [summary] using ⟨hepoch, hle⟩
    rw [if_pos hcovered, if_pos hle]
  · have hnew : ¬((some (summary first latest)).any fun old =>
        old.epoch = arriving.event.daemonEpoch ∧ arriving.event.seq ≤ old.throughSeq) := by
      have hlt : latest.seq < arriving.event.seq := Nat.lt_of_not_le hle
      simpa [summary] using fun _ => hlt
    rw [if_neg hnew, if_neg hle]
    rfl

/-- After any arrivals of one Run the record is that of the latest of them, with
the wall time of the one which arrived first. -/
theorem foldl_mergeLifecycle (first : Lifecycle) (rest : List Lifecycle)
    (hepoch : ∀ a ∈ first :: rest, ∀ b ∈ first :: rest, a.epoch = b.epoch) :
    ∃ latest, KeyedFold.IsLatest Lifecycle.seq latest (first :: rest) ∧
      (first :: rest).foldl mergeLifecycle none = some (summary first latest) := by
  induction rest using List.reverseRecOn with
  | nil => exact ⟨first, .singleton first, rfl⟩
  | append_singleton rest arriving ih =>
      have hsub : ∀ a ∈ first :: rest, a ∈ first :: (rest ++ [arriving]) := by
        intro a ha
        rw [← List.cons_append]
        exact List.mem_append_left _ ha
      obtain ⟨latest, hlatest, hfold⟩ :=
        ih fun a ha b hb => hepoch a (hsub a ha) b (hsub b hb)
      have hsame : latest.epoch = arriving.epoch :=
        hepoch latest (hsub latest hlatest.mem) arriving (by simp)
      rw [← List.cons_append, List.foldl_append, hfold]
      simp only [List.foldl_cons, List.foldl_nil, mergeLifecycle_summary hsame]
      by_cases hle : arriving.seq ≤ latest.seq
      · exact ⟨latest, hlatest.keep hle, by rw [if_pos hle]⟩
      · exact ⟨arriving, hlatest.replace (Nat.lt_of_not_le hle), by rw [if_neg hle]⟩

theorem mem_ofRun {arrivals : List TimelineEvent} {path : String × Uuid}
    {lifecycle : Lifecycle} :
    lifecycle ∈ ofRun arrivals path ↔ lifecycle ∈ lifecycles arrivals ∧ lifecycle.path = path := by
  simp [ofRun]

theorem RunsOf.epoch_ofRun {arrivals : List TimelineEvent} (hruns : RunsOf arrivals)
    {path : String × Uuid} {a b : Lifecycle} (ha : a ∈ ofRun arrivals path)
    (hb : b ∈ ofRun arrivals path) : a.epoch = b.epoch := by
  obtain ⟨ha, hpath⟩ := mem_ofRun.mp ha
  obtain ⟨hb, hpath'⟩ := mem_ofRun.mp hb
  exact hruns.sameEpoch a ha b hb (hpath.trans hpath'.symm)

/-- Recorded Runs, whatever the order: the latest event of the Run wins. -/
theorem recordAll_latest {arrivals : List TimelineEvent} (hruns : RunsOf arrivals)
    {path : String × Uuid} {first : Lifecycle}
    (hfirst : (ofRun arrivals path).head? = some first) :
    ∃ latest, KeyedFold.IsLatest Lifecycle.seq latest (ofRun arrivals path) ∧
      recordAll arrivals path = some (summary first latest) := by
  have hepoch : ∀ a ∈ ofRun arrivals path, ∀ b ∈ ofRun arrivals path, a.epoch = b.epoch :=
    fun a ha b hb => hruns.epoch_ofRun ha hb
  rw [recordAll_apply]
  cases hevents : ofRun arrivals path with
  | nil => simp [hevents] at hfirst
  | cons head rest =>
      rw [hevents] at hfirst hepoch
      obtain rfl : head = first := by simpa using hfirst
      exact foldl_mergeLifecycle head rest hepoch

theorem recordAll_none {arrivals : List TimelineEvent} {path : String × Uuid}
    (hnone : (ofRun arrivals path).head? = none) : recordAll arrivals path = none := by
  rw [recordAll_apply, List.head?_eq_none_iff.mp hnone]
  rfl

/-! ## Order independence -/

theorem InSequence.mem_ofRun_iff {ordered arrivals : List TimelineEvent}
    (hordered : InSequence ordered arrivals) (path : String × Uuid) (lifecycle : Lifecycle) :
    lifecycle ∈ ofRun ordered path ↔ lifecycle ∈ ofRun arrivals path := by
  simp only [mem_ofRun, lifecycles, List.mem_filterMap, hordered.sameEvents]

theorem InSequence.runsOf {ordered arrivals : List TimelineEvent}
    (hordered : InSequence ordered arrivals) (hruns : RunsOf arrivals) : RunsOf ordered := by
  have hsub : ∀ a ∈ lifecycles ordered, a ∈ lifecycles arrivals := by
    intro a ha
    have hmem : a ∈ ofRun ordered a.path := mem_ofRun.mpr ⟨ha, rfl⟩
    exact (mem_ofRun.mp ((hordered.mem_ofRun_iff a.path a).mp hmem)).1
  exact
    { sameEpoch := fun a ha b hb => hruns.sameEpoch a (hsub a ha) b (hsub b hb)
      seqNames := fun a ha b hb => hruns.seqNames a (hsub a ha) b (hsub b hb)
      endIsLast := fun a ha b hb => hruns.endIsLast a (hsub a ha) b (hsub b hb) }

/-- In sequence order the first event of a Run is its earliest. -/
theorem InSequence.head_earliest {ordered arrivals : List TimelineEvent}
    (hordered : InSequence ordered arrivals) {path : String × Uuid} {first : Lifecycle}
    (hfirst : (ofRun ordered path).head? = some first) :
    first ∈ ofRun arrivals path ∧ ∀ other ∈ ofRun arrivals path, first.seq ≤ other.seq := by
  have hpairs := hordered.ascending path
  have hmem := fun lifecycle => hordered.mem_ofRun_iff path lifecycle
  cases hevents : ofRun ordered path with
  | nil => simp [hevents] at hfirst
  | cons head rest =>
      rw [hevents] at hfirst hpairs hmem
      obtain rfl : head = first := by simpa using hfirst
      refine ⟨(hmem head).mp List.mem_cons_self, fun other hother => ?_⟩
      rcases List.mem_cons.mp ((hmem other).mpr hother) with rfl | hrest
      · exact le_rfl
      · exact ((List.pairwise_cons.mp hpairs).1 other hrest).le

theorem InSequence.head_isSome {ordered arrivals : List TimelineEvent}
    (hordered : InSequence ordered arrivals) (path : String × Uuid) :
    (ofRun ordered path).head? = none ↔ (ofRun arrivals path).head? = none := by
  simp only [List.head?_eq_none_iff, List.eq_nil_iff_forall_not_mem,
    hordered.mem_ofRun_iff path]

/-- Both orders keep the same latest event; the start times may differ. -/
theorem InSequence.records {ordered arrivals : List TimelineEvent}
    (hordered : InSequence ordered arrivals) (hruns : RunsOf arrivals) {path : String × Uuid}
    {first earliest : Lifecycle} (hfirst : (ofRun arrivals path).head? = some first)
    (hearliest : (ofRun ordered path).head? = some earliest) :
    ∃ latest, recordAll arrivals path = some (summary first latest) ∧
      recordAll ordered path = some (summary earliest latest) := by
  obtain ⟨latest, hlatest, hrecord⟩ := recordAll_latest hruns hfirst
  obtain ⟨latest', hlatest', hrecord'⟩ := recordAll_latest (hordered.runsOf hruns) hearliest
  have hinj : ∀ a ∈ ofRun arrivals path, ∀ b ∈ ofRun arrivals path, a.seq = b.seq → a = b := by
    intro a ha b hb
    obtain ⟨ha, hpath⟩ := mem_ofRun.mp ha
    obtain ⟨hb, hpath'⟩ := mem_ofRun.mp hb
    exact hruns.seqNames a ha b hb (hpath.trans hpath'.symm)
  obtain rfl := hlatest.unique hlatest'
    (fun other => (hordered.mem_ofRun_iff path other).symm) hinj
  exact ⟨latest, hrecord, hrecord'⟩

/-- The two indexes agree exactly when every Run's start time is that of its first arrival. -/
theorem InSequence.recordAll_eq_iff {ordered arrivals : List TimelineEvent}
    (hordered : InSequence ordered arrivals) (hruns : RunsOf arrivals) :
    recordAll arrivals = recordAll ordered ↔ StartArrivesFirst arrivals := by
  constructor
  · intro hsame path first hfirst earliest hmem hleast
    have hfirst : (ofRun arrivals path).head? = some first := hfirst
    cases hhead : (ofRun ordered path).head? with
    | none =>
        rw [(hordered.head_isSome path).mp hhead] at hfirst
        cases hfirst
    | some head =>
        obtain ⟨hheadMem, hheadLeast⟩ := hordered.head_earliest hhead
        obtain ⟨latest, hrecord, hrecord'⟩ := hordered.records hruns hfirst hhead
        have hstarted : first.wallTimeNs = head.wallTimeNs := by
          have hequal := congrFun hsame path
          rw [hrecord, hrecord'] at hequal
          exact congrArg RunRecord.startedWallTimeNs (Option.some.inj hequal)
        obtain ⟨hmem', hpath⟩ := mem_ofRun.mp hmem
        obtain ⟨hheadMem', hheadPath⟩ := mem_ofRun.mp hheadMem
        have hhead : head = earliest :=
          hruns.seqNames head hheadMem' earliest hmem' (hheadPath.trans hpath.symm)
            (le_antisymm (hheadLeast earliest hmem) (hleast head hheadMem))
        rw [hstarted, hhead]
  · intro hstart
    funext path
    cases hhead : (ofRun ordered path).head? with
    | none =>
        rw [recordAll_none hhead, recordAll_none ((hordered.head_isSome path).mp hhead)]
    | some head =>
        cases hfirst : (ofRun arrivals path).head? with
        | none => rw [(hordered.head_isSome path).mpr hfirst] at hhead; cases hhead
        | some first =>
            obtain ⟨hheadMem, hheadLeast⟩ := hordered.head_earliest hhead
            obtain ⟨latest, hrecord, hrecord'⟩ := hordered.records hruns hfirst hhead
            have hstarted := hstart path first hfirst head hheadMem hheadLeast
            rw [hrecord, hrecord']
            simp only [summary, hstarted]

/-! ## Ended Runs stay ended -/

theorem lifecycles_append (before after : List TimelineEvent) :
    lifecycles (before ++ after) = lifecycles before ++ lifecycles after :=
  List.filterMap_append

theorem ofRun_append (before after : List TimelineEvent) (path : String × Uuid) :
    ofRun (before ++ after) path = ofRun before path ++ ofRun after path := by
  rw [ofRun, lifecycles_append, List.filter_append]
  rfl

theorem RunsOf.of_append {before after : List TimelineEvent}
    (hruns : RunsOf (before ++ after)) : RunsOf before := by
  have hsub : ∀ a ∈ lifecycles before, a ∈ lifecycles (before ++ after) := by
    intro a ha
    rw [lifecycles_append]
    exact List.mem_append_left _ ha
  exact
    { sameEpoch := fun a ha b hb => hruns.sameEpoch a (hsub a ha) b (hsub b hb)
      seqNames := fun a ha b hb => hruns.seqNames a (hsub a ha) b (hsub b hb)
      endIsLast := fun a ha b hb => hruns.endIsLast a (hsub a ha) b (hsub b hb) }

/-- The latest event only moves forward, and nothing follows the end of a Run. -/
theorem endsStay {arrivals : List TimelineEvent} (hruns : RunsOf arrivals) :
    EndsStay arrivals := by
  intro before after harrivals path ended hended hterminal
  subst harrivals
  have hended : recordAll before path = some ended := hended
  cases hfirst : (ofRun before path).head? with
  | none =>
      rw [recordAll_none hfirst] at hended
      cases hended
  | some first =>
      have hfirst' : (ofRun (before ++ after) path).head? = some first := by
        rw [ofRun_append, List.head?_append, hfirst]
        rfl
      obtain ⟨old, hold, hrecord⟩ := recordAll_latest hruns.of_append hfirst
      obtain ⟨latest, hlatest, hrecord'⟩ := recordAll_latest hruns hfirst'
      have holdMem : old ∈ ofRun (before ++ after) path := by
        rw [ofRun_append]
        exact List.mem_append_left _ hold.mem
      obtain rfl : summary first old = ended := Option.some.inj (hrecord.symm.trans hended)
      obtain ⟨hmem, hpath⟩ := mem_ofRun.mp holdMem
      obtain ⟨hmem', hpath'⟩ := mem_ofRun.mp hlatest.mem
      exact ⟨summary first latest, hrecord', hruns.endIsLast old hmem latest hmem'
        (hpath.trans hpath'.symm) hterminal (hlatest.le old holdMem)⟩

/-- The index does not depend on the order of arrival, and ended Runs stay ended,
exactly when every Run's earliest lifecycle event arrives before its others, or
at least an event of the same wall time does. -/
theorem orderIndependent_iff {ordered arrivals : List TimelineEvent}
    (hruns : RunsOf arrivals) (hordered : InSequence ordered arrivals) :
    (recordAll arrivals = recordAll ordered ∧ EndsStay arrivals) ↔
      StartArrivesFirst arrivals := by
  rw [hordered.recordAll_eq_iff hruns]
  exact ⟨fun h => h.1, fun h => ⟨h, endsStay hruns⟩⟩

/-! ## A Run whose end is indexed first -/

/-- The Run `7` of the agent `agent`. -/
def exampleRun (status : RunStatus) : RunInfo where
  id := 7
  owner := { id := "agent", label := "Agent", kind := .agent }
  label := "test"
  status := status
  startSeq := 1
  endSeq := none
  metadata := []

/-- A lifecycle event of that Run, on port `COM3` in epoch `1`. -/
def runEvent (seq : ℕ) (kind : EventKind) (status : RunStatus) : TimelineEvent where
  port := "COM3"
  daemonEpoch := 1
  seq := seq
  generation := 1
  wallTimeNs := seq
  monotonicTimeNs := seq
  kind := kind
  direction := .none
  actor := some (exampleRun status).owner
  runId := some 7
  operationId := none
  streamOffsetStart := none
  streamOffsetEnd := none
  data := []
  metadata := [("run", .run (exampleRun status))]
  durable := true

def runStart : TimelineEvent := runEvent 1 .runStarted .active

def runEnd : TimelineEvent := runEvent 3 .runEnded .completed

theorem lifecycles_cases {arrivals : List TimelineEvent}
    (hevents : ∀ event ∈ arrivals, event = runStart ∨ event = runEnd) :
    ∀ a ∈ lifecycles arrivals,
      a = ⟨runStart, exampleRun .active⟩ ∨ a = ⟨runEnd, exampleRun .completed⟩ := by
  intro a ha
  obtain ⟨event, hevent, hlifecycle⟩ := List.mem_filterMap.mp ha
  rcases hevents event hevent with rfl | rfl
  · exact .inl (Option.some.inj hlifecycle).symm
  · exact .inr (Option.some.inj hlifecycle).symm

theorem runsOf_runStart_runEnd {arrivals : List TimelineEvent}
    (hevents : ∀ event ∈ arrivals, event = runStart ∨ event = runEnd) : RunsOf arrivals where
  sameEpoch a ha b hb _ := by
    rcases lifecycles_cases hevents a ha with rfl | rfl <;>
      rcases lifecycles_cases hevents b hb with rfl | rfl <;> rfl
  seqNames a ha b hb _ hseq := by
    rcases lifecycles_cases hevents a ha with rfl | rfl <;>
      rcases lifecycles_cases hevents b hb with rfl | rfl <;>
        first | rfl | exact absurd hseq (by decide)
  endIsLast a ha b hb _ hstatus hseq := by
    rcases lifecycles_cases hevents a ha with rfl | rfl <;>
      rcases lifecycles_cases hevents b hb with rfl | rfl <;>
        first | exact hstatus | decide | exact absurd hseq (by decide)

theorem inSequence_runStart_runEnd {arrivals : List TimelineEvent}
    (hsame : ∀ event, event ∈ [runStart, runEnd] ↔ event ∈ arrivals) :
    InSequence [runStart, runEnd] arrivals where
  sameEvents := hsame
  ascending path := by
    have hlifecycles : lifecycles [runStart, runEnd] =
        [⟨runStart, exampleRun .active⟩, ⟨runEnd, exampleRun .completed⟩] := rfl
    rw [ofRun, hlifecycles]
    exact List.Pairwise.filter _ (List.pairwise_pair.mpr (by decide))

/-- The end recorded first leaves its own wall time as the start of the Run. -/
theorem endFirst_startTime_differs :
    RunsOf [runEnd, runStart] ∧ InSequence [runStart, runEnd] [runEnd, runStart] ∧
      recordAll [runEnd, runStart] ≠ recordAll [runStart, runEnd] := by
  refine ⟨runsOf_runStart_runEnd (by simp), inSequence_runStart_runEnd (by simp [or_comm]),
    fun hsame => ?_⟩
  have hstart := congrArg (Option.map RunRecord.startedWallTimeNs)
    (congrFun hsame (portDir "COM3", 7))
  simp [recordAll, record, agentRun, runEnd, runStart, runEvent, exampleRun, path, merge,
    empty] at hstart

theorem orderIndependent_startFirst :
    recordAll [runStart, runEnd, runStart] = recordAll [runStart, runEnd] ∧
      EndsStay [runStart, runEnd, runStart] := by
  refine (orderIndependent_iff (runsOf_runStart_runEnd (by simp))
    (inSequence_runStart_runEnd (by simp [or_comm]))).mpr ?_
  intro path first hfirst earliest hmem hleast
  have hlifecycles : lifecycles [runStart, runEnd, runStart] =
      [⟨runStart, exampleRun .active⟩, ⟨runEnd, exampleRun .completed⟩,
        ⟨runStart, exampleRun .active⟩] := rfl
  rw [ofRun, hlifecycles] at hfirst hmem hleast
  by_cases hpath : (Lifecycle.path ⟨runStart, exampleRun .active⟩) = path
  · have hpath' : (Lifecycle.path ⟨runEnd, exampleRun .completed⟩) = path := hpath
    simp only [List.filter_cons, hpath, hpath', decide_true, if_true, List.filter_nil] at hfirst hmem hleast
    obtain rfl : _ = first := Option.some.inj hfirst
    have hseq := hleast _ List.mem_cons_self
    simp only [List.mem_cons, List.not_mem_nil, or_false] at hmem
    rcases hmem with rfl | rfl | rfl
    · rfl
    · exact absurd hseq (by decide)
    · rfl
  · have hpath' : ¬(Lifecycle.path ⟨runEnd, exampleRun .completed⟩) = path := hpath
    simp [hpath, hpath'] at hmem

end RunHistory

end SerialPlatform
