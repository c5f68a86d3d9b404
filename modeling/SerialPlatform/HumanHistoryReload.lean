import SerialPlatform.HumanHistory
import SerialPlatform.Recency

/-!
# Reloading the Human command history

What the history is for: the latest submission of each of the most recently
used commands, and the identifiers of the most recent operations.  `content`
states this of a list of submissions, the recorder is shown to keep exactly
it, and the file it leaves is read back exactly when its JSON text respects the
size which `open` accepts.
-/

namespace SerialPlatform

namespace HumanHistory

/-! ## What the submissions amount to -/

/-- Submissions, newest first, beside their revisions. -/
def numbered : List Submission → List (Submission × ℕ)
  | [] => []
  | submission :: older => (submission, older.length + 1) :: numbered older

def commandOf (numbered : Submission × ℕ) : String := numbered.1.command

/-- The latest submission of each retained command, newest first. -/
def retained (recent : List Submission) : List (Submission × ℕ) :=
  (Recency.latest commandOf (numbered recent)).take maxEntries

/-- The operation which began a command's present stay in the history, and the
uses of the command since. -/
def stay : List Submission → String → Option (Uuid × ℕ)
  | [], _ => none
  | submission :: older, command =>
      if submission.command = command then
        if command ∈ (retained older).map commandOf then
          (stay older command).map fun stay => (stay.1, satAdd u64Max stay.2 1)
        else some (submission.operationId, 1)
      else stay older command

def entryOf (recent : List Submission) (latest : Submission × ℕ) : HumanCommandHistoryEntry where
  id := ((stay recent latest.1.command).map Prod.fst).getD latest.1.operationId
  command := latest.1.command
  port := latest.1.port
  wallTimeNs := latest.1.wallTimeNs
  revision := latest.2
  uses := ((stay recent latest.1.command).map Prod.snd).getD 1

/-- The history which some submissions, newest first, amount to. -/
def content (recent : List Submission) : Persisted where
  revision := recent.length
  entries := ((retained recent).map (entryOf recent)).reverse
  seen := ((recent.take maxSeen).map Submission.operationId).reverse
  truncated := decide (maxEntries < (Recency.latest commandOf (numbered recent)).length)

/-- A submission counts unless its operation is among the most recent ones. -/
def accept (recent : List Submission) (submission : Submission) : List Submission :=
  if submission.operationId ∈ (recent.take maxSeen).map Submission.operationId then recent
  else submission :: recent

/-- The submissions which the events confirm, newest first. -/
def submissions (events : List TimelineEvent) : List Submission :=
  (events.filterMap submission).foldl accept []

/-! ## One more submission -/

theorem stay_of_mem {recent : List Submission} {command : String}
    (hmem : command ∈ (numbered recent).map commandOf) : (stay recent command).isSome := by
  induction recent with
  | nil => cases hmem
  | cons submission older ih =>
      rw [stay]
      by_cases hcommand : submission.command = command
      · rw [if_pos hcommand]
        split_ifs with hretained
        · have hold : command ∈ (numbered older).map commandOf := by
            obtain ⟨item, hitem, hkey⟩ := List.mem_map.mp hretained
            exact List.mem_map.mpr
              ⟨item, Recency.mem_of_mem_latest (List.mem_of_mem_take hitem), hkey⟩
          rw [Option.isSome_map]
          exact ih hold
        · rfl
      · rw [if_neg hcommand]
        refine ih ?_
        rw [numbered, List.map_cons] at hmem
        exact (List.mem_cons.mp hmem).resolve_left fun h => hcommand h.symm

theorem retained_nodup (recent : List Submission) :
    ((retained recent).map commandOf).Nodup :=
  (Recency.latest_nodup (numbered recent)).sublist
    (List.Sublist.map commandOf (List.take_sublist _ _))

theorem retained_cons (submission : Submission) (older : List Submission) :
    retained (submission :: older) =
      Recency.touch commandOf maxEntries (submission, older.length + 1) (retained older) :=
  Recency.take_latest_cons maxEntries _ _

theorem entryOf_cons_of_ne {submission : Submission} {older : List Submission}
    {latest : Submission × ℕ} (hne : commandOf latest ≠ submission.command) :
    entryOf (submission :: older) latest = entryOf older latest := by
  have hstay : stay (submission :: older) latest.1.command = stay older latest.1.command := by
    exact if_neg (Ne.symm hne)
  simp only [entryOf, hstay]

/-- Among the entries, newest or oldest first, a command names at most one. -/
theorem find?_entries (recent : List Submission) (command : String) :
    (content recent).entries.find? (fun entry => entry.command = command) =
      ((retained recent).find? fun latest => commandOf latest = command).map
        (entryOf recent) := by
  have hunique : ∀ a ∈ retained recent, ∀ b ∈ retained recent,
      commandOf a = commandOf b → a = b :=
    fun a ha b hb => List.inj_on_of_nodup_map (retained_nodup recent) ha hb
  cases hfind : (retained recent).find? fun latest => commandOf latest = command with
  | none =>
      rw [Option.map_none, List.find?_eq_none]
      intro entry hentry
      simp only [content, List.mem_reverse, List.mem_map] at hentry
      obtain ⟨latest, hlatest, rfl⟩ := hentry
      exact List.find?_eq_none.mp hfind latest hlatest
  | some latest =>
      have hlatest := List.mem_of_find?_eq_some hfind
      have hcommand : commandOf latest = command := by simpa using List.find?_some hfind
      cases hfind' : (content recent).entries.find? fun entry => entry.command = command with
      | none =>
          have hnot := List.find?_eq_none.mp hfind' (entryOf recent latest)
            (by simpa [content] using ⟨latest.1, latest.2, hlatest, rfl⟩)
          exact absurd (decide_eq_true hcommand) hnot
      | some entry =>
          have hentry := List.mem_of_find?_eq_some hfind'
          have hname : entry.command = command := by simpa using List.find?_some hfind'
          simp only [content, List.mem_reverse, List.mem_map] at hentry
          obtain ⟨other, hother, rfl⟩ := hentry
          rw [hunique other hother latest hlatest (hname.trans hcommand.symm), Option.map_some]

theorem entries_nodup (recent : List Submission) :
    ((content recent).entries.map HumanCommandHistoryEntry.command).Nodup := by
  have hcommands : (content recent).entries.map HumanCommandHistoryEntry.command =
      ((retained recent).map commandOf).reverse := by
    simp only [content, List.map_reverse, List.map_map]
    rfl
  rw [hcommands]
  exact List.nodup_reverse.mpr (retained_nodup recent)

theorem eraseP_entries (recent : List Submission) (command : String) :
    (content recent).entries.eraseP (fun entry => entry.command = command) =
      ((Recency.without commandOf command (retained recent)).map (entryOf recent)).reverse := by
  rw [Recency.eraseP_eq_without (entries_nodup recent)]
  simp only [content, Recency.without, List.filter_reverse, List.filter_map]
  rfl

/-- The entries other than the submitted one do not change. -/
theorem map_entryOf_without (submission : Submission) (older : List Submission) :
    (Recency.without commandOf submission.command (retained older)).map
        (entryOf (submission :: older)) =
      (Recency.without commandOf submission.command (retained older)).map (entryOf older) := by
  refine List.map_congr_left fun latest hlatest => ?_
  exact entryOf_cons_of_ne (Recency.mem_without.mp hlatest).2

/-- The entry of the submitted command continues the retained one, or is new. -/
theorem entryOf_submitted (submission : Submission) (older : List Submission) :
    entryOf (submission :: older) (submission, older.length + 1) =
      { id := (((content older).entries.find? fun entry =>
            entry.command = submission.command).map
              HumanCommandHistoryEntry.id).getD submission.operationId
        command := submission.command
        port := submission.port
        wallTimeNs := submission.wallTimeNs
        revision := older.length + 1
        uses := (((content older).entries.find? fun entry =>
            entry.command = submission.command).map
              fun entry => satAdd u64Max entry.uses 1).getD 1 } := by
  rw [find?_entries]
  cases hfind : (retained older).find? fun latest => commandOf latest = submission.command with
  | none =>
      have hnew : submission.command ∉ (retained older).map commandOf := by
        intro hmem
        obtain ⟨latest, hlatest, hcommand⟩ := List.mem_map.mp hmem
        exact List.find?_eq_none.mp hfind latest hlatest (decide_eq_true hcommand)
      simp [entryOf, stay, hnew]
  | some latest =>
      have hlatest := List.mem_of_find?_eq_some hfind
      have hname : commandOf latest = submission.command := by
        simpa using List.find?_some hfind
      have hcommand : latest.1.command = submission.command := hname
      have hretained : submission.command ∈ (retained older).map commandOf :=
        List.mem_map.mpr ⟨latest, hlatest, hcommand⟩
      have hold : submission.command ∈ (numbered older).map commandOf :=
        List.mem_map.mpr
          ⟨latest, Recency.mem_of_mem_latest (List.mem_of_mem_take hlatest), hcommand⟩
      obtain ⟨began, hbegan⟩ := Option.isSome_iff_exists.mp (stay_of_mem hold)
      simp [entryOf, stay, hretained, hcommand, hbegan]

/-- The recorder keeps what the submissions amount to. -/
theorem content_cons (submission : Submission) (older : List Submission) :
    content (submission :: older) = (content older).add (older.length + 1) submission := by
  have hentries : (content older).entries.eraseP
        (fun entry => entry.command = submission.command) ++
        [entryOf (submission :: older) (submission, older.length + 1)] =
      (((submission, older.length + 1) ::
        Recency.without commandOf submission.command (retained older)).map
          (entryOf (submission :: older))).reverse := by
    rw [eraseP_entries, List.map_cons, List.reverse_cons, map_entryOf_without]
  have hretained : (retained older).length ≤ maxEntries := by
    rw [retained, List.length_take]
    exact min_le_left _ _
  have hwithout : (Recency.without commandOf submission.command (retained older)).length ≤
      (retained older).length := List.length_filter_le _ _
  have hseen : ((older.take maxSeen).map Submission.operationId).length ≤ maxSeen := by
    rw [List.length_map, List.length_take]
    exact min_le_left _ _
  simp only [Persisted.add, ← entryOf_submitted submission older, hentries]
  rw [Persisted.mk.injEq]
  refine ⟨rfl, ?_, ?_, ?_⟩
  · rw [List.length_reverse, Recency.reverse_take]
    · rw [← List.map_take]
      simp only [content, retained_cons]
      rfl
    · simp only [List.length_map, List.length_cons]
      omega
  · have hsubmitted : (content older).seen ++ [submission.operationId] =
        (submission.operationId ::
          (older.take maxSeen).map Submission.operationId).reverse := by
      rw [List.reverse_cons]
      rfl
    rw [hsubmitted, List.length_reverse, Recency.reverse_take]
    · rw [List.map_take, Recency.take_cons_take]
      simp only [content, List.map_take]
      rfl
    · simp only [List.length_cons]
      omega
  · simp only [content, numbered, Recency.latest, List.length_reverse, List.length_map,
      List.length_cons]
    by_cases hlong : maxEntries < (Recency.latest commandOf (numbered older)).length
    · have hremoved : (Recency.latest commandOf (numbered older)).length ≤
          (Recency.without commandOf submission.command
            (Recency.latest commandOf (numbered older))).length + 1 :=
        Recency.length_le_without (Recency.latest_nodup _) _
      rw [decide_eq_true hlong, Bool.true_or]
      exact decide_eq_true (hlong.trans_le hremoved)
    · have hall : retained older = Recency.latest commandOf (numbered older) :=
        List.take_of_length_le (Nat.le_of_not_lt hlong)
      rw [decide_eq_false hlong, Bool.false_or, hall]
      rfl

/-! ## A sequence of calls -/

/-- The history of a daemon which found no file. -/
def fresh : HumanHistory where
  file := none
  data := .default
  warning := none

/-- `history` holds what `recent` amounts to and has saved it, unless it is empty. -/
structure Holds (history : HumanHistory) (recent : List Submission) : Prop where
  data : history.data = content recent
  file : history.file = some history.data.toJson ∨ (recent = [] ∧ history.file = none)

theorem holds_fresh : Holds fresh [] where
  data := by simp [fresh, content, Persisted.default, retained, numbered, Recency.latest]
  file := .inr ⟨rfl, rfl⟩

/-- A successful call keeps the history up with the submissions. -/
theorem Holds.record {history : HumanHistory} {recent : List Submission}
    (hholds : Holds history recent) {event : TimelineEvent} {fault : Option WriteFault}
    (hok : (history.record event fault).1 = .ok ()) :
    Holds (history.record event fault).2 ((submission event).elim recent (accept recent)) := by
  cases hevent : submission event with
  | none =>
      rw [HumanHistory.record, hevent]
      exact hholds
  | some submitted =>
      have hseen : submitted.operationId ∈ history.data.seen ↔
          submitted.operationId ∈ (recent.take maxSeen).map Submission.operationId := by
        rw [hholds.data, content, List.mem_reverse]
      rw [HumanHistory.record, hevent] at hok ⊢
      simp only [Option.elim] at hok ⊢
      by_cases hmem : submitted.operationId ∈ history.data.seen
      · rw [if_pos hmem, accept, if_pos (hseen.mp hmem)]
        exact hholds
      · rw [if_neg hmem] at hok ⊢
        rw [accept, if_neg (mt hseen.mpr hmem)]
        by_cases hexhausted : u64Max ≤ history.data.revision
        · rw [if_pos hexhausted] at hok
          cases hok
        · rw [if_neg hexhausted] at hok ⊢
          have hnext : history.data.add (history.data.revision + 1) submitted =
              content (submitted :: recent) := by
            rw [content_cons, hholds.data]
            rfl
          rw [hnext] at hok ⊢
          cases fault with
          | none => exact { data := rfl, file := .inl rfl }
          | some fault =>
              obtain ⟨step, error⟩ := fault
              cases step <;> cases hok

theorem foldl_accept_cons (recent : List Submission) (event : TimelineEvent)
    (events : List TimelineEvent) :
    ((event :: events).filterMap submission).foldl accept recent =
      (events.filterMap submission).foldl accept
        ((submission event).elim recent (accept recent)) := by
  rw [List.filterMap_cons]
  cases submission event <;> rfl

/-- After successful calls the history holds what the confirmed submissions amount to. -/
theorem Holds.recordAll {history final : HumanHistory} {recent : List Submission}
    {calls : List (TimelineEvent × Option WriteFault)} (hholds : Holds history recent)
    (hok : history.recordAll calls = .ok final) :
    Holds final (((calls.map Prod.fst).filterMap submission).foldl accept recent) := by
  induction calls generalizing history recent with
  | nil =>
      obtain rfl : history = final := Except.ok.inj hok
      exact hholds
  | cons call calls ih =>
      obtain ⟨event, fault⟩ := call
      rw [List.map_cons, foldl_accept_cons]
      rw [HumanHistory.recordAll] at hok
      rcases hrecord : history.record event fault with ⟨result, next⟩
      rw [hrecord] at hok
      cases result with
      | error error => cases hok
      | ok value =>
          have hstep : Holds (history.record event fault).2
              ((submission event).elim recent (accept recent)) :=
            hholds.record (by rw [hrecord])
          rw [hrecord] at hstep
          exact ih hstep hok

/-! ## Reading the file back -/

/-- What a submission was checked for. -/
def Submission.Valid (submission : Submission) : Prop :=
  submission.command.isEmpty = false ∧ submission.command.utf8ByteSize ≤ maxCommandBytes ∧
    submission.command.toList.any isControlChar = false

theorem submission_valid {event : TimelineEvent} {submitted : Submission}
    (h : submission event = some submitted) : submitted.Valid := by
  unfold submission at h
  split_ifs at h
  split at h
  · cases h
  · split_ifs at h
    split at h
    · cases h
    · split_ifs at h with hcommand
      obtain ⟨operationId, -, rfl⟩ := Option.map_eq_some_iff.mp h
      simp only [Bool.or_eq_true, not_or, Bool.not_eq_true, decide_eq_true_eq, not_lt] at hcommand
      exact ⟨hcommand.1.1, hcommand.1.2, hcommand.2⟩
    · cases h

theorem mem_foldl_accept {submitted : List Submission} {recent : List Submission}
    {item : Submission} (h : item ∈ submitted.foldl accept recent) :
    item ∈ recent ∨ item ∈ submitted := by
  induction submitted generalizing recent with
  | nil => exact .inl h
  | cons head rest ih =>
      rcases ih h with hrecent | hrest
      · rw [accept] at hrecent
        split_ifs at hrecent
        · exact .inl hrecent
        · rcases List.mem_cons.mp hrecent with rfl | hold
          · exact .inr List.mem_cons_self
          · exact .inl hold
      · exact .inr (List.mem_cons_of_mem _ hrest)

theorem submissions_valid {events : List TimelineEvent} {submitted : Submission}
    (h : submitted ∈ submissions events) : submitted.Valid := by
  rcases mem_foldl_accept h with hnil | hmem
  · cases hnil
  · obtain ⟨event, -, hevent⟩ := List.mem_filterMap.mp hmem
    exact submission_valid hevent

theorem mem_numbered {recent : List Submission} {item : Submission × ℕ}
    (h : item ∈ numbered recent) : item.1 ∈ recent ∧ item.2 ≤ recent.length := by
  induction recent with
  | nil => cases h
  | cons head older ih =>
      rcases List.mem_cons.mp h with rfl | hold
      · exact ⟨List.mem_cons_self, le_rfl⟩
      · obtain ⟨hmem, hle⟩ := ih hold
        exact ⟨List.mem_cons_of_mem _ hmem, hle.trans (Nat.le_succ _)⟩

/-- The content of valid submissions passes every check of `open` on the entries. -/
theorem content_checked {recent : List Submission} (hvalid : ∀ s ∈ recent, s.Valid) :
    (maxEntries < (content recent).entries.length || maxSeen < (content recent).seen.length ||
      (content recent).entries.any (invalidEntry (content recent).revision)) = false := by
  simp only [Bool.or_eq_false_iff, decide_eq_false_iff_not, not_lt, List.any_eq_false]
  refine ⟨⟨?_, ?_⟩, ?_⟩
  · simp only [content, List.length_reverse, List.length_map, retained, List.length_take]
    exact min_le_left _ _
  · simp only [content, List.length_reverse, List.length_map, List.length_take]
    exact min_le_left _ _
  · intro entry hentry
    simp only [content, List.mem_reverse, List.mem_map] at hentry
    obtain ⟨latest, hlatest, rfl⟩ := hentry
    obtain ⟨hmem, hrevision⟩ :=
      mem_numbered (Recency.mem_of_mem_latest (List.mem_of_mem_take hlatest))
    obtain ⟨hempty, hsize, hcontrol⟩ := hvalid latest.1 hmem
    have hlast : ¬recent.length < latest.2 := Nat.not_lt.mpr hrevision
    have hsize : ¬maxCommandBytes < latest.1.command.utf8ByteSize := Nat.not_lt.mpr hsize
    simp only [invalidEntry, entryOf, content, hempty, hcontrol, hlast, hsize, decide_false,
      Bool.or_self, not_false_eq_true, Bool.false_eq_true]

theorem size_default : Persisted.default.toJson.utf8ByteSize ≤ maxFileBytes := by
  decide

/-- Every successful run of calls leaves a file which is read back with the same
contents exactly when what the submissions amount to fits the size which `open`
accepts; `hread` says that `serde_json` reads back the text it wrote. -/
theorem reloads_iff {fromSlice : String → Option Persisted} {final : HumanHistory}
    {calls : List (TimelineEvent × Option WriteFault)}
    (hcalls : fresh.recordAll calls = .ok final)
    (hread : fromSlice final.data.toJson = some final.data) :
    (∃ reopened, openFile fromSlice final.file = .ok reopened ∧ reopened.data = final.data) ↔
      (content (submissions (calls.map Prod.fst))).toJson.utf8ByteSize ≤ maxFileBytes := by
  have hholds : Holds final (submissions (calls.map Prod.fst)) := holds_fresh.recordAll hcalls
  have hchecked := content_checked
    fun s (hs : s ∈ submissions (calls.map Prod.fst)) => submissions_valid hs
  rw [← hholds.data] at hchecked ⊢
  rcases hholds.file with hfile | ⟨hempty, hfile⟩
  · rw [hfile]
    by_cases hlarge : maxFileBytes < final.data.toJson.utf8ByteSize
    · have hrefused : openFile fromSlice (some final.data.toJson) =
          .error "invalid history file" := if_pos hlarge
      rw [hrefused]
      refine ⟨fun hreopened => ?_, fun h => absurd h (Nat.not_le.mpr hlarge)⟩
      obtain ⟨reopened, hopened, -⟩ := hreopened
      cases hopened
    · have hopened : openFile fromSlice (some final.data.toJson) =
          .ok { file := some final.data.toJson, data := final.data, warning := none } := by
        rw [openFile]
        simp only [if_neg hlarge, hread, hchecked, Bool.false_eq_true, if_false]
      rw [hopened]
      exact ⟨fun _ => Nat.le_of_not_lt hlarge, fun _ => ⟨_, rfl, rfl⟩⟩
  · have hdata : final.data = Persisted.default := by
      rw [hholds.data, hempty, ← holds_fresh.data]
      rfl
    rw [hfile, hdata]
    exact ⟨fun _ => size_default, fun _ => ⟨_, rfl, rfl⟩⟩

/-- A reader of the one text written for `data`. -/
def readBack (data : Persisted) (text : String) : Option Persisted :=
  if text = data.toJson then some data else none

def helpEvent : TimelineEvent where
  port := "COM3"
  daemonEpoch := 1
  seq := 1
  generation := 1
  wallTimeNs := 0
  monotonicTimeNs := 0
  kind := .tx
  direction := .tx
  actor := some { id := "human:1", label := "Human", kind := .human }
  runId := none
  operationId := some 9
  streamOffsetStart := none
  streamOffsetEnd := none
  data := []
  metadata := [("human_line_input", .str "help")]
  durable := true

def helpHistory : Persisted where
  revision := 1
  entries :=
    [{ id := 9, command := "help", port := "COM3", wallTimeNs := 0, revision := 1, uses := 1 }]
  seen := [9]
  truncated := false

set_option maxRecDepth 20000 in
theorem help_reloads :
    ∃ reopened, openFile (readBack helpHistory) (some helpHistory.toJson) = .ok reopened ∧
      reopened.data = helpHistory := by
  have hcalls : fresh.recordAll [(helpEvent, none)] =
      .ok { file := some helpHistory.toJson, data := helpHistory, warning := none } := rfl
  have hcontent : helpHistory = content (submissions [helpEvent]) :=
    (holds_fresh.recordAll hcalls).data
  have hsize : (content (submissions [helpEvent])).toJson.utf8ByteSize ≤ maxFileBytes := by
    rw [← hcontent]
    decide
  exact (reloads_iff hcalls (if_pos rfl)).mpr hsize

/-! ## A history which is written but not read back -/

theorem recordAll_ok {history : HumanHistory} {calls : List (TimelineEvent × Option WriteFault)}
    (hfaults : ∀ call ∈ calls, call.2 = none)
    (hrevision : history.data.revision + calls.length ≤ u64Max) :
    ∃ final, history.recordAll calls = .ok final := by
  induction calls generalizing history with
  | nil => exact ⟨history, rfl⟩
  | cons call calls ih =>
      obtain ⟨event, fault⟩ := call
      obtain rfl : fault = none := hfaults _ List.mem_cons_self
      rw [List.length_cons] at hrevision
      have hrecord : (history.record event none).1 = .ok () ∧
          (history.record event none).2.data.revision ≤ history.data.revision + 1 := by
        unfold HumanHistory.record
        cases submission event with
        | none => exact ⟨rfl, Nat.le_succ _⟩
        | some submitted =>
            dsimp only
            split_ifs with hseen hexhausted
            · exact ⟨rfl, Nat.le_succ _⟩
            · omega
            · exact ⟨rfl, le_rfl⟩
      rw [HumanHistory.recordAll]
      rcases hresult : history.record event none with ⟨result, next⟩
      rw [hresult] at hrecord
      obtain ⟨hok, hnext⟩ := hrecord
      obtain rfl : result = .ok () := hok
      exact ih (fun call hcall => hfaults call (List.mem_cons_of_mem _ hcall))
        (by simp only at hnext; omega)

/-- Submissions of distinct operations all count. -/
theorem foldl_accept_of_nodup {items recent : List Submission}
    (hnodup : ((items.reverse ++ recent).map Submission.operationId).Nodup) :
    items.foldl accept recent = items.reverse ++ recent := by
  induction items generalizing recent with
  | nil => rfl
  | cons item items ih =>
      rw [List.reverse_cons, List.append_assoc, List.singleton_append] at hnodup ⊢
      have hnew : item.operationId ∉ (recent.take maxSeen).map Submission.operationId := by
        intro hmem
        have htail := (List.map_append ▸ hnodup).of_append_right
        rw [List.map_cons, List.nodup_cons] at htail
        exact htail.1 ((List.Sublist.map _ (List.take_sublist _ _)).subset hmem)
      rw [List.foldl_cons, accept, if_neg hnew, ih hnodup]

theorem length_numbered (recent : List Submission) : (numbered recent).length = recent.length := by
  induction recent with
  | nil => rfl
  | cons head older ih => rw [numbered, List.length_cons, List.length_cons, ih]

theorem map_commandOf_numbered (recent : List Submission) :
    (numbered recent).map commandOf = recent.map Submission.command := by
  induction recent with
  | nil => rfl
  | cons head older ih => rw [numbered, List.map_cons, List.map_cons, ih]; rfl

/-- Distinct commands within the capacity are all retained. -/
theorem map_command_entries {recent : List Submission}
    (hnodup : (recent.map Submission.command).Nodup) (hlength : recent.length ≤ maxEntries) :
    (content recent).entries.map HumanCommandHistoryEntry.command =
      (recent.map Submission.command).reverse := by
  have hall : retained recent = numbered recent := by
    rw [retained, Recency.latest_eq_self (by rwa [map_commandOf_numbered]),
      List.take_of_length_le (by rwa [length_numbered])]
  simp only [content, hall, List.map_reverse, List.map_map, ← map_commandOf_numbered]
  rfl

theorem sum_jsonStringLength_le (data : Persisted) :
    ((data.entries.map HumanCommandHistoryEntry.command).map jsonStringLength).sum ≤
      data.toJson.utf8ByteSize := by
  have hentry : ∀ entry : HumanCommandHistoryEntry,
      jsonStringLength entry.command ≤ entry.toJson.utf8ByteSize := by
    intro entry
    simp only [HumanCommandHistoryEntry.toJson, jsonObject, jsonField, commaSeparated,
      String.utf8ByteSize_append, utf8ByteSize_jsonString]
    omega
  have hentries : ((data.entries.map HumanCommandHistoryEntry.command).map jsonStringLength).sum ≤
      (commaSeparated (data.entries.map HumanCommandHistoryEntry.toJson)).utf8ByteSize := by
    rw [utf8ByteSize_commaSeparated, List.map_map, List.map_map]
    refine le_trans (List.sum_le_sum fun entry _ => ?_) (Nat.le_add_right _ _)
    exact hentry entry
  refine hentries.trans ?_
  simp only [Persisted.toJson, jsonObject, jsonArray, jsonField, commaSeparated,
    String.utf8ByteSize_append]
  omega

/-- One of 8192 commands of 4096 bytes, each of them a quote or a backslash. -/
def bulkyChars (n : ℕ) : List Char :=
  (if n < 4096 then '"' else '\\') ::
    (List.replicate (n % 4096) '\\' ++ List.replicate (4095 - n % 4096) '"')

def bulkyEvent (n : ℕ) : TimelineEvent where
  port := "COM3"
  daemonEpoch := 1
  seq := n + 1
  generation := 1
  wallTimeNs := 0
  monotonicTimeNs := 0
  kind := .tx
  direction := .tx
  actor := some { id := "human:1", label := "Human", kind := .human }
  runId := none
  operationId := some n
  streamOffsetStart := none
  streamOffsetEnd := none
  data := []
  metadata := [("human_line_input", .str (String.ofList (bulkyChars n)))]
  durable := true

def bulkyCalls (count : ℕ) : List (TimelineEvent × Option WriteFault) :=
  (List.range count).map fun n => (bulkyEvent n, none)

def bulkySubmission (n : ℕ) : Submission where
  command := String.ofList (bulkyChars n)
  operationId := n
  port := "COM3"
  wallTimeNs := 0

theorem bulkyChars_cases {n : ℕ} {c : Char} (h : c ∈ bulkyChars n) : c = '"' ∨ c = '\\' := by
  rcases List.mem_cons.mp h with rfl | hrest
  · split_ifs
    · exact .inl rfl
    · exact .inr rfl
  · rcases List.mem_append.mp hrest with hslash | hquote
    · exact .inr (List.eq_of_mem_replicate hslash)
    · exact .inl (List.eq_of_mem_replicate hquote)

theorem length_bulkyChars (n : ℕ) : (bulkyChars n).length = 4096 := by
  have hrest : n % 4096 < 4096 := Nat.mod_lt _ (by decide)
  simp only [bulkyChars, List.length_cons, List.length_append, List.length_replicate]
  omega

theorem bulkyChars_inj {m n : ℕ} (hm : m < 8192) (hn : n < 8192)
    (h : bulkyChars m = bulkyChars n) : m = n := by
  have hslashes : ∀ k : ℕ,
      (List.replicate (k % 4096) '\\' ++ List.replicate (4095 - k % 4096) '"').count '\\' =
        k % 4096 := by
    intro k
    rw [List.count_append, List.count_replicate_self, List.count_replicate, if_neg (by decide),
      Nat.add_zero]
  obtain ⟨hhead, htail⟩ := List.cons.inj h
  have hmod : m % 4096 = n % 4096 := by rw [← hslashes m, htail, hslashes n]
  by_cases hm' : m < 4096 <;> by_cases hn' : n < 4096 <;> simp [hm', hn'] at hhead <;> omega

theorem map_bulkyChars {f : Char → ℕ} {size : ℕ} (hquote : f '"' = size) (hslash : f '\\' = size)
    (n : ℕ) : ((bulkyChars n).map f).sum = 4096 * size := by
  have hall : ∀ value ∈ (bulkyChars n).map f, value = size := by
    intro value hvalue
    obtain ⟨c, hc, rfl⟩ := List.mem_map.mp hvalue
    rcases bulkyChars_cases hc with rfl | rfl
    · exact hquote
    · exact hslash
  rw [List.eq_replicate_of_mem hall, List.sum_replicate, List.length_map, length_bulkyChars,
    smul_eq_mul]

theorem submission_bulkyEvent (n : ℕ) : submission (bulkyEvent n) = some (bulkySubmission n) := by
  have hempty : (String.ofList (bulkyChars n)).isEmpty = false := by
    rw [← Bool.not_eq_true, String.isEmpty_iff]
    intro h
    have hlength := congrArg (fun text : String => text.toList.length) h
    simp [length_bulkyChars] at hlength
  have hsize : (String.ofList (bulkyChars n)).utf8ByteSize = maxCommandBytes := by
    rw [utf8ByteSize_ofList, map_bulkyChars rfl rfl]
    rfl
  have hcontrol : (String.ofList (bulkyChars n)).toList.any isControlChar = false := by
    rw [String.toList_ofList, List.any_eq_false]
    intro c hc
    rcases bulkyChars_cases hc with rfl | rfl <;> decide
  have hfield : (bulkyEvent n).metadata.lookup "human_line_input" =
      some (.str (String.ofList (bulkyChars n))) := rfl
  have hpartial : (bulkyEvent n).metadata.lookup "partial" = none := rfl
  simp only [submission, hfield, hpartial, hempty, hsize, hcontrol]
  rfl

theorem submissions_bulkyCalls (count : ℕ) :
    submissions ((bulkyCalls count).map Prod.fst) =
      ((List.range count).map bulkySubmission).reverse := by
  have hevents : ((bulkyCalls count).map Prod.fst).filterMap submission =
      (List.range count).map bulkySubmission := by
    rw [bulkyCalls, List.map_map, List.filterMap_map]
    exact List.filterMap_eq_map_iff_forall_eq_some.mpr fun n _ => submission_bulkyEvent n
  have hoperations : (((List.range count).map bulkySubmission).map
      Submission.operationId) = List.range count := by
    rw [List.map_map]
    exact List.map_id _
  have hnodup : ((((List.range count).map bulkySubmission).reverse ++ []).map
      Submission.operationId).Nodup := by
    rw [List.append_nil, List.map_reverse, hoperations]
    exact List.nodup_reverse.mpr List.nodup_range
  rw [submissions, hevents, foldl_accept_of_nodup hnodup, List.append_nil]

/-- 7000 such submissions are all recorded, and the daemon does not start again. -/
theorem bulky_history_refused :
    ∃ final, fresh.recordAll (bulkyCalls 7000) = .ok final ∧
      ∀ fromSlice, openFile fromSlice final.file = .error "invalid history file" := by
  have hlength : (bulkyCalls 7000).length = 7000 := by
    rw [bulkyCalls, List.length_map, List.length_range]
  have hfaults : ∀ call ∈ bulkyCalls 7000, call.2 = none := by
    intro call hcall
    obtain ⟨n, -, rfl⟩ := List.mem_map.mp hcall
    rfl
  have hrevision : fresh.data.revision + (bulkyCalls 7000).length ≤ u64Max := by
    rw [hlength]
    decide
  obtain ⟨final, hfinal⟩ := recordAll_ok hfaults hrevision
  refine ⟨final, hfinal, fun fromSlice => ?_⟩
  have hholds : Holds final (submissions ((bulkyCalls 7000).map Prod.fst)) :=
    holds_fresh.recordAll hfinal
  rw [submissions_bulkyCalls] at hholds
  have hcommands : ((List.range 7000).map bulkySubmission).reverse.map Submission.command =
      ((List.range 7000).map fun n => String.ofList (bulkyChars n)).reverse := by
    rw [List.map_reverse, List.map_map]
    rfl
  have hnodup : (((List.range 7000).map bulkySubmission).reverse.map
      Submission.command).Nodup := by
    rw [hcommands, List.nodup_reverse]
    refine List.nodup_range.map_on ?_
    intro m hm n hn h
    have hm := List.mem_range.mp hm
    have hn := List.mem_range.mp hn
    exact bulkyChars_inj (by omega) (by omega) (String.ofList_injective h)
  have hsum : (((content ((List.range 7000).map bulkySubmission).reverse).entries.map
      HumanCommandHistoryEntry.command).map jsonStringLength).sum = 7000 * 8194 := by
    rw [map_command_entries hnodup (by simp [maxEntries]), hcommands, List.reverse_reverse,
      List.map_map]
    have hall : ∀ value ∈ (List.range 7000).map
        (jsonStringLength ∘ fun n => String.ofList (bulkyChars n)), value = 8194 := by
      intro value hvalue
      obtain ⟨n, -, rfl⟩ := List.mem_map.mp hvalue
      have hchars : ((bulkyChars n).map jsonCharLength).sum = 4096 * 2 :=
        map_bulkyChars rfl rfl n
      simp only [Function.comp_apply, jsonStringLength, String.toList_ofList, hchars]
    rw [List.eq_replicate_of_mem hall, List.sum_replicate, List.length_map, List.length_range,
      smul_eq_mul]
  have hsize : maxFileBytes < final.data.toJson.utf8ByteSize := by
    have hle := sum_jsonStringLength_le final.data
    rw [hholds.data, hsum] at hle
    rw [hholds.data]
    simp only [maxFileBytes]
    omega
  rcases hholds.file with hfile | ⟨hempty, -⟩
  · rw [hfile]
    exact if_pos hsize
  · exact absurd (congrArg List.length hempty) (by simp)

end HumanHistory

end SerialPlatform
