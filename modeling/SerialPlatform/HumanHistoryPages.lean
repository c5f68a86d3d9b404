import SerialPlatform.HumanHistoryReload

/-!
# Pages of the Human command history

Calls which fail leave the history what the recorded submissions amount to, so that its
entries are always in the order of their revisions.  A query follows this order backwards:
the pages behind a revision are the rest of the selected entries.
-/

namespace SerialPlatform

namespace HumanHistory

/-! ## Calls which may fail -/

/-- The history after some calls, whether they succeed or not. -/
def recordEach (history : HumanHistory) : List (TimelineEvent × Option WriteFault) → HumanHistory
  | [] => history
  | (event, fault) :: calls => (history.record event fault).2.recordEach calls

/-- The recorded submissions, newest first, after one more call: a call whose save fails
records nothing. -/
def recorded (recent : List Submission) (call : TimelineEvent × Option WriteFault) :
    List Submission :=
  match submission call.1 with
  | none => recent
  | some submitted =>
      if u64Max ≤ recent.length ∨ call.2.isSome = true then recent else accept recent submitted

/-- Entries of different commands in the order of their revisions, none newer than the
history. -/
structure Persisted.Consistent (data : Persisted) : Prop where
  distinct : (data.entries.map HumanCommandHistoryEntry.command).Nodup
  increasing : data.entries.Pairwise fun a b => a.revision < b.revision
  bounded : ∀ entry ∈ data.entries, entry.revision ≤ data.revision

/-- The submissions of a command since it was last absent from the history. -/
def usesSince : List Submission → String → ℕ
  | [], _ => 0
  | submission :: older, command =>
      if command ∈ (content (submission :: older)).entries.map
          HumanCommandHistoryEntry.command then
        (if submission.command = command then 1 else 0) + usesSince older command
      else 0

theorem numbered_decreasing (recent : List Submission) :
    (numbered recent).Pairwise fun a b => b.2 < a.2 := by
  induction recent with
  | nil => exact .nil
  | cons submission older ih =>
      rw [numbered, List.pairwise_cons]
      exact ⟨fun item hitem => Nat.lt_succ_of_le (mem_numbered hitem).2, ih⟩

theorem retained_sublist (recent : List Submission) :
    (retained recent).Sublist (numbered recent) :=
  (List.take_sublist _ _).trans (Recency.latest_sublist _)

theorem content_consistent (recent : List Submission) : (content recent).Consistent where
  distinct := entries_nodup recent
  increasing := by
    simp only [content, List.pairwise_reverse, List.pairwise_map]
    exact (numbered_decreasing recent).sublist (retained_sublist recent)
  bounded := by
    intro entry hentry
    simp only [content, List.mem_reverse, List.mem_map] at hentry
    obtain ⟨latest, hlatest, rfl⟩ := hentry
    exact (mem_numbered ((retained_sublist recent).subset hlatest)).2

theorem mem_commands {recent : List Submission} {command : String} :
    command ∈ (content recent).entries.map HumanCommandHistoryEntry.command ↔
      command ∈ (retained recent).map commandOf := by
  have hcommands : (content recent).entries.map HumanCommandHistoryEntry.command =
      ((retained recent).map commandOf).reverse := by
    simp only [content, List.map_reverse, List.map_map]
    rfl
  rw [hcommands, List.mem_reverse]

/-- A command which stays in the history was there, or is the one submitted. -/
theorem mem_retained_cons {submission : Submission} {older : List Submission} {command : String}
    (hmem : command ∈ (retained (submission :: older)).map commandOf)
    (hne : submission.command ≠ command) : command ∈ (retained older).map commandOf := by
  rw [retained_cons, Recency.touch] at hmem
  obtain ⟨latest, hlatest, rfl⟩ := List.mem_map.1 hmem
  rcases List.mem_cons.1 (List.mem_of_mem_take hlatest) with rfl | hold
  · exact absurd rfl hne
  · exact List.mem_map_of_mem (Recency.mem_without.1 hold).1

theorem retained_of_submitted (submission : Submission) (older : List Submission) :
    submission.command ∈ (retained (submission :: older)).map commandOf := by
  rw [retained_cons, Recency.touch, maxEntries, List.take_succ_cons]
  exact List.mem_cons_self

theorem usesSince_le (recent : List Submission) (command : String) :
    usesSince recent command ≤ recent.length := by
  induction recent with
  | nil => exact le_refl _
  | cons submission older ih =>
      rw [usesSince, List.length_cons]
      split_ifs <;> omega

/-- The stay of a present command counts its submissions. -/
theorem stay_uses {recent : List Submission} (hroom : recent.length ≤ u64Max) {command : String}
    (hmem : command ∈ (retained recent).map commandOf) :
    ((stay recent command).map Prod.snd).getD 1 = usesSince recent command := by
  induction recent with
  | nil => cases hmem
  | cons submission older ih =>
      rw [List.length_cons] at hroom
      rw [usesSince, if_pos (mem_commands.2 hmem), stay]
      by_cases hcommand : submission.command = command
      · rw [if_pos hcommand, if_pos hcommand]
        by_cases hold : command ∈ (retained older).map commandOf
        · rw [if_pos hold]
          have huses := ih (by omega) hold
          obtain ⟨began, hbegan⟩ := Option.isSome_iff_exists.1
            (stay_of_mem (((retained_sublist older).map commandOf).subset hold))
          rw [hbegan] at huses ⊢
          have hle := usesSince_le older command
          simp only [Option.map_some, Option.getD_some] at huses ⊢
          rw [huses, satAdd_eq_add (by omega), Nat.add_comm]
        · have hnone : usesSince older command = 0 := by
            cases older with
            | nil => rfl
            | cons head older => rw [usesSince, if_neg (mt mem_commands.1 hold)]
          rw [if_neg hold, hnone]
          rfl
      · rw [if_neg hcommand, if_neg hcommand, Nat.zero_add]
        exact ih (by omega) (mem_retained_cons hmem hcommand)

theorem uses_eq {recent : List Submission} (hroom : recent.length ≤ u64Max)
    {entry : HumanCommandHistoryEntry} (hentry : entry ∈ (content recent).entries) :
    entry.uses = usesSince recent entry.command := by
  have hmem := mem_commands.1 (List.mem_map_of_mem hentry)
  simp only [content, List.mem_reverse, List.mem_map] at hentry
  obtain ⟨latest, hlatest, rfl⟩ := hentry
  exact stay_uses hroom hmem

/-- A call which fails, or repeats an operation, leaves what is recorded as it was. -/
theorem record_data {history : HumanHistory} {recent : List Submission}
    (hdata : history.data = content recent) (call : TimelineEvent × Option WriteFault) :
    (history.record call.1 call.2).2.data = content (recorded recent call) := by
  obtain ⟨event, fault⟩ := call
  unfold record recorded
  cases submission event with
  | none => exact hdata
  | some submitted =>
      have hseen : submitted.operationId ∈ history.data.seen ↔
          submitted.operationId ∈ (recent.take maxSeen).map Submission.operationId := by
        rw [hdata, content, List.mem_reverse]
      have hrevision : history.data.revision = recent.length := by rw [hdata, content]
      dsimp only
      by_cases hmem : submitted.operationId ∈ history.data.seen
      · rw [if_pos hmem, accept, if_pos (hseen.1 hmem), ite_self]
        exact hdata
      rw [if_neg hmem, accept, if_neg (mt hseen.2 hmem)]
      by_cases hfull : u64Max ≤ history.data.revision
      · rw [if_pos hfull, if_pos (.inl (hrevision ▸ hfull))]
        exact hdata
      rw [if_neg hfull]
      cases fault with
      | none =>
          rw [if_neg (by simp [← hrevision, hfull]), content_cons, ← hdata, ← hrevision]
          rfl
      | some fault =>
          obtain ⟨step, error⟩ := fault
          rw [if_pos (.inr rfl)]
          cases step <;> exact hdata

theorem recorded_length {recent : List Submission} (hroom : recent.length ≤ u64Max)
    (call : TimelineEvent × Option WriteFault) : (recorded recent call).length ≤ u64Max := by
  unfold recorded accept
  cases submission call.1 with
  | none => exact hroom
  | some submitted =>
      dsimp only
      split_ifs with hfull
      · exact hroom
      · exact hroom
      · rw [List.length_cons]
        omega

theorem recordEach_data {history : HumanHistory} {recent : List Submission}
    (hdata : history.data = content recent) (hroom : recent.length ≤ u64Max)
    (calls : List (TimelineEvent × Option WriteFault)) :
    (history.recordEach calls).data = content (calls.foldl recorded recent) ∧
      (calls.foldl recorded recent).length ≤ u64Max := by
  induction calls generalizing history recent with
  | nil => exact ⟨hdata, hroom⟩
  | cons call calls ih => exact ih (record_data hdata call) (recorded_length hroom call)

/-- Where saving fails, only the warning tells of it. -/
theorem record_failed {history : HumanHistory} {event : TimelineEvent} {fault : Option WriteFault}
    {error : String} (h : (history.record event fault).1 = .error error) :
    (history.record event fault).2.data = history.data := by
  unfold record at h ⊢
  cases hevent : submission event with
  | none => rfl
  | some submitted =>
      rw [hevent] at h
      dsimp only at h ⊢
      split_ifs at h ⊢ with hmem hfull
      · rfl
      · cases fault with
        | none => cases h
        | some fault =>
            obtain ⟨step, message⟩ := fault
            cases step <;> rfl

theorem record_repeated {history : HumanHistory} {recent : List Submission}
    (hdata : history.data = content recent) {event : TimelineEvent} {submitted : Submission}
    (hevent : submission event = some submitted)
    (hseen : submitted.operationId ∈ (recent.take maxSeen).map Submission.operationId)
    (fault : Option WriteFault) : history.record event fault = (.ok (), history) := by
  have hmem : submitted.operationId ∈ history.data.seen := by
    rw [hdata, content, List.mem_reverse]
    exact hseen
  rw [record, hevent]
  exact if_pos hmem

/-! ## Pages -/

/-- The entries of the pages which follow one another, where each page has its own limit;
`none` when they go on. -/
def followPages (history : HumanHistory) (serverId : Uuid) (limits : ℕ → Option ℕ) :
    ℕ → ℕ → HumanCommandHistoryQuery → Option (List HumanCommandHistoryEntry)
  | 0, _, _ => none
  | turns + 1, page, query =>
      let response := history.query serverId { query with limit := limits page }
      match response.nextBeforeRevision with
      | none => some response.entries
      | some revision =>
          (followPages history serverId limits turns (page + 1)
            { query with beforeRevision := some revision }).map (response.entries ++ ·)

/-- The entries which a query selects, newest first. -/
def selected (history : HumanHistory) (query : HumanCommandHistoryQuery) :
    List HumanCommandHistoryEntry :=
  history.data.entries.reverse.filter query.selects

theorem selects_limit (query : HumanCommandHistoryQuery) (limit : Option ℕ)
    (entry : HumanCommandHistoryEntry) :
    ({ query with limit := limit } : HumanCommandHistoryQuery).selects entry =
      query.selects entry :=
  rfl

theorem selected_decreasing {history : HumanHistory} (h : history.data.Consistent)
    (query : HumanCommandHistoryQuery) :
    (selected history query).Pairwise fun a b => b.revision < a.revision :=
  (List.pairwise_reverse.2 h.increasing).sublist List.filter_sublist

/-- The selection behind an entry of it. -/
theorem selects_before {query : HumanCommandHistoryQuery} {last : HumanCommandHistoryEntry}
    (hlast : query.selects last = true) (entry : HumanCommandHistoryEntry) :
    ({ query with beforeRevision := some last.revision } : HumanCommandHistoryQuery).selects entry =
      (query.selects entry && decide (entry.revision < last.revision)) := by
  unfold HumanCommandHistoryQuery.selects at hlast ⊢
  rw [Bool.and_eq_true, Bool.and_eq_true] at hlast
  by_cases hbefore : entry.revision < last.revision
  · have hinside : query.beforeRevision.all (entry.revision < ·) = true := by
      cases hlimit : query.beforeRevision with
      | none => rfl
      | some limit =>
          have hlimited := hlast.1.1
          rw [hlimit] at hlimited
          exact decide_eq_true (hbefore.trans (of_decide_eq_true hlimited))
    simp [hbefore, hinside]
  · simp [hbefore]

/-- Behind the last entry of a page the selection goes on. -/
theorem selected_before {history : HumanHistory} (h : history.data.Consistent)
    {query : HumanCommandHistoryQuery} {page rest : List HumanCommandHistoryEntry}
    {last : HumanCommandHistoryEntry} (hpage : selected history query = page ++ rest)
    (hlast : page.getLast? = some last) :
    selected history { query with beforeRevision := some last.revision } = rest := by
  have hdecreasing := selected_decreasing h query
  rw [hpage, List.pairwise_append] at hdecreasing
  obtain ⟨hfirst, -, hbehind⟩ := hdecreasing
  have hmem : last ∈ page := List.mem_of_getLast? hlast
  have hselected : query.selects last = true := by
    have hin : last ∈ selected history query := by
      rw [hpage]
      exact List.mem_append_left _ hmem
    exact (List.mem_filter.1 hin).2
  have hsplit : selected history { query with beforeRevision := some last.revision } =
      (selected history query).filter fun entry => entry.revision < last.revision := by
    unfold selected
    rw [List.filter_filter]
    apply List.filter_congr
    intro entry _
    rw [selects_before hselected, Bool.and_comm]
  have hnone : page.filter (fun entry => entry.revision < last.revision) = [] := by
    obtain ⟨before, rfl⟩ := List.getLast?_eq_some_iff.1 hlast
    rw [List.filter_eq_nil_iff]
    intro entry hentry
    rw [List.pairwise_append] at hfirst
    rcases List.mem_append.1 hentry with hearlier | hsame
    · have hlt := hfirst.2.2 entry hearlier last (List.mem_singleton_self last)
      simpa using hlt.le
    · rw [List.mem_singleton.1 hsame]
      simp
  have hall : rest.filter (fun entry => entry.revision < last.revision) = rest := by
    rw [List.filter_eq_self]
    exact fun entry hentry => decide_eq_true (hbehind last hmem entry hentry)
  rw [hsplit, hpage, List.filter_append, hnone, hall, List.nil_append]

/-- Following the pages brings the selection, and ends. -/
theorem followPages_eq {history : HumanHistory} (h : history.data.Consistent) (serverId : Uuid)
    (limits : ℕ → Option ℕ) (turns page : ℕ) (query : HumanCommandHistoryQuery)
    (hturns : (selected history query).length < turns) :
    followPages history serverId limits turns page query = some (selected history query) := by
  induction turns generalizing page query with
  | zero => omega
  | succ turns ih =>
      have hpositive : 0 < queryLimit (limits page) := Nat.lt_of_lt_of_le Nat.one_pos (le_max_left _ _)
      have hsplit := List.take_append_drop (queryLimit (limits page)) (selected history query)
      unfold followPages
      change (match ((selected history query).drop (queryLimit (limits page))).head?.bind fun _ =>
          ((selected history query).take (queryLimit (limits page))).getLast?.map
            HumanCommandHistoryEntry.revision with
        | none => some ((selected history query).take (queryLimit (limits page)))
        | some revision =>
            (followPages history serverId limits turns (page + 1)
              { query with beforeRevision := some revision }).map
                ((selected history query).take (queryLimit (limits page)) ++ ·)) = _
      cases hrest : (selected history query).drop (queryLimit (limits page)) with
      | nil =>
          rw [hrest, List.append_nil] at hsplit
          exact congrArg some hsplit
      | cons next rest =>
          have hlong := congrArg List.length hrest
          rw [List.length_drop, List.length_cons] at hlong
          obtain ⟨last, hlast⟩ :
              ∃ last, ((selected history query).take (queryLimit (limits page))).getLast? =
                some last := by
            rw [← Option.isSome_iff_exists, List.getLast?_isSome]
            intro hnil
            have hzero := congrArg List.length hnil
            rw [List.length_take, List.length_nil] at hzero
            omega
          have hnext := selected_before h hsplit.symm hlast
          rw [hlast]
          dsimp only [List.head?_cons, Option.bind_some, Option.map_some]
          rw [ih (page + 1) _ (by rw [hnext, List.length_drop]; omega), hnext]
          exact congrArg some hsplit

/-- What holds of the history after any calls: its entries are of different commands and in
order, count the uses of a stay and change only with a saved submission, and the pages of a
query bring every selected entry once, newest first. -/
theorem history_pages (calls : List (TimelineEvent × Option WriteFault)) :
    (fresh.recordEach calls).data.Consistent ∧
    (∀ entry ∈ (fresh.recordEach calls).data.entries,
      entry.uses = usesSince (calls.foldl recorded []) entry.command) ∧
    (∀ event fault submitted, submission event = some submitted →
      submitted.operationId ∈
        ((calls.foldl recorded []).take maxSeen).map Submission.operationId →
      (fresh.recordEach calls).record event fault = (.ok (), fresh.recordEach calls)) ∧
    (∀ event fault error, ((fresh.recordEach calls).record event fault).1 = .error error →
      ((fresh.recordEach calls).record event fault).2.data = (fresh.recordEach calls).data) ∧
    ∀ serverId limits query, ∃ turns, ∀ more,
      followPages (fresh.recordEach calls) serverId limits (turns + more) 0 query =
        some (selected (fresh.recordEach calls) query) := by
  obtain ⟨hdata, hroom⟩ := recordEach_data holds_fresh.data (Nat.zero_le _) calls
  have hconsistent : (fresh.recordEach calls).data.Consistent := by
    rw [hdata]
    exact content_consistent _
  refine ⟨hconsistent, ?_, ?_, ?_, ?_⟩
  · intro entry hentry
    rw [hdata] at hentry
    exact uses_eq hroom hentry
  · intro event fault submitted hevent hseen
    exact record_repeated hdata hevent hseen fault
  · intro event fault error hfailed
    exact record_failed hfailed
  · intro serverId limits query
    refine ⟨(selected (fresh.recordEach calls) query).length + 1, fun more => ?_⟩
    exact followPages_eq hconsistent serverId limits _ 0 query (by omega)

end HumanHistory

end SerialPlatform
