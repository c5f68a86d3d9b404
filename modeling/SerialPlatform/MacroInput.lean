import SerialPlatform.MacroEvidence
import SerialPlatform.Transducer

/-!
# Confirmation of a command in any batches

Reading a batch line by line is reading it byte by byte: strictly up to the line which
confirms the command, and as the watchers need it behind that line.
-/

namespace SerialPlatform.MacroRuntime

open Transducer

/-! ## Projection byte by byte -/

namespace Projection

/-- A result which keeps the projection of a failure with the failure. -/
def packed {α : Type} :
    Except MacroStop α × Projection → Except (MacroStop × Projection) (α × Projection)
  | (.error stop, p) => .error (stop, p)
  | (.ok value, p) => .ok (value, p)

/-- Strict projection of one byte. -/
def strictly (p : Projection) (byte : UInt8) :
    Except (MacroStop × Projection) (Bytes × Projection) := packed (p.feed [byte])

section

variable {p p' : Projection} {byte : UInt8} {bytes shown : Bytes}

theorem introducer_none (h : (p.introducer true byte).1 = none) :
    (p.introducer true byte).2.poisoned = p.poisoned := by
  unfold introducer refuse at *
  grind

theorem sequenceByte_none (h : (p.sequenceByte true byte).1 = none) :
    (p.sequenceByte true byte).2.poisoned = p.poisoned := by
  unfold sequenceByte at *
  split <;> simp_all [introducer_none, refuse] <;> grind

theorem lengthen_poisoned (h : ¬ 8192 < p.lengthen.escapeLen) :
    p.lengthen.poisoned = p.poisoned := by
  unfold lengthen at h ⊢
  dsimp only at h ⊢
  simp [h]

theorem escapeByte_none (h : (p.escapeByte true byte).1 = none) :
    (p.escapeByte true byte).2.poisoned = p.poisoned := by
  unfold escapeByte at h ⊢
  dsimp only at h ⊢
  split_ifs at h ⊢ with hlong hcancel hrestart
  all_goals have hlength := lengthen_poisoned fun hlt => hlong ⟨rfl, hlt⟩
  · exact hlength
  · exact hlength
  · exact (sequenceByte_none h).trans hlength

/-- Strict projection fails with the byte which poisons it. -/
theorem byte_unpoisoned (h : p.byte true byte = (.ok shown, p')) : p'.poisoned = p.poisoned := by
  unfold Projection.byte at h
  split_ifs at h
  · have hnone := @escapeByte_none p byte
    split at h
    · next hescape =>
        rw [hescape] at hnone
        cases h
        exact hnone rfl
    · cases h
  · unfold textByte at h
    grind

/-- Line ends alone show line ends. -/
theorem shown_of_byte (h : p.byte true byte = (.ok shown, p')) :
    shown = [] ∨ shown = [0x0a] ∧ (byte = 0x0d ∨ byte = 0x0a) ∨ shown = [byte] ∧ byte ≠ 0x0a := by
  unfold Projection.byte at h
  split_ifs at h
  · split at h
    · cases h
      exact .inl rfl
    · cases h
  · unfold textByte at h
    grind

theorem byte_of_strictly (h : p.strictly byte = .ok (shown, p')) :
    p.byte true byte = (.ok shown, p') := by
  unfold strictly feed feedInner at h
  split_ifs at h
  · cases h
  · unfold scan at h
    rcases hbyte : p.byte true byte with ⟨stop | first, p₁⟩
    · rw [hbyte] at h
      cases h
    · rw [hbyte] at h
      simpa [scan, packed] using h

/-- Strict projection goes on only where the projection is not poisoned. -/
theorem strictly_unpoisoned (h : p.strictly byte = .ok (shown, p')) : p'.poisoned = false := by
  rw [byte_unpoisoned (byte_of_strictly h)]
  unfold strictly feed feedInner at h
  split_ifs at h with hpoisoned
  · cases h
  · simpa using hpoisoned

theorem run_unpoisoned (hsome : bytes ≠ []) (h : run strictly p bytes = .ok (shown, p')) :
    p'.poisoned = false := by
  obtain ⟨before, last, rfl⟩ := List.eq_nil_or_concat bytes |>.resolve_left hsome
  rw [List.concat_eq_append, run_append] at h
  obtain ⟨result, -, h⟩ := Except.exists_of_bind_ok h
  rw [run_singleton] at h
  cases hlast : result.2.strictly last with
  | error failure =>
      rw [hlast] at h
      cases h
  | ok other =>
      rw [hlast] at h
      cases h
      exact strictly_unpoisoned hlast

theorem escapeByte_unobserved : (p.escapeByte false byte).1 = none := by
  unfold escapeByte sequenceByte introducer refuse
  grind

theorem byte_unobserved : ∃ shown p', p.byte false byte = (.ok shown, p') := by
  unfold Projection.byte
  split_ifs
  · have hnone := @escapeByte_unobserved p byte
    rcases hescape : p.escapeByte false byte with ⟨_ | stop, p'⟩
    · exact ⟨[], p', rfl⟩
    · rw [hescape] at hnone
      cases hnone
  · unfold textByte
    simp only [Bool.false_eq_true, if_false]
    split_ifs <;> exact ⟨_, _, rfl⟩

theorem scan_unobserved (p : Projection) (bytes : Bytes) :
    ∃ p', p.scan false bytes = (.ok [], p') := by
  induction bytes generalizing p with
  | nil => exact ⟨p, rfl⟩
  | cons first rest ih =>
      obtain ⟨shown, p₁, hfirst⟩ := @byte_unobserved p first
      obtain ⟨p', hrest⟩ := ih p₁
      exact ⟨p', by simp [scan, hfirst, hrest]⟩

theorem feedUnobserved_cons (p : Projection) (first : UInt8) (rest : Bytes) :
    p.feedUnobserved (first :: rest) = (p.feedUnobserved [first]).feedUnobserved rest := by
  obtain ⟨shown, p₁, hfirst⟩ := @byte_unobserved p first
  obtain ⟨p', hrest⟩ := p₁.scan_unobserved rest
  unfold feedUnobserved feedInner
  simp [scan, hfirst, hrest]

theorem packed_ok {α : Type} {value : α} {result : Except MacroStop α × Projection}
    (h : packed result = .ok (value, p)) : result = (.ok value, p) := by
  rcases result with ⟨stop | other, p'⟩
  · cases h
  · cases h
    rfl

/-- Strict projection goes byte by byte, where it has a byte to fail at. -/
theorem feed_eq_run (p : Projection) (bytes : Bytes) (h : bytes ≠ [] ∨ p.poisoned = false) :
    packed (p.feed bytes) = run strictly p bytes := by
  induction bytes generalizing p with
  | nil =>
      have hclean := h.resolve_left (fun hne => hne rfl)
      simp [feed, feedInner, hclean, packed, scan, run]
  | cons first rest ih =>
      by_cases hclean : p.poisoned = true
      · have hfails : ∀ bytes, p.feed bytes =
            (.error (failed "terminal framing became uncertain before macro observation"), p) :=
          fun bytes => if_pos ⟨rfl, hclean⟩
        rw [hfails, run_cons_error]
        · rfl
        · rw [strictly, hfails]
          rfl
      · have hfeed : ∀ bytes, p.feed bytes = p.scan true bytes :=
          fun bytes => if_neg fun hboth => hclean hboth.2
        rw [Bool.not_eq_true] at hclean
        rcases hbyte : p.byte true first with ⟨stop | shown, p'⟩
        · rw [hfeed, scan, hbyte, run_cons_error]
          · rfl
          · rw [strictly, hfeed, scan, hbyte]
            rfl
        · have hstep : strictly p first = .ok (shown, p') := by
            simp [strictly, hfeed, scan, hbyte, packed]
          have hclean' := (byte_unpoisoned hbyte).trans hclean
          have hrest := ih p' (.inr hclean')
          have hfeed' : p'.feed rest = p'.scan true rest :=
            if_neg fun hboth => by simp [hclean'] at hboth
          rw [hfeed'] at hrest
          rw [run_cons_ok hstep, ← hrest, hfeed, scan, hbyte]
          dsimp only
          rcases p'.scan true rest with ⟨stop | more, p''⟩ <;> rfl

end

end Projection

/-! ## Observation byte by byte -/

namespace InputCheck

/-- One byte of `observe`.  A failure keeps whether the command was confirmed, and the
projection. -/
def observeByte (watching : Bool) (state : InputCheck × Projection) (byte : UInt8) :
    Except (MacroStop × Bool × Projection) (Bytes × InputCheck × Projection) :=
  if state.1.matched ∧ watching = false then
    .ok ([], state.1, state.2.feedUnobserved [byte])
  else
    match state.2.strictly byte with
    | .error (stop, p) => .error (stop, state.1.matched, p)
    | .ok (shown, p) => .ok ((state.1.feed shown).1, (state.1.feed shown).2, p)

/-- How an observation ends. -/
def Observed.outcome (observed : Observed) :
    Except (MacroStop × Bool × Projection) (Bytes × InputCheck × Projection) :=
  match observed.result with
  | .error stop => .error (stop, observed.check.matched, observed.projection)
  | .ok shown => .ok (shown, observed.check, observed.projection)

section

variable {check : InputCheck} {p p' : Projection} {bytes shown visible : Bytes} {byte : UInt8}
  {watching : Bool}

theorem feed_append (check : InputCheck) (bytes more : Bytes) :
    check.feed (bytes ++ more) =
      ((check.feed bytes).1 ++ ((check.feed bytes).2.feed more).1,
        ((check.feed bytes).2.feed more).2) := by
  induction bytes generalizing check with
  | nil => rfl
  | cons byte rest ih => simp [feed, ih]

/-- A check which is confirmed passes on what it is fed. -/
theorem feed_matched (h : check.matched = true) (bytes : Bytes) :
    check.feed bytes = (bytes, check) := by
  induction bytes with
  | nil => rfl
  | cons byte rest ih =>
      have hbyte : check.feedByte byte = ([byte], check) := if_pos h
      simp [feed, hbyte, ih]

/-- Within a line nothing is confirmed or shown. -/
theorem feed_within (hwaits : check.matched = false) (hline : 0x0a ∉ bytes) :
    (check.feed bytes).1 = [] ∧ (check.feed bytes).2.matched = false := by
  induction bytes generalizing check with
  | nil => exact ⟨rfl, hwaits⟩
  | cons byte rest ih =>
      rw [List.mem_cons, not_or] at hline
      have hbyte : (check.feedByte byte).1 = [] ∧ (check.feedByte byte).2.matched = false := by
        unfold feedByte
        rw [if_neg (by simp [hwaits]), if_neg (Ne.symm hline.1)]
        split_ifs <;> exact ⟨rfl, hwaits⟩
      have hrest := ih hbyte.2 hline.2
      exact ⟨by simp [feed, hbyte.1, hrest.1], hrest.2⟩

/-- Up to a line end, projecting first and checking then is both byte by byte. -/
theorem run_piece (hwaits : check.matched = false) (hsome : bytes ≠ [])
    (hpiece : ∀ byte ∈ bytes.dropLast, byte ≠ 0x0d ∧ byte ≠ 0x0a) :
    run (observeByte watching) (check, p) bytes =
      match run Projection.strictly p bytes with
      | .error (stop, p) => .error (stop, false, p)
      | .ok (shown, p) => .ok ((check.feed shown).1, (check.feed shown).2, p) := by
  induction bytes generalizing check p with
  | nil => exact absurd rfl hsome
  | cons byte rest ih =>
      have hnot : ¬ (check.matched ∧ watching = false) := by simp [hwaits]
      cases hstep : p.strictly byte with
      | error failure =>
          rw [run_cons_error hstep]
          refine run_cons_error ?_
          rw [observeByte, if_neg hnot, hstep, hwaits]
      | ok result =>
          obtain ⟨shown, p₁⟩ := result
          have hobserve : observeByte watching (check, p) byte =
              .ok ((check.feed shown).1, (check.feed shown).2, p₁) := by
            rw [observeByte, if_neg hnot, hstep]
          rw [run_cons_ok hstep, run_cons_ok hobserve]
          cases rest with
          | nil => simp [run, Except.map]
          | cons second rest =>
              have hinside := hpiece byte (by simp)
              have hline : 0x0a ∉ shown := by
                rcases Projection.shown_of_byte (Projection.byte_of_strictly hstep) with
                  rfl | ⟨rfl, hends⟩ | ⟨rfl, hne⟩
                · exact List.not_mem_nil
                · exact absurd hends (not_or.2 hinside)
                · simpa using Ne.symm hne
              obtain ⟨hquiet, hstill⟩ := feed_within hwaits hline
              rw [ih hstill (List.cons_ne_nil _ _) fun other hother => hpiece other (by
                rw [List.dropLast_cons_cons]
                exact List.mem_cons_of_mem _ hother)]
              cases run Projection.strictly p₁ (second :: rest) with
              | error failure => rfl
              | ok result => simp [Except.map, feed_append, hquiet]

/-- Behind the confirmation nothing is projected strictly for the check. -/
theorem run_unwatched (hmatched : check.matched = true) (p : Projection) (bytes : Bytes) :
    run (observeByte false) (check, p) bytes = .ok ([], check, p.feedUnobserved bytes) := by
  induction bytes generalizing p with
  | nil => rfl
  | cons byte rest ih =>
      have hstep : observeByte false (check, p) byte = .ok ([], check, p.feedUnobserved [byte]) :=
        if_pos ⟨hmatched, rfl⟩
      rw [run_cons_ok hstep, ih, p.feedUnobserved_cons byte rest]
      rfl

/-- Behind the confirmation the watchers see what strict projection shows. -/
theorem run_watched (hmatched : check.matched = true) (p : Projection) (bytes : Bytes) :
    run (observeByte true) (check, p) bytes =
      match run Projection.strictly p bytes with
      | .error (stop, p) => .error (stop, true, p)
      | .ok (shown, p) => .ok (shown, check, p) := by
  induction bytes generalizing p with
  | nil => rfl
  | cons byte rest ih =>
      have hobserve : observeByte true (check, p) byte =
          match p.strictly byte with
          | .error (stop, p) => .error (stop, check.matched, p)
          | .ok (shown, p) => .ok ((check.feed shown).1, (check.feed shown).2, p) :=
        if_neg fun hboth => by simp at hboth
      cases hstep : p.strictly byte with
      | error failure =>
          rw [hstep, hmatched] at hobserve
          rw [run_cons_error hstep, run_cons_error hobserve]
      | ok result =>
          obtain ⟨shown, p₁⟩ := result
          simp only [hstep, feed_matched hmatched] at hobserve
          rw [run_cons_ok hstep, run_cons_ok hobserve, ih]
          cases run Projection.strictly p₁ rest <;> rfl

theorem observeRest_eq_run (hrest : bytes = [] ∨ check.matched = true)
    (hsome : bytes ≠ [] ∨ p.poisoned = false ∨ watching = false) :
    (observeRest watching check p visible bytes).outcome =
      (run (observeByte watching) (check, p) bytes).map
        fun result => (visible ++ result.1, result.2) := by
  cases watching with
  | false =>
      rcases hrest with rfl | hmatched
      · simp [observeRest, Observed.outcome, run, Except.map, Projection.feedUnobserved,
          Projection.feedInner, Projection.scan]
      · rw [run_unwatched hmatched]
        simp [observeRest, Observed.outcome, Except.map]
  | true =>
      have hfeed := p.feed_eq_run bytes (by simpa using hsome)
      have hrun : run (observeByte true) (check, p) bytes =
          match run Projection.strictly p bytes with
          | .error (stop, p) => .error (stop, check.matched, p)
          | .ok (shown, p) => .ok (shown, check, p) := by
        rcases hrest with rfl | hmatched
        · rfl
        · rw [run_watched hmatched, hmatched]
      rw [hrun, ← hfeed]
      rcases hresult : p.feed bytes with ⟨stop | shown, p'⟩ <;>
        simp [observeRest, hresult, Observed.outcome, Projection.packed, Except.map]

theorem lineEnd_spec (hsome : bytes ≠ []) :
    0 < lineEnd bytes ∧ lineEnd bytes ≤ bytes.length ∧
      ∀ byte ∈ (bytes.take (lineEnd bytes)).dropLast, byte ≠ 0x0d ∧ byte ≠ 0x0a := by
  have hlength := List.length_pos_iff.2 hsome
  unfold lineEnd
  split
  · next index hindex =>
      obtain ⟨hlt, -, hbefore⟩ := List.findIdx?_eq_some_iff_getElem.1 hindex
      refine ⟨by omega, hlt, ?_⟩
      intro byte hbyte
      rw [List.take_succ_eq_append_getElem hlt, List.dropLast_concat] at hbyte
      obtain ⟨place, hplace, rfl⟩ := List.mem_take_iff_getElem.1 hbyte
      have hnone := hbefore place (by omega)
      simpa [not_or] using hnone
  · next hnone =>
      refine ⟨hlength, le_refl _, ?_⟩
      intro byte hbyte
      rw [List.take_length] at hbyte
      have hnot := List.findIdx?_eq_none_iff.1 hnone byte (List.dropLast_subset _ hbyte)
      simpa [not_or] using hnot

theorem observeLines_eq_run {fuel : ℕ} (hfuel : bytes.length ≤ fuel)
    (hsome : bytes ≠ [] ∨ p.poisoned = false ∨ watching = false) :
    (observeLines watching fuel check p visible bytes).outcome =
      (run (observeByte watching) (check, p) bytes).map
        fun result => (visible ++ result.1, result.2) := by
  induction fuel generalizing check p visible bytes with
  | zero =>
      have hnil : bytes = [] := List.length_eq_zero_iff.1 (by omega)
      exact observeRest_eq_run (.inl hnil) hsome
  | succ fuel ih =>
      unfold observeLines
      by_cases hrest : bytes = [] ∨ check.matched = true
      · rw [if_pos hrest]
        exact observeRest_eq_run hrest hsome
      · rw [if_neg hrest]
        rw [not_or, Bool.not_eq_true] at hrest
        obtain ⟨hpos, hle, hpiece⟩ := lineEnd_spec hrest.1
        have hne : bytes.take (lineEnd bytes) ≠ [] := by
          rw [Ne, List.take_eq_nil_iff, not_or]
          exact ⟨by omega, hrest.1⟩
        have hfeed := p.feed_eq_run _ (.inl hne)
        have hrun := @run_piece check p _ watching hrest.2 hne hpiece
        rw [← hfeed] at hrun
        have hsplit := @run_append _ _ _ _ (observeByte watching) (bytes.take (lineEnd bytes))
          (bytes.drop (lineEnd bytes)) (check, p)
        rw [List.take_append_drop, hrun] at hsplit
        rw [hsplit]
        rcases hresult : p.feed (bytes.take (lineEnd bytes)) with ⟨stop | shown, p'⟩
        · simp [Observed.outcome, Projection.packed, Except.map, hrest.2]
          rfl
        · have hclean : p'.poisoned = false := by
            rw [hresult] at hfeed
            exact Projection.run_unpoisoned hne hfeed.symm
          rw [ih (by rw [List.length_drop]; omega) (.inr (.inl hclean))]
          simp only [Projection.packed, Except.ok_bind]
          cases run (observeByte watching) ((check.feed shown).2, p')
            (bytes.drop (lineEnd bytes)) <;> simp [Except.map]

/-! ## Batches -/

/-- What is known of a command when batches were observed. -/
structure Session where
  visible : Bytes
  failure : Option MacroStop
  check : InputCheck
  projection : Projection

inductive Verdict
  | waiting
  | matched
  | failed (stop : MacroStop)

def Session.verdict (session : Session) : Verdict :=
  match session.failure with
  | some stop => .failed stop
  | none => if session.check.matched then .matched else .waiting

/-- The batches one after the other, up to a failure. -/
def observeAll (watching : Bool) : InputCheck → Projection → List Bytes → Session
  | check, p, [] => ⟨[], none, check, p⟩
  | check, p, batch :: rest =>
      match (check.observe p batch watching).result with
      | .error stop =>
          ⟨[], some stop, (check.observe p batch watching).check,
            (check.observe p batch watching).projection⟩
      | .ok shown =>
          let later := observeAll watching (check.observe p batch watching).check
            (check.observe p batch watching).projection rest
          { later with visible := shown ++ later.visible }

/-- How the session ends, as byte by byte. -/
def Session.outcome (session : Session) :
    Except (MacroStop × Bool × Projection) (Bytes × InputCheck × Projection) :=
  match session.failure with
  | some stop => .error (stop, session.check.matched, session.projection)
  | none => .ok (session.visible, session.check, session.projection)

theorem outcome_observeAll (watching : Bool) (check : InputCheck) (p : Projection)
    (batches : List Bytes) (hsome : ∀ batch ∈ batches, batch ≠ []) :
    (observeAll watching check p batches).outcome =
        run (observeByte watching) (check, p) batches.flatten ∧
      ∃ read state, read <+: batches.flatten ∧ run (observeByte watching) (check, p) read =
        .ok ((observeAll watching check p batches).visible, state) := by
  induction batches generalizing check p with
  | nil => exact ⟨rfl, [], _, List.nil_prefix, rfl⟩
  | cons batch rest ih =>
      have hbatch := @observeLines_eq_run check p batch [] watching _ (le_refl batch.length)
        (.inl (hsome batch List.mem_cons_self) : batch ≠ [] ∨ p.poisoned = false ∨ watching = false)
      have hrun : (check.observe p batch watching).outcome =
          run (observeByte watching) (check, p) batch := by
        rw [observe, hbatch]
        cases run (observeByte watching) (check, p) batch <;> rfl
      rw [List.flatten_cons]
      unfold observeAll
      cases hresult : (check.observe p batch watching).result with
      | error stop =>
          simp only [Observed.outcome, hresult] at hrun
          exact ⟨(run_append_error hrun.symm).symm, [], _, List.nil_prefix, rfl⟩
      | ok shown =>
          simp only [Observed.outcome, hresult] at hrun
          obtain ⟨houtcome, read, state, hread, hshown⟩ :=
            ih (check.observe p batch watching).check (check.observe p batch watching).projection
              fun other hother => hsome other (List.mem_cons_of_mem _ hother)
          refine ⟨?_, batch ++ read, state, (List.prefix_append_right_inj _).2 hread, ?_⟩
          · rw [run_append_ok hrun.symm, ← houtcome]
            dsimp only
            unfold Session.outcome
            dsimp only
            split <;> rfl
          · rw [run_append_ok hrun.symm, hshown]
            rfl

/-! ## The line which confirms -/

/-- The text ends with a line end, or is empty. -/
def EndsLine (text : Bytes) : Prop := ∀ last, text.getLast? = some last → last = 0x0a

/-- The strict projection of the stream ends with a complete line which confirms. -/
def Confirms (fresh : InputCheck) (start : Projection) (stream : Bytes) (p : Projection) : Prop :=
  ∃ text line, run Projection.strictly start stream = .ok (text ++ line ++ [0x0a], p) ∧
    EndsLine text ∧ 0x0a ∉ line ∧ fresh.Confirmed line

/-- The check has read the projected stream, up to its last line, and still waits. -/
structure Waits (fresh : InputCheck) (start : Projection) (stream : Bytes) (check : InputCheck)
    (p : Projection) : Prop where
  waits : check.matched = false
  expected : check.expected = fresh.expected
  prompts : check.prompts = fresh.prompts
  line : ∃ text line, run Projection.strictly start stream = .ok (text ++ line, p) ∧
    EndsLine text ∧ 0x0a ∉ line ∧ (check.overlong = false → check.line = line)

variable {fresh : InputCheck} {start : Projection} {stream : Bytes}

theorem Waits.confirmed_iff (h : Waits fresh start stream check p) (line : Bytes) :
    check.Confirmed line ↔ fresh.Confirmed line := by
  unfold Confirmed
  rw [h.expected, h.prompts]

/-- A byte which is taken in leaves the check waiting, or completes a line which confirms. -/
theorem Waits.step (h : Waits fresh start stream check p)
    (hstep : p.strictly byte = .ok (shown, p')) :
    (check.feed shown).1 = [] ∧
      (Waits fresh start (stream ++ [byte]) (check.feed shown).2 p' ∨
        (check.feed shown).2.matched = true ∧ Confirms fresh start (stream ++ [byte]) p') := by
  obtain ⟨text, line, hrun, htext, hline, hsame⟩ := h.line
  have hnext : run Projection.strictly start (stream ++ [byte]) =
      .ok (text ++ line ++ shown, p') := by
    rw [run_append_ok hrun, run_singleton, hstep]
    rfl
  have hunmatched : ¬ check.matched = true := by simp [h.waits]
  have hone : ∀ next, (check.feed [next]) =
      ((check.feedByte next).1, (check.feedByte next).2) := by simp [feed]
  -- a byte of text goes on with the line
  have htaken : ∀ next, next ≠ 0x0a → shown = [next] → (check.feed shown).1 = [] ∧
      Waits fresh start (stream ++ [byte]) (check.feed shown).2 p' := by
    rintro next hnext' rfl
    rw [hone]
    unfold feedByte
    rw [if_neg hunmatched, if_neg hnext']
    split_ifs
    · refine ⟨rfl, h.waits, h.expected, h.prompts, text, line ++ [next], ?_, htext, ?_, ?_⟩
      · rw [hnext, List.append_assoc]
      · simp [hline, Ne.symm hnext']
      · intro hshort
        rw [hsame hshort]
    · exact ⟨rfl, h.waits, h.expected, h.prompts, text, line ++ [next], by
        rw [hnext, List.append_assoc], htext, by simp [hline, Ne.symm hnext'],
        fun hshort => by cases hshort⟩
  rcases Projection.shown_of_byte (Projection.byte_of_strictly hstep) with
    rfl | ⟨rfl, -⟩ | ⟨rfl, hne⟩
  · refine ⟨rfl, .inl ⟨h.waits, h.expected, h.prompts, text, line, ?_, htext, hline, hsame⟩⟩
    rw [hnext, List.append_nil]
  · rw [hone]
    unfold feedByte
    rw [if_neg hunmatched, if_pos rfl]
    refine ⟨rfl, ?_⟩
    by_cases hconfirms : check.overlong = false ∧ check.Confirmed check.line
    · right
      have hconfirmed := hconfirms.2
      rw [hsame hconfirms.1] at hconfirmed
      refine ⟨?_, text, line, hnext, htext, hline, (h.confirmed_iff line).1 hconfirmed⟩
      simp [finishLine, hconfirms.1, hconfirms.2]
    · left
      have hwaits : check.finishLine.matched = false := by
        unfold finishLine
        cases hoverlong : check.overlong with
        | false => simpa [hoverlong] using hconfirms
        | true => simpa using h.waits
      refine ⟨hwaits, h.expected, h.prompts, text ++ line ++ [0x0a], [], ?_, ?_,
        List.not_mem_nil, fun _ => rfl⟩
      · rw [hnext, List.append_nil]
      · intro last hlast
        rw [List.getLast?_concat] at hlast
        exact (Option.some.inj hlast).symm
  · exact ⟨(htaken byte hne rfl).1, .inl (htaken byte hne rfl).2⟩

/-- How a run goes from a waiting check: it waits on, it fails, or some byte confirms. -/
theorem Waits.run (h : Waits fresh start stream check p) (rest : Bytes) :
    (∃ check' p', run (observeByte watching) (check, p) rest = .ok ([], check', p') ∧
      Waits fresh start (stream ++ rest) check' p') ∨
    (∃ stop p', run (observeByte watching) (check, p) rest = .error (stop, false, p')) ∨
    ∃ before last after check₁ p₁ check₂ p₂, rest = before ++ last :: after ∧
      run (observeByte watching) (check, p) before = .ok ([], check₁, p₁) ∧
      check₁.matched = false ∧
      run (observeByte watching) (check, p) (before ++ [last]) = .ok ([], check₂, p₂) ∧
      check₂.matched = true ∧ Confirms fresh start (stream ++ (before ++ [last])) p₂ := by
  induction rest generalizing stream check p with
  | nil => exact .inl ⟨check, p, rfl, by rwa [List.append_nil]⟩
  | cons byte rest ih =>
      have hnot : ¬ (check.matched = true ∧ watching = false) := by simp [h.waits]
      cases hstep : p.strictly byte with
      | error failure =>
          right
          left
          refine ⟨failure.1, failure.2, run_cons_error ?_⟩
          rw [observeByte, if_neg hnot, hstep, h.waits]
      | ok result =>
          obtain ⟨shown, p₁⟩ := result
          obtain ⟨hquiet, hnext⟩ := h.step hstep
          have hobserve : observeByte watching (check, p) byte =
              .ok ([], (check.feed shown).2, p₁) := by
            rw [observeByte, if_neg hnot, hstep]
            simp only [hquiet]
          rcases hnext with hwaits | ⟨hmatched, hconfirms⟩
          · rcases ih hwaits with ⟨check', p', hrun, hend⟩ | ⟨stop, p', hrun⟩ |
              ⟨before, last, after, check₁, p₁', check₂, p₂, rfl, hbefore, hwaits₁, hlast,
                hmatched, hconfirms⟩
            · refine .inl ⟨check', p', ?_, ?_⟩
              · rw [run_cons_ok hobserve, hrun]
                rfl
              · rwa [List.append_assoc] at hend
            · refine .inr (.inl ⟨stop, p', ?_⟩)
              rw [run_cons_ok hobserve, hrun]
              rfl
            · refine .inr (.inr ⟨byte :: before, last, after, check₁, p₁', check₂, p₂, rfl, ?_,
                hwaits₁, ?_, hmatched, ?_⟩)
              · rw [run_cons_ok hobserve, hbefore]
                rfl
              · rw [List.cons_append, run_cons_ok hobserve, hlast]
                rfl
              · rwa [List.append_assoc] at hconfirms
          · refine .inr (.inr ⟨[], byte, rest, check, p, (check.feed shown).2, p₁, rfl, rfl,
              h.waits, ?_, hmatched, hconfirms⟩)
            rw [List.nil_append, run_singleton, hobserve]

theorem waits_new (command : String) (prompts : List String) (start : Projection) :
    Waits (new command prompts) start [] (new command prompts) start :=
  ⟨rfl, rfl, rfl, [], [], rfl, fun last hlast => (by cases hlast), List.not_mem_nil, fun _ => rfl⟩

/-- A run from a confirmed check keeps it, and shows strict projection to the watchers only. -/
theorem run_matched (hmatched : check.matched = true) (bytes : Bytes) :
    (∃ stop p', run (observeByte watching) (check, p) bytes = .error (stop, true, p')) ∨
    ∃ shown p', run (observeByte watching) (check, p) bytes = .ok (shown, check, p') ∧
      (watching = false → shown = []) ∧
      (watching = true → run Projection.strictly p bytes = .ok (shown, p')) := by
  cases watching with
  | false =>
      exact .inr ⟨[], _, run_unwatched hmatched p bytes, fun _ => rfl, fun h => (by cases h)⟩
  | true =>
      rw [run_watched hmatched p bytes]
      cases run Projection.strictly p bytes with
      | error failure => exact .inl ⟨failure.1, failure.2, rfl⟩
      | ok result => exact .inr ⟨result.1, result.2, rfl, fun h => (by cases h), fun _ => rfl⟩

theorem Session.matched_of_outcome {session : Session} :
    (∀ {stop matched p}, session.outcome = .error (stop, matched, p) →
      session.check.matched = matched) ∧
    ∀ {shown check p}, session.outcome = .ok (shown, check, p) → session.check = check := by
  unfold Session.outcome
  cases session.failure with
  | none => exact ⟨fun h => (by cases h), fun h => (by cases h; rfl)⟩
  | some stop => exact ⟨fun h => (by cases h; rfl), fun h => (by cases h)⟩

/-- Sessions with one outcome differ in what was visible before a failure only. -/
theorem Session.same_of_outcome {session session' : Session}
    (h : session.outcome = session'.outcome) :
    session.verdict = session'.verdict ∧ session.projection = session'.projection ∧
      (session.failure = none → session.visible = session'.visible) := by
  unfold Session.outcome at h
  unfold Session.verdict
  cases hfailure : session.failure with
  | none =>
      cases hfailure' : session'.failure with
      | none =>
          rw [hfailure, hfailure'] at h
          injection h with h
          simp only [Prod.mk.injEq] at h
          simp [h]
      | some stop' =>
          rw [hfailure, hfailure'] at h
          cases h
  | some stop =>
      cases hfailure' : session'.failure with
      | none =>
          rw [hfailure, hfailure'] at h
          cases h
      | some stop' =>
          rw [hfailure, hfailure'] at h
          injection h with h
          simp only [Prod.mk.injEq] at h
          simp [h]

/-- How a session with a fresh check ends: the command is not confirmed and nothing is
visible, or some byte of the stream confirms it. -/
theorem session_cases (command : String) (prompts : List String) (start : Projection)
    (watching : Bool) (batches : List Bytes) (hsome : ∀ batch ∈ batches, batch ≠ []) :
    let session := observeAll watching (new command prompts) start batches
    (session.check.matched = false ∧ session.visible = []) ∨
    session.check.matched = true ∧ ∃ before last after check₁ p₁ p₂,
      batches.flatten = before ++ last :: after ∧
      run (observeByte watching) (new command prompts, start) before = .ok ([], check₁, p₁) ∧
      check₁.matched = false ∧ Confirms (new command prompts) start (before ++ [last]) p₂ ∧
      (watching = false → session.visible = []) ∧
      (watching = true → ∃ read p₃, read <+: after ∧
        run Projection.strictly p₂ read = .ok (session.visible, p₃)) := by
  intro session
  obtain ⟨houtcome, read, state, ⟨unread, hread⟩, hshown⟩ :=
    outcome_observeAll watching (new command prompts) start batches hsome
  have hfresh := waits_new command prompts start
  rcases @Waits.run _ _ watching _ _ _ hfresh read with ⟨check', p', hrun, hwaits⟩ |
    ⟨stop, p', hrun⟩ | ⟨before, last, after, check₁, p₁, check₂, p₂, rfl, hbefore, hwaits₁,
      hlast, hmatched, hconfirms⟩
  · -- the check waits behind what was read
    have hnone : session.visible = [] := by
      rw [hshown] at hrun
      exact congrArg Prod.fst (Except.ok.inj hrun)
    rcases @Waits.run _ _ watching _ _ _ hfresh batches.flatten with ⟨check', p', hrun, hwaits⟩ |
      ⟨stop, p', hrun⟩ | ⟨before, last, after, check₁, p₁, check₂, p₂, hsplit, hbefore, hwaits₁,
        hlast, hmatched, hconfirms⟩
    · left
      rw [hrun] at houtcome
      exact ⟨by rw [Session.matched_of_outcome.2 houtcome]; exact hwaits.waits, hnone⟩
    · left
      rw [hrun] at houtcome
      exact ⟨Session.matched_of_outcome.1 houtcome, hnone⟩
    · right
      rw [List.nil_append] at hconfirms
      refine ⟨?_, before, last, after, check₁, p₁, p₂, hsplit, hbefore, hwaits₁, hconfirms,
        fun _ => hnone, fun _ => ⟨[], p₂, List.nil_prefix, by rw [hnone]; rfl⟩⟩
      have hwhole := hsplit
      rw [← List.singleton_append, ← List.append_assoc] at hwhole
      rw [hwhole, run_append_ok hlast] at houtcome
      rcases @run_matched _ p₂ watching hmatched after with
        ⟨stop, p', hrun⟩ | ⟨shown, p', hrun, -⟩
      · rw [hrun] at houtcome
        exact Session.matched_of_outcome.1 houtcome
      · rw [hrun] at houtcome
        rw [Session.matched_of_outcome.2 houtcome]
        exact hmatched
  · rw [hrun] at hshown
    cases hshown
  · -- a byte which was read confirms
    right
    rw [List.nil_append] at hconfirms
    have hread' : before ++ last :: after = (before ++ [last]) ++ after := by simp
    have hwhole : batches.flatten = (before ++ [last]) ++ (after ++ unread) := by
      rw [← hread]
      simp
    rw [hread', run_append_ok hlast] at hshown
    rw [hwhole, run_append_ok hlast] at houtcome
    refine ⟨?_, before, last, after ++ unread, check₁, p₁, p₂, by rw [hwhole]; simp, hbefore,
      hwaits₁, hconfirms, ?_⟩
    · rcases @run_matched _ p₂ watching hmatched (after ++ unread) with
        ⟨stop, p', hrun⟩ | ⟨shown, p', hrun, -⟩
      · rw [hrun] at houtcome
        exact Session.matched_of_outcome.1 houtcome
      · rw [hrun] at houtcome
        rw [Session.matched_of_outcome.2 houtcome]
        exact hmatched
    · rcases @run_matched _ p₂ watching hmatched after with
        ⟨stop, p', hrun⟩ | ⟨shown, p', hrun, hquiet, hstrict⟩
      · rw [hrun] at hshown
        cases hshown
      · rw [hrun] at hshown
        have hvisible : shown = session.visible := congrArg Prod.fst (Except.ok.inj hshown)
        rw [← hvisible]
        exact ⟨hquiet, fun hwatching =>
          ⟨after, p', List.prefix_append _ _, hstrict hwatching⟩⟩

/-- However a stream is cut into batches, the verdict and the projection are the same, and
what is visible where nothing fails.  The command is confirmed by the end of a line which is
the command, or a prompt and the command, and before it nothing is visible. -/
theorem input_check_exact (command : String) (prompts : List String) (start : Projection)
    (watching : Bool) :
    (∀ batches batches' : List Bytes, (∀ batch ∈ batches, batch ≠ []) →
      (∀ batch ∈ batches', batch ≠ []) → batches.flatten = batches'.flatten →
      let session := observeAll watching (new command prompts) start batches
      let session' := observeAll watching (new command prompts) start batches'
      session.verdict = session'.verdict ∧ session.projection = session'.projection ∧
      (session.failure = none → session.visible = session'.visible) ∧
      (session.visible <+: session'.visible ∨ session'.visible <+: session.visible)) ∧
    ∀ batches : List Bytes, (∀ batch ∈ batches, batch ≠ []) →
      let session := observeAll watching (new command prompts) start batches
      (session.check.matched = false → session.visible = []) ∧
      (session.check.matched = true → ∃ before last after text line behind,
        batches.flatten = before ++ last :: after ∧
        start.feed (before ++ [last]) = (.ok (text ++ line ++ [0x0a]), behind) ∧
        EndsLine text ∧ 0x0a ∉ line ∧
        (line = command.toUTF8.data.toList ∨ ∃ prompt ∈ prompts, prompt.isEmpty = false ∧
          line = prompt.toUTF8.data.toList ++ command.toUTF8.data.toList) ∧
        (∀ earlier : List Bytes, (∀ batch ∈ earlier, batch ≠ []) → earlier.flatten = before →
          (observeAll watching (new command prompts) start earlier).verdict = .waiting) ∧
        (watching = false → session.visible = []) ∧
        (watching = true → ∃ read after', read <+: after ∧
          behind.feed read = (.ok session.visible, after'))) := by
  refine ⟨fun batches batches' hsome hsome' hsame => ?_, fun batches hsome => ?_⟩
  · obtain ⟨houtcome, read, state, hread, hshown⟩ :=
      outcome_observeAll watching (new command prompts) start batches hsome
    obtain ⟨houtcome', read', state', hread', hshown'⟩ :=
      outcome_observeAll watching (new command prompts) start batches' hsome'
    rw [← hsame] at houtcome' hread'
    obtain ⟨hverdict, hprojection, hvisible⟩ :=
      Session.same_of_outcome (houtcome.trans houtcome'.symm)
    exact ⟨hverdict, hprojection, hvisible, shown_comparable hread hread' hshown hshown'⟩
  · intro session
    rcases session_cases command prompts start watching batches hsome with
      ⟨hwaits, hquiet⟩ | ⟨hmatched, before, last, after, check₁, p₁, behind, hsplit, hbefore,
        hwaits₁, ⟨text, line, hrun, htext, hline, hconfirmed⟩, hquiet, hstrict⟩
    · exact ⟨fun _ => hquiet, fun hmatched => absurd hmatched (by simp [session, hwaits])⟩
    · have hne : before ++ [last] ≠ [] := by simp
      refine ⟨fun hwaits => absurd hmatched (by simp [session, hwaits]), fun _ => ⟨before, last,
        after, text, line, behind, hsplit, ?_, htext, hline, ?_, ?_, hquiet, ?_⟩⟩
      · rw [← start.feed_eq_run _ (.inl hne)] at hrun
        exact Projection.packed_ok hrun
      · rcases hconfirmed with hwhole | ⟨_, hprompt, hwhole⟩
        · exact .inl hwhole
        · obtain ⟨prompt, hmem, rfl⟩ := List.mem_map.1 hprompt
          rw [List.mem_filter] at hmem
          exact .inr ⟨prompt, hmem.1, by simpa using hmem.2, hwhole⟩
      · intro earlier hearlier hflatten
        have hend := (outcome_observeAll watching (new command prompts) start earlier hearlier).1
        rw [hflatten, hbefore] at hend
        have hcheck := Session.matched_of_outcome.2 hend
        unfold Session.verdict
        unfold Session.outcome at hend
        split at hend
        · cases hend
        · rw [hcheck, hwaits₁]
          rfl
      · intro hwatching
        obtain ⟨read, after', hread, hshown⟩ := hstrict hwatching
        rw [← behind.feed_eq_run read (.inr (Projection.run_unpoisoned hne hrun))] at hshown
        exact ⟨read, after', hread, Projection.packed_ok hshown⟩

/-- What was visible before a failure depends on the batches. -/
theorem failure_hides_batch :
    ¬ ∀ (command : String) (prompts : List String) (start : Projection) (watching : Bool)
      (batches batches' : List Bytes), (∀ batch ∈ batches, batch ≠ []) →
      (∀ batch ∈ batches', batch ≠ []) → batches.flatten = batches'.flatten →
      (observeAll watching (new command prompts) start batches).visible =
        (observeAll watching (new command prompts) start batches').visible := by
  intro hall
  have hsame := hall "a" [] {} true [[0x61, 0x0a, 0x62, 0x08]] [[0x61, 0x0a, 0x62], [0x08]]
    (by decide) (by decide) (by decide)
  exact absurd hsame (by decide)

end

end InputCheck

end SerialPlatform.MacroRuntime
