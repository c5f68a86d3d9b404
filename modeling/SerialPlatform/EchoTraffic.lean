import SerialPlatform.TerminalStream

/-!
# The traffic of a terminal

The bytes which a parser feeds to its terminal come from the device, from the writes which
it shows itself, or end a row in between.  Feeding leaves the echo reconciliation as it is.
-/

namespace SerialPlatform.Display

open FallibleState

inductive Origin
  | device
  | writer
  | rowEnd
  deriving DecidableEq

/-- Bytes fed to the terminal, in order. -/
abbrev Traffic := List (Origin × UInt8)

namespace Traffic

/-- The bytes of one origin. -/
def of (origin : Origin) (traffic : Traffic) : Bytes :=
  (traffic.filter (fun entry => entry.1 = origin)).map Prod.snd

/-- Bytes which all have one origin. -/
def all (origin : Origin) (bytes : Bytes) : Traffic := bytes.map (fun byte => (origin, byte))

@[simp] theorem all_nil (origin : Origin) : all origin [] = [] := rfl

@[simp] theorem all_append (origin : Origin) (first second : Bytes) :
    all origin (first ++ second) = all origin first ++ all origin second := List.map_append

@[simp] theorem of_append (origin : Origin) (first second : Traffic) :
    of origin (first ++ second) = of origin first ++ of origin second := by
  simp [of]

@[simp] theorem of_nil (origin : Origin) : of origin [] = [] := rfl

@[simp] theorem of_all (origin : Origin) (bytes : Bytes) : of origin (all origin bytes) = bytes := by
  induction bytes with
  | nil => rfl
  | cons byte rest ih =>
      simp only [of, all, List.map_cons] at ih ⊢
      rw [List.filter_cons_of_pos (by simp), List.map_cons, ih]

theorem of_all_ne {origin other : Origin} (h : other ≠ origin) (bytes : Bytes) :
    of origin (all other bytes) = [] := by
  have hfilter : (all other bytes).filter (fun entry => entry.1 = origin) = [] := by
    rw [List.filter_eq_nil_iff]
    intro entry hmem
    obtain ⟨byte, -, rfl⟩ := List.mem_map.mp hmem
    simpa using h
  rw [of, hfilter]
  rfl

end Traffic

namespace TerminalStreamParser

/-- The bytes fed meanwhile are this traffic, with row ends between them. -/
structure Feeds (traffic : Traffic) (parser parser' : TerminalStreamParser) : Prop where
  log : ∃ log : Traffic, parser'.fed.map Prod.snd = parser.fed.map Prod.snd ++ log.map Prod.snd ∧
    log.filter (fun entry => entry.1 ≠ .rowEnd) = traffic ∧
    ∀ entry ∈ log, entry.1 = .rowEnd → entry.2 = 0x0a

theorem Feeds.append {traffic traffic' : Traffic} {parser parser' parser'' : TerminalStreamParser}
    (h : Feeds traffic parser parser') (h' : Feeds traffic' parser' parser'') :
    Feeds (traffic ++ traffic') parser parser'' := by
  obtain ⟨log, hfed, hlog, hends⟩ := h.log
  obtain ⟨log', hfed', hlog', hends'⟩ := h'.log
  refine ⟨log ++ log', ?_, ?_, ?_⟩
  · rw [hfed', hfed, List.map_append, List.append_assoc]
  · rw [List.filter_append, hlog, hlog']
  · intro entry hmem
    rcases List.mem_append.mp hmem with hmem | hmem
    · exact hends entry hmem
    · exact hends' entry hmem

theorem Feeds.none {parser parser' : TerminalStreamParser} (h : parser'.fed = parser.fed) :
    Feeds [] parser parser' :=
  ⟨[], by simp [h], rfl, by simp⟩

/-- What the echo reconciliation knows, before and behind. -/
structure SameEcho (parser parser' : TerminalStreamParser) : Prop where
  reconcileEcho : parser'.reconcileEcho = parser.reconcileEcho
  expectedEchoes : parser'.expectedEchoes = parser.expectedEchoes
  expectedEchoBytes : parser'.expectedEchoBytes = parser.expectedEchoBytes
  echoCandidate : parser'.echoCandidate = parser.echoCandidate
  abandonedRx : parser'.abandonedRx = parser.abandonedRx
  swallowOptionalEchoLf : parser'.swallowOptionalEchoLf = parser.swallowOptionalEchoLf
  context : parser.context.isSome = true → parser'.context.isSome = true

theorem SameEcho.trans {parser parser' parser'' : TerminalStreamParser}
    (h : SameEcho parser parser') (h' : SameEcho parser' parser'') : SameEcho parser parser'' where
  reconcileEcho := h'.reconcileEcho.trans h.reconcileEcho
  expectedEchoes := h'.expectedEchoes.trans h.expectedEchoes
  expectedEchoBytes := h'.expectedEchoBytes.trans h.expectedEchoBytes
  echoCandidate := h'.echoCandidate.trans h.echoCandidate
  abandonedRx := h'.abandonedRx.trans h.abandonedRx
  swallowOptionalEchoLf := h'.swallowOptionalEchoLf.trans h.swallowOptionalEchoLf
  context := fun hsome => h'.context (h.context hsome)

/-- The act feeds this traffic and does nothing to the reconciliation. -/
def Hands {α : Type} (traffic : Traffic) (act : Act α) : Prop :=
  ∀ parser, Ends act parser
    (fun _ parser' => Feeds traffic parser parser' ∧ SameEcho parser parser') (fun _ _ => True)

namespace Hands

variable {α β : Type} {traffic traffic' : Traffic} {act act' : Act α}

theorem of_pure (a : α) : Hands [] (pure a : Act α) :=
  fun _ => ⟨.none rfl, ⟨rfl, rfl, rfl, rfl, rfl, rfl, id⟩⟩

theorem of_get : Hands [] (get : Act TerminalStreamParser) :=
  fun _ => ⟨.none rfl, ⟨rfl, rfl, rfl, rfl, rfl, rfl, id⟩⟩

theorem of_modify {f : TerminalStreamParser → TerminalStreamParser}
    (hecho : ∀ parser, SameEcho parser (f parser)) (hfed : ∀ parser, (f parser).fed = parser.fed) :
    Hands [] (modify f : Act PUnit) :=
  fun parser => ⟨.none (hfed parser), hecho parser⟩

theorem of_bind {f : α → Act β} (hact : Hands traffic act) (hf : ∀ a, Hands traffic' (f a)) :
    Hands (traffic ++ traffic') (act >>= f) := by
  intro parser
  refine (hact parser).bind (fun a parser' h => ?_) (fun _ _ _ => trivial)
  refine (hf a parser').mono (fun _ parser'' h' => ?_) (fun _ _ _ => trivial)
  exact ⟨h.1.append h'.1, h.2.trans h'.2⟩

/-- In front of an act which feeds. -/
theorem then_bind {f : α → Act β} (hact : Hands [] act) (hf : ∀ a, Hands traffic (f a)) :
    Hands traffic (act >>= f) :=
  of_bind hact hf

/-- Behind an act which feeds. -/
theorem bind_then {f : α → Act β} (hact : Hands traffic act) (hf : ∀ a, Hands [] (f a)) :
    Hands traffic (act >>= f) := by
  have hboth := of_bind hact hf
  rw [List.append_nil] at hboth
  exact hboth

theorem of_ite {c : Prop} [Decidable c] (h : Hands traffic act) (h' : Hands traffic act') :
    Hands traffic (if c then act else act') := by
  by_cases hc : c
  · rw [if_pos hc]
    exact h
  · rw [if_neg hc]
    exact h'

end Hands

section
variable {turns : ℕ} {incoming : LineContext}

/-- A byte which the terminal consumes. -/
theorem ends_consumeByte_fed (byte : UInt8) (parser : TerminalStreamParser) :
    Ends (consumeByte turns byte) parser
      (fun _ parser' => parser'.fed.map Prod.snd = parser.fed.map Prod.snd ++ [byte] ∧
        SameEcho parser parser')
      (fun _ _ => True) := by
  unfold consumeByte
  simp only [ends_bind, ends_get, ends_modify]
  cases TerminalText.consume byte { parser.terminal with rows := [] } turns with
  | none => trivial
  | some terminal =>
      simp only [ends_bind, ends_modify, ends_pure]
      exact ⟨by simp, ⟨rfl, rfl, rfl, rfl, rfl, rfl, id⟩⟩

theorem hands_consumeByte {origin : Origin} (horigin : origin ≠ .rowEnd) (byte : UInt8) :
    Hands [(origin, byte)] (consumeByte turns byte) := by
  intro parser
  refine (ends_consumeByte_fed byte parser).mono (fun _ parser' h => ⟨?_, h.2⟩) (fun _ _ _ => trivial)
  refine ⟨[(origin, byte)], h.1, by simp [horigin], ?_⟩
  intro entry hmem hend
  rw [List.mem_singleton.mp hmem] at hend
  exact absurd hend horigin

theorem hands_rowEnd : Hands [] (consumeByte turns 0x0a) := by
  intro parser
  refine (ends_consumeByte_fed 0x0a parser).mono (fun _ parser' h => ⟨?_, h.2⟩) (fun _ _ _ => trivial)
  refine ⟨[(.rowEnd, 0x0a)], h.1, by simp, ?_⟩
  intro entry hmem _
  rw [List.mem_singleton.mp hmem]

theorem hands_finishRows : Hands [] (finishRows turns) := by
  intro parser
  unfold finishRows
  simp only [ends_bind, ends_get]
  cases TerminalText.finishInput { parser.terminal with rows := [] } turns with
  | none => trivial
  | some terminal =>
      simp only [ends_bind, ends_modify, ends_pure]
      exact ⟨.none rfl, ⟨rfl, rfl, rfl, rfl, rfl, rfl, id⟩⟩

theorem hands_showRows (rows : List ProjectedRow) : Hands [] (showRows incoming rows) :=
  .then_bind .of_get fun _ =>
    .then_bind (.of_modify (fun _ => ⟨rfl, rfl, rfl, rfl, rfl, rfl, fun _ => rfl⟩) (fun _ => rfl))
      fun _ => .of_pure _

theorem hands_commitPendingRow : Hands [] (commitPendingRow turns incoming) :=
  .then_bind (.of_modify (fun _ => ⟨rfl, rfl, rfl, rfl, rfl, rfl, id⟩) (fun _ => rfl)) fun _ =>
    .then_bind hands_rowEnd fun rows => hands_showRows rows

theorem hands_feedVisibleByte {origin : Origin} (horigin : origin ≠ .rowEnd) (byte : UInt8) :
    Hands [(origin, byte)] (feedVisibleByte turns incoming byte) := by
  unfold feedVisibleByte
  apply Hands.then_bind .of_get
  intro parser
  apply Hands.then_bind (.of_ite hands_commitPendingRow (.of_pure _))
  intro committed
  apply Hands.bind_then (hands_consumeByte horigin byte)
  intro rows
  refine Hands.then_bind (.of_modify (fun _ => ⟨rfl, rfl, rfl, rfl, rfl, rfl, id⟩) (fun _ => rfl))
    fun _ => ?_
  apply Hands.of_ite (.of_pure _)
  exact .then_bind (hands_showRows rows) fun _ => .of_pure _

theorem hands_feedVisibleBytes {origin : Origin} (horigin : origin ≠ .rowEnd) (bytes : Bytes) :
    Hands (Traffic.all origin bytes) (feedVisibleBytes turns incoming bytes) := by
  induction bytes with
  | nil => exact .of_pure _
  | cons byte rest ih =>
      refine Hands.of_bind (hands_feedVisibleByte horigin byte) fun lines => ?_
      exact .bind_then ih fun _ => .of_pure _

theorem hands_replayBufferedRx (replay : Bytes) :
    Hands (Traffic.all .device replay) (replayBufferedRx turns replay incoming) := by
  unfold replayBufferedRx
  apply Hands.then_bind .of_get
  intro parser
  refine Hands.then_bind (.of_modify (fun _ => ⟨rfl, rfl, rfl, rfl, rfl, rfl, id⟩) (fun _ => rfl))
    fun _ => ?_
  apply Hands.then_bind (.of_ite hands_commitPendingRow (.of_pure _))
  intro committed
  exact .bind_then (hands_feedVisibleBytes (by decide) replay) fun _ => .of_pure _

end

end TerminalStreamParser

end SerialPlatform.Display
