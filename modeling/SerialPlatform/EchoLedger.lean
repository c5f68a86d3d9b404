import SerialPlatform.EchoTraffic

/-!
# The ledger of echo reconciliation

Bytes from the device are withheld while they may still be the echo of a write.  A ledger
cuts the received bytes into pieces: those passed on to the terminal, and echoes which
were removed, each a whole copy of the expectation which was at the front of the queue.
Behind the pieces stand the bytes withheld at the moment.
-/

namespace SerialPlatform.Display

open FallibleState

/-! ## Copies of an expectation -/

/-- A copy of the bytes from `expected` on, wrapped anywhere inside. -/
inductive CopyFrom (bytes : Bytes) : ℕ → Bytes → Prop
  | done : CopyFrom bytes bytes.length []
  | byte {expected : ℕ} {actual : UInt8} {rest : Bytes} (h : bytes[expected]? = some actual)
      (hrest : CopyFrom bytes (expected + 1) rest) : CopyFrom bytes expected (actual :: rest)
  | wrap {expected : ℕ} {rest : Bytes} (hstarted : 0 < expected) (hinside : expected < bytes.length)
      (hrest : CopyFrom bytes expected rest) : CopyFrom bytes expected (echoHardWrap ++ rest)

/-- The echo of a write, or what a terminal answers to a DEL. -/
def EchoOf (bytes echo : Bytes) : Prop :=
  CopyFrom bytes 0 echo ∨ bytes = [0x7f] ∧ (echo = [0x08] ∨ echo = eraseEcho)

section
variable {bytes candidate : Bytes} {expected : ℕ}

theorem copyFrom_of_full (h : EchoExpectation.matchFrom bytes expected candidate = .full) :
    CopyFrom bytes expected candidate := by
  fun_induction EchoExpectation.matchFrom bytes expected candidate with
  | case1 => exact .done
  | case2 expected hne => cases h
  | case3 expected actual rest hactual ih => exact .byte hactual (ih h)
  | case4 expected actual rest hactual hinside hprefix => cases h
  | case5 expected actual rest hactual hinside hprefix hwrap ih =>
      obtain ⟨more, hmore⟩ := List.isPrefixOf_iff_prefix.mp hwrap
      have hrest : rest.drop 2 = more := by
        have hsplit : actual :: rest = 0x0d :: 0x0d :: 0x0a :: more := hmore.symm
        cases hsplit
        rfl
      rw [hrest] at ih
      rw [← hmore]
      exact .wrap hinside.1 hinside.2 (ih (by rw [← hrest]; exact h))
  | case6 expected actual rest hactual hinside hprefix hwrap => cases h
  | case7 expected actual rest hactual hinside => cases h

theorem copyFrom_nil (h : CopyFrom bytes expected []) : expected = bytes.length := by
  generalize hnil : ([] : Bytes) = candidate at h
  cases h with
  | done => rfl
  | byte h hrest => cases hnil
  | wrap hstarted hinside hrest => cases hnil

/-- A copy ends as what it copies. -/
theorem CopyFrom.getLast (h : CopyFrom bytes expected candidate) (hsome : candidate ≠ []) :
    candidate.getLast? = bytes.getLast? := by
  induction h with
  | done => exact absurd rfl hsome
  | @byte expected actual rest hactual hrest ih =>
      cases rest with
      | nil =>
          have hlast := copyFrom_nil hrest
          have hindex : bytes.length - 1 = expected := by omega
          rw [List.getLast?_eq_getElem? (l := bytes), hindex, hactual]
          rfl
      | cons next more =>
          rw [List.getLast?_cons_cons]
          exact ih (by simp)
  | @wrap expected rest hstarted hinside hrest ih =>
      have hmore : rest ≠ [] := by
        rintro rfl
        have hlast := copyFrom_nil hrest
        omega
      rw [List.getLast?_append_of_ne_nil _ hmore]
      exact ih hmore

theorem EchoOf.getLast {echo : Bytes} (h : EchoOf bytes echo) (hsome : echo ≠ [])
    (hcr : bytes.getLast? = some 0x0d) : echo.getLast? = some 0x0d := by
  rcases h with hcopy | ⟨rfl, -⟩
  · rw [hcopy.getLast hsome, hcr]
  · exact absurd hcr (by decide)

end

/-! ## Pieces -/

/-- A piece of what was received. -/
inductive Piece
  | shown (bytes : Bytes)
  /-- The echo of an expectation; whether a newline behind it was dropped too. -/
  | removed (expected echo : Bytes) (newline : Bool)

namespace Piece

def bytes : Piece → Bytes
  | .shown bytes => bytes
  | .removed _ echo newline => echo ++ (if newline then [0x0a] else [])

/-- What the terminal is fed of it. -/
def passed : Piece → Bytes
  | .shown bytes => bytes
  | .removed _ _ _ => []

/-- What it is the echo of. -/
def expected : Piece → Bytes
  | .shown _ => []
  | .removed expected _ _ => expected

/-- A newline is dropped only behind a carriage return. -/
def Valid : Piece → Prop
  | .shown _ => True
  | .removed expected echo newline =>
      EchoOf expected echo ∧ (newline = true → echo.getLast? = some 0x0d)

end Piece

namespace TerminalStreamParser

/-- The bytes which are not decided yet. -/
def withheld (parser : TerminalStreamParser) : Bytes := parser.abandonedRx ++ parser.echoCandidate

/-- What holds of the reconciliation between two bytes. -/
structure Withholds (parser : TerminalStreamParser) : Prop where
  off : parser.reconcileEcho = false →
    parser.expectedEchoes = [] ∧ parser.swallowOptionalEchoLf = false
  candidate : parser.echoCandidate ≠ [] → ∃ expectation rest,
    parser.expectedEchoes = expectation :: rest ∧ expectation.searchStarted = true ∧
      expectation.matchCandidate parser.echoCandidate = .prefixMatch
  abandoned : parser.abandonedRx ≠ [] →
    parser.echoCandidate = [] ∧ parser.swallowOptionalEchoLf = false
  swallow : parser.swallowOptionalEchoLf = true → parser.echoCandidate = []
  context : parser.withheld ≠ [] → parser.context.isSome = true
  erase : ∀ expectation ∈ parser.expectedEchoes, expectation.acceptEraseEcho = true →
    expectation.bytes = [0x7f]
  expectedEchoBytes : parser.expectedEchoBytes =
    (parser.expectedEchoes.map (fun expectation => expectation.bytes.length)).sum

/-- The pieces account for everything received, and their echoes for writes in order. -/
structure Accounts (received sent : Bytes) (pieces : List Piece) (parser : TerminalStreamParser) :
    Prop where
  withholds : Withholds parser
  received : received = pieces.flatMap Piece.bytes ++ parser.withheld
  valid : ∀ piece ∈ pieces, piece.Valid
  sent : ∃ earlier, sent = earlier ++ parser.expectedEchoes.flatMap EchoExpectation.bytes ∧
    (pieces.flatMap Piece.expected).Sublist earlier
  swallow : parser.swallowOptionalEchoLf = true → ∃ before expected echo,
    pieces = before ++ [.removed expected echo false] ∧ echo.getLast? = some 0x0d

theorem accounts_new : Accounts [] [] [] new where
  withholds := by
    constructor <;> simp [new, withheld]
  received := rfl
  valid := by simp
  sent := ⟨[], rfl, .refl _⟩
  swallow := by simp [new]

section
variable {received sent : Bytes} {pieces : List Piece} {parser parser' : TerminalStreamParser}

theorem Withholds.same (h : Withholds parser) (hsame : SameEcho parser parser') :
    Withholds parser' where
  off := by
    rw [hsame.reconcileEcho, hsame.expectedEchoes, hsame.swallowOptionalEchoLf]
    exact h.off
  candidate := by
    rw [hsame.echoCandidate, hsame.expectedEchoes]
    exact h.candidate
  abandoned := by
    rw [hsame.abandonedRx, hsame.echoCandidate, hsame.swallowOptionalEchoLf]
    exact h.abandoned
  swallow := by
    rw [hsame.swallowOptionalEchoLf, hsame.echoCandidate]
    exact h.swallow
  context := by
    intro hsome
    apply hsame.context
    apply h.context
    unfold withheld at hsome ⊢
    rw [hsame.abandonedRx, hsame.echoCandidate] at hsome
    exact hsome
  erase := by
    rw [hsame.expectedEchoes]
    exact h.erase
  expectedEchoBytes := by
    rw [hsame.expectedEchoBytes, hsame.expectedEchoes]
    exact h.expectedEchoBytes

theorem Accounts.same (h : Accounts received sent pieces parser) (hsame : SameEcho parser parser') :
    Accounts received sent pieces parser' where
  withholds := h.withholds.same hsame
  received := by
    unfold withheld
    rw [hsame.abandonedRx, hsame.echoCandidate]
    exact h.received
  valid := h.valid
  sent := by
    rw [hsame.expectedEchoes]
    exact h.sent
  swallow := by
    rw [hsame.swallowOptionalEchoLf]
    exact h.swallow

/-- Everything withheld is given back, and nothing is expected any more. -/
theorem Accounts.give (h : Accounts received sent pieces parser)
    (hreconcile : parser'.expectedEchoes = [] ∨ parser'.expectedEchoes = parser.expectedEchoes ∧
      parser'.expectedEchoBytes = parser.expectedEchoBytes ∧
      parser'.reconcileEcho = parser.reconcileEcho)
    (hbytes : parser'.expectedEchoes = [] → parser'.expectedEchoBytes = 0)
    (hswallow : parser'.swallowOptionalEchoLf = false) (habandoned : parser'.abandonedRx = [])
    (hcandidate : parser'.echoCandidate = []) :
    Accounts received sent (pieces ++ [.shown parser.withheld]) parser' where
  withholds := by
    refine ⟨fun hoff => ⟨?_, hswallow⟩, fun hsome => absurd hcandidate hsome,
      fun hsome => absurd habandoned hsome, fun _ => hcandidate, ?_, ?_, ?_⟩
    · rcases hreconcile with hempty | ⟨hsame, -, hreconcile⟩
      · exact hempty
      · rw [hsame]
        exact (h.withholds.off (hreconcile ▸ hoff)).1
    · intro hsome
      simp [withheld, habandoned, hcandidate] at hsome
    · rcases hreconcile with hempty | ⟨hsame, -, -⟩
      · simp [hempty]
      · rw [hsame]
        exact h.withholds.erase
    · rcases hreconcile with hempty | ⟨hsame, hcount, -⟩
      · rw [hbytes hempty, hempty]
        rfl
      · rw [hcount, hsame]
        exact h.withholds.expectedEchoBytes
  received := by
    rw [h.received]
    simp [Piece.bytes, withheld, habandoned, hcandidate]
  valid := by
    intro piece hmem
    rcases List.mem_append.mp hmem with hmem | hmem
    · exact h.valid piece hmem
    · rw [List.mem_singleton.mp hmem]
      trivial
  sent := by
    obtain ⟨earlier, hsent, hsublist⟩ := h.sent
    rcases hreconcile with hempty | ⟨hsame, -, -⟩
    · refine ⟨sent, by simp [hempty], ?_⟩
      rw [hsent, List.flatMap_append]
      simpa [Piece.expected] using hsublist.trans (List.sublist_append_left _ _)
    · refine ⟨earlier, by rw [hsame]; exact hsent, ?_⟩
      simpa [Piece.expected] using hsublist
  swallow := by simp [hswallow]

/-- The candidate is given up, to be shown with the next bytes. -/
theorem Accounts.giveUp (h : Accounts received sent pieces parser)
    (habandoned : parser'.abandonedRx = parser.withheld) (hcandidate : parser'.echoCandidate = [])
    (hexpected : parser'.expectedEchoes = []) (hbytes : parser'.expectedEchoBytes = 0)
    (hswallow : parser'.swallowOptionalEchoLf = false)
    (hcontext : parser.withheld ≠ [] → parser'.context.isSome = true) :
    Accounts received sent pieces parser' where
  withholds := by
    refine ⟨fun _ => ⟨hexpected, hswallow⟩, fun hsome => absurd hcandidate hsome,
      fun _ => ⟨hcandidate, hswallow⟩, fun _ => hcandidate, fun hsome => ?_, ?_, ?_⟩
    · apply hcontext
      rw [withheld, habandoned, hcandidate, List.append_nil] at hsome
      exact hsome
    · simp [hexpected]
    · rw [hbytes, hexpected]
      rfl
  received := by
    have hsame : parser'.withheld = parser.withheld := by
      rw [withheld, habandoned, hcandidate, List.append_nil]
    rw [hsame]
    exact h.received
  valid := h.valid
  sent := by
    obtain ⟨earlier, hsent, hsublist⟩ := h.sent
    refine ⟨sent, by simp [hexpected], ?_⟩
    rw [hsent]
    exact hsublist.trans (List.sublist_append_left _ _)
  swallow := by simp [hswallow]

theorem Withholds.candidate_off (h : Withholds parser) (hoff : parser.reconcileEcho = false) :
    parser.echoCandidate = [] := by
  by_contra hsome
  obtain ⟨expectation, rest, hqueue, -⟩ := h.candidate hsome
  rw [(h.off hoff).1] at hqueue
  cases hqueue

theorem Accounts.setEchoReconciliation (h : Accounts received sent pieces parser)
    (enabled : Bool) : Accounts received sent pieces (parser.setEchoReconciliation enabled) := by
  unfold TerminalStreamParser.setEchoReconciliation
  split_ifs with hsame hon
  · exact h
  · have hoff : parser.reconcileEcho = false := by simpa [hon] using hsame
    have hnone := h.withholds.candidate_off hoff
    have hwithheld : parser.abandonedRx = parser.withheld := by simp [withheld, hnone]
    exact h.giveUp hwithheld hnone rfl rfl rfl h.withholds.context
  · exact h.giveUp rfl rfl rfl rfl rfl h.withholds.context

/-! ## Writes -/

/-- More is sent which is not expected back. -/
theorem Accounts.unexpected (h : Accounts received sent pieces parser)
    (hempty : parser.expectedEchoes = []) (data : Bytes) :
    Accounts received (sent ++ data) pieces parser where
  withholds := h.withholds
  received := h.received
  valid := h.valid
  sent := by
    obtain ⟨earlier, hsent, hsublist⟩ := h.sent
    refine ⟨sent ++ data, by simp [hempty], ?_⟩
    rw [hsent, List.append_assoc]
    exact hsublist.trans (List.sublist_append_left _ _)
  swallow := h.swallow

/-- The expectations of a queue to which a write was added. -/
theorem queue_append {queue : List EchoExpectation} {tail : EchoExpectation} (data : Bytes)
    (htail : queue.getLast? = some tail) :
    ∃ front, queue = front ++ [tail] ∧
      queue.dropLast ++ ((queue.getLast?.map (fun tail => tail.append data)).toList) =
        front ++ [tail.append data] := by
  obtain ⟨front, hfront⟩ := List.getLast?_eq_some_iff.mp htail
  refine ⟨front, hfront, ?_⟩
  rw [htail, hfront]
  simp

theorem Accounts.expectEcho (h : Accounts received sent pieces parser) (event : TimelineEvent) :
    Accounts received (sent ++ (if event.direction = .tx then event.data else [])) pieces
      (parser.expectEcho event) := by
  unfold TerminalStreamParser.expectEcho
  by_cases htx : event.direction = .tx
  swap
  · rw [if_neg htx, List.append_nil, if_neg (fun hboth => htx hboth.1)]
    exact h
  rw [if_pos htx]
  by_cases hwrite : parser.reconcileEcho = true ∧ event.data ≠ []
  swap
  · rw [if_neg (fun hboth => hwrite hboth.2)]
    by_cases hdata : event.data = []
    · rw [hdata, List.append_nil]
      exact h
    · have hoff : parser.reconcileEcho = false := by
        by_contra hon
        exact hwrite ⟨by simpa using hon, hdata⟩
      exact h.unexpected (h.withholds.off hoff).1 event.data
  rw [if_pos ⟨htx, hwrite⟩]
  dsimp only
  split_ifs with hfits hextend
  · -- the last expectation grows: it is not the one which is searched for
    obtain ⟨tail, htail, happend⟩ : ∃ tail, parser.expectedEchoes.getLast? = some tail ∧
        tail.canAppend event.data = true := by
      cases htail : parser.expectedEchoes.getLast? with
      | none => simp [htail] at hextend
      | some tail => exact ⟨tail, rfl, by simpa [htail] using hextend⟩
    obtain ⟨front, hqueue, hqueue'⟩ := queue_append event.data htail
    simp only [EchoExpectation.canAppend, Bool.and_eq_true, Bool.not_eq_true'] at happend
    rw [hqueue']
    refine ⟨⟨?_, ?_, h.withholds.abandoned, h.withholds.swallow, h.withholds.context, ?_, ?_⟩,
      h.received, h.valid, ?_, h.swallow⟩
    · intro hoff
      rw [hwrite.1] at hoff
      cases hoff
    · intro hsome
      obtain ⟨expectation, rest, hfirst, hstarted, hprefix⟩ := h.withholds.candidate hsome
      rw [hqueue] at hfirst
      cases front with
      | nil =>
          cases hfirst
          rw [hstarted] at happend
          exact absurd happend.1.1.1 (by decide)
      | cons first more =>
          cases hfirst
          exact ⟨_, _, rfl, hstarted, hprefix⟩
    · intro expectation hmem haccept
      rcases List.mem_append.mp hmem with hmem | hmem
      · exact h.withholds.erase expectation
          (by rw [hqueue]; exact List.mem_append_left _ hmem) haccept
      · rw [List.mem_singleton.mp hmem] at haccept
        have hno : tail.acceptEraseEcho = false := happend.1.1.2
        rw [EchoExpectation.append, hno] at haccept
        cases haccept
    · have hcount := h.withholds.expectedEchoBytes
      rw [hqueue] at hcount
      simp only [List.map_append, List.sum_append, List.map_cons, List.map_nil, List.sum_cons,
        List.sum_nil, EchoExpectation.append, List.length_append] at hcount ⊢
      omega
    · obtain ⟨earlier, hsent, hsublist⟩ := h.sent
      refine ⟨earlier, ?_, hsublist⟩
      rw [hsent, hqueue]
      simp [EchoExpectation.append]
  · refine ⟨⟨?_, ?_, h.withholds.abandoned, h.withholds.swallow, h.withholds.context, ?_, ?_⟩,
      h.received, h.valid, ?_, h.swallow⟩
    · intro hoff
      rw [hwrite.1] at hoff
      cases hoff
    · intro hsome
      obtain ⟨expectation, rest, hfirst, hstarted, hprefix⟩ := h.withholds.candidate hsome
      rw [hfirst]
      exact ⟨_, _, rfl, hstarted, hprefix⟩
    · intro expectation hmem haccept
      rcases List.mem_append.mp hmem with hmem | hmem
      · exact h.withholds.erase expectation hmem haccept
      · rw [List.mem_singleton.mp hmem] at haccept ⊢
        simpa [EchoExpectation.new] using haccept
    · have hcount := h.withholds.expectedEchoBytes
      simp only [List.map_append, List.sum_append, List.map_cons, List.map_nil, List.sum_cons,
        List.sum_nil, EchoExpectation.new]
      omega
    · obtain ⟨earlier, hsent, hsublist⟩ := h.sent
      refine ⟨earlier, ?_, hsublist⟩
      rw [hsent]
      simp [EchoExpectation.new]
  · have hgiven : Accounts received sent pieces { parser with
        abandonedRx := parser.abandonedRx ++ parser.echoCandidate
        echoCandidate := []
        expectedEchoes := []
        expectedEchoBytes := 0
        swallowOptionalEchoLf := false } := h.giveUp rfl rfl rfl rfl rfl h.withholds.context
    exact hgiven.unexpected rfl event.data

/-! ## Bytes from the device -/

/-- What a full match removes. -/
theorem echoOf_of_full {expectation : EchoExpectation} {candidate : Bytes}
    (herase : expectation.acceptEraseEcho = true → expectation.bytes = [0x7f])
    (h : expectation.matchCandidate candidate = .full) : EchoOf expectation.bytes candidate := by
  unfold EchoExpectation.matchCandidate at h
  split_ifs at h with haccept hfull
  · have hbytes := herase haccept
    rcases hfull with heq | heq | heq
    · rw [heq, hbytes]
      exact .inl (.byte rfl .done)
    · exact .inr ⟨hbytes, .inl heq⟩
    · exact .inr ⟨hbytes, .inr heq⟩
  · exact .inl (copyFrom_of_full h)

/-- A byte is withheld, or ends a removed echo; or it is shown with everything withheld. -/
inductive Decides (received sent : Bytes) (pieces : List Piece) (byte : UInt8) :
    EchoDisposition → TerminalStreamParser → Prop
  | suppressed {pieces' : List Piece} {expectationComplete : Bool} {parser' : TerminalStreamParser}
      (haccounts : Accounts (received ++ [byte]) sent pieces' parser')
      (hpassed : pieces'.flatMap Piece.passed = pieces.flatMap Piece.passed) :
      Decides received sent pieces byte (.suppressed expectationComplete) parser'
  | visible {bytes : Bytes} {parser' : TerminalStreamParser}
      (haccounts : Accounts (received ++ [byte]) sent (pieces ++ [.shown bytes]) parser') :
      Decides received sent pieces byte (.visible bytes) parser'

theorem valid_snoc (h : ∀ piece ∈ pieces, piece.Valid) {last : Piece} (hlast : last.Valid) :
    ∀ piece ∈ pieces ++ [last], piece.Valid := by
  intro piece hmem
  rcases List.mem_append.mp hmem with hmem | hmem
  · exact h piece hmem
  · rw [List.mem_singleton.mp hmem]
    exact hlast

/-- A byte which is shown with the candidate before it. -/
theorem Accounts.show (h : Accounts received sent pieces parser) {byte : UInt8}
    (habandoned : parser.abandonedRx = []) (habandoned' : parser'.abandonedRx = [])
    (hcandidate : parser'.echoCandidate = []) (hswallow : parser'.swallowOptionalEchoLf = false)
    (hexpected : parser'.expectedEchoes = []) (hbytes : parser'.expectedEchoBytes = 0) :
    Accounts (received ++ [byte]) sent (pieces ++ [.shown (parser.echoCandidate ++ [byte])])
      parser' where
  withholds := by
    refine ⟨fun _ => ⟨hexpected, hswallow⟩, fun hsome => absurd hcandidate hsome,
      fun hsome => absurd habandoned' hsome, fun _ => hcandidate, fun hsome => ?_, ?_, ?_⟩
    · simp [withheld, habandoned', hcandidate] at hsome
    · simp [hexpected]
    · rw [hbytes, hexpected]
      rfl
  received := by
    rw [h.received]
    simp [Piece.bytes, withheld, habandoned, habandoned', hcandidate]
  valid := valid_snoc h.valid trivial
  sent := by
    obtain ⟨earlier, hsent, hsublist⟩ := h.sent
    refine ⟨sent, by simp [hexpected], ?_⟩
    rw [hsent]
    simpa [Piece.expected] using hsublist.trans (List.sublist_append_left _ _)
  swallow := by simp [hswallow]

theorem Accounts.reconcileRxByte (h : Accounts received sent pieces parser)
    (habandoned : parser.abandonedRx = []) (hcontext : parser.context.isSome = true)
    (byte : UInt8) (incoming : LineContext) :
    Decides received sent pieces byte (parser.reconcileRxByte byte incoming).1
      (parser.reconcileRxByte byte incoming).2 := by
  have hempty (hqueue : parser.expectedEchoes = []) : parser.echoCandidate = [] := by
    by_contra hsome
    obtain ⟨expectation, rest, hfirst, -⟩ := h.withholds.candidate hsome
    rw [hqueue] at hfirst
    cases hfirst
  have hcount (hqueue : parser.expectedEchoes = []) : parser.expectedEchoBytes = 0 := by
    rw [h.withholds.expectedEchoBytes, hqueue]
    rfl
  unfold TerminalStreamParser.reconcileRxByte
  by_cases hon : parser.reconcileEcho = true
  swap
  · rw [if_pos hon]
    have hoff : parser.reconcileEcho = false := by simpa using hon
    obtain ⟨hqueue, hswallow⟩ := h.withholds.off hoff
    have hnone := h.withholds.candidate_off hoff
    have hshown : Accounts (received ++ [byte]) sent
        (pieces ++ [.shown (parser.echoCandidate ++ [byte])]) parser :=
      h.show habandoned habandoned hnone hswallow hqueue (hcount hqueue)
    rw [hnone, List.nil_append] at hshown
    exact .visible hshown
  rw [if_neg (not_not.mpr hon)]
  by_cases hnewline : parser.swallowOptionalEchoLf = true ∧ byte = 0x0a
  · -- the newline belongs to the echo before it
    rw [if_pos hnewline]
    obtain ⟨hswallow, rfl⟩ := hnewline
    obtain ⟨before, expected, echo, hpieces, hcr⟩ := h.swallow hswallow
    have hnone := h.withholds.swallow hswallow
    have hvalid : (Piece.removed expected echo true).Valid := by
      have hlast := h.valid (.removed expected echo false) (by rw [hpieces]; simp)
      exact ⟨hlast.1, fun _ => hcr⟩
    have haccounts : Accounts (received ++ [0x0a]) sent (before ++ [.removed expected echo true])
        { parser with swallowOptionalEchoLf := false } := by
      refine ⟨?_, ?_, ?_, ?_, by simp⟩
      · exact ⟨fun hoff => ⟨(h.withholds.off hoff).1, rfl⟩, h.withholds.candidate,
          fun hsome => ⟨(h.withholds.abandoned hsome).1, rfl⟩, fun _ => hnone, h.withholds.context,
          h.withholds.erase, h.withholds.expectedEchoBytes⟩
      · rw [h.received, hpieces]
        simp [Piece.bytes, withheld, habandoned, hnone]
      · refine valid_snoc (fun piece hmem => h.valid piece ?_) hvalid
        rw [hpieces]
        exact List.mem_append_left _ hmem
      · obtain ⟨earlier, hsent, hsublist⟩ := h.sent
        refine ⟨earlier, hsent, ?_⟩
        rw [hpieces] at hsublist
        simpa [Piece.expected] using hsublist
    refine .suppressed haccounts ?_
    rw [hpieces]
    simp [Piece.passed]
  rw [if_neg hnewline]
  cases hqueue : parser.expectedEchoes with
  | nil =>
      have hnone := hempty hqueue
      have hshown : Accounts (received ++ [byte]) sent
          (pieces ++ [.shown (parser.echoCandidate ++ [byte])])
          { parser with expectedEchoes := [], swallowOptionalEchoLf := false } :=
        h.show habandoned habandoned hnone rfl rfl (hcount hqueue)
      have hbytes : parser.echoCandidate ++ [byte] = [byte] := by rw [hnone, List.nil_append]
      rw [hbytes] at hshown
      exact .visible hshown
  | cons expectation rest =>
      have herase : expectation.acceptEraseEcho = true → expectation.bytes = [0x7f] :=
        h.withholds.erase expectation (by rw [hqueue]; exact List.mem_cons_self)
      have hsum := h.withholds.expectedEchoBytes
      rw [hqueue, List.map_cons, List.sum_cons] at hsum
      dsimp only
      cases hmatch : expectation.matchCandidate (parser.echoCandidate ++ [byte]) with
      | full =>
          have hecho := echoOf_of_full herase hmatch
          refine @Decides.suppressed received sent pieces byte
            (pieces ++ [.removed expectation.bytes (parser.echoCandidate ++ [byte]) false]) _ _ ?_ ?_
          · refine ⟨?_, ?_, valid_snoc h.valid ⟨hecho, by simp⟩, ?_, ?_⟩
            · refine ⟨fun hoff => ?_, by simp, fun hsome => absurd habandoned hsome, by simp,
                fun _ => hcontext, fun other hmem => ?_, ?_⟩
              · rw [hon] at hoff
                cases hoff
              · exact h.withholds.erase other (by rw [hqueue]; exact List.mem_cons_of_mem _ hmem)
              · simp only
                omega
            · rw [h.received]
              simp [Piece.bytes, withheld, habandoned]
            · obtain ⟨earlier, hsent, hsublist⟩ := h.sent
              refine ⟨earlier ++ expectation.bytes, ?_, ?_⟩
              · rw [hsent, hqueue]
                simp
              · simpa [Piece.expected] using hsublist.append (List.Sublist.refl expectation.bytes)
            · intro hswallow
              refine ⟨pieces, _, _, rfl, ?_⟩
              apply hecho.getLast (by simp)
              simp only [Bool.and_eq_true, EchoExpectation.endsInCr] at hswallow
              simpa using hswallow.1.1
          · simp [Piece.passed]
      | prefixMatch =>
          refine @Decides.suppressed received sent pieces byte pieces _ _ ?_ rfl
          refine ⟨?_, ?_, h.valid, ?_, by simp⟩
          · refine ⟨fun hoff => ?_, fun _ => ⟨_, rest, rfl, rfl, hmatch⟩,
              fun hsome => absurd habandoned hsome, by simp, fun _ => hcontext,
              fun other hmem => ?_, ?_⟩
            · rw [hon] at hoff
              cases hoff
            · rcases List.mem_cons.mp hmem with rfl | hmem
              · exact herase
              · exact h.withholds.erase other (by rw [hqueue]; exact List.mem_cons_of_mem _ hmem)
            · simpa using hsum
          · rw [h.received]
            simp [withheld]
          · obtain ⟨earlier, hsent, hsublist⟩ := h.sent
            refine ⟨earlier, ?_, hsublist⟩
            rw [hsent, hqueue]
            simp
      | mismatch => exact .visible (h.show habandoned habandoned rfl rfl rfl rfl)

/-- The rest of the parser is left alone. -/
theorem reconcileRxByte_rest (parser : TerminalStreamParser) (byte : UInt8)
    (incoming : LineContext) :
    (parser.reconcileRxByte byte incoming).2.abandonedRx = parser.abandonedRx ∧
      (parser.reconcileRxByte byte incoming).2.context = parser.context ∧
      (parser.reconcileRxByte byte incoming).2.fed = parser.fed := by
  unfold TerminalStreamParser.reconcileRxByte
  split
  · exact ⟨rfl, rfl, rfl⟩
  split
  · exact ⟨rfl, rfl, rfl⟩
  split
  · exact ⟨rfl, rfl, rfl⟩
  · simp only
    split <;> exact ⟨rfl, rfl, rfl⟩

end

end TerminalStreamParser

end SerialPlatform.Display
