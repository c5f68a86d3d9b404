import SerialPlatform.Protocol

/-!
# Echoes of commands

A capture looks for the echo of its command in the received bytes.  Target TTYs
wrap long echoes, so a match may skip line ends which the command has not; a plain
`\r\n` inside an echo is ambiguous and reported as such.  While the echo is not
complete, a view without the damaged line is offered for completion matching.
-/

namespace SerialPlatform.Capture

def lf : UInt8 := 10
def cr : UInt8 := 13

def crLf : Bytes := [13, 10]
def crCrLf : Bytes := [13, 13, 10]

structure EchoMatch where
  /-- Raw byte offset immediately after the complete logical echo. -/
  stop : ℕ
  ambiguousPlainCrlfWrap : Bool
  deriving DecidableEq

inductive EchoedHardWrap
  | crLf
  | crCrLf
  deriving DecidableEq

def EchoedHardWrap.len : EchoedHardWrap → ℕ
  | .crLf => 2
  | .crCrLf => 3

/-- `MIN_PLAIN_CRLF_HARD_WRAP_COLUMN` -/
def minPlainCrlfHardWrapColumn : ℕ := 32

def echoedHardWrap (actual : Bytes) : Option EchoedHardWrap :=
  if crCrLf.isPrefixOf actual then some .crCrLf
  else if crLf.isPrefixOf actual then some .crLf
  else none

/-- The variables of the matching loop of `find_echo_end`. -/
structure EchoScan where
  actualIndex : ℕ
  expectedIndex : ℕ
  physicalLineStart : ℕ
  ambiguous : Bool

/-- The matching loop; every turn moves on in `actual`, so that `actual.length + 1`
turns reach a break. -/
def scanEcho (actual expected : Bytes) : ℕ → EchoScan → EchoScan
  | 0, scan => scan
  | turns + 1, scan =>
      match expected[scan.expectedIndex]?, actual[scan.actualIndex]? with
      | some wanted, some byte =>
          if byte = wanted then
            scanEcho actual expected turns {
              scan with
              actualIndex := scan.actualIndex + 1
              expectedIndex := scan.expectedIndex + 1
              physicalLineStart :=
                if byte = lf then scan.actualIndex + 1 else scan.physicalLineStart }
          -- a target TTY may expand a transmitted LF to CRLF in its echo
          else if wanted = lf ∧ crLf.isPrefixOf (actual.drop scan.actualIndex) then
            scanEcho actual expected turns { scan with actualIndex := scan.actualIndex + 1 }
          else if 0 < scan.expectedIndex ∧ wanted ≠ cr ∧ wanted ≠ lf then
            match echoedHardWrap (actual.drop scan.actualIndex) with
            | none => scan
            | some wrap =>
                if wrap = .crLf ∧
                    scan.actualIndex - scan.physicalLineStart < minPlainCrlfHardWrapColumn then
                  scan
                else
                  scanEcho actual expected turns {
                    scan with
                    actualIndex := scan.actualIndex + wrap.len
                    physicalLineStart := scan.actualIndex + wrap.len
                    ambiguous := scan.ambiguous || wrap = .crLf }
          else scan
      | _, _ => scan

/-- Where the line of `start` begins. -/
def lineStartBefore (actual : Bytes) (start : ℕ) : ℕ :=
  start - ((actual.take start).reverse.takeWhile (· ≠ lf)).length

/-- The line end behind a complete echo of a command which ends with `\r`. -/
def skipLineEnd (actual expected : Bytes) (index : ℕ) : ℕ :=
  if expected.getLast? = some cr then
    if crLf.isPrefixOf (actual.drop index) then index + 2
    else if [lf].isPrefixOf (actual.drop index) then index + 1
    else index
  else index

/-- The match which starts here. -/
def echoAt (actual expected : Bytes) (start : ℕ) : Option EchoMatch :=
  if actual[start]? ≠ expected[0]? then none
  else
    let scan := scanEcho actual expected (actual.length + 1)
      ⟨start, 0, lineStartBefore actual start, false⟩
    if scan.expectedIndex = expected.length then
      some ⟨skipLineEnd actual expected scan.actualIndex, scan.ambiguous⟩
    else none

def findEchoEnd (actual expected : Bytes) : Option EchoMatch :=
  if expected.isEmpty then some ⟨0, false⟩
  else (List.range actual.length).findSome? (echoAt actual expected)

/-! ## Damaged echoes -/

/-- `logical_echo_line`: the line and the index behind it. -/
def logicalEchoLine (actual : Bytes) : ℕ → ℕ → Bytes × ℕ
  | 0, index => ([], index)
  | turns + 1, index =>
      match actual[index]? with
      | none => ([], actual.length)
      | some byte =>
          if crCrLf.isPrefixOf (actual.drop index) then logicalEchoLine actual turns (index + 3)
          else if crLf.isPrefixOf (actual.drop index) then ([], index + 2)
          else if byte = cr ∨ byte = lf then ([], index + 1)
          else
            let (line, stop) := logicalEchoLine actual turns (index + 1)
            (byte :: line, stop)

/-- One of the bytes space, tab, `#`, `$`, `>`, `:`, `]`. -/
def isEchoCandidateBoundary (byte : UInt8) : Bool :=
  byte ∈ ([32, 9, 35, 36, 62, 58, 93] : Bytes)

/-- The row of the banded edit distance behind `leftIndex` bytes of `left`, from the
one before; `reused` is the other buffer, whose stale cells are overwritten. -/
def distanceRow (left right : Bytes) (maxEdits leftIndex : ℕ) (previous reused : List ℕ) :
    List ℕ :=
  let bandStart := leftIndex - maxEdits
  let bandEnd := min right.length (leftIndex + maxEdits)
  let current :=
    if bandStart = 0 then reused.set 0 leftIndex else reused.set (bandStart - 1) (maxEdits + 1)
  let first := max bandStart 1
  let current := (List.range' first (bandEnd + 1 - first)).foldl
    (fun current rightIndex =>
      let cost := if left[leftIndex - 1]? = right[rightIndex - 1]? then 0 else 1
      let substitution := previous.getD (rightIndex - 1) 0 + cost
      let deletion := previous.getD rightIndex 0 + 1
      let insertion := current.getD (rightIndex - 1) 0 + 1
      current.set rightIndex (min (min substitution deletion) insertion))
    current
  if bandEnd < right.length then current.set (bandEnd + 1) (maxEdits + 1) else current

/-- Banded Levenshtein check. -/
def editDistanceWithin (left right : Bytes) (maxEdits : ℕ) : Bool :=
  if maxEdits < left.length - right.length ∨ maxEdits < right.length - left.length then false
  else
    let infinity := List.replicate (right.length + 1) (maxEdits + 1)
    let first := (List.range (right.length + 1)).map fun index =>
      if index ≤ min right.length maxEdits then index else maxEdits + 1
    let (previous, _) := (List.range left.length).foldl
      (fun (previous, current) index =>
        (distanceRow left right maxEdits (index + 1) previous current, previous))
      (first, infinity)
    previous.getD right.length 0 ≤ maxEdits

def looksLikeDamagedEcho (candidate expected : Bytes) : Bool :=
  if candidate.isPrefixOf expected ∨ expected.isPrefixOf candidate then true
  else if expected.length ≤ 4 then false
  else
    let maxEdits := min (max (expected.length / 4) 1) 16
    editDistanceWithin (candidate.take expected.length) expected maxEdits

/-- The candidates of one line, at most 128 of them; the end of the first which looks
like the echo. -/
def damagedEchoIn (actual expected : Bytes) (lineStart : ℕ) : List ℕ → ℕ → Option ℕ
  | [], _ => none
  | start :: starts, candidates =>
      if ¬ (start = lineStart ∨ (actual[start - 1]?).any isEchoCandidateBoundary) ∧
          actual[start]? ≠ expected[0]? then
        damagedEchoIn actual expected lineStart starts candidates
      else
        let (candidate, candidateEnd) := logicalEchoLine actual (actual.length + 1) start
        if candidate.isEmpty then damagedEchoIn actual expected lineStart starts candidates
        else if looksLikeDamagedEcho candidate expected then some candidateEnd
        else if 128 ≤ candidates + 1 then none
        else damagedEchoIn actual expected lineStart starts (candidates + 1)

/-- The loop over the logical lines. -/
def fallbackFrom (actual expected : Bytes) : ℕ → ℕ → Bytes
  | 0, _ => actual
  | turns + 1, lineStart =>
      if actual.length ≤ lineStart then actual
      else
        let (_, lineEnd) := logicalEchoLine actual (actual.length + 1) lineStart
        let starts := List.range' lineStart (lineEnd - lineStart)
        match damagedEchoIn actual expected lineStart starts 0 with
        | some candidateEnd => actual.drop candidateEnd
        | none =>
            if actual.length ≤ lineEnd then actual else fallbackFrom actual expected turns lineEnd

/-- The command without its line end. -/
def withoutLineEnd (expected : Bytes) : Bytes :=
  if crLf.isSuffixOf expected then expected.dropLast.dropLast
  else if [cr].isSuffixOf expected ∨ [lf].isSuffixOf expected then expected.dropLast
  else expected

def fallbackAfterIncompleteEcho (actual expected : Bytes) : Bytes :=
  let command := withoutLineEnd expected
  if actual.isEmpty ∨ expected.isEmpty ∨ command.isEmpty then actual
  else fallbackFrom actual command (actual.length + 1) 0

/-! ## A match ends inside the received bytes -/

theorem prefix_drop_length {needle actual : Bytes} {index : ℕ}
    (h : needle.isPrefixOf (actual.drop index)) (hneedle : needle ≠ []) :
    index + needle.length ≤ actual.length := by
  have hprefix := List.isPrefixOf_iff_prefix.mp h
  have hle := hprefix.length_le
  have hpositive : 0 < needle.length := List.length_pos_of_ne_nil hneedle
  rw [List.length_drop] at hle
  omega

theorem echoedHardWrap_length {actual : Bytes} {index : ℕ} {wrap : EchoedHardWrap}
    (h : echoedHardWrap (actual.drop index) = some wrap) : index + wrap.len ≤ actual.length := by
  unfold echoedHardWrap at h
  split_ifs at h with hlong hshort
  · cases h
    exact prefix_drop_length hlong (by simp [crCrLf])
  · cases h
    exact prefix_drop_length hshort (by simp [crLf])

theorem scanEcho_le (actual expected : Bytes) (turns : ℕ) (scan : EchoScan)
    (h : scan.actualIndex ≤ actual.length) :
    (scanEcho actual expected turns scan).actualIndex ≤ actual.length := by
  induction turns generalizing scan with
  | zero => exact h
  | succ turns ih =>
      rw [scanEcho]
      split
      case h_2 => exact h
      case h_1 wanted byte _ hbyte =>
        have hinside : scan.actualIndex < actual.length := (List.getElem?_eq_some_iff.mp hbyte).1
        by_cases hsame : byte = wanted
        · rw [if_pos hsame]
          exact ih _ hinside
        · rw [if_neg hsame]
          split_ifs with hcrLf hinner
          · exact ih _ hinside
          · split
            · exact h
            · rename_i wrap hwrap
              split_ifs
              · exact h
              · exact ih _ (echoedHardWrap_length hwrap)
          · exact h

theorem skipLineEnd_le {actual : Bytes} (expected : Bytes) {index : ℕ}
    (h : index ≤ actual.length) : skipLineEnd actual expected index ≤ actual.length := by
  unfold skipLineEnd
  split_ifs with hcr hlong hshort
  · exact prefix_drop_length hlong (by simp [crLf])
  · exact prefix_drop_length hshort (by simp)
  · exact h
  · exact h

theorem findEchoEnd_le {actual expected : Bytes} {found : EchoMatch}
    (h : findEchoEnd actual expected = some found) : found.stop ≤ actual.length := by
  unfold findEchoEnd at h
  split_ifs at h
  · cases h
    exact Nat.zero_le _
  · obtain ⟨start, hstart, hfound⟩ := List.exists_of_findSome?_eq_some h
    have hinside := List.mem_range.mp hstart
    unfold echoAt at hfound
    split_ifs at hfound with hfirst
    simp only at hfound
    split_ifs at hfound with hcomplete
    cases hfound
    exact skipLineEnd_le expected (scanEcho_le actual expected _ _ hinside.le)

end SerialPlatform.Capture
