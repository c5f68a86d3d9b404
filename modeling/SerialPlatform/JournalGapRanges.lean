import SerialPlatform.JournalFormat

/-!
# Ranges of missing sequence numbers

A query explains every hole by a range with a reason.  Ranges of one reason are merged
where they touch, and a derived range is only entered where no other covers it.
-/

namespace SerialPlatform.Journal

def maxQueryGaps : ℕ := 1024

structure GapRange where
  epoch : Uuid
  firstSeq : ℕ
  lastSeq : ℕ
  reason : GapReason
  deriving DecidableEq

def gapReasonRank : GapReason → ℕ
  | .epochChanged => 0
  | .ringEvicted => 1
  | .retention => 2
  | .corruption => 3
  | .loggingFault => 4
  | .sequenceDiscontinuity => 5

def GapRange.key (gap : GapRange) : ℕ ×ₗ ℕ ×ₗ ℕ ×ₗ ℕ :=
  toLex (gap.epoch, toLex (gapReasonRank gap.reason, toLex (gap.firstSeq, gap.lastSeq)))

/-- The range `current` takes in the ranges behind it while they touch it. -/
def absorbGaps : GapRange → List GapRange → List GapRange
  | current, [] => [current]
  | current, gap :: rest =>
      if current.epoch = gap.epoch ∧ current.reason = gap.reason ∧
          gap.firstSeq ≤ satAdd u64Max current.lastSeq 1 then
        absorbGaps { current with lastSeq := max current.lastSeq gap.lastSeq } rest
      else current :: absorbGaps gap rest

def mergeGapRanges (gaps : List GapRange) : List GapRange :=
  match gaps.insertionSort (fun a b => a.key ≤ b.key) with
  | [] => []
  | gap :: rest => absorbGaps gap rest

def pushGapBounded (gaps : List GapRange) (gap : GapRange) :
    Except JournalError (List GapRange) :=
  let pushed := gaps ++ [gap]
  if maxQueryGaps * 2 ≤ pushed.length then
    let merged := mergeGapRanges pushed
    if maxQueryGaps < merged.length then .error (.tooManyQueryGaps maxQueryGaps) else .ok merged
  else .ok pushed

/-- The loop of `push_uncovered_gap` over the covered parts from `next` on. -/
def pushUncovered (candidate : GapRange) :
    List (ℕ ×ₗ ℕ) → ℕ → List GapRange → Except JournalError (List GapRange)
  | [], next, gaps => pushGapBounded gaps { candidate with firstSeq := next }
  | covered :: rest, next, gaps => do
      let (first, last) := ofLex covered
      let gaps ← (if next < first then
        pushGapBounded gaps
          { candidate with firstSeq := next, lastSeq := min candidate.lastSeq (first - 1) }
        else .ok gaps)
      if candidate.lastSeq ≤ last then return gaps
      else
        let next := max next (satAdd u64Max last 1)
        if candidate.lastSeq < next then return gaps
        else pushUncovered candidate rest next gaps

/-- `push_uncovered_gap`. -/
def pushUncoveredGap (gaps : List GapRange) (candidate : GapRange) :
    Except JournalError (List GapRange) :=
  if candidate.lastSeq < candidate.firstSeq then .ok gaps
  else
    let covered := (gaps.filter fun gap =>
      gap.epoch = candidate.epoch ∧ candidate.firstSeq ≤ gap.lastSeq ∧
        gap.firstSeq ≤ candidate.lastSeq).map fun gap => toLex (gap.firstSeq, gap.lastSeq)
    pushUncovered candidate (covered.insertionSort (· ≤ ·)) candidate.firstSeq gaps

end SerialPlatform.Journal
