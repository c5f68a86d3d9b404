import SerialPlatform.FileStore
import SerialPlatform.JournalFormat

/-!
# The ledger of gaps

One line of JSON for each range of sequence numbers which was never written or has
been deleted.  The ledger is read in pieces of bounded length.
-/

namespace SerialPlatform.Journal

abbrev Disk := FileStore Path

def newline : UInt8 := 10

def maxGapLedgerLineBytes : ℕ := 64 * 1024

/-- `serde_json::to_vec` of a gap with its newline. -/
def gapLine (codec : Codec) (gap : StoredGap) : Bytes := codec.gapToVec gap ++ [newline]

/-- One `read_until` behind `take`: through the next newline, or as far as the bound. -/
def ledgerPiece (bytes : Bytes) : Bytes :=
  let window := bytes.take (maxGapLedgerLineBytes + 1)
  let line := window.takeWhile (· ≠ newline)
  if line.length < window.length then line ++ [newline] else window

def ledgerPiecesFrom : ℕ → Bytes → List Bytes
  | 0, _ => []
  | fuel + 1, bytes =>
      match ledgerPiece bytes with
      | [] => []
      | piece => piece :: ledgerPiecesFrom fuel (bytes.drop piece.length)

def ledgerPieces (bytes : Bytes) : List Bytes := ledgerPiecesFrom bytes.length bytes

/-- What recovery takes for a valid line. -/
def validGapLine (codec : Codec) (line : Bytes) : Bool :=
  match codec.gapFromSlice line with
  | some gap => validatePort gap.port = .ok () ∧ gap.firstSeq ≤ gap.lastSeq
  | none => false

/-- The end of the last valid line; `discarding` is set inside an oversized line. -/
def lastValidEnd (codec : Codec) : List Bytes → ℕ → ℕ → Bool → ℕ
  | [], _, validEnd, _ => validEnd
  | piece :: pieces, offset, validEnd, discarding =>
      let complete := piece.getLast? = some newline
      if discarding ∨ maxGapLedgerLineBytes < piece.length then
        lastValidEnd codec pieces (offset + piece.length) validEnd (!complete)
      else if ¬complete then validEnd
      else if validGapLine codec piece.dropLast then
        lastValidEnd codec pieces (offset + piece.length) (offset + piece.length) false
      else lastValidEnd codec pieces (offset + piece.length) validEnd false

/-- `recover_gap_ledger_file`: what stays of the ledger. -/
def recoveredLedger (codec : Codec) (ledger : Bytes) : Bytes :=
  ledger.take (lastValidEnd codec (ledgerPieces ledger) 0 0 false)

theorem recoveredLedger_length_le (codec : Codec) (ledger : Bytes) :
    (recoveredLedger codec ledger).length ≤ ledger.length := by
  rw [recoveredLedger, List.length_take]
  exact min_le_right _ _

end SerialPlatform.Journal
