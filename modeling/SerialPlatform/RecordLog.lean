import Mathlib.Tactic

/-!
# Logs of framed records

A log is a run of frames, and a reader takes one frame off the front of the bytes
which are left.  The scan of a log is the list of the records read before the end
of the bytes or the first frame which is not valid.  When the bytes are cut
anywhere, the scan finds exactly the records whose frames lie before the cut.
-/

namespace RecordLog

variable {α : Type}

/-- What a reader finds at the front of the bytes. -/
inductive Reading (α : Type) where
  | record (value : α)
  | eof
  | invalid (reason : String)

inductive Tail where
  | eof
  | invalid (reason : String)
  deriving DecidableEq

/-- A reading and the number of bytes which it took. -/
abbrev Reader (α : Type) := List UInt8 → Reading α × ℕ

/-- The records of a log, each with its size, and what stands behind them. -/
structure Contents (α : Type) where
  records : List (α × ℕ)
  tail : Tail
  tailBytes : ℕ

namespace Contents

def cons (record : α) (size : ℕ) (contents : Contents α) : Contents α :=
  { contents with records := (record, size) :: contents.records }

def values (contents : Contents α) : List α := contents.records.map Prod.fst

@[simp] theorem cons_records (record : α) (size : ℕ) (contents : Contents α) :
    (contents.cons record size).records = (record, size) :: contents.records := rfl

@[simp] theorem cons_tail (record : α) (size : ℕ) (contents : Contents α) :
    (contents.cons record size).tail = contents.tail := rfl

@[simp] theorem values_cons (record : α) (size : ℕ) (contents : Contents α) :
    (contents.cons record size).values = record :: contents.values := rfl

end Contents

/-- At most `fuel` frames read off the front of the bytes. -/
def scanFrom (read : Reader α) : ℕ → List UInt8 → Contents α
  | 0, _ => { records := [], tail := .eof, tailBytes := 0 }
  | fuel + 1, bytes =>
      match read bytes with
      | (.record record, size) => (scanFrom read fuel (bytes.drop size)).cons record size
      | (.eof, size) => { records := [], tail := .eof, tailBytes := size }
      | (.invalid reason, size) => { records := [], tail := .invalid reason, tailBytes := size }

def scan (read : Reader α) (bytes : List UInt8) : Contents α :=
  scanFrom read (bytes.length + 1) bytes

/-- A record which was read took some of the bytes, and no more than there were. -/
def Advances (read : Reader α) : Prop :=
  ∀ bytes record size, read bytes = (.record record, size) → 0 < size ∧ size ≤ bytes.length

theorem scanFrom_enough {read : Reader α} (hread : Advances read) (fuel : ℕ)
    (bytes : List UInt8) (hfuel : bytes.length < fuel) :
    scanFrom read fuel bytes = scan read bytes := by
  have hmore : ∀ first second bytes, bytes.length < first → bytes.length < second →
      scanFrom read first bytes = scanFrom read second bytes := by
    intro first
    induction first with
    | zero =>
        intro second bytes hfirst
        exact absurd hfirst (Nat.not_lt_zero _)
    | succ first ih =>
        intro second bytes hfirst hsecond
        cases second with
        | zero => exact absurd hsecond (Nat.not_lt_zero _)
        | succ second =>
            unfold scanFrom
            cases hreading : read bytes with
            | mk reading size =>
                cases reading with
                | record record =>
                    have hsize := hread bytes record size hreading
                    have hdrop : (bytes.drop size).length = bytes.length - size :=
                      List.length_drop
                    simp only
                    rw [ih second (bytes.drop size) (by omega) (by omega)]
                | eof => rfl
                | invalid reason => rfl
  exact hmore fuel (bytes.length + 1) bytes hfuel (Nat.lt_succ_self _)

theorem scan_record {read : Reader α} (hread : Advances read) {bytes : List UInt8} {record : α}
    {size : ℕ} (h : read bytes = (.record record, size)) :
    scan read bytes = (scan read (bytes.drop size)).cons record size := by
  have hsize := hread bytes record size h
  have hdrop : (bytes.drop size).length = bytes.length - size := List.length_drop
  rw [← scanFrom_enough hread bytes.length (bytes.drop size) (by omega)]
  conv_lhs => rw [scan, scanFrom, h]

theorem scan_eof {read : Reader α} {bytes : List UInt8} {size : ℕ}
    (h : read bytes = (.eof, size)) :
    scan read bytes = { records := [], tail := .eof, tailBytes := size } := by
  unfold scan scanFrom
  rw [h]

theorem scan_invalid {read : Reader α} {bytes : List UInt8} {reason : String} {size : ℕ}
    (h : read bytes = (.invalid reason, size)) :
    scan read bytes = { records := [], tail := .invalid reason, tailBytes := size } := by
  unfold scan scanFrom
  rw [h]

/-! ## Frames -/

/-- The bytes are the frame of a record: the record is read back whatever follows, and
none of the frame's proper beginnings is taken for a record. -/
structure IsFrame (read : Reader α) (frame : List UInt8) (record : α) : Prop where
  nonempty : 0 < frame.length
  whole : ∀ rest, read (frame ++ rest) = (.record record, frame.length)
  torn : ∀ cut, 0 < cut → cut < frame.length →
    ∃ reason size, read (frame.take cut) = (.invalid reason, size)

/-- A frame beside its record. -/
structure Framed (α : Type) where
  frame : List UInt8
  record : α

def joined (log : List (Framed α)) : List UInt8 := log.flatMap Framed.frame

def sizes (log : List (Framed α)) : List (α × ℕ) :=
  log.map fun entry => (entry.record, entry.frame.length)

@[simp] theorem joined_nil : joined ([] : List (Framed α)) = [] := rfl

@[simp] theorem joined_cons (entry : Framed α) (log : List (Framed α)) :
    joined (entry :: log) = entry.frame ++ joined log := rfl

@[simp] theorem joined_append (log more : List (Framed α)) :
    joined (log ++ more) = joined log ++ joined more := List.flatMap_append

/-- The entries whose frames end at or before an offset. -/
def before : List (Framed α) → ℕ → List (Framed α)
  | [], _ => []
  | entry :: log, cut =>
      if entry.frame.length ≤ cut then entry :: before log (cut - entry.frame.length) else []

theorem before_isPrefix (log : List (Framed α)) (cut : ℕ) : before log cut <+: log := by
  induction log generalizing cut with
  | nil => exact List.prefix_rfl
  | cons entry log ih =>
      unfold before
      split_ifs
      · exact (List.prefix_cons_inj entry).mpr (ih _)
      · exact List.nil_prefix

theorem joined_before_length (log : List (Framed α)) (cut : ℕ) :
    (joined (before log cut)).length ≤ cut := by
  induction log generalizing cut with
  | nil => exact Nat.zero_le _
  | cons entry log ih =>
      unfold before
      split_ifs with hfits
      · have := ih (cut - entry.frame.length)
        rw [joined_cons, List.length_append]
        omega
      · exact Nat.zero_le _

/-- No longer beginning of the log lies before the cut. -/
theorem before_longest {log beginning : List (Framed α)} {cut : ℕ} (hlog : beginning <+: log)
    (hcut : (joined beginning).length ≤ cut) : beginning <+: before log cut := by
  induction log generalizing beginning cut with
  | nil =>
      rw [List.prefix_nil.mp hlog]
      exact List.nil_prefix
  | cons entry log ih =>
      cases beginning with
      | nil => exact List.nil_prefix
      | cons first beginning =>
          obtain ⟨rfl, hrest⟩ := List.cons_prefix_cons.mp hlog
          rw [joined_cons, List.length_append] at hcut
          unfold before
          rw [if_pos (by omega)]
          exact (List.prefix_cons_inj first).mpr (ih hrest (by omega))

theorem before_all {log : List (Framed α)} {cut : ℕ} (hcut : (joined log).length ≤ cut) :
    before log cut = log :=
  (before_isPrefix log cut).eq_of_length_le (before_longest List.prefix_rfl hcut).length_le

/-- The bytes before a cut are the whole frames before it and a beginning of the next. -/
theorem joined_take (log : List (Framed α)) (cut : ℕ) :
    ∃ torn, (joined log).take cut = joined (before log cut) ++ torn ∧
      (torn = [] ∨ ∃ entry ∈ log, ∃ kept, 0 < kept ∧ kept < entry.frame.length ∧
        torn = entry.frame.take kept) := by
  induction log generalizing cut with
  | nil => exact ⟨[], by simp [before], .inl rfl⟩
  | cons entry log ih =>
      unfold before
      rw [joined_cons, List.take_append]
      split_ifs with hfits
      · obtain ⟨torn, htake, htorn⟩ := ih (cut - entry.frame.length)
        refine ⟨torn, ?_, ?_⟩
        · rw [List.take_of_length_le hfits, htake, joined_cons, List.append_assoc]
        · rcases htorn with hnil | ⟨entry', hmem, hkept⟩
          · exact .inl hnil
          · exact .inr ⟨entry', List.mem_cons_of_mem _ hmem, hkept⟩
      · have hbehind : cut - entry.frame.length = 0 := by omega
        rw [hbehind, List.take_zero, List.append_nil]
        refine ⟨entry.frame.take cut, rfl, ?_⟩
        rcases Nat.eq_zero_or_pos cut with hzero | hpos
        · left
          rw [hzero, List.take_zero]
        · exact .inr ⟨entry, List.mem_cons_self, cut, hpos, by omega, rfl⟩

section

variable {read : Reader α}

/-- Frames which are read whole, whatever follows them, lead the scan. -/
theorem scan_whole_append (hread : Advances read) {log : List (Framed α)}
    (hlog : ∀ entry ∈ log, ∀ rest,
      read (entry.frame ++ rest) = (.record entry.record, entry.frame.length))
    (rest : List UInt8) :
    scan read (joined log ++ rest) =
      { scan read rest with records := sizes log ++ (scan read rest).records } := by
  induction log with
  | nil => rfl
  | cons entry log ih =>
      have hentry := hlog entry List.mem_cons_self
      have hrest := ih fun other hother => hlog other (List.mem_cons_of_mem _ hother)
      rw [joined_cons, List.append_assoc, scan_record hread (hentry _), List.drop_left, hrest]
      rfl

theorem scan_joined_append (hread : Advances read) {log : List (Framed α)}
    (hlog : ∀ entry ∈ log, IsFrame read entry.frame entry.record) (rest : List UInt8) :
    scan read (joined log ++ rest) =
      { scan read rest with records := sizes log ++ (scan read rest).records } :=
  scan_whole_append hread (fun entry hentry => (hlog entry hentry).whole) rest

/-- The scan of a log which was cut at any byte: the records whose frames lie before the
cut, and an invalid tail unless the cut falls between two frames. -/
theorem scan_cut (hread : Advances read) (hnil : read [] = (.eof, 0)) {log : List (Framed α)}
    (hlog : ∀ entry ∈ log, IsFrame read entry.frame entry.record) (cut : ℕ) :
    (scan read ((joined log).take cut)).records = sizes (before log cut) := by
  obtain ⟨torn, htake, htorn⟩ := joined_take log cut
  have hbefore : ∀ entry ∈ before log cut, IsFrame read entry.frame entry.record :=
    fun entry hentry => hlog entry ((before_isPrefix log cut).subset hentry)
  rw [htake, scan_joined_append hread hbefore]
  have hnone : (scan read torn).records = [] := by
    rcases htorn with rfl | ⟨entry, hmem, kept, hpos, hlt, rfl⟩
    · rw [scan_eof hnil]
    · obtain ⟨reason, size, hinvalid⟩ := (hlog entry hmem).torn kept hpos hlt
      rw [scan_invalid hinvalid]
  simp only [hnone, List.append_nil]

theorem scan_joined (hread : Advances read) (hnil : read [] = (.eof, 0)) {log : List (Framed α)}
    (hlog : ∀ entry ∈ log, IsFrame read entry.frame entry.record) :
    scan read (joined log) = { records := sizes log, tail := .eof, tailBytes := 0 } := by
  have happend := scan_joined_append hread hlog []
  rw [List.append_nil, scan_eof hnil] at happend
  simpa using happend

/-- Every record of a scan stands where the ones before it end. -/
theorem scan_frames (hread : Advances read) (bytes : List UInt8) :
    ∃ log : List (Framed α), (scan read bytes).records = sizes log ∧ joined log <+: bytes ∧
      ∀ entry ∈ log, ∃ rest, read (entry.frame ++ rest) = (.record entry.record,
        entry.frame.length) := by
  induction hlength : bytes.length using Nat.strong_induction_on generalizing bytes with
  | _ length ih =>
      cases hreading : read bytes with
      | mk reading size =>
          cases reading with
          | record record =>
              obtain ⟨hpos, hle⟩ := hread bytes record size hreading
              obtain ⟨log, hrecords, hjoined, hframes⟩ :=
                ih (bytes.drop size).length (by rw [List.length_drop]; omega) _ rfl
              refine ⟨{ frame := bytes.take size, record := record } :: log, ?_, ?_, ?_⟩
              · rw [scan_record hread hreading, Contents.cons_records, hrecords]
                simp [sizes, hle]
              · rw [joined_cons]
                have happend := (List.prefix_append_right_inj (bytes.take size)).2 hjoined
                rwa [List.take_append_drop] at happend
              · intro entry hentry
                rcases List.mem_cons.1 hentry with rfl | hentry
                · refine ⟨bytes.drop size, ?_⟩
                  simp only [List.take_append_drop, List.length_take, Nat.min_eq_left hle]
                  exact hreading
                · exact hframes entry hentry
          | eof =>
              refine ⟨[], ?_, List.nil_prefix, by simp⟩
              rw [scan_eof hreading]
              rfl
          | invalid reason =>
              refine ⟨[], ?_, List.nil_prefix, by simp⟩
              rw [scan_invalid hreading]
              rfl

end

end RecordLog
