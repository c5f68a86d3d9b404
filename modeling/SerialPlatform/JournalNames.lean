import SerialPlatform.JsonText

/-!
# The files of the journal

Segments lie in one directory for each port and daemon epoch.  The name of a
segment file carries its first sequence number, and that of a sealed one also its
last, so that a query can pass over a file without opening it.  A file name is the
list of its characters.
-/

namespace SerialPlatform.Journal

abbrev FileName := List Char

/-- The directories below the journal's root. -/
inductive Directory where
  | root
  | slot (port : String)
  | epoch (port : String) (epoch : Uuid)
  | other (components : List String)
  deriving DecidableEq

structure Path where
  directory : Directory
  name : FileName
  deriving DecidableEq

/-! ## Directories -/

def slotsRoot : List String := ["slots"]

def slotDir (port : String) : List String := slotsRoot ++ ["slot-" ++ HexName.ofText port]

def epochDir (port : String) (epoch : Uuid) : List String := slotDir port ++ [uuidText epoch]

def Directory.components : Directory → List String
  | .root => []
  | .slot port => slotDir port
  | .epoch port daemonEpoch => epochDir port daemonEpoch
  | .other components => components

/-- Whether a directory is searched from `slot_dir`. -/
def Directory.isBelowSlot (port : String) : Directory → Bool
  | .slot port' => port' = port
  | .epoch port' _ => port' = port
  | _ => false

/-! ## File names -/

/-- `{:020}`. -/
def padded (n : ℕ) : List Char :=
  let digits := Nat.toDigits 10 n
  List.replicate (20 - digits.length) '0' ++ digits

def openExtension : List Char := ['o', 'p', 'e', 'n']

def sealedExtension : List Char := ['s', 'l', 'o', 'g']

def openName (firstSeq : ℕ) (segmentId : Uuid) : FileName :=
  padded firstSeq ++ '-' :: (uuidText segmentId).toList ++ '.' :: openExtension

def sealedName (firstSeq lastSeq : ℕ) (segmentId : Uuid) : FileName :=
  padded firstSeq ++ '-' :: (padded lastSeq ++ '-' :: (uuidText segmentId).toList) ++
    '.' :: sealedExtension

/-- The parts of a file name before and after its last dot, as `file_stem` and
`extension` give them. -/
def splitExtension (name : FileName) : List Char × Option (List Char) :=
  let extension := (name.reverse.takeWhile (· ≠ '.')).reverse
  match (name.reverse.dropWhile (· ≠ '.')).reverse.dropLast with
  | [] => (name, none)
  | stem => (stem, some extension)

def Path.stem (path : Path) : List Char := (splitExtension path.name).1

def Path.extension (path : Path) : Option (List Char) := (splitExtension path.name).2

def Path.isSealed (path : Path) : Bool := path.extension = some sealedExtension

def Path.isOpen (path : Path) : Bool := path.extension = some openExtension

def gapLedgerPath : Path := { directory := .root, name := "retention-gaps.jsonl".toList }

def humanHistoryPath : Path := { directory := .root, name := "human-history.json".toList }

/-- The files which do not count towards the retention budget. -/
def isHistoryMetadata (path : Path) : Bool :=
  match path.directory with
  | .root => path.name = "agent-history-checkpoint.json".toList
  | .other (component :: _) => component = "agent-history"
  | _ => false

/-! ## Reading the names -/

def isDigit (c : Char) : Bool := '0' ≤ c && c ≤ '9'

/-- `str::parse::<u64>`. -/
def parseU64 (text : List Char) : Option ℕ :=
  let digits := match text with
    | '+' :: digits => digits
    | digits => digits
  if digits ≠ [] ∧ digits.all isDigit then
    let value := Nat.ofDigitChars 10 digits 0
    if value ≤ u64Max then some value else none
  else none

/-- The part before the first dash, and what stands behind it. -/
def splitDash (text : List Char) : List Char × Option (List Char) :=
  match text.dropWhile (· ≠ '-') with
  | [] => (text, none)
  | _ :: rest => (text.takeWhile (· ≠ '-'), some rest)

def parseSealedSeqRange (path : Path) : Option (ℕ × ℕ) := do
  let (first, rest) := splitDash path.stem
  let first ← parseU64 first
  let last ← parseU64 (splitDash (← rest)).1
  return (first, last)

def parseSealedLastSeq (path : Path) : Option ℕ := (parseSealedSeqRange path).map Prod.snd

def parseSegmentFirstSeq (path : Path) : Option ℕ := parseU64 (splitDash path.stem).1

/-! ## What the names say -/

theorem splitExtension_append {stem extension : List Char} (hstem : stem ≠ [])
    (hextension : '.' ∉ extension) :
    splitExtension (stem ++ '.' :: extension) = (stem, some extension) := by
  have hall : ∀ c ∈ extension.reverse, (decide (c ≠ '.')) = true := by
    intro c hc
    rw [decide_eq_true_eq]
    intro hdot
    rw [hdot] at hc
    exact hextension (List.mem_reverse.mp hc)
  have hreverse : (stem ++ '.' :: extension).reverse = extension.reverse ++ '.' :: stem.reverse := by
    simp
  have htake : (extension.reverse ++ '.' :: stem.reverse).takeWhile (· ≠ '.') =
      extension.reverse := by
    rw [List.takeWhile_append_of_pos hall]
    simp
  have hdrop : (extension.reverse ++ '.' :: stem.reverse).dropWhile (· ≠ '.') =
      '.' :: stem.reverse := by
    rw [List.dropWhile_append_of_pos hall]
    simp
  unfold splitExtension
  rw [hreverse, htake, hdrop]
  simp only [List.reverse_cons, List.reverse_reverse, List.dropLast_concat]

theorem splitDash_append {before rest : List Char} (hbefore : '-' ∉ before) :
    splitDash (before ++ '-' :: rest) = (before, some rest) := by
  have hall : ∀ c ∈ before, (decide (c ≠ '-')) = true := by
    intro c hc
    rw [decide_eq_true_eq]
    intro hdash
    rw [hdash] at hc
    exact hbefore hc
  unfold splitDash
  rw [List.dropWhile_append_of_pos hall, List.takeWhile_append_of_pos hall]
  simp

theorem isDigit_of_mem_padded {n : ℕ} {c : Char} (hc : c ∈ padded n) : isDigit c = true := by
  unfold padded at hc
  rcases List.mem_append.mp hc with hzero | hdigit
  · rw [(List.mem_replicate.mp hzero).2]
    decide
  · have h := Nat.isDigit_of_mem_toDigits (by norm_num) (by norm_num) hdigit
    simpa [isDigit, Char.isDigit, Char.le_def] using h

theorem dash_notMem_padded (n : ℕ) : '-' ∉ padded n := fun h => by
  have := isDigit_of_mem_padded h
  revert this
  decide

theorem padded_ne_nil (n : ℕ) : padded n ≠ [] := by
  intro h
  exact Nat.toDigits_ne_nil (List.append_eq_nil_iff.mp h).2

theorem parseU64_padded {n : ℕ} (hn : n ≤ u64Max) : parseU64 (padded n) = some n := by
  have hvalue : Nat.ofDigitChars 10 (padded n) 0 = n := by
    simp [padded, Nat.ofDigitChars_append]
  have hplain : (match padded n with
      | '+' :: digits => digits
      | digits => digits) = padded n := by
    split
    · rename_i digits heq
      have hplus : isDigit '+' = true :=
        isDigit_of_mem_padded (n := n) (by rw [heq]; exact List.mem_cons_self)
      exact absurd hplus (by decide)
    · rfl
  unfold parseU64
  rw [hplain, if_pos ⟨padded_ne_nil n, List.all_eq_true.mpr fun c hc => isDigit_of_mem_padded hc⟩]
  simp only [hvalue]
  rw [if_pos hn]

section

variable (directory : Directory) (firstSeq lastSeq : ℕ) (segmentId : Uuid)

theorem splitExtension_openName :
    splitExtension (openName firstSeq segmentId) =
      (padded firstSeq ++ '-' :: (uuidText segmentId).toList, some openExtension) :=
  splitExtension_append (by simp) (by decide)

theorem splitExtension_sealedName :
    splitExtension (sealedName firstSeq lastSeq segmentId) =
      (padded firstSeq ++ '-' :: (padded lastSeq ++ '-' :: (uuidText segmentId).toList),
        some sealedExtension) :=
  splitExtension_append (by simp) (by decide)

@[simp] theorem isOpen_openName : (Path.mk directory (openName firstSeq segmentId)).isOpen = true := by
  simp [Path.isOpen, Path.extension, splitExtension_openName]

@[simp] theorem isSealed_openName :
    (Path.mk directory (openName firstSeq segmentId)).isSealed = false := by
  simp [Path.isSealed, Path.extension, splitExtension_openName]
  decide

@[simp] theorem isOpen_sealedName :
    (Path.mk directory (sealedName firstSeq lastSeq segmentId)).isOpen = false := by
  simp [Path.isOpen, Path.extension, splitExtension_sealedName]
  decide

@[simp] theorem isSealed_sealedName :
    (Path.mk directory (sealedName firstSeq lastSeq segmentId)).isSealed = true := by
  simp [Path.isSealed, Path.extension, splitExtension_sealedName]

variable {firstSeq lastSeq}

theorem parseSealedSeqRange_sealedName (hfirst : firstSeq ≤ u64Max) (hlast : lastSeq ≤ u64Max) :
    parseSealedSeqRange ⟨directory, sealedName firstSeq lastSeq segmentId⟩ =
      some (firstSeq, lastSeq) := by
  unfold parseSealedSeqRange Path.stem
  rw [splitExtension_sealedName, splitDash_append (dash_notMem_padded firstSeq)]
  simp only [Option.bind_eq_bind, Option.bind_some]
  rw [splitDash_append (dash_notMem_padded lastSeq), parseU64_padded hfirst, parseU64_padded hlast]
  rfl

theorem parseSegmentFirstSeq_openName (hfirst : firstSeq ≤ u64Max) :
    parseSegmentFirstSeq ⟨directory, openName firstSeq segmentId⟩ = some firstSeq := by
  unfold parseSegmentFirstSeq Path.stem
  rw [splitExtension_openName, splitDash_append (dash_notMem_padded firstSeq),
    parseU64_padded hfirst]

end

/-! ## Names tell segments apart -/

theorem padded_injective : Function.Injective padded := by
  intro a b h
  have hvalue : ∀ n, Nat.ofDigitChars 10 (padded n) 0 = n := by
    intro n
    simp [padded, Nat.ofDigitChars_append]
  rw [← hvalue a, ← hvalue b, h]

theorem mod_pow_eq_of_digits {a b : ℕ} (h : ∀ k < 32, a / 16 ^ k % 16 = b / 16 ^ k % 16) :
    ∀ k ≤ 32, a % 16 ^ k = b % 16 ^ k := by
  intro k
  induction k with
  | zero =>
      intro _
      rw [Nat.pow_zero, Nat.mod_one, Nat.mod_one]
  | succ k ih =>
      intro hk
      rw [Nat.mod_pow_succ, Nat.mod_pow_succ, ih (by omega), h k (by omega)]

theorem uuidDigits_inj {a b : Uuid} (ha : a < 2 ^ 128) (hb : b < 2 ^ 128)
    (h : uuidDigits a = uuidDigits b) : a = b := by
  have hdigit : ∀ k < 32, a / 16 ^ k % 16 = b / 16 ^ k % 16 := by
    intro k hk
    have hmem : 31 - k ∈ List.range 32 := List.mem_range.mpr (by omega)
    have hdigits := List.map_inj_left.mp h (31 - k) hmem
    have hindex : 31 - (31 - k) = k := by omega
    rw [hindex] at hdigits
    exact HexName.digit_inj _ (Nat.mod_lt _ (by norm_num)) _ (Nat.mod_lt _ (by norm_num)) hdigits
  have hmod := mod_pow_eq_of_digits hdigit 32 le_rfl
  have hpow : (16 : ℕ) ^ 32 = 2 ^ 128 := by norm_num
  rw [hpow, Nat.mod_eq_of_lt ha, Nat.mod_eq_of_lt hb] at hmod
  exact hmod

theorem uuidText_inj {a b : Uuid} (ha : a < 2 ^ 128) (hb : b < 2 ^ 128)
    (h : uuidText a = uuidText b) : a = b := by
  have hlength : ∀ id, (uuidDigits id).length = 32 := by
    intro id
    simp [uuidDigits]
  have hchars := String.ofList_injective h
  have htake : ∀ (n m : ℕ) (id : Uuid), n + m ≤ 32 →
      (((uuidDigits id).drop n).take m).length = m := by
    intro n m id hn
    rw [List.length_take, List.length_drop, hlength]
    omega
  have htake0 : ∀ id, ((uuidDigits id).take 8).length = 8 := fun id => htake 0 8 id (by norm_num)
  simp only [List.append_assoc, List.cons_append] at hchars
  obtain ⟨h1, hrest⟩ := List.append_inj hchars (by rw [htake0, htake0])
  obtain ⟨h2, hrest⟩ := List.append_inj (List.cons.inj hrest).2
    (by rw [htake 8 4 a (by norm_num), htake 8 4 b (by norm_num)])
  obtain ⟨h3, hrest⟩ := List.append_inj (List.cons.inj hrest).2
    (by rw [htake 12 4 a (by norm_num), htake 12 4 b (by norm_num)])
  obtain ⟨h4, hrest⟩ := List.append_inj (List.cons.inj hrest).2
    (by rw [htake 16 4 a (by norm_num), htake 16 4 b (by norm_num)])
  have h5 := (List.cons.inj hrest).2
  apply uuidDigits_inj ha hb
  have hsplit : ∀ id : Uuid, uuidDigits id = (uuidDigits id).take 8 ++
      (((uuidDigits id).drop 8).take 4 ++ (((uuidDigits id).drop 12).take 4 ++
        (((uuidDigits id).drop 16).take 4 ++ (uuidDigits id).drop 20))) := by
    intro id
    have hjoin : ∀ n m (l : List Char), (l.drop n).take m ++ l.drop (n + m) = l.drop n := by
      intro n m l
      rw [← List.drop_drop, List.take_append_drop]
    rw [hjoin 16 4, hjoin 12 4, hjoin 8 4, List.take_append_drop]
  rw [hsplit a, hsplit b, h1, h2, h3, h4, h5]

theorem sealedName_inj {first last first' last' : ℕ} {id id' : Uuid}
    (h : sealedName first last id = sealedName first' last' id') :
    first = first' ∧ last = last' ∧ uuidText id = uuidText id' := by
  have hstem := congrArg (fun name => (splitExtension name).1) h
  simp only [splitExtension_sealedName] at hstem
  have hfirst := congrArg splitDash hstem
  rw [splitDash_append (dash_notMem_padded first), splitDash_append (dash_notMem_padded first'),
    Prod.mk.injEq, Option.some.injEq] at hfirst
  have hlast := congrArg splitDash hfirst.2
  rw [splitDash_append (dash_notMem_padded last), splitDash_append (dash_notMem_padded last'),
    Prod.mk.injEq, Option.some.injEq] at hlast
  exact ⟨padded_injective hfirst.1, padded_injective hlast.1, String.toList_inj.mp hlast.2⟩

theorem openName_inj {first first' : ℕ} {id id' : Uuid} (h : openName first id = openName first' id') :
    first = first' ∧ uuidText id = uuidText id' := by
  have hstem := congrArg (fun name => (splitExtension name).1) h
  simp only [splitExtension_openName] at hstem
  have hfirst := congrArg splitDash hstem
  rw [splitDash_append (dash_notMem_padded first), splitDash_append (dash_notMem_padded first'),
    Prod.mk.injEq, Option.some.injEq] at hfirst
  exact ⟨padded_injective hfirst.1, String.toList_inj.mp hfirst.2⟩

end SerialPlatform.Journal
