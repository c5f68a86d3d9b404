import SerialPlatform.Utf8Scan

/-!
# Decoding bytes which need not be UTF-8

The bytes are cut into units: the characters, and the ill-formed pieces, each of which
is decoded as a replacement.  A unit is one byte and the tails which follow it.
-/

namespace Utf8Scan

/-- U+FFFD -/
def replacement : Char := '\uFFFD'

/-- The first unit of nonempty bytes: its character, and how many bytes it takes. -/
def unit (bytes : List UInt8) : Char × ℕ :=
  match head bytes with
  | .char value width => (value, width)
  | .invalid length => (replacement, length)
  | .incomplete => (replacement, bytes.length)

/-- The units of the bytes; `fuel` bounds their number. -/
def lossyFor : ℕ → List UInt8 → List Char
  | _, [] => []
  | 0, _ :: _ => []
  | fuel + 1, first :: rest =>
      (unit (first :: rest)).1 :: lossyFor fuel ((first :: rest).drop (unit (first :: rest)).2)

/-- `String::from_utf8_lossy` -/
def lossy (bytes : List UInt8) : List Char := lossyFor bytes.length bytes

@[simp] theorem lossy_nil : lossy [] = [] := rfl

/-! ## Units -/

/-- What a character is made of. -/
inductive Written : List UInt8 → Char → Prop
  | one {first : UInt8} (hfirst : first < 0x80) : Written [first] (value first [])
  | two {first second : UInt8} (hlow : 0xc2 ≤ first) (hhigh : first ≤ 0xdf)
      (hsecond : isSecond first second = true) : Written [first, second] (value first [second])
  | three {first second third : UInt8} (hlow : 0xe0 ≤ first) (hhigh : first ≤ 0xef)
      (hsecond : isSecond first second = true) (hthird : isTail third = true) :
      Written [first, second, third] (value first [second, third])
  | four {first second third fourth : UInt8} (hlow : 0xf0 ≤ first) (hhigh : first ≤ 0xf4)
      (hsecond : isSecond first second = true) (hthird : isTail third = true)
      (hfourth : isTail fourth = true) :
      Written [first, second, third, fourth] (value first [second, third, fourth])

theorem width_eq (first : UInt8) :
    (width first = 1 ∧ first < 0x80) ∨ (width first = 2 ∧ 0xc2 ≤ first ∧ first ≤ 0xdf) ∨
      (width first = 3 ∧ 0xe0 ≤ first ∧ first ≤ 0xef) ∨
      (width first = 4 ∧ 0xf0 ≤ first ∧ first ≤ 0xf4) ∨ width first = 0 := by
  unfold width
  split_ifs with hone htwo hthree hfour
  · exact .inl ⟨rfl, hone⟩
  · exact .inr (.inl ⟨rfl, htwo⟩)
  · exact .inr (.inr (.inl ⟨rfl, hthree⟩))
  · exact .inr (.inr (.inr (.inl ⟨rfl, hfour⟩)))
  · simp

theorem isTail_of_isSecond {first second : UInt8} (h : isSecond first second = true) :
    isTail second = true := by
  unfold isSecond at h
  have hle (a b : UInt8) : a ≤ b ↔ a.toNat ≤ b.toNat := UInt8.le_iff_toNat_le
  split_ifs at h with h1 h2 h3 h4
  · simp only [isTail, Bool.and_eq_true, decide_eq_true_eq, hle] at h ⊢
    have hlow : (0xa0 : UInt8).toNat = 160 := rfl
    have hzero : (0x80 : UInt8).toNat = 128 := rfl
    omega
  · simp only [isTail, Bool.and_eq_true, decide_eq_true_eq, hle] at h ⊢
    have hhigh : (0x9f : UInt8).toNat = 159 := rfl
    have htop : (0xbf : UInt8).toNat = 191 := rfl
    omega
  · simp only [isTail, Bool.and_eq_true, decide_eq_true_eq, hle] at h ⊢
    have hlow : (0x90 : UInt8).toNat = 144 := rfl
    have hzero : (0x80 : UInt8).toNat = 128 := rfl
    omega
  · simp only [isTail, Bool.and_eq_true, decide_eq_true_eq, hle] at h ⊢
    have hhigh : (0x8f : UInt8).toNat = 143 := rfl
    have htop : (0xbf : UInt8).toNat = 191 := rfl
    omega
  · exact h

/-- A character is written by the bytes it takes. -/
theorem written_of_head {bytes : List UInt8} {value : Char} {taken : ℕ}
    (h : head bytes = .char value taken) : Written (bytes.take taken) value ∧ taken ≤ bytes.length := by
  match bytes with
  | [] => cases h
  | first :: rest =>
      rw [head.eq_def] at h
      dsimp only at h
      by_cases hnone : width first = 0
      · rw [if_pos hnone] at h
        cases h
      rw [if_neg hnone] at h
      by_cases hone : width first = 1
      · rw [if_pos hone] at h
        cases h
        have hfirst : first < 0x80 := by
          rcases width_eq first with hw | hw | hw | hw | hw
          · exact hw.2
          all_goals omega
        exact ⟨.one hfirst, by simp⟩
      rw [if_neg hone] at h
      match rest with
      | [] => cases h
      | second :: rest =>
          dsimp only at h
          by_cases hsecond : isSecond first second = true
          swap
          · rw [if_pos hsecond] at h
            cases h
          rw [if_neg (not_not.mpr hsecond)] at h
          by_cases htwo : width first = 2
          · rw [if_pos htwo] at h
            cases h
            rcases width_eq first with hw | hw | hw | hw | hw
            · omega
            · exact ⟨.two hw.2.1 hw.2.2 hsecond, by simp⟩
            all_goals omega
          rw [if_neg htwo] at h
          match rest with
          | [] => cases h
          | third :: rest =>
              dsimp only at h
              by_cases hthird : isTail third = true
              swap
              · rw [if_pos hthird] at h
                cases h
              rw [if_neg (not_not.mpr hthird)] at h
              by_cases hthree : width first = 3
              · rw [if_pos hthree] at h
                cases h
                rcases width_eq first with hw | hw | hw | hw | hw
                · omega
                · omega
                · exact ⟨.three hw.2.1 hw.2.2 hsecond hthird, by simp⟩
                all_goals omega
              rw [if_neg hthree] at h
              match rest with
              | [] => cases h
              | fourth :: rest =>
                  dsimp only at h
                  by_cases hfourth : isTail fourth = true
                  swap
                  · rw [if_pos hfourth] at h
                    cases h
                  rw [if_neg (not_not.mpr hfourth)] at h
                  cases h
                  rcases width_eq first with hw | hw | hw | hw | hw
                  · omega
                  · omega
                  · omega
                  · exact ⟨.four hw.2.1 hw.2.2 hsecond hthird hfourth, by simp⟩
                  · omega

theorem Written.tails {bytes : List UInt8} {value : Char} (h : Written bytes value) :
    ∀ byte ∈ bytes.tail, isTail byte = true := by
  cases h with
  | one hfirst => simp
  | two hlow hhigh hsecond => simpa using isTail_of_isSecond hsecond
  | three hlow hhigh hsecond hthird => simpa using ⟨isTail_of_isSecond hsecond, hthird⟩
  | four hlow hhigh hsecond hthird hfourth =>
      simpa using ⟨isTail_of_isSecond hsecond, hthird, hfourth⟩

theorem Written.length_pos {bytes : List UInt8} {value : Char} (h : Written bytes value) :
    0 < bytes.length := by
  cases h <;> simp

/-- Ill-formed and unfinished bytes too are one byte and tails. -/
theorem unit_tails (bytes : List UInt8) :
    (unit bytes).2 ≤ bytes.length ∧ (bytes ≠ [] → 0 < (unit bytes).2) ∧
      ∀ byte ∈ (bytes.take (unit bytes).2).tail, isTail byte = true := by
  unfold unit
  cases hhead : head bytes with
  | char value taken =>
      obtain ⟨hwritten, hlength⟩ := written_of_head hhead
      refine ⟨hlength, fun _ => ?_, hwritten.tails⟩
      have hpos := hwritten.length_pos
      rw [List.length_take] at hpos
      exact lt_of_lt_of_le hpos (min_le_left _ _)
  | invalid length =>
      dsimp only
      rcases bytes with _ | ⟨first, _ | ⟨second, _ | ⟨third, _ | ⟨fourth, rest⟩⟩⟩⟩
      · cases hhead
      · simp only [head] at hhead
        split_ifs at hhead
        cases hhead
        simp
      · simp only [head] at hhead
        split_ifs at hhead <;> cases hhead <;> simp
      · simp only [head] at hhead
        split_ifs at hhead with h1 h2 h3 h4 h5
        all_goals cases hhead
        · simp
        · simpa using isTail_of_isSecond h3
        · simp
      · simp only [head] at hhead
        split_ifs at hhead with h1 h2 h3 h4 h5 h6 h7
        all_goals cases hhead
        · simp
        · simpa using ⟨isTail_of_isSecond h3, h5⟩
        · simpa using isTail_of_isSecond h3
        · simp
  | incomplete =>
      dsimp only
      refine ⟨le_refl _, List.length_pos_of_ne_nil, ?_⟩
      rw [List.take_length]
      rcases bytes with _ | ⟨first, _ | ⟨second, _ | ⟨third, _ | ⟨fourth, rest⟩⟩⟩⟩
      · simp
      · simp
      · simp only [head] at hhead
        split_ifs at hhead with h1 h2 h3 h4
        simpa using isTail_of_isSecond h3
      · simp only [head] at hhead
        split_ifs at hhead with h1 h2 h3 h4 h5 h6
        simpa using ⟨isTail_of_isSecond h3, h5⟩
      · have hlength := length_of_incomplete hhead
        simp only [List.length_cons] at hlength
        omega

/-! ## The values of characters -/

theorem toNat_ofNat {number : ℕ} (h : number.isValidChar) : (Char.ofNat number).toNat = number := by
  rw [Char.ofNat, dif_pos h]
  rfl

section
variable {first second third fourth : UInt8}

theorem toNat_one (hfirst : first < 0x80) : (value first []).toNat = first.toNat := by
  have hsmall : first.toNat < 128 := UInt8.lt_iff_toNat_lt.mp hfirst
  have hvalue : value first [] = Char.ofNat first.toNat := by
    simp [value, Nat.mod_eq_of_lt hsmall]
  rw [hvalue]
  exact toNat_ofNat (.inl (by omega))

theorem toNat_two : (value first [second]).toNat = first.toNat % 32 * 64 + second.toNat % 64 := by
  have hvalue : value first [second] = Char.ofNat (first.toNat % 32 * 64 + second.toNat % 64) := by
    simp [value]
  rw [hvalue]
  exact toNat_ofNat (.inl (by omega))

/-- Overlong forms are excluded at the second byte, and so are the surrogates. -/
theorem toNat_three (hlow : 0xe0 ≤ first) (hhigh : first ≤ 0xef)
    (hsecond : isSecond first second = true) (hthird : isTail third = true) :
    0x800 ≤ (value first [second, third]).toNat := by
  have hvalue : value first [second, third] =
      Char.ofNat ((first.toNat % 16 * 64 + second.toNat % 64) * 64 + third.toNat % 64) := by
    simp [value]
  have hle (a b : UInt8) : a ≤ b ↔ a.toNat ≤ b.toNat := UInt8.le_iff_toNat_le
  have htail := isTail_of_isSecond hsecond
  simp only [isTail, Bool.and_eq_true, decide_eq_true_eq, hle, UInt8.reduceToNat] at htail hthird
  simp only [hle, UInt8.reduceToNat] at hlow hhigh
  simp only [isSecond, ← UInt8.toNat_inj, UInt8.reduceToNat] at hsecond
  have hvalid : 0x800 ≤ (first.toNat % 16 * 64 + second.toNat % 64) * 64 + third.toNat % 64 ∧
      ((first.toNat % 16 * 64 + second.toNat % 64) * 64 + third.toNat % 64 < 0xd800 ∨
        0xdfff < (first.toNat % 16 * 64 + second.toNat % 64) * 64 + third.toNat % 64) := by
    split_ifs at hsecond
    all_goals
      simp only [Bool.and_eq_true, decide_eq_true_eq, hle, UInt8.reduceToNat, isTail] at hsecond
      omega
  rw [hvalue, toNat_ofNat]
  · exact hvalid.1
  · rcases hvalid.2 with h | h
    · exact .inl h
    · exact .inr ⟨h, by omega⟩

theorem toNat_four (hlow : 0xf0 ≤ first) (hhigh : first ≤ 0xf4)
    (hsecond : isSecond first second = true) (hthird : isTail third = true)
    (hfourth : isTail fourth = true) :
    0x10000 ≤ (value first [second, third, fourth]).toNat := by
  have hvalue : value first [second, third, fourth] =
      Char.ofNat (((first.toNat % 8 * 64 + second.toNat % 64) * 64 + third.toNat % 64) * 64 +
        fourth.toNat % 64) := by
    simp [value]
  have hle (a b : UInt8) : a ≤ b ↔ a.toNat ≤ b.toNat := UInt8.le_iff_toNat_le
  have htail := isTail_of_isSecond hsecond
  simp only [isTail, Bool.and_eq_true, decide_eq_true_eq, hle, UInt8.reduceToNat]
    at htail hthird hfourth
  simp only [hle, UInt8.reduceToNat] at hlow hhigh
  simp only [isSecond, ← UInt8.toNat_inj, UInt8.reduceToNat] at hsecond
  have hvalid : 0x10000 ≤
        ((first.toNat % 8 * 64 + second.toNat % 64) * 64 + third.toNat % 64) * 64 +
          fourth.toNat % 64 ∧
      ((first.toNat % 8 * 64 + second.toNat % 64) * 64 + third.toNat % 64) * 64 +
          fourth.toNat % 64 < 0x110000 := by
    split_ifs at hsecond
    all_goals
      simp only [Bool.and_eq_true, decide_eq_true_eq, hle, UInt8.reduceToNat, isTail] at hsecond
      omega
  rw [hvalue, toNat_ofNat]
  · exact hvalid.1
  · exact .inr ⟨by omega, hvalid.2⟩

end

/-! ## Control characters -/

/-- C0, DEL and C1 -/
def IsControl (character : Char) : Prop :=
  character.toNat < 0x20 ∨ (0x7f ≤ character.toNat ∧ character.toNat ≤ 0x9f)

instance (character : Char) : Decidable (IsControl character) :=
  inferInstanceAs (Decidable (_ ∨ _))

/-- The second bytes of the C1 controls, which start with C2. -/
def IsC1Tail (byte : UInt8) : Prop := 0x80 ≤ byte ∧ byte ≤ 0x9f

instance (byte : UInt8) : Decidable (IsC1Tail byte) := inferInstanceAs (Decidable (_ ∧ _))

theorem not_isControl_replacement : ¬ IsControl replacement := by decide

/-- A control character is one byte, or a C1 control of two bytes. -/
theorem Written.isControl_iff {bytes : List UInt8} {character : Char}
    (h : Written bytes character) :
    IsControl character ↔
      (∃ byte, bytes = [byte] ∧ byte < 0x80 ∧ IsControl (value byte [])) ∨
        ∃ tail, bytes = [0xc2, tail] ∧ IsC1Tail tail := by
  have hle (a b : UInt8) : a ≤ b ↔ a.toNat ≤ b.toNat := UInt8.le_iff_toNat_le
  cases h with
  | one hfirst =>
      constructor
      · exact fun hcontrol => .inl ⟨_, rfl, hfirst, hcontrol⟩
      · rintro (⟨byte, heq, -, hcontrol⟩ | ⟨tail, heq, -⟩)
        · cases heq
          exact hcontrol
        · cases heq
  | @two first second hlow hhigh hsecond =>
      have htail := isTail_of_isSecond hsecond
      simp only [isTail, Bool.and_eq_true, decide_eq_true_eq, hle, UInt8.reduceToNat] at htail
      simp only [hle, UInt8.reduceToNat] at hlow hhigh
      constructor
      · intro hcontrol
        have hnumber : first.toNat = 0xc2 ∧ second.toNat ≤ 0x9f := by
          unfold IsControl at hcontrol
          rw [toNat_two] at hcontrol
          omega
        have hfirst : first = 0xc2 := UInt8.toNat_inj.mp hnumber.1
        refine .inr ⟨second, by rw [hfirst], ?_⟩
        simp only [IsC1Tail, hle, UInt8.reduceToNat]
        exact ⟨htail.1, hnumber.2⟩
      · rintro (⟨byte, heq, -⟩ | ⟨tail, heq, hc1⟩)
        · cases heq
        · cases heq
          simp only [IsC1Tail, hle, UInt8.reduceToNat] at hc1
          unfold IsControl
          rw [toNat_two]
          simp only [UInt8.reduceToNat]
          omega
  | three hlow hhigh hsecond hthird =>
      have hvalue := toNat_three hlow hhigh hsecond hthird
      constructor
      · intro hcontrol
        unfold IsControl at hcontrol
        omega
      · rintro (⟨byte, heq, -⟩ | ⟨tail, heq, -⟩) <;> cases heq
  | four hlow hhigh hsecond hthird hfourth =>
      have hvalue := toNat_four hlow hhigh hsecond hthird hfourth
      constructor
      · intro hcontrol
        unfold IsControl at hcontrol
        omega
      · rintro (⟨byte, heq, -⟩ | ⟨tail, heq, -⟩) <;> cases heq

/-! ## All units -/

/-- More fuel than bytes changes nothing. -/
theorem lossyFor_eq (fuel : ℕ) (bytes : List UInt8) (h : bytes.length ≤ fuel) :
    lossyFor fuel bytes = lossy bytes := by
  induction fuel using Nat.strong_induction_on generalizing bytes with
  | _ fuel ih =>
      match fuel, bytes with
      | _, [] => simp [lossyFor]
      | 0, _ :: _ => simp at h
      | fuel + 1, first :: rest =>
          have hpos := (unit_tails (first :: rest)).2.1 (by simp)
          have hshort : ((first :: rest).drop (unit (first :: rest)).2).length ≤ rest.length := by
            rw [List.length_drop, List.length_cons]
            omega
          have hrest : rest.length ≤ fuel := by simpa using h
          simp only [lossy, List.length_cons, lossyFor]
          rw [ih fuel (by omega) _ (by omega)]
          by_cases heq : rest.length = fuel
          · rw [heq, ih fuel (by omega) _ (by omega)]
          · rw [ih rest.length (by omega) _ hshort]

theorem lossy_eq {bytes : List UInt8} (hsome : bytes ≠ []) :
    lossy bytes = (unit bytes).1 :: lossy (bytes.drop (unit bytes).2) := by
  cases bytes with
  | nil => exact absurd rfl hsome
  | cons first rest =>
      have hpos := (unit_tails (first :: rest)).2.1 hsome
      have hshort : ((first :: rest).drop (unit (first :: rest)).2).length ≤ rest.length := by
        rw [List.length_drop, List.length_cons]
        omega
      rw [lossy, List.length_cons, lossyFor, lossyFor_eq _ _ hshort]

/-- Induction over the units of the bytes. -/
theorem units_induct {motive : List UInt8 → Prop} (hnil : motive [])
    (hunit : ∀ bytes, bytes ≠ [] → motive (bytes.drop (unit bytes).2) → motive bytes)
    (bytes : List UInt8) : motive bytes := by
  induction hlength : bytes.length using Nat.strong_induction_on generalizing bytes with
  | _ length ih =>
      by_cases hsome : bytes = []
      · rw [hsome]
        exact hnil
      · have hpos := (unit_tails bytes).2.1 hsome
        have hpositive := List.length_pos_of_ne_nil hsome
        refine hunit bytes hsome (ih _ ?_ _ rfl)
        rw [List.length_drop]
        omega

/-- The first unit is a control character only where it is a byte or a C1 control. -/
theorem isControl_unit {bytes : List UInt8} (h : IsControl (unit bytes).1) :
    (∃ byte rest, bytes = byte :: rest ∧ byte < 0x80 ∧ (unit bytes).1 = value byte []) ∨
      ∃ tail rest, bytes = 0xc2 :: tail :: rest ∧ IsC1Tail tail := by
  unfold unit at h ⊢
  cases hhead : head bytes with
  | invalid length =>
      rw [hhead] at h
      exact absurd h not_isControl_replacement
  | incomplete =>
      rw [hhead] at h
      exact absurd h not_isControl_replacement
  | char character taken =>
      rw [hhead] at h
      obtain ⟨hwritten, hlength⟩ := written_of_head hhead
      have hbytes := List.take_append_drop taken bytes
      rcases hwritten.isControl_iff.mp h with ⟨byte, heq, hlow, -⟩ | ⟨tail, heq, hc1⟩
      · rw [heq] at hbytes hwritten
        refine .inl ⟨byte, bytes.drop taken, hbytes.symm, hlow, ?_⟩
        cases hwritten
        rfl
      · rw [heq] at hbytes
        exact .inr ⟨tail, bytes.drop taken, hbytes.symm, hc1⟩

/-- A control character in the text is one of the bytes, or a C1 control of two bytes. -/
theorem isControl_of_mem_lossy {bytes : List UInt8} {character : Char}
    (hmem : character ∈ lossy bytes) (h : IsControl character) :
    (∃ byte ∈ bytes, byte < 0x80 ∧ character = value byte []) ∨
      ∃ before tail after, bytes = before ++ 0xc2 :: tail :: after ∧ IsC1Tail tail := by
  induction bytes using units_induct with
  | hnil => cases hmem
  | hunit bytes hsome ih =>
      rw [lossy_eq hsome] at hmem
      rcases List.mem_cons.mp hmem with heq | hrest
      · rw [heq] at h
        rcases isControl_unit h with ⟨byte, rest, hbytes, hlow, hvalue⟩ | ⟨tail, rest, hbytes, hc1⟩
        · refine .inl ⟨byte, ?_, hlow, heq.trans hvalue⟩
          rw [hbytes]
          exact List.mem_cons_self
        · exact .inr ⟨[], tail, rest, hbytes, hc1⟩
      · rcases ih hrest with ⟨byte, hbyte, hlow⟩ | ⟨before, tail, after, hbytes, hc1⟩
        · exact .inl ⟨byte, List.mem_of_mem_drop hbyte, hlow⟩
        · refine .inr ⟨bytes.take (unit bytes).2 ++ before, tail, after, ?_, hc1⟩
          rw [List.append_assoc, ← hbytes, List.take_append_drop]

/-- The bytes of a C1 control are a unit wherever they stand. -/
theorem exists_c1_mem_lossy {bytes before after : List UInt8} {tail : UInt8}
    (hbytes : bytes = before ++ 0xc2 :: tail :: after) (hc1 : IsC1Tail tail) :
    ∃ character ∈ lossy bytes, 0x80 ≤ character.toNat ∧ character.toNat ≤ 0x9f := by
  induction bytes using units_induct generalizing before with
  | hnil => simp at hbytes
  | hunit bytes hsome ih =>
      have hle (a b : UInt8) : a ≤ b ↔ a.toNat ≤ b.toNat := UInt8.le_iff_toNat_le
      rw [lossy_eq hsome]
      by_cases hinside : (unit bytes).2 ≤ before.length
      · have hdrop : bytes.drop (unit bytes).2 =
            before.drop (unit bytes).2 ++ 0xc2 :: tail :: after := by
          rw [hbytes] at hinside ⊢
          exact List.drop_append_of_le_length hinside
        obtain ⟨character, hmem, hcontrol⟩ := ih hdrop
        exact ⟨character, List.mem_cons_of_mem _ hmem, hcontrol⟩
      · cases before with
        | nil =>
            rw [List.nil_append] at hbytes
            have hsecond : isSecond 0xc2 tail = true := by
              simp only [IsC1Tail, hle, UInt8.reduceToNat] at hc1
              have heq : isSecond 0xc2 tail = isTail tail := rfl
              simp only [heq, isTail, Bool.and_eq_true, decide_eq_true_eq, hle, UInt8.reduceToNat]
              omega
            have hwidth : width 0xc2 = 2 := rfl
            have hunit : (unit bytes).1 = value 0xc2 [tail] := by
              rw [hbytes]
              simp [unit, head, hwidth, hsecond]
            refine ⟨_, List.mem_cons_self, ?_⟩
            simp only [IsC1Tail, hle, UInt8.reduceToNat] at hc1
            rw [hunit, toNat_two]
            simp only [UInt8.reduceToNat]
            omega
        | cons first rest =>
            -- the first byte of the pair would be a tail of the unit before it
            exfalso
            have hmem : (0xc2 : UInt8) ∈ (bytes.take (unit bytes).2).tail := by
              rw [hbytes]
              rw [hbytes] at hinside
              obtain ⟨more, hmore⟩ := Nat.exists_eq_add_of_lt (not_le.mp hinside)
              rw [hmore]
              have htake : ((first :: rest) ++ 0xc2 :: tail :: after).take
                  ((first :: rest).length + more + 1) =
                  first :: (rest ++ 0xc2 :: (tail :: after).take more) := by
                rw [Nat.add_assoc, List.take_length_add_append]
                rfl
              rw [htake]
              simp
            have htail := (unit_tails bytes).2.2 _ hmem
            exact absurd htail (by decide)

end Utf8Scan
