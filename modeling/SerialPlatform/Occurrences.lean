import Mathlib.Data.List.Infix
import Mathlib.Data.Nat.Lattice
import Mathlib.Order.Bounds.Basic
import Mathlib.Tactic

/-!
# Where a word occurs in a stream

An occurrence is named by the number of elements after which it ends.  Such a
number does not depend on what follows, so the occurrences of a stream which is
still being received are those of what was received so far; and an occurrence
lies in every window that starts no later than it does.
-/

namespace SerialPlatform

variable {α : Type*} {pattern stream more : List α} {patterns : List (List α)}
  {stop back seen longest : ℕ}

/-- An occurrence of `pattern` ends after the first `stop` elements. -/
def EndsAt (pattern stream : List α) (stop : ℕ) : Prop :=
  stop ≤ stream.length ∧ pattern <:+ stream.take stop

/-- Where the occurrences of any word of `patterns` end. -/
def someEnds (patterns : List (List α)) (stream : List α) : Set ℕ :=
  {stop | ∃ pattern ∈ patterns, EndsAt pattern stream stop}

namespace EndsAt

theorem length_le (hends : EndsAt pattern stream stop) : pattern.length ≤ stop := by
  have hlength := hends.2.length_le
  simp only [List.length_take] at hlength
  omega

theorem append_iff (hstop : stop ≤ stream.length) :
    EndsAt pattern (stream ++ more) stop ↔ EndsAt pattern stream stop := by
  have hlong : stop ≤ (stream ++ more).length := by
    simp only [List.length_append]
    omega
  simp only [EndsAt, hstop, hlong, true_and, List.take_append_of_le_length hstop]

/-- A window which starts no later than the occurrence keeps it. -/
theorem drop (hends : EndsAt pattern stream stop) (hback : back + pattern.length ≤ stop) :
    EndsAt pattern (stream.drop back) (stop - back) := by
  have hstop := hends.1
  have hwindow : (stream.drop back).take (stop - back) = (stream.take stop).drop back := by
    rw [List.drop_take]
  constructor
  · simp only [List.length_drop]
    omega
  · rw [hwindow]
    apply List.suffix_of_suffix_length_le hends.2 (List.drop_suffix back _)
    simp only [List.length_drop, List.length_take]
    omega

theorem of_drop (hends : EndsAt pattern (stream.drop back) stop)
    (hback : back ≤ stream.length) : EndsAt pattern stream (back + stop) := by
  have hstop := hends.1
  simp only [List.length_drop] at hstop
  constructor
  · omega
  · have hwindow : (stream.drop back).take stop = (stream.take (back + stop)).drop back := by
      rw [List.drop_take, Nat.add_sub_cancel_left]
    have hword := hends.2
    rw [hwindow] at hword
    exact hword.trans (List.drop_suffix back _)

end EndsAt

theorem infix_iff_endsAt : pattern <:+: stream ↔ ∃ stop, EndsAt pattern stream stop := by
  constructor
  · intro hinside
    obtain ⟨before, after, hstream⟩ := hinside
    refine ⟨(before ++ pattern).length, ?_, ?_⟩
    · rw [← hstream]
      simp
    · rw [← hstream, List.take_left]
      exact List.suffix_append before pattern
  · intro hends
    obtain ⟨stop, -, hsuffix⟩ := hends
    exact hsuffix.isInfix.trans (List.take_prefix stop stream).isInfix

/-- A window that starts no later than the occurrence contains the word. -/
theorem EndsAt.infix_drop (hends : EndsAt pattern stream stop)
    (hback : back + pattern.length ≤ stop) : pattern <:+: stream.drop back :=
  infix_iff_endsAt.2 ⟨_, hends.drop hback⟩

/-- A word in a window ends, in the stream, at least its length after the
window's start. -/
theorem exists_endsAt_of_infix_drop (hback : back ≤ stream.length)
    (hinside : pattern <:+: stream.drop back) :
    ∃ stop, back + pattern.length ≤ stop ∧ EndsAt pattern stream stop := by
  obtain ⟨stop, hends⟩ := infix_iff_endsAt.1 hinside
  have hlength := hends.length_le
  exact ⟨back + stop, by omega, hends.of_drop hback⟩

theorem mem_someEnds_append_iff (hstop : stop ≤ stream.length) :
    stop ∈ someEnds patterns (stream ++ more) ↔ stop ∈ someEnds patterns stream := by
  simp only [someEnds, Set.mem_setOf_eq, EndsAt.append_iff hstop]

theorem le_length_of_mem_someEnds (hends : stop ∈ someEnds patterns stream) :
    stop ≤ stream.length := by
  obtain ⟨pattern, -, hends⟩ := hends
  exact hends.1

/-- What ends in a stream in which nothing ended before ends in the new part. -/
theorem length_lt_of_mem_someEnds (hnone : someEnds patterns stream = ∅)
    (hends : stop ∈ someEnds patterns (stream ++ more)) : stream.length < stop := by
  by_contra hold
  have hbefore := (mem_someEnds_append_iff (Nat.not_lt.1 hold)).1 hends
  rw [hnone] at hbefore
  exact hbefore

/-- The part of a stream in which an occurrence ends first holds the end of the
first occurrence of the whole stream. -/
theorem first_part_iff {part : List α} :
    (someEnds patterns stream = ∅ ∧ (someEnds patterns (stream ++ part)).Nonempty) ↔
      ∃ stop, IsLeast (someEnds patterns (stream ++ part ++ more)) stop ∧
        stream.length < stop ∧ stop ≤ stream.length + part.length := by
  have hpart : ∀ {stop : ℕ}, stop ≤ stream.length + part.length →
      stop ≤ (stream ++ part).length := by
    intro stop hstop
    rwa [List.length_append]
  constructor
  · intro hfirst
    have hnone := hfirst.1
    have hleast : IsLeast (someEnds patterns (stream ++ part))
        (sInf (someEnds patterns (stream ++ part))) := by
      constructor
      · exact Nat.sInf_mem hfirst.2
      · intro other hother
        exact Nat.sInf_le hother
    have hstop := le_length_of_mem_someEnds hleast.1
    have hnew := length_lt_of_mem_someEnds hnone hleast.1
    refine ⟨_, ⟨(mem_someEnds_append_iff hstop).2 hleast.1, ?_⟩, hnew, ?_⟩
    · intro other hother
      by_cases hold : other ≤ (stream ++ part).length
      · exact hleast.2 ((mem_someEnds_append_iff hold).1 hother)
      · omega
    · rwa [List.length_append] at hstop
  · intro hfirst
    obtain ⟨stop, hleast, hnew, hstop⟩ := hfirst
    constructor
    · apply Set.eq_empty_of_forall_notMem
      intro other hother
      have hold := le_length_of_mem_someEnds hother
      have hlater : other ∈ someEnds patterns (stream ++ part ++ more) := by
        rw [List.append_assoc]
        exact (mem_someEnds_append_iff hold).2 hother
      have hle := hleast.2 hlater
      omega
    · exact ⟨stop, (mem_someEnds_append_iff (hpart hstop)).1 hleast.1⟩

end SerialPlatform
