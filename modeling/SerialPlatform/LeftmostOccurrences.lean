import SerialPlatform.Occurrences

/-!
# The leftmost occurrences of a word

From left to right, each occurrence which does not overlap the one taken before it.  They
are told by what they cover, so a search which goes on where it stopped can be
compared with one search of the whole stream.
-/

namespace SerialPlatform

variable {α : Type*} {pattern stream more : List α} {stops others news : List ℕ}
  {start stop origin : ℕ}

theorem endsAt_add_iff (hpattern : pattern ≠ []) :
    EndsAt pattern stream (start + pattern.length) ↔ pattern <+: stream.drop start := by
  have hpositive : 0 < pattern.length := List.length_pos_iff.mpr hpattern
  have hwindow : (stream.drop start).take pattern.length =
      (stream.take (start + pattern.length)).drop start := by
    rw [List.drop_take, Nat.add_sub_cancel_left]
  constructor
  · rintro ⟨hstop, hsuffix⟩
    have hdropped : (stream.take (start + pattern.length)).length - pattern.length = start := by
      rw [List.length_take]
      omega
    rw [List.suffix_iff_eq_drop, hdropped, ← hwindow] at hsuffix
    exact List.prefix_iff_eq_take.mpr hsuffix
  · intro hbegins
    have hlength := hbegins.length_le
    rw [List.length_drop] at hlength
    have hword : pattern = (stream.take (start + pattern.length)).drop start := by
      rw [← hwindow]
      exact List.prefix_iff_eq_take.mp hbegins
    have hsuffix : (stream.take (start + pattern.length)).drop start <:+
        stream.take (start + pattern.length) := List.drop_suffix _ _
    rw [← hword] at hsuffix
    exact ⟨by omega, hsuffix⟩

/-- The occurrences which are taken from left to right among those which start at
`origin` or behind it, named by where they end. -/
structure IsLeftmost (pattern stream : List α) (origin : ℕ) (stops : List ℕ) : Prop where
  occurs : ∀ stop ∈ stops, EndsAt pattern stream stop
  behind : ∀ stop ∈ stops, origin + pattern.length ≤ stop
  apart : stops.Pairwise fun before after => before + pattern.length ≤ after
  covers : ∀ stop, EndsAt pattern stream stop → origin + pattern.length ≤ stop →
    ∃ taken ∈ stops, taken ≤ stop ∧ stop < taken + pattern.length

/-- The order of numbers which stand apart. -/
theorem add_le_of_apart {gap before after : ℕ}
    (hapart : stops.Pairwise fun before after => before + gap ≤ after)
    (hbefore : before ∈ stops) (hafter : after ∈ stops) (hlt : before < after) :
    before + gap ≤ after := by
  induction stops with
  | nil => cases hbefore
  | cons first stops ih =>
      obtain ⟨hfirst, hapart⟩ := List.pairwise_cons.mp hapart
      rcases List.mem_cons.mp hbefore with rfl | hbeforeRest
      · rcases List.mem_cons.mp hafter with rfl | hafterRest
        · omega
        · exact hfirst after hafterRest
      · rcases List.mem_cons.mp hafter with rfl | hafterRest
        · have hback := hfirst before hbeforeRest
          omega
        · exact ih hapart hbeforeRest hafterRest

namespace IsLeftmost

theorem mem_of_mem (h : IsLeftmost pattern stream origin stops)
    (hothers : IsLeftmost pattern stream origin others)
    (hsame : ∀ taken < stop, taken ∈ others → taken ∈ stops) (hstop : stop ∈ stops) :
    stop ∈ others := by
  obtain ⟨taken, htaken, hle, hlt⟩ :=
    hothers.covers stop (h.occurs stop hstop) (h.behind stop hstop)
  rcases hle.eq_or_lt with rfl | hbefore
  · exact htaken
  · -- An earlier one would overlap this one.
    have hapart := add_le_of_apart h.apart (hsame taken hbefore htaken) hstop hbefore
    omega

theorem unique (hpattern : pattern ≠ []) (h : IsLeftmost pattern stream origin stops)
    (hothers : IsLeftmost pattern stream origin others) : stops = others := by
  have hpositive : 0 < pattern.length := List.length_pos_iff.mpr hpattern
  have hmem : ∀ stop, stop ∈ stops ↔ stop ∈ others := by
    intro stop
    induction stop using Nat.strong_induction_on with
    | _ stop ih =>
        exact ⟨h.mem_of_mem hothers fun taken hlt => (ih taken hlt).mpr,
          hothers.mem_of_mem h fun taken hlt => (ih taken hlt).mp⟩
  have hincreasing : ∀ {stops : List ℕ},
      stops.Pairwise (fun before after => before + pattern.length ≤ after) →
      stops.Pairwise (· < ·) := fun hapart => hapart.imp fun hle => by omega
  have hsorted := hincreasing h.apart
  have hsortedOthers := hincreasing hothers.apart
  have hperm := (List.perm_ext_iff_of_nodup (hsorted.imp Nat.ne_of_lt)
    (hsortedOthers.imp Nat.ne_of_lt)).mpr hmem
  exact hperm.eq_of_pairwise (fun a b _ _ hab hba => absurd hab (Nat.lt_asymm hba)) hsorted
    hsortedOthers

theorem nil (hnone : ∀ stop, EndsAt pattern stream stop → stop < origin + pattern.length) :
    IsLeftmost pattern stream origin [] where
  occurs := fun stop hstop => by cases hstop
  behind := fun stop hstop => by cases hstop
  apart := List.Pairwise.nil
  covers := fun stop hends hle => absurd (hnone stop hends) (Nat.not_lt.mpr hle)

/-- The first occurrence, and the leftmost ones behind it. -/
theorem cons (hfirst : EndsAt pattern stream stop) (hbehind : origin + pattern.length ≤ stop)
    (hleast : ∀ other, EndsAt pattern stream other → origin + pattern.length ≤ other →
      stop ≤ other)
    (hrest : IsLeftmost pattern stream stop stops) :
    IsLeftmost pattern stream origin (stop :: stops) where
  occurs := by
    intro other hother
    rcases List.mem_cons.mp hother with rfl | hother
    · exact hfirst
    · exact hrest.occurs other hother
  behind := by
    intro other hother
    rcases List.mem_cons.mp hother with rfl | hother
    · exact hbehind
    · have hrestBehind := hrest.behind other hother
      omega
  apart := List.pairwise_cons.mpr ⟨hrest.behind, hrest.apart⟩
  covers := by
    intro other hother hle
    by_cases hover : stop + pattern.length ≤ other
    · obtain ⟨taken, htaken, hcovers⟩ := hrest.covers other hother hover
      exact ⟨taken, List.mem_cons_of_mem _ htaken, hcovers⟩
    · exact ⟨stop, List.mem_cons_self, hleast other hother hle, by omega⟩

/-- A window of a stream has the occurrences of the stream which start in it. -/
theorem of_drop {back : ℕ} (hback : back ≤ stream.length)
    (h : IsLeftmost pattern (stream.drop back) origin stops) :
    IsLeftmost pattern stream (back + origin) (stops.map (back + ·)) where
  occurs := by
    intro stop hstop
    obtain ⟨inner, hinner, rfl⟩ := List.mem_map.mp hstop
    exact (h.occurs inner hinner).of_drop hback
  behind := by
    intro stop hstop
    obtain ⟨inner, hinner, rfl⟩ := List.mem_map.mp hstop
    have hbehind := h.behind inner hinner
    omega
  apart := by
    rw [List.pairwise_map]
    exact h.apart.imp fun hle => by omega
  covers := by
    intro stop hends hle
    have hinner : EndsAt pattern (stream.drop back) (stop - back) := hends.drop (by omega)
    obtain ⟨taken, htaken, hcovers, hlt⟩ := h.covers (stop - back) hinner (by omega)
    exact ⟨back + taken, List.mem_map_of_mem htaken, by omega, by omega⟩

/-- A search of what is new, behind a search of what was there before. -/
theorem append (h : IsLeftmost pattern stream 0 stops)
    (hnews : IsLeftmost pattern (stream ++ more) origin news)
    (hpassed : ∀ stop ∈ stops, stop ≤ origin)
    (hcovered : ∀ stop, stream.length < stop → pattern.length ≤ stop →
      stop < origin + pattern.length → ∃ taken ∈ stops, taken ≤ stop ∧ stop < taken + pattern.length) :
    IsLeftmost pattern (stream ++ more) 0 (stops ++ news) where
  occurs := by
    intro stop hstop
    rcases List.mem_append.mp hstop with hstop | hstop
    · have hends := h.occurs stop hstop
      exact (EndsAt.append_iff hends.1).mpr hends
    · exact hnews.occurs stop hstop
  behind := by
    intro stop hstop
    rcases List.mem_append.mp hstop with hstop | hstop
    · exact h.behind stop hstop
    · have hbehind := hnews.behind stop hstop
      omega
  apart := by
    refine List.pairwise_append.mpr ⟨h.apart, hnews.apart, fun before hbefore after hafter => ?_⟩
    have hle := hpassed before hbefore
    have hbehind := hnews.behind after hafter
    omega
  covers := by
    intro stop hends hle
    by_cases hold : stop ≤ stream.length
    · obtain ⟨taken, htaken, hcovers⟩ := h.covers stop ((EndsAt.append_iff hold).mp hends) hle
      exact ⟨taken, List.mem_append_left _ htaken, hcovers⟩
    · by_cases hover : origin + pattern.length ≤ stop
      · obtain ⟨taken, htaken, hcovers⟩ := hnews.covers stop hends hover
        exact ⟨taken, List.mem_append_right _ htaken, hcovers⟩
      · obtain ⟨taken, htaken, hcovers⟩ := hcovered stop (by omega) (by omega) (by omega)
        exact ⟨taken, List.mem_append_left _ htaken, hcovers⟩

end IsLeftmost

end SerialPlatform
