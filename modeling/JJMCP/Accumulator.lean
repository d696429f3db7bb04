import JJMCP.Scrollback

namespace JJMCP.Accumulator

open Lib.Border Text Overlap Poll Scrollback

section

variable {m : Marker}

/-- The stretch of a text between two offsets. -/
def window (text : Text) (w : Nat × Nat) : Text := (text.take w.2).drop w.1

/-- The next window goes on where this one stands, without a gap. -/
def Slides (v w : Nat × Nat) : Prop := v.1 ≤ w.1 ∧ v.2 ≤ w.2 ∧ w.1 ≤ v.2

/-- The text of the last capture closes the accumulator. -/
def Closed (s : PollState) : Prop := s.lastCapture <:+ s.accumulator

theorem splice_closes {s : PollState} (h : Closed s) (cap : Text) :
    cap <:+ splice s cap ∧ s.accumulator <+: splice s cap := by
  by_cases hacc : s.accumulator = []
  · rw [splice, if_pos hacc, hacc]
    exact ⟨List.suffix_rfl, List.nil_prefix⟩
  · obtain ⟨r, hr⟩ := (overlap_matched s.lastCapture cap).2.trans h
    rw [splice_gained hacc]
    refine ⟨⟨r, ?_⟩, List.prefix_append _ _⟩
    rw [← hr, List.append_assoc, List.take_append_drop]

theorem readAll_closed (caps : List Text) : Closed (readAll m {} caps) := by
  induction caps using List.reverseRecOn with
  | nil => exact List.suffix_rfl
  | append_singleton caps cap ih =>
      rw [readAll_concat]
      exact (splice_closes ih cap).1

theorem readAll_contains (caps : List Text) : ∀ cap ∈ caps, cap <:+: (readAll m {} caps).accumulator := by
  induction caps using List.reverseRecOn with
  | nil => exact fun _ h => absurd h List.not_mem_nil
  | append_singleton caps cap ih =>
      obtain ⟨hlast, hgrown⟩ := @splice_closes _ (readAll_closed (m := m) caps) cap
      rw [readAll_concat]
      intro c hc
      rcases List.mem_append.mp hc with hc | hc
      · exact (ih c hc).trans hgrown.isInfix
      · rw [List.mem_singleton.mp hc]
        exact hlast.isInfix

theorem window_length (text : Text) (w : Nat × Nat) :
    (window text w).length = min w.2 text.length - w.1 := by
  rw [window, List.length_drop, List.length_take]

theorem window_matched {text : Text} {v w : Nat × Nat} (h : Slides v w) :
    Matched (window text w) (window text v) (min v.2 text.length - w.1) := by
  obtain ⟨hbegin, hend, _⟩ := h
  refine ⟨by rw [window_length]; omega, ?_⟩
  have hshared : (window text w).take (min v.2 text.length - w.1) = window text (w.1, v.2) := by
    rw [window, window, List.take_drop, List.take_take]
    by_cases hle : w.1 ≤ min v.2 text.length
    · rw [show min (w.1 + (min v.2 text.length - w.1)) w.2 = min v.2 text.length by omega,
        ← List.take_eq_take_min]
    · rw [List.drop_eq_nil_of_le (by rw [List.length_take]; omega),
        List.drop_eq_nil_of_le (by rw [List.length_take]; omega)]
  rw [hshared]
  exact List.drop_suffix_drop_left _ hbegin

theorem splice_window {text : Text} {v w : Nat × Nat} {s : PollState} {first : Nat} (h : Slides v w)
    (hfirst : first ≤ v.1) (hlast : s.lastCapture = window text v) (hlen : s.accumulator.length ≤ v.2 - first) :
    (splice s (window text w)).length ≤ w.2 - first := by
  have hk := overlap_longest (@window_matched text v w h)
  obtain ⟨hbegin, hend, hmeet⟩ := h
  by_cases hacc : s.accumulator = []
  · rw [splice, if_pos hacc, window_length]
    omega
  · rw [splice_gained hacc, List.length_append, List.length_drop, window_length, hlast]
    omega

theorem window_bound {text : Text} {ws : List (Nat × Nat)} (h : ws.IsChain Slides) {first last : Nat × Nat}
    (hfirst : first ∈ ws.head?) (hlast : last ∈ ws.getLast?) :
    first.1 ≤ last.1 ∧ (readAll m {} (ws.map (window text))).accumulator.length ≤ last.2 - first.1 := by
  induction ws using List.reverseRecOn generalizing last with
  | nil => simp at hfirst
  | append_singleton ws w ih =>
      rw [List.getLast?_concat, Option.mem_some] at hlast
      subst hlast
      rcases List.eq_nil_or_concat ws with rfl | ⟨vs, v, rfl⟩
      · obtain rfl := Option.mem_some.mp hfirst
        refine ⟨Nat.le_refl _, ?_⟩
        change (window text w).length ≤ _
        rw [window_length]
        omega
      · rw [List.concat_eq_append] at h hfirst ih ⊢
        obtain ⟨hchain, _, hlink⟩ := List.isChain_append.mp h
        have hslides : Slides v w := hlink v (by simp) w (by simp)
        have hhead : first ∈ (vs ++ [v]).head? := by
          rw [List.head?_append_of_ne_nil _ (by simp)] at hfirst
          exact hfirst
        obtain ⟨hle, hlen⟩ := ih hchain hhead (show v ∈ (vs ++ [v]).getLast? by simp)
        have hseen : (readAll m {} ((vs ++ [v]).map (window text))).lastCapture = window text v := by
          rw [List.map_append, List.map_singleton, readAll_concat]
          rfl
        refine ⟨hle.trans hslides.1, ?_⟩
        rw [List.map_append, List.map_singleton, readAll_concat]
        exact splice_window hslides hle hseen hlen

/-- Over every sequence of captures: each of them stands in the accumulator, the
last one closes it, and windows that slide over one text are not shown twice. -/
theorem accumulator_invariant (m : Marker) :
    (∀ (caps : List Text) (cap : Text),
      cap <:+ (readAll m {} (caps ++ [cap])).accumulator ∧
        (readAll m {} caps).accumulator <+: (readAll m {} (caps ++ [cap])).accumulator ∧
        ∀ c ∈ caps ++ [cap], c <:+: (readAll m {} (caps ++ [cap])).accumulator) ∧
      ∀ (text : Text) (ws : List (Nat × Nat)), ws.IsChain Slides → ∀ first ∈ ws.head?, ∀ last ∈ ws.getLast?,
        (readAll m {} (ws.map (window text))).accumulator.length ≤ last.2 - first.1 := by
  constructor
  · intro caps cap
    have hall := readAll_contains (m := m) (caps ++ [cap])
    obtain ⟨hlast, hgrown⟩ := @splice_closes _ (readAll_closed (m := m) caps) cap
    rw [readAll_concat] at hall ⊢
    exact ⟨hlast, hgrown, hall⟩
  · intro text ws hchain first hfirst last hlast
    exact (window_bound hchain hfirst hlast).2

theorem accumulator_invariant_sliding :
    (readAll (Marker.makeMarker (lit "1")) {}
      ([(0, 4), (0, 4), (4, 4), (4, 6), (5, 8)].map (window (lit "abababab")))).accumulator.length ≤ 8 - 0 := by
  have hchain : [(0, 4), (0, 4), (4, 4), (4, 6), (5, 8)].IsChain Slides := by
    simp [Slides]
  exact (accumulator_invariant (Marker.makeMarker (lit "1"))).2 (lit "abababab") _ hchain (0, 4) rfl (5, 8) rfl

end

end JJMCP.Accumulator
