import JJMCP.Text
import Mathlib.Tactic.IntervalCases

namespace JJMCP

inductive Kind
  | End | Error | OutEnd | ValEnd | Backtrace
  deriving DecidableEq, Repr

/-- make_marker derives every string of a marker from its id, so the id is
all there is to keep. -/
structure Marker where
  id : Text
  deriving DecidableEq, Repr

end JJMCP

namespace JJMCP.Marker

open Lib.Occurrence Text

def makeMarker (id : Text) : Marker := ⟨id⟩

def stem : Kind → Text
  | .End => lit "__JJMCP_END_"
  | .Error => lit "__JJMCP_ERROR_"
  | .OutEnd => lit "__JJMCP_OUT_END_"
  | .ValEnd => lit "__JJMCP_VAL_END_"
  | .Backtrace => lit "__JJMCP_BT_"

def beginMark (m : Marker) : Text := lit "__JJMCP_BEGIN_" ++ m.id ++ lit "__"

def mark (m : Marker) (k : Kind) : Text := stem k ++ m.id ++ lit "__"

/-- The three parts are the clock in microseconds, the server's pid and its
marker sequence. -/
def makeMarkerId (micros pid sequence : Nat) : Text :=
  decimal micros ++ lit "_" ++ decimal pid ++ lit "_" ++ decimal sequence

def OneLine (m : Marker) : Prop := nl ∉ m.id

theorem stem_ne_nil (k : Kind) : stem k ≠ [] := by
  cases k <;> decide

@[simp] theorem mark_ne_nil (m : Marker) (k : Kind) : m.mark k ≠ [] := by
  simp [mark, stem_ne_nil]

@[simp] theorem beginMark_ne_nil (m : Marker) : m.beginMark ≠ [] := by
  simp [beginMark, lit]

theorem nl_notMem_mark {m : Marker} (h : m.OneLine) (k : Kind) : nl ∉ m.mark k := by
  have hs : nl ∉ stem k := by cases k <;> decide
  have hu : nl ∉ lit "__" := by decide
  simp only [mark, List.mem_append, not_or]
  exact ⟨⟨hs, h⟩, hu⟩

theorem nl_notMem_beginMark {m : Marker} : nl ∉ m.beginMark ↔ m.OneLine := by
  have hs : nl ∉ lit "__JJMCP_BEGIN_" := by decide
  have hu : nl ∉ lit "__" := by decide
  simp only [beginMark, List.mem_append, not_or, OneLine]
  tauto

theorem mark_take (m : Marker) (k : Kind) : (m.mark k).take 10 = (stem k).take 10 := by
  rw [mark, List.append_assoc, List.take_append_of_le_length]
  cases k <;> decide

theorem mark_head (m : Marker) (k : Kind) : (m.mark k).head? = some 95 := by
  cases k <;> rfl

theorem at_take {pat text : Text} {p n : Nat} (h : At pat text p) (hn : n ≤ pat.length) :
    (text.drop p).take n = pat.take n := by
  obtain ⟨rest, hr⟩ := h
  rw [← hr, List.take_append_of_le_length hn]

theorem ten_le_mark_length (m : Marker) (k : Kind) : 10 ≤ (m.mark k).length := by
  have hs : 10 ≤ (stem k).length := by cases k <;> decide
  simp only [mark, List.length_append]
  omega

theorem mark_kind_unique {m : Marker} {text : Text} {p : Nat} {k k' : Kind}
    (h : At (m.mark k) text p) (h' : At (m.mark k') text p) : k = k' := by
  have he := (at_take h (ten_le_mark_length m k)).symm.trans (at_take h' (ten_le_mark_length m k'))
  rw [mark_take, mark_take] at he
  revert he
  cases k <;> cases k' <;> decide

/-- No mark stands inside the BEGIN string, whatever the id is: they share the
id and the closing underscores, so only an offset below three is possible. -/
theorem mark_not_infix_beginMark (m : Marker) (k : Kind) : ¬ m.mark k <:+: m.beginMark := by
  intro h
  obtain ⟨p, hp⟩ := infix_iff_at.mp h
  have hb := hp.bound (mark_ne_nil m k)
  have hlen : p + (stem k).length ≤ 14 := by
    have h14 : (lit "__JJMCP_BEGIN_").length = 14 := by decide
    simp only [mark, beginMark, List.length_append, h14] at hb
    omega
  have ht := at_take hp (ten_le_mark_length m k)
  rw [mark_take] at ht
  have hbt : (m.beginMark.drop p).take 10 = ((lit "__JJMCP_BEGIN_").drop p).take 10 := by
    have hk : 10 ≤ (stem k).length := by cases k <;> decide
    have h14 : (lit "__JJMCP_BEGIN_").length = 14 := by decide
    rw [beginMark, List.append_assoc, List.drop_append_of_le_length (by omega),
      List.take_append_of_le_length (by rw [List.length_drop]; omega)]
  rw [hbt] at ht
  have hp4 : p < 4 := by
    have : 11 ≤ (stem k).length := by cases k <;> decide
    omega
  revert ht
  interval_cases p <;> cases k <;> decide

theorem at_mark_mark {m : Marker} {j k : Kind} {p : Nat} (h : At (m.mark j) (m.mark k) p) : p = 0 := by
  have hb := h.bound (mark_ne_nil m j)
  have hlen : p + (stem j).length ≤ (stem k).length := by
    simp only [mark, List.length_append] at hb
    omega
  have hj : 11 ≤ (stem j).length := by cases j <;> decide
  have hk : (stem k).length ≤ 16 := by cases k <;> decide
  have ht := at_take h (ten_le_mark_length m j)
  have hkt : ((m.mark k).drop p).take 10 = ((stem k).drop p).take 10 := by
    rw [mark, List.append_assoc, List.drop_append_of_le_length (by omega),
      List.take_append_of_le_length (by rw [List.length_drop]; omega)]
  rw [hkt, mark_take] at ht
  have hp : p < 6 := by omega
  revert ht
  interval_cases p <;> cases j <;> cases k <;> decide

theorem mark_solid (m : Marker) (k : Kind) : ∃ s, m.mark k = 95 :: s ++ [95] := by
  refine ⟨(stem k).tail ++ m.id ++ [95], ?_⟩
  have hs : stem k = 95 :: (stem k).tail := by cases k <;> rfl
  have hu : lit "__" = [95, 95] := by decide
  rw [mark, hs, hu]
  simp

theorem beginMark_solid (m : Marker) : ∃ s, m.beginMark = 95 :: s ++ [95] := by
  refine ⟨(lit "__JJMCP_BEGIN_").tail ++ m.id ++ [95], ?_⟩
  have hs : lit "__JJMCP_BEGIN_" = 95 :: (lit "__JJMCP_BEGIN_").tail := rfl
  have hu : lit "__" = [95, 95] := by decide
  rw [beginMark, hs, hu]
  simp

theorem cr_mem_mark {m : Marker} {k : Kind} : cr ∈ m.mark k ↔ cr ∈ m.id := by
  have hs : cr ∉ stem k := by cases k <;> decide
  have hu : cr ∉ lit "__" := by decide
  simp [mark, hs, hu]

theorem trimAscii_beginMark (m : Marker) : trimAscii m.beginMark = m.beginMark := by
  obtain ⟨s, hs⟩ := beginMark_solid m
  rw [hs]
  exact trimAscii_solid (by decide) (by decide) s

/-- A letter that is not in the id stands in what comes before it. -/
theorem getElem?_J {m : Marker} (hJ : 74 ∉ m.id) {s : Text} {i : Nat} (h : (s ++ m.id ++ lit "__")[i]? = some 74) :
    i < s.length ∧ s[i]? = some 74 := by
  have hu : (74 : UInt8) ∉ lit "__" := by decide
  rw [List.append_assoc, List.getElem?_append] at h
  split at h
  next hi => exact ⟨hi, h⟩
  next hi =>
    rcases List.mem_append.mp (List.mem_of_getElem? h) with hm | hm
    · exact absurd hm hJ
    · exact absurd hm hu

/-- The letter J stands only in the second and third place of a mark, after the
opening underscores, when the id has none. -/
theorem mark_getElem?_J {m : Marker} (hJ : 74 ∉ m.id) {k : Kind} {i : Nat}
    (h : (m.mark k)[i]? = some 74) : i = 2 ∨ i = 3 := by
  obtain ⟨hi, hs⟩ := getElem?_J hJ h
  have hk : i < 16 := by
    have : (stem k).length ≤ 16 := by cases k <;> decide
    omega
  revert hs
  interval_cases i <;> cases k <;> decide

theorem mark_second (m : Marker) (k : Kind) : (m.mark k)[1]? = some 95 ∧ (m.mark k)[2]? = some 74 := by
  cases k <;> exact ⟨rfl, rfl⟩

/-- No marker of this id stands in the text, its closing underscores aside. -/
def MarkFree (m : Marker) (text : Text) : Prop := ∀ k, ¬ stem k ++ m.id <:+: text

theorem markFree_of_id {m : Marker} {text : Text} (h : ¬ m.id <:+: text) : MarkFree m text :=
  fun _ hk => h ((List.suffix_append _ _).isInfix.trans hk)

/-- No mark starts in a segment free of marks and runs into the mark after it. -/
theorem segment_le_at {m : Marker} (hJ : 74 ∉ m.id) {seg : Text} (hseg : MarkFree m seg)
    {j k : Kind} {rest : Text} {q : Nat} (h : At (m.mark j) (seg ++ (m.mark k ++ rest)) q) :
    seg.length ≤ q := by
  by_contra hlt
  have hid : seg.length < q + (stem j).length + m.id.length := by
    by_contra hle
    have hsub : At (stem j ++ m.id) (seg ++ (m.mark k ++ rest)) q := by
      unfold At at h ⊢
      exact (List.prefix_append _ _).trans h
    have hlen : (stem j ++ m.id).length = (stem j).length + m.id.length := List.length_append
    exact hseg j ((at_append_left _ (by omega)).mp hsub).isInfix
  have hlen : (m.mark j).length = (stem j).length + m.id.length + 2 := by
    have hu : (lit "__").length = 2 := by decide
    simp only [mark, List.length_append, hu]
  have hat : ∀ i, i < 3 → (m.mark j)[seg.length - q + i]? = (m.mark k)[i]? := by
    intro i hi
    have h3 : i < (m.mark k).length := by
      have := ten_le_mark_length m k
      omega
    rw [← h.getElem? (by omega), show q + (seg.length - q + i) = seg.length + i by omega,
      List.getElem?_append_right (by omega), Nat.add_sub_cancel_left, List.getElem?_append_left h3]
  have h2 := mark_getElem?_J hJ ((hat 2 (by omega)).trans (mark_second m k).2)
  have h1 := hat 1 (by omega)
  have hd : seg.length - q = 1 := by omega
  rw [hd, (mark_second m k).1, (mark_second m j).2] at h1
  exact absurd h1 (by decide)

end JJMCP.Marker
