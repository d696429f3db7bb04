import JJMCP.HelperOutput
import JJMCP.ByteTruncation

namespace JJMCP.Streaming

open Lib.Utf8 Text Truncate HelperOutput

section

variable {maxBytes : Nat}

/-- How many bytes of a text are gone once all of it has been appended. -/
def gone (maxBytes : Nat) (seen : Text) : Nat :=
  if seen.length ≤ maxBytes then 0 else cutStart seen (seen.length - maxBytes)

/-- The buffer as a function of the whole text appended to it. -/
def held (maxBytes : Nat) (seen : Text) : TailByteBuffer where
  data := seen.drop (gone maxBytes seen)
  omittedBytes := gone maxBytes seen
  maxBytes := maxBytes

/-- A character begins among the bytes that a cut would keep. -/
def Settled (maxBytes : Nat) (seen : Text) : Prop :=
  maxBytes < seen.length → cutStart seen (seen.length - maxBytes) < seen.length

theorem cutStart_boundary {text : Text} {start : Nat} (hs : start ≤ text.length) :
    Boundary text (cutStart text start) ∧ ∀ q, start ≤ q → Boundary text q → cutStart text start ≤ q :=
  next_boundary hs

theorem settled_of_valid {seen rest : Text} (h : Valid (seen ++ rest)) (hmax : 4 ≤ maxBytes) :
    Settled maxBytes seen := by
  intro hover
  obtain ⟨q, hle, hlt, hq⟩ := h.near (p := seen.length - maxBytes) (by rw [List.length_append]; omega)
  have hseen : Boundary seen q := hq.restrict (by omega)
  have hcut := (cutStart_boundary (Nat.sub_le seen.length maxBytes)).2 q hle hseen
  omega

theorem gone_le (seen : Text) : gone maxBytes seen ≤ seen.length := by
  rw [gone]
  split
  · exact Nat.zero_le _
  · exact (cutStart_boundary (Nat.sub_le _ _)).1.1

/-- What was cut before stays the right cut when more text fits. -/
theorem gone_append {seen : Text} (hset : Settled maxBytes seen) (chunk : Text)
    (hfits : (seen ++ chunk).length ≤ gone maxBytes seen + maxBytes) :
    gone maxBytes (seen ++ chunk) = gone maxBytes seen := by
  rw [List.length_append] at hfits
  by_cases hle : (seen ++ chunk).length ≤ maxBytes
  · have hseen : seen.length ≤ maxBytes := by
      rw [List.length_append] at hle
      omega
    rw [gone, gone, if_pos hle, if_pos hseen]
  · have hover : maxBytes < seen.length := by
      by_contra hn
      rw [gone, if_pos (by omega)] at hfits
      rw [List.length_append] at hle
      omega
    have hlt := hset hover
    obtain ⟨hb, hmin⟩ := cutStart_boundary (Nat.sub_le seen.length maxBytes)
    rw [gone, if_neg (by omega)] at hfits
    rw [gone, gone, if_neg hle, if_neg (by omega)]
    refine next_boundary_unique (hb.extend chunk hlt) ?_ ?_
    · rw [List.length_append]
      omega
    · intro q hq hbq
      by_contra hn
      rw [List.length_append] at hq
      exact hn (hmin q (by omega) (hbq.restrict (by omega)))

theorem appendTail_held (hpos : 1 ≤ maxBytes) {seen : Text} (hset : Settled maxBytes seen) (chunk : Text) :
    appendTail (held maxBytes seen) chunk = held maxBytes (seen ++ chunk) := by
  have hgone : gone maxBytes seen ≤ seen.length := gone_le seen
  have hdata : seen.drop (gone maxBytes seen) ++ chunk = (seen ++ chunk).drop (gone maxBytes seen) :=
    (List.drop_append_of_le_length hgone).symm
  have h0 : maxBytes ≠ 0 := Nat.ne_of_gt hpos
  simp only [appendTail, held, if_neg h0, hdata, List.length_drop]
  split
  next hle => rw [gone_append hset chunk (by omega)]
  next hover =>
    have hcut : gone maxBytes seen + cutStart ((seen ++ chunk).drop (gone maxBytes seen))
        ((seen ++ chunk).length - gone maxBytes seen - maxBytes) = gone maxBytes (seen ++ chunk) := by
      rw [gone.eq_1 maxBytes (seen ++ chunk), if_neg (by omega), cutStart, cutStart, List.drop_drop,
        show gone maxBytes seen + ((seen ++ chunk).length - gone maxBytes seen - maxBytes) =
          (seen ++ chunk).length - maxBytes by omega]
      omega
    rw [List.drop_drop, hcut]

theorem foldl_appendTail_held (hmax : 4 ≤ maxBytes) (chunks : List Text) (seen : Text)
    (h : Valid (seen ++ chunks.flatten)) :
    chunks.foldl appendTail (held maxBytes seen) = held maxBytes (seen ++ chunks.flatten) := by
  induction chunks generalizing seen with
  | nil => simp
  | cons chunk chunks ih =>
      rw [List.flatten_cons, ← List.append_assoc] at h ⊢
      have hset : Settled maxBytes seen := settled_of_valid (by rwa [List.append_assoc] at h) hmax
      rw [List.foldl_cons, appendTail_held (by omega) hset]
      exact ih _ h

theorem tailString_held (hpos : 1 ≤ maxBytes) (text : Text) :
    tailString (held maxBytes text) = truncateTail text maxBytes := by
  have h0 : maxBytes ≠ 0 := Nat.ne_of_gt hpos
  have hheld : (held maxBytes text).maxBytes ≠ 0 := h0
  rw [tailString, truncateTail, if_neg hheld, if_neg h0]
  by_cases hle : text.length ≤ maxBytes
  · have hkept : gone maxBytes text = 0 := by rw [gone, if_pos hle]
    rw [if_pos hle, if_pos (show (held maxBytes text).omittedBytes = 0 from hkept)]
    change text.drop (gone maxBytes text) = text
    rw [hkept, List.drop_zero]
  · have hcut : gone maxBytes text = cutStart text (text.length - maxBytes) := by rw [gone, if_neg hle]
    have hne : gone maxBytes text ≠ 0 := by
      rw [hcut, cutStart]
      omega
    rw [if_neg hle, if_neg (show (held maxBytes text).omittedBytes ≠ 0 from hne), ← hcut]
    rfl

theorem truncateTail_eq (hpos : 1 ≤ maxBytes) (text : Text) :
    truncateTail text maxBytes = truncateBytesTail text maxBytes := by
  rw [truncateTail, truncateBytesTail]
  split
  · rfl
  · split
    · rfl
    next hover =>
      rw [utf8SafeSuffixStart, if_neg (by omega)]
      simp [omittedNote, cutStart]

/-- However the text is cut into chunks, the stream is truncated as the whole is,
and the helper truncates as the server does. -/
theorem streamed_truncation_eq {chunks : List Text} (h : Valid chunks.flatten) (hmax : 4 ≤ maxBytes) :
    tailString (chunks.foldl appendTail { maxBytes }) = truncateTail chunks.flatten maxBytes ∧
      truncateTail chunks.flatten maxBytes = truncateBytesTail chunks.flatten maxBytes := by
  have hheld : held maxBytes [] = { maxBytes } := by simp [held, gone]
  have hfold := foldl_appendTail_held hmax chunks [] h
  rw [hheld, List.nil_append] at hfold
  rw [hfold]
  exact ⟨tailString_held (by omega) _, truncateTail_eq (by omega) _⟩

theorem streamed_truncation_eq_split :
    tailString ([[97, 98, 99, 195], [169, 100, 226, 130], [172]].foldl appendTail { maxBytes := 4 }) =
      truncateTail [97, 98, 99, 195, 169, 100, 226, 130, 172] 4 :=
  (@streamed_truncation_eq 4 [[97, 98, 99, 195], [169, 100, 226, 130], [172]] (by decide) (by decide)).1

end

end JJMCP.Streaming
