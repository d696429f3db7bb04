import JJMCP.Poll
import JJMCP.Tokens

namespace JJMCP.Compaction

open Lib.Occurrence Lib.Lines Text Marker Extract Tokens Truncate Poll

variable {m : Marker}

theorem solid_mark (hm : m.OneLine) (k : Kind) : Solid (m.mark k) :=
  ⟨nl_notMem_mark hm k, List.mem_of_mem_head? (mark_head m k)⟩

theorem quiet_truncate (hm : m.OneLine) {t : Text} (h : Quiet m t) (a b : Nat) :
    Quiet m (truncateToolTail t a b) :=
  ⟨fun k hk => h.1 k (infix_truncateToolTail (solid_mark hm k) h.2 a b hk), cr_truncateToolTail h.2 a b⟩

def Compacted (m : Marker) (out : Text) (error : Prop) : Prop :=
  ∃ rest, out = m.beginMark ++ nl :: rest ∧ Tidy m rest ∧ ¬ m.mark .End <:+: rest ∧
    (m.mark .Error <:+: rest ↔ error)

theorem compacted_begin (m : Marker) : Compacted m (appendLine [] m.beginMark) False :=
  ⟨[], by simp [appendLine], tidy_nil m, (quiet_nil m).1 .End, by simp⟩

theorem Compacted.append (hm : m.OneLine) {out : Text} {error more : Prop} (h : Compacted m out error)
    {t : Text} (ht : Tidy m t) (hend : ¬ m.mark .End <:+: t) (herr : m.mark .Error <:+: t ↔ more) :
    Compacted m (out ++ t) (error ∨ more) := by
  obtain ⟨rest, rfl, htidy, hrun, he⟩ := h
  have hsplit := fun k => infix_append_terminated t htidy.terminated (nl_notMem_mark hm k) (mark_ne_nil m k)
  refine ⟨rest ++ t, by simp, htidy.append hm ht, ?_, ?_⟩
  · rw [hsplit .End, not_or]
    exact ⟨hrun, hend⟩
  · rw [hsplit .Error, he, herr]

theorem Compacted.line (hm : m.OneLine) {out : Text} {error : Prop} (h : Compacted m out error) {k : Kind}
    (hk : k ≠ .End) : Compacted m (appendLine out (m.mark k)) (error ∨ k = .Error) := by
  have hat : ∀ j, m.mark j <:+: m.mark k ++ [nl] ↔ k = j := by
    intro j
    rw [infix_sep (nl_notMem_mark hm j) (mark_ne_nil m j), List.infix_nil, or_iff_left (mark_ne_nil m j)]
    constructor
    · intro hi
      obtain ⟨p, hp⟩ := infix_iff_at.mp hi
      obtain rfl := at_mark_mark hp
      exact mark_kind_unique (show At (m.mark k) (m.mark k) 0 from List.prefix_rfl) hp
    · rintro rfl
      exact List.infix_rfl
  rw [appendLine, List.append_assoc]
  exact h.append hm (tidy_mark hm k) (fun hi => hk ((hat .End).mp hi)) (hat .Error)

/-- What append_block adds. -/
def blockText (t : Text) : Text := appendBlock [] t

theorem appendBlock_eq (out t : Text) : appendBlock out t = out ++ blockText t := by
  simp only [blockText, appendBlock]
  split
  · rw [List.append_nil]
  · split <;> simp

theorem quiet_blockText (hm : m.OneLine) {t : Text} (h : Quiet m t) :
    Quiet m (blockText t) ∧ Terminated nl (blockText t) := by
  simp only [blockText, appendBlock, List.nil_append]
  split
  · exact ⟨quiet_nil m, terminated_nil⟩
  · split
    next hl => exact ⟨h, .inr ⟨t.dropLast, (List.dropLast_append_getLast? nl hl).symm⟩⟩
    next => exact ⟨h.append hm (quiet_nl m) (.inr (.inr rfl)), terminated_concat t⟩

theorem Compacted.block (hm : m.OneLine) {out : Text} {error : Prop} (h : Compacted m out error) {t : Text}
    (ht : Quiet m t) : Compacted m (appendBlock out t) error := by
  obtain ⟨hquiet, hterm⟩ := quiet_blockText hm ht
  have herr : m.mark .Error <:+: blockText t ↔ False := iff_false_intro (hquiet.1 .Error)
  rw [appendBlock_eq]
  simpa using h.append hm (hquiet.tidy hterm) (hquiet.1 .End) herr

theorem compactMarkerAccumulator_compacted (hm : m.OneLine) {e : ExtractedOutput} (h : QuietSlices m e)
    (sawOutEnd sawValEnd sawError sawBacktrace : Bool) :
    Compacted m (compactMarkerAccumulator e m sawOutEnd sawValEnd sawError sawBacktrace false)
      (sawError = true) := by
  have hq := fun {t : Text} (ht : Quiet m t) (a b : Nat) => quiet_truncate hm ht a b
  have hstart := (compacted_begin m).block hm (hq h.stdoutText kEvalAccumulatorTailLines kMaxMcpTextBytes)
  simp only [compactMarkerAccumulator, Bool.false_eq_true, if_false]
  cases sawError with
  | true =>
      have herror := (hstart.line hm (show Kind.Error ≠ .End by decide)).block hm
        (hq h.errorMessage kEvalAccumulatorTailLines kMaxMcpTextBytes)
      simp only [if_true]
      split
      · have hbt := (herror.line hm (show Kind.Backtrace ≠ .End by decide)).block hm
          (hq h.backtrace 200 kMaxMcpBacktraceBytes)
        simpa using hbt
      · simpa using herror
  | false =>
      simp only [Bool.false_eq_true, if_false]
      split
      · have hvalue := (hstart.line hm (show Kind.OutEnd ≠ .End by decide)).block hm
          (hq h.valueRepr kEvalAccumulatorTailLines kMaxMcpTextBytes)
        split
        · simpa using hvalue.line hm (show Kind.ValEnd ≠ .End by decide)
        · simpa using hvalue
      · simpa using hstart

end JJMCP.Compaction
