import Mathlib.Data.List.Basic

namespace JJMCP.Lib.Overwrite

variable {α : Type*}

/-- A write into a file at an offset. A gap before it is filled. -/
def overwrite (fill : α) (content : List α) (offset : Nat) (piece : List α) : List α :=
  if piece = [] then content
  else content.take offset ++ List.replicate (offset - content.length) fill ++
    (piece ++ content.drop (offset + piece.length))

variable {fill : α} {content piece : List α}

theorem overwrite_nil (offset : Nat) : overwrite fill content offset [] = content := if_pos rfl

theorem overwrite_start : overwrite fill content 0 piece = piece ++ content.drop piece.length := by
  by_cases hp : piece = []
  · subst hp
    rw [overwrite_nil, List.nil_append, List.length_nil, List.drop_zero]
  · simp [overwrite, hp]

theorem overwrite_end {offset : Nat} (h : offset = content.length) :
    overwrite fill content offset piece = content ++ piece := by
  subst h
  by_cases hp : piece = []
  · subst hp
    rw [overwrite_nil, List.append_nil]
  · simp [overwrite, hp]

end JJMCP.Lib.Overwrite
