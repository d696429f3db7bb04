import JJMCP.Text
import Mathlib.Logic.Function.Basic

namespace JJMCP

/-- RuntimeBootstrapCache: the generation token stored for each pane. -/
abbrev RuntimeCache := Text → Option Text

end JJMCP

namespace JJMCP.RuntimeCache

/-- An empty token on either side leaves the decision to the pane alone. -/
def isCurrent (c : RuntimeCache) (paneKey generation : Text) : Bool :=
  match c paneKey with
  | none => false
  | some stored => generation = [] || stored = [] || stored = generation

def mark (c : RuntimeCache) (paneKey generation : Text) : RuntimeCache :=
  Function.update c paneKey (some generation)

def invalidate (c : RuntimeCache) (paneKey : Text) : RuntimeCache := Function.update c paneKey none

theorem isCurrent_eq {c : RuntimeCache} {paneKey generation stored : Text} (hc : c paneKey = some stored)
    (hg : generation ≠ []) (hs : stored ≠ []) : isCurrent c paneKey generation = true ↔ stored = generation := by
  simp [isCurrent, hc, hg, hs]

@[simp] theorem isCurrent_invalidate (c : RuntimeCache) (paneKey generation : Text) :
    isCurrent (invalidate c paneKey) paneKey generation = false := by
  simp [isCurrent, invalidate]

@[simp] theorem mark_same (c : RuntimeCache) (paneKey generation : Text) :
    mark c paneKey generation paneKey = some generation := by
  simp [mark]

theorem mark_other (c : RuntimeCache) {paneKey other : Text} (h : other ≠ paneKey) (generation : Text) :
    mark c paneKey generation other = c other := by
  simp [mark, h]

theorem invalidate_other (c : RuntimeCache) {paneKey other : Text} (h : other ≠ paneKey) :
    invalidate c paneKey other = c other := by
  simp [invalidate, h]

end JJMCP.RuntimeCache
