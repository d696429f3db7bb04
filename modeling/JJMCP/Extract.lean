import JJMCP.Marker

namespace JJMCP

inductive Phase
  | Stdout | Value | Error | Backtrace
  deriving DecidableEq, Repr

structure ExtractedOutput where
  foundBegin : Bool := false
  foundEnd : Bool := false
  juliaError : Bool := false
  text : Text := []
  stdoutText : Text := []
  valueRepr : Text := []
  errorMessage : Text := []
  backtrace : Text := []
  deriving DecidableEq, Repr

end JJMCP

namespace JJMCP.Extract

open Lib.Occurrence Lib.Lines Text Marker

def markerSegmentText (segment : Text) : Text :=
  let out := segment.filter (· ≠ cr)
  if out.getLast? = some nl then out.dropLast else out

def appendSegment (out segment : Text) : Text :=
  let text := markerSegmentText segment
  if text = [] then out
  else (if out ≠ [] ∧ out.getLast? ≠ some nl ∧ text.head? ≠ some nl then out ++ [nl] else out) ++ text

def findMarkerLinePayload (marker : Text) (line : Text) : Text → Option Text
  | [] => if trimAscii line = marker then some [] else none
  | c :: cs =>
      if c = nl then
        if trimAscii line = marker then some cs else findMarkerLinePayload marker [] cs
      else findMarkerLinePayload marker (line ++ [c]) cs

def findMarkerLinePayloadStart (capture marker : Text) : Option Text :=
  findMarkerLinePayload marker [] capture

/-- The lambda consider: an earlier position wins, and a tie keeps the first. -/
def consider (m : Marker) (rest : Text) (best : Option (Nat × Kind)) (k : Kind) : Option (Nat × Kind) :=
  match find (m.mark k) rest, best with
  | none, best => best
  | some p, none => some (p, k)
  | some p, some (q, k') => if p < q then some (p, k) else some (q, k')

def findNextMarkerToken (m : Marker) (rest : Text) : Option (Nat × Kind) :=
  [Kind.End, .Error, .OutEnd, .ValEnd, .Backtrace].foldl (consider m rest) none

def skipMarkerLineEnding (rest : Text) : Text :=
  let rest := if rest.head? = some cr then rest.tail else rest
  if rest.head? = some nl then rest.tail else rest

def record (phase : Phase) (segment : Text) (r : ExtractedOutput) : ExtractedOutput :=
  let r := { r with text := appendSegment r.text segment }
  match phase with
  | .Stdout => { r with stdoutText := appendSegment r.stdoutText segment }
  | .Value => { r with valueRepr := appendSegment r.valueRepr segment }
  | .Error => { r with errorMessage := appendSegment r.errorMessage segment }
  | .Backtrace => { r with backtrace := appendSegment r.backtrace segment }

/-- The phase a token starts; text after VAL_END counts as stdout again. -/
def phaseAfter : Kind → Phase → Phase
  | .Error, _ => .Error
  | .OutEnd, _ => .Value
  | .ValEnd, _ => .Stdout
  | .Backtrace, _ => .Backtrace
  | .End, phase => phase

/-- The loop of extract_between_markers over the rest of the capture. Every
turn removes a token, so the length of the capture bounds the turns. -/
def extractLoop (m : Marker) : Nat → Phase → ExtractedOutput → Text → ExtractedOutput
  | 0, _, r, _ => r
  | fuel + 1, phase, r, rest =>
      if rest = [] then r
      else match findNextMarkerToken m rest with
      | none => record phase rest r
      | some (pos, kind) =>
          let r := record phase (rest.take pos) r
          if kind = .End then { r with foundEnd := true }
          else
            let r := if kind = .Error then { r with juliaError := true } else r
            extractLoop m fuel (phaseAfter kind phase) r
              (skipMarkerLineEnding (rest.drop (pos + (m.mark kind).length)))

def extractBetweenMarkers (capture : Text) (m : Marker) : ExtractedOutput :=
  match findMarkerLinePayloadStart capture m.beginMark with
  | none => {}
  | some rest => extractLoop m (rest.length + 1) .Stdout { foundBegin := true } rest

def FirstMark (m : Marker) (text : Text) (p : Nat) (k : Kind) : Prop :=
  At (m.mark k) text p ∧ ∀ k' q, At (m.mark k') text q → p ≤ q

def NoMark (m : Marker) (text : Text) : Prop := ∀ k, ¬ m.mark k <:+: text

instance (m : Marker) (text : Text) : Decidable (NoMark m text) :=
  decidable_of_iff (∀ k ∈ [Kind.End, .Error, .OutEnd, .ValEnd, .Backtrace], ¬ m.mark k <:+: text)
    ⟨fun h k => h k (by cases k <;> decide), fun h k _ => h k⟩

def Best (m : Marker) (text : Text) (ks : List Kind) : Option (Nat × Kind) → Prop
  | none => ∀ k ∈ ks, ¬ m.mark k <:+: text
  | some (p, k) => At (m.mark k) text p ∧ ∀ k' ∈ ks, ∀ q, At (m.mark k') text q → p ≤ q

theorem consider_best {m : Marker} {text : Text} {ks : List Kind} {best : Option (Nat × Kind)}
    (h : Best m text ks best) (k : Kind) : Best m text (ks ++ [k]) (consider m text best k) := by
  cases hf : find (m.mark k) text with
  | none =>
      have hk := find_eq_none.mp hf
      cases best with
      | none =>
          simp only [consider, hf, Best, List.mem_append, List.mem_singleton]
          rintro j (hj | rfl)
          · exact h j hj
          · exact hk
      | some b =>
          simp only [consider, hf, Best, List.mem_append, List.mem_singleton]
          refine ⟨h.1, ?_⟩
          rintro j (hj | rfl) q hq
          · exact h.2 j hj q hq
          · exact absurd hq.isInfix hk
  | some p =>
      obtain ⟨_, hat, hmin⟩ := find_eq_some.mp hf
      have hle : ∀ q, At (m.mark k) text q → p ≤ q := fun q hq => by
        by_contra hlt
        exact hmin q (by omega) hq
      cases best with
      | none =>
          simp only [consider, hf, Best, List.mem_append, List.mem_singleton]
          refine ⟨hat, ?_⟩
          rintro j (hj | rfl) q hq
          · exact absurd hq.isInfix (h j hj)
          · exact hle q hq
      | some b =>
          simp only [consider, hf]
          split
          · simp only [Best, List.mem_append, List.mem_singleton]
            refine ⟨hat, ?_⟩
            rintro j (hj | rfl) q hq
            · have := h.2 j hj q hq
              omega
            · exact hle q hq
          · simp only [Best, List.mem_append, List.mem_singleton]
            refine ⟨h.1, ?_⟩
            rintro j (hj | rfl) q hq
            · exact h.2 j hj q hq
            · have := hle q hq
              omega

theorem findNext_best (m : Marker) (text : Text) :
    Best m text [.End, .Error, .OutEnd, .ValEnd, .Backtrace] (findNextMarkerToken m text) := by
  have h0 : Best m text [] none := fun k hk => absurd hk List.not_mem_nil
  exact consider_best (consider_best (consider_best (consider_best (consider_best h0
    .End) .Error) .OutEnd) .ValEnd) .Backtrace

theorem mem_kinds (k : Kind) : k ∈ [Kind.End, .Error, .OutEnd, .ValEnd, .Backtrace] := by
  cases k <;> decide

theorem FirstMark.unique {m : Marker} {text : Text} {p q : Nat} {j k : Kind}
    (h : FirstMark m text p j) (h' : FirstMark m text q k) : p = q ∧ j = k := by
  have hpq : p = q := Nat.le_antisymm (h.2 k q h'.1) (h'.2 j p h.1)
  subst hpq
  exact ⟨rfl, mark_kind_unique h.1 h'.1⟩

theorem findNext_eq_none {m : Marker} {text : Text} :
    findNextMarkerToken m text = none ↔ NoMark m text := by
  have hb := findNext_best m text
  constructor
  · intro h k
    rw [h] at hb
    exact hb k (mem_kinds k)
  · intro h
    cases hf : findNextMarkerToken m text with
    | none => rfl
    | some b =>
        rw [hf] at hb
        exact absurd hb.1.isInfix (h b.2)

theorem findNext_eq_some {m : Marker} {text : Text} {p : Nat} {k : Kind} :
    findNextMarkerToken m text = some (p, k) ↔ FirstMark m text p k := by
  have hb := findNext_best m text
  constructor
  · intro h
    rw [h] at hb
    exact ⟨hb.1, fun k' q hq => hb.2 k' (mem_kinds k') q hq⟩
  · intro h
    cases hf : findNextMarkerToken m text with
    | none => exact absurd h.1.isInfix (findNext_eq_none.mp hf k)
    | some b =>
        rw [hf] at hb
        have hfirst : FirstMark m text b.1 b.2 := ⟨hb.1, fun k' q hq => hb.2 k' (mem_kinds k') q hq⟩
        obtain ⟨h1, h2⟩ := hfirst.unique h
        rw [← h1, ← h2]

theorem FirstMark.noMark_take {m : Marker} {text : Text} {p : Nat} {k : Kind}
    (h : FirstMark m text p k) : NoMark m (text.take p) := by
  intro j hj
  obtain ⟨q, hq⟩ := infix_iff_at.mp hj
  have hb := hq.bound (mark_ne_nil m j)
  have hpos : 0 < (m.mark j).length := List.length_pos_iff.mpr (mark_ne_nil m j)
  have hq' : At (m.mark j) text q := by
    rw [← List.take_append_drop p text]
    exact (at_append_left _ hb).mpr hq
  have := h.2 j q hq'
  rw [List.length_take] at hb
  omega

/-- Closed lines without a mark are passed over as a whole. -/
theorem firstMark_after {m : Marker} (hm : m.OneLine) {seg : Text} (ht : Terminated nl seg) (hno : NoMark m seg)
    (k : Kind) (rest : Text) : FirstMark m (seg ++ (m.mark k ++ rest)) seg.length k := by
  refine ⟨at_length _ _ _, fun j q hq => ?_⟩
  rcases (at_append_terminated _ ht (nl_notMem_mark hm j) (mark_ne_nil m j) q).mp hq with ⟨_, h⟩ | ⟨h, _⟩
  · exact absurd h.isInfix (hno j)
  · exact h

theorem skip_suffix (rest : Text) : skipMarkerLineEnding rest <:+ rest := by
  unfold skipMarkerLineEnding
  have ht : ∀ t : Text, ∀ c, (if t.head? = some c then t.tail else t) <:+ t := fun t c => by
    split
    · exact List.tail_suffix t
    · exact List.suffix_refl t
  exact (ht _ nl).trans (ht rest cr)

def afterMark (m : Marker) (rest : Text) (p : Nat) (k : Kind) : Text :=
  skipMarkerLineEnding (rest.drop (p + (m.mark k).length))

theorem afterMark_suffix (m : Marker) (rest : Text) (p : Nat) (k : Kind) :
    afterMark m rest p k <:+ rest :=
  (skip_suffix _).trans (List.drop_suffix _ _)

theorem afterMark_length {m : Marker} {rest : Text} {p : Nat} {k : Kind} (h : At (m.mark k) rest p) :
    p + 10 + (afterMark m rest p k).length ≤ rest.length := by
  have hb := h.bound (mark_ne_nil m k)
  have hten := ten_le_mark_length m k
  have hle := (skip_suffix (rest.drop (p + (m.mark k).length))).length_le
  rw [List.length_drop] at hle
  rw [afterMark]
  omega

theorem afterMark_length_lt {m : Marker} {rest : Text} {p : Nat} {k : Kind}
    (h : At (m.mark k) rest p) : (afterMark m rest p k).length < rest.length := by
  have hle := afterMark_length h
  omega

/-- The extraction loop with enough turns for the text at hand. -/
def extractFrom (m : Marker) (phase : Phase) (r : ExtractedOutput) (rest : Text) : ExtractedOutput :=
  extractLoop m (rest.length + 1) phase r rest

/-- More turns than the text has bytes change nothing. -/
theorem extractLoop_fuel (m : Marker) (fuel : Nat) (phase : Phase) (r : ExtractedOutput) (rest : Text)
    (hf : rest.length < fuel) : extractLoop m fuel phase r rest = extractFrom m phase r rest := by
  induction fuel using Nat.strong_induction_on generalizing phase r rest with
  | _ fuel ih =>
      obtain ⟨n, rfl⟩ : ∃ n, fuel = n + 1 := ⟨fuel - 1, by omega⟩
      by_cases hr : rest = []
      · simp [extractFrom, extractLoop, hr]
      · cases hk : findNextMarkerToken m rest with
        | none => simp [extractFrom, extractLoop, hr, hk]
        | some b =>
            obtain ⟨p, k⟩ := b
            by_cases hE : k = .End
            · simp [extractFrom, extractLoop, hr, hk, hE]
            · have hlt := afterMark_length_lt (findNext_eq_some.mp hk).1
              have hn := ih n (by omega) (phaseAfter k phase)
                (if k = .Error then { record phase (rest.take p) r with juliaError := true }
                  else record phase (rest.take p) r) (afterMark m rest p k) (by omega)
              have hl := ih rest.length (by omega) (phaseAfter k phase)
                (if k = .Error then { record phase (rest.take p) r with juliaError := true }
                  else record phase (rest.take p) r) (afterMark m rest p k) (by omega)
              simp only [extractFrom, extractLoop, hr, hk, hE, if_false]
              exact hn.trans hl.symm

theorem markerSegmentText_nil : markerSegmentText [] = [] := rfl

theorem appendSegment_nil_left (seg : Text) : appendSegment [] seg = markerSegmentText seg := by
  by_cases h : markerSegmentText seg = []
  · simp [appendSegment, h]
  · simp [appendSegment, h]

@[simp] theorem appendSegment_nil_right (out : Text) : appendSegment out [] = out := rfl

theorem markerSegmentText_concat {text : Text} (hcr : cr ∉ text) : markerSegmentText (text ++ [nl]) = text := by
  have hnone : cr ∉ text ++ [nl] := by
    rw [List.mem_append, not_or]
    exact ⟨hcr, by decide⟩
  rw [markerSegmentText, filter_noCr hnone]
  simp

theorem markerSegmentText_plain {text : Text} (hcr : cr ∉ text) (hlast : text.getLast? ≠ some nl) :
    markerSegmentText text = text := by
  rw [markerSegmentText, filter_noCr hcr]
  exact if_neg hlast

theorem markerSegmentText_length (seg : Text) : (markerSegmentText seg).length ≤ seg.length := by
  have hfilter := List.length_filter_le (· ≠ cr) seg
  simp only [markerSegmentText]
  split
  · rw [List.length_dropLast]
    omega
  · exact hfilter

theorem appendSegment_length_le (out seg : Text) :
    (appendSegment out seg).length ≤ out.length + 1 + (markerSegmentText seg).length := by
  simp only [appendSegment]
  split
  · omega
  · rw [List.length_append]
    split
    · rw [List.length_append, List.length_singleton]
    · omega

theorem record_nil (phase : Phase) (r : ExtractedOutput) : record phase [] r = r := by
  cases phase <;> rfl

theorem noMark_nil (m : Marker) : NoMark m [] := fun k hk => mark_ne_nil m k (List.infix_nil.mp hk)

theorem extractFrom_noMark {m : Marker} (phase : Phase) (r : ExtractedOutput) {rest : Text}
    (h : NoMark m rest) : extractFrom m phase r rest = record phase rest r := by
  by_cases hr : rest = []
  · simp [extractFrom, extractLoop, hr, record_nil]
  · simp [extractFrom, extractLoop, hr, findNext_eq_none.mpr h]

theorem extractFrom_end {m : Marker} (phase : Phase) (r : ExtractedOutput) {rest : Text} {p : Nat}
    (h : FirstMark m rest p .End) :
    extractFrom m phase r rest = { record phase (rest.take p) r with foundEnd := true } := by
  have hr : rest ≠ [] := by
    rintro rfl
    simpa using h.1.bound (mark_ne_nil m .End)
  simp [extractFrom, extractLoop, hr, findNext_eq_some.mpr h]

theorem extractFrom_mark {m : Marker} (phase : Phase) (r : ExtractedOutput) {rest : Text} {p : Nat}
    {k : Kind} (h : FirstMark m rest p k) (hk : k ≠ .End) :
    extractFrom m phase r rest = extractFrom m (phaseAfter k phase)
      (if k = .Error then { record phase (rest.take p) r with juliaError := true }
        else record phase (rest.take p) r) (afterMark m rest p k) := by
  have hr : rest ≠ [] := by
    rintro rfl
    simpa using h.1.bound (mark_ne_nil m k)
  have hlt := afterMark_length_lt h.1
  rw [← extractLoop_fuel m rest.length (phaseAfter k phase) _ (afterMark m rest p k) hlt]
  simp [extractFrom, extractLoop, hr, findNext_eq_some.mpr h, hk, afterMark]

/-- The turns of the loop: no token is left, the next one is END, or the text
after the next one is scanned. -/
theorem scan_induction {m : Marker} {P : Text → Prop} (noMark : ∀ rest, NoMark m rest → P rest)
    (last : ∀ rest p, FirstMark m rest p .End → P rest)
    (next : ∀ rest p k, FirstMark m rest p k → k ≠ .End → P (afterMark m rest p k) → P rest) (rest : Text) :
    P rest := by
  induction hn : rest.length using Nat.strong_induction_on generalizing rest with
  | _ n ih =>
      cases hk : findNextMarkerToken m rest with
      | none => exact noMark rest (findNext_eq_none.mp hk)
      | some b =>
          obtain ⟨p, k⟩ := b
          have hfirst := findNext_eq_some.mp hk
          by_cases hE : k = .End
          · subst hE
            exact last rest p hfirst
          · have hlt := afterMark_length_lt hfirst.1
            exact next rest p k hfirst hE (ih _ (by omega) _ rfl)

theorem findPayload_line (marker line l rest : Text) (hl : nl ∉ l) :
    findMarkerLinePayload marker line (l ++ nl :: rest) =
      if trimAscii (line ++ l) = marker then some rest else findMarkerLinePayload marker [] rest := by
  induction l generalizing line with
  | nil => simp [findMarkerLinePayload]
  | cons c cs ih =>
      have hc : c ≠ nl := fun h => hl (by simp [h])
      have hcs : nl ∉ cs := fun h => hl (by simp [h])
      simp [findMarkerLinePayload, hc, ih _ hcs]

theorem findPayload_isSuffix {marker line text payload : Text}
    (h : findMarkerLinePayload marker line text = some payload) : payload <:+ text := by
  induction text generalizing line with
  | nil =>
      rw [findMarkerLinePayload, Option.ite_none_right_eq_some] at h
      rw [← Option.some.inj h.2]
  | cons c cs ih =>
      rw [findMarkerLinePayload] at h
      split at h
      · split at h
        · rw [← Option.some.inj h]
          exact List.suffix_cons c cs
        · exact (ih h).trans (List.suffix_cons c cs)
      · exact (ih h).trans (List.suffix_cons c cs)

theorem findPayload_append {marker a : Text} (b : Text) (ha : Terminated nl a)
    (h : ∀ l ∈ closedLines nl [] a, trimAscii l ≠ marker) :
    findMarkerLinePayloadStart (a ++ b) marker = findMarkerLinePayloadStart b marker := by
  have hgen : ∀ t line, (∀ l ∈ closedLines nl line (t ++ [nl]), trimAscii l ≠ marker) →
      findMarkerLinePayload marker line (t ++ nl :: b) = findMarkerLinePayload marker [] b := by
    intro t
    induction t with
    | nil =>
        intro line hl
        have := hl line (by simp [closedLines])
        simp [findMarkerLinePayload, this]
    | cons c cs ih =>
        intro line hl
        by_cases hc : c = nl
        · simp only [List.cons_append, closedLines, hc, if_true, List.mem_cons, forall_eq_or_imp] at hl
          simp only [List.cons_append, findMarkerLinePayload, hc, if_true, hl.1, if_false]
          exact ih [] hl.2
        · simp only [List.cons_append, closedLines, hc, if_false] at hl
          simp only [List.cons_append, findMarkerLinePayload, hc, if_false]
          exact ih _ hl
  rcases ha with rfl | ⟨t, rfl⟩
  · rfl
  · rw [List.append_assoc, List.singleton_append]
    exact hgen t [] h

theorem findPayload_notInfix {marker text : Text} (h : ¬ marker <:+: text) :
    findMarkerLinePayloadStart text marker = none := by
  have hgen : ∀ t line, ¬ marker <:+: line ++ t → findMarkerLinePayload marker line t = none := by
    intro t
    induction t with
    | nil =>
        intro line hl
        have hne : trimAscii line ≠ marker := by
          rintro rfl
          exact hl (by simpa using trimAscii_isInfix line)
        simp [findMarkerLinePayload, hne]
    | cons c cs ih =>
        intro line hl
        by_cases hc : c = nl
        · have hne : trimAscii line ≠ marker := by
            rintro rfl
            exact hl (List.infix_append_of_infix_left (trimAscii_isInfix line))
          have hcs : ¬ marker <:+: [] ++ cs := fun hi =>
            hl (List.infix_append_of_infix_right (List.infix_cons (by simpa using hi)))
          simp [findMarkerLinePayload, hc, hne, ih [] hcs]
        · have hcs : ¬ marker <:+: (line ++ [c]) ++ cs := by simpa using hl
          simp [findMarkerLinePayload, hc, ih _ hcs]
  exact hgen text [] h

theorem extract_eq (capture : Text) (m : Marker) :
    extractBetweenMarkers capture m =
      match findMarkerLinePayloadStart capture m.beginMark with
      | none => {}
      | some rest => extractFrom m .Stdout { foundBegin := true } rest := rfl

end JJMCP.Extract
