import JJMCP.EvalCode

namespace JJMCP.EvalCode

open Lib.Occurrence Text Marker Poll

def undefVarError : Text := lit "UndefVarError"
def jjmcpCommand : Text := lit "JJMCP_COMMAND"

/-- The text names UndefVarError and, after it, JJMCP_COMMAND. -/
def NamesRejection (text : Text) : Prop := ∃ a b c, text = a ++ undefVarError ++ b ++ jjmcpCommand ++ c

/-- The text from the last occurrence of the marker id on; all of it without one. -/
def fromLast (markerId text : Text) : Text := text.drop ((rfind markerId text).getD 0)

theorem namesRejection_iff {text : Text} :
    NamesRejection text ↔ ∃ p, At undefVarError text p ∧ jjmcpCommand <:+: text.drop p := by
  constructor
  · rintro ⟨a, b, c, rfl⟩
    refine ⟨a.length, ?_, ?_⟩
    · simp [At, List.append_assoc]
    · rw [List.append_assoc, List.append_assoc, List.append_assoc, List.drop_left]
      exact ⟨undefVarError ++ b, c, by simp⟩
  · rintro ⟨p, ⟨rest, hrest⟩, hin⟩
    rw [← hrest, infix_iff_at] at hin
    obtain ⟨q, hq⟩ := hin
    have hlate : undefVarError.length ≤ q := by
      by_contra hlt
      have h0 := hq.getElem? (i := 0) (by decide)
      rw [Nat.add_zero, List.getElem?_append_left (by omega)] at h0
      have hmem := List.mem_of_getElem? (h0.trans (show jjmcpCommand[0]? = some 74 from by decide))
      exact absurd hmem (by decide)
    obtain ⟨d, rfl⟩ := Nat.exists_eq_add_of_le hlate
    rw [at_append_right] at hq
    obtain ⟨c, hc⟩ := hq
    refine ⟨text.take p, rest.take d, c, ?_⟩
    calc text = text.take p ++ text.drop p := (List.take_append_drop p text).symm
      _ = text.take p ++ (undefVarError ++ (rest.take d ++ rest.drop d)) := by rw [← hrest, List.take_append_drop]
      _ = text.take p ++ undefVarError ++ rest.take d ++ jjmcpCommand ++ c := by rw [← hc]; simp

/-- The search from the first UndefVarError on sees what any later one has after it. -/
theorem jjmcpRuntimeMissing_iff {capture markerId : Text} {echo : Nat} (h : rfind markerId capture = some echo) :
    jjmcpRuntimeMissing capture markerId = true ↔ NamesRejection (capture.drop echo) := by
  rw [namesRejection_iff, jjmcpRuntimeMissing, h]
  dsimp only
  cases hf : find (lit "UndefVarError") (capture.drop echo) with
  | none =>
      have hno := find_eq_none.mp hf
      exact iff_of_false (by simp) fun ⟨p, hp, _⟩ => hno hp.isInfix
  | some p =>
      obtain ⟨-, hat, hfirst⟩ := find_eq_some.mp hf
      simp only [find_isSome, ← List.drop_drop]
      constructor
      · exact fun hin => ⟨p, hat, hin⟩
      · rintro ⟨q, hq, hin⟩
        have hpq : p ≤ q := Nat.le_of_not_lt fun hlt => hfirst q hlt hq
        obtain ⟨d, rfl⟩ := Nat.exists_eq_add_of_le hpq
        rw [← List.drop_drop] at hin
        exact hin.trans (List.drop_suffix d _).isInfix

/-- A line without UndefVarError does not matter. -/
theorem namesRejection_head {line : Text} (h : ¬ undefVarError <:+: line) (rest : Text) :
    NamesRejection (line ++ nl :: rest) ↔ NamesRejection rest := by
  simp only [namesRejection_iff]
  have hdrop (d : Nat) : (line ++ nl :: rest).drop (line.length + 1 + d) = rest.drop d := by
    rw [← List.drop_drop, ← List.drop_drop, List.drop_left]
    rfl
  constructor
  · rintro ⟨p, hp, hin⟩
    rcases (at_sep (by decide) (by decide) line rest p).mp hp with ⟨-, hp⟩ | ⟨hlt, hp⟩
    · exact absurd hp.isInfix h
    · obtain ⟨d, rfl⟩ := Nat.exists_eq_add_of_le (Nat.succ_le_of_lt hlt)
      rw [hdrop] at hin
      rw [Nat.succ_eq_add_one, Nat.add_sub_cancel_left] at hp
      exact ⟨d, hp, hin⟩
  · rintro ⟨d, hp, hin⟩
    have hsub : line.length + 1 + d - (line.length + 1) = d := by omega
    exact ⟨line.length + 1 + d, (at_sep (by decide) (by decide) line rest _).mpr (.inr ⟨by omega, by rwa [hsub]⟩),
      by rwa [hdrop]⟩

/-- Neither does what follows without either name. -/
theorem namesRejection_tail {rest : Text} (hu : ¬ undefVarError <:+: rest) (hc : ¬ jjmcpCommand <:+: rest)
    (text : Text) : NamesRejection (text ++ nl :: rest) ↔ NamesRejection text := by
  simp only [namesRejection_iff]
  constructor
  · rintro ⟨p, hp, hin⟩
    rcases (at_sep (by decide) (by decide) text rest p).mp hp with ⟨hle, hp⟩ | ⟨-, hp⟩
    · rw [List.drop_append_of_le_length (by omega)] at hin
      exact ⟨p, hp, ((infix_sep (by decide) (by decide) _ rest).mp hin).resolve_right hc⟩
    · exact absurd hp.isInfix hu
  · rintro ⟨p, hp, hin⟩
    have hb := hp.bound (by decide)
    refine ⟨p, (at_sep (by decide) (by decide) text rest p).mpr (.inl ⟨hb, hp⟩), ?_⟩
    rw [List.drop_append_of_le_length (by omega)]
    exact List.infix_append_of_infix_left hin

theorem NamesRejection.append {text : Text} (h : NamesRejection text) (before after : Text) :
    NamesRejection (before ++ text ++ after) := by
  obtain ⟨a, b, c, rfl⟩ := h
  exact ⟨before ++ a, b, c ++ after, by simp⟩

theorem fromLast_none {markerId text : Text} (h : ¬ markerId <:+: text) : fromLast markerId text = text := by
  rw [fromLast, rfind_eq_none.mpr h]
  rfl

section

variable {markerId : Text} {sep : UInt8} (hsep : sep ∉ markerId) (hne : markerId ≠ [])

include hsep hne

theorem fromLast_right {r : Text} (h : markerId <:+: r) (l : Text) :
    fromLast markerId (l ++ sep :: r) = fromLast markerId r := by
  cases hr : rfind markerId r with
  | none => exact absurd h (rfind_eq_none.mp hr)
  | some p =>
      rw [fromLast, fromLast, rfind_sep hsep hne, hr, Option.map_some, Option.some_or, Option.getD_some,
        Option.getD_some, ← List.drop_drop, ← List.drop_drop, List.drop_left]
      rfl

theorem fromLast_left {l r : Text} (hr : ¬ markerId <:+: r) (hl : markerId <:+: l) :
    fromLast markerId (l ++ sep :: r) = fromLast markerId l ++ sep :: r := by
  cases hp : rfind markerId l with
  | none => exact absurd hl (rfind_eq_none.mp hp)
  | some p =>
      have hb := ((rfind_eq_some hne).mp hp).1.bound hne
      rw [fromLast, fromLast, rfind_sep hsep hne, rfind_eq_none.mpr hr, Option.map_none, Option.none_or, hp,
        Option.getD_some, List.drop_append_of_le_length (by omega)]

end

theorem jjmcpRuntimeMissing_fromLast {capture markerId : Text} (h : markerId <:+: capture) :
    jjmcpRuntimeMissing capture markerId = true ↔ NamesRejection (fromLast markerId capture) := by
  cases hr : rfind markerId capture with
  | none => exact absurd h (rfind_eq_none.mp hr)
  | some echo => rw [jjmcpRuntimeMissing_iff hr, fromLast, hr, Option.getD_some]

theorem makeMarkerId_chars (micros pid sequence : Nat) :
    (∀ c ∈ makeMarkerId micros pid sequence, (48 ≤ c ∧ c ≤ 57) ∨ c = 95) ∧ 95 ∈ makeMarkerId micros pid sequence := by
  constructor
  · intro c hc
    have hsep : lit "_" = [95] := by decide
    simp only [makeMarkerId, List.mem_append] at hc
    rcases hc with (((hc | hc) | hc) | hc) | hc
    · exact .inl (decimal_digit hc)
    · exact .inr (List.mem_singleton.mp (hsep ▸ hc))
    · exact .inl (decimal_digit hc)
    · exact .inr (List.mem_singleton.mp (hsep ▸ hc))
    · exact .inl (decimal_digit hc)
  · have h95 : (95 : UInt8) ∈ lit "_" := by decide
    simp [makeMarkerId, h95]

theorem not_infix_of_mem {pat text : Text} {c : UInt8} (hp : c ∈ pat) (ht : c ∉ text) : ¬ pat <:+: text :=
  fun h => ht (h.subset hp)

theorem juliaEscape_plain {c : UInt8} (h : (48 ≤ c ∧ c ≤ 57) ∨ c = 95) : juliaEscape c = [c] := by
  rcases h with ⟨hlo, hhi⟩ | rfl
  · have hne {d : UInt8} (hd : ¬ (48 ≤ d ∧ d ≤ 57)) : c ≠ d := by
      rintro rfl
      exact hd ⟨hlo, hhi⟩
    have hprint : ¬ c < 0x20 := fun hlt => absurd (UInt8.lt_of_le_of_lt hlo hlt) (by decide)
    rw [juliaEscape, if_neg (hne (by decide)), if_neg (hne (by decide)), if_neg (hne (by decide)),
      if_neg (hne (by decide)), if_neg (hne (by decide)), if_neg (hne (by decide)), if_neg hprint]
  · decide

def evalSource (code : Text) : Text := if code = [] then lit "nothing" else code

/-- What wrap_julia_code writes around the code. -/
def echoOf (markerId : Text) (timeoutMs : Nat) (body : Text) : Text :=
  lit "@JJMCP_COMMAND \"" ++ markerId ++ 34 ::
    (lit " " ++ decimal timeoutMs ++ lit " begin" ++ nl :: (body ++ nl :: (lit "end" ++ [nl])))

theorem wrapJuliaCode_echo (code : Text) (micros pid sequence timeoutMs : Nat) :
    ∃ body, wrapJuliaCode code (makeMarker (makeMarkerId micros pid sequence)) timeoutMs =
        echoOf (makeMarkerId micros pid sequence) timeoutMs body ∧
      (body = evalSource code ∨ body ++ [nl] = evalSource code) := by
  have hescape : (makeMarkerId micros pid sequence).flatMap juliaEscape = makeMarkerId micros pid sequence := by
    calc (makeMarkerId micros pid sequence).flatMap juliaEscape
        = (makeMarkerId micros pid sequence).flatMap fun c => [c] :=
          List.flatMap_congr fun c hc => juliaEscape_plain ((makeMarkerId_chars micros pid sequence).1 c hc)
      _ = makeMarkerId micros pid sequence := by simp
  have hquote : lit "\"" = [34] := by decide
  have hbegin : lit " begin\n" = lit " begin" ++ [nl] := by decide
  have hend : lit "end\n" = lit "end" ++ [nl] := by decide
  have hwrap (body : Text) (h : evalSource code ++ (if (evalSource code).getLast? = some nl then [] else [nl]) =
      body ++ [nl]) : wrapJuliaCode code (makeMarker (makeMarkerId micros pid sequence)) timeoutMs =
        echoOf (makeMarkerId micros pid sequence) timeoutMs body := by
    have hcommand : lit "@JJMCP_COMMAND \"" = lit "@JJMCP_COMMAND " ++ [34] := by decide
    have hdef : wrapJuliaCode code (makeMarker (makeMarkerId micros pid sequence)) timeoutMs =
        lit "@JJMCP_COMMAND " ++ juliaStringLiteral (makeMarkerId micros pid sequence) ++ lit " " ++
          decimal timeoutMs ++ lit " begin\n" ++
          (evalSource code ++ (if (evalSource code).getLast? = some nl then [] else [nl])) ++ lit "end\n" := by
      rw [← List.append_assoc]
      rfl
    rw [hdef, h, juliaStringLiteral, hescape, hquote, hbegin, hend, echoOf, hcommand]
    simp only [List.append_assoc, List.cons_append, List.nil_append]
  by_cases hlast : (evalSource code).getLast? = some nl
  · obtain ⟨body, hbody⟩ := List.getLast?_eq_some_iff.mp hlast
    exact ⟨body, hwrap body (by rw [if_pos hlast, List.append_nil, hbody]), .inr hbody.symm⟩
  · exact ⟨evalSource code, hwrap _ (by rw [if_neg hlast]), .inl rfl⟩

theorem header_plain (timeoutMs : Nat) {c : UInt8} (hc : ¬ (48 ≤ c ∧ c ≤ 57)) (hspace : c ∉ lit " ")
    (hbegin : c ∉ lit " begin") : c ∉ lit " " ++ decimal timeoutMs ++ lit " begin" := by
  have hdigit : c ∉ decimal timeoutMs := fun h => hc (decimal_digit h)
  simp [hdigit, hspace, hbegin]

section

variable {markerId body : Text} (hid : (∀ c ∈ markerId, (48 ≤ c ∧ c ≤ 57) ∨ c = 95) ∧ 95 ∈ markerId)

include hid

theorem id_plain {c : UInt8} (hc : ¬ ((48 ≤ c ∧ c ≤ 57) ∨ c = 95)) : c ∉ markerId := fun h => hc (hid.1 c h)

theorem id_not_plain {text : Text} (h : 95 ∉ text) : ¬ markerId <:+: text := not_infix_of_mem hid.2 h

/-- The part of the capture that is searched, for an echo and what follows it. -/
theorem fromLast_echo (scrollback message : Text) (timeoutMs : Nat) :
    fromLast markerId (scrollback ++ echoOf markerId timeoutMs body ++ message) =
      if markerId <:+: message then fromLast markerId message
      else if markerId <:+: body then fromLast markerId body ++ nl :: (lit "end" ++ nl :: message)
      else markerId ++ 34 :: (lit " " ++ decimal timeoutMs ++ lit " begin" ++
        nl :: (body ++ nl :: (lit "end" ++ nl :: message))) := by
  have hne : markerId ≠ [] := List.ne_nil_of_mem hid.2
  have hquote : 34 ∉ markerId := id_plain hid (by decide)
  have hnl : nl ∉ markerId := id_plain hid (by decide)
  have hheader : ¬ markerId <:+: lit " " ++ decimal timeoutMs ++ lit " begin" := 
    id_not_plain hid (header_plain timeoutMs (by decide) (by decide) (by decide))
  have hend : ¬ markerId <:+: lit "end" := id_not_plain hid (by decide)
  have hsplit : scrollback ++ echoOf markerId timeoutMs body ++ message =
      (scrollback ++ lit "@JJMCP_COMMAND \"" ++ markerId) ++ 34 :: (lit " " ++ decimal timeoutMs ++ lit " begin" ++
        nl :: (body ++ nl :: (lit "end" ++ nl :: message))) := by
    simp [echoOf]
  have hafter (r : Text) : markerId <:+: lit "end" ++ nl :: r ↔ markerId <:+: r := by
    rw [infix_sep hnl hne]
    exact or_iff_right hend
  have hline (r : Text) : markerId <:+: lit " " ++ decimal timeoutMs ++ lit " begin" ++ nl :: r ↔ markerId <:+: r := by
    rw [infix_sep hnl hne]
    exact or_iff_right hheader
  rw [hsplit]
  split
  next hm =>
    have hm1 := (hafter message).mpr hm
    have hm2 := (infix_sep hnl hne body _).mpr (.inr hm1)
    rw [fromLast_right hquote hne ((hline _).mpr hm2), fromLast_right hnl hne hm2, fromLast_right hnl hne hm1,
      fromLast_right hnl hne hm]
  next hm =>
    have hm1 : ¬ markerId <:+: lit "end" ++ nl :: message := fun h => hm ((hafter _).mp h)
    split
    next hb =>
      have hb2 := (infix_sep hnl hne body (lit "end" ++ nl :: message)).mpr (.inl hb)
      rw [fromLast_right hquote hne ((hline _).mpr hb2), fromLast_right hnl hne hb2, fromLast_left hnl hne hm1 hb]
    next hb =>
      have hb2 : ¬ markerId <:+: body ++ nl :: (lit "end" ++ nl :: message) := fun h =>
        ((infix_sep hnl hne _ _).mp h).elim hb hm1
      rw [fromLast_left hquote hne (fun h => hb2 ((hline _).mp h)) List.infix_append_right]
      rw [fromLast, rfind_suffix hne, Option.getD_some, List.drop_left]

theorem header_noError (timeoutMs : Nat) :
    ¬ undefVarError <:+: markerId ++ 34 :: (lit " " ++ decimal timeoutMs ++ lit " begin") := by
  have hid85 : 85 ∉ markerId := id_plain hid (by decide)
  have hline85 : 85 ∉ lit " " ++ decimal timeoutMs ++ lit " begin" :=
    header_plain timeoutMs (by decide) (by decide) (by decide)
  refine not_infix_of_mem (c := 85) (by decide) ?_
  rw [List.mem_append, List.mem_cons, not_or, not_or]
  exact ⟨hid85, by decide, hline85⟩

/-- Where the code does not name the error, what follows the echo does. -/
theorem namesRejection_message (hbody : ¬ undefVarError <:+: body) {scrollback message : Text} {timeoutMs : Nat}
    (h : NamesRejection (fromLast markerId (scrollback ++ echoOf markerId timeoutMs body ++ message))) :
    NamesRejection message := by
  have hend {line : Text} (hline : ¬ undefVarError <:+: line)
      (h : NamesRejection (line ++ nl :: (lit "end" ++ nl :: message))) : NamesRejection message :=
    (namesRejection_head (by decide) message).mp ((namesRejection_head hline _).mp h)
  rw [fromLast_echo hid] at h
  split at h
  · obtain ⟨above, hcut⟩ := List.drop_suffix ((rfind markerId message).getD 0) message
    have happend := h.append above []
    rwa [List.append_nil, fromLast, hcut] at happend
  split at h
  · exact hend (fun hin => hbody (hin.trans (List.drop_suffix _ _).isInfix)) h
  · refine hend hbody ((namesRejection_head (header_noError hid timeoutMs) _).mp ?_)
    simpa using h

/-- Nothing follows the echo. -/
theorem missing_echo (scrollback : Text) (timeoutMs : Nat) :
    jjmcpRuntimeMissing (scrollback ++ echoOf markerId timeoutMs body) markerId = true ↔
      NamesRejection (fromLast markerId body) := by
  have hne : markerId ≠ [] := List.ne_nil_of_mem hid.2
  have hin : markerId <:+: scrollback ++ echoOf markerId timeoutMs body :=
    ⟨scrollback ++ lit "@JJMCP_COMMAND \"", 34 :: (lit " " ++ decimal timeoutMs ++ lit " begin" ++
        nl :: (body ++ nl :: (lit "end" ++ [nl]))), by simp [echoOf]⟩
  have hcut := @fromLast_echo _ body hid scrollback [] timeoutMs
  have hnil : ¬ markerId <:+: [] := fun h => hne (List.infix_nil.mp h)
  rw [List.append_nil, if_neg hnil] at hcut
  rw [jjmcpRuntimeMissing_fromLast hin, hcut]
  have htail (text : Text) : NamesRejection (text ++ nl :: (lit "end" ++ nl :: [])) ↔ NamesRejection text :=
    namesRejection_tail (by decide) (by decide) text
  split
  · exact htail _
  next hb =>
    have hheader := header_noError hid timeoutMs
    rw [fromLast_none hb]
    have hline : markerId ++ 34 :: (lit " " ++ decimal timeoutMs ++ lit " begin" ++
        nl :: (body ++ nl :: (lit "end" ++ [nl]))) =
        (markerId ++ 34 :: (lit " " ++ decimal timeoutMs ++ lit " begin")) ++
          nl :: (body ++ nl :: (lit "end" ++ [nl])) := by simp
    rw [hline, namesRejection_head hheader]
    exact htail body

/-- A message that names the rejection follows the echo. -/
theorem missing_message {message : Text} (h : NamesRejection message) (scrollback : Text) (timeoutMs : Nat) :
    jjmcpRuntimeMissing (scrollback ++ echoOf markerId timeoutMs body ++ message) markerId = true ↔
      NamesRejection (fromLast markerId message) := by
  have hin : markerId <:+: scrollback ++ echoOf markerId timeoutMs body ++ message :=
    ⟨scrollback ++ lit "@JJMCP_COMMAND \"", 34 :: (lit " " ++ decimal timeoutMs ++ lit " begin" ++
        nl :: (body ++ nl :: (lit "end" ++ nl :: message))), by simp [echoOf]⟩
  rw [jjmcpRuntimeMissing_fromLast hin, fromLast_echo hid]
  have hafter (before : Text) : NamesRejection (before ++ nl :: (lit "end" ++ nl :: message)) := by
    simpa using h.append (before ++ nl :: (lit "end" ++ [nl])) []
  split
  · rfl
  next hm =>
    rw [fromLast_none hm]
    split
    · exact iff_of_true (hafter _) h
    · refine iff_of_true ?_ h
      simpa using hafter (markerId ++ 34 :: (lit " " ++ decimal timeoutMs ++ lit " begin" ++ nl :: body))

end

theorem fromLast_source {markerId : Text} (hid : (∀ c ∈ markerId, (48 ≤ c ∧ c ≤ 57) ∨ c = 95) ∧ 95 ∈ markerId)
    {code body : Text} (h : body = evalSource code ∨ body ++ [nl] = evalSource code) :
    NamesRejection (fromLast markerId body) ↔ NamesRejection (fromLast markerId code) := by
  have hne : markerId ≠ [] := List.ne_nil_of_mem hid.2
  have hnl : nl ∉ markerId := id_plain hid (by decide)
  have hnil : ¬ markerId <:+: [] := fun h => hne (List.infix_nil.mp h)
  have hno {text : Text} (hin : ¬ markerId <:+: text) (hu : ¬ undefVarError <:+: text) :
      ¬ NamesRejection (fromLast markerId text) := by
    rw [fromLast_none hin, namesRejection_iff]
    exact fun ⟨_, hp, _⟩ => hu hp.isInfix
  have hsource : NamesRejection (fromLast markerId (evalSource code)) ↔ NamesRejection (fromLast markerId code) := by
    by_cases hcode : code = []
    · rw [evalSource, if_pos hcode, hcode]
      exact iff_of_false (hno (id_not_plain hid (by decide)) (by decide)) (hno hnil (by decide))
    · rw [evalSource, if_neg hcode]
  rw [← hsource]
  rcases h with h | h
  · rw [h]
  · rw [← h]
    by_cases hin : markerId <:+: body
    · rw [fromLast_left hnl hne hnil hin]
      exact (namesRejection_tail (by decide) (by decide) _).symm
    · have hin' : ¬ markerId <:+: body ++ [nl] := fun h => ((infix_sep hnl hne body []).mp h).elim hin hnil
      rw [fromLast_none hin, fromLast_none hin']
      exact (namesRejection_tail (by decide) (by decide) _).symm

/-- Only such a capture ends the pass as missing. -/
theorem poll_keeps_waiting {pass : Pass} {s : PollState} {i : PollInput} {cap : Text} (h : i.captured = .ok cap)
    (hmissing : jjmcpRuntimeMissing cap pass.marker.id = false) : pollStep pass s i ≠ .missing := by
  rw [pollStep, h]
  simp only [hmissing, Bool.false_eq_true, and_false, if_false]
  split
  · simp
  · split
    · simp
    · simp

/-- A poll between the echo and BEGIN takes the runtime for missing exactly when the
code itself names the rejection, after the marker id if it has that; else the poll
does not end the pass. A rejection is seen exactly when the message names it still
after the id, if it has that. -/
theorem runtimeMissing_iff (scrollback code : Text) (timeoutMs micros pid sequence : Nat) :
    (jjmcpRuntimeMissing (scrollback ++ wrapJuliaCode code (makeMarker (makeMarkerId micros pid sequence)) timeoutMs)
        (makeMarkerId micros pid sequence) = false ↔
      ¬ NamesRejection (fromLast (makeMarkerId micros pid sequence) code)) ∧
    (¬ NamesRejection (fromLast (makeMarkerId micros pid sequence) code) → ∀ pass s i,
      pass.marker = makeMarker (makeMarkerId micros pid sequence) →
      i.captured = .ok (scrollback ++ wrapJuliaCode code (makeMarker (makeMarkerId micros pid sequence)) timeoutMs) →
      pollStep pass s i ≠ .missing) ∧
    ∀ message, NamesRejection message →
      (jjmcpRuntimeMissing
          (scrollback ++ wrapJuliaCode code (makeMarker (makeMarkerId micros pid sequence)) timeoutMs ++ message)
          (makeMarkerId micros pid sequence) = true ↔
        NamesRejection (fromLast (makeMarkerId micros pid sequence) message)) := by
  have hid := makeMarkerId_chars micros pid sequence
  obtain ⟨body, hwrap, hbody⟩ := wrapJuliaCode_echo code micros pid sequence timeoutMs
  rw [hwrap]
  have hecho : jjmcpRuntimeMissing (scrollback ++ echoOf (makeMarkerId micros pid sequence) timeoutMs body)
      (makeMarkerId micros pid sequence) = false ↔ ¬ NamesRejection (fromLast (makeMarkerId micros pid sequence) code) := by
    rw [← Bool.not_eq_true, missing_echo hid, fromLast_source hid hbody]
  refine ⟨hecho, fun hcode pass s i hm hcap => ?_, fun message h => missing_message hid h scrollback timeoutMs⟩
  exact poll_keeps_waiting hcap (by rw [hm]; exact hecho.mpr hcode)

/-- The code prints the error that it handles. -/
theorem not_runtimeMissing :
    ¬ ∀ scrollback code timeoutMs micros pid sequence,
      jjmcpRuntimeMissing (scrollback ++ wrapJuliaCode code (makeMarker (makeMarkerId micros pid sequence)) timeoutMs)
        (makeMarkerId micros pid sequence) = false := by
  intro h
  have hecho := h (lit "julia> ") (lit "println(\"UndefVarError: @JJMCP_COMMAND\")") 10000 17 4 1
  exact absurd hecho (by decide +kernel)

end JJMCP.EvalCode
