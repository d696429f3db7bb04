import JJMCP.Tools

namespace JJMCP

/-- What a reader of Julia source makes of a text that is to open with an
ordinary string: the string's bytes and the text after it, or the dollar that
splices an expression into it. -/
inductive Lexed
  | string (bytes rest : Text)
  | interpolation (bytes rest : Text)
  | invalid
  deriving DecidableEq, Repr

end JJMCP

namespace JJMCP.JuliaLiteral

open Text EvalCode Tools

def push (c : UInt8) : Lexed → Lexed
  | .string bytes rest => .string (c :: bytes) rest
  | .interpolation bytes rest => .interpolation (c :: bytes) rest
  | .invalid => .invalid

def hexValue (c : UInt8) : Option Nat :=
  if 48 ≤ c ∧ c ≤ 57 then some (c.toNat - 48)
  else if 97 ≤ c ∧ c ≤ 102 then some (c.toNat - 87)
  else if 65 ≤ c ∧ c ≤ 70 then some (c.toNat - 55)
  else none

/-- The escapes of one byte, the backslash aside. -/
def simpleEscape (c : UInt8) : Option UInt8 :=
  if c = 92 ∨ c = 34 ∨ c = 36 then some c
  else if c = 110 then some 10
  else if c = 114 then some 13
  else if c = 116 then some 9
  else none

/-- The text after the opening quote. -/
def readBody : Text → Lexed
  | [] => .invalid
  | c :: cs =>
      if c = 34 then .string [] cs
      else if c = 36 then .interpolation [] cs
      else if c = 92 then
        match cs with
        | [] => .invalid
        | e :: es =>
            if e = 120 then
              match es with
              | [] => .invalid
              | h :: hs =>
                  match hexValue h with
                  | none => .invalid
                  | some high =>
                      match hs with
                      | [] => .invalid
                      | l :: ls =>
                          match hexValue l with
                          | some low => push (UInt8.ofNat (16 * high + low)) (readBody ls)
                          -- one digit is an escape of its own
                          | none => push (UInt8.ofNat high) (readBody (l :: ls))
            else
              match simpleEscape e with
              | some v => push v (readBody es)
              | none => .invalid
      else push c (readBody cs)

/-- A reference lexer for an ordinary double-quoted string. -/
def readString : Text → Lexed
  | [] => .invalid
  | c :: cs => if c = 34 then readBody cs else .invalid

/-- The string literal that stands in the code after the given text. -/
def literalAfter (before code : Text) : Lexed :=
  if before <+: code then readString (code.drop before.length) else .invalid

theorem push_string (c : UInt8) (bytes rest : Text) : push c (.string bytes rest) = .string (c :: bytes) rest := rfl

theorem readBody_quote (r : Text) : readBody (34 :: r) = .string [] r := by
  rw [readBody.eq_def]
  simp

theorem readBody_plain {c : UInt8} (h1 : c ≠ 34) (h2 : c ≠ 36) (h3 : c ≠ 92) (t : Text) :
    readBody (c :: t) = push c (readBody t) := by
  rw [readBody.eq_def]
  simp only [h1, h2, h3, if_false]

theorem readBody_simple {e v : UInt8} (he : e ≠ 120) (hv : simpleEscape e = some v) (t : Text) :
    readBody (92 :: e :: t) = push v (readBody t) := by
  rw [readBody.eq_def]
  simp [he, hv]

theorem readBody_hex {h l : UInt8} {high low : Nat} (hh : hexValue h = some high) (hl : hexValue l = some low)
    (t : Text) : readBody (92 :: 120 :: h :: l :: t) = push (UInt8.ofNat (16 * high + low)) (readBody t) := by
  rw [readBody.eq_def]
  simp [hh, hl]

/-- The two digits of the escape of a control byte. -/
theorem control_digits {c : UInt8} (hc : c < 0x20) :
    ∃ h l, (Nat.toDigits 16 (c.toNat / 16) ++ Nat.toDigits 16 (c.toNat % 16)).map Char.toUInt8 = [h, l] ∧
      hexValue h = some (c.toNat / 16) ∧ hexValue l = some (c.toNat % 16) := by
  have hdigit : ∀ d < 16, ∃ h, (Nat.toDigits 16 d).map Char.toUInt8 = [h] ∧ hexValue h = some d := by
    intro d hd
    refine ⟨d.digitChar.toUInt8, ?_, ?_⟩
    · rw [Nat.toDigits_of_lt_base hd, List.map_singleton]
    · revert hd d
      decide
  have hlt : c.toNat < 32 := UInt8.lt_iff_toNat_lt.mp hc
  obtain ⟨h, hh, hv⟩ := hdigit (c.toNat / 16) (by omega)
  obtain ⟨l, hl, hw⟩ := hdigit (c.toNat % 16) (by omega)
  exact ⟨h, l, by rw [List.map_append, hh, hl, List.singleton_append], hv, hw⟩

/-- One byte is read back whatever follows its escape: none is the beginning of
another one. -/
theorem readBody_escape (c : UInt8) (t : Text) : readBody (juliaEscape c ++ t) = push c (readBody t) := by
  rw [juliaEscape]
  split_ifs with h1 h2 h3 h4 h5 h6 h7
  · subst h1
    exact readBody_simple (by decide) rfl t
  · subst h2
    exact readBody_simple (by decide) rfl t
  · subst h3
    exact readBody_simple (by decide) rfl t
  · subst h4
    exact readBody_simple (by decide) rfl t
  · subst h5
    exact readBody_simple (by decide) rfl t
  · subst h6
    exact readBody_simple (by decide) rfl t
  · obtain ⟨h, l, hd, hh, hl⟩ := control_digits h7
    have hc : UInt8.ofNat (16 * (c.toNat / 16) + c.toNat % 16) = c := by
      rw [Nat.div_add_mod, UInt8.ofNat_toNat]
    rw [hd]
    exact (readBody_hex hh hl t).trans (by rw [hc])
  · exact readBody_plain h2 h6 h1 t

theorem readBody_escapes (s r : Text) : readBody (s.flatMap juliaEscape ++ 34 :: r) = .string s r := by
  induction s with
  | nil => exact readBody_quote r
  | cons c cs ih => rw [List.flatMap_cons, List.append_assoc, readBody_escape, ih, push_string]

theorem readString_juliaStringLiteral (s r : Text) : readString (juliaStringLiteral s ++ r) = .string s r := by
  have hq : lit "\"" = [34] := rfl
  have hl : juliaStringLiteral s ++ r = 34 :: (s.flatMap juliaEscape ++ 34 :: r) := by
    simp [juliaStringLiteral, hq]
  rw [hl, readString, if_pos rfl, readBody_escapes]

theorem literalAfter_literal (before s after : Text) :
    literalAfter before (before ++ juliaStringLiteral s ++ after) = .string s after := by
  rw [List.append_assoc, literalAfter, if_pos (List.prefix_append _ _), List.drop_left,
    readString_juliaStringLiteral]

/-- What stands after the id in a wrapped evaluation. -/
def wrapRest (code : Text) (timeoutMs : Nat) : Text :=
  let evalSource := if code = [] then lit "nothing" else code
  lit " " ++ decimal timeoutMs ++ lit " begin\n" ++ evalSource ++
    (if evalSource.getLast? = some nl then [] else [nl]) ++ lit "end\n"

theorem literalAfter_wrapJuliaCode (code : Text) (m : Marker) (timeoutMs : Nat) :
    literalAfter (lit "@JJMCP_COMMAND ") (wrapJuliaCode code m timeoutMs) = .string m.id (wrapRest code timeoutMs) := by
  have hw : wrapJuliaCode code m timeoutMs =
      lit "@JJMCP_COMMAND " ++ juliaStringLiteral m.id ++ wrapRest code timeoutMs := by
    simp only [wrapJuliaCode, wrapRest, List.append_assoc]
  rw [hw, literalAfter_literal]

theorem literalAfter_makeActivateCode (path : Text) :
    literalAfter (lit "using Pkg\nPkg.activate(") (makeActivateCode path) = .string path (lit ")") :=
  literalAfter_literal _ path _

theorem literalAfter_makeTestCode_file {file : Text} (hf : file ≠ []) (testItemPattern : Text) :
    literalAfter (lit "include(") (makeTestCode [] file testItemPattern) = .string file (lit ")") := by
  rw [makeTestCode, if_neg (by simp), if_pos hf]
  exact literalAfter_literal _ file _

theorem literalAfter_makeTestCode_pattern {testItemPattern : Text} (hp : testItemPattern ≠ []) :
    literalAfter (lit "using TestItemRunner\n@run_package_tests filter=ti->occursin(")
      (makeTestCode [] [] testItemPattern) = .string testItemPattern (lit ", ti.name)") := by
  rw [makeTestCode, if_neg (by simp), if_neg (by simp), if_pos hp]
  exact literalAfter_literal _ testItemPattern _

/-- A literal is read back to its end and no further, and each code that is
built around one denotes the given string there. -/
theorem julia_literals_read_back :
    (∀ s r, readString (juliaStringLiteral s ++ r) = .string s r) ∧
    (∀ path, literalAfter (lit "using Pkg\nPkg.activate(") (makeActivateCode path) = .string path (lit ")")) ∧
    (∀ file testItemPattern, file ≠ [] →
      literalAfter (lit "include(") (makeTestCode [] file testItemPattern) = .string file (lit ")")) ∧
    (∀ testItemPattern, testItemPattern ≠ [] →
      literalAfter (lit "using TestItemRunner\n@run_package_tests filter=ti->occursin(")
        (makeTestCode [] [] testItemPattern) = .string testItemPattern (lit ", ti.name)")) ∧
    (∀ code m timeoutMs,
      literalAfter (lit "@JJMCP_COMMAND ") (wrapJuliaCode code m timeoutMs) = .string m.id (wrapRest code timeoutMs)) := by
  refine ⟨readString_juliaStringLiteral, literalAfter_makeActivateCode, ?_, ?_, literalAfter_wrapJuliaCode⟩
  · intro file testItemPattern hf
    exact literalAfter_makeTestCode_file hf testItemPattern
  · intro testItemPattern hp
    exact literalAfter_makeTestCode_pattern hp

theorem julia_literals_read_back_item :
    literalAfter (lit "using TestItemRunner\n@run_package_tests filter=ti->occursin(")
      (makeTestCode [] [] (lit "\\\"$(1)\x01f")) = .string (lit "\\\"$(1)\x01f") (lit ", ti.name)") :=
  julia_literals_read_back.2.2.2.1 _ (by decide)

end JJMCP.JuliaLiteral
