import JJMCP.Tools

namespace JJMCP

structure ServeOptions where
  transcript : Text := []
  transcriptFormat : Text := []
  deriving DecidableEq, Repr

structure TranscriptSettings where
  path : Text := []
  format : Text := []
  deriving DecidableEq, Repr

/-- The variables that serve reads for its options. -/
structure ServeEnv where
  transcript : Option Text := none
  transcriptFormat : Option Text := none
  home : Option Text := none

end JJMCP

namespace JJMCP.ServeOptions

open Text Tools

def transcriptSettingsFromFile (read : Text → Except Text Json) : Option Text → TranscriptSettings
  | none => {}
  | some content =>
      match read content with
      | .error _ => {}
      | .ok doc => { path := doc.optionalString "transcript" [], format := doc.optionalString "transcript_format" [] }

/-- The variables, and the settings file under the home directory where they
give no transcript. -/
def startOptions (read : Text → Except Text Json) (env : ServeEnv) (file : Option Text) : ServeOptions :=
  let transcript := env.transcript.getD []
  let format := env.transcriptFormat.getD []
  if transcript = [] ∧ env.home.isSome = true then
    let settings := transcriptSettingsFromFile read file
    { transcript := settings.path, transcriptFormat := if format = [] then settings.format else format }
  else { transcript, transcriptFormat := format }

def unknownOption (arg : Text) : Text := lit "jjmcp serve: unknown option or missing value: " ++ arg

def optionLoop : List Text → ServeOptions → Except Text ServeOptions
  | [], options => .ok options
  | [arg], _ => .error (unknownOption arg)
  | arg :: value :: rest, options =>
      if arg = lit "--transcript" then optionLoop rest { options with transcript := value }
      else if arg = lit "--transcript-format" then optionLoop rest { options with transcriptFormat := value }
      else .error (unknownOption arg)

def checkFormat (options : ServeOptions) : Except Text ServeOptions :=
  if formatKnown options.transcriptFormat then .ok options
  else .error (lit "jjmcp serve: transcript format must be text or jsonl")

/-- The arguments are those after serve. -/
def parseServeOptions (read : Text → Except Text Json) (args : List Text) (env : ServeEnv) (file : Option Text) :
    Except Text ServeOptions :=
  match optionLoop args (startOptions read env file) with
  | .error e => .error e
  | .ok options => checkFormat options

/-- The value of the last occurrence of an option. -/
def lastValue (name : Text) : List Text → Option Text
  | arg :: value :: rest => (lastValue name rest).or (if arg = name then some value else none)
  | _ => none

/-- The argument that is no option, or has no value. -/
def firstBad : List Text → Option Text
  | [] => none
  | [arg] => some arg
  | arg :: _ :: rest => if arg = lit "--transcript" ∨ arg = lit "--transcript-format" then firstBad rest else some arg

/-- A transcript path is given before the settings file is asked. -/
def GivesPath (args : List Text) (env : ServeEnv) : Prop :=
  (lastValue (lit "--transcript") args).getD [] ≠ [] ∨ env.transcript.getD [] ≠ []

instance (args : List Text) (env : ServeEnv) : Decidable (GivesPath args env) := inferInstanceAs (Decidable (_ ∨ _))

/-- The settings, where nothing before them gives a path. -/
def lastResort (read : Text → Except Text Json) (args : List Text) (env : ServeEnv) (file : Option Text) :
    TranscriptSettings :=
  if GivesPath args env ∨ env.home = none then {} else transcriptSettingsFromFile read file

def orElse (first second : Text) : Text := if first = [] then second else first

/-- What the order option, variable, settings file gives. -/
def intended (read : Text → Except Text Json) (args : List Text) (env : ServeEnv) (file : Option Text) : ServeOptions where
  transcript := (lastValue (lit "--transcript") args).getD
    (orElse (env.transcript.getD []) (lastResort read args env file).path)
  transcriptFormat := (lastValue (lit "--transcript-format") args).getD
    (orElse (env.transcriptFormat.getD []) (lastResort read args env file).format)

/-- The settings file is the last resort: where a path is given its content does
not matter, and what is accepted is what the intended order gives. -/
def SettingsLast (read : Text → Except Text Json) (args : List Text) (env : ServeEnv) : Prop :=
  (GivesPath args env → ∀ file file', parseServeOptions read args env file = parseServeOptions read args env file') ∧
    ∀ file options, parseServeOptions read args env file = .ok options → options = intended read args env file

/-- The path comes from the option only, and the format from nowhere before the file. -/
def Leaks (args : List Text) (env : ServeEnv) : Prop :=
  firstBad args = none ∧ env.transcript.getD [] = [] ∧ env.transcriptFormat.getD [] = [] ∧ env.home.isSome = true ∧
    (lastValue (lit "--transcript") args).getD [] ≠ [] ∧ lastValue (lit "--transcript-format") args = none

theorem optionLoop_ok {args : List Text} (h : firstBad args = none) (options : ServeOptions) :
    optionLoop args options = .ok
      { transcript := (lastValue (lit "--transcript") args).getD options.transcript
        transcriptFormat := (lastValue (lit "--transcript-format") args).getD options.transcriptFormat } := by
  induction args using firstBad.induct generalizing options with
  | case1 => rfl
  | case2 arg => simp [firstBad] at h
  | case3 arg value rest harg ih =>
      rw [firstBad, if_pos harg] at h
      have hne : lit "--transcript" ≠ lit "--transcript-format" := by decide
      rcases harg with rfl | rfl
      · rw [optionLoop, if_pos rfl, ih h, lastValue, lastValue, if_pos rfl, if_neg hne, Option.or_none]
        cases lastValue (lit "--transcript") rest <;> rfl
      · rw [optionLoop, if_neg hne.symm, if_pos rfl, ih h, lastValue, lastValue, if_pos rfl, if_neg hne.symm,
          Option.or_none]
        cases lastValue (lit "--transcript-format") rest <;> rfl
  | case4 arg value rest harg => simp [firstBad, harg] at h

theorem optionLoop_error {args : List Text} {arg : Text} (h : firstBad args = some arg) (options : ServeOptions) :
    optionLoop args options = .error (unknownOption arg) := by
  induction args using firstBad.induct generalizing options with
  | case1 => simp [firstBad] at h
  | case2 bad =>
      obtain rfl : bad = arg := by simpa [firstBad] using h
      rfl
  | case3 bad value rest hbad ih =>
      rw [firstBad, if_pos hbad] at h
      rw [optionLoop]
      split
      · exact ih h _
      · rw [if_pos (hbad.resolve_left ‹_›)]
        exact ih h _
  | case4 bad value rest hbad =>
      obtain rfl : bad = arg := by simpa [firstBad, hbad] using h
      rw [optionLoop, if_neg (fun he => hbad (.inl he)), if_neg (fun he => hbad (.inr he))]

variable {read : Text → Except Text Json} {args : List Text} {env : ServeEnv}

theorem parseServeOptions_ok (h : firstBad args = none) (file : Option Text) :
    parseServeOptions read args env file = checkFormat
      { transcript := (lastValue (lit "--transcript") args).getD (startOptions read env file).transcript
        transcriptFormat :=
          (lastValue (lit "--transcript-format") args).getD (startOptions read env file).transcriptFormat } := by
  rw [parseServeOptions, optionLoop_ok h]

theorem parseServeOptions_error {arg : Text} (h : firstBad args = some arg) (file : Option Text) :
    parseServeOptions read args env file = .error (unknownOption arg) := by
  rw [parseServeOptions, optionLoop_error h]

theorem checkFormat_eq {o options : ServeOptions} (h : checkFormat o = .ok options) : options = o := by
  rw [checkFormat] at h
  split at h
  · exact (Except.ok.inj h).symm
  · cases h

theorem startOptions_variable (h : env.transcript.getD [] ≠ [] ∨ env.home = none) (file : Option Text) :
    startOptions read env file = ⟨env.transcript.getD [], env.transcriptFormat.getD []⟩ := by
  have hc : ¬ (env.transcript.getD [] = [] ∧ env.home.isSome = true) := by
    rintro ⟨ht, hh⟩
    rcases h with h | h
    · exact h ht
    · simp [h] at hh
  simp only [startOptions, if_neg hc]

theorem startOptions_file (h : env.transcript.getD [] = []) (hh : env.home ≠ none) (file : Option Text) :
    startOptions read env file = ⟨(transcriptSettingsFromFile read file).path,
      orElse (env.transcriptFormat.getD []) (transcriptSettingsFromFile read file).format⟩ := by
  have hc : env.transcript.getD [] = [] ∧ env.home.isSome = true := ⟨h, Option.isSome_iff_ne_none.mpr hh⟩
  simp only [startOptions, if_pos hc, orElse]

theorem orElse_nil (t : Text) : orElse t [] = t := by
  rw [orElse]
  split
  next h => exact h.symm
  next => rfl

theorem merged_transcript (file : Option Text) :
    (lastValue (lit "--transcript") args).getD (startOptions read env file).transcript =
      (intended read args env file).transcript := by
  rw [intended]
  cases hv : lastValue (lit "--transcript") args with
  | some path => rfl
  | none =>
      have hgives : GivesPath args env ↔ env.transcript.getD [] ≠ [] := by simp [GivesPath, hv]
      simp only [Option.getD_none, lastResort, hgives]
      by_cases ht : env.transcript.getD [] = []
      · by_cases hh : env.home = none
        · rw [startOptions_variable (.inr hh), if_pos (.inr hh), orElse_nil]
        · rw [startOptions_file ht hh, if_neg (by simp [ht, hh]), ht]
          rfl
      · rw [startOptions_variable (.inl ht), if_pos (.inl ht), orElse_nil]

theorem merged_format (hgood : firstBad args = none) (hleak : ¬ Leaks args env) (file : Option Text) :
    (lastValue (lit "--transcript-format") args).getD (startOptions read env file).transcriptFormat =
      (intended read args env file).transcriptFormat := by
  rw [intended]
  cases hv : lastValue (lit "--transcript-format") args with
  | some format => rfl
  | none =>
      simp only [Option.getD_none, lastResort]
      by_cases hquiet : env.transcript.getD [] ≠ [] ∨ env.home = none
      · have hfirst : GivesPath args env ∨ env.home = none := hquiet.imp .inr id
        rw [startOptions_variable hquiet, if_pos hfirst, orElse_nil]
      · simp only [not_or, ne_eq, not_not] at hquiet
        rw [startOptions_file hquiet.1 hquiet.2]
        by_cases hf : env.transcriptFormat.getD [] = []
        · have hpath : (lastValue (lit "--transcript") args).getD [] = [] := by
            by_contra hp
            exact hleak ⟨hgood, hquiet.1, hf, Option.isSome_iff_ne_none.mpr hquiet.2, hp, hv⟩
          rw [if_neg (by simp [GivesPath, hpath, hquiet])]
        · simp only [orElse, if_neg hf]

theorem parse_intended (hgood : firstBad args = none) (hleak : ¬ Leaks args env) (file : Option Text) :
    parseServeOptions read args env file = checkFormat (intended read args env file) := by
  rw [parseServeOptions_ok hgood, merged_transcript, merged_format hgood hleak]

theorem intended_file (h : GivesPath args env) (file file' : Option Text) :
    intended read args env file = intended read args env file' := by
  simp only [intended, lastResort, h, true_or, if_true]

theorem settingsLast_of_not_leaks (hleak : ¬ Leaks args env) : SettingsLast read args env := by
  cases hbad : firstBad args with
  | some arg =>
      refine ⟨fun _ file file' => ?_, fun file options h => ?_⟩
      · rw [parseServeOptions_error hbad, parseServeOptions_error hbad]
      · rw [parseServeOptions_error hbad] at h
        cases h
  | none =>
      refine ⟨fun hpath file file' => ?_, fun file options h => ?_⟩
      · rw [parse_intended hbad hleak, parse_intended hbad hleak, intended_file hpath file file']
      · rw [parse_intended hbad hleak] at h
        exact checkFormat_eq h

/-- The format of a file that names one shows in the options although the
option gives the path. -/
theorem not_settingsLast {content : Text} {doc : Json} (hread : read content = .ok doc)
    (hdoc : doc.optionalString "transcript_format" [] = lit "jsonl") (hleak : Leaks args env) :
    ¬ SettingsLast read args env := by
  obtain ⟨hgood, ht, hf, hh, hpath, hnone⟩ := hleak
  have hfirst : GivesPath args env ∨ env.home = none := .inl (.inl hpath)
  have hsettings : (transcriptSettingsFromFile read (some content)).format = lit "jsonl" := by
    simp only [transcriptSettingsFromFile, hread, hdoc]
  have hstart : (startOptions read env (some content)).transcriptFormat = lit "jsonl" := by
    rw [startOptions_file ht (Option.isSome_iff_ne_none.mp hh), hf]
    exact hsettings
  intro hlast
  have hparse : parseServeOptions read args env (some content) =
      .ok ⟨(lastValue (lit "--transcript") args).getD (startOptions read env (some content)).transcript, lit "jsonl"⟩ := by
    rw [parseServeOptions_ok hgood, hnone, Option.getD_none, hstart]
    rfl
  have hformat := congrArg ServeOptions.transcriptFormat (hlast.2 _ _ hparse)
  simp only [intended, hnone, Option.getD_none, lastResort, if_pos hfirst, orElse_nil, hf] at hformat
  exact absurd hformat (by decide)

/-- The settings file is the last resort unless the option alone gives the path
and nothing before the file gives the format. The reader is one that finds a
format in some file. -/
theorem settingsLast_iff (hread : ∃ content doc, read content = .ok doc ∧
      doc.optionalString "transcript_format" [] = lit "jsonl") (args : List Text) (env : ServeEnv) :
    SettingsLast read args env ↔ ¬ Leaks args env := by
  obtain ⟨content, doc, hcontent, hdoc⟩ := hread
  exact ⟨fun hlast hleak => not_settingsLast hcontent hdoc hleak hlast, settingsLast_of_not_leaks⟩

def jsonlFile : Text := lit "\x7b\"transcript_format\":\"jsonl\"\x7d"

/-- A reader that knows one file. -/
def readOne (content : Text) : Except Text Json :=
  if content = jsonlFile then .ok (.obj [(lit "transcript_format", .str (lit "jsonl"))])
  else .error (lit "[json.exception.parse_error.101]")

theorem settingsLast_iff_option :
    SettingsLast readOne [lit "--transcript", lit "/tmp/t.log"] { home := some (lit "/home/j") } ↔
      ¬ Leaks [lit "--transcript", lit "/tmp/t.log"] { home := some (lit "/home/j") } :=
  settingsLast_iff ⟨jsonlFile, _, if_pos rfl, by decide⟩ _ _

/-- With the option alone the format of the file is taken over. -/
theorem not_settingsLast_option : ¬ ∀ read args env, SettingsLast read args env := by
  intro h
  have hlast := (h readOne [lit "--transcript", lit "/tmp/t.log"] { home := some (lit "/home/j") }).2 (some jsonlFile)
    ⟨lit "/tmp/t.log", lit "jsonl"⟩ (by decide +kernel)
  exact absurd hlast (by decide +kernel)

end JJMCP.ServeOptions
