import JJMCP.SocketClient

namespace JJMCP.HelperSocket

open Text

/-- The library's joinpath for a second part that is not absolute. -/
def joinpath (first second : Text) : Text :=
  if first = [] ∨ first.getLast? = some 47 then first ++ second else first ++ 47 :: second

/-- default_socket_path of the helper: a variable counts as soon as it is set. -/
def defaultSocketPath (runtimeDir tmuxPane : Option Text) : Text :=
  let runtime := runtimeDir.getD (lit "/tmp")
  let pane := tmuxPane.getD (lit "default")
  joinpath runtime (lit "jjmcp-" ++ pane.filter (· ≠ 37) ++ lit ".sock")

/-- A path with one slash for each run of them. -/
def collapseSlashes : Text → Text
  | [] => []
  | c :: cs => if c = 47 ∧ cs.head? = some 47 then collapseSlashes cs else c :: collapseSlashes cs

def SameFile (path path' : Text) : Prop := collapseSlashes path = collapseSlashes path'

theorem head?_append_slash (a : Text) {b b' : Text} : (a ++ 47 :: b).head? = (a ++ 47 :: b').head? := by
  cases a <;> rfl

theorem collapseSlashes_slashes (a b : Text) : collapseSlashes (a ++ 47 :: 47 :: b) = collapseSlashes (a ++ 47 :: b) := by
  induction a with
  | nil => simp [collapseSlashes]
  | cons c cs ih =>
      have hhead : (cs ++ 47 :: 47 :: b).head? = (cs ++ 47 :: b).head? := head?_append_slash cs
      simp only [List.cons_append, collapseSlashes, hhead, ih]

theorem collapseSlashes_name {name : Text} (h : 47 ∉ name) : collapseSlashes name = name := by
  induction name with
  | nil => rfl
  | cons c cs ih =>
      simp only [List.mem_cons, not_or] at h
      rw [collapseSlashes, if_neg (fun hc => h.1 hc.1.symm), ih h.2]

/-- The last name of a path is left as it is. -/
theorem collapseSlashes_append {c : UInt8} {name : Text} (h : 47 ∉ c :: name) (a : Text) :
    collapseSlashes (a ++ 47 :: c :: name) = collapseSlashes (a ++ [47]) ++ c :: name := by
  induction a with
  | nil =>
      have hc : c ≠ 47 := fun he => h (by simp [he])
      rw [List.nil_append, collapseSlashes, if_neg (by simp [hc]), collapseSlashes_name h]
      rfl
  | cons d ds ih =>
      have hhead : (ds ++ 47 :: c :: name).head? = (ds ++ [47]).head? := head?_append_slash ds
      simp only [List.cons_append, collapseSlashes, hhead, ih]
      split
      · rfl
      · rfl

theorem joinpath_sameFile {first : Text} (h : first ≠ []) (second : Text) :
    SameFile (first ++ 47 :: second) (joinpath first second) := by
  rw [joinpath]
  split
  next hc =>
    obtain ⟨a, rfl⟩ := List.getLast?_eq_some_iff.mp (hc.resolve_left h)
    rw [SameFile, List.append_assoc, List.append_assoc]
    exact collapseSlashes_slashes a second
  next => rfl

def socketName (sanitized : Text) : Text := lit "jjmcp-" ++ sanitized ++ lit ".sock"

theorem client_path (runtimeDir : Option Text) (paneId : Text) :
    SocketClient.defaultSocketPath runtimeDir paneId =
      (if runtimeDir.getD [] = [] then lit "/tmp" else runtimeDir.getD []) ++
        47 :: socketName (if paneId.filter (· ≠ 37) = [] then lit "default" else paneId.filter (· ≠ 37)) := by
  have hslash : lit "/jjmcp-" = 47 :: lit "jjmcp-" := rfl
  simp only [SocketClient.defaultSocketPath, socketName, hslash, List.append_assoc, List.cons_append]

theorem helper_path (runtimeDir : Option Text) (paneId : Text) :
    defaultSocketPath runtimeDir (some paneId) =
      joinpath (runtimeDir.getD (lit "/tmp")) (socketName (paneId.filter (· ≠ 37))) := rfl

/-- A directory that is set and not empty, or not set, is the same one for both. -/
theorem runtime_agrees {runtimeDir : Option Text} (h : runtimeDir ≠ some []) :
    (if runtimeDir.getD [] = [] then lit "/tmp" else runtimeDir.getD []) = runtimeDir.getD (lit "/tmp") ∧
      runtimeDir.getD (lit "/tmp") ≠ [] := by
  cases runtimeDir with
  | none => exact ⟨rfl, by decide⟩
  | some dir =>
      have hdir : dir ≠ [] := fun he => h (by rw [he])
      simp [hdir]

theorem filter_percent_nil {paneId : Text} : paneId.filter (· ≠ 37) = [] ↔ ¬ ∃ c ∈ paneId, c ≠ 37 := by
  rw [List.filter_eq_nil_iff]
  simp

theorem not_sameFile_relative (name name' : Text) :
    ¬ SameFile (lit "/tmp" ++ 47 :: name) (joinpath [] (socketName name')) := by
  have hl : lit "/tmp" = 47 :: 116 :: lit "mp" := rfl
  have hr : socketName name' = 106 :: (lit "jmcp-" ++ name' ++ lit ".sock") := rfl
  intro h
  rw [SameFile, hl, joinpath, if_pos (.inl rfl), List.nil_append, hr] at h
  simp [collapseSlashes] at h

theorem not_sameFile_default {dir : Text} (hdir : dir ≠ []) :
    ¬ SameFile (dir ++ 47 :: socketName (lit "default")) (joinpath dir (socketName [])) := by
  intro h
  have hjoin := h.trans (joinpath_sameFile hdir (socketName [])).symm
  have hl : socketName (lit "default") = 106 :: lit "jmcp-default.sock" := rfl
  have hr : socketName [] = 106 :: lit "jmcp-.sock" := rfl
  rw [hl, hr, collapseSlashes_append (by decide), collapseSlashes_append (by decide)] at hjoin
  exact absurd (List.append_cancel_left hjoin) (by decide)

/-- Client and helper meet at one socket exactly where the variable for the
directory is unset or not empty, and something is left of the pane's id. -/
theorem sameFile_iff (runtimeDir : Option Text) (paneId : Text) :
    SameFile (SocketClient.defaultSocketPath runtimeDir paneId) (defaultSocketPath runtimeDir (some paneId)) ↔
      runtimeDir ≠ some [] ∧ ∃ c ∈ paneId, c ≠ 37 := by
  rw [client_path, helper_path]
  constructor
  · intro h
    have hdir : runtimeDir ≠ some [] := by
      rintro rfl
      exact not_sameFile_relative _ _ h
    refine ⟨hdir, ?_⟩
    by_contra hpane
    rw [(runtime_agrees hdir).1, filter_percent_nil.mpr hpane, if_pos rfl] at h
    exact not_sameFile_default (runtime_agrees hdir).2 h
  · rintro ⟨hdir, hpane⟩
    have hname : paneId.filter (· ≠ 37) ≠ [] := fun he => filter_percent_nil.mp he hpane
    rw [(runtime_agrees hdir).1, if_neg hname]
    exact joinpath_sameFile (runtime_agrees hdir).2 _

/-- An empty variable leaves the helper's path relative. -/
theorem not_sameFile :
    ¬ ∀ runtimeDir paneId,
      SameFile (SocketClient.defaultSocketPath runtimeDir paneId) (defaultSocketPath runtimeDir (some paneId)) := by
  intro h
  exact absurd (h (some []) (lit "%3")) (by unfold SameFile; decide +kernel)

end JJMCP.HelperSocket
