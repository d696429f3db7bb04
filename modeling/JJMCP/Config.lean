import JJMCP.Text

namespace JJMCP

structure Path where
  absolute : Bool
  parts : List Text
  deriving DecidableEq, Repr

structure Binding where
  target : Text
  paneId : Text
  projectRoot : Text
  boundAt : Text := []
  deriving DecidableEq, Repr

structure ServerState where
  binding : Option Binding := none
  configPath : Path
  lastMarker : Text := []
  lastCommandTimestamp : Text := []
  markerSequence : Nat := 0
  maxTimeoutMs : Nat := 600000
  deriving DecidableEq, Repr

end JJMCP

namespace JJMCP.Config

open Text

def splitParts (part : Text) : Text → List Text
  | [] => [part]
  | c :: cs => if c = 47 then part :: splitParts [] cs else splitParts (part ++ [c]) cs

def ofText (t : Text) : Path := ⟨t.head? = some 47, (splitParts [] t).filter (· ≠ [])⟩

/-- The operator / of paths: an absolute right side replaces the left one. -/
def join (a b : Path) : Path := if b.absolute then b else ⟨a.absolute, a.parts ++ b.parts⟩

def parentPath (p : Path) : Path := { p with parts := p.parts.dropLast }

def normalStep (absolute : Bool) (acc : List Text) (part : Text) : List Text :=
  if part = lit "." then acc
  else if part = lit ".." then
    match acc.getLast? with
    | none => if absolute then acc else acc ++ [part]
    | some last => if last = lit ".." then acc ++ [part] else acc.dropLast
  else acc ++ [part]

def lexicallyNormal (p : Path) : Path := { p with parts := p.parts.foldl (normalStep p.absolute) [] }

def defaultConfigPath (base : Path) : Path := join base ⟨false, [lit ".jjmcp", lit "config.json"]⟩

def configBaseFromProject (cwd : Path) (projectRoot : Text) : Path :=
  if projectRoot = [] then cwd
  else
    let path := ofText projectRoot
    lexicallyNormal (if path.absolute then path else join cwd path)

def setBinding (s : ServerState) (b : Binding) (baseForConfig : Path) : ServerState :=
  { s with binding := some b, configPath := defaultConfigPath baseForConfig }

/-- The binding a config file holds counts only with a pane id. -/
def loadConfig (s : ServerState) (stored : Option Binding) : ServerState :=
  match stored with
  | some b => if b.paneId = [] then s else { s with binding := some b }
  | none => s

def boundTarget (b : Binding) : Text := if b.paneId = [] then b.target else b.paneId

def lockPath (s : ServerState) : Path := join (parentPath s.configPath) ⟨false, [lit "lock"]⟩

example : lockPath { configPath := defaultConfigPath (configBaseFromProject (ofText (lit "/work/a")) (lit "../b/./")) } =
    ofText (lit "/work/b/.jjmcp/lock") := by
  decide

end JJMCP.Config
