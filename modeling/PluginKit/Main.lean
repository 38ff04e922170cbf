import PluginKit.Archive.Pack
import PluginKit.Calendar.Clock
import PluginKit.Check.Source
import PluginKit.Console.Scope
import PluginKit.Files.Change
import PluginKit.Template.Builtin
import Std.Time

/-!
# The program

The program reads what a command looks at, runs the command, and then carries out what the command changed. A
command that asks something runs again from its beginning with each line that is typed; what it has printed
before is not printed again.
-/

namespace PluginKit.Program

open Console Files

/-- The directory of the templates, under a name that no file can have. -/
def shelf : Text := "/templates"

/-- A place as a string. No file has a name that is no string. -/
def placeText (place : List Text) : String := ((Path.absolute place).text.toString?).getD "/\x00"

def bytesOf (s : Text) : ByteArray := ⟨(Text.encodeUtf8 s).toArray⟩

def look (place : List Text) : IO (Option Entry) := do
  let path := (← IO.currentDir) / placeText place
  if ← path.isDir then return some .directory
  else if ← path.pathExists then
    let bytes := (← IO.FS.readBinFile path).toList
    match Text.decodeUtf8 bytes with
    | .ok s => return some (.file (.text s))
    | .error _ => return some (.file (.bytes bytes))
  else return none

partial def load (t : Tree) (place : List Text) (depth : Depth) : IO Tree := do
  match ← look place with
  | none => return t
  | some e =>
    let t := if place.isEmpty then t else t.put place e
    match e, depth.next? with
    | .directory, some next =>
      let children ← ((← IO.currentDir) / placeText place).readDir
      children.foldlM (fun t c => load t (place ++ [Text.ofString c.fileName]) next) t
    | _, _ => return t

def loadPath (directory : List Text) (t : Tree) (scope : Path × Depth) : IO Tree := do
  let place := (scope.1.resolve directory).parts
  let above := (List.range place.length).map place.take
  let t ← above.foldlM (fun t p => load t p .itself) t
  load t place scope.2

def carryOut : Change → IO Unit
  | .remove place => do
    let path := (← IO.currentDir) / placeText place
    if ← path.isDir then IO.FS.removeDirAll path
    else if ← path.pathExists then IO.FS.removeFile path
  | .makeDirectory place => IO.FS.createDirAll (placeText place)
  | .write place content =>
    IO.FS.writeBinFile (placeText place) ⟨(Archive.contentBytes content).toArray⟩

/-- Runs a request, which goes on as long as lines are asked for; `printed` characters of its output are
printed already. -/
partial def converse (around : Surroundings) (request : Request) (tree : Tree) (lines : List Text)
    (printed : Nat) : IO (Except Stop Unit × Session) := do
  let step : SessionM Unit := do
    Session.sayAll bannerLines
    request.run
  let (outcome, s) := (step.run around).run.run (.start tree lines)
  (← IO.getStdout).write (bytesOf (s.output.drop printed))
  (← IO.getStdout).flush
  match outcome with
  | .error .waiting =>
    let line ← (← IO.getStdin).getLine
    if line.isEmpty then converse { around with inputEnds := true } request tree lines s.output.length
    else
      let typed := line.toList.filter (· != '\n')
      converse around request tree (lines ++ [typed.map .scalar]) s.output.length
  | _ => return (outcome, s)

def surroundings (directory : List Text) : IO Surroundings := do
  let now ← Std.Time.Timestamp.now
  return {
    directory
    templates := .absolute [shelf]
    terminal := ← (← IO.getStdin).isTty
    inputEnds := false
    year := (DateTime.ofMicros (now.toSecondsSinceUnixEpoch.val * microsPerSecond)).date.year
    yamlInstalled := true
    sourceProblem? := fun text => (Check.sourceProblem? text).map Check.SourceProblem.message }

def run (arguments : List Text) : IO UInt32 := do
  let directory := (Path.ofText (Text.ofString (← IO.currentDir).toString)).parts
  let request := request arguments
  let scope := (Path.absolute directory, Depth.itself) :: request.scope
  let before ← scope.foldlM (loadPath directory) (Template.shelveAll [shelf] .empty)
  let (outcome, s) ← converse (← surroundings directory) request before [] 0
  (before.changes (fun a b => Archive.contentBytes a == Archive.contentBytes b) s.tree).forM carryOut
  (← IO.getStderr).write (bytesOf s.errors)
  match outcome with
  | .ok () => return 0
  | .error (.exit code) => return code.toUInt32
  | .error (.fault f) =>
    (← IO.getStderr).write (bytesOf (f.message ++ "\n"))
    return 1
  | .error .waiting => return 1

end PluginKit.Program

def main (arguments : List String) : IO UInt32 :=
  PluginKit.Program.run (arguments.map PluginKit.Text.ofString)
