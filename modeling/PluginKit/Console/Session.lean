import PluginKit.Files.Tree

/-!
# Sessions

A command runs in a session: it prints, it reads lines that are typed, and it changes files. A session can be
ended early, with an exit code or by a fault; what was done before stays done. What it cannot change, such as
the directory in which it runs, are its surroundings.

Where lines are typed one by one, a session can be cut short because the next line is not there yet. Since a
session depends on nothing but its surroundings and its beginning, it is then simply run again with one line
more.
-/

namespace PluginKit.Console

open Files

/-- What a session finds and cannot change. -/
structure Surroundings where
  directory : List Text
  templates : Path
  terminal : Bool
  /-- No more lines than those at hand will be typed. -/
  inputEnds : Bool
  year : Nat
  yamlInstalled : Bool
  sourceProblem? : Text → Option Text

structure Session where
  tree : Tree
  output : Text
  errors : Text
  /-- The lines that are typed and not read yet. -/
  lines : List Text

def Session.start (tree : Tree) (lines : List Text) : Session := ⟨tree, "", "", lines⟩

inductive Stop where
  | exit (code : Nat)
  | fault (f : Fault)
  | waiting

abbrev SessionM := ReaderT Surroundings (ExceptT Stop (StateM Session))

namespace Session

def exit {α : Type} (code : Nat) : SessionM α := throw (.exit code)

def fail {α : Type} (f : Fault) : SessionM α := throw (.fault f)

def lift {α : Type} : Outcome α → SessionM α
  | .ok a => pure a
  | .error f => fail f

def requireUtf8 (s : Text) : SessionM Unit :=
  match Text.checkUtf8 s with
  | .ok () => pure ()
  | .error e => fail (.encode e)

/-- Prints a text, all of it or, if it has no UTF-8 form, nothing. -/
def print (s : Text) : SessionM Unit := do
  requireUtf8 s
  modify fun t => { t with output := t.output ++ s }

def say (s : Text) : SessionM Unit := print (s ++ "\n")

def sayAll : List Text → SessionM Unit
  | [] => pure ()
  | s :: rest => do
    say s
    sayAll rest

def complain (s : Text) : SessionM Unit := do
  requireUtf8 s
  modify fun t => { t with errors := t.errors ++ s }

def nextLine? : SessionM (Option Text) := do
  match (← get).lines with
  | line :: rest =>
    modify fun t => { t with lines := rest }
    return some line
  | [] => if (← read).inputEnds then return none else throw .waiting

/-! ### Files -/

/-- The place of a path, and what is in the way if it has none. -/
def locate? (p : Path) : SessionM (Except Obstacle (List Text)) :=
  return (← get).tree.locate (← read).directory p

def locate (p : Path) : SessionM (List Text) := do
  match ← locate? p with
  | .ok place => return place
  | .error o => fail (o.fault p)

/-- What keeps one of several paths from being followed at all is a fault; that it is too long is none. -/
def requireUsable : List Path → SessionM Unit
  | [] => pure ()
  | p :: rest => do
    match pathObstacle? p with
    | some .nameTooLong | none => pure ()
    | some o => fail (o.fault p)
    requireUsable rest

/-- The absolute path without double dots. What leads to it is looked at part by part. -/
def resolve (p : Path) : SessionM Path := do
  requireUsable p.way
  return p.resolve (← read).directory

/-- What is at a path. A path that leads nowhere leads to nothing; only names that are too long are a
fault. -/
def entry? (p : Path) : SessionM (Option Entry) := do
  match ← locate? p with
  | .ok place => return (← get).tree.find? place
  | .error .nameTooLong => fail (Obstacle.nameTooLong.fault p)
  | .error _ => return none

def exists? (p : Path) : SessionM Bool := return (← entry? p).isSome

def isDirectory (p : Path) : SessionM Bool :=
  return ((← entry? p).map Entry.isDirectory).getD false

def readText (p : Path) : SessionM Text := do
  let place ← locate p
  lift (readEntry p.text ((← get).tree.find? place))

def putAt (place : List Text) (e : Entry) : SessionM Unit :=
  modify fun t => { t with tree := t.tree.put place e }

def writeFile (p : Path) (content : Content) : SessionM Unit := do
  let place ← locate p
  match (← get).tree.find? place with
  | some .directory => fail (.file (.isDirectory (quotedPath p.text)))
  | _ => putAt place (.file content)

/-- Writes a text, which has to have a UTF-8 form; one without leaves the file empty. -/
def writeText (p : Path) (s : Text) : SessionM Unit := do
  match Text.checkUtf8 s with
  | .ok () => writeFile p (.text s)
  | .error e =>
    writeFile p (.text "")
    fail (.encode e)

/-- Makes one directory where nothing is yet. -/
def makeDirectory (p : Path) : SessionM Unit := do
  let place ← locate p
  match (← get).tree.find? place with
  | some _ => fail (.file (.present (quotedPath p.text)))
  | none => putAt place .directory

def ensureDirectory (p : Path) : SessionM Unit := do
  let place ← locate p
  match (← get).tree.find? place with
  | some .directory => pure ()
  | some (.file _) => fail (.file (.present (quotedPath p.text)))
  | none => putAt place .directory

/-- Makes a directory and those above it that are missing; the parts of the path are given from its end. -/
def ensureFrom (root : Text) : List Text → SessionM Unit
  | [] => pure ()
  | part :: above => do
    let p : Path := ⟨root, (part :: above).reverse⟩
    match ← locate? p with
    | .error .missing => ensureFrom root above
    | _ => pure ()
    ensureDirectory p

def ensureDirectories (p : Path) : SessionM Unit := ensureFrom p.root p.parts.reverse

def reaches (p : Path) : SessionM Bool := do
  match ← locate? p with
  | .ok place => return ((← get).tree.find? place).isSome
  | .error _ => return false

/-- Makes the directories of a path that cannot be reached, from the outermost on; the parts of the path are
given from its end. -/
def makeMissing (root : Text) : List Text → SessionM Unit
  | [] => pure ()
  | part :: above => do
    let p : Path := ⟨root, (part :: above).reverse⟩
    if ← reaches p then pure ()
    else
      makeMissing root above
      ensureDirectory p

def makeDirectories (p : Path) : SessionM Unit := do
  makeMissing p.root p.parts.dropLast.reverse
  makeDirectory p

def removeTree (p : Path) : SessionM Unit := do
  let place ← locate p
  match (← get).tree.find? place with
  | some .directory => modify fun t => { t with tree := t.tree.prune place }
  | some (.file _) => fail (.file (.notDirectory ("PosixPath(" ++ quotedPath p.text ++ ")")))
  | none => fail (Obstacle.missing.fault p)

/-- Copies a directory with everything in it to a path where nothing is yet. The directory is listed before the
new one is made, but those below it are listed later: if the new one is in one of them, it is copied into
itself without end. -/
def copyTree (source target : Path) : SessionM Unit := do
  let place ← locate source
  let before ← get
  match before.tree.find? place with
  | some .directory =>
    makeDirectories target
    let copied ← locate target
    if Tree.leadsInto place (before.tree.below place) copied then fail (.tooDeep "")
    else modify fun t => { t with tree := t.tree.putAll copied (before.tree.below place) }
  | some (.file _) => fail (Obstacle.notDirectory.fault source)
  | none => fail (Obstacle.missing.fault source)

/-- What is below a directory, in the order of the parts that lead there. -/
def below (p : Path) : SessionM (List (List Text × Entry)) := do
  match ← locate? p with
  | .ok place => return (← get).tree.below place
  | .error _ => return []

def attempt {α : Type} (step : SessionM α) : SessionM (Outcome α) :=
  tryCatch (do return .ok (← step)) fun
    | .fault f => return .error f
    | stop => throw stop

end Session

end PluginKit.Console
