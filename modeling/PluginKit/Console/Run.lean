import PluginKit.Archive.Pack
import PluginKit.Check.Plugin
import PluginKit.Console.Forms
import PluginKit.Package.Disk
import PluginKit.Template.Create

/-!
# Running commands

The arguments are read first; then the command does its work. Wrong arguments end the session with the exit
code two, after the usage was shown.
-/

namespace PluginKit.Console

open Files

inductive Request where
  | mainHelp
  | help (c : Command)
  | command (c : Command) (r : Reading)
  | wrongMain (e : UsageError)
  | wrong (c : Command) (e : UsageError)
  | fault (f : Fault)

/-- What the arguments of a command ask for. What was left over before belongs to what is left over now. -/
def requestOf (c : Command) (left : List Text) (arguments : List Text) : Request :=
  match c.form.read arguments with
  | .error .help => .help c
  | .error (.wrong e) => .wrong c e
  | .error (.fault f) => .fault f
  | .ok r =>
    if (left ++ r.left).isEmpty then .command c r else .wrongMain (.unrecognized (left ++ r.left))

def badCommand (name : Text) : UsageError :=
  .invalidChoice "command" name (Command.all.map Command.name)

/-- What the arguments ask for from the name of the command on, or before it. -/
def requestFrom (left : List Text) : List (Text × Role) → Request
  | [] => if left.isEmpty then .mainHelp else .wrongMain (.unrecognized left)
  | (s, .unknown) :: rest => requestFrom (left ++ [s]) rest
  | (_, .flag f name attached) :: rest =>
    match mainForm.readFlag ⟨[], none, []⟩ f name attached rest with
    | .error (.wrong e) => .wrongMain e
    | _ => .mainHelp
  | (s, .plain) :: rest =>
    match Command.ofName? s with
    | some c => requestOf c left (rest.map (·.1))
    | none => .wrongMain (badCommand s)
  | [(s, .separator)] => .wrongMain (.unrecognized (left ++ [s]))
  | (s, .separator) :: _ => .wrongMain (badCommand s)

def request (arguments : List Text) : Request :=
  match mainForm.roles arguments with
  | .error e => .wrongMain e
  | .ok roles => requestFrom [] roles

def givenPath (r : Reading) (f : Flag) : Option Path :=
  match r.value? f with
  | some s => if s.isEmpty then none else some (.ofText s)
  | none => none

def orderOf (r : Reading) : Template.Order where
  name := r.operand.getD ""
  kind := (r.value? templateFlag).bind Template.Kind.ofKey?
  output := (r.value? placeFlag).getD "."
  author := r.value? authorFlag
  description := r.value? descriptionFlag
  version := r.value? versionFlag
  yes := r.has yesFlag

def Command.run (c : Command) (r : Reading) : SessionM Unit :=
  let operand := Path.ofText (r.operand.getD "")
  match c with
  | create => Template.create (orderOf r)
  | validate => Check.check operand
  | pack => Archive.pack operand (givenPath r archiveFlag)
  | listTemplates => Session.sayAll Template.overviewLines
  | compile => Package.compileScript operand (givenPath r targetFlag)

def refuse (form : Form) (e : UsageError) : SessionM Unit := do
  Session.complain (Text.join "\n" form.usage ++ "\n")
  Session.complain (form.program ++ ": error: " ++ e.message ++ "\n")
  Session.exit 2

def Request.run : Request → SessionM Unit
  | mainHelp => do
    Session.sayAll mainHelpLines
    Session.exit 0
  | help c => do
    Session.sayAll c.form.helpLines
    Session.exit 0
  | command c r => c.run r
  | wrongMain e => refuse mainForm e
  | wrong c e => refuse c.form e
  | fault f => Session.fail f

def runArguments (arguments : List Text) : SessionM Unit := do
  Session.sayAll bannerLines
  (request arguments).run

end PluginKit.Console
