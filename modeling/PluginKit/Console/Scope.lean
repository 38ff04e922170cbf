import PluginKit.Console.Run

/-!
# What a command looks at

A command looks at a few paths: at what is there, at the names in a directory, or at everything below it.
Nothing else has to be read before it runs.
-/

namespace PluginKit.Console

open Files

inductive Depth where
  | itself
  | children
  | everything
  deriving DecidableEq, Repr

def Depth.next? : Depth → Option Depth
  | itself => none
  | children => some itself
  | everything => some everything

def Command.scope (c : Command) (r : Reading) : List (Path × Depth) :=
  let operand := Path.ofText (r.operand.getD "")
  match c with
  | create => [((orderOf r).directory, .everything)]
  | validate => [(operand, .children)]
  | pack =>
    let output := (givenPath r archiveFlag).map fun p => (p, Depth.itself)
    (operand, .everything) :: (operand.child "..", .children) :: output.toList
  | listTemplates => []
  | compile =>
    let target := (givenPath r targetFlag).getD (Package.defaultDirectory operand)
    [(operand, .itself), (target, .children)]

def Request.scope : Request → List (Path × Depth)
  | command c r => c.scope r
  | _ => []

end PluginKit.Console
