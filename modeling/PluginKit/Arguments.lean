import PluginKit.Value.Fault

/-!
# Arguments

An operation that is called by name has parameters, some with a default. Arguments are given by position or by
name; each parameter gets exactly one value, and nothing may be left over.
-/

namespace PluginKit

structure Parameter (α : Type) where
  name : Text
  default : Option α

def Parameter.needed {α : Type} (name : Text) : Parameter α := ⟨name, none⟩

def Parameter.withDefault {α : Type} (name : Text) (default : α) : Parameter α := ⟨name, some default⟩

def Parameter.pick {α : Type} (p : Parameter α) (named : List (Text × α)) : Option α :=
  match named.find? (·.1 == p.name) with
  | some e => some e.2
  | none => p.default

/-- The values of the parameters, in their order, if the arguments fit them. -/
def bindArguments? {α : Type} (params : List (Parameter α)) (args : List α) (named : List (Text × α)) :
    Option (List α) :=
  let others := params.drop args.length
  if params.length < args.length then none
  else if named.any fun e => !others.any (·.name == e.1) then none
  else (others.mapM fun p : Parameter α => p.pick named).map (args ++ ·)

def bindArguments {α : Type} (params : List (Parameter α)) (args : List α) (named : List (Text × α)) :
    Outcome (List α) :=
  match bindArguments? params args named with
  | some values => .ok values
  | none => .error (.misuse .wrongArguments)

end PluginKit
