import PluginKit.Files.Tree

/-!
# Changes of trees

What has to be done to turn one tree into another: first what is gone is removed, then directories are made
and files are written, each after the directory that it is in.
-/

namespace PluginKit.Files

inductive Change where
  | remove (place : List Text)
  | makeDirectory (place : List Text)
  | write (place : List Text) (content : Content)

/-- Two entries show no difference that a step would have to make. -/
def Entry.sameAs (same : Content → Content → Bool) : Entry → Entry → Bool
  | directory, directory => true
  | file a, file b => same a b
  | _, _ => false

def Change.put (place : List Text) : Entry → Change
  | .directory => .makeDirectory place
  | .file content => .write place content

/-- The steps from one tree to another; contents are compared by `same`. -/
def Tree.changes (same : Content → Content → Bool) (before after : Tree) : List Change :=
  let gone := before.entries.filter fun e => (after.find? e.1).isNone
  let new := (after.below []).filter fun e =>
    match before.find? e.1 with
    | some old => !old.sameAs same e.2
    | none => true
  (gone.map fun e => .remove e.1) ++ new.map fun e => .put e.1 e.2

end PluginKit.Files
