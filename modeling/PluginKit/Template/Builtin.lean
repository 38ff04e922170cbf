import PluginKit.Files.Tree
import PluginKit.Template.Action
import PluginKit.Template.Advanced
import PluginKit.Template.Bridge
import PluginKit.Template.Command
import PluginKit.Template.Full
import PluginKit.Template.Kind
import PluginKit.Template.Minimal

/-!
# The templates themselves

The files of every template, and a directory with all of them.
-/

namespace PluginKit.Template

def Kind.files : Kind → List File
  | minimal => Minimal.files
  | action => Action.files
  | command => Command.files
  | full => Full.files
  | bridge => Bridge.files
  | advanced => Advanced.files

def Kind.shelve (place : List Text) (t : Files.Tree) (k : Kind) : Files.Tree :=
  k.files.foldl (fun t f => t.put (place ++ [k.key, f.name]) (.file (.text f.text)))
    (t.put (place ++ [k.key]) .directory)

def shelveAll (place : List Text) (t : Files.Tree) : Files.Tree :=
  Kind.all.foldl (Kind.shelve place) (t.put place .directory)

end PluginKit.Template
