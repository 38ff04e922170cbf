import PluginKit.Text.Basic

/-!
# What is left out of archives

Files and directories with certain names or endings do not belong into an archive, and neither does anything
below such a directory.
-/

namespace PluginKit.Archive

def ignoredNames : List Text := ["__pycache__", ".git", ".DS_Store", ".env", "node_modules"]

def ignoredEndings : List Text := [".pyc", ".pyo", ".log"]

def isIgnored (name : Text) : Bool :=
  ignoredNames.contains name || ignoredEndings.any fun e => e.isSuffixOf name

def leadsThroughIgnored (parts : List Text) : Bool := parts.any isIgnored

end PluginKit.Archive
