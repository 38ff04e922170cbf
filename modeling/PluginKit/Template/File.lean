import PluginKit.Text.Basic

/-!
# Template files

A template is a handful of text files with placeholders in them.
-/

namespace PluginKit.Template

structure File where
  name : Text
  text : Text

def File.ofLines (name : String) (lines : List String) : File :=
  ⟨name, Text.join "\n" (lines.map Text.ofString)⟩

end PluginKit.Template
