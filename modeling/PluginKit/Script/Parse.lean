import PluginKit.Script.Normalize
import PluginKit.Yaml.Load

/-!
# Reading scripts

A script is a YAML text whose document is a mapping. Reading it gives its checked and completed plugin data.
-/

namespace PluginKit.Script

def noYaml : Fault :=
  .noLibrary "解析 MaiScript 需要 PyYAML 库。\n请运行：pip install pyyaml"

def Definition.ofText (source text : Text) : Outcome Definition :=
  match Yaml.load text with
  | .error (.malformed detail) => .error (.script ⟨source, .malformed detail⟩)
  | .error (.fault f) => .error f
  | .ok v =>
    if v.kind = .dict then Definition.ofValue source v else .error (.script ⟨source, .notMapping⟩)

def parse (yamlInstalled : Bool) (source text : Text) : Outcome Value :=
  if yamlInstalled then (Definition.ofText source text).map Definition.toValue else .error noYaml

end PluginKit.Script
