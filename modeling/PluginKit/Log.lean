import PluginKit.Text.Basic

/-!
# Log entries

What the parts of the library that work inside the bot write to its log.
-/

namespace PluginKit

inductive Level where
  | info
  | warning
  | error
  deriving DecidableEq, Repr

def Level.name : Level → Text
  | info => "INFO"
  | warning => "WARNING"
  | error => "ERROR"

structure LogEntry where
  level : Level
  message : Text
  deriving DecidableEq, Repr

end PluginKit
