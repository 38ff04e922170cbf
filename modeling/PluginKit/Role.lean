import PluginKit.Text.Basic

/-!
# Roles of components

A plugin consists of components of two roles: a command answers messages of a certain form, and an action is
performed when the bot chooses to.
-/

namespace PluginKit

inductive Role where
  | command
  | action
  deriving DecidableEq, Repr

def Role.name : Role → Text
  | command => "command"
  | action => "action"

end PluginKit
