import PluginKit.Registrar.Pattern

/-!
# The registrar

A plugin file registers commands and actions. Each goes under its name into one of two maps, which keep the
order of first registration; a component without a name gets one that is numbered through the whole run of the
file. A call that throws registers nothing, but may have used up a number.
-/

namespace PluginKit.Registrar

structure Component where
  name : Datum
  config : Datum

structure Registry where
  commands : List Component
  actions : List Component

def Registry.empty : Registry := ⟨[], []⟩

/-- The registered components and the last number that was given to one without a name. -/
structure State where
  registry : Registry
  lastId : Nat

def State.initial : State := ⟨.empty, 0⟩

/-- A new registrar; numbering goes on. -/
def State.renew (s : State) : State := { s with registry := .empty }

/-- The components with one more: in place of the one with the same name, else at the end. -/
def put (c : Component) : List Component → List Component
  | [] => [c]
  | old :: rest => if old.name.sameKey c.name then c :: rest else old :: put c rest

def find? (name : Datum) (components : List Component) : Option Component :=
  components.find? fun c => c.name.sameKey name

/-- The name, or a numbered one if it does not count as present. -/
def State.nameOr (s : State) (name : Datum) : Datum × State :=
  if name.truthy then (name, s)
  else (.text s!"auto_{s.lastId + 1}", { s with lastId := s.lastId + 1 })

def argument (args : List Datum) (place : Nat) : Datum :=
  (args[place]?).getD .undefined

def commandConfig (args : List Datum) : Attempt Datum :=
  let first := argument args 0
  let second := argument args 1
  if first.isText || first.isRegex then
    if second.isFunction then .ok (.object [("pattern", first), ("execute", second)])
    else .error (.typeError "mai.command(pattern, handler) 的第二个参数必须是函数")
  else if first.isFunction then .ok (.object [("execute", first)])
  else if first.isCollection then .ok first
  else .error (.typeError "mai.command() 参数错误")

def actionConfig (args : List Datum) : Attempt Datum :=
  let first := argument args 0
  if first.isFunction then .ok (.object [("execute", first)])
  else if first.isCollection then .ok first
  else .error (.typeError "mai.action() 参数错误")

/-- Every component needs something to execute; `what` names the kind of component in the objection. -/
def requireExecute (what : Text) (config : Datum) : Attempt Unit :=
  if (config.property "execute").isFunction then .ok ()
  else do
    let name ← ((config.property "name").orElse (.text "?")).toText
    .error (.typeError (what ++ " " ++ name ++ " 必须有 execute 函数"))

def State.addCommand (s : State) (config : Datum) : State × Attempt Unit :=
  match requireExecute "命令" config with
  | .error e => (s, .error e)
  | .ok () =>
    let (name, s) := s.nameOr (config.property "name")
    match config.assign "name" name with
    | .error e => (s, .error e)
    | .ok config =>
      match normalizePattern (config.property "pattern") with
      | .error e => (s, .error e)
      | .ok pattern =>
        let component : Component := ⟨name, config.withField "pattern" pattern⟩
        ({ s with registry := { s.registry with commands := put component s.registry.commands } }, .ok ())

def State.addAction (s : State) (config : Datum) : State × Attempt Unit :=
  match requireExecute "action" config with
  | .error e => (s, .error e)
  | .ok () =>
    let (name, s) := s.nameOr (config.property "name")
    match config.assign "name" name with
    | .error e => (s, .error e)
    | .ok config =>
      let component : Component := ⟨name, config⟩
      ({ s with registry := { s.registry with actions := put component s.registry.actions } }, .ok ())

def State.command (s : State) (args : List Datum) : State × Attempt Unit :=
  match commandConfig args with
  | .error e => (s, .error e)
  | .ok config => s.addCommand config

def State.action (s : State) (args : List Datum) : State × Attempt Unit :=
  match actionConfig args with
  | .error e => (s, .error e)
  | .ok config => s.addAction config

def State.reply (s : State) (args : List Datum) : State × Attempt Unit :=
  match argument args 1 with
  | .text answer =>
    let (name, s) := s.nameOr (argument args 2)
    match normalizePattern (argument args 0) with
    | .error e => (s, .error e)
    | .ok pattern =>
      s.addCommand
        (.object [("name", name), ("pattern", pattern), ("execute", .handler (.reply answer))])
  | _ => (s, .error (.typeError "mai.reply() 第二个参数必须是字符串"))

inductive Call where
  | command (args : List Datum)
  | reply (args : List Datum)
  | action (args : List Datum)

def State.perform (s : State) : Call → State × Attempt Unit
  | .command args => s.command args
  | .reply args => s.reply args
  | .action args => s.action args

/-- Makes calls up to the first that throws. -/
def State.performAll (s : State) : List Call → State × Attempt Unit
  | [] => (s, .ok ())
  | call :: rest =>
    match s.perform call with
    | (s, .ok ()) => s.performAll rest
    | (s, .error e) => (s, .error e)

end PluginKit.Registrar
