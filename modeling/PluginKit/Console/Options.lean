import PluginKit.Text.Quoted
import PluginKit.Text.Word
import PluginKit.Value.Fault

/-!
# Options

A form says which flags a command takes and whether it takes an operand. Arguments are read against a form: a
flag can be shortened as long as it stays unique, its argument can follow it or be attached to it, and several
one-letter flags can share a dash. After a double dash nothing is a flag any more. What a form has no use for
is left over; whoever asked for the reading decides what to do with that.
-/

namespace PluginKit.Console

structure Flag where
  names : List Text
  /-- What the argument of the flag is called; a flag without a name for it takes none. -/
  argument : Option Text
  /-- The arguments that the flag takes; an empty list means any. -/
  choices : List Text
  help : Text

def helpFlag : Flag := ⟨["-h", "--help"], none, [], "show this help message and exit"⟩

def Flag.isHelp (f : Flag) : Bool := f.names.contains "--help"

def Flag.takes (f : Flag) : Bool := f.argument.isSome

structure Form where
  program : Text
  usage : List Text
  flags : List Flag
  operand : Option (Text × Text)

inductive UsageError where
  | argumentExpected (subject : Text)
  | invalidChoice (subject value : Text) (choices : List Text)
  | ignoredArgument (subject value : Text)
  | ambiguous (argument : Text) (names : List Text)
  | operandRequired (name : Text)
  | unrecognized (arguments : List Text)
  deriving DecidableEq, Repr

def UsageError.message : UsageError → Text
  | argumentExpected subject => "argument " ++ subject ++ ": expected one argument"
  | invalidChoice subject value choices =>
    "argument " ++ subject ++ ": invalid choice: " ++ Text.quoted value ++ " (choose from " ++
      Text.join ", " (choices.map Text.quoted) ++ ")"
  | ignoredArgument subject value =>
    "argument " ++ subject ++ ": ignored explicit argument " ++ Text.quoted value
  | ambiguous argument names =>
    "ambiguous option: " ++ argument ++ " could match " ++ Text.join ", " names
  | operandRequired name => "the following arguments are required: " ++ name
  | unrecognized arguments => "unrecognized arguments: " ++ Text.join " " arguments

inductive Interruption where
  | help
  | wrong (e : UsageError)
  | fault (f : Fault)

/-! ### What an argument is -/

inductive Role where
  | plain
  | separator
  | flag (f : Flag) (name : Text) (attached : Option Text)
  | unknown

def Form.named (form : Form) : List (Flag × Text) :=
  form.flags.flatMap fun f => f.names.map fun name => (f, name)

def Form.flag? (form : Form) (name : Text) : Option Flag :=
  (form.named.find? (·.2 == name)).map (·.1)

/-- What is before the first equals sign of an argument and what is after it. -/
def splitAttached (s : Text) : Text × Option Text :=
  match s.span fun (c : CodePoint) => c != '=' with
  | (name, _ :: rest) => (name, some rest)
  | (name, []) => (name, none)

/-- The flags that an argument with two dashes can be short for. -/
def Form.longMatches (form : Form) (s : Text) : List (Flag × Text × Option Text) :=
  let (start, attached) := splitAttached s
  (form.named.filter fun n => start.isPrefixOf n.2).map fun n => (n.1, n.2, attached)

/-- The flags that an argument with one dash can mean: a one-letter flag with the rest attached, or one that
begins with the whole argument. -/
def Form.shortMatches (form : Form) (s : Text) : List (Flag × Text × Option Text) :=
  form.named.filterMap fun n =>
    if n.2 == s.take 2 then some (n.1, n.2, some (s.drop 2))
    else if s.isPrefixOf n.2 then some (n.1, n.2, none)
    else none

def Form.candidates (form : Form) (s : Text) : List (Flag × Text × Option Text) :=
  if Text.startsWith "--" s then form.longMatches s else form.shortMatches s

def isNegativeNumber (s : Text) : Bool :=
  match s with
  | .scalar '-' :: digits =>
    let whole := digits.takeWhile Text.isDecimal
    match digits.dropWhile Text.isDecimal with
    | [] | [.scalar '\n'] => !whole.isEmpty
    | .scalar '.' :: fraction =>
      let places := fraction.takeWhile Text.isDecimal
      let rest := fraction.dropWhile Text.isDecimal
      !places.isEmpty && (rest.isEmpty || rest == "\n")
    | _ => false
  | _ => false

/-- What an argument with a dash is that is not a name of a flag. -/
def Form.guess (form : Form) (s : Text) : Except UsageError Role :=
  match form.candidates s with
  | [] => .ok (if isNegativeNumber s || s.contains ' ' then .plain else .unknown)
  | [(f, name, attached)] => .ok (.flag f name attached)
  | several => .error (.ambiguous s (several.map fun m => m.2.1))

def Form.role (form : Form) (s : Text) : Except UsageError Role :=
  match s with
  | .scalar '-' :: rest =>
    match form.flag? s with
    | some f => .ok (.flag f s none)
    | none =>
      if rest.isEmpty then .ok .plain
      else
        let (name, attached) := splitAttached s
        match attached, form.flag? name with
        | some value, some f => .ok (.flag f name (some value))
        | _, _ => form.guess s
  | _ => .ok .plain

/-- What the arguments are. After a double dash they are all plain. -/
def Form.roles (form : Form) : List Text → Except UsageError (List (Text × Role))
  | [] => .ok []
  | s :: rest =>
    if s == "--" then .ok ((s, .separator) :: rest.map fun r => (r, .plain))
    else
      match form.role s with
      | .error e => .error e
      | .ok role => (form.roles rest).map fun others => (s, role) :: others

/-! ### Reading -/

structure Reading where
  /-- The flags that were given, by their last names, with their arguments. -/
  given : List (Text × Text)
  operand : Option Text
  left : List Text
  deriving DecidableEq, Repr

namespace Reading

def key (f : Flag) : Text := (f.names.getLast?).getD ""

/-- The argument of a flag; of several ones the last counts. -/
def value? (r : Reading) (f : Flag) : Option Text :=
  (r.given.reverse.find? (·.1 == key f)).map (·.2)

def has (r : Reading) (f : Flag) : Bool := r.given.any (·.1 == key f)

end Reading

def Flag.subject (f : Flag) : Text := Text.join "/" f.names

/-- Takes a flag with its argument. A double dash is no argument. -/
def Reading.take (r : Reading) (f : Flag) (value : Option Text) : Except Interruption Reading :=
  if f.isHelp then .error .help
  else
    match value with
    | none => .ok { r with given := r.given ++ [(Reading.key f, [])] }
    | some v =>
      if v == "--" then .error (.fault (.badValue (.tooFew 1 0)))
      else if f.choices.isEmpty || f.choices.contains v then
        .ok { r with given := r.given ++ [(Reading.key f, v)] }
      else .error (.wrong (.invalidChoice f.subject v f.choices))

def Reading.takeAll (r : Reading) : List (Flag × Option Text) → Except Interruption Reading
  | [] => .ok r
  | (f, value) :: rest =>
    match r.take f value with
    | .error e => .error e
    | .ok r' => r'.takeAll rest

/-- The flags of one argument: those without arguments come first, and the last one may still need what
follows. -/
structure Cluster where
  before : List Flag
  last : Flag
  value : Option Text

def isShort (name : Text) : Bool := (name.drop 1).head? != some '-'

def Form.cluster (form : Form) (before : List Flag) (f : Flag) (short : Bool) :
    Text → Except UsageError Cluster
  | [] =>
    if f.takes then .ok ⟨before, f, some ""⟩ else .error (.ignoredArgument f.subject "")
  | c :: rest =>
    if f.takes then .ok ⟨before, f, some (c :: rest)⟩
    else if !short then .error (.ignoredArgument f.subject (c :: rest))
    else
      match form.flag? ('-' :: [c]) with
      | none => .error (.ignoredArgument f.subject (c :: rest))
      | some g =>
        if rest.isEmpty then .ok ⟨before ++ [f], g, none⟩
        else form.cluster (before ++ [f]) g true rest

def Form.clusterOf (form : Form) (f : Flag) (name : Text) : Option Text → Except UsageError Cluster
  | none => .ok ⟨[], f, none⟩
  | some attached => form.cluster [] f (isShort name) attached

/-- The flags of a cluster, each with its argument. The last one takes what follows if it needs it; the rest
that nothing has taken comes second. -/
def Cluster.withArguments (c : Cluster) (rest : List (Text × Role)) :
    Except UsageError (List (Flag × Option Text) × List (Text × Role)) :=
  let before := c.before.map fun f => (f, none)
  if c.value.isSome || !c.last.takes then .ok (before ++ [(c.last, c.value)], rest)
  else
    match rest with
    | (s, .plain) :: rest' => .ok (before ++ [(c.last, some s)], rest')
    | _ => .error (.argumentExpected c.last.subject)

def Form.readFlag (form : Form) (r : Reading) (f : Flag) (name : Text) (attached : Option Text)
    (rest : List (Text × Role)) : Except Interruption (Reading × List (Text × Role)) :=
  match form.clusterOf f name attached with
  | .error e => .error (.wrong e)
  | .ok c =>
    match c.withArguments rest with
    | .error e => .error (.wrong e)
    | .ok (flags, rest') => (r.takeAll flags).map fun r' => (r', rest')

/-- Reads an argument that is no flag, and gives what follows it. The operand takes a double dash before or
after it along. -/
def Form.readPlain (form : Form) (r : Reading) (s : Text) (separator : Bool)
    (rest : List (Text × Role)) : Reading × List (Text × Role) :=
  if form.operand.isNone || r.operand.isSome then ({ r with left := r.left ++ [s] }, rest)
  else if separator then
    match rest with
    | (t, _) :: rest' => ({ r with operand := some t }, rest')
    | [] => ({ r with left := r.left ++ [s] }, rest)
  else
    match rest with
    | (_, .separator) :: rest' => ({ r with operand := some s }, rest')
    | _ => ({ r with operand := some s }, rest)

def Form.readRoles (form : Form) : Nat → Reading → List (Text × Role) → Except Interruption Reading
  | 0, r, _ => .ok r
  | _, r, [] => .ok r
  | fuel + 1, r, (s, role) :: rest =>
    match role with
    | .unknown => form.readRoles fuel { r with left := r.left ++ [s] } rest
    | .flag f name attached =>
      match form.readFlag r f name attached rest with
      | .error e => .error e
      | .ok (r', rest') => form.readRoles fuel r' rest'
    | .plain =>
      let (r', rest') := form.readPlain r s false rest
      form.readRoles fuel r' rest'
    | .separator =>
      let (r', rest') := form.readPlain r s true rest
      form.readRoles fuel r' rest'

/-- Reads arguments; an operand that the form asks for has to be among them. -/
def Form.read (form : Form) (arguments : List Text) : Except Interruption Reading :=
  match form.roles arguments with
  | .error e => .error (.wrong e)
  | .ok roles =>
    match form.readRoles roles.length ⟨[], none, []⟩ roles with
    | .error e => .error e
    | .ok r =>
      match form.operand, r.operand with
      | some (name, _), none => .error (.wrong (.operandRequired name))
      | _, _ => .ok r

/-! ### Help -/

def Flag.shown (f : Flag) : Text :=
  match f.argument with
  | none => Text.join ", " f.names
  | some argument =>
    let argument :=
      if f.choices.isEmpty then argument else "\x7b" ++ Text.join "," f.choices ++ "\x7d"
    Text.join ", " (f.names.map fun name => name ++ " " ++ argument)

def blanks (n : Nat) : Text := Text.times n ' '

def greatestColumn : Nat := 24

/-- A row of the help text: an entry with its explanation, on the next line if the entry is too long. -/
def helpRow (column : Nat) (entry : Text × Text) : List Text :=
  let (shown, help) := entry
  if shown.length + 4 ≤ column then
    ["  " ++ shown ++ blanks (column - 2 - shown.length) ++ help]
  else ["  " ++ shown, blanks column ++ help]

def helpColumn (entries : List (Text × Text)) : Nat :=
  min greatestColumn ((entries.map fun e => e.1.length + 4).foldl max 0)

def Form.operandEntries (form : Form) : List (Text × Text) := form.operand.toList

def Form.flagEntries (form : Form) : List (Text × Text) :=
  form.flags.map fun f => (f.shown, f.help)

def Form.helpLines (form : Form) : List Text :=
  let column := helpColumn (form.operandEntries ++ form.flagEntries)
  let flags := form.flagEntries.flatMap (helpRow column)
  let operand := form.operandEntries.flatMap (helpRow column)
  let operandHeading : Text := "positional arguments:"
  let flagHeading : Text := "options:"
  form.usage ++ [[]] ++ (if operand.isEmpty then [] else operandHeading :: operand ++ [[]]) ++
    flagHeading :: flags

end PluginKit.Console
