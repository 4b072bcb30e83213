/-!
# Command-line grammars

A grammar says which switches, operands and commands may follow the name of a program or command.
Reading goes from left to right.  A value is checked when the argument after it is taken up, so an
argument that cannot be placed is reported before a value in front of it; a command is read to its
end before the arguments in front of it are checked as a whole.
-/

namespace PhotoIntake.Console

/-- Why arguments lead to no command: something is shown instead, or something is wrong. -/
inductive UsageError where
  | helpShown
  | versionShown
  | helpForNothing
  | commandMissing
  | commandUnknown
  | argumentUnknown
  | argumentMissing
  | argumentRepeated
  | valueInvalid
  | valueUnwanted
  deriving DecidableEq

/-- Which values an argument takes. -/
inductive ValueKind where
  | text
  | path
  | choice (names : List String)
  deriving DecidableEq

/-- The value can be taken. -/
def ValueKind.admits : ValueKind → String → Bool
  | text, _ => true
  | path, s => !s.isEmpty
  | choice names, s => names.contains s

/-- What a switch does. -/
inductive SwitchRole where
  | value (kind : ValueKind)
  | flag
  | help
  | version
  deriving DecidableEq

/-- An argument that is given by its name, or by a letter. -/
structure Switch where
  name : String
  letter : Option Char
  role : SwitchRole
  deriving DecidableEq

/-- An argument that is given by its position.  Only the last one may take several values, and all
have to be given. -/
structure Operand where
  name : String
  kind : ValueKind
  isMany : Bool
  deriving DecidableEq

/-- The grammar of a program or a command. -/
structure Grammar where
  name : String
  switches : List Switch
  operands : List Operand
  commands : List Grammar
  needsCommand : Bool

/-- What was read: the commands that were named, the innermost last, and the values of the
arguments, those of inner commands first. -/
structure Arguments where
  commands : List String
  values : List (String × List String)
  deriving DecidableEq

namespace Arguments

/-- The values of an argument. -/
def texts (a : Arguments) (name : String) : List String :=
  (a.values.lookup name).getD []

/-- The value of an argument, if it was given. -/
def text? (a : Arguments) (name : String) : Option String :=
  (a.texts name).head?

/-- The value of an argument that has to be given. -/
def text (a : Arguments) (name : String) : Except UsageError String :=
  match a.text? name with
  | some s => .ok s
  | none => .error .argumentMissing

/-- The argument was given. -/
def has (a : Arguments) (name : String) : Bool :=
  (a.values.lookup name).isSome

end Arguments

/-- An argument whose values are not checked yet. -/
inductive Slot where
  | switch (s : Switch) (kind : ValueKind)
  | operand (o : Operand)
  deriving DecidableEq

/-- Where reading stands within one grammar. -/
structure Reading where
  grammar : Grammar
  given : List (String × List String)
  pending : Option (Slot × List String)
  position : Nat
  onlyOperands : Bool

namespace Reading

/-- The start of a grammar. -/
def start (grammar : Grammar) : Reading :=
  { grammar, given := [], pending := none, position := 0, onlyOperands := false }

/-- The reading with values of an argument; those of an argument with several are added. -/
def record (r : Reading) (name : String) (values : List String) : Reading :=
  let earlier := (r.given.lookup name).getD []
  { r with given := r.given.filter (·.1 != name) ++ [(name, earlier ++ values)] }

/-- Take up the values of a switch, which may be given only once. -/
def take (r : Reading) (name : String) (admits : String → Bool) (values : List String) :
    Except UsageError Reading :=
  if (r.given.lookup name).isSome then .error .argumentRepeated
  else if values.all admits then .ok (r.record name values)
  else .error .valueInvalid

/-- Take up the values that are not checked yet. -/
def settle (r : Reading) : Except UsageError Reading :=
  let done := { r with pending := none }
  match r.pending with
  | none => .ok r
  | some (.switch _ _, []) => .error .valueInvalid
  | some (.switch s kind, values) => done.take s.name kind.admits values
  | some (.operand o, values) =>
    if values.all o.kind.admits then .ok (done.record o.name values) else .error .valueInvalid

/-- A switch waits for its value. -/
def awaitsValue (r : Reading) : Bool :=
  match r.pending with
  | some (.switch _ _, []) => true
  | _ => false

/-- A switch that was named, with the value that is attached to it. -/
def applySwitch (r : Reading) (s : Switch) (attached : Option String) :
    Except UsageError Reading := do
  match s.role, attached with
  | .value kind, some v => (← r.settle).take s.name kind.admits [v]
  | .value kind, none => return { ← r.settle with pending := some (.switch s kind, []) }
  | _, some _ => throw .valueUnwanted
  | .flag, none => (← r.settle).take s.name (fun _ => true) ["true"]
  | .help, none =>
    let _ ← r.settle
    throw .helpShown
  | .version, none =>
    let _ ← r.settle
    throw .versionShown

/-- A switch given by its name, without the two dashes. -/
def readLong (r : Reading) (s : List Char) : Except UsageError Reading :=
  let name := String.ofList (s.takeWhile (· != '='))
  match r.grammar.switches.find? (·.name == name), s.dropWhile (· != '=') with
  | none, _ => .error .argumentUnknown
  | some switch, [] => r.applySwitch switch none
  | some switch, _ :: value => r.applySwitch switch (some (String.ofList value))

/-- Switches given by their letters, without the dash.  What follows the letter of a switch with a
value is the value, an equals sign apart. -/
def readLetters (r : Reading) : List Char → Except UsageError Reading
  | [] => .ok r
  | c :: rest =>
    match r.grammar.switches.find? (·.letter == some c) with
    | none => .error .argumentUnknown
    | some switch =>
      match switch.role, rest with
      | .value _, [] => r.applySwitch switch none
      | .value _, '=' :: value => r.applySwitch switch (some (String.ofList value))
      | .value _, value => r.applySwitch switch (some (String.ofList value))
      | _, rest => (r.applySwitch switch none).bind (readLetters · rest)

/-- The name of the command that shows help on others. -/
def helpName : String :=
  "help"

/-- An argument given by its position. -/
def readOperand (r : Reading) (arg : String) : Except UsageError Reading :=
  match r.grammar.operands[r.position]? with
  | none =>
    let namesCommand := arg == helpName || r.grammar.commands.any (·.name == arg)
    if r.grammar.commands.isEmpty || (r.onlyOperands && namesCommand) then
      .error .argumentUnknown
    else .error .commandUnknown
  | some o =>
    match r.pending with
    | some (.operand earlier, values) =>
      if earlier == o && o.isMany then
        .ok { r with pending := some (.operand o, values ++ [arg]) }
      else opening o
    | _ => opening o
where
  /-- The first value of an operand. -/
  opening (o : Operand) : Except UsageError Reading :=
    r.settle.map fun r =>
      { r with
        pending := some (.operand o, [arg])
        position := if o.isMany then r.position else r.position + 1 }

/-- One argument that names no command. -/
def step (r : Reading) (arg : String) : Except UsageError Reading :=
  if r.onlyOperands then r.readOperand arg
  else
    match arg.toList, r.pending with
    | ['-', '-'], _ => .ok { r with onlyOperands := true }
    | '-' :: '-' :: name, _ => r.readLong name
    | '-' :: c :: letters, _ => r.readLetters (c :: letters)
    | _, some (.switch s kind, []) => .ok { r with pending := some (.switch s kind, [arg]) }
    | _, _ => r.readOperand arg

/-- The end of the arguments, or of what a command has left of them. -/
def finish (r : Reading) (command : Option (String × Arguments)) :
    Except UsageError Arguments := do
  let r ← r.settle
  if command.isNone && r.grammar.needsCommand then
    throw (if r.given.isEmpty then .helpForNothing else .commandMissing)
  if r.grammar.operands.any fun o => (r.given.lookup o.name).isNone then throw .argumentMissing
  match command with
  | none => return ⟨[], r.given⟩
  | some (name, inner) => return ⟨name :: inner.commands, inner.values ++ r.given⟩

/-- What comes of asking for help on a command. -/
def helpOn : Grammar → List String → UsageError
  | _, [] => .helpShown
  | g, name :: rest =>
    match g.commands.find? (·.name == name) with
    | some inner => helpOn inner rest
    | none =>
      if name = helpName ∧ !g.commands.isEmpty ∧ rest.isEmpty then .helpShown
      else .commandUnknown

/-- A command may be named by the next argument. -/
def takesCommand (r : Reading) : Bool :=
  !r.onlyOperands && !r.awaitsValue && !r.grammar.commands.isEmpty

/-- Read the arguments that are left. -/
def readAll (r : Reading) : List String → Except UsageError Arguments
  | [] => r.finish none
  | arg :: rest =>
    if r.takesCommand then
      match r.grammar.commands.find? (·.name == arg) with
      | some g => do r.finish (some (g.name, ← readAll (start g) rest))
      | none =>
        if arg = helpName then .error (helpOn r.grammar rest)
        else do readAll (← r.step arg) rest
    else do readAll (← r.step arg) rest

end Reading

/-- Read arguments by a grammar. -/
def Grammar.read (g : Grammar) (args : List String) : Except UsageError Arguments :=
  (Reading.start g).readAll args

end PhotoIntake.Console
