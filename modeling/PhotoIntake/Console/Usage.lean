import PhotoIntake.Console.Invocation

/-!
# Usage

What is told to a user whose arguments lead to no command: the help, the version, or what is wrong
with the arguments.
-/

namespace PhotoIntake.Console

/-- The version of the program. -/
def version : String :=
  "1.0.0"

/-- The way in which an operand is shown. -/
def Operand.shown (o : Operand) : String :=
  " <" ++ o.name ++ ">" ++ if o.isMany then "..." else ""

/-- The ways in which a switch is shown, its letter first. -/
def Switch.shown (s : Switch) : String :=
  let letter := match s.letter with
    | some c => "-" ++ String.singleton c ++ ", "
    | none => "    "
  letter ++ "--" ++ s.name

/-- The commands of the program with their operands, a line each. -/
def commandHelp : List String :=
  Invocation.grammar.commands.map fun g =>
    "  " ++ g.name ++ String.join (g.operands.map Operand.shown)

/-- The help of the program. -/
def help : List String :=
  ["Usage: " ++ Invocation.grammar.name ++ " [OPTIONS] <COMMAND>", "", "Commands:"] ++
    commandHelp ++ ["", "Options:"] ++ Invocation.grammar.switches.map fun s => "  " ++ s.shown

namespace UsageError

/-- The user has asked for what is shown. -/
def isWanted : UsageError → Bool
  | helpShown | versionShown => true
  | _ => false

/-- What is told. -/
def lines : UsageError → List String
  | helpShown | helpForNothing => help
  | versionShown => [Invocation.grammar.name ++ " " ++ version]
  | commandMissing => ["error: a command is required"]
  | commandUnknown => ["error: unrecognized command"]
  | argumentUnknown => ["error: unexpected argument"]
  | argumentMissing => ["error: a required argument is missing"]
  | argumentRepeated => ["error: an argument is given more than once"]
  | valueInvalid => ["error: invalid or missing value"]
  | valueUnwanted => ["error: an argument takes no value"]

end UsageError

end PhotoIntake.Console
