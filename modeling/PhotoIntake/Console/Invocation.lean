import PhotoIntake.Console.Grammar
import PhotoIntake.Naming.Rendering
import PhotoIntake.Path

/-!
# Invocations

The commands of the program with their arguments, and the grammar by which they are given.
-/

namespace PhotoIntake.Console

open Naming (Purpose)

/-- The parts of the program that can run as workers. -/
inductive WorkerKind where
  | scanner
  | loader
  | mover
  deriving DecidableEq

namespace WorkerKind

/-- The kinds of workers. -/
def all : List WorkerKind :=
  [scanner, loader, mover]

/-- The name of a kind. -/
def title : WorkerKind → String
  | scanner => "scanner"
  | loader => "exif-loader"
  | mover => "mover"

/-- The kind with the given name. -/
def ofTitle? (s : String) : Option WorkerKind :=
  all.find? (·.title == s)

end WorkerKind

/-- The name of a purpose. -/
def purposeTitle : Purpose → String
  | .image => "image"
  | .destination => "destination"

/-- The purpose with the given name. -/
def purposeOfTitle? (s : String) : Option Purpose :=
  [Purpose.image, .destination].find? (purposeTitle · == s)

/-- What a session is asked to do otherwise than the configuration says. -/
structure SessionRequest where
  source : Path
  destination : Option Path
  imageTemplate : Option String
  destinationTemplate : Option String
  label : Option String
  withSubfolders : Option Bool
  includesDownloaded : Bool
  inThreads : Bool
  deriving DecidableEq

/-- A change of templates as it is asked for.  The case policy is given by its name. -/
inductive TemplateRequest where
  | add (purpose : Purpose) (key : String) (name : Option String) (policy : String)
      (tokens : List String)
  | redefine (purpose : Purpose) (key policy : String) (tokens : List String)
  | rename (purpose : Purpose) (key name : String)
  | delete (purpose : Purpose) (key : String)
  deriving DecidableEq

/-- A command of the program. -/
inductive Command where
  | download (request : SessionRequest) (moves : Bool)
  | preview (request : SessionRequest)
  | tokens (purpose : Option Purpose)
  | templates (purpose : Option Purpose)
  | editTemplates (request : TemplateRequest)
  | sequences (resets : Bool)
  | downloaded (resets : Bool)
  | generateConfig (target : Option Path)
  | showConfig
  | worker (kind : WorkerKind)
  deriving DecidableEq

/-- A command with what is given to every command. -/
structure Invocation where
  command : Command
  config : Option Path
  logLevel : Option String
  deriving DecidableEq

/-! ## The grammar -/

namespace Invocation

/-- The switches of every command. -/
def commonSwitches : List Switch :=
  [⟨"config", some 'c', .value .path⟩, ⟨"log-level", some 'l', .value .text⟩,
    ⟨"help", some 'h', .help⟩]

/-- A command with switches of its own. -/
def commandNamed (name : String) (switches : List Switch) (operands : List Operand)
    (commands : List Grammar) : Grammar :=
  { name, operands, commands, switches := switches ++ commonSwitches, needsCommand := false }

/-- The values that name a purpose. -/
def purposeKind : ValueKind :=
  .choice ["image", "destination"]

/-- The switches of a session. -/
def sessionSwitches : List Switch :=
  [⟨"destination", some 'd', .value .path⟩, ⟨"image-template", none, .value .text⟩,
    ⟨"destination-template", none, .value .text⟩, ⟨"session", some 's', .value .text⟩,
    ⟨"include-subdirs", none, .value (.choice ["true", "false"])⟩,
    ⟨"include-downloaded", none, .flag⟩, ⟨"threads", none, .flag⟩]

/-- The source of a session. -/
def sourceOperand : Operand :=
  ⟨"source", .path, false⟩

/-- The switch that narrows a list to a purpose. -/
def purposeSwitch : Switch :=
  ⟨"template-type", some 't', .value purposeKind⟩

/-- The purpose and the key of a template. -/
def keyOperands : List Operand :=
  [⟨"template-type", purposeKind, false⟩, ⟨"key", .text, false⟩]

/-- The switch that names the case policy of a template. -/
def policySwitch : Switch :=
  ⟨"extension", none, .value .text⟩

/-- The tokens of a template. -/
def tokenOperand : Operand :=
  ⟨"tokens", .text, true⟩

/-- The commands on templates. -/
def templateCommands : List Grammar :=
  [commandNamed "list" [purposeSwitch] [] [],
    commandNamed "add" [⟨"name", some 'n', .value .text⟩, policySwitch]
      (keyOperands ++ [tokenOperand]) [],
    commandNamed "redefine" [policySwitch] (keyOperands ++ [tokenOperand]) [],
    commandNamed "rename" [] (keyOperands ++ [⟨"name", .text, false⟩]) [],
    commandNamed "delete" [] keyOperands []]

/-- The switch that empties a store. -/
def resetSwitch : Switch :=
  ⟨"reset", none, .flag⟩

/-- The grammar of the program. -/
def grammar : Grammar where
  name := "photo-downloader"
  switches := commonSwitches ++ [⟨"version", some 'V', .version⟩]
  operands := []
  needsCommand := true
  commands :=
    [commandNamed "download" (sessionSwitches ++ [⟨"move", none, .flag⟩]) [sourceOperand] [],
      commandNamed "preview" sessionSwitches [sourceOperand] [],
      commandNamed "tokens" [purposeSwitch] [] [],
      commandNamed "templates" [] [] templateCommands,
      commandNamed "sequences" [resetSwitch] [] [],
      commandNamed "downloaded" [resetSwitch] [] [],
      commandNamed "generate-config" [⟨"output", some 'o', .value .path⟩] [] [],
      commandNamed "show-config" [] [] [],
      commandNamed "worker" [] [⟨"kind", .choice (WorkerKind.all.map (·.title)), false⟩] []]

/-! ## Reading -/

/-- The path of an argument, if it was given. -/
def path? (a : Arguments) (name : String) : Option Path :=
  (a.text? name).map Path.mk

/-- The purpose of an argument, if it was given. -/
def purpose? (a : Arguments) : Option Purpose :=
  (a.text? "template-type").bind purposeOfTitle?

/-- The purpose of an argument that has to be given. -/
def purpose (a : Arguments) : Except UsageError Purpose :=
  match purpose? a with
  | some p => .ok p
  | none => .error .argumentMissing

/-- What a session is asked to do. -/
def sessionRequest (a : Arguments) : Except UsageError SessionRequest := do
  return {
    source := ⟨← a.text "source"⟩
    destination := path? a "destination"
    imageTemplate := a.text? "image-template"
    destinationTemplate := a.text? "destination-template"
    label := a.text? "session"
    withSubfolders := (a.text? "include-subdirs").map (· == "true")
    includesDownloaded := a.has "include-downloaded"
    inThreads := a.has "threads" }

/-- The case policy that is named where none is given. -/
def standardPolicy : String :=
  "lowercase"

/-- The command on templates. -/
def templateCommand (a : Arguments) : Option String → Except UsageError Command
  | some "add" => do
    let policy := (a.text? "extension").getD standardPolicy
    return .editTemplates
      (.add (← purpose a) (← a.text "key") (a.text? "name") policy (a.texts "tokens"))
  | some "redefine" => do
    let policy := (a.text? "extension").getD standardPolicy
    return .editTemplates (.redefine (← purpose a) (← a.text "key") policy (a.texts "tokens"))
  | some "rename" => do
    return .editTemplates (.rename (← purpose a) (← a.text "key") (← a.text "name"))
  | some "delete" => do return .editTemplates (.delete (← purpose a) (← a.text "key"))
  | _ => return .templates (purpose? a)

/-- The command that arguments name. -/
def commandOf (a : Arguments) : Except UsageError Command :=
  match a.commands with
  | ["download"] => do return .download (← sessionRequest a) (a.has "move")
  | ["preview"] => do return .preview (← sessionRequest a)
  | ["tokens"] => return .tokens (purpose? a)
  | "templates" :: rest => templateCommand a rest.head?
  | ["sequences"] => return .sequences (a.has "reset")
  | ["downloaded"] => return .downloaded (a.has "reset")
  | ["generate-config"] => return .generateConfig (path? a "output")
  | ["show-config"] => return .showConfig
  | ["worker"] =>
    match (a.text? "kind").bind WorkerKind.ofTitle? with
    | some kind => return .worker kind
    | none => throw .argumentMissing
  | _ => throw .commandMissing

/-- The invocation that arguments write. -/
def read (args : List String) : Except UsageError Invocation := do
  let a ← grammar.read args
  return { command := ← commandOf a, config := path? a "config", logLevel := a.text? "log-level" }

end Invocation

end PhotoIntake.Console
