import PhotoIntake.Json.Settled
import PhotoIntake.Metadata.Loader
import PhotoIntake.Text.Blank
import PhotoIntake.Text.Lines

/-!
# The metadata tool

Tags are read by a separate program that stays open.  It reads options line by line; the line
`-execute` ends a request, and the program answers with a JSON document and the line `{ready}`.
The client starts the program when it is needed.  It keeps the connection over failures to send
and to decode, and gives it up when the program has ended.
-/

namespace PhotoIntake.Metadata

/-- What a program prints for a request, line by line, and whether it then ends. -/
structure Reply where
  lines : List (List UInt8)
  exits : Bool

/-- How a program behaves, in a world of its own. -/
structure Program (ω : Type) where
  launch : ω → Except FileError ω
  reply : ω → List String → Reply × ω

/-- A connection to a program that was started: the lines of a request that it has read, the lines
that it has printed and the client has not read, and whether it has ended. -/
structure Connection where
  request : List String
  unread : List (List UInt8)
  ended : Bool

/-- A client, with the world of its program. -/
structure Client (ω : Type) where
  world : ω
  connection : Option Connection

namespace Client

variable {ω : Type}

/-- A client that has not started its program. -/
def ofWorld (world : ω) : Client ω :=
  ⟨world, none⟩

/-- The program was started and has not been given up. -/
def isRunning (c : Client ω) : Bool :=
  c.connection.isSome

/-- The line that ends a request. -/
def executeLine : String :=
  "-execute"

/-- The line that ends an answer. -/
def readyLine : List Char :=
  "\x7bready\x7d".toList

/-- The arguments of a request for tags. -/
def arguments (p : Path) (tags : List String) : List String :=
  ["-j", "-G", "-n", "-b"] ++ tags.map ("-" ++ ·) ++ [p.text]

/-- The text that is sent for a request. -/
def requestText (arguments : List String) : String :=
  "\n".intercalate arguments ++ "\n" ++ executeLine ++ "\n"

/-- The lines of a text whose last line is complete. -/
def linesOf (text : String) : List String :=
  (text.toList.splitOn '\n').dropLast.map String.ofList

/-- Let the program read a line. -/
def readLine (p : Program ω) (state : Connection × ω) (line : String) : Connection × ω :=
  let (c, world) := state
  if c.ended then state
  else if line = executeLine then
    let (reply, world) := p.reply world c.request
    ({ request := [], unread := c.unread ++ reply.lines, ended := reply.exits }, world)
  else ({ c with request := c.request ++ [line] }, world)

/-- Read the lines of an answer; the lines behind it are left. -/
def collect (ended : Bool) : String → List (List UInt8) →
    Except ToolError String × List (List UInt8)
  | _, [] => (.error (if ended then .exited else .silent), [])
  | collected, bytes :: rest =>
    match Text.ofBytes? bytes with
    | none => (.error .cannotRead, rest)
    | some line =>
      if Text.trimEnd line.toList = readyLine then (.ok collected, rest)
      else collect ended (collected ++ line ++ "\n") rest

/-- Start the program, unless it is running. -/
def start (name : Path) (p : Program ω) (c : Client ω) : Except ToolError Unit × Client ω :=
  if c.isRunning then (.ok (), c)
  else
    match p.launch c.world with
    | .ok world => (.ok (), ⟨world, some ⟨[], [], false⟩⟩)
    | .error e => (.error (.cannotStart name e), c)

/-- Send a request over a connection and read the answer. -/
def exchange (p : Program ω) (world : ω) (c : Connection) (text : String) :
    Except ToolError String × Client ω :=
  if c.ended then (.error .cannotSend, ⟨world, some c⟩)
  else
    let (c, world) := (linesOf text).foldl (readLine p) (c, world)
    match collect c.ended "" c.unread with
    | (.error .exited, _) => (.error .exited, ⟨world, none⟩)
    | (result, unread) => (result, ⟨world, some { c with unread }⟩)

/-- Send a request, starting the program if needed, and read the answer. -/
def execute (name : Path) (p : Program ω) (c : Client ω) (arguments : List String) :
    Except ToolError String × Client ω :=
  match start name p c with
  | (.error e, c) => (.error e, c)
  | (.ok (), c) =>
    match c.connection with
    | some connection => exchange p c.world connection (requestText arguments)
    | none => (.error .exited, c)

/-- The tags of an answer: those of the first item of an array. -/
def tagsOf (answer : String) : Except ToolError Tags :=
  if (Text.trim answer.toList).isEmpty then .ok .empty
  else
    match Json.readSettled? answer with
    | none => .error .invalidAnswer
    | some (.array (.object values :: _)) => .ok ⟨values⟩
    | some _ => .ok .empty

/-- Read tags of a file. -/
def read (name : Path) (p : Program ω) (c : Client ω) (path : Path) (tags : List String) :
    Except ToolError Tags × Client ω :=
  let (answer, c) := execute name p c (arguments path tags)
  (answer.bind tagsOf, c)

/-- Let the program end. -/
def terminate (c : Client ω) : Client ω :=
  ⟨c.world, none⟩

/-- The client as a reader of tags. -/
def reader (name : Path) (p : Program ω) : Reader (Client ω) where
  start c :=
    let (result, c) := start name p c
    (result.mapError .tool, c)
  read c path tags :=
    let (result, c) := read name p c path tags
    (result.mapError .tool, c)
  finish := terminate

end Client

end PhotoIntake.Metadata
