/-
# Running a command

What a command prints and the code that it ends with, given the files that it can see and its
standard input.
-/
import RowExpr.Command.Arguments
import RowExpr.Registry.Listing

namespace RowExpr

/-- What a command sees of the world. -/
structure Surroundings where
  /-- The contents of a file, if there is a file at a path. -/
  file? : String → Option ByteArray
  /-- The standard input, unless it is a terminal. -/
  stdin? : Option ByteArray

/-- What a command leaves behind. -/
structure Outcome where
  code : UInt32
  stdout : String := ""
  stderr : String := ""

namespace Command

/-- The name and the version of the program. -/
def versionText : String := "colexpr 0.2.0\n"

/-- How the program is called. -/
def usageText : String :=
  "Usage: colexpr <COMMAND>\n\nCommands:\n"
    ++ "  compile    Compile a JSON object of named expressions\n"
    ++ "  operators  List the built-in operators and functions\n"
    ++ "  help       Print this message\n\nOptions of compile:\n"
    ++ "  -i, --input <INPUT>  JSON definitions, or a path to a file containing them\n"
    ++ "  -p, --pretty         Pretty-print the output\n"
    ++ "      --check          Only parse and validate, don't generate code\n"

/-- The text that bytes encode. -/
def decode (bytes : ByteArray) : Except CommandError String :=
  match String.fromUTF8? bytes with
  | some text => .ok text
  | none => .error .undecodable

/-- Whether an input is the definitions themselves and never a path: it starts with a brace. -/
def isInline (input : String) : Bool := (Text.trimStart input.toList).head? == some '\x7b'

/-- The text of the definitions: the input, the file that it names, or the standard input. -/
def readInput (world : Surroundings) : Option String → Except CommandError (Option String)
  | some input =>
    if isInline input then .ok (some input)
    else
      match world.file? input with
      | some bytes => (decode bytes).map some
      | none => .ok (some input)
  | none =>
    match world.stdin? with
    | some bytes => (decode bytes).map some
    | none => .ok none

/-- Carries out a compile command with its input read. -/
def runCompile (world : Surroundings) (request : CompileRequest) :
    Except CommandError CompileResult := do
  let input ← readInput world request.input
  { request with input := input }.run

/-- What a command leaves behind. -/
def run (world : Surroundings) : Command → Outcome
  | compile request =>
    match runCompile world request with
    | .ok (.valid count) =>
      { code := 0, stdout := toString count ++ " expression(s) are valid\n" }
    | .ok (.text text) => { code := 0, stdout := text ++ "\n" }
    | .error e => { code := 1, stderr := e.message ++ "\n" }
  | operators => { code := 0, stdout := Registry.standard.listing }
  | version => { code := 0, stdout := versionText }
  | help => { code := 0, stdout := usageText }

/-- What the program leaves behind when it is called with arguments. -/
def runArguments (world : Surroundings) (args : List String) : Outcome :=
  match ofArguments args with
  | some command => command.run world
  | none => { code := 2, stderr := usageText }

end Command

end RowExpr
