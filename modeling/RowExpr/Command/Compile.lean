/-
# The compile command

From the text of a JSON object of definitions to the text of the compiled ones, or to the number of
definitions if they are only checked.
-/
import RowExpr.Command.Definitions
import RowExpr.Command.Output
import RowExpr.Json.Parse
import RowExpr.Json.Text

namespace RowExpr

/-- A reason for which a command fails. -/
inductive CommandError where
  | compile (error : CompileError)
  | invalidJson
  /-- The input is not text. -/
  | undecodable
  | noInput
  | invalidDefinition (fault : DefinitionFault)

/-- The wording of a reason. -/
def CommandError.message : CommandError → String
  | compile e => e.message
  | invalidJson => "Invalid JSON: the text is not a JSON value"
  | undecodable => "IO error: stream did not contain valid UTF-8"
  | noInput => "No input provided. Use --input or pipe a JSON object of expressions to stdin."
  | invalidDefinition fault => "Invalid definition: " ++ fault.message

/-- What the compile command is asked for. -/
structure CompileRequest where
  /-- The text of the definitions. -/
  input : Option String := none
  /-- Whether the result is laid out over several lines. -/
  pretty : Bool := false
  /-- Whether the definitions are only checked. -/
  check : Bool := false

/-- What the compile command gives. -/
inductive CompileResult where
  /-- This many definitions are acceptable. -/
  | valid (count : Nat)
  /-- The text of the compiled definitions. -/
  | text (text : String)

/-- Carries out a compile command. -/
def CompileRequest.run (request : CompileRequest) : Except CommandError CompileResult := do
  match request.input with
  | none => .error .noInput
  | some input =>
    match Json.parse? input with
    | none => .error .invalidJson
    | some json =>
      let defs ← (Definitions.ofJson json).mapError CommandError.invalidDefinition
      if request.check then
        (Compiler.standard.check defs).mapError CommandError.compile
        return .valid defs.length
      else
        let compiled ← (Compiler.standard.compile defs).mapError CommandError.compile
        return .text (if request.pretty then compiled.toJson.pretty else compiled.toJson.text)

end RowExpr
