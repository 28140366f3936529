/-
# Compiling definitions

The definitions of a set are compiled one after the other. They share one list of operator calls,
which numbers the operators in the order in which they occur, and the first error ends it all. A
host turns the code of each into whatever it runs.
-/
import RowExpr.Definition
import RowExpr.Registry.Standard
import RowExpr.Stmt.Canonical
import RowExpr.Stmt.Check
import RowExpr.Stmt.Code
import RowExpr.Stmt.Extract

namespace RowExpr

/-- What a host makes of generated code, from its parameters and its body. -/
abbrev Host (τ : Type) := List String → String → Except CompileError τ

/-- The host that keeps the text of the function. -/
def Host.text : Host String := fun params body =>
  .ok ("(" ++ ",".intercalate params ++ ")=>" ++ body)

/-- What definitions are compiled with. -/
structure Compiler (τ : Type) where
  registry : Registry
  /-- The name of the operator namespace. -/
  space : String
  host : Host τ

/-- The compiler with the standard registry that gives texts. -/
def Compiler.standard : Compiler String where
  registry := .standard
  space := "op"
  host := .text

/-- Compiled definitions. -/
structure Compiled (τ : Type) where
  /-- The operator calls, in the order of their numbers. -/
  ops : List OperatorCall
  /-- What the host made of each definition, in order. -/
  values : Table τ

namespace Compiler

variable {τ : Type}

/-- The code of a definition, and the operator calls after it. -/
def generate (c : Compiler τ) (d : Definition) (calls : List OperatorCall) :
    Except Cause (String × List OperatorCall) := do
  d.checkFrame.mapError Cause.rejected
  let f ← RowFunction.ofText d.function c.space
  let (result, calls) := (f.canonical c.space).extract c.registry d.window calls
  let g ← result
  return (g.body.code, calls)

/-- The value of a definition, and the operator calls after it. -/
def compileOne (c : Compiler τ) (d : Definition) (calls : List OperatorCall) :
    Except CompileError (τ × List OperatorCall) := do
  let (code, calls) ← (c.generate d calls).mapError fun cause => { cause := cause }
  let value ← c.host Code.params code
  return (value, calls)

/-- Compiles definitions after those that gave `calls`. -/
def compileFrom (c : Compiler τ) (calls : List OperatorCall) :
    Definitions → Except CompileError (Compiled τ)
  | [] => .ok ⟨calls, []⟩
  | (name, d) :: rest => do
    let (value, calls) ← (c.compileOne d calls).mapError (·.inExpression name)
    let compiled ← c.compileFrom calls rest
    return { compiled with values := (name, value) :: compiled.values }

/-- Compiles definitions. -/
def compile (c : Compiler τ) (defs : Definitions) : Except CompileError (Compiled τ) :=
  c.compileFrom [] defs

/-- Accepts one definition without compiling it. -/
def checkOne (c : Compiler τ) (d : Definition) : Except Cause Unit := do
  d.checkFrame.mapError Cause.rejected
  discard (RowFunction.ofText d.function c.space)

/-- Accepts definitions without compiling them. -/
def check (c : Compiler τ) : Definitions → Except CompileError Unit
  | [] => .ok ()
  | (name, d) :: rest => do
    (c.checkOne d).mapError fun cause => ⟨cause, some name⟩
    c.check rest

end Compiler

end RowExpr
