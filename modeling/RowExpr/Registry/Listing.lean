/-
# The listing of a registry

A text with every operator and function and the number of arguments that it takes.
-/
import RowExpr.Registry.Basic

namespace RowExpr.Registry

/-- A number of things. -/
def plural (count : Nat) (word : String) : String :=
  toString count ++ " " ++ word ++ (if count = 1 then "" else "s")

/-- The number of arguments of a function. -/
def arity (f : ScalarFunction) : String :=
  match f.most with
  | none => toString f.least ++ "+ args"
  | some most =>
    if f.least = most then plural most "arg"
    else toString f.least ++ "-" ++ toString most ++ " args"

/-- A line about `name`, whose column is twenty characters wide. -/
def line (name text : String) : String :=
  "  " ++ name ++ String.ofList (List.replicate (20 - name.length) ' ') ++ " " ++ text ++ "\n"

/-- The lines about the operators of one kind. -/
def operatorLines (r : Registry) (kind : OperatorKind) : String :=
  String.join <| (r.operators.filter (·.2.kind = kind)).map fun (name, o) =>
    line name (plural o.fields "field" ++ ", up to " ++ plural o.params "param")

/-- The lines about the functions. -/
def functionLines (r : Registry) : String :=
  String.join <| r.functions.map fun (name, f) => line name (arity f)

/-- The listing of a registry. -/
def listing (r : Registry) : String :=
  "AGGREGATE OPERATORS\n" ++ r.operatorLines .aggregate ++ "\n"
    ++ "WINDOW OPERATORS\n" ++ r.operatorLines .window ++ "\n"
    ++ "SCALAR FUNCTIONS\n" ++ r.functionLines

end RowExpr.Registry
