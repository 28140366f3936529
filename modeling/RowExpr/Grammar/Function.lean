/-
# The grammar of row functions

A row function is written with an arrow, `d => ...`, `(d) => ...` or `() => ...`, or with the word
`function`, whose name, if it has one, does not matter. Its text must hold nothing else.
-/
import RowExpr.Grammar.Statement

namespace RowExpr.Grammar

/-- The parameter list of a function: at most one name in parentheses. -/
def parameters (ending : Ending) (ts : List Lexeme) :
    Except Malformed (Step (weight ts) (Option String)) := do
  let ⟨_, r, h⟩ ← expect ending .lparen ts
  if startsWith .rparen r then
    let close ← expect ending .rparen r
    return .under h (close.map fun _ => none)
  else
    let ⟨name, r₁, h₁⟩ ← identifier ending .parameterList r
    if startsWith .comma r₁ then failAt ending r₁ .severalParameters
    else
      let close ← expect ending .rparen r₁
      return .under h (.under h₁ (close.map fun _ => some name))

/-- The parameter of a function with an arrow: a list, or a bare name. -/
def arrowParameter (ending : Ending) (ts : List Lexeme) :
    Except Malformed (Step (weight ts) (Option String)) := do
  if startsWith .lparen ts then parameters ending ts
  else
    let name ← identifier ending .parameter ts
    return name.map some

/-- The body of a function with an arrow: a block, or an expression. -/
def arrowBody (ending : Ending) (ts : List Lexeme) :
    Except Malformed (Step (weight ts) Body) := do
  if startsWith .lbrace ts then
    let ⟨_, r, h⟩ ← expect ending .lbrace ts
    let body ← block ending r
    return .under h (body.map .block)
  else
    let value ← assignment ending ts
    return value.map .expr

/-- A function written with an arrow. -/
def arrowFunction (ending : Ending) (ts : List Lexeme) :
    Except Malformed (Step (weight ts) RowFunction) := do
  let ⟨param, r, h⟩ ← arrowParameter ending ts
  let ⟨_, r₁, h₁⟩ ← expect ending .arrow r
  let body ← arrowBody ending r₁
  return .under h (.under h₁ (body.map (⟨param, ·⟩)))

/-- Takes the name of a function, if it has one. -/
def skipName (ending : Ending) (ts : List Lexeme) :
    Except Malformed (Step (weight ts + 1) Unit) :=
  match ts with
  | ⟨_, .identifier _⟩ :: r => do
    let step ← take ending r ()
    return step.loosen
  | ts => .ok (.stay () ts)

/-- A function written with the word `function`, after that word. -/
def wordFunction (ending : Ending) (ts : List Lexeme) :
    Except Malformed (Step (weight ts) RowFunction) := do
  let ⟨_, r, h⟩ ← skipName ending ts
  let ⟨param, r₁, h₁⟩ ← parameters ending r
  if startsWith .lbrace r₁ then
    let ⟨_, r₂, h₂⟩ ← expect ending .lbrace r₁
    let body ← block ending r₂
    return .below h (.under h₁ (.under h₂ (body.map fun b => ⟨param, .block b⟩)))
  else unexpected ending r₁ .functionBody

/-- A row function. -/
def function (ending : Ending) (ts : List Lexeme) :
    Except Malformed (Step (weight ts) RowFunction) :=
  match ts with
  | ⟨_, .keyword .function⟩ :: r => do
    reach ending r
    let step ← wordFunction ending r
    return step.past
  | ts => arrowFunction ending ts

end RowExpr.Grammar

namespace RowExpr

/-- The row function that a text writes. -/
def RowFunction.parse (text : String) : Except Malformed RowFunction := do
  let run := TokenRun.ofText 0 text
  Grammar.reach run.ending run.tokens
  let step ← Grammar.function run.ending run.tokens
  Grammar.expectEnd run.ending step.rest
  return step.value

/-- The expression at the front of a text. -/
def Expr.parseFront (text : String) : Except Malformed Expr := do
  let run := TokenRun.ofText 0 text
  Grammar.reach run.ending run.tokens
  let step ← Grammar.assignment run.ending run.tokens
  return step.value

/-- The statement at the front of a text. -/
def Stmt.parseFront (text : String) : Except Malformed Stmt := do
  let run := TokenRun.ofText 0 text
  Grammar.reach run.ending run.tokens
  let step ← Grammar.statement run.ending run.tokens
  return step.value

end RowExpr
