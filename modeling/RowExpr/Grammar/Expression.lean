/-
# The grammar of expressions

One rule per level of the grammar, from assignment down to names and literals. Each rule returns
what is left of the tokens with the fact that it weighs less than before, and the rules call one
another on fewer tokens, or on the same tokens one level down. The text in the hole of a template
is split into tokens on its own and read as an expression; it weighs less than the template.
-/
import RowExpr.Grammar.Infix
import RowExpr.Grammar.Step

namespace RowExpr.Grammar

/-- The tokens of a hole, which weigh no more than its text. -/
def tokensOfHole (hole : Hole) :
    { run : TokenRun // weight run.tokens ≤ hole.source.toList.length } :=
  ⟨TokenRun.ofText hole.position hole.source, weight_ofText hole.position hole.source⟩

mutual

/-- An assignment, or an expression without one. -/
def assignment (ending : Ending) (ts : List Lexeme) : Except Malformed (Step (weight ts) Expr) := do
  let target ← conditional ending ts
  match target.next? with
  | some (⟨p, .assign op⟩, ⟨target, r, h⟩) =>
    if isTarget target then
      reach ending r
      let value ← assignment ending r
      return .under h (value.map (.assign op target))
    else .error ⟨.assignmentTarget, p⟩
  | _ => return target
termination_by weight ts * 16 + 9

/-- A choice between two expressions, or an expression without one. -/
def conditional (ending : Ending) (ts : List Lexeme) :
    Except Malformed (Step (weight ts) Expr) := do
  let test ← binary ending 0 ts
  match test.next? with
  | some (⟨_, .punct .question⟩, ⟨test, r, h⟩) =>
    reach ending r
    let ⟨yes, r₁, h₁⟩ ← assignment ending r
    let ⟨_, r₂, h₂⟩ ← expect ending .colon r₁
    let no ← assignment ending r₂
    return .under h (.under h₁ (.under h₂ (no.map (.conditional test yes))))
  | _ => return test
termination_by weight ts * 16 + 8

/-- Operands joined by infix operators that bind more tightly than `min`. -/
def binary (ending : Ending) (min : Nat) (ts : List Lexeme) :
    Except Malformed (Step (weight ts) Expr) := do
  let ⟨left, r, h⟩ ← exponent ending ts
  let all ← binaryTail ending min left r
  return .upTo h all
termination_by weight ts * 16 + 7

/-- The operators that bind more tightly than `min`, with their right operands, after `left`. -/
def binaryTail (ending : Ending) (min : Nat) (left : Expr) (ts : List Lexeme) :
    Except Malformed (Step (weight ts + 1) Expr) :=
  match first? ts with
  | none => .ok (.stay left ts)
  | some (l, ⟨_, r, h⟩) =>
    match infixOp? l.token with
    | none => .ok (.stay left ts)
    | some (strength, op) =>
      if strength ≤ min then .ok (.stay left ts)
      else do
        reach ending r
        let ⟨right, r₁, h₁⟩ ← binary ending strength r
        let all ← binaryTail ending min (op.apply left right) r₁
        return (Step.under h (.upTo h₁ all)).loosen
termination_by weight ts * 16 + 7

/-- Operands joined by the exponent operator, which groups from the right. Its left operand must
not begin with a unary operator. -/
def exponent (ending : Ending) (ts : List Lexeme) : Except Malformed (Step (weight ts) Expr) := do
  let base ← unary ending ts
  match base.next? with
  | some (⟨p, .punct .starStar⟩, ⟨base, r, h⟩) =>
    if (unary? (front ts)).isSome then .error ⟨.unaryPower, p⟩
    else
      reach ending r
      let power ← exponent ending r
      return .under h (power.map (.binary .power base))
  | _ => return base
termination_by weight ts * 16 + 6

/-- An operand with the operators before it. -/
def unary (ending : Ending) (ts : List Lexeme) : Except Malformed (Step (weight ts) Expr) :=
  match first? ts with
  | none => suffixed ending ts
  | some (l, ⟨_, r, h⟩) =>
    match unary? l.token, update? l.token with
    | some op, _ => do
      reach ending r
      let argument ← unary ending r
      return .under h (argument.map (.unary op))
    | none, some op => do
      reach ending r
      let argument ← unary ending r
      return .under h (argument.map (.update op true))
    | none, none => suffixed ending ts
termination_by weight ts * 16 + 5

/-- An operand with an update operator after it, if there is one. -/
def suffixed (ending : Ending) (ts : List Lexeme) : Except Malformed (Step (weight ts) Expr) := do
  let operand ← access ending ts
  match operand.next? with
  | some (l, after) =>
    match update? l.token with
    | some op =>
      reach ending after.rest
      return after.map (.update op false)
    | none => return operand
  | none => return operand
termination_by weight ts * 16 + 4

/-- An operand with the member accesses and calls after it. -/
def access (ending : Ending) (ts : List Lexeme) : Except Malformed (Step (weight ts) Expr) := do
  let ⟨head, r, h⟩ ← operand ending ts
  let all ← chain ending true head r
  return .upTo h all
termination_by weight ts * 16 + 3

/-- A construction, or a name, literal or group. -/
def operand (ending : Ending) (ts : List Lexeme) : Except Malformed (Step (weight ts) Expr) :=
  match ts with
  | ⟨_, .keyword .new⟩ :: r => do
    reach ending r
    let ⟨head, r₁, h₁⟩ ← operand ending r
    let callee ← chain ending false head r₁
    match (callee.upTo h₁).next? with
    | some (⟨_, .punct .lparen⟩, ⟨callee, r₂, h₂⟩) =>
      reach ending r₂
      let args ← items ending .rparen r₂
      return (Step.under h₂ (args.map (.new callee))).past
    | _ => return ((callee.upTo h₁).map (.new · [])).past
  | ts => primary ending ts
termination_by weight ts * 16 + 2

/-- The member accesses after `head`, and the calls as well where `calls` allows them. -/
def chain (ending : Ending) (calls : Bool) (head : Expr) (ts : List Lexeme) :
    Except Malformed (Step (weight ts + 1) Expr) :=
  match ts with
  | ⟨_, .punct .dot⟩ :: [] => do
    reach ending []
    unexpected ending [] .propertyName
  | ⟨_, .punct .dot⟩ :: l :: r =>
    match propertyName? l.token with
    | none => unexpected ending (l :: r) .propertyName
    | some name => do
      reach ending r
      let all ← chain ending calls (.member head name) r
      return all.pastMaybe.past.loosen
  | ⟨_, .punct .lbracket⟩ :: r => do
    reach ending r
    let ⟨key, r₁, h₁⟩ ← assignment ending r
    let ⟨_, r₂, h₂⟩ ← expect ending .rbracket r₁
    let all ← chain ending calls (.index head key) r₂
    return (Step.under h₁ (.upTo h₂ all)).past.loosen
  | ⟨p, .punct .lparen⟩ :: r => do
    if calls then
      reach ending r
      let ⟨args, r₁, h₁⟩ ← items ending .rparen r
      let all ← chain ending calls (.call head args) r₁
      return (Step.upTo h₁ all).past.loosen
    else return .stay head (⟨p, .punct .lparen⟩ :: r)
  | ⟨p, .template text parts⟩ :: r =>
    if calls then .error ⟨.taggedTemplate, p⟩
    else .ok (.stay head (⟨p, .template text parts⟩ :: r))
  | ts => .ok (.stay head ts)
termination_by weight ts * 16 + 2

/-- Expressions separated by commas up to the mark that closes them. A comma may follow the last;
in an array, none may stand where an expression is missing. -/
def items (ending : Ending) (close : Punct) (ts : List Lexeme) :
    Except Malformed (Step (weight ts) (List Expr)) := do
  if startsWith close ts then
    let step ← expect ending close ts
    return step.map fun _ => []
  else if close = .rbracket ∧ startsWith .comma ts then failAt ending ts .arrayHole
  else
    let ⟨item, r, h⟩ ← assignment ending ts
    if startsWith close r then
      let others ← items ending close r
      return .under h (others.map (item :: ·))
    else
      let ⟨_, r₁, h₁⟩ ← expect ending .comma r
      let others ← items ending close r₁
      return .under h (.under h₁ (others.map (item :: ·)))
termination_by weight ts * 16 + 10

/-- A name, a literal, a template, or something in brackets. -/
def primary (ending : Ending) (ts : List Lexeme) : Except Malformed (Step (weight ts) Expr) :=
  match ts with
  | ⟨_, .number value raw⟩ :: r => take ending r (.literal (.number value raw))
  | ⟨_, .string value raw⟩ :: r => take ending r (.literal (.string value raw))
  | ⟨_, .boolean value⟩ :: r => take ending r (.literal (.boolean value))
  | ⟨_, .null⟩ :: r => take ending r (.literal .null)
  | ⟨_, .template head parts⟩ :: r => do
    reach ending r
    let exprs ← holes parts
    take ending r (.template head exprs)
  | ⟨_, .identifier name⟩ :: r =>
    if startsWith .arrow r then failAt ending r .nestedFunction
    else take ending r (.identifier name)
  | ⟨_, .keyword .this⟩ :: r => take ending r .this
  | ⟨_, .punct .lparen⟩ :: r => do
    reach ending r
    let ⟨inner, r₁, h₁⟩ ← assignment ending r
    let close ← expect ending .rparen r₁
    if startsWith .arrow close.rest then failAt ending close.rest .nestedFunction
    else return (Step.under h₁ (close.map fun _ => inner)).past
  | ⟨_, .punct .lbracket⟩ :: r => do
    reach ending r
    let step ← items ending .rbracket r
    return (step.map .array).past
  | ⟨_, .punct .lbrace⟩ :: r => do
    reach ending r
    let step ← entries ending r
    return (step.map .object).past
  | ⟨p, .keyword .function⟩ :: _ => .error ⟨.functionExpression, p⟩
  | ts => unexpected ending ts .expression
termination_by weight ts * 16 + 1

/-- The expressions in the holes of a template, each with the text that follows it. -/
def holes (parts : List (Hole × String)) : Except Malformed (List (Expr × String)) :=
  match parts with
  | [] => .ok []
  | (hole, text) :: others => do
    let ⟨run, _⟩ := tokensOfHole hole
    reach run.ending run.tokens
    let inner ← assignment run.ending run.tokens
    expectEnd run.ending inner.rest
    let exprs ← holes others
    return (inner.value, text) :: exprs
termination_by holesWeight parts * 16 + 1

/-- The key of an object entry. -/
def key (ending : Ending) (ts : List Lexeme) :
    Except Malformed (Step (weight ts) (Key Expr)) :=
  match ts with
  | ⟨_, .identifier name⟩ :: r => take ending r (.name name)
  | ⟨_, .keyword word⟩ :: r => take ending r (.name word.spelling)
  | ⟨_, .string value raw⟩ :: r => take ending r (.string value raw)
  | ⟨_, .number value raw⟩ :: r => take ending r (.number value raw)
  | ⟨_, .punct .lbracket⟩ :: r => do
    reach ending r
    let inner ← assignment ending r
    match inner.next? with
    | some (⟨_, .punct .rbracket⟩, after) =>
      reach ending after.rest
      return (after.map .computed).past
    | _ => unexpected ending inner.rest .computedKey
  | ts => unexpected ending ts .objectKey
termination_by weight ts * 16 + 10

/-- The entries of an object up to the brace that closes it. A name alone stands for an entry with
that name and the value of the variable of that name. -/
def entries (ending : Ending) (ts : List Lexeme) :
    Except Malformed (Step (weight ts) (List (Entry Expr))) := do
  if startsWith .rbrace ts then
    let step ← expect ending .rbrace ts
    return step.map fun _ => []
  else
    let ⟨name, r, h⟩ ← key ending ts
    let ⟨entry, r₁, h₁⟩ ← value ending name r
    if startsWith .rbrace r₁ then
      let others ← entries ending r₁
      return .under h (.below h₁ (others.map (entry :: ·)))
    else
      let ⟨_, r₂, h₂⟩ ← expect ending .comma r₁
      let others ← entries ending r₂
      return .under h (.below h₁ (.under h₂ (others.map (entry :: ·))))
termination_by weight ts * 16 + 11

/-- The value of an object entry, after its key. -/
def value (ending : Ending) (key : Key Expr) (ts : List Lexeme) :
    Except Malformed (Step (weight ts + 1) (Entry Expr)) :=
  match key, startsWith .comma ts || startsWith .rbrace ts with
  | .name name, true => .ok (.stay ⟨.name name, .identifier name, true⟩ ts)
  | key, _ => do
    let ⟨_, r, h⟩ ← expect ending .colon ts
    let step ← assignment ending r
    return (Step.under h (step.map fun e => ⟨key, e, false⟩)).loosen
termination_by weight ts * 16 + 10

end

end RowExpr.Grammar
