/-
# The grammar of statements

Statements end at a semicolon or without one; a line break never ends them. A semicolon that
follows a block, a choice, a switch or a loop is a statement of its own.
-/
import RowExpr.Grammar.Expression
import RowExpr.Stmt

namespace RowExpr.Grammar

/-! ## Parts of statements -/

/-- Takes a semicolon, if there is one. -/
def skipSemicolon (ending : Ending) (ts : List Lexeme) :
    Except Malformed (Step (weight ts + 1) Unit) := do
  if startsWith .semicolon ts then
    let step ← expect ending .semicolon ts
    return step.loosen
  else return .stay () ts

/-- Takes a name. -/
def identifier (ending : Ending) (place : Place) (ts : List Lexeme) :
    Except Malformed (Step (weight ts) String) :=
  match ts with
  | ⟨_, .identifier name⟩ :: r => take ending r name
  | ts => unexpected ending ts place

/-- Takes an expression in parentheses. -/
def parenthesized (ending : Ending) (ts : List Lexeme) :
    Except Malformed (Step (weight ts) Expr) := do
  let ⟨_, r, h⟩ ← expect ending .lparen ts
  let ⟨inner, r₁, h₁⟩ ← assignment ending r
  let close ← expect ending .rparen r₁
  return .under h (.under h₁ (close.map fun _ => inner))

/-- The kind of declaration that a token begins. -/
def declKind? : Token → Option DeclKind
  | .keyword .const => some .const
  | .keyword .let_ => some .let_
  | .keyword .var => some .var
  | _ => none

/-- The value that a declaration gives its name, if it does. -/
def initialValue (ending : Ending) (ts : List Lexeme) :
    Except Malformed (Step (weight ts + 1) (Option Expr)) :=
  match ts with
  | ⟨_, .assign .plain⟩ :: r => do
    reach ending r
    let value ← assignment ending r
    return (value.map some).past.loosen
  | ts => .ok (.stay none ts)

/-- The rest of a declaration after the name. Only a constant must have a value. -/
def initializer (ending : Ending) (kind : DeclKind) (name : String) (ts : List Lexeme) :
    Except Malformed (Step (weight ts + 1) Stmt) := do
  let init ← initialValue ending ts
  if init.value.isNone ∧ kind = .const then
    failAt ending init.rest (.constWithoutValue name)
  else if startsWith .comma init.rest then failAt ending init.rest .severalNames
  else return init.map (.declare kind name)

/-- A declaration that starts with its kind, which is the first token. -/
def declaration (ending : Ending) (kind : DeclKind) (ts : List Lexeme) :
    Except Malformed (Step (weight ts) Stmt) :=
  match ts with
  | [] => unexpected ending [] .declarationKind
  | _ :: r => do
    reach ending r
    let ⟨name, r₁, h₁⟩ ← identifier ending .declaration r
    let step ← initializer ending kind name r₁
    return (Step.upTo h₁ step).past

/-! ## Loop heads -/

/-- What stands between the parentheses of a `for` loop. -/
inductive LoopHead where
  | members (kind : Option DeclKind) (name : String) (of : Bool) (iterable : Expr)
  | steps (init : Option Stmt) (test update : Option Expr)

/-- The loop with a given head. -/
def LoopHead.loop (body : Stmt) : LoopHead → Stmt
  | members kind name of iterable => .forEach kind name of iterable body
  | steps init test update => .for_ init test update body

/-- The word between a loop's variable and what it runs over; `true` for `of`. -/
def memberWord? : Token → Option Bool
  | .keyword .in_ => some false
  | .identifier "of" => some true
  | _ => none

/-- An expression, unless the row starts with the mark that would follow it. -/
def optional (ending : Ending) (mark : Punct) (ts : List Lexeme) :
    Except Malformed (Step (weight ts + 1) (Option Expr)) := do
  if startsWith mark ts then return .stay none ts
  else
    let step ← assignment ending ts
    return (step.map some).loosen

/-- The test and the update of a loop head, up to the closing parenthesis. -/
def loopSteps (ending : Ending) (init : Option Stmt) (ts : List Lexeme) :
    Except Malformed (Step (weight ts) LoopHead) := do
  let ⟨_, r₁, h₁⟩ ← expect ending .semicolon ts
  let ⟨test, r₂, h₂⟩ ← optional ending .semicolon r₁
  let ⟨_, r₃, h₃⟩ ← expect ending .semicolon r₂
  let ⟨update, r₄, h₄⟩ ← optional ending .rparen r₃
  let close ← expect ending .rparen r₄
  return .under h₁ (.below h₂ (.under h₃ (.below h₄ (close.map fun _ => .steps init test update))))

/-- The rest of a loop head after `in` or `of`, up to the closing parenthesis. -/
def loopMembers (ending : Ending) (kind : Option DeclKind) (name : String) (of : Bool)
    (ts : List Lexeme) : Except Malformed (Step (weight ts) LoopHead) := do
  let ⟨iterable, r, h⟩ ← assignment ending ts
  let close ← expect ending .rparen r
  return .under h (close.map fun _ => .members kind name of iterable)

/-- The rest of a loop head that declares its variable, after the name. -/
def declaredLoop (ending : Ending) (kind : DeclKind) (name : String) (ts : List Lexeme) :
    Except Malformed (Step (weight ts) LoopHead) :=
  match memberWord? (front ts), ts with
  | some of, _ :: r => do
    reach ending r
    let step ← loopMembers ending (some kind) name of r
    return step.past
  | _, ts => do
    let ⟨init, r, h⟩ ← initializer ending kind name ts
    let step ← loopSteps ending (some init) r
    return .below h step

/-- The rest of a loop head that starts with an expression, after it. A loop over keys reads as a
single expression, since `in` is an operator. -/
def plainLoop (ending : Ending) (start : Expr) (ts : List Lexeme) :
    Except Malformed (Step (weight ts) LoopHead) :=
  match start, memberWord? (front ts), ts with
  | .binary .memberOf (.identifier name) iterable, _, ⟨_, .punct .rparen⟩ :: r =>
    take ending r (.members none name false iterable)
  | .identifier name, some of, _ :: r => do
    reach ending r
    let step ← loopMembers ending none name of r
    return step.past
  | start, _, ts => loopSteps ending (some (.expr start)) ts

/-- The head of a `for` loop after its opening parenthesis, up to the closing one. -/
def loopHead (ending : Ending) (ts : List Lexeme) :
    Except Malformed (Step (weight ts) LoopHead) :=
  if startsWith .semicolon ts then loopSteps ending none ts
  else
    match declKind? (front ts), ts with
    | some kind, _ :: r => do
      reach ending r
      let ⟨name, r₁, h₁⟩ ← identifier ending .loopHead r
      let step ← declaredLoop ending kind name r₁
      return (Step.under h₁ step).past
    | _, ts => do
      let ⟨start, r, h⟩ ← assignment ending ts
      let step ← plainLoop ending start r
      return .under h step

/-! ## Statements -/

/-- Whether a `return` without a value ends before this token. -/
def endsReturn : Token → Bool
  | .punct .semicolon | .punct .rbrace | .eof => true
  | _ => false

/-- Whether the statements of an arm end before this token. -/
def endsArm : Token → Bool
  | .keyword .case | .keyword .default | .punct .rbrace | .eof => true
  | _ => false

/-- A statement that a semicolon may end. -/
def simpleStatement (ending : Ending) (ts : List Lexeme) :
    Except Malformed (Step (weight ts) Stmt) :=
  match declKind? (front ts), ts with
  | some kind, ts => declaration ending kind ts
  | none, ⟨_, .keyword .return_⟩ :: r => do
    reach ending r
    if endsReturn (front r) then take ending r (.return_ none)
    else
      let value ← assignment ending r
      return (value.map fun e => .return_ (some e)).past
  | none, ⟨_, .keyword .break_⟩ :: r => take ending r .break_
  | none, ⟨_, .keyword .continue_⟩ :: r => take ending r .continue_
  | none, ts => do
    let value ← assignment ending ts
    return value.map .expr

/-- The test of an arm of a switch, up to its colon: none for the default arm. -/
def armTest (ending : Ending) (ts : List Lexeme) :
    Except Malformed (Step (weight ts) (Option Expr)) :=
  match ts with
  | ⟨_, .keyword .case⟩ :: r => do
    reach ending r
    let ⟨test, r₁, h₁⟩ ← assignment ending r
    let colon ← expect ending .colon r₁
    return (Step.under h₁ (colon.map fun _ => some test)).past
  | ⟨_, .keyword .default⟩ :: r => do
    reach ending r
    let colon ← expect ending .colon r
    return (colon.map fun _ => none).past
  | ts => unexpected ending ts .switchBody

mutual

/-- A statement. -/
def statement (ending : Ending) (ts : List Lexeme) : Except Malformed (Step (weight ts) Stmt) :=
  match ts with
  | ⟨_, .punct .lbrace⟩ :: r => do
    reach ending r
    let body ← block ending r
    return (body.map .block).past
  | ⟨_, .punct .semicolon⟩ :: r => take ending r .empty
  | ⟨_, .keyword .if_⟩ :: r => do
    reach ending r
    let ⟨test, r₁, h₁⟩ ← parenthesized ending r
    let yes ← statement ending r₁
    match yes.next? with
    | some (⟨_, .keyword .else_⟩, ⟨yes, r₂, h₂⟩) =>
      reach ending r₂
      let no ← statement ending r₂
      return (Step.under h₁ (.under h₂ (no.map fun no => .if_ test yes (some no)))).past
    | _ => return (Step.under h₁ (yes.map (.if_ test · none))).past
  | ⟨_, .keyword .switch⟩ :: r => do
    reach ending r
    let ⟨subject, r₁, h₁⟩ ← parenthesized ending r
    let ⟨_, r₂, h₂⟩ ← expect ending .lbrace r₁
    let arms ← arms ending r₂
    return (Step.under h₁ (.under h₂ (arms.map (.switch subject)))).past
  | ⟨_, .keyword .for_⟩ :: r => do
    reach ending r
    let ⟨_, r₁, h₁⟩ ← expect ending .lparen r
    let ⟨head, r₂, h₂⟩ ← loopHead ending r₁
    let body ← statement ending r₂
    return (Step.under h₁ (.under h₂ (body.map (head.loop ·)))).past
  | ⟨_, .keyword .while_⟩ :: r => do
    reach ending r
    let ⟨test, r₁, h₁⟩ ← parenthesized ending r
    let body ← statement ending r₁
    return (Step.under h₁ (body.map (.while_ test))).past
  | ⟨_, .keyword .do_⟩ :: r => do
    reach ending r
    let body ← statement ending r
    match body.next? with
    | some (⟨_, .keyword .while_⟩, ⟨body, r₁, h₁⟩) =>
      reach ending r₁
      let ⟨test, r₂, h₂⟩ ← parenthesized ending r₁
      let semicolon ← skipSemicolon ending r₂
      return (Step.under h₁ (.upTo h₂ (semicolon.map fun _ => .doWhile body test))).past
    | _ => unexpected ending body.rest .whileKeyword
  | ⟨p, .keyword .function⟩ :: _ => .error ⟨.functionDeclaration, p⟩
  | ts => do
    let ⟨simple, r, h⟩ ← simpleStatement ending ts
    let semicolon ← skipSemicolon ending r
    return .upTo h (semicolon.map fun _ => simple)
termination_by weight ts * 4 + 1

/-- The statements of a block, up to and with the brace that closes it. -/
def block (ending : Ending) (ts : List Lexeme) :
    Except Malformed (Step (weight ts) (List Stmt)) := do
  if startsWith .rbrace ts then
    let step ← expect ending .rbrace ts
    return step.map fun _ => []
  else if ts.isEmpty then failAt ending ts .unclosedBlock
  else
    let ⟨first, r, h⟩ ← statement ending ts
    let others ← block ending r
    return .under h (others.map (first :: ·))
termination_by weight ts * 4 + 2

/-- The arms of a switch, up to and with the brace that closes it. -/
def arms (ending : Ending) (ts : List Lexeme) :
    Except Malformed (Step (weight ts) (List (Arm Stmt))) := do
  if startsWith .rbrace ts then
    let step ← expect ending .rbrace ts
    return step.map fun _ => []
  else
    let ⟨test, r, h⟩ ← armTest ending ts
    let ⟨body, r₁, h₁⟩ ← armBody ending r
    let others ← arms ending r₁
    return .under h (.below h₁ (others.map (⟨test, body⟩ :: ·)))
termination_by weight ts * 4 + 3

/-- The statements of an arm, up to the next arm or the end of the switch. -/
def armBody (ending : Ending) (ts : List Lexeme) :
    Except Malformed (Step (weight ts + 1) (List Stmt)) := do
  if endsArm (front ts) then return .stay [] ts
  else
    let ⟨first, r, h⟩ ← statement ending ts
    let others ← armBody ending r
    return (Step.upTo h (others.map (first :: ·))).loosen
termination_by weight ts * 4 + 2

end

end RowExpr.Grammar
