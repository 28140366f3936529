/-
# Reading from a row of tokens

The grammar reads tokens from the front of a row and returns what is left, which weighs less than
a bound: so each rule knows that it makes progress. A row of tokens ends at the end of the text or
at a fault; a rule that takes the last token of a row meets that fault at once.
-/
import RowExpr.Token.Weight

namespace RowExpr.Grammar

/-- Something read from a row of tokens, and what is left of it: less than `bound` in weight. -/
structure Step (bound : Nat) (α : Type) where
  value : α
  rest : List Lexeme
  fits : weight rest < bound

namespace Step

variable {m n : Nat} {α β : Type} {l : Lexeme} {r ts : List Lexeme}

/-- The same step with another value. -/
def map (f : α → β) (s : Step n α) : Step n β := ⟨f s.value, s.rest, s.fits⟩

/-- A step in what a step with the bound `n` left. -/
def under (h : m < n) (s : Step m α) : Step n α := ⟨s.value, s.rest, Nat.lt_trans s.fits h⟩

/-- A step in what a step with the bound `n` left, where it may have taken nothing. -/
def upTo (h : m < n) (s : Step (m + 1) α) : Step n α :=
  ⟨s.value, s.rest, Nat.lt_of_le_of_lt (Nat.le_of_lt_succ s.fits) h⟩

/-- A step in what was left by one that may have taken nothing. -/
def below (h : m < n + 1) (s : Step m α) : Step n α :=
  ⟨s.value, s.rest, Nat.lt_of_lt_of_le s.fits (Nat.le_of_lt_succ h)⟩

/-- A step that counts as one that may have taken nothing. -/
def loosen (s : Step n α) : Step (n + 1) α := ⟨s.value, s.rest, Nat.lt_succ_of_lt s.fits⟩

/-- A step behind the first token. -/
def past (s : Step (weight r) α) : Step (weight (l :: r)) α := s.under (weight_lt_cons l r)

/-- A step behind the first token that may have taken nothing more. -/
def pastMaybe (s : Step (weight r + 1) α) : Step (weight (l :: r)) α := s.upTo (weight_lt_cons l r)

/-- The step that takes nothing. -/
def stay (value : α) (ts : List Lexeme) : Step (weight ts + 1) α :=
  ⟨value, ts, Nat.lt_succ_self _⟩

/-- The token after a step, and the step that takes it as well. -/
def next? (s : Step n α) : Option (Lexeme × Step n α) :=
  match s with
  | ⟨_, [], _⟩ => none
  | ⟨value, l :: r, fits⟩ => some (l, ⟨value, r, Nat.lt_trans (weight_lt_cons l r) fits⟩)

end Step

/-- The first token, and the step that takes it. -/
def first? (ts : List Lexeme) : Option (Lexeme × Step (weight ts) Unit) :=
  match ts with
  | [] => none
  | l :: r => some (l, ⟨(), r, weight_lt_cons l r⟩)

/-- The position where a row of tokens ends. -/
def endPosition : Ending → Nat
  | .eof position => position
  | .fault malformed => malformed.position

/-- The position of the first token, or of the end. -/
def position (ending : Ending) : List Lexeme → Nat
  | [] => endPosition ending
  | l :: _ => l.position

/-- The first token. -/
def front : List Lexeme → Token
  | [] => .eof
  | l :: _ => l.token

/-- Whether the first token is the given mark. -/
def startsWith (mark : Punct) : List Lexeme → Bool
  | ⟨_, .punct m⟩ :: _ => m == mark
  | _ => false

/-- Fails with the fault that a row without tokens ends at, if it does. -/
def reach (ending : Ending) : List Lexeme → Except Malformed Unit
  | [] =>
    match ending with
    | .eof _ => .ok ()
    | .fault malformed => .error malformed
  | _ :: _ => .ok ()

/-- Fails at the first token. -/
def failAt {α : Type} (ending : Ending) (ts : List Lexeme) (fault : TextFault) :
    Except Malformed α :=
  .error ⟨fault, position ending ts⟩

/-- Fails because the first token is not allowed where it stands. -/
def unexpected {α : Type} (ending : Ending) (ts : List Lexeme) (place : Place) :
    Except Malformed α :=
  failAt ending ts (.unexpectedToken (front ts) place)

/-- Takes the first token, which stands for `value`. -/
def take {α : Type} {l : Lexeme} (ending : Ending) (r : List Lexeme) (value : α) :
    Except Malformed (Step (weight (l :: r)) α) := do
  reach ending r
  return ⟨value, r, weight_lt_cons l r⟩

/-- Takes the given mark. -/
def expect (ending : Ending) (mark : Punct) (ts : List Lexeme) :
    Except Malformed (Step (weight ts) Unit) :=
  match ts with
  | ⟨p, .punct m⟩ :: rest =>
    if m = mark then take ending rest ()
    else failAt ending (⟨p, .punct m⟩ :: rest) (.expectedToken (.punct mark) (.punct m))
  | ts => failAt ending ts (.expectedToken (.punct mark) (front ts))

/-- Succeeds at the end of the row. -/
def expectEnd (ending : Ending) (ts : List Lexeme) : Except Malformed Unit :=
  match ts with
  | [] => .ok ()
  | l :: _ => failAt ending ts (.expectedToken .eof l.token)

end RowExpr.Grammar
