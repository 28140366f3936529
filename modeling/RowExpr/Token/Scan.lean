/-
# From text to tokens

A text is read as a run of tokens, separated by blanks and comments, up to its end or to the first
fault. The end of the text has a fixed position, so every other position follows from the number
of characters that are left there; a text that is part of a larger one differs only in where it
ends.
-/
import RowExpr.Text.Blank
import RowExpr.Token.Scan.Number
import RowExpr.Token.Scan.Template
import RowExpr.Token.Symbol

namespace RowExpr.Token

/-! ## Blanks and comments -/

/-- What a reader that skips blanks is inside of. -/
inductive Gap where
  | blanks
  | lineComment
  | blockComment

/-- Skips blanks and comments: a comment runs from two slashes to the end of the line, or from a
slash and a star to a star and a slash. -/
def skipGap : (gap : Gap) → (cs : List Char) → Except ScanFault { rest : List Char // rest <:+ cs }
  | .blanks, '/' :: '/' :: r => do
    let ⟨rest, h⟩ ← skipGap .lineComment r
    return ⟨rest, (h.trans (List.suffix_cons _ _)).trans (List.suffix_cons _ _)⟩
  | .blanks, '/' :: '*' :: r => do
    let ⟨rest, h⟩ ← skipGap .blockComment r
    return ⟨rest, (h.trans (List.suffix_cons _ _)).trans (List.suffix_cons _ _)⟩
  | .blanks, c :: r =>
    if Text.isBlank c then do
      let ⟨rest, h⟩ ← skipGap .blanks r
      return ⟨rest, h.trans (List.suffix_cons _ _)⟩
    else .ok ⟨c :: r, List.suffix_refl _⟩
  | .lineComment, c :: r => do
    let ⟨rest, h⟩ ← skipGap (if c = '\n' then .blanks else .lineComment) r
    return ⟨rest, h.trans (List.suffix_cons _ _)⟩
  | .blockComment, '*' :: '/' :: r => do
    let ⟨rest, h⟩ ← skipGap .blanks r
    return ⟨rest, (h.trans (List.suffix_cons _ _)).trans (List.suffix_cons _ _)⟩
  | .blockComment, _ :: r => do
    let ⟨rest, h⟩ ← skipGap .blockComment r
    return ⟨rest, h.trans (List.suffix_cons _ _)⟩
  | .blockComment, [] => .error ⟨.unclosedComment, 0⟩
  | .blanks, [] => .ok ⟨[], List.suffix_refl _⟩
  | .lineComment, [] => .ok ⟨[], List.suffix_refl _⟩

/-! ## Single tokens -/

/-- The token that a word is: a literal, a reserved word or a name. -/
def ofWord (word : String) : Token :=
  match word with
  | "true" => .boolean true
  | "false" => .boolean false
  | "null" => .null
  | _ =>
    match Keyword.ofWord? word with
    | some reserved => .keyword reserved
    | none => .identifier word

/-- A hole and the text after it, placed in the text that ends at `stop`. -/
def placeHole (stop : Nat) (part : RawHole × List Char) : Hole × String :=
  (⟨String.ofList part.1.source, stop - part.1.left⟩, String.ofList part.2)

/-- A template with its holes placed in the text that ends at `stop`. -/
def ofTemplate (stop : Nat) (t : RawTemplate) : Token :=
  .template (String.ofList t.head) (t.parts.map (placeHole stop))

/-- Reads the token that starts with `c` and goes on in `r`, in a text that ends at `stop`. -/
def scanToken (stop : Nat) (c : Char) (r : List Char) : Except ScanFault (Scanned r Token) :=
  if c = '\x22' ∨ c = '\x27' then do
    let s ← scanString c r
    return s.map fun value => .string (String.ofList value) (String.ofList (c :: s.lexeme))
  else if c = '\x60' then do
    let s ← scanTemplate r
    return s.map (ofTemplate stop)
  else if isNameStart c then
    .ok ⟨ofWord (String.ofList (c :: r.takeWhile isNamePart)), r.dropWhile isNamePart,
      List.dropWhile_suffix _⟩
  else if Number.isDigit c ∨ c = '.' ∧ r.head?.any Number.isDigit then scanNumber c r
  else
    match symbolAt? (c :: r) with
    | some (spelling, .token token) =>
      .ok ⟨token, r.drop (spelling.length - 1), List.drop_suffix _ _⟩
    | some (_, .refused fault) => .error ⟨fault, r.length + 1⟩
    | none => .error ⟨.unexpectedCharacter c, r.length + 1⟩

end RowExpr.Token

namespace RowExpr

/-- How a run of tokens ends: at the end of the text, or at a fault. -/
inductive Ending where
  | eof (position : Nat)
  | fault (malformed : Malformed)

/-- The tokens of a text, up to its end or its first fault. -/
structure TokenRun where
  tokens : List Lexeme
  ending : Ending

/-- The run with a token in front. -/
def TokenRun.cons (lexeme : Lexeme) (run : TokenRun) : TokenRun :=
  { run with tokens := lexeme :: run.tokens }

/-- The empty run that ends at a fault found in a text that ends at `stop`. -/
def TokenRun.faulty (stop : Nat) (f : ScanFault) : TokenRun :=
  { tokens := [], ending := .fault ⟨f.fault, stop - f.left⟩ }

/-- The tokens of a text that ends at position `stop`. -/
def TokenRun.scan (stop : Nat) (cs : List Char) : TokenRun :=
  match Token.skipGap .blanks cs with
  | .error f => faulty stop f
  | .ok ⟨[], _⟩ => { tokens := [], ending := .eof stop }
  | .ok ⟨c :: r, suffix⟩ =>
    have _ : r.length < cs.length := suffix.length_le
    match Token.scanToken stop c r with
    | .error f => faulty stop f
    | .ok s => (scan stop s.rest).cons ⟨stop - (r.length + 1), s.value⟩
termination_by cs.length
decreasing_by
  have := s.length_le
  omega

/-- The tokens of a text whose first character has position `offset`. -/
def TokenRun.ofText (offset : Nat) (text : String) : TokenRun :=
  scan (offset + text.toList.length) text.toList

end RowExpr
