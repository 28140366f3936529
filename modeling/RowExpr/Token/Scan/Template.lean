/-
# Template literals

A template is text with holes for expressions. Its text is kept as written. The end of a hole is
found by its braces, stepping over the strings and templates inside it, whose own braces do not
count; what stands in the hole is read later.
-/
import RowExpr.Token.Scan.String

namespace RowExpr.Token

/-- The text between the braces of a hole, and the number of characters of the whole text from its
first one on. -/
structure RawHole where
  source : List Char
  left : Nat

/-- A template between its backquotes: the text up to the first hole, then each hole with the text
up to the next one. -/
structure RawTemplate where
  head : List Char := []
  parts : List (RawHole × List Char) := []

/-- The template with more text in front. -/
def RawTemplate.prepend (text : List Char) (t : RawTemplate) : RawTemplate :=
  { t with head := text ++ t.head }

/-- The template with an empty text and a hole in front. -/
def RawTemplate.open (hole : RawHole) (t : RawTemplate) : RawTemplate :=
  { head := [], parts := (hole, t.head) :: t.parts }

mutual

/-- Reads the rest of a hole, `depth` braces deep, up to the brace that closes it: its text. -/
def scanHole (depth : Nat) (cs : List Char) : Except ScanFault (Scanned cs (List Char)) :=
  match cs with
  | [] => .error ⟨.unclosedHole, 0⟩
  | c :: r =>
    if c = '\x7b' then do
      let s ← scanHole (depth + 1) r
      return (s.map (c :: ·)).after c
    else if c = '\x7d' then
      match depth with
      | 0 => .ok ⟨[], r, List.suffix_cons c r⟩
      | depth + 1 => do
        let s ← scanHole depth r
        return (s.map (c :: ·)).after c
    else if c = '"' ∨ c = '\'' then do
      let inner ← scanString c r
      let s ← scanHole depth inner.rest
      return ((s.map (c :: inner.lexeme ++ ·)).within inner.suffix).after c
    else if c = '\x60' then do
      let inner ← scanTemplate r
      let s ← scanHole depth inner.rest
      return ((s.map (c :: inner.lexeme ++ ·)).within inner.suffix).after c
    else do
      let s ← scanHole depth r
      return (s.map (c :: ·)).after c
termination_by cs.length
decreasing_by
  all_goals simp
  all_goals have := inner.length_le
  all_goals omega

/-- Reads the rest of a template after its opening backquote. -/
def scanTemplate (cs : List Char) : Except ScanFault (Scanned cs RawTemplate) :=
  match cs with
  | [] => .error ⟨.unclosedTemplate, 0⟩
  | c :: r =>
    if c = '\x60' then .ok ⟨{}, r, List.suffix_cons c r⟩
    else if c = '\\' then
      match r with
      | [] => .error ⟨.unclosedTemplate, 0⟩
      | d :: r' => do
        let s ← scanTemplate r'
        return ((s.map (·.prepend [c, d])).after d).after c
    else if c = '$' ∧ r.head? = some '\x7b' then do
      let hole ← scanHole 0 r.tail
      let s ← scanTemplate hole.rest
      return ((s.map (·.open ⟨hole.value, r.tail.length⟩)).within
        (hole.suffix.trans (List.tail_suffix r))).after c
    else do
      let s ← scanTemplate r
      return (s.map (·.prepend [c])).after c
termination_by cs.length
decreasing_by
  · simp only [List.length_cons]; omega
  · simp only [List.length_cons, List.length_tail]; omega
  · have := hole.length_le
    simp at this
    simp only [List.length_cons]; omega
  · simp

end

end RowExpr.Token
