/-
# Changing the case of a text

Character by character, by the tables of the standard, with its one rule that looks at the
neighbours: a capital sigma becomes the final form when a cased character stands before it and
none after it, characters that are ignored for case apart.
-/
import RowExpr.Text.Case.Context
import RowExpr.Text.Case.Lower
import RowExpr.Text.Case.Upper

namespace RowExpr.Text

/-- The capital sigma, whose lower case depends on its neighbours. -/
def capitalSigma : Char := 'Σ'

/-- Lower case of `cs`, where `before` is the text in front of it, last character first. -/
def lowerAfter (before : List Char) : List Char → List Char
  | [] => []
  | c :: rest =>
    let image :=
      if c = capitalSigma then
        if startsCased before && !startsCased rest then ['ς'] else ['σ']
      else lowerMap.apply c
    image ++ lowerAfter (c :: before) rest

/-- The lower case of a text. -/
def lower (cs : List Char) : List Char := lowerAfter [] cs

/-- The upper case of a text. -/
def upper (cs : List Char) : List Char := cs.flatMap upperMap.apply

end RowExpr.Text
