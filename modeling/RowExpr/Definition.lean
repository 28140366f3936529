/-
# Definitions

A definition is the text of a row function, perhaps with a window for its operators; a set of them
has names and an order.
-/
import RowExpr.Table
import RowExpr.Window

namespace RowExpr

/-- A definition. -/
structure Definition where
  /-- The text of the row function. -/
  function : String
  window : Option Window := none

/-- Accepts the window of a definition, if it has one. -/
def Definition.checkFrame (d : Definition) : Except Rejection Unit :=
  match d.window with
  | some w => w.frame.check
  | none => .ok ()

/-- Definitions by name. -/
abbrev Definitions := Table Definition

end RowExpr
