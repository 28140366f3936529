/-
# Windows

The rows that a window operator sees around the current row. A frame gives the first and the last
of them relative to it; an infinite bound leaves that side open.
-/
import RowExpr.Error.Rejection

namespace RowExpr

/-- The bounds of a window, relative to the current row. -/
structure Frame where
  preceding : Float
  following : Float

/-- The frame of every row up to the current one. -/
def Frame.upToCurrent : Frame where
  preceding := -Number.infinity
  following := 0

/-- Accepts a frame whose bounds are numbers around the current row. -/
def Frame.check (f : Frame) : Except Rejection Unit :=
  if f.preceding.isNaN || f.following.isNaN then .error .frameNotANumber
  else if f.preceding > 0 || f.following < 0 then
    .error (.frameWithoutRow f.preceding f.following)
  else .ok ()

/-- A window. -/
structure Window where
  frame : Frame := .upToCurrent
  /-- Whether rows that rank equal to a bound belong to the window. -/
  peers : Bool := true

end RowExpr
