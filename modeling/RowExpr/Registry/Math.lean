/-
# Functions of numbers

The scalar functions that take their arguments as numbers.
-/
import RowExpr.Number.Arithmetic
import RowExpr.Number.Elementary
import RowExpr.Registry.Basic

namespace RowExpr

namespace ScalarFunction

/-- The argument at a place, undefined if there is none. -/
def argument (args : List Value) (i : Nat) : Value := args[i]?.getD .undefined

/-- A function of one number. -/
def ofNumber (f : Float → Float) : ScalarFunction where
  least := 1
  most := some 1
  apply args := .number (f (argument args 0).toNumber)

/-- A function of two numbers. -/
def ofNumbers (f : Float → Float → Float) : ScalarFunction where
  least := 2
  most := some 2
  apply args := .number (f (argument args 0).toNumber (argument args 1).toNumber)

/-- A test of one number. -/
def ofTest (f : Float → Bool) : ScalarFunction where
  least := 1
  most := some 1
  apply args := .boolean (f (argument args 0).toNumber)

/-- The number that `better` prefers among any number of them, and `start` if there are none. No
number results if one of the arguments is none. Of two that are equal, such as the two zeros, the
later one is taken. -/
def ofChoice (start : Float) (better : Float → Float → Bool) : ScalarFunction where
  least := 0
  most := none
  apply args :=
    let numbers := args.map Value.toNumber
    if numbers.any Float.isNaN then .number Number.nan
    else .number (numbers.foldl (fun best x => if better best x then best else x) start)

/-- The length of a vector. -/
def hypot : ScalarFunction where
  least := 0
  most := none
  apply args :=
    let squares := args.map fun v => v.toNumber * v.toNumber
    .number (squares.foldl (· + ·) (-0.0)).sqrt

end ScalarFunction

open ScalarFunction

/-- The functions of numbers by name. -/
def Registry.mathFunctions : List (String × ScalarFunction) := [
  ("abs", ofNumber Float.abs),
  ("sqrt", ofNumber Float.sqrt),
  ("cbrt", ofNumber Float.cbrt),
  ("ceil", ofNumber Number.ceil),
  ("floor", ofNumber Number.floor),
  ("round", ofNumber Number.round),
  ("trunc", ofNumber Number.truncate),
  ("sign", ofNumber Number.sign),
  ("exp", ofNumber Float.exp),
  ("expm1", ofNumber Number.expMinusOne),
  ("log", ofNumber Float.log),
  ("log10", ofNumber Float.log10),
  ("log1p", ofNumber Number.logOnePlus),
  ("log2", ofNumber Float.log2),
  ("sin", ofNumber Float.sin),
  ("cos", ofNumber Float.cos),
  ("tan", ofNumber Float.tan),
  ("asin", ofNumber Float.asin),
  ("acos", ofNumber Float.acos),
  ("atan", ofNumber Float.atan),
  ("pow", ofNumbers Float.pow),
  ("atan2", ofNumbers Float.atan2),
  ("hypot", hypot),
  ("greatest", ofChoice (-Number.infinity) (fun x y => decide (y < x))),
  ("least", ofChoice Number.infinity (fun x y => decide (x < y))),
  ("is_nan", ofTest Float.isNaN),
  ("is_finite", ofTest Float.isFinite)]

end RowExpr
