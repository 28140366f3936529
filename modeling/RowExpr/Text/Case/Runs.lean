/-
# Runs of case mappings

Most characters change case by a fixed distance that a whole run of neighbours shares, either all
of them or every second one. A few map to several characters and are listed one by one.
-/
namespace RowExpr.Text

/-- Characters from `first` to `last`, `step` apart, that map to the character `shift` away. -/
structure CaseRun where
  first : Nat
  last : Nat
  step : Nat
  shift : Int

/-- Whether the run maps the code point `n`. -/
def CaseRun.covers (run : CaseRun) (n : Nat) : Bool :=
  run.first ≤ n && n ≤ run.last && (n - run.first) % run.step == 0

/-- A case mapping: the runs, and the characters that map to several. -/
structure CaseMap where
  runs : List CaseRun
  expansions : List (Nat × List Nat)

/-- The image of a character; one that the table does not mention maps to itself. -/
def CaseMap.apply (map : CaseMap) (c : Char) : List Char :=
  match map.expansions.lookup c.toNat with
  | some image => image.map Char.ofNat
  | none =>
    match map.runs.find? (·.covers c.toNat) with
    | some run => [Char.ofNat ((c.toNat : Int) + run.shift).toNat]
    | none => [c]

end RowExpr.Text
