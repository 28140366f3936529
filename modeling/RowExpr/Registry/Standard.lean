/-
# The standard registry

The operators and functions that are there without being registered.
-/
import RowExpr.Registry.Text

namespace RowExpr.Registry

/-- The standard aggregate operators: name, fields and parameters. -/
def aggregates : List (String × Nat × Nat) := [
  ("count", 0, 0),
  ("any", 1, 0),
  ("distinct", 1, 0),
  ("valid", 1, 0),
  ("invalid", 1, 0),
  ("sum", 1, 0),
  ("product", 1, 0),
  ("mean", 1, 0),
  ("average", 1, 0),
  ("mode", 1, 0),
  ("median", 1, 0),
  ("min", 1, 0),
  ("max", 1, 0),
  ("quantile", 1, 1),
  ("variance", 1, 0),
  ("variancep", 1, 0),
  ("stdev", 1, 0),
  ("stdevp", 1, 0),
  ("covariance", 2, 0),
  ("covariancep", 2, 0),
  ("corr", 2, 0),
  ("bins", 1, 3),
  ("array_agg", 1, 0),
  ("array_agg_distinct", 1, 0),
  ("object_agg", 2, 0),
  ("map_agg", 2, 0),
  ("entries_agg", 2, 0)]

/-- The standard window operators: name, fields and parameters. -/
def windows : List (String × Nat × Nat) := [
  ("row_number", 0, 0),
  ("rank", 0, 0),
  ("avg_rank", 0, 0),
  ("dense_rank", 0, 0),
  ("percent_rank", 0, 0),
  ("cume_dist", 0, 0),
  ("ntile", 0, 1),
  ("lag", 1, 2),
  ("lead", 1, 2),
  ("first_value", 1, 0),
  ("last_value", 1, 0),
  ("nth_value", 1, 1),
  ("fill_down", 1, 1),
  ("fill_up", 1, 1)]

/-- Named operators of one kind. -/
def shaped (kind : OperatorKind) (shapes : List (String × Nat × Nat)) :
    List (String × Operator) :=
  shapes.map fun (name, fields, params) => (name, ⟨kind, fields, params⟩)

/-- The standard registry. -/
def standard : Registry where
  operators := shaped .aggregate aggregates ++ shaped .window windows
  functions := mathFunctions ++ textFunctions

end RowExpr.Registry
