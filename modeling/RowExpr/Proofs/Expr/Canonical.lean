/-
# Canonical forms, node by node

The canonical form replaces names, member accesses and calls where they stand for a constant, a
column or an operator.  All other nodes are rebuilt from the canonical forms of their parts.
-/
import RowExpr.Expr.Canonical
import RowExpr.Expr.Check
import RowExpr.Proofs.Expr.Parts

namespace RowExpr.Expr

variable {names : Names}

lemma canonicalList_eq (es : List Expr) : canonicalList names es = es.map (canonical names) := by
  induction es with
  | nil => rfl
  | cons e rest ih => simp only [canonicalList, List.map_cons, ih]

lemma canonicalEntries_eq (entries : List (Entry Expr)) :
    canonicalEntries names entries =
      rebuildEntries entries ((entries.flatMap Entry.children).map (canonical names)) := by
  induction entries with
  | nil => rfl
  | cons entry rest ih =>
    obtain ⟨key, value, shorthand⟩ := entry
    cases key <;>
      simp [canonicalEntries, canonicalKey, Entry.children, Key.children, rebuildEntries, ih]

lemma canonicalParts_eq (parts : List (Expr × String)) :
    canonicalParts names parts =
      rebuildParts parts ((parts.map Prod.fst).map (canonical names)) := by
  induction parts with
  | nil => rfl
  | cons part rest ih => simp [canonicalParts, rebuildParts, ih]

/-- Whether a node has a form that the canonical form may replace. -/
def isReference : Expr → Bool
  | identifier _ | member _ _ | index _ _ | call _ _ => true
  | _ => false

/-- Apart from names, member accesses and calls, a node is rebuilt from canonical parts. -/
theorem canonical_eq_rebuild {e : Expr} (h : e.isReference = false) :
    e.canonical names = e.rebuild (e.children.map (canonical names)) := by
  cases e with
  | identifier _ | member _ _ | index _ _ | call _ _ => cases h
  | object entries => simp only [canonical, canonicalEntries_eq, rebuild, children]
  | template head parts => simp only [canonical, canonicalParts_eq, rebuild, children]
  | array items | new _ items | opCall _ items | fnCall _ items =>
    simp only [canonical, canonicalList_eq, children, List.map_cons, rebuild]
  | _ => rfl

lemma children_canonical {e : Expr} (h : e.isReference = false) :
    (e.canonical names).children = e.children.map (canonical names) := by
  rw [canonical_eq_rebuild h]
  exact children_rebuild (List.length_map _)

/-! ## What the canonical form keeps -/

@[simp] lemma keyName?_canonical (e : Expr) : (e.canonical names).keyName? = e.keyName? := by
  cases e with
  | identifier _ | member _ _ | index _ _ | call _ _ =>
    simp only [canonical]
    split <;> rfl
  | _ => rfl

/-- An expression is a number in canonical form if it was one before. -/
@[simp] lemma isNumeric_canonical (e : Expr) : (e.canonical names).isNumeric = e.isNumeric := by
  induction e using parts_induction with
  | node e ih =>
    cases e with
    | identifier _ | member _ _ | index _ _ | call _ _ =>
      simp only [canonical]
      split <;> rfl
    | binary op left right =>
      have hleft := ih left (by simp [children])
      have hright := ih right (by simp [children])
      simp only [canonical, isNumeric, hleft, hright]
    | conditional test yes no =>
      have hyes := ih yes (by simp [children])
      have hno := ih no (by simp [children])
      simp only [canonical, isNumeric, hyes, hno]
    | _ => rfl

end RowExpr.Expr
