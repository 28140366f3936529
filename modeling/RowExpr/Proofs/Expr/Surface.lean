/-
# The written form of an expression

Generated code holds no canonical nodes: a column, a constant or a call in it is spelled with
members, calls and names. The surface form of an expression is the tree of that spelling, and the
longhand form differs from the expression only in that every object entry is written with its
value. Both are given node by node (`Expr.surface_eq`).
-/
import RowExpr.Expr.Code
import RowExpr.Proofs.Expr.Parts

namespace RowExpr

/-- The entry, written with its value. -/
def Entry.longhand {ε : Type} (entry : Entry ε) : Entry ε := { entry with shorthand := false }

/-- The tree of the code of a constant. -/
def Constant.surface : Constant → Expr
  | undefined => .unary .void (.literal (.number (Number.ofInt 0) "0"))
  | infinity => .member (.identifier "Number") "POSITIVE_INFINITY"
  | notANumber => .member (.identifier "Number") "NaN"
  | e => .member (.identifier "Math") "E"
  | ln2 => .member (.identifier "Math") "LN2"
  | ln10 => .member (.identifier "Math") "LN10"
  | log2e => .member (.identifier "Math") "LOG2E"
  | log10e => .member (.identifier "Math") "LOG10E"
  | pi => .member (.identifier "Math") "PI"
  | sqrtHalf => .member (.identifier "Math") "SQRT1_2"
  | sqrt2 => .member (.identifier "Math") "SQRT2"

namespace Expr

/-- The same expression with `f` applied to every node, from the inside out. -/
def mapNodes (f : Expr → Expr) (e : Expr) : Expr :=
  f (e.rebuild (e.children.attach.map fun c => mapNodes f c.1))
termination_by sizeOf e
decreasing_by exact sizeOf_lt_of_mem_children c.2

lemma mapNodes_eq (f : Expr → Expr) (e : Expr) :
    mapNodes f e = f (e.rebuild (e.children.map (mapNodes f))) := by
  rw [mapNodes, List.map_attach_eq_pmap, List.pmap_eq_map]

/-- An object with all entries written with their values. -/
def clearShorthand : Expr → Expr
  | object entries => object (entries.map Entry.longhand)
  | e => e

/-- The expression with every object entry written with its value. -/
def longhand (e : Expr) : Expr := e.mapNodes clearShorthand

/-- The column of the given name, as generated code reaches it. -/
def columnOwner (name : String) : Expr :=
  if Code.isPlainName name then member (identifier Code.dataParam) name
  else index (identifier Code.dataParam)
    (literal (.string name (String.ofList (Text.jsonQuote name.toList))))

/-- What the code of a canonical node spells. -/
def spelledOut : Expr → Expr
  | column name => call (member (columnOwner name) "get") [identifier Code.rowParam]
  | constant value => value.surface
  | opRef id =>
    index (identifier Code.opParam) (literal (.number (Number.ofInt id) (toString id)))
  | opCall name args => call (member (identifier Code.functions) name) args
  | fnCall name args => call (member (identifier Code.functions) name) args
  | e => e

/-- The tree that the code of an expression spells: no canonical node and no shorthand. -/
def surface (e : Expr) : Expr := e.mapNodes fun node => node.clearShorthand.spelledOut

theorem surface_eq (e : Expr) :
    e.surface = (e.rebuild (e.children.map surface)).clearShorthand.spelledOut :=
  mapNodes_eq _ e

lemma longhand_eq (e : Expr) :
    e.longhand = (e.rebuild (e.children.map longhand)).clearShorthand :=
  mapNodes_eq _ e

section Nodes

variable (owner key : Expr) (args : List Expr) (name : String)

@[simp] lemma surface_literal (value : Literal) : (literal value).surface = literal value :=
  surface_eq _

@[simp] lemma surface_identifier : (identifier name).surface = identifier name := surface_eq _

@[simp] lemma surface_member : (member owner name).surface = member owner.surface name :=
  surface_eq _

@[simp] lemma surface_index : (index owner key).surface = index owner.surface key.surface :=
  surface_eq _

@[simp] lemma surface_call : (call owner args).surface = call owner.surface (args.map surface) :=
  surface_eq _

end Nodes

/-- The key with its expression in surface form, if it is computed. -/
def surfaceOfKey : Key Expr → Key Expr
  | .computed key => .computed key.surface
  | .name name => .name name
  | .string value raw => .string value raw
  | .number value raw => .number value raw

lemma surface_object (entries : List (Entry Expr)) :
    (object entries).surface =
      object (entries.map fun entry => ⟨surfaceOfKey entry.key, entry.value.surface, false⟩) := by
  rw [surface_eq]
  refine congrArg object ?_
  simp only [children]
  induction entries with
  | nil => rfl
  | cons entry rest ih =>
    obtain ⟨key, value, shorthand⟩ := entry
    cases key
    all_goals
      simp only [List.flatMap_cons, Entry.children, Key.children, List.map_cons, List.nil_append,
        List.cons_append, rebuildEntries, ih, Entry.longhand, surfaceOfKey]

lemma surface_template (head : String) (parts : List (Expr × String)) :
    (template head parts).surface =
      template head (parts.map fun part => (part.1.surface, part.2)) := by
  rw [surface_eq]
  refine congrArg (template head) ?_
  rw [rebuildParts, children, List.map_map, List.zip_map']
  rfl

end Expr

end RowExpr
