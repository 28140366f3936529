/-
# The parts of an expression

Most operations on expressions do one thing at a few forms of node and the same thing at all
others: they work on the parts from left to right and put the node together again.  This file names
the parts of a node (`children`) and the node with other parts (`rebuild`), so that such an
operation needs one equation instead of one for each form.  The induction over parts that goes with
it has a single case.

* `Expr.subterms_eq`: the expressions inside a node are itself and those inside its parts;
* `Expr.parts_induction`: what passes from the parts of a node to the node holds of every
  expression;
* `Expr.children_rebuild`: the parts of a rebuilt node are the new ones.
-/
import RowExpr.Expr.Basic
import Mathlib.Data.List.Basic
import Mathlib.Tactic.Common

namespace RowExpr

/-- The expression of a key, if it is computed. -/
def Key.children : Key Expr → List Expr
  | .computed key => [key]
  | .name _ | .string _ _ | .number _ _ => []

/-- The expressions of an object entry, a computed key before the value. -/
def Entry.children (entry : Entry Expr) : List Expr := entry.key.children ++ [entry.value]

namespace Expr

/-- The expressions right below a node, from left to right. -/
def children : Expr → List Expr
  | array items => items
  | object entries => entries.flatMap Entry.children
  | template _ parts => parts.map Prod.fst
  | member owner _ => [owner]
  | index owner key => [owner, key]
  | call callee args => callee :: args
  | new callee args => callee :: args
  | unary _ argument => [argument]
  | update _ _ argument => [argument]
  | binary _ left right => [left, right]
  | logical _ left right => [left, right]
  | conditional test yes no => [test, yes, no]
  | assign _ target value => [target, value]
  | opCall _ args => args
  | fnCall _ args => args
  | literal _ | identifier _ | this | column _ | constant _ | opRef _ => []

/-- Object entries with other expressions, taken from a list in order. -/
def rebuildEntries : List (Entry Expr) → List Expr → List (Entry Expr)
  | ⟨.computed _, _, shorthand⟩ :: rest, key :: value :: parts =>
    ⟨.computed key, value, shorthand⟩ :: rebuildEntries rest parts
  | ⟨.name name, _, shorthand⟩ :: rest, value :: parts =>
    ⟨.name name, value, shorthand⟩ :: rebuildEntries rest parts
  | ⟨.string text raw, _, shorthand⟩ :: rest, value :: parts =>
    ⟨.string text raw, value, shorthand⟩ :: rebuildEntries rest parts
  | ⟨.number x raw, _, shorthand⟩ :: rest, value :: parts =>
    ⟨.number x raw, value, shorthand⟩ :: rebuildEntries rest parts
  | _, _ => []

/-- The holes of a template with other expressions. -/
def rebuildParts (parts : List (Expr × String)) (exprs : List Expr) : List (Expr × String) :=
  exprs.zip (parts.map Prod.snd)

/-- The node with other parts; they have to be as many as before. -/
def rebuild : Expr → List Expr → Expr
  | array _, items => array items
  | object entries, parts => object (rebuildEntries entries parts)
  | template head holes, parts => template head (rebuildParts holes parts)
  | member _ name, [owner] => member owner name
  | index _ _, [owner, key] => index owner key
  | call _ _, callee :: args => call callee args
  | new _ _, callee :: args => new callee args
  | unary op _, [argument] => unary op argument
  | update op before _, [argument] => update op before argument
  | binary op _ _, [left, right] => binary op left right
  | logical op _ _, [left, right] => logical op left right
  | conditional _ _ _, [test, yes, no] => conditional test yes no
  | assign op _ _, [target, value] => assign op target value
  | opCall name _, args => opCall name args
  | fnCall name _, args => fnCall name args
  | e, _ => e

/-! ## The expressions inside a node -/

lemma subtermsOfList_eq (es : List Expr) : subtermsOfList es = es.flatMap subterms := by
  induction es with
  | nil => rfl
  | cons e rest ih => simp only [subtermsOfList, List.flatMap_cons, ih]

lemma subtermsOfEntries_eq (entries : List (Entry Expr)) :
    subtermsOfEntries entries = (entries.flatMap Entry.children).flatMap subterms := by
  induction entries with
  | nil => rfl
  | cons entry rest ih =>
    obtain ⟨key, value, shorthand⟩ := entry
    cases key <;> simp [subtermsOfEntries, Entry.children, Key.children, ih]

lemma subtermsOfParts_eq (parts : List (Expr × String)) :
    subtermsOfParts parts = (parts.map Prod.fst).flatMap subterms := by
  induction parts with
  | nil => rfl
  | cons part rest ih =>
    simp only [subtermsOfParts, List.map_cons, List.flatMap_cons, ih]

/-- The expressions inside a node are itself and those inside its parts. -/
theorem subterms_eq (e : Expr) : e.subterms = e :: e.children.flatMap subterms := by
  cases e <;>
    simp [subterms, children, subtermsOfList_eq, subtermsOfEntries_eq, subtermsOfParts_eq]

lemma mem_subterms_self (e : Expr) : e ∈ e.subterms := by
  rw [subterms_eq]
  exact List.mem_cons_self

lemma mem_subterms_of_mem_children {e c s : Expr} (hc : c ∈ e.children) (hs : s ∈ c.subterms) :
    s ∈ e.subterms := by
  rw [subterms_eq]
  exact List.mem_cons_of_mem _ (List.mem_flatMap.mpr ⟨c, hc, hs⟩)

/-- A property holds everywhere inside a node if it holds there and everywhere inside its parts. -/
theorem forall_subterms_iff {p : Expr → Prop} (e : Expr) :
    (∀ s ∈ e.subterms, p s) ↔ p e ∧ ∀ c ∈ e.children, ∀ s ∈ c.subterms, p s := by
  rw [subterms_eq, List.forall_mem_cons]
  simp only [List.mem_flatMap, forall_exists_index, and_imp]
  constructor
  · rintro ⟨he, h⟩
    exact ⟨he, fun c hc s hs => h s c hc hs⟩
  · rintro ⟨he, h⟩
    exact ⟨he, fun s c hc hs => h c hc s hs⟩

/-! ## Induction over parts -/

lemma sizeOf_lt_of_mem_entry {c : Expr} {entry : Entry Expr} (h : c ∈ entry.children) :
    sizeOf c < sizeOf entry := by
  obtain ⟨key, value, shorthand⟩ := entry
  rw [Entry.mk.sizeOf_spec]
  rcases List.mem_append.mp h with hkey | hvalue
  · cases key with
    | computed k =>
      obtain rfl := List.mem_singleton.mp hkey
      rw [Key.computed.sizeOf_spec]
      omega
    | name _ | string _ _ | number _ _ => cases hkey
  · obtain rfl := List.mem_singleton.mp hvalue
    omega

/-- A part is smaller than the node. -/
lemma sizeOf_lt_of_mem_children {c e : Expr} (h : c ∈ e.children) : sizeOf c < sizeOf e := by
  cases e with
  | array items | opCall _ items | fnCall _ items =>
    have hlt : sizeOf c < sizeOf items := List.sizeOf_lt_of_mem h
    simp only [array.sizeOf_spec, opCall.sizeOf_spec, fnCall.sizeOf_spec]
    omega
  | call callee args | new callee args =>
    simp only [call.sizeOf_spec, new.sizeOf_spec]
    rcases List.mem_cons.mp h with rfl | hc
    · omega
    · have hlt := List.sizeOf_lt_of_mem hc
      omega
  | object entries =>
    obtain ⟨entry, hentry, hc⟩ := List.mem_flatMap.mp h
    have hlt := List.sizeOf_lt_of_mem hentry
    have hlt' := sizeOf_lt_of_mem_entry hc
    rw [object.sizeOf_spec]
    omega
  | template head parts =>
    obtain ⟨⟨e, text⟩, hpart, rfl⟩ := List.mem_map.mp h
    have hlt := List.sizeOf_lt_of_mem hpart
    rw [Prod.mk.sizeOf_spec] at hlt
    rw [template.sizeOf_spec]
    dsimp only
    omega
  | member a _ | unary _ a | update _ _ a =>
    obtain rfl := List.mem_singleton.mp h
    simp only [member.sizeOf_spec, unary.sizeOf_spec, update.sizeOf_spec]
    omega
  | index a b | binary _ a b | logical _ a b | assign _ a b =>
    have hc : c = a ∨ c = b := by simpa [children] using h
    simp only [index.sizeOf_spec, binary.sizeOf_spec, logical.sizeOf_spec, assign.sizeOf_spec]
    rcases hc with rfl | rfl <;> omega
  | conditional test yes no =>
    have hc : c = test ∨ c = yes ∨ c = no := by simpa [children] using h
    rw [conditional.sizeOf_spec]
    rcases hc with rfl | rfl | rfl <;> omega
  | literal _ | identifier _ | this | column _ | constant _ | opRef _ =>
    exact absurd h List.not_mem_nil

/-- What passes from the parts of a node to the node holds of every expression. -/
@[elab_as_elim]
theorem parts_induction {motive : Expr → Prop}
    (node : ∀ e, (∀ c ∈ e.children, motive c) → motive e) (e : Expr) : motive e :=
  node e fun c hc =>
    have := sizeOf_lt_of_mem_children hc
    parts_induction node c
termination_by sizeOf e

lemma mem_subterms_trans {a b c : Expr} (h : a ∈ b.subterms) (h' : b ∈ c.subterms) :
    a ∈ c.subterms := by
  induction c using parts_induction with
  | node c ih =>
    rw [subterms_eq] at h'
    rcases List.mem_cons.mp h' with rfl | h'
    · exact h
    · obtain ⟨part, hpart, h'⟩ := List.mem_flatMap.mp h'
      exact mem_subterms_of_mem_children hpart (ih part hpart h')

/-! ## Nodes with other parts -/

lemma children_rebuildEntries {entries : List (Entry Expr)} {parts : List Expr}
    (h : parts.length = (entries.flatMap Entry.children).length) :
    (rebuildEntries entries parts).flatMap Entry.children = parts := by
  induction entries generalizing parts with
  | nil =>
    have hnil : parts = [] := by simpa using h
    simp [rebuildEntries, hnil]
  | cons entry rest ih =>
    obtain ⟨key, value, shorthand⟩ := entry
    cases key with
    | computed k =>
      obtain _ | ⟨k', _ | ⟨value', tail⟩⟩ := parts
      · simp [Entry.children, Key.children] at h
      · simp [Entry.children, Key.children] at h
      · have htail : tail.length = (rest.flatMap Entry.children).length := by
          simpa [Entry.children, Key.children] using h
        simp [rebuildEntries, Entry.children, Key.children, ih htail]
    | name _ | string _ _ | number _ _ =>
      obtain _ | ⟨value', tail⟩ := parts
      · simp [Entry.children, Key.children] at h
      · have htail : tail.length = (rest.flatMap Entry.children).length := by
          simpa [Entry.children, Key.children] using h
        simp [rebuildEntries, Entry.children, Key.children, ih htail]

/-- The parts of a rebuilt node are the new ones. -/
theorem children_rebuild {e : Expr} {parts : List Expr} (h : parts.length = e.children.length) :
    (e.rebuild parts).children = parts := by
  cases e with
  | array _ | opCall _ _ | fnCall _ _ => rfl
  | object entries => exact children_rebuildEntries h
  | template head holes =>
    simp only [children, List.length_map] at h
    simp only [rebuild, rebuildParts, children]
    exact List.map_fst_zip (by simp [h])
  | call _ _ | new _ _ =>
    obtain _ | ⟨callee, args⟩ := parts
    · simp [children] at h
    · rfl
  | member _ _ | unary _ _ | update _ _ _ =>
    obtain ⟨a, rfl⟩ := List.length_eq_one_iff.mp h
    rfl
  | index _ _ | binary _ _ _ | logical _ _ _ | assign _ _ _ =>
    obtain ⟨a, b, rfl⟩ := List.length_eq_two.mp h
    rfl
  | conditional _ _ _ =>
    obtain ⟨a, b, c, rfl⟩ := List.length_eq_three.mp h
    rfl
  | literal _ | identifier _ | this | column _ | constant _ | opRef _ =>
    exact (List.length_eq_zero_iff.mp h).symm

lemma rebuildEntries_rebuildEntries {entries : List (Entry Expr)} {parts : List Expr}
    (h : parts.length = (entries.flatMap Entry.children).length) (parts' : List Expr) :
    rebuildEntries (rebuildEntries entries parts) parts' = rebuildEntries entries parts' := by
  induction entries generalizing parts parts' with
  | nil => rfl
  | cons entry rest ih =>
    obtain ⟨key, value, shorthand⟩ := entry
    cases key with
    | computed k =>
      obtain _ | ⟨k', _ | ⟨value', tail⟩⟩ := parts
      · simp [Entry.children, Key.children] at h
      · simp [Entry.children, Key.children] at h
      · have htail : tail.length = (rest.flatMap Entry.children).length := by
          simpa [Entry.children, Key.children] using h
        obtain _ | ⟨k'', _ | ⟨value'', tail'⟩⟩ := parts'
        · rfl
        · rfl
        · simp only [rebuildEntries, ih htail]
    | name _ | string _ _ | number _ _ =>
      obtain _ | ⟨value', tail⟩ := parts
      · simp [Entry.children, Key.children] at h
      · have htail : tail.length = (rest.flatMap Entry.children).length := by
          simpa [Entry.children, Key.children] using h
        obtain _ | ⟨value'', tail'⟩ := parts'
        · rfl
        · simp only [rebuildEntries, ih htail]

/-- The keys of an object with other parts have the names that they had before. -/
lemma staticName?_rebuildEntries {entries : List (Entry Expr)} {parts : List Expr}
    {entry : Entry Expr} (h : entry ∈ rebuildEntries entries parts) :
    ∃ entry' ∈ entries, entry.key.staticName? = entry'.key.staticName? := by
  fun_induction rebuildEntries entries parts with
  | case5 => cases h
  | _ =>
    rename_i ih
    rcases List.mem_cons.mp h with rfl | h
    · exact ⟨_, List.mem_cons_self, rfl⟩
    · obtain ⟨entry', hentry', hname⟩ := ih h
      exact ⟨entry', List.mem_cons_of_mem _ hentry', hname⟩

/-- Only the last parts of a node that is rebuilt twice count. -/
theorem rebuild_rebuild {e : Expr} {parts parts' : List Expr}
    (h : parts.length = e.children.length) (h' : parts'.length = e.children.length) :
    (e.rebuild parts).rebuild parts' = e.rebuild parts' := by
  cases e with
  | array _ | opCall _ _ | fnCall _ _ => rfl
  | object entries => exact congrArg object (rebuildEntries_rebuildEntries h parts')
  | template head holes =>
    simp only [children, List.length_map] at h
    have htexts : (parts.zip (holes.map Prod.snd)).map Prod.snd = holes.map Prod.snd :=
      List.map_snd_zip (by simp [h])
    simp only [rebuild, rebuildParts, htexts]
  | call _ _ | new _ _ =>
    obtain _ | ⟨callee, args⟩ := parts
    · simp [children] at h
    · obtain _ | ⟨callee', args'⟩ := parts'
      · simp [children] at h'
      · rfl
  | member _ _ | unary _ _ | update _ _ _ =>
    obtain ⟨a, rfl⟩ := List.length_eq_one_iff.mp h
    obtain ⟨a', rfl⟩ := List.length_eq_one_iff.mp h'
    rfl
  | index _ _ | binary _ _ _ | logical _ _ _ | assign _ _ _ =>
    obtain ⟨a, b, rfl⟩ := List.length_eq_two.mp h
    obtain ⟨a', b', rfl⟩ := List.length_eq_two.mp h'
    rfl
  | conditional _ _ _ =>
    obtain ⟨a, b, c, rfl⟩ := List.length_eq_three.mp h
    obtain ⟨a', b', c', rfl⟩ := List.length_eq_three.mp h'
    rfl
  | literal _ | identifier _ | this | column _ | constant _ | opRef _ => rfl

end Expr

end RowExpr
