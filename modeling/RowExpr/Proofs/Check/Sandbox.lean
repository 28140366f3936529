/-
# Compiled row functions stay in their sandbox

A row function that has been read, accepted, brought into canonical form and relieved of its
operators can do nothing but compute with locals, columns, constants, operator results and scalar
functions.  The check, the canonical form and the extraction walk through the tree one after the
other, each with its own idea of what a column or an operator is; the main statement is about what
is left after all three.
-/
import RowExpr.Proofs.Check.Sites
import RowExpr.Proofs.Extract.Function
import Mathlib

namespace RowExpr.RowFunction

/-- A row function confined to its sandbox.  No statement is a loop or a `continue`, and a `break`
only leaves a switch.  The locals that an expression can see have names without another meaning.
Every node of an expression, at any depth, is confined to these locals. -/
structure Sandboxed (space : String) (g : RowFunction) : Prop where
  permitted : g.body.Permitted
  apart : ∀ site ∈ g.body.sites, site.locals.Apart (g.names space)
  confined : ∀ site ∈ g.body.sites, ∀ e ∈ site.expr.subterms, e.Confined site.locals

variable {text space : String} {f : RowFunction}

lemma apart_canonical (hcheck : f.check space = .ok ()) :
    ∀ site ∈ (f.canonical space).body.sites, site.locals.Apart (f.names space) := by
  intro site' hsite'
  rw [body_canonical] at hsite'
  obtain ⟨site, hsite, _, rfl⟩ := Body.exists_site_of_mem_mapExprs hsite'
  exact ((check_eq_ok hcheck).1 site hsite).1

/-- The locals of an accepted row function have no reserved names, also when it is compiled. -/
lemma apart_numbered (hcheck : f.check space = .ok ()) (registry : Registry) (first : Nat) :
    ∀ site ∈ ((f.canonical space).numbered registry first).body.sites,
      site.locals.Apart (f.names space) := by
  intro site' hsite'
  obtain ⟨site, hsite, _, rfl⟩ := Body.exists_site_of_mem_mapExprs hsite'
  exact apart_canonical hcheck site hsite

/-- The canonical form of an accepted row function is confined, up to calls by name. -/
lemma confined_canonical (hparse : RowFunction.parse text = .ok f)
    (hcheck : f.check space = .ok ()) :
    ∀ site ∈ (f.canonical space).body.sites,
      ∀ e ∈ site.expr.subterms, e.ConfinedOrCall site.locals := by
  intro site' hsite'
  rw [body_canonical] at hsite'
  obtain ⟨site, hsite, _, rfl⟩ := Body.exists_site_of_mem_mapExprs hsite'
  obtain ⟨hapart, haccepted⟩ := (check_eq_ok hcheck).1 site hsite
  have hwritten := written_of_parse hparse _ (f.body.expr_mem_exprs site hsite)
  exact Expr.confined_canonical hapart hwritten haccepted

/-- What is compiled from a text is confined to its sandbox. -/
theorem sandboxed_of_extract (text space : String) (registry : Registry) (window : Option Window)
    (calls calls' : List OperatorCall) (f g : RowFunction)
    (hparse : RowFunction.parse text = .ok f) (hcheck : f.check space = .ok ())
    (hextract : (f.canonical space).extract registry window calls = (.ok g, calls')) :
    g.Sandboxed space := by
  have hpermitted := permitted_canonical hcheck
  obtain ⟨rfl, -⟩ := numbered_of_extract hpermitted.loopFree hextract
  exact {
    permitted := (Body.permitted_mapExprs_iff _ _ _ _).mpr hpermitted
    apart := apart_numbered hcheck registry calls.length
    confined := by
      intro site' hsite'
      obtain ⟨site, hsite, first, rfl⟩ := Body.exists_site_of_mem_mapExprs hsite'
      exact Expr.confined_numbered (confined_canonical hparse hcheck site hsite) first }

open RowExpr.Expr in
/-- A function that declares a variable, calls an operator and reads two columns. -/
def reducedMean : RowFunction where
  param := some "d"
  body := .block [
    .declare .let_ "a" (some (call (identifier "mean") [member (identifier "d") "x"])),
    .expr (assign .subtract (identifier "a")
      (index (identifier "d") (literal (.string "y" "'y'")))),
    .return_ (some (identifier "a"))]

theorem sandboxed_of_extract_reducedMean :
    RowFunction.parse "d=>\x7blet a=mean(d.x);a-=d['y'];return a\x7d" = .ok reducedMean ∧
      reducedMean.check "op" = .ok () ∧
      (reducedMean.canonical "op").extract meanAndLag none [] =
        (.ok ((reducedMean.canonical "op").numbered meanAndLag 0),
          [⟨"mean", ["data.x.get(row)"], [], 0, none⟩]) ∧
      ((reducedMean.canonical "op").numbered meanAndLag 0).Sandboxed "op" := by
  have hparse : RowFunction.parse "d=>\x7blet a=mean(d.x);a-=d['y'];return a\x7d" =
      .ok reducedMean := by
    -- first the tokens, then the grammar: the rules recurse along the weight of the tokens
    unfold RowFunction.parse
    conv in TokenRun.ofText _ _ => cbv
    cbv
  refine ⟨hparse, rfl, rfl, ?_⟩
  exact sandboxed_of_extract _ "op" meanAndLag none [] _ reducedMean _ hparse rfl rfl

end RowExpr.RowFunction
