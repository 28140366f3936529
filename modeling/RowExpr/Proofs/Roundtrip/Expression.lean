/-
# Row functions that are expressions, read back from their code

The code of an expression, after its parameter and an arrow, is a text that writes a row function
again.  It is read back as the same function, with every object entry written with its value,
exactly when no choice has a number that begins with a point behind its question mark; then `?.`
is read as one mark, and the text is malformed (`RowFunction.parse_code_iff`).
-/
import RowExpr.Proofs.Check.Legible
import RowExpr.Proofs.Grammar.Statement

namespace RowExpr

open TokenRun (scan)

namespace Expr

/-! ## Written expressions -/

/-- The surface form of a written expression differs only in its shorthands. -/
lemma Written.surface_eq_longhand {e : Expr} (h : e.Written) : e.surface = e.longhand := by
  induction e using parts_induction with
  | node e ih =>
    have hparts : e.children.map surface = e.children.map longhand :=
      List.map_congr_left fun c hc => ih c hc (h.child hc)
    rw [surface_eq, longhand_eq, hparts]
    have hwritten := ((written_iff e).mp h).1
    cases e with
    | column _ | constant _ | opCall _ _ | opRef _ | fnCall _ _ => cases hwritten
    | _ => rfl

lemma Written.isUndefined_eq_false {e : Expr} (h : e.Written) : e.isUndefined = false := by
  have hwritten := ((written_iff e).mp h).1
  cases e with
  | constant _ => cases hwritten
  | _ => rfl

lemma Written.raisesUndefined_eq_false {e : Expr} (h : e.Written) : e.raisesUndefined = false := by
  unfold raisesUndefined
  split
  · exact (h.child (by simp [children])).isUndefined_eq_false
  · rfl

/-- Only a choice with a pointed number spoils the code of a written expression. -/
theorem Written.clean_iff {e : Expr} (h : e.Written) :
    e.Clean ↔ ∀ s ∈ e.subterms, s.isPointed = false := by
  induction e using parts_induction with
  | node e ih =>
    rw [Expr.clean_iff, forall_subterms_iff, and_iff_left h.raisesUndefined_eq_false]
    exact and_congr_right' (forall₂_congr fun c hc => ih c hc (h.child hc))

end Expr

/-- The text in front of the body of a row function. -/
def RowFunction.header : Option String → String
  | some name => name ++ "=>"
  | none => "()=>"

namespace Grammar

variable {stop : Nat} {rest : List Char} {ok : Prop} {ending : Ending}

/-! ## Parameters -/

lemma starts_arrow : (scan stop ('=' :: '>' :: rest)).Starts (.punct .arrow) (scan stop rest) :=
  TokenRun.starts_mark (Token.isMark_punct .arrow) fun c _ =>
    Token.endsBefore_of_isLone (by decide) c

/-- The parameter in front of an arrow, and the token that its text starts with. -/
lemma readsIff_arrowParameter (stop : Nat) (rest : List Char) {param : Option String}
    (hparam : ∀ name ∈ param, Token.isName name = true)
    (hending : ending = (scan stop ((RowFunction.header param).toList ++ rest)).ending) :
    ReadsIff ending True param (scan stop ('=' :: '>' :: rest))
        (arrowParameter ending (scan stop ((RowFunction.header param).toList ++ rest)).tokens) ∧
      ∃ token run, (scan stop ((RowFunction.header param).toList ++ rest)).Starts token run ∧
        token ≠ .keyword .function := by
  have harrow : (scan stop ('=' :: '>' :: rest)).Starts (.punct .arrow) (scan stop rest) :=
    starts_arrow
  unfold arrowParameter
  cases param with
  | none =>
    have hopen : (scan stop ('(' :: ')' :: '=' :: '>' :: rest)).Starts (.punct .lparen)
        (scan stop (')' :: '=' :: '>' :: rest)) := starts_bracket rfl rfl stop _
    have hclose : (scan stop (')' :: '=' :: '>' :: rest)).Starts (.punct .rparen)
        (scan stop ('=' :: '>' :: rest)) := starts_bracket rfl rfl stop _
    have htext : (RowFunction.header none).toList ++ rest = '(' :: ')' :: '=' :: '>' :: rest := rfl
    rw [htext] at hending ⊢
    refine ⟨?_, _, _, hopen, nofun⟩
    rw [if_pos (startsWith_mark hopen)]
    refine ((readsIff_expect hopen hending).bind fun _ hending _ => ?_).congr
      (iff_true_intro ⟨reached_of_starts hclose, trivial⟩)
    dsimp only
    rw [if_pos (startsWith_mark hclose)]
    refine ((readsIff_expect hclose hending).bind fun _ hending _ => ?_).congr
      (iff_true_intro ⟨reached_of_starts harrow, trivial⟩)
    exact readsIff_ok rfl rfl hending
  | some name =>
    have hname := hparam name rfl
    have htext : (RowFunction.header (some name)).toList ++ rest =
        name.toList ++ '=' :: '>' :: rest := by
      simp [RowFunction.header]
    rw [htext] at hending ⊢
    have hstarts : (scan stop (name.toList ++ '=' :: '>' :: rest)).Starts (.identifier name)
        (scan stop ('=' :: '>' :: rest)) := by
      rw [← Token.ofWord_of_isName hname]
      exact TokenRun.starts_word (Token.isWord_of_isName hname) (stopsWord_cons (by decide) _)
    refine ⟨?_, _, _, hstarts, nofun⟩
    rw [if_neg (by simp [startsWith_of_starts hstarts])]
    refine ((readsIff_identifier hstarts hending).bind fun _ hending _ => ?_).congr
      (iff_true_intro ⟨reached_of_starts harrow, trivial⟩)
    exact readsIff_ok rfl rfl hending

/-- What a rule reads from a text is all of the text if it reads up to the end. -/
lemma ReadsIff.wholeText {α : Type} {n : Nat} {a : α} {run : TokenRun}
    {result : Except Malformed (Step n α)} (h : ReadsIff run.ending ok a (scan stop []) result)
    (hreach : Reached run) :
    GivesIff ok a (do
      reach run.ending run.tokens
      let step ← result
      expectEnd run.ending step.rest
      return step.value) := by
  have hend : GivesIff True () (expectEnd run.ending (scan stop []).tokens) := by
    rw [TokenRun.scan_nil]
    exact givesIff_ok
  refine (givesIff_reach.bind fun _ => ?_).congr (and_iff_right hreach)
  refine (h.gives fun _ _ _ => ?_).congr (and_iff_left trivial)
  refine (hend.bind fun _ => ?_).congr (and_iff_left trivial)
  exact givesIff_ok

lemma function_eq_arrowFunction {ts : List Lexeme} (h : front ts ≠ .keyword .function) :
    function ending ts = arrowFunction ending ts := by
  unfold function
  split
  · exact absurd rfl h
  · rfl

/-- A row function is read from its parameter and a text that its body is read from. -/
lemma givesIff_parse {param : Option String} (hparam : ∀ name ∈ param, Token.isName name = true)
    {text : String} {body : Body} (hreach : ∀ stop, Reached (scan stop text.toList))
    (hbody : ∀ stop ending, ending = (scan stop text.toList).ending →
      ReadsIff ending ok body (scan stop []) (arrowBody ending (scan stop text.toList).tokens)) :
    GivesIff ok ⟨param, body⟩ (RowFunction.parse (RowFunction.header param ++ text)) := by
  unfold RowFunction.parse TokenRun.ofText
  rw [String.toList_append]
  generalize 0 + ((RowFunction.header param).toList ++ text.toList).length = stop
  obtain ⟨hhead, token, after, hstarts, htoken⟩ :=
    readsIff_arrowParameter stop text.toList hparam rfl
  generalize scan stop ((RowFunction.header param).toList ++ text.toList) = run at hhead hstarts
  have hfunction : ReadsIff run.ending ok ⟨param, body⟩ (scan stop [])
      (function run.ending run.tokens) := by
    rw [function_eq_arrowFunction (by rwa [front_of_starts hstarts])]
    refine (hhead.bind fun _ hending _ => ?_).congr (and_iff_right trivial)
    refine ((readsIff_expect starts_arrow hending).bind fun _ hending _ => ?_).congr
      (and_iff_right (hreach stop))
    refine ((hbody stop _ hending).bind fun _ hending _ => ?_).congr (and_iff_left trivial)
    exact readsIff_ok rfl rfl hending
  exact hfunction.wholeText (reached_of_starts hstarts)

/-! ## Expressions -/

lemma apart_nil : Apart [] := nofun

lemma reached_nil (stop : Nat) : Reached (scan stop []) := .inr ⟨stop, by rw [TokenRun.scan_nil]⟩

/-- The code of an expression is read up to the end of the text. -/
lemma Rereads.whole {e : Expr} (h : Rereads e) (stop : Nat)
    (hending : ending = (scan stop e.code.toList).ending) :
    ReadsIff ending e.Clean e.surface (scan stop [])
      (assignment ending (scan stop e.code.toList).tokens) := by
  rw [← List.append_nil e.code.toList] at hending ⊢
  have hfront : closes (front (scan stop []).tokens) := by rw [TokenRun.scan_nil]; rfl
  exact (h.group.reads apart_nil hfront hending).congr (and_iff_left (reached_nil stop))

/-- The code of an expression starts with a token, and with no brace. -/
lemma Rereads.starts {e : Expr} (h : Rereads e) (stop : Nat) :
    ∃ token run, (scan stop e.code.toList).Starts token run ∧ token ≠ .punct .lbrace := by
  obtain ⟨token, run, hstarts, htoken⟩ := h.simple.starts stop [] apart_nil
  rw [List.append_nil] at hstarts
  refine ⟨token, run, hstarts, ?_⟩
  rintro rfl
  rcases htoken with ⟨_, htoken⟩ | ⟨_, htoken⟩
  · cases htoken
  · cases htoken

lemma Rereads.function {e : Expr} (h : Rereads e) {param : Option String}
    (hparam : ∀ name ∈ param, Token.isName name = true) :
    GivesIff e.Clean ⟨param, .expr e.surface⟩
      (RowFunction.parse (RowFunction.header param ++ e.code)) := by
  refine givesIff_parse hparam (fun stop => ?_) (fun stop ending hending => ?_)
  · obtain ⟨token, run, hstarts, _⟩ := h.starts stop
    exact reached_of_starts hstarts
  · obtain ⟨token, run, hstarts, htoken⟩ := h.starts stop
    unfold arrowBody
    rw [if_neg (by simp [startsWith_of_starts hstarts htoken])]
    refine ((h.whole stop hending).bind fun _ hending _ => ?_).congr (and_iff_left trivial)
    exact readsIff_ok rfl rfl hending

end Grammar

/-- A row function with an expression for its body, which was read and is accepted, is read back
from its code with every object entry written with its value, exactly if no choice in it has a
number that begins with a point behind its question mark.  If one has, the code is malformed. -/
theorem RowFunction.parse_code_iff {text space : String} {f : RowFunction} {e : Expr}
    (hparse : RowFunction.parse text = .ok f) (hcheck : f.check space = .ok ())
    (hbody : f.body = .expr e) :
    (RowFunction.parse (RowFunction.header f.param ++ e.code) = .ok ⟨f.param, .expr e.longhand⟩ ↔
        ∀ s ∈ e.subterms, s.isPointed = false) ∧
      ((∃ s ∈ e.subterms, s.isPointed = true) →
        ∃ m, RowFunction.parse (RowFunction.header f.param ++ e.code) = .error m) := by
  have hspelled := spelled_of_parse hparse
  have hmem : e ∈ f.body.exprs := by rw [hbody]; exact List.mem_singleton_self e
  have hwritten : e.Written := (hspelled.body.exprs e hmem).written
  have hreads := Grammar.rereads_of_legible e (hspelled.legible_exprs hcheck e hmem)
  have hgives := hreads.function hspelled.param
  rw [hwritten.surface_eq_longhand] at hgives
  have hgives := hgives.congr hwritten.clean_iff
  refine ⟨⟨fun hok => ?_, hgives.1⟩, fun ⟨s, hs, hpointed⟩ => hgives.2 fun hclean => ?_⟩
  · by_contra hclean
    obtain ⟨m, hm⟩ := hgives.2 hclean
    cases hok.symm.trans hm
  · cases hpointed.symm.trans (hclean s hs)

open RowExpr.Expr in
/-- An object with an entry in shorthand, and with a choice in the hole of a template. -/
def shorthandChoice : Expr :=
  object [⟨.name "NaN", identifier "NaN", true⟩,
    ⟨.name "s", template "" [(conditional (member (identifier "d") "x") (literal (.boolean true))
      (literal .null), "")], false⟩]

theorem RowFunction.parse_code_iff_shorthandChoice :
    RowFunction.parse "d=>(\x7bNaN,s:`$\x7bd.x?true:null\x7d`\x7d)" =
        .ok ⟨some "d", .expr shorthandChoice⟩ ∧
      RowFunction.check ⟨some "d", .expr shorthandChoice⟩ "op" = .ok () ∧
      RowFunction.parse "d=>(\x7bNaN:NaN,s:`$\x7b(d.x?true:null)\x7d`\x7d)" =
        .ok ⟨some "d", .expr shorthandChoice.longhand⟩ := by
  have hparse : RowFunction.parse "d=>(\x7bNaN,s:`$\x7bd.x?true:null\x7d`\x7d)" =
      .ok ⟨some "d", .expr shorthandChoice⟩ := by
    unfold RowFunction.parse
    conv in TokenRun.ofText _ _ => cbv
    cbv
  have hcheck : RowFunction.check ⟨some "d", .expr shorthandChoice⟩ "op" = .ok () := rfl
  refine ⟨hparse, hcheck, ?_⟩
  exact (RowFunction.parse_code_iff hparse hcheck rfl).1.mpr (by decide)

end RowExpr
