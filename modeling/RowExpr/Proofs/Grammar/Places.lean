/-
# Where errors are

The source of a hole is a part of the text around it, and the hole knows where that part begins, at
every depth.  So the places of all tokens, and with them the places of all errors, are places in the
text as a whole: an error in a hole is at a character of its source or at the brace behind it.

* `Hole.encloses_of_contains`: a hole is written where it says;
* `Hole.raised_of_parse`, `RowFunction.raised_of_parse`: an error stands at a token of the text, or
  of a hole in it;
* `RowFunction.parse_places`: all errors, at every depth, have their places in the text as a whole.
-/
import RowExpr.Proofs.Grammar.Progress
import RowExpr.Proofs.Token.Shift

namespace RowExpr

/-! ## Tokens and holes in a text -/

namespace TokenRun

variable {stop : Nat} {cs : List Char}

/-- Every token of a run stands in the text at its place, also if the text has a fault behind it. -/
lemma written_of_mem {l : Lexeme} (hl : l ∈ (scan stop cs).tokens) (hstop : cs.length ≤ stop) :
    ∃ before after, cs = before ++ (l.token.written ++ after) ∧ l.token.written ≠ [] ∧
      l.position = stop - cs.length + before.length ∧ l.token.KnowsHoles l.position := by
  induction hn : cs.length using Nat.strong_induction_on generalizing cs with
  | _ n ih =>
    subst hn
    cases hrun : scan stop cs with
    | mk tokens ending =>
      rw [hrun] at hl
      cases tokens with
      | nil => cases hl
      | cons first others =>
        obtain ⟨c, r, rest, hat, hposition, hscans, hothers⟩ := first_of_scan hrun
        have hle := hat.length_le
        obtain ⟨gap, _, hcs⟩ := hat.text
        have hlaid := Token.laidToken_of_scans hscans (by omega)
        have hlength : cs.length = gap.length + (r.length + 1) := by
          rw [hcs, List.length_append, List.length_cons]
        -- the first token is behind the gap, and the others are in the text behind it
        cases hl with
        | head =>
          refine ⟨gap, rest, by rw [hlaid.text, hcs], hlaid.nonempty, by omega, ?_⟩
          rw [hposition]
          exact hlaid.holes
        | tail _ hl =>
          have hrest : rest.length ≤ r.length := hscans.1.length_le
          obtain ⟨before, after, htext, hne, hplace, hholes⟩ :=
            ih rest.length (by omega) (by rwa [hothers]) (by omega) rfl
          have hwritten : first.token.written.length + rest.length = r.length + 1 := by
            rw [← List.length_append, hlaid.text, List.length_cons]
          refine ⟨gap ++ (first.token.written ++ before), after, ?_, hne, ?_, hholes⟩
          · rw [hcs, ← hlaid.text, htext]
            simp only [List.append_assoc]
          · simp only [List.length_append]
            omega

/-- A run ends in the text, at its end or where it has a fault. -/
lemma endPosition_scan (hstop : cs.length ≤ stop) :
    stop - cs.length ≤ Grammar.endPosition (scan stop cs).ending ∧
      Grammar.endPosition (scan stop cs).ending ≤ stop := by
  induction hn : cs.length using Nat.strong_induction_on generalizing cs with
  | _ n ih =>
    subst hn
    have hprogress := progresses_next hstop
    rw [scan_eq]
    cases hnext : next stop cs with
    | fault m =>
      rw [hnext] at hprogress
      exact hprogress
    | eof => exact ⟨Nat.sub_le _ _, le_rfl⟩
    | token l rest =>
      have hlt := length_next hnext
      obtain ⟨hleft, hright⟩ := ih rest.length hlt (by omega) rfl
      change _ ≤ Grammar.endPosition (scan stop rest).ending ∧
        Grammar.endPosition (scan stop rest).ending ≤ stop
      exact ⟨by omega, hright⟩

end TokenRun

lemma Token.weave_cons (part : List Char × List Char) (parts : List (List Char × List Char)) :
    weave (part :: parts) = '$' :: '\x7b' :: (part.1 ++ '\x7d' :: (part.2 ++ weave parts)) := by
  simp [weave]

/-- A hole is written among the others of its template. -/
lemma Token.written_of_holesAt {position : Nat} {parts : List (Hole × String)}
    {part : Hole × String} (h : HolesAt position parts) (hpart : part ∈ parts) :
    ∃ before after,
      weave (parts.map fun part => (part.1.source.toList, part.2.toList)) =
        before ++ '$' :: '\x7b' :: (part.1.source.toList ++ '\x7d' :: after) ∧
      part.1.position = position + before.length + 2 := by
  induction parts generalizing position with
  | nil => cases hpart
  | cons first others ih =>
    obtain ⟨hole, text⟩ := first
    obtain ⟨hposition, hothers⟩ := h
    rw [List.map_cons, weave_cons]
    cases hpart with
    | head => exact ⟨[], _, rfl, hposition⟩
    | tail _ hpart =>
      obtain ⟨before, after, htext, hplace⟩ := ih hothers hpart
      refine ⟨'$' :: '\x7b' :: (hole.source.toList ++ '\x7d' :: (text.toList ++ before)), after,
        ?_, ?_⟩
      · rw [htext]
        simp
      · simp only [List.length_cons, List.length_append] at hplace ⊢
        omega

namespace Hole

/-- In the source of the first hole there is a template with the second one. -/
def Contains (outer inner : Hole) : Prop :=
  ∃ p head parts text, ⟨p, .template head parts⟩ ∈
    (TokenRun.ofText outer.position outer.source).tokens ∧ (inner, text) ∈ parts

/-- The second hole is written in the source of the first one, between the marks that open and close
it, and its place is where its source begins. -/
def Encloses (outer inner : Hole) : Prop :=
  ∃ before after, outer.source.toList =
      before ++ '$' :: '\x7b' :: (inner.source.toList ++ '\x7d' :: after) ∧
    inner.position = outer.position + before.length + 2

/-- The place is that of a character in the source of the hole, or of the brace behind it. -/
def Spans (hole : Hole) (p : Nat) : Prop :=
  hole.position ≤ p ∧ p ≤ hole.position + hole.source.toList.length

variable {outer middle inner hole : Hole}

lemma Encloses.trans (h : outer.Encloses middle) (h' : middle.Encloses inner) :
    outer.Encloses inner := by
  obtain ⟨before, after, htext, hplace⟩ := h
  obtain ⟨before', after', htext', hplace'⟩ := h'
  refine ⟨before ++ '$' :: '\x7b' :: before', after' ++ '\x7d' :: after, ?_, ?_⟩
  · rw [htext, htext']
    simp
  · simp only [List.length_append, List.length_cons]
    omega

lemma Encloses.length_lt (h : outer.Encloses inner) :
    inner.source.toList.length < outer.source.toList.length := by
  obtain ⟨before, after, htext, _⟩ := h
  rw [htext]
  simp only [List.length_append, List.length_cons]
  omega

lemma Encloses.spans {p : Nat} (h : outer.Encloses inner) (hp : inner.Spans p) :
    outer.Spans p := by
  obtain ⟨before, after, htext, hplace⟩ := h
  obtain ⟨hleft, hright⟩ := hp
  have hlength := congrArg List.length htext
  simp only [List.length_append, List.length_cons] at hlength
  exact ⟨by omega, by omega⟩

/-- A hole is written where it says. -/
lemma encloses_of_contains (h : outer.Contains inner) : outer.Encloses inner := by
  obtain ⟨p, head, parts, text, hl, hpart⟩ := h
  obtain ⟨before, after, htext, -, hposition, hholes⟩ :=
    TokenRun.written_of_mem hl (Nat.le_add_left _ _)
  obtain ⟨before', after', hweave, hplace⟩ := Token.written_of_holesAt hholes hpart
  refine ⟨before ++ '\x60' :: (head.toList ++ before'), after' ++ '\x60' :: after, ?_, ?_⟩
  · rw [htext, Token.written, hweave]
    simp
  · simp only [List.length_append, List.length_cons] at hplace hposition ⊢
    omega

/-- A hole at any depth is written where it says. -/
lemma encloses_of_transGen (h : Relation.TransGen Contains outer inner) : outer.Encloses inner := by
  induction h with
  | single h => exact encloses_of_contains h
  | tail _ h ih => exact ih.trans (encloses_of_contains h)

/-! ## Errors -/

/-- The error stands at a token in the source of the hole, or where the reading of the source
ends. -/
def Marks (hole : Hole) (m : Malformed) : Prop :=
  (∃ l ∈ (TokenRun.ofText hole.position hole.source).tokens, m.position = l.position) ∨
    m.position = Grammar.endPosition (TokenRun.ofText hole.position hole.source).ending

/-- An error that was raised for the source of a hole: at one of its tokens or at its end, or for a
hole in it, whose own reading fails with that error. -/
inductive Raised : Hole → Malformed → Prop
  | here {hole : Hole} {m : Malformed} (hmarks : hole.Marks m) : Raised hole m
  | inside {hole inner : Hole} {m : Malformed} (hcontains : hole.Contains inner)
      (hparse : inner.parse = .error m) (h : Raised inner m) : Raised hole m

lemma spans_of_marks {m : Malformed} (h : hole.Marks m) : hole.Spans m.position := by
  have hstop : hole.source.toList.length ≤ hole.position + hole.source.toList.length :=
    Nat.le_add_left _ _
  rcases h with ⟨l, hl, hposition⟩ | hposition
  · obtain ⟨before, after, htext, -, hplace, -⟩ := TokenRun.written_of_mem hl hstop
    have hlength := congrArg List.length htext
    rw [List.length_append, List.length_append] at hlength
    -- what is written in front of the token counts from `hole.position` on
    exact ⟨by omega, by omega⟩
  · obtain ⟨hleft, hright⟩ := TokenRun.endPosition_scan hstop
    rw [Nat.add_sub_cancel] at hleft
    exact ⟨hleft.trans_eq hposition.symm, hposition.trans_le hright⟩

/-- An error that was raised for a hole stands in it. -/
lemma Raised.spans {m : Malformed} (h : hole.Raised m) : hole.Spans m.position := by
  induction h with
  | here hmarks => exact spans_of_marks hmarks
  | inside hcontains _ _ ih => exact (encloses_of_contains hcontains).spans ih

/-- An error of the rules was raised for the row of tokens or for a hole in it. -/
lemma raised_of_located {m : Malformed}
    (h : Located (TokenRun.ofText hole.position hole.source).ending
      (TokenRun.ofText hole.position hole.source).tokens m)
    (hinner : ∀ inner : Hole, hole.Contains inner → inner.parse = .error m → inner.Raised m) :
    hole.Raised m := by
  cases h with
  | atEnd hposition => exact .here (.inr hposition)
  | atToken hl hposition => exact .here (.inl ⟨_, hl, hposition⟩)
  | @inHole p head parts part hl hpart hparse =>
    have hcontains : hole.Contains part.1 := ⟨p, head, parts, part.2, hl, hpart⟩
    exact .inside hcontains hparse (hinner _ hcontains hparse)

lemma raised_of_parse {m : Malformed} (h : hole.parse = .error m) : hole.Raised m := by
  induction hn : hole.source.toList.length using Nat.strong_induction_on generalizing hole with
  | _ n ih =>
    subst hn
    -- a hole in the source is shorter than the source, so the induction is on the length
    let run := TokenRun.ofText hole.position hole.source
    have htracks := Grammar.tracks_assignment run.ending run.tokens (List.suffix_refl _)
    refine raised_of_located (Grammar.located_of_whole htracks h) fun inner hcontains hparse => ?_
    exact ih _ (encloses_of_contains hcontains).length_lt hparse rfl

end Hole

lemma RowFunction.raised_of_parse {text : String} {m : Malformed}
    (h : parse text = .error m) : Hole.Raised ⟨text, 0⟩ m := by
  let run := TokenRun.ofText 0 text
  have htracks := Grammar.tracks_function run.ending run.tokens (List.suffix_refl _)
  have hlocated : Located run.ending run.tokens m := Grammar.located_of_whole htracks h
  exact Hole.raised_of_located hlocated fun _ _ hparse => Hole.raised_of_parse hparse

/-- Where a text begins in a larger one only moves all places in it.  So an error in a row function
has its place in the text, and an error in a hole, at any depth, has its place in the text between
the first character of the hole and the brace that closes it. -/
theorem RowFunction.parse_places (text : String) :
    (∀ k, TokenRun.ofText k text = (TokenRun.ofText 0 text).shift k) ∧
    (∀ m, parse text = .error m → m.position ≤ text.toList.length ∧ Hole.Raised ⟨text, 0⟩ m) ∧
    (∀ hole, Relation.TransGen Hole.Contains ⟨text, 0⟩ hole →
      Hole.Encloses ⟨text, 0⟩ hole ∧
        ∀ m, hole.parse = .error m → hole.Spans m.position ∧ hole.Raised m) := by
  refine ⟨fun k => ?_, fun m h => ?_, fun hole hhole => ⟨Hole.encloses_of_transGen hhole, ?_⟩⟩
  · have hadd := TokenRun.scan_add k (Nat.le_add_left text.toList.length 0)
    rwa [Nat.add_right_comm, Nat.zero_add] at hadd
  · have hraised := raised_of_parse h
    exact ⟨hraised.spans.2.trans_eq (Nat.zero_add _), hraised⟩
  · intro m h
    have hraised := Hole.raised_of_parse h
    exact ⟨hraised.spans, hraised⟩

/-- A row function with a hole in a hole, where an operand is missing. -/
def nestedHole : String := "d => \x60a$\x7b\x60b$\x7b+\x7d\x60\x7d\x60"

set_option maxRecDepth 2000 in
lemma parse_nestedHole :
    RowFunction.parse nestedHole = .error ⟨.unexpectedToken .eof .expression, 14⟩ ∧
    Hole.parse ⟨"+", 13⟩ = .error ⟨.unexpectedToken .eof .expression, 14⟩ := by
  unfold RowFunction.parse Hole.parse
  constructor
  · conv in TokenRun.ofText _ _ => cbv
    cbv
  · conv in TokenRun.ofText _ _ => cbv
    cbv

set_option maxRecDepth 2000 in
lemma contains_nestedHole :
    Hole.Contains ⟨nestedHole, 0⟩ ⟨"\x60b$\x7b+\x7d\x60", 9⟩ ∧
    Hole.Contains ⟨"\x60b$\x7b+\x7d\x60", 9⟩ ⟨"+", 13⟩ := by
  constructor
  · refine ⟨5, "a", [(⟨"\x60b$\x7b+\x7d\x60", 9⟩, "")], "", ?_, List.mem_cons_self⟩
    conv in TokenRun.ofText _ _ => cbv
    simp
  · refine ⟨9, "b", [(⟨"+", 13⟩, "")], "", ?_, List.mem_cons_self⟩
    conv in TokenRun.ofText _ _ => cbv
    simp

theorem RowFunction.parse_places_nestedHole :
    parse nestedHole = .error ⟨.unexpectedToken .eof .expression, 14⟩ ∧
    14 ≤ nestedHole.toList.length ∧
    Relation.TransGen Hole.Contains ⟨nestedHole, 0⟩ ⟨"+", 13⟩ ∧
    Hole.parse ⟨"+", 13⟩ = .error ⟨.unexpectedToken .eof .expression, 14⟩ ∧
    Hole.Encloses ⟨nestedHole, 0⟩ ⟨"+", 13⟩ ∧ Hole.Spans ⟨"+", 13⟩ 14 := by
  obtain ⟨hparse, hinner⟩ := parse_nestedHole
  have hhole := Relation.TransGen.tail (.single contains_nestedHole.1) contains_nestedHole.2
  obtain ⟨-, herror, hholes⟩ := parse_places nestedHole
  obtain ⟨hencloses, hspans⟩ := hholes _ hhole
  exact ⟨hparse, (herror _ hparse).1, hhole, hinner, hencloses, (hspans _ hinner).1⟩

end RowExpr
