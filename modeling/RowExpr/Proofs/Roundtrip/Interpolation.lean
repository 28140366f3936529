/-
# Expressions in holes

The end of a hole is found by a reader that knows braces and quotes, and no comments; what stands in
the hole is then read token by token.  A text that writes an expression can be put into a hole if
the two agree on where it ends.  They do if there are no braces and no quotes in the comments of the
text: the braces among the tokens of an expression match, and quotes stand in strings and templates
only, which both read alike.

* `IsHole`: the reader of holes reads the text up to its end;
* `isHole_of_parse`: it does so for an expression with plain comments;
* `Grammar.givesIff_parse_hole`: what is then read from the hole is what the text alone is read as.
-/
import RowExpr.Proofs.Expr.Template
import RowExpr.Proofs.Grammar.Alike

namespace RowExpr

/-- A template with the text in its only hole, and nothing else. -/
def interpolated (text : String) : String :=
  "\x60$\x7b" ++ text ++ "\x7d\x60"

/-- The hole is read up to the end of the text. -/
def IsHole (text : String) : Prop :=
  ∃ position, Expr.IsToken (interpolated text) (.template "" [(⟨text, position⟩, "")])

namespace Grammar

lemma parse_eq_ok_iff {text : String} {e : Expr} :
    Expr.parse text = .ok e ↔ Whole (TokenRun.ofText 0 text) e := by
  simp only [Expr.parse, Expr.bind_eq_ok_iff, expectEnd_eq_ok_iff, pure, Except.pure,
    Except.ok.injEq]
  constructor
  · rintro ⟨_, hreach, step, hstep, _, hend, hvalue⟩
    exact ⟨hreach, step, hstep, hend, hvalue⟩
  · rintro ⟨hreach, step, hstep, hend, hvalue⟩
    exact ⟨(), hreach, step, hstep, (), hend, hvalue⟩

/-- What is read from a hole is what is read from its text alone. -/
lemma holes_singleton_eq_ok_iff {text : String} {position : Nat} {exprs : List (Expr × String)} :
    holes [(⟨text, position⟩, "")] = .ok exprs ↔
      ∃ e, Expr.parse text = .ok e ∧ [(e, "")] = exprs := by
  have hnil : ∀ es, holes [] = .ok es ↔ es = [] := by
    intro es
    rw [holes, Except.ok.injEq, eq_comm]
  have hwhole : ∀ e, Whole (TokenRun.ofText position text) e ↔ Expr.parse text = .ok e := by
    intro e
    rw [parse_eq_ok_iff]
    constructor
    · intro h
      obtain ⟨htokens, hending⟩ := TokenRun.alike_ofText position 0 text
      exact h.alike hending htokens
    · intro h
      obtain ⟨htokens, hending⟩ := TokenRun.alike_ofText 0 position text
      exact h.alike hending htokens
  rw [holes_cons_eq_ok_iff]
  simp only [hnil, hwhole, exists_eq_left, exists_and_left]

/-- If the text alone is read, or is malformed, so is the hole. -/
lemma givesIff_hole {text : String} {e : Expr} {ok : Prop} (h : GivesIff ok e (Expr.parse text))
    (position : Nat) : GivesIff ok [(e, "")] (holes [(⟨text, position⟩, "")]) := by
  refine ⟨fun hok => holes_singleton_eq_ok_iff.mpr ⟨e, h.1 hok, rfl⟩, fun hnot => ?_⟩
  obtain ⟨m, hm⟩ := h.2 hnot
  cases hholes : holes [(⟨text, position⟩, "")] with
  | error m' => exact ⟨m', rfl⟩
  | ok exprs =>
    obtain ⟨e', he', _⟩ := holes_singleton_eq_ok_iff.mp hholes
    cases hm.symm.trans he'

end Grammar

namespace TokenRun

lemma eq_of_ending_eof {stop finish : Nat} {cs : List Char}
    (h : (scan stop cs).ending = .eof finish) : finish = stop := by
  fun_induction scan stop cs with
  | case1 => cases h
  | case2 =>
    cases h
    rfl
  | case3 => cases h
  | case4 _ _ _ _ _ _ _ _ ih => exact ih h

/-- What is a hole at the start of a text is one at the end of any text. -/
lemma starts_of_isHole {text : String} (h : IsHole text) (stop : Nat) :
    ∃ position, (scan stop (interpolated text).toList).Starts
      (.template "" [(⟨text, position⟩, "")]) (scan stop []) := by
  obtain ⟨_, _, finish, h⟩ := h
  obtain ⟨htokens, hending⟩ :=
    alike_scan (0 + (interpolated text).toList.length) stop (interpolated text).toList
  rw [← ofText, h] at htokens hending
  obtain ⟨finish', hfinish⟩ := hending ⟨finish, rfl⟩
  obtain rfl := eq_of_ending_eof hfinish
  cases hrun : scan finish' (interpolated text).toList with
  | mk tokens ending =>
    rw [hrun] at htokens hfinish
    obtain rfl : ending = .eof finish' := hfinish
    -- one token on either side, and one hole in it
    obtain ⟨l, rest, hl, hrest, rfl⟩ := List.forall₂_cons_left_iff.mp htokens
    obtain rfl := List.forall₂_nil_left_iff.mp hrest
    obtain ⟨p, token⟩ := l
    obtain ⟨parts, rfl, hparts⟩ := hl.exists_template
    obtain ⟨⟨⟨source, position⟩, after⟩, others, hpart, hothers, rfl⟩ :=
      List.forall₂_cons_left_iff.mp hparts
    obtain rfl := List.forall₂_nil_left_iff.mp hothers
    obtain ⟨rfl, rfl⟩ : text = source ∧ "" = after := hpart
    exact ⟨position, p, by rw [scan_nil]; rfl⟩

end TokenRun

/-- An expression is read up to its end in a hole, if there are no braces and no quotes in the
blanks and comments between its tokens. -/
theorem isHole_of_parse {text : String} {e : Expr} (h : Expr.parse text = .ok e)
    (hgaps : ∀ gap ∈ TokenRun.gaps text.toList.length text.toList, ∀ c ∈ gap, Token.isInert c) :
    IsHole text := by
  obtain ⟨⟨finish, hending⟩, hdepth⟩ := (Grammar.parse_eq_ok_iff.mp h).balanced
  have hscan : TokenRun.scan text.toList.length text.toList =
      ⟨(TokenRun.ofText 0 text).tokens, .eof finish⟩ := by
    rw [← hending, TokenRun.ofText, Nat.zero_add]
  -- the depth behind the text is the one in front of it, whatever that is
  have hskips : Token.Skips text.toList :=
    Token.skips_of_steps fun n => TokenRun.steps_of_scan hscan le_rfl hgaps (hdepth n)
  have htext : (interpolated text).toList = '\x60' :: ("".toList ++
      (Token.weave ([(text, "")].map fun part => (part.1.toList, part.2.toList)) ++ ['\x60'])) := by
    simp [interpolated, Token.weave]
  have hchunk : Token.Chunk "".toList := .nil
  have hholes : ∀ part ∈ [(text, "")], Token.Skips part.1.toList ∧ Token.Chunk part.2.toList :=
    List.forall_mem_singleton.mpr ⟨hskips, hchunk⟩
  obtain ⟨parts, hparts, p, hstarts⟩ :=
    TokenRun.starts_template hchunk hholes (0 + (interpolated text).toList.length) []
  obtain ⟨⟨⟨source, position⟩, after⟩, rfl, hpart⟩ := List.map_eq_singleton_iff.mp hparts
  obtain ⟨rfl, rfl⟩ : source = text ∧ after = "" := Prod.mk.inj hpart
  rw [← htext, TokenRun.scan_nil] at hstarts
  exact ⟨position, p, _, hstarts⟩

namespace Grammar

theorem givesIff_parse_hole {text : String} (hhole : IsHole text) {e : Expr} {ok : Prop}
    (h : GivesIff ok e (Expr.parse text)) :
    GivesIff ok ⟨some "d", .expr (.template "" [(e, "")])⟩
      (RowFunction.parse ("d=>" ++ interpolated text)) := by
  have hname : ∀ name ∈ some "d", Token.isName name = true := by simp; decide
  refine givesIff_parse hname (fun stop => ?_) fun stop ending hending => ?_
  · obtain ⟨_, hstarts⟩ := TokenRun.starts_of_isHole hhole stop
    exact reached_of_starts hstarts
  · obtain ⟨position, hstarts⟩ := TokenRun.starts_of_isHole hhole stop
    have hfront : closes (front (TokenRun.scan stop []).tokens) := by
      rw [TokenRun.scan_nil]
      rfl
    unfold arrowBody
    rw [if_neg (by simp [startsWith_of_starts hstarts])]
    have hreads := readsIff_assignment_template hstarts (givesIff_hole h position) hfront hending
    have hok : (ok ∧ Reached (TokenRun.scan stop [])) ∧ True ↔ ok :=
      (and_iff_left trivial).trans (and_iff_left (reached_nil stop))
    refine (hreads.bind fun _ hending _ => ?_).congr hok
    exact readsIff_ok rfl rfl hending

end Grammar

/-- A template with a text in its only hole is read as a template of the expression that the text
writes alone, if the hole is read up to the end of the text.  That is so for every text that writes
an expression and has no braces and no quotes in its blanks and comments. -/
theorem RowFunction.parse_interpolated (text : String) (e : Expr) :
    (IsHole text →
        (RowFunction.parse ("d=>" ++ interpolated text) =
            .ok ⟨some "d", .expr (.template "" [(e, "")])⟩ ↔
          Expr.parse text = .ok e)) ∧
      (Expr.parse text = .ok e →
        (∀ gap ∈ TokenRun.gaps text.toList.length text.toList, ∀ c ∈ gap, Token.isInert c) →
          IsHole text) := by
  refine ⟨fun hhole => ?_, isHole_of_parse⟩
  cases hparse : Expr.parse text with
  | ok e' =>
    have hgives : Grammar.GivesIff True e' (Expr.parse text) := ⟨fun _ => hparse, nofun⟩
    rw [(Grammar.givesIff_parse_hole hhole hgives).1 trivial]
    simp
  | error m =>
    have hgives : Grammar.GivesIff False e (Expr.parse text) := ⟨nofun, fun _ => ⟨m, hparse⟩⟩
    obtain ⟨m', hm⟩ := (Grammar.givesIff_parse_hole hhole hgives).2 not_false
    rw [hm]
    exact iff_of_false nofun nofun

/-- An object with a comment behind it can be put into a hole. -/
theorem RowFunction.parse_interpolated_object :
    Expr.parse "\x7ba:b\x7d /*c*/" = .ok (.object [⟨.name "a", .identifier "b", false⟩]) ∧
      RowFunction.parse ("d=>" ++ interpolated "\x7ba:b\x7d /*c*/") =
        .ok ⟨some "d", .expr (.template ""
          [(.object [⟨.name "a", .identifier "b", false⟩], "")])⟩ := by
  have hparse : Expr.parse "\x7ba:b\x7d /*c*/" =
      .ok (.object [⟨.name "a", .identifier "b", false⟩]) := by
    unfold Expr.parse
    conv in TokenRun.ofText _ _ => cbv
    cbv
  have hgaps : TokenRun.gaps 11 "\x7ba:b\x7d /*c*/".toList =
      [[], [], [], [], [], [' ', '/', '*', 'c', '*', '/']] := by
    set_option maxRecDepth 4096 in cbv
  have hinert : ∀ gap ∈ TokenRun.gaps 11 "\x7ba:b\x7d /*c*/".toList, ∀ c ∈ gap,
      Token.isInert c := by
    rw [hgaps]
    simp [Token.isInert]
  obtain ⟨hread, hhole⟩ := RowFunction.parse_interpolated "\x7ba:b\x7d /*c*/"
    (.object [⟨.name "a", .identifier "b", false⟩])
  exact ⟨hparse, (hread (hhole hparse hinert)).mpr hparse⟩

/-- A brace in a comment closes the hole, and the comment is not closed in it. -/
theorem RowFunction.not_parse_interpolated_comment :
    Expr.parse "null/*\x7d*/" = .ok (.literal .null) ∧
      RowFunction.parse ("d=>" ++ interpolated "null/*\x7d*/") =
        .error ⟨.unclosedComment, 12⟩ := by
  have htext : "d=>" ++ interpolated "null/*\x7d*/" = "d=>\x60$\x7bnull/*\x7d*/\x7d\x60" := rfl
  constructor
  · unfold Expr.parse
    conv in TokenRun.ofText _ _ => cbv
    cbv
  · rw [htext]
    unfold RowFunction.parse
    conv in TokenRun.ofText _ _ => cbv
    cbv

end RowExpr
