/-
# The layout of a text

A text that can be read to its end is its tokens as they are written, with gaps of blanks and
comments between them: nothing else stands in it, and nothing of it is lost.  Each token knows where
it starts, and each hole of a template knows where its source starts.

* `Token.skipsGap_skipGap` and `Token.Leaves.gap`: what is skipped is a gap, and a gap is skipped;
* `Token.laidToken_of_scans`: what is read as a token is the token as it is written;
* `TokenRun.laid_of_eof`: the layout of the whole text.
-/
import RowExpr.Proofs.Token.Run
import Mathlib

namespace RowExpr

/-! ## Gaps -/

/-- Texts that separate tokens: blanks and whole comments.  A comment may end with the text instead
of a line feed, but then the gap is the last one. -/
inductive IsGap (last : Bool) : List Char → Prop
  | nil : IsGap last []
  | blank {c : Char} {gap : List Char} (hc : Text.isBlank c = true) (hgap : IsGap last gap) :
      IsGap last (c :: gap)
  | line {text gap : List Char} (htext : '\n' ∉ text) (hgap : IsGap last gap) :
      IsGap last ('/' :: '/' :: (text ++ '\n' :: gap))
  | block {text gap : List Char} (htext : ¬ ['*', '/'] <:+: text) (hgap : IsGap last gap) :
      IsGap last ('/' :: '*' :: (text ++ '*' :: '/' :: gap))
  | unended {text : List Char} (hlast : last = true) (htext : '\n' ∉ text) :
      IsGap last ('/' :: '/' :: text)

namespace Token

/-- What is skipped from inside a line comment or a block comment, or from outside of both. -/
def Skipped (last : Bool) : Gap → List Char → Prop
  | .blanks, cs => IsGap last cs
  | .lineComment, cs =>
    (∃ text gap, cs = text ++ '\n' :: gap ∧ '\n' ∉ text ∧ IsGap last gap) ∨
      last = true ∧ '\n' ∉ cs
  | .blockComment, cs =>
    ∃ text gap, cs = text ++ '*' :: '/' :: gap ∧ ¬ ['*', '/'] <:+: text ∧ IsGap last gap

variable {last : Bool} {cs : List Char} {c : Char}

lemma Skipped.blank (h : Skipped last .blanks cs) (hc : Text.isBlank c = true) :
    Skipped last .blanks (c :: cs) :=
  IsGap.blank hc h

lemma Skipped.line (h : Skipped last .lineComment cs) :
    Skipped last .blanks ('/' :: '/' :: cs) := by
  rcases h with ⟨text, gap, rfl, htext, hgap⟩ | ⟨hlast, htext⟩
  · exact IsGap.line htext hgap
  · exact IsGap.unended hlast htext

lemma Skipped.block (h : Skipped last .blockComment cs) :
    Skipped last .blanks ('/' :: '*' :: cs) := by
  obtain ⟨text, gap, rfl, htext, hgap⟩ := h
  exact IsGap.block htext hgap

/-- A line comment goes on up to a line feed. -/
lemma Skipped.inLine (h : Skipped last (if c = '\n' then .blanks else .lineComment) cs) :
    Skipped last .lineComment (c :: cs) := by
  by_cases hc : c = '\n'
  · rw [if_pos hc] at h
    exact .inl ⟨[], cs, by rw [hc, List.nil_append], List.not_mem_nil, h⟩
  · rw [if_neg hc] at h
    rcases h with ⟨text, gap, rfl, htext, hgap⟩ | ⟨hlast, htext⟩
    · exact .inl ⟨c :: text, gap, rfl, List.not_mem_cons_of_ne_of_not_mem (Ne.symm hc) htext, hgap⟩
    · exact .inr ⟨hlast, List.not_mem_cons_of_ne_of_not_mem (Ne.symm hc) htext⟩

/-- A block comment goes on up to a star and a slash. -/
lemma Skipped.inBlock (h : Skipped last .blockComment cs)
    (hc : c = '*' → cs.head? ≠ some '/') : Skipped last .blockComment (c :: cs) := by
  obtain ⟨text, gap, rfl, htext, hgap⟩ := h
  refine ⟨c :: text, gap, rfl, fun hinfix => ?_, hgap⟩
  rcases List.infix_cons_iff.mp hinfix with hstart | hinner
  · -- `c` is no star in front of a slash
    obtain ⟨rfl, hslash⟩ := List.cons_prefix_cons.mp hstart
    obtain ⟨more, rfl⟩ := hslash
    exact hc rfl rfl
  · exact htext hinner

lemma Skipped.endBlock (h : Skipped last .blanks cs) :
    Skipped last .blockComment ('*' :: '/' :: cs) :=
  ⟨[], cs, rfl, by simp, h⟩

/-- All that is skipped from `cs` on, for a reader that is inside of `mode`, is a gap, and it is the
last one only if nothing is left. -/
def SkipsGap (mode : Gap) (result : Except ScanFault { rest : List Char // rest <:+ cs }) : Prop :=
  ∀ left, result = .ok left → ∃ gap, gap ++ left.1 = cs ∧ Skipped left.1.isEmpty mode gap

/-- A reader that goes on behind `front` skips `front` as well. -/
lemma SkipsGap.step {mode mode' : Gap} {r : List Char}
    {result : Except ScanFault { rest : List Char // rest <:+ r }} (h : SkipsGap mode' result)
    (front : List Char)
    (hstep : ∀ last gap rest, gap ++ rest = r → Skipped last mode' gap →
      Skipped last mode (front ++ gap))
    {hsuffix : ∀ rest, rest <:+ r → rest <:+ front ++ r} :
    SkipsGap mode (do
      let ⟨rest, hrest⟩ ← result
      return ⟨rest, hsuffix rest hrest⟩ : Except ScanFault _) := by
  intro left hleft
  cases hresult : result with
  | error f =>
    rw [hresult] at hleft
    cases hleft
  | ok inner =>
    rw [hresult] at hleft
    obtain ⟨gap, hr, hgap⟩ := h inner hresult
    have hrest : inner.1 = left.1 := congrArg Subtype.val (Except.ok.inj hleft)
    rw [hrest] at hr hgap
    exact ⟨front ++ gap, by rw [List.append_assoc, hr], hstep _ _ _ hr hgap⟩

lemma skipsGap_stay {mode : Gap} (h : Skipped cs.isEmpty mode []) :
    SkipsGap mode (.ok ⟨cs, List.suffix_refl cs⟩) := by
  intro left hleft
  cases hleft
  exact ⟨[], rfl, h⟩

/-- What is skipped is a gap. -/
theorem skipsGap_skipGap (mode : Gap) (cs : List Char) : SkipsGap mode (skipGap mode cs) := by
  fun_induction skipGap mode cs with
  | case1 r ih => exact ih.step ['/', '/'] fun _ _ _ _ h => h.line
  | case2 r ih => exact ih.step ['/', '*'] fun _ _ _ _ h => h.block
  | case3 c r _ _ hc ih => exact ih.step [c] fun _ _ _ _ h => h.blank hc
  | case4 c r => exact skipsGap_stay .nil
  | case5 c r ih => exact ih.step [c] fun _ _ _ _ h => h.inLine
  | case6 r ih => exact ih.step ['*', '/'] fun _ _ _ _ h => h.endBlock
  | case7 c r hc ih =>
    refine ih.step [c] fun _ gap rest hr h => h.inBlock fun hstar hslash => ?_
    obtain ⟨gap', rfl⟩ := List.head?_eq_some_iff.mp hslash
    exact hc (gap' ++ rest) hstar hr.symm
  | case8 =>
    intro left hleft
    cases hleft
  | case9 => exact skipsGap_stay .nil
  | case10 => exact skipsGap_stay (.inr ⟨rfl, List.not_mem_nil⟩)

/-! In the other direction, a gap is skipped whole. -/

/-- A reader that is inside of `mode` skips all but `rest`. -/
def Leaves (mode : Gap) (cs rest : List Char) : Prop :=
  ∃ suffix, skipGap mode cs = .ok ⟨rest, suffix⟩

variable {r rest : List Char}

lemma Leaves.line (h : Leaves .lineComment r rest) : Leaves .blanks ('/' :: '/' :: r) rest := by
  obtain ⟨suffix, h⟩ := h
  rw [Leaves, skipGap, h]
  exact ⟨_, rfl⟩

lemma Leaves.block (h : Leaves .blockComment r rest) : Leaves .blanks ('/' :: '*' :: r) rest := by
  obtain ⟨suffix, h⟩ := h
  rw [Leaves, skipGap, h]
  exact ⟨_, rfl⟩

lemma Leaves.blank (h : Leaves .blanks r rest) (hc : Text.isBlank c = true) :
    Leaves .blanks (c :: r) rest := by
  obtain ⟨suffix, h⟩ := h
  rw [Leaves, skipGap_blank hc, h]
  exact ⟨_, rfl⟩

lemma Leaves.inLine (h : Leaves (if c = '\n' then .blanks else .lineComment) r rest) :
    Leaves .lineComment (c :: r) rest := by
  obtain ⟨suffix, h⟩ := h
  rw [Leaves, skipGap, h]
  exact ⟨_, rfl⟩

lemma Leaves.endBlock (h : Leaves .blanks r rest) :
    Leaves .blockComment ('*' :: '/' :: r) rest := by
  obtain ⟨suffix, h⟩ := h
  rw [Leaves, skipGap, h]
  exact ⟨_, rfl⟩

lemma Leaves.inBlock (h : Leaves .blockComment r rest) (hc : c = '*' → r.head? ≠ some '/') :
    Leaves .blockComment (c :: r) rest := by
  obtain ⟨suffix, h⟩ := h
  rw [Leaves, skipGap, h]
  · exact ⟨_, rfl⟩
  · rintro r' rfl rfl
    exact hc rfl rfl

lemma Leaves.lineText {text : List Char} (htext : '\n' ∉ text) (h : Leaves .lineComment r rest) :
    Leaves .lineComment (text ++ r) rest := by
  induction text with
  | nil => exact h
  | cons c text ih =>
    rw [List.mem_cons, not_or] at htext
    refine Leaves.inLine ?_
    rw [if_neg (Ne.symm htext.1)]
    exact ih htext.2

lemma Leaves.blockText {text : List Char} (htext : ¬ ['*', '/'] <:+: text)
    (h : Leaves .blanks r rest) : Leaves .blockComment (text ++ '*' :: '/' :: r) rest := by
  induction text with
  | nil => exact h.endBlock
  | cons c text ih =>
    refine (ih fun hinner => htext (hinner.trans (List.suffix_cons c text).isInfix)).inBlock ?_
    rintro rfl hslash
    cases text with
    | nil => exact absurd (Option.some.inj hslash) (by decide)
    | cons d text =>
      obtain rfl : d = '/' := Option.some.inj hslash
      exact htext ⟨[], text, rfl⟩

lemma leaves_nil : Leaves .blanks [] [] := ⟨List.suffix_refl _, by rw [skipGap]⟩

/-- A gap is skipped whole; one that may only be the last must be so. -/
lemma Leaves.gap {gap : List Char} (hgap : IsGap last gap) (hlast : last = true → r = [])
    (h : Leaves .blanks r rest) : Leaves .blanks (gap ++ r) rest := by
  induction hgap with
  | nil => exact h
  | blank hc _ ih => exact ih.blank hc
  | @line text gap htext _ ih =>
    have hassoc : '/' :: '/' :: (text ++ '\n' :: gap) ++ r =
        '/' :: '/' :: (text ++ '\n' :: (gap ++ r)) := by simp
    rw [hassoc]
    exact (Leaves.lineText htext (Leaves.inLine (by rwa [if_pos rfl]))).line
  | @block text gap htext _ ih =>
    have hassoc : '/' :: '*' :: (text ++ '*' :: '/' :: gap) ++ r =
        '/' :: '*' :: (text ++ '*' :: '/' :: (gap ++ r)) := by simp
    rw [hassoc]
    exact (ih.blockText htext).block
  | @unended text hend htext =>
    obtain rfl := hlast hend
    obtain ⟨_, hrest⟩ := h
    rw [skipGap] at hrest
    cases hrest
    have hnone : Leaves .lineComment [] [] := ⟨List.suffix_refl _, by rw [skipGap]⟩
    exact (hnone.lineText htext).line

/-! ## Tokens as they are written -/

/-- A token as it is written. -/
def written : Token → List Char
  | .number _ raw | .string _ raw => raw.toList
  | .template head parts =>
    '\x60' :: (head.toList ++
      (weave (parts.map fun part => (part.1.source.toList, part.2.toList)) ++ ['\x60']))
  | .boolean true => "true".toList
  | .boolean false => "false".toList
  | .null => "null".toList
  | .identifier name => name.toList
  | .keyword word => word.spelling.toList
  | .punct mark => mark.spelling.toList
  | .assign op => op.spelling.toList
  | .eof => []

/-- The holes of a template know where their sources start, if the first of them opens at
`position`. -/
def HolesAt (position : Nat) : List (Hole × String) → Prop
  | [] => True
  | (hole, text) :: rest =>
    hole.position = position + 2 ∧
      HolesAt (position + 2 + hole.source.toList.length + 1 + text.toList.length) rest

/-- The holes of a token that starts at `position` know where their sources start. -/
def KnowsHoles (position : Nat) : Token → Prop
  | .template head parts => HolesAt (position + 1 + head.toList.length) parts
  | _ => True

lemma written_ofWord (word : String) : (ofWord word).written = word.toList := by
  unfold ofWord
  split
  · rfl
  · rfl
  · rfl
  · split
    case h_1 k hk => exact congrArg String.toList (spelling_of_ofWord? hk)
    case h_2 => rfl

lemma knowsHoles_ofWord (position : Nat) (word : String) : (ofWord word).KnowsHoles position := by
  unfold ofWord
  split
  · trivial
  · trivial
  · trivial
  · split <;> trivial

/-- A mark is written as the table says. -/
lemma written_of_symbolAt? {spelling : List Char} {token : Token}
    (h : symbolAt? cs = some (spelling, .token token)) :
    token.written = spelling ∧ spelling ≠ [] ∧ spelling <+: cs := by
  have hwritten : token.written = spelling := by
    obtain ⟨mark, rfl, rfl⟩ | ⟨op, rfl, rfl⟩ := mark_of_symbolAt? h
    · rfl
    · rfl
  have hnonempty : ∀ s ∈ symbols, s.1 ≠ [] := by decide
  have hne := hnonempty _ (List.mem_of_find?_eq_some h)
  have hstart : spelling.isPrefixOf cs = true := by simpa using List.find?_some h
  exact ⟨hwritten, hne, List.isPrefixOf_iff_prefix.mp hstart⟩

lemma knowsHoles_of_symbolAt? {spelling : List Char} {token : Token}
    (h : symbolAt? cs = some (spelling, .token token)) (position : Nat) :
    token.KnowsHoles position := by
  obtain ⟨mark, rfl, _⟩ | ⟨op, rfl, _⟩ := mark_of_symbolAt? h
  · trivial
  · trivial

/-! ## Templates -/

/-- What is read of a hole is all up to the brace that closes it. -/
lemma hole_append_of_scans {depth : Nat} {value rest : List Char}
    (h : Scans (scanHole depth cs) value rest) : value ++ '\x7d' :: rest = cs := by
  induction hn : cs.length using Nat.strong_induction_on generalizing depth cs value rest with
  | _ n ih =>
    subst hn
    cases cs with
    | nil => simp [scanHole] at h
    | cons c r =>
      have hplain : ∀ {depth' : Nat}, Scans (do
          let s ← scanHole depth' r
          return (s.map (c :: ·)).after c) value rest → value ++ '\x7d' :: rest = c :: r := by
        intro depth' h
        obtain ⟨value', left, _, hvalue, h⟩ := scans_bind_ok.1 h
        obtain ⟨rfl, rfl⟩ := scans_ok.1 h
        exact congrArg (c :: ·) (ih r.length (by simp) hvalue rfl)
      have hinner : ∀ {α : Type} {inner : Scanned r α}, Scans (do
          let s ← scanHole depth inner.rest
          return ((s.map (c :: inner.lexeme ++ ·)).within inner.suffix).after c) value rest →
            value ++ '\x7d' :: rest = c :: r := by
        intro α inner h
        obtain ⟨value', left, _, hvalue, h⟩ := scans_bind_ok.1 h
        obtain ⟨rfl, rfl⟩ := scans_ok.1 h
        have hlt : inner.rest.length < (c :: r).length := Nat.lt_succ_of_le inner.length_le
        have hrest : value' ++ '\x7d' :: left = inner.rest :=
          ih inner.rest.length hlt hvalue rfl
        change c :: inner.lexeme ++ value' ++ '\x7d' :: left = c :: r
        rw [List.append_assoc, hrest, List.cons_append, inner.lexeme_append]
      rw [scanHole.eq_def] at h
      dsimp only at h
      split_ifs at h with hopen hclose hquote hback
      · exact hplain h
      · cases depth with
        | zero =>
          obtain ⟨rfl, rfl⟩ := scans_ok.1 h
          rw [hclose]
          rfl
        | succ depth => exact hplain h
      · obtain ⟨inner, -, h⟩ := scans_bind.1 h
        exact hinner h
      · obtain ⟨inner, -, h⟩ := scans_bind.1 h
        exact hinner h
      · exact hplain h

/-- A template between its backquotes, as it is written. -/
def RawTemplate.text (t : RawTemplate) : List Char :=
  t.head ++ weave (t.parts.map fun part => (part.1.source, part.2))

@[simp] lemma RawTemplate.text_prepend (text : List Char) (t : RawTemplate) :
    (t.prepend text).text = text ++ t.text :=
  List.append_assoc _ _ _

@[simp] lemma RawTemplate.text_open (hole : RawHole) (t : RawTemplate) :
    (t.open hole).text = '$' :: '\x7b' :: (hole.source ++ '\x7d' :: t.text) := by
  simp [RawTemplate.open, RawTemplate.text, weave]

/-- The text `cs`, which ends at `stop`, is a template with its closing backquote and then `rest`,
and the holes know where they start. -/
structure ReadAs (stop : Nat) (cs : List Char) (t : RawTemplate) (rest : List Char) : Prop where
  text : t.text ++ '\x60' :: rest = cs
  holes : HolesAt (stop - cs.length + t.head.length) (t.parts.map (placeHole stop))

lemma ReadAs.prepend {stop : Nat} {t : RawTemplate} {rest : List Char} (h : ReadAs stop cs t rest)
    (front : List Char) (hstop : (front ++ cs).length ≤ stop) :
    ReadAs stop (front ++ cs) (t.prepend front) rest where
  text := by rw [RawTemplate.text_prepend, List.append_assoc, h.text]
  holes := by
    have hposition : stop - (front ++ cs).length + (front ++ t.head).length =
        stop - cs.length + t.head.length := by
      rw [List.length_append] at hstop ⊢
      rw [List.length_append]
      omega
    simp only [RawTemplate.prepend]
    rw [hposition]
    exact h.holes

lemma ReadAs.open {stop : Nat} {t : RawTemplate} {source rest : List Char}
    (h : ReadAs stop cs t rest)
    (hstop : ('$' :: '\x7b' :: (source ++ '\x7d' :: cs)).length ≤ stop) :
    ReadAs stop ('$' :: '\x7b' :: (source ++ '\x7d' :: cs))
      (t.open ⟨source, (source ++ '\x7d' :: cs).length⟩) rest where
  text := by
    rw [RawTemplate.text_open, ← h.text]
    simp
  holes := by
    simp only [List.length_cons, List.length_append] at hstop
    have hposition : stop - (source.length + (cs.length + 1) + 1 + 1) + 0 + 2 + source.length + 1 +
        t.head.length = stop - cs.length + t.head.length := by omega
    simp only [RawTemplate.open, List.map_cons, placeHole, HolesAt, List.length_cons,
      List.length_append, List.length_nil, String.toList_ofList]
    refine ⟨by omega, ?_⟩
    rw [hposition]
    exact h.holes

/-- What is read of a template is all up to the backquote that closes it. -/
lemma readAs_of_scans {stop : Nat} {t : RawTemplate} {rest : List Char}
    (h : Scans (scanTemplate cs) t rest) (hstop : cs.length ≤ stop) : ReadAs stop cs t rest := by
  induction hn : cs.length using Nat.strong_induction_on generalizing cs t rest with
  | _ n ih =>
    subst hn
    cases cs with
    | nil => simp [scanTemplate] at h
    | cons c r =>
      have hr : r.length + 1 ≤ stop := hstop
      rw [scanTemplate.eq_def] at h
      dsimp only at h
      split_ifs at h with hquote hslash hhole
      · obtain ⟨rfl, rfl⟩ := scans_ok.1 h
        rw [hquote]
        exact ⟨rfl, trivial⟩
      · cases r with
        | nil => simp at h
        | cons d r' =>
          obtain ⟨t', left, _, ht, h⟩ := scans_bind_ok.1 h
          obtain ⟨rfl, rfl⟩ := scans_ok.1 h
          rw [List.length_cons] at hr
          have hread := ih r'.length (by simp only [List.length_cons]; omega) ht (by omega) rfl
          exact hread.prepend [c, d] hstop
      · obtain ⟨source, left, hsuffix, hsource, h⟩ := scans_bind_ok.1 h
        obtain ⟨t', left', _, ht, h⟩ := scans_bind_ok.1 h
        obtain ⟨rfl, rfl⟩ := scans_ok.1 h
        obtain ⟨tail, rfl⟩ := List.head?_eq_some_iff.mp hhole.2
        obtain rfl : _ = tail := hole_append_of_scans hsource
        rw [hhole.1] at hstop ⊢
        change Scans (scanTemplate left) t' left' at ht
        have hlength : left.length + 3 ≤ stop := by
          simp only [List.length_cons, List.length_append] at hstop
          omega
        refine (ih left.length ?_ ht (by omega) rfl).open hstop
        simp only [List.length_cons, List.length_append]
        omega
      · obtain ⟨t', left, _, ht, h⟩ := scans_bind_ok.1 h
        obtain ⟨rfl, rfl⟩ := scans_ok.1 h
        have hread := ih r.length (by simp) ht (by omega) rfl
        exact hread.prepend [c] hstop

/-! ## Single tokens -/

/-- The text `cs`, which ends at `stop`, is the token as it is written and then `rest`. -/
structure LaidToken (stop : Nat) (cs : List Char) (token : Token) (rest : List Char) : Prop where
  nonempty : token.written ≠ []
  text : token.written ++ rest = cs
  holes : token.KnowsHoles (stop - cs.length)

/-- What is read as a token is the token as it is written. -/
theorem laidToken_of_scans {stop : Nat} {r rest : List Char} {token : Token}
    (h : Scans (scanToken stop c r) token rest) (hstop : r.length + 1 ≤ stop) :
    LaidToken stop (c :: r) token rest := by
  unfold scanToken at h
  split_ifs at h with hquote hback hname hnumber
  · obtain ⟨s, -, h⟩ := scans_bind.1 h
    obtain ⟨rfl, rfl⟩ := scans_ok.1 h
    refine ⟨?_, ?_, trivial⟩
    · simp [written]
    · simp [written, s.lexeme_append]
  · obtain ⟨t, left, _, ht, h⟩ := scans_bind_ok.1 h
    obtain ⟨rfl, rfl⟩ := scans_ok.1 h
    have hread := readAs_of_scans ht (Nat.le_of_succ_le hstop)
    rw [hback]
    have hwritten : (ofTemplate stop t).written = '\x60' :: (t.text ++ ['\x60']) := by
      simp [ofTemplate, written, RawTemplate.text, placeHole, Function.comp_def]
    refine ⟨by simp [hwritten], ?_, ?_⟩
    · change (ofTemplate stop t).written ++ left = _
      rw [hwritten, ← hread.text]
      simp
    · have hposition : stop - (r.length + 1) + 1 + t.head.length =
          stop - r.length + t.head.length := by omega
      change HolesAt (stop - (r.length + 1) + 1 + (String.ofList t.head).toList.length) _
      rw [String.toList_ofList, hposition]
      exact hread.holes
  · obtain ⟨rfl, rfl⟩ := scans_ok.1 h
    refine ⟨?_, ?_, knowsHoles_ofWord _ _⟩
    · simp [written_ofWord]
    · simp [written_ofWord]
  · obtain ⟨body, value, rfl, -, rfl⟩ := numberBody_of_scans_number hnumber h
    refine ⟨?_, ?_, trivial⟩
    · simp [written]
    · simp [written]
  · split at h
    case h_1 spelling token' hsymbol =>
      obtain ⟨rfl, rfl⟩ := scans_ok.1 h
      obtain ⟨hwritten, hne, hprefix⟩ := written_of_symbolAt? hsymbol
      refine ⟨by rwa [hwritten], ?_, knowsHoles_of_symbolAt? hsymbol _⟩
      rw [hwritten]
      obtain ⟨rest, hrest⟩ := hprefix
      obtain _ | ⟨d, spelling'⟩ := spelling
      · exact absurd rfl hne
      · obtain ⟨rfl, rfl⟩ := List.cons.inj hrest
        simp
    case h_2 => exact absurd h not_scans_error
    case h_3 => exact absurd h not_scans_error

end Token

/-! ## Whole texts -/

/-- A text whose first character has the given position is a gap, a token as it is written, a gap,
and so on up to a last gap. -/
inductive Laid : (position : Nat) → List Lexeme → List Char → Prop
  | last {position : Nat} {gap : List Char} (hgap : IsGap true gap) : Laid position [] gap
  | token {position : Nat} {gap : List Char} {l : Lexeme} {rest : List Lexeme} {cs : List Char}
      (hgap : IsGap false gap) (hposition : l.position = position + gap.length)
      (hnonempty : l.token.written ≠ []) (hholes : l.token.KnowsHoles l.position)
      (hrest : Laid (l.position + l.token.written.length) rest cs) :
      Laid position (l :: rest) (gap ++ (l.token.written ++ cs))

namespace TokenRun

/-- Blanks and comments at the end of a text are skipped. -/
lemma scan_of_isGap {stop : ℕ} {gap : List Char} (h : IsGap true gap) :
    scan stop gap = ⟨[], .eof stop⟩ := by
  have hleaves := Token.leaves_nil.gap h fun _ => rfl
  rw [List.append_nil] at hleaves
  obtain ⟨suffix, hskip⟩ := hleaves
  rw [scan, hskip]

/-- The part of a text from any place on that can be read to its end is laid out from there on. -/
lemma laid_of_scan {stop finish : Nat} {cs : List Char} {tokens : List Lexeme}
    (h : scan stop cs = ⟨tokens, .eof finish⟩) (hstop : cs.length ≤ stop) :
    finish = stop ∧ Laid (stop - cs.length) tokens cs := by
  induction hn : cs.length using Nat.strong_induction_on generalizing cs tokens with
  | _ n ih =>
    subst hn
    have hskips := Token.skipsGap_skipGap .blanks cs
    rw [scan] at h
    split at h
    case h_1 => cases h
    case h_2 hskip =>
      obtain ⟨gap, hcs, hgap⟩ := hskips _ hskip
      rw [List.append_nil] at hcs
      cases h
      exact ⟨rfl, .last (hcs ▸ hgap)⟩
    case h_3 c r suffix hskip =>
      obtain ⟨gap, hcs, hgap⟩ := hskips _ hskip
      dsimp only at h hcs
      split at h
      case h_1 => cases h
      case h_2 s hs =>
        have hlength : gap.length + (r.length + 1) = cs.length := by
          rw [← hcs, List.length_append, List.length_cons]
        have htoken := Token.laidToken_of_scans ⟨s.suffix, hs⟩ (by omega)
        have hwritten : s.value.written.length + s.rest.length = r.length + 1 := by
          rw [← List.length_append, htoken.text, List.length_cons]
        cases hrun : scan stop s.rest with
        | mk tokens' ending =>
          rw [hrun] at h
          cases h
          have hne : 0 < s.value.written.length := List.length_pos_iff.mpr htoken.nonempty
          obtain ⟨hfinish, hrest⟩ := ih s.rest.length (by omega) hrun (by omega) rfl
          refine ⟨hfinish, ?_⟩
          -- behind the token the text goes on where the token ends
          have hnext : stop - (r.length + 1) + s.value.written.length = stop - s.rest.length := by
            omega
          have hposition : stop - (r.length + 1) = stop - cs.length + gap.length := by omega
          have hlaid : Laid (stop - cs.length) (⟨stop - (r.length + 1), s.value⟩ :: tokens')
              (gap ++ (s.value.written ++ s.rest)) :=
            .token hgap hposition htoken.nonempty htoken.holes (by rwa [hnext])
          rwa [htoken.text, hcs] at hlaid

/-- A text that can be read to its end is its tokens as they are written, with gaps of blanks and
comments between them. -/
theorem laid_of_eof {offset stop : Nat} {text : String} {tokens : List Lexeme}
    (h : ofText offset text = ⟨tokens, .eof stop⟩) :
    stop = offset + text.toList.length ∧ Laid offset tokens text.toList := by
  have hscan := laid_of_scan h (Nat.le_add_left _ _)
  rwa [Nat.add_sub_cancel] at hscan

/-- The tokens of a template behind a comment, in a text that ends in another comment. -/
def commentedTemplate : List Lexeme :=
  [⟨3, .identifier "a"⟩, ⟨10, .punct .plus⟩, ⟨11, .template "p" [(⟨"b", 15⟩, "q")]⟩]

theorem laid_of_eof_commentedTemplate :
    ofText 3 "a /*x*/+\x60p$\x7bb\x7dq\x60//z" = ⟨commentedTemplate, .eof 22⟩ ∧
    Laid 3 commentedTemplate "a /*x*/+\x60p$\x7bb\x7dq\x60//z".toList := by
  have h : ofText 3 "a /*x*/+\x60p$\x7bb\x7dq\x60//z" = ⟨commentedTemplate, .eof 22⟩ := by cbv
  exact ⟨h, (laid_of_eof h).2⟩

end TokenRun

end RowExpr
