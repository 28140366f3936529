/-
# Space around tokens

Where a token ends is seen from the one character behind it.  So a token is read again in front of
another text, if that text begins with the same character or with a blank.  It follows that blanks
may be put in front of the tokens of a text and behind them, and the same tokens are read.

* `Token.endsBefore_of_symbolAt?`: a mark is the longest one that stands in its place;
* `TokenRun.starts_of_beginsLike`: a token is read again in front of another text;
* `TokenRun.alike_of_spread`: the tokens of a text with more space in it.
-/
import RowExpr.Proofs.Token.Alike
import RowExpr.Proofs.Token.Braces
import RowExpr.Proofs.Token.Next

namespace RowExpr

/-- The text `rest'` begins with a blank, or as `rest` does. -/
def BeginsLike (rest rest' : List Char) : Prop :=
  ∀ c, rest'.head? = some c → Text.isBlank c = true ∨ rest.head? = some c

lemma BeginsLike.refl (rest : List Char) : BeginsLike rest rest := fun _ hc => .inr hc

/-- What no blank has, and not the first character of `rest`, that of `rest'` has not either. -/
lemma BeginsLike.eq_false {rest rest' : List Char} (h : BeginsLike rest rest') {p : Char → Bool}
    (hblank : ∀ c, Text.isBlank c = true → p c = false)
    (hrest : ∀ c, rest.head? = some c → p c = false) {c : Char} (hc : rest'.head? = some c) :
    p c = false := by
  rcases h c hc with hc | hc
  · exact hblank c hc
  · exact hrest c hc

namespace Token

open RowExpr.Number (isDigit)

variable {c : Char} {r rest rest' : List Char} {token : Token}

/-! ## Blanks end tokens -/

lemma isNameStart_eq_false_of_isBlank (h : Text.isBlank c = true) : isNameStart c = false := by
  by_contra hname
  rw [isBlank_eq_false_of_isNameStart (by simpa using hname)] at h
  cases h

lemma isDigit_eq_false_of_isBlank (h : Text.isBlank c = true) : isDigit c = false := by
  by_contra hdigit
  rw [(startsToken_of_isDigit (by simpa using hdigit) []).1.1] at h
  cases h

lemma isNamePart_eq_false_of_isBlank (h : Text.isBlank c = true) : isNamePart c = false := by
  have hscore : c ≠ '_' := by
    rintro rfl
    exact absurd h (by decide)
  have hdollar : c ≠ '$' := by
    rintro rfl
    exact absurd h (by decide)
  simp [isNamePart, Text.isAlphabetic_eq_false_of_isBlank h, Text.isNumeric_eq_false_of_isBlank h,
    hscore, hdollar]

lemma isMarkTail_eq_false_of_isBlank (h : Text.isBlank c = true) : isMarkTail c = false := by
  have htails : ∀ c ∈ "=><*+-&|?./".toList, Text.isBlank c = false :=
    forall_mem_of_all (by decide)
  by_contra htail
  rw [Bool.not_eq_false] at htail
  rw [htails c (by simpa [isMarkTail] using htail)] at h
  cases h

/-! ## Numbers -/

/-- A number is read again, if no point follows that could belong to it. -/
lemma scans_number_of_beginsLike (hfirst : isDigit c ∨ c = '.' ∧ r.head?.any isDigit)
    (h : Scans (scanNumber c r) token rest) (hlike : BeginsLike rest rest') :
    ∃ body, r = body ++ rest ∧ Scans (scanNumber c (body ++ rest')) token rest' := by
  obtain ⟨⟨value, hvalue⟩, hends⟩ := value_of_scans_number h
  obtain ⟨body, value', rfl, hbody, rfl⟩ := numberBody_of_scans_number hfirst h
  have hends' : EndsNumber rest' := fun d hd =>
    ⟨hlike.eq_false (fun _ => isNameStart_eq_false_of_isBlank) (fun e he => (hends e he).1) hd,
      hlike.eq_false (fun _ => isDigit_eq_false_of_isBlank) (fun e he => (hends e he).2) hd⟩
  refine ⟨body, rfl, scans_number_of_value (scans_value_of_ends hbody hends' ?_) hends'⟩
  intro hdot hne
  by_contra hdigits
  have hc : isDigit c := hfirst.resolve_right fun h => hne h.1
  rcases hlike '.' hdot with hblank | hhead
  · exact absurd hblank (by decide)
  · obtain ⟨tail, rfl⟩ := List.head?_eq_some_iff.mp hhead
    refine not_scans_value_before_point hc (fun d hd => ?_) hvalue
    by_contra hd'
    exact hdigits ⟨d, hd, by simpa using hd'⟩

/-! ## Marks -/

/-- In the table no spelling stands in front of a longer one that begins with it. -/
lemma pairwise_symbols : symbols.Pairwise fun s s' => s.1.isPrefixOf s'.1 = false := by
  decide +kernel

/-- What begins a spelling is one itself. -/
lemma mem_symbols_of_prefix : ∀ s ∈ symbols, ∀ n < s.1.length, 0 < n →
    s.1.take n ∈ symbols.map Prod.fst := by
  decide +kernel

/-- The spelling that is found is the longest that stands there. -/
lemma continuesMark_of_symbolAt? {spelling : List Char} {symbol : Symbol}
    (h : symbolAt? (spelling ++ c :: r) = some (spelling, symbol)) :
    continuesMark spelling c = false := by
  by_contra hcontinues
  obtain ⟨s, hs, hsplit⟩ := prefix_of_continuesMark (by simpa using hcontinues)
  -- the spelling and the next character are a spelling as well
  obtain ⟨⟨spelling', symbol'⟩, hs', rfl : spelling' = spelling ++ [c]⟩ :
      ∃ s' ∈ symbols, s'.1 = spelling ++ [c] := by
    rw [← List.mem_map]
    rcases hsplit.length_le.lt_or_eq with hlt | heq
    · have htake := mem_symbols_of_prefix s hs _ hlt (by simp)
      rwa [← List.prefix_iff_eq_take.mp hsplit] at htake
    · rw [hsplit.eq_of_length heq]
      exact List.mem_map_of_mem hs
  -- so it would have been found first
  obtain ⟨_, front, back, htable, hfront⟩ := List.find?_eq_some_iff_append.mp h
  have hmatches : (spelling ++ [c]).isPrefixOf (spelling ++ c :: r) = true := by
    rw [List.isPrefixOf_iff_prefix]
    exact ⟨r, by simp⟩
  have hpairwise := pairwise_symbols
  rw [htable] at hs' hpairwise
  rcases List.mem_append.mp hs' with hmem | hmem
  · have hnot := hfront _ hmem
    dsimp only at hnot
    rw [hmatches] at hnot
    cases hnot
  · rcases List.mem_cons.mp hmem with heq | hmem
    · simp at heq
    · have hprefix := (List.pairwise_cons.mp (List.pairwise_append.mp hpairwise).2.1).1 _ hmem
      rw [← Bool.not_eq_true, List.isPrefixOf_iff_prefix] at hprefix
      exact hprefix (List.prefix_append spelling [c])

/-- A mark that is read ends where it does, whatever begins with the same character. -/
lemma endsBefore_of_symbolAt? {spelling : List Char} {d : Char}
    (hstart : StartsToken c r) (hnumber : ¬ (isDigit c ∨ c = '.' ∧ r.head?.any isDigit))
    (hsymbol : symbolAt? (c :: r) = some (spelling, .token token))
    (hrest : spelling ++ rest = c :: r) (hd : rest.head? = some d) : endsBefore spelling d = true := by
  obtain ⟨tail, rfl⟩ := List.head?_eq_some_iff.mp hd
  rw [← hrest] at hsymbol
  have hcontinues := continuesMark_of_symbolAt? hsymbol
  simp only [endsBefore, hcontinues, Bool.not_false, Bool.true_and, Bool.and_eq_true,
    Bool.not_eq_true', Bool.and_eq_false_iff, beq_eq_false_iff_ne]
  refine ⟨?_, ?_⟩
  · by_cases hdot : spelling = ['.']
    · subst hdot
      obtain ⟨rfl, rfl⟩ := List.cons.inj hrest
      refine .inr (by_contra fun hdigit => hnumber (.inr ⟨rfl, ?_⟩))
      simpa using hdigit
    · exact .inl hdot
  · by_cases hslash : spelling = ['/']
    · subst hslash
      obtain ⟨rfl, rfl⟩ := List.cons.inj hrest
      have hcomment : d ≠ '/' ∧ d ≠ '*' := by simpa using hstart.2 rfl
      simpa using hcomment
    · exact .inl hslash

end Token

/-! ## Tokens -/

namespace TokenRun

open RowExpr.Number (isDigit)

/-- A token is read again in front of another text that begins with the same character, or with a
blank. -/
theorem starts_of_beginsLike {stop : Nat} (stop' : Nat) {c : Char} {r rest rest' : List Char}
    {token : Token} (hstart : StartsToken c r) (h : Scans (Token.scanToken stop c r) token rest)
    (hlike : BeginsLike rest rest') :
    ∃ token', token.Alike token' ∧
      (scan stop' (token.written ++ rest')).Starts token' (scan stop' rest') := by
  have hsound := Token.sound_of_scans h
  unfold Token.scanToken at h
  split_ifs at h with hquote hback hname hnumber
  · -- a string ends by itself
    obtain ⟨s, -, h⟩ := scans_bind.1 h
    obtain ⟨rfl, rfl⟩ := scans_ok.1 h
    exact ⟨_, .refl _, starts_string hsound⟩
  · -- and so does a template
    obtain ⟨t, left, _, ht, h⟩ := scans_bind_ok.1 h
    obtain ⟨rfl, rfl⟩ := scans_ok.1 h
    obtain ⟨-, hhead, htexts⟩ := Token.chunk_of_scans ht
    have hsources := (Token.standsAnywhere r).holes ht
    have hhead' : Token.Chunk (String.ofList t.head).toList := by simpa using hhead
    have hparts : ∀ part ∈ t.parts.map fun part =>
        (String.ofList part.1.source, String.ofList part.2),
        Token.Skips part.1.toList ∧ Token.Chunk part.2.toList := by
      intro part hpart
      obtain ⟨part', hpart', rfl⟩ := List.mem_map.1 hpart
      simpa using ⟨hsources part' hpart', htexts part' hpart'⟩
    obtain ⟨holes, hholes, hstarts⟩ := starts_template hhead' hparts stop' rest'
    refine ⟨.template (String.ofList t.head) holes, .template ?_, ?_⟩
    · have hsame : List.Forall₂ Eq _ _ := List.forall₂_eq_eq_eq ▸ hholes.symm
      rw [List.forall₂_map_left_iff, List.forall₂_map_right_iff] at hsame
      exact List.forall₂_map_left_iff.mpr (hsame.imp fun part part' hpart => Prod.mk.inj hpart)
    · change (scan stop' ((Token.ofTemplate stop t).written ++ rest')).Starts _ _
      have htext : (Token.ofTemplate stop t).written ++ rest' =
          '\x60' :: ((String.ofList t.head).toList ++ (Token.weave ((t.parts.map fun part =>
            (String.ofList part.1.source, String.ofList part.2)).map fun part =>
              (part.1.toList, part.2.toList)) ++ '\x60' :: rest')) := by
        simp [Token.written_ofTemplate, Token.RawTemplate.text, Function.comp_def]
      rwa [htext]
  · obtain ⟨rfl, rfl⟩ := scans_ok.1 h
    have hword : Token.isWord (String.ofList (c :: r.takeWhile Token.isNamePart)) := by
      simp only [Token.isWord, String.toList_ofList, hname, Bool.true_and, List.all_eq_true]
      exact fun d hd => List.mem_takeWhile_imp hd
    refine ⟨_, .refl _, ?_⟩
    rw [Token.written_ofWord]
    refine starts_word hword fun d hd => ?_
    exact hlike.eq_false (fun _ => Token.isNamePart_eq_false_of_isBlank)
      (fun _ => head?_dropWhile_eq_false) hd
  · obtain ⟨body, rfl, hscan⟩ := Token.scans_number_of_beginsLike hnumber h hlike
    obtain ⟨body', value, happend, hbody, rfl⟩ := Token.numberBody_of_scans_number hnumber h
    obtain rfl : body = body' := List.append_cancel_right happend
    refine ⟨_, .refl _, ?_⟩
    have hwritten : (Token.number value (String.ofList (c :: body))).written = c :: body := by
      simp [Token.written]
    rw [hwritten, List.cons_append]
    exact starts_of_scans_number hbody hscan
  · split at h
    case h_1 spelling token' hsymbol =>
      obtain ⟨rfl, rfl⟩ := scans_ok.1 h
      obtain ⟨hwritten, hne, tail, htail⟩ := Token.written_of_symbolAt? hsymbol
      have hrest : r.drop (spelling.length - 1) = tail := by
        obtain ⟨d, ds, rfl⟩ := List.exists_cons_of_ne_nil hne
        obtain ⟨rfl, rfl⟩ := List.cons.inj htail
        simp
      have hmark : Token.IsMark spelling token' := by
        obtain ⟨mark, rfl, rfl⟩ | ⟨op, rfl, rfl⟩ := Token.mark_of_symbolAt? hsymbol
        · exact Token.isMark_punct mark
        · exact Token.isMark_assign op
      refine ⟨token', .refl _, ?_⟩
      dsimp only
      rw [hwritten]
      refine starts_mark hmark fun d hd => ?_
      rcases hlike d hd with hblank | hhead
      · exact Token.endsBefore_of_not_tail hne (Token.isMarkTail_eq_false_of_isBlank hblank)
          fun _ => Token.isDigit_eq_false_of_isBlank hblank
      · exact Token.endsBefore_of_symbolAt? hstart hnumber hsymbol htail (hrest ▸ hhead)
    case h_2 => exact absurd h not_scans_error
    case h_3 => exact absurd h not_scans_error

end TokenRun

/-! ## Texts with more space -/

lemma isGap_of_forall_isBlank {last : Bool} {blanks : List Char}
    (h : ∀ c ∈ blanks, Text.isBlank c = true) : IsGap last blanks := by
  induction blanks with
  | nil => exact .nil
  | cons c blanks ih =>
    obtain ⟨hc, hblanks⟩ := List.forall_mem_cons.mp h
    exact .blank hc (ih hblanks)

/-- Blanks at the end of a text may end a comment there, or belong to it. -/
lemma IsGap.append_blanks {gap blanks : List Char} (h : IsGap true gap)
    (hblanks : ∀ c ∈ blanks, Text.isBlank c = true) : IsGap true (gap ++ blanks) := by
  induction h with
  | nil => exact isGap_of_forall_isBlank hblanks
  | blank hc _ ih => exact .blank hc ih
  | @line text gap htext _ ih =>
    have hassoc : '/' :: '/' :: (text ++ '\n' :: gap) ++ blanks =
        '/' :: '/' :: (text ++ '\n' :: (gap ++ blanks)) := by simp
    exact hassoc ▸ .line htext ih
  | @block text gap htext _ ih =>
    have hassoc : '/' :: '*' :: (text ++ '*' :: '/' :: gap) ++ blanks =
        '/' :: '*' :: (text ++ '*' :: '/' :: (gap ++ blanks)) := by simp
    exact hassoc ▸ .block htext ih
  | @unended text _ htext =>
    by_cases hbreak : '\n' ∈ blanks
    · obtain ⟨front, back, hsplit, hfront⟩ := List.eq_append_cons_of_mem hbreak
      have hback : ∀ c ∈ back, Text.isBlank c = true := fun c hc => hblanks c (by simp [hsplit, hc])
      have hassoc : '/' :: '/' :: text ++ blanks =
          '/' :: '/' :: ((text ++ front) ++ '\n' :: back) := by simp [hsplit]
      rw [hassoc]
      exact .line (by simp [htext, hfront]) (isGap_of_forall_isBlank hback)
    · exact .unended rfl (by simp [htext, hbreak])

/-- More blanks in a text whose first character has the given position: the text `cs'` is `cs` with
blanks in front of its tokens and behind them, and at its end. -/
inductive Spread : (position : Nat) → List Lexeme → (cs cs' : List Char) → Prop
  | last {position : Nat} {gap blanks : List Char} (hblanks : ∀ c ∈ blanks, Text.isBlank c = true) :
      Spread position [] gap (gap ++ blanks)
  | token {position : Nat} {gap front back : List Char} {l : Lexeme} {rest : List Lexeme}
      {cs cs' : List Char} (hposition : l.position = position + gap.length)
      (hfront : ∀ c ∈ front, Text.isBlank c = true) (hback : ∀ c ∈ back, Text.isBlank c = true)
      (hrest : Spread (l.position + l.token.written.length) rest cs cs') :
      Spread position (l :: rest) (gap ++ (l.token.written ++ cs))
        (gap ++ (front ++ (l.token.written ++ (back ++ cs'))))

lemma BeginsLike.blanks {rest rest' blanks : List Char} (h : BeginsLike rest rest')
    (hblanks : ∀ c ∈ blanks, Text.isBlank c = true) : BeginsLike rest (blanks ++ rest') := by
  cases blanks with
  | nil => exact h
  | cons c blanks =>
    rintro _ ⟨⟩
    exact .inl (hblanks c List.mem_cons_self)

lemma BeginsLike.append {rest rest' : List Char} (h : BeginsLike rest rest') (front : List Char) :
    BeginsLike (front ++ rest) (front ++ rest') := by
  cases front with
  | nil => exact h
  | cons c front => exact fun _ hc => .inr hc

/-- A text with more blanks in it begins with one, or as it did. -/
lemma Spread.beginsLike {position : Nat} {tokens : List Lexeme} {cs cs' : List Char}
    (h : Spread position tokens cs cs') : BeginsLike cs cs' := by
  induction h with
  | @last position gap blanks hblanks =>
    have hnil : BeginsLike [] blanks := by
      have hself := (BeginsLike.refl []).blanks hblanks
      rwa [List.append_nil] at hself
    have hgap := hnil.append gap
    rwa [List.append_nil] at hgap
  | token _ hfront hback _ ih => exact (((ih.blanks hback).append _).blanks hfront).append _

namespace TokenRun

/-- A gap in front of a token is skipped. -/
lemma Starts.gap {stop : Nat} {gap cs : List Char} {token : Token} {run : TokenRun}
    (h : (scan stop cs).Starts token run) (hgap : IsGap false gap) :
    (scan stop (gap ++ cs)).Starts token run := by
  obtain ⟨position, h⟩ := h
  cases hskip : Token.skipGap .blanks cs with
  | error f =>
    rw [scan, hskip] at h
    cases h
  | ok left =>
    obtain ⟨rest, suffix⟩ := left
    have hleaves : Token.Leaves .blanks cs rest := ⟨suffix, hskip⟩
    obtain ⟨_, hskip'⟩ := hleaves.gap hgap fun h => absurd h Bool.false_ne_true
    refine ⟨position, ?_⟩
    rw [← h, scan.eq_1 stop (gap ++ cs), scan.eq_1 stop cs, hskip, hskip']
    cases rest <;> rfl

lemma scan_blanks {stop : Nat} {blanks cs : List Char}
    (h : ∀ c ∈ blanks, Text.isBlank c = true) : scan stop (blanks ++ cs) = scan stop cs := by
  induction blanks with
  | nil => rfl
  | cons c blanks ih =>
    obtain ⟨hc, hblanks⟩ := List.forall_mem_cons.mp h
    rw [List.cons_append, scan_blank hc, ih hblanks]

/-- A text with more blanks around its tokens has the same tokens. -/
theorem alike_of_spread {stop finish : Nat} (stop' : Nat) {position : Nat} {tokens : List Lexeme}
    {cs cs' : List Char} (hspread : Spread position tokens cs cs')
    (hscan : scan stop cs = ⟨tokens, .eof finish⟩) (hstop : position + cs.length = stop) :
    Alike tokens (scan stop' cs').tokens ∧ (scan stop' cs').ending = .eof stop' := by
  induction hspread with
  | @last position gap blanks hblanks =>
    obtain ⟨-, hlaid⟩ := laid_of_scan hscan (by omega)
    cases hlaid with
    | last hgap =>
      rw [scan_of_isGap (hgap.append_blanks hblanks)]
      exact ⟨.nil, rfl⟩
  | @token position gap front back l rest cs cs' hposition hfront hback hrest ih =>
    obtain ⟨c, r, left, ⟨⟨gap', hgap, hcs⟩, hstart⟩, hplace, htoken, hrun⟩ := first_of_scan hscan
    have hlength := congrArg List.length hcs
    simp only [List.length_append, List.length_cons] at hstop hlength
    have hlaid := Token.laidToken_of_scans htoken (by omega)
    -- the place of the token says how long the gap in front of it is
    obtain ⟨rfl, hwritten⟩ := List.append_inj hcs (by omega)
    rw [← hlaid.text] at hwritten
    obtain rfl : cs = left := List.append_cancel_left hwritten
    have hlike := hrest.beginsLike.blanks hback
    obtain ⟨token', halike, hstarts⟩ := starts_of_beginsLike stop' hstart htoken hlike
    have hfront' : IsGap false front := isGap_of_forall_isBlank hfront
    obtain ⟨position', hscan'⟩ := (hstarts.gap hfront').gap hgap
    obtain ⟨htokens, hending⟩ := ih hrun (by omega)
    rw [hscan', scan_blanks hback]
    exact ⟨.cons halike htokens, hending⟩

end TokenRun

end RowExpr
