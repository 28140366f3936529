/-
# The tokens of written text

Which token a written word, number, string, template or mark is read as again, and what must not
follow it. A word or a number ends where nothing continues it, a mark where no longer mark begins
with it and the next character; strings and templates end by themselves. In the other direction,
every token that the scanner returns is of this kind.

* `TokenRun.starts_word`, `TokenRun.starts_number`, `TokenRun.starts_string`,
  `TokenRun.starts_template`, `TokenRun.starts_mark`: the token at the front of a text;
* `TokenRun.sound_scan`: the tokens of any text.
-/
import RowExpr.Grammar.Infix
import RowExpr.Proofs.Token.Template

namespace RowExpr

/-! ## Characters -/

namespace Text

/-- The codes of the blanks. -/
def blankCodes : List Nat :=
  [0x9, 0xa, 0xb, 0xc, 0xd, 0x20, 0x85, 0xa0, 0x1680, 0x2000, 0x2001, 0x2002, 0x2003, 0x2004,
    0x2005, 0x2006, 0x2007, 0x2008, 0x2009, 0x200a, 0x2028, 0x2029, 0x202f, 0x205f, 0x3000]

lemma toNat_mem_of_isBlank {c : Char} (h : isBlank c = true) : c.toNat ∈ blankCodes := by
  obtain ⟨r, hr, hn⟩ := Ranges.exists_of_contains h
  simp only [blankRanges, List.mem_cons, List.not_mem_nil, or_false] at hr
  rcases hr with rfl | rfl | rfl | rfl | rfl | rfl | rfl | rfl | rfl | rfl
  all_goals
    simp only [blankCodes, List.mem_cons, List.not_mem_nil, or_false]
    dsimp only at hn
    omega

lemma isAlphabetic_eq_false_of_isBlank {c : Char} (h : isBlank c = true) :
    isAlphabetic c = false := by
  have hblank : ∀ n ∈ blankCodes, alphabeticRanges.contains n = false := by decide +kernel
  exact hblank _ (toNat_mem_of_isBlank h)

lemma isNumeric_eq_false_of_isBlank {c : Char} (h : isBlank c = true) : isNumeric c = false := by
  have hblank : ∀ n ∈ blankCodes, numericRanges.contains n = false := by decide +kernel
  exact hblank _ (toNat_mem_of_isBlank h)

end Text

namespace Token

open RowExpr.Number (isDigit)

lemma isBlank_eq_false_of_isNameStart {c : Char} (h : isNameStart c = true) :
    Text.isBlank c = false := by
  by_contra hblank
  have halpha := Text.isAlphabetic_eq_false_of_isBlank (by simpa using hblank)
  simp only [isNameStart, halpha, Bool.false_or, Bool.or_eq_true, beq_iff_eq] at h
  rcases h with rfl | rfl <;> exact hblank (by decide)

lemma mem_digits_of_isDigit {c : Char} (h : isDigit c = true) : c ∈ "0123456789".toList := by
  have hvalue : c.toNat - 48 < 10 ∧ 48 ≤ c.toNat := by
    unfold isDigit Number.isDigitOf Number.digitValue at h
    have hlower : 'a'.toNat = 97 := rfl
    have hupper : 'A'.toNat = 65 := rfl
    have hzero : '0'.toNat = 48 := rfl
    have hnine : '9'.toNat = 57 := rfl
    simp only [hlower, hupper, hzero, hnine] at h
    split at h
    case h_1 d hd =>
      simp only [decide_eq_true_eq] at h
      split_ifs at hd <;> simp at hd <;> omega
    case h_2 => simp at h
  have hdigit : ∀ n < 10, Char.ofNat (48 + n) ∈ "0123456789".toList := by decide
  have hc : Char.ofNat (48 + (c.toNat - 48)) = c := by
    rw [Nat.add_sub_cancel' hvalue.2, Char.ofNat_toNat]
  rw [← hc]
  exact hdigit _ hvalue.1

lemma startsToken_of_isDigit {c : Char} (h : isDigit c = true) (r : List Char) :
    StartsToken c r ∧ ¬ (c = '"' ∨ c = '\'') ∧ c ≠ '\x60' ∧ isNameStart c = false := by
  have hdigit : ∀ c ∈ "0123456789".toList, Text.isBlank c = false ∧ c ≠ '/' ∧
      ¬ (c = '"' ∨ c = '\'') ∧ c ≠ '\x60' ∧ isNameStart c = false :=
    forall_mem_of_all (by decide)
  obtain ⟨hblank, hslash, hrest⟩ := hdigit c (mem_digits_of_isDigit h)
  exact ⟨⟨hblank, fun h => absurd h hslash⟩, hrest⟩

/-- A number literal begins with a digit, or with a point and a digit. -/
lemma NumberBody.first {c : Char} {body : List Char} {value : Float}
    (h : NumberBody c body value) : isDigit c ∨ c = '.' ∧ body.head?.any isDigit := by
  cases h with
  | whole hc => exact .inl hc
  | @point digits _ _ _ hne hdigits _ =>
    obtain ⟨d, ds, rfl⟩ := List.exists_cons_of_ne_nil hne
    exact .inr ⟨rfl, by simpa using hdigits d (by simp)⟩
  | radix => exact .inl (by decide)

/-! ## Words and literals -/

/-- Whether a text is a word: it may be a name, if it is not reserved. -/
def isWord (word : String) : Bool :=
  match word.toList with
  | [] => false
  | c :: r => isNameStart c && r.all isNamePart

/-- Nothing in front of `rest` can be continued as a word. -/
def StopsWord (rest : List Char) : Prop := ∀ c, rest.head? = some c → isNamePart c = false

/-- Whether a text is a name, which is a word that is not reserved. -/
def isName (name : String) : Bool :=
  isWord name &&
    match ofWord name with
    | .identifier _ => true
    | _ => false

/-- The only name that a word can be is itself. -/
lemma eq_of_ofWord {word name : String} (h : ofWord word = .identifier name) : name = word := by
  unfold ofWord at h
  split at h
  · cases h
  · cases h
  · cases h
  · split at h <;> cases h
    rfl

lemma ofWord_of_isName {name : String} (h : isName name) : ofWord name = .identifier name := by
  simp only [isName, Bool.and_eq_true] at h
  obtain ⟨_, h⟩ := h
  split at h
  case h_1 name' hname => rw [hname, eq_of_ofWord hname]
  case h_2 => cases h

lemma isWord_of_isName {name : String} (h : isName name) : isWord name := by
  simp only [isName, Bool.and_eq_true] at h
  exact h.1

lemma spelling_of_ofWord? {word : String} {k : Keyword} (h : Keyword.ofWord? word = some k) :
    k.spelling = word := by
  simpa using List.find?_some h

/-- After a dot every word is a name. -/
lemma propertyName?_ofWord (word : String) : Grammar.propertyName? (ofWord word) = some word := by
  unfold ofWord
  split
  · rfl
  · rfl
  · rfl
  · split
    case h_1 k hk => exact congrArg some (spelling_of_ofWord? hk)
    case h_2 => rfl

/-- The text `raw` is a number literal with the given value. -/
def NumberText (value : Float) (raw : String) : Prop :=
  ∃ c body, raw.toList = c :: body ∧ NumberBody c body value

/-- The text `raw` is a string literal with the given value. -/
def StringText (value raw : String) : Prop :=
  ∃ quote body cs, (quote = '"' ∨ quote = '\'') ∧ raw.toList = quote :: (body ++ [quote]) ∧
    StringBody quote body cs ∧ value = String.ofList cs

lemma isWord_spelling (k : Keyword) : isWord k.spelling := by
  cases k <;> decide

end Token

/-! ## The first token of a text -/

/-- The run has `token` in front, and then `rest`. -/
def TokenRun.Starts (run : TokenRun) (token : Token) (rest : TokenRun) : Prop :=
  ∃ position, run = rest.cons ⟨position, token⟩

namespace TokenRun

open RowExpr.Number (isDigit)

variable {stop : Nat} {rest : List Char}

lemma starts_of_scans {c : Char} {r : List Char} (hstart : StartsToken c r) {token : Token}
    (h : Scans (Token.scanToken stop c r) token rest) :
    (scan stop (c :: r)).Starts token (scan stop rest) :=
  ⟨_, scan_of_scans hstart h⟩

theorem starts_word {word : String} (hword : Token.isWord word) (hrest : Token.StopsWord rest) :
    (scan stop (word.toList ++ rest)).Starts (Token.ofWord word) (scan stop rest) := by
  unfold Token.isWord at hword
  split at hword
  case h_1 => simp at hword
  case h_2 c r hw =>
    simp only [Bool.and_eq_true, List.all_eq_true] at hword
    obtain ⟨hc, hr⟩ := hword
    have hquote : ¬ (c = '"' ∨ c = '\'') := by
      rintro (rfl | rfl) <;> revert hc <;> decide
    have hback : c ≠ '\x60' := by
      rintro rfl
      revert hc
      decide
    have hslash : c ≠ '/' := by
      rintro rfl
      revert hc
      decide
    have hstart : StartsToken c (r ++ rest) :=
      ⟨Token.isBlank_eq_false_of_isNameStart hc, fun h => absurd h hslash⟩
    obtain ⟨htake, hdrop⟩ := span_append hr hrest
    rw [hw, List.cons_append]
    refine starts_of_scans hstart ?_
    rw [Token.scanToken, if_neg hquote, if_neg hback, if_pos hc]
    refine scans_ok.2 ⟨?_, hdrop⟩
    dsimp only
    rw [htake, ← hw, String.ofList_toList]

/-- A number literal that is read to its end is the first token. -/
lemma starts_of_scans_number {c : Char} {body : List Char} {value : Float} {token : Token}
    (hbody : Token.NumberBody c body value)
    (h : Scans (Token.scanNumber c (body ++ rest)) token rest) :
    (scan stop (c :: (body ++ rest))).Starts token (scan stop rest) := by
  have hfirst : isDigit c ∨ c = '.' ∧ (body ++ rest).head?.any isDigit := by
    rcases hbody.first with hc | ⟨rfl, hd⟩
    · exact .inl hc
    · refine .inr ⟨rfl, ?_⟩
      cases body with
      | nil => simp at hd
      | cons d ds => exact hd
  have hstart : StartsToken c (body ++ rest) ∧ ¬ (c = '"' ∨ c = '\'') ∧ c ≠ '\x60' ∧
      Token.isNameStart c = false := by
    rcases hbody.first with hc | ⟨rfl, _⟩
    · exact Token.startsToken_of_isDigit hc _
    · exact ⟨⟨by decide, by simp⟩, by decide⟩
  obtain ⟨hstart, hquote, hback, hname⟩ := hstart
  refine starts_of_scans hstart ?_
  rwa [Token.scanToken, if_neg hquote, if_neg hback, if_neg (by simp [hname]), if_pos hfirst]

theorem starts_number {value : Float} {raw : String} (h : Token.NumberText value raw)
    (hrest : Token.StopsNumber rest) :
    (scan stop (raw.toList ++ rest)).Starts (.number value raw) (scan stop rest) := by
  obtain ⟨c, body, hraw, hbody⟩ := h
  have hscan := Token.scans_number hbody hrest
  rw [← hraw, String.ofList_toList] at hscan
  rw [hraw, List.cons_append]
  exact starts_of_scans_number hbody hscan

theorem starts_string {value raw : String} (h : Token.StringText value raw) :
    (scan stop (raw.toList ++ rest)).Starts (.string value raw) (scan stop rest) := by
  obtain ⟨quote, body, cs, hquote, hraw, hbody, rfl⟩ := h
  have hstart : StartsToken quote (body ++ quote :: rest) := by
    rcases hquote with rfl | rfl
    · exact ⟨by decide, by simp⟩
    · exact ⟨by decide, by simp⟩
  have hassoc : raw.toList ++ rest = quote :: (body ++ quote :: rest) := by simp [hraw]
  rw [hassoc]
  refine starts_of_scans hstart ((Token.scans_token_string hquote).2 ⟨body, cs, rfl, hbody, ?_⟩)
  rw [← hraw, String.ofList_toList]

/-- A written template is read as a template with the same texts and the same texts in holes. -/
theorem starts_template {head : String} {parts : List (String × String)}
    (hhead : Token.Chunk head.toList)
    (hparts : ∀ part ∈ parts, Token.Skips part.1.toList ∧ Token.Chunk part.2.toList)
    (stop : Nat) (rest : List Char) :
    ∃ holes : List (Hole × String), holes.map (fun part => (part.1.source, part.2)) = parts ∧
      (scan stop ('\x60' :: (head.toList ++ (Token.weave (parts.map fun part =>
        (part.1.toList, part.2.toList)) ++ '\x60' :: rest)))).Starts (.template head holes)
        (scan stop rest) := by
  have hparts' : ∀ part ∈ parts.map (fun part => (part.1.toList, part.2.toList)),
      Token.Skips part.1 ∧ Token.Chunk part.2 := by
    intro part hpart
    obtain ⟨part', hpart', rfl⟩ := List.mem_map.1 hpart
    exact hparts part' hpart'
  obtain ⟨t, ht, hthead, htparts⟩ := Token.scans_weave hhead hparts' rest
  refine ⟨t.parts.map (Token.placeHole stop), ?_, ?_⟩
  · have hstrings := congrArg (List.map fun part => (String.ofList part.1, String.ofList part.2))
      htparts
    simpa [Function.comp_def, Token.placeHole] using hstrings
  · refine starts_of_scans ⟨by decide, by simp⟩ ?_
    rw [Token.scanToken, if_neg (by decide), if_pos rfl]
    refine scans_bind_ok.2 ⟨t, rest, ht.1, ht, scans_ok.2 ⟨?_, rfl⟩⟩
    change Token.template (String.ofList t.head) _ = _
    rw [hthead, String.ofList_toList]

end TokenRun

/-! ## Marks -/

namespace Token

open RowExpr.Number (isDigit)

/-- Whether a spelling and the character `c` begin a longer spelling. -/
def continuesMark (spelling : List Char) (c : Char) : Bool :=
  symbols.any fun s => (spelling ++ [c]).isPrefixOf s.1

lemma symbolAt?_append {spelling rest : List Char}
    (h : ∀ c, rest.head? = some c → continuesMark spelling c = false) :
    symbolAt? (spelling ++ rest) = symbolAt? spelling := by
  have hsame : ∀ s ∈ symbols, s.1.isPrefixOf (spelling ++ rest) = s.1.isPrefixOf spelling := by
    intro s hs
    rw [Bool.eq_iff_iff, List.isPrefixOf_iff_prefix, List.isPrefixOf_iff_prefix]
    refine ⟨fun hlong => ?_, fun hshort => hshort.trans (List.prefix_append _ _)⟩
    rcases List.prefix_or_prefix_of_prefix hlong (List.prefix_append spelling rest) with
      hshort | ⟨tail, htail⟩
    · exact hshort
    · -- A spelling that goes on behind the mark would begin with it and the next character.
      cases tail with
      | nil => exact ⟨[], by rw [List.append_nil, ← htail, List.append_nil]⟩
      | cons c tail =>
        rw [← htail, List.prefix_append_right_inj] at hlong
        obtain ⟨left, hrest⟩ := hlong
        have hcontinues := h c (by rw [← hrest]; rfl)
        have hsplit : (spelling ++ [c]).isPrefixOf s.1 := by
          rw [List.isPrefixOf_iff_prefix, ← htail]
          exact ⟨tail, by simp⟩
        simp only [continuesMark, List.any_eq_false] at hcontinues
        exact absurd hsplit (hcontinues s hs)
  rw [symbolAt?, symbolAt?, ← List.head?_filter, ← List.head?_filter, List.filter_congr hsame]

/-- Whether a mark with the given spelling ends in front of the character `c`. A point and a digit
begin a number, and a slash may begin a comment. -/
def endsBefore (spelling : List Char) (c : Char) : Bool :=
  !continuesMark spelling c && !(spelling == ['.'] && isDigit c) &&
    !(spelling == ['/'] && (c == '/' || c == '*'))

/-- Whether nothing but a mark begins with `c`. -/
def startsMark (c : Char) : Bool :=
  !Text.isBlank c && !(c == '"' || c == '\'' || c == '\x60') && !isNameStart c && !isDigit c

/-- The token is the mark with the given spelling. -/
def IsMark (spelling : List Char) (token : Token) : Prop :=
  spelling.head?.any startsMark ∧ symbolAt? spelling = some (spelling, .token token)

lemma isMark_punct (mark : Punct) : IsMark mark.spelling.toList (.punct mark) := by
  cases mark <;> exact ⟨by decide, rfl⟩

lemma isMark_assign (op : AssignOp) : IsMark op.spelling.toList (.assign op) := by
  cases op <;> exact ⟨by decide, rfl⟩

lemma prefix_of_continuesMark {spelling : List Char} {c : Char}
    (h : continuesMark spelling c = true) : ∃ s ∈ symbols, spelling ++ [c] <+: s.1 := by
  simp only [continuesMark, List.any_eq_true, List.isPrefixOf_iff_prefix] at h
  exact h

/-- Whether no longer spelling begins with this one. -/
def isLone (spelling : List Char) : Bool :=
  symbols.all (fun s => !spelling.isPrefixOf s.1 || s.1.length ≤ spelling.length) &&
    spelling != ['.'] && spelling != ['/']

lemma endsBefore_of_isLone {spelling : List Char} (h : isLone spelling) (c : Char) :
    endsBefore spelling c = true := by
  simp only [isLone, Bool.and_eq_true, List.all_eq_true, bne_iff_ne, ne_eq] at h
  obtain ⟨⟨hlone, hdot⟩, hslash⟩ := h
  have hcontinues : continuesMark spelling c = false := by
    by_contra hcontinues
    obtain ⟨s, hs, hsplit⟩ := prefix_of_continuesMark (by simpa using hcontinues)
    have hlength := hsplit.length_le
    have hshort := hlone s hs
    simp only [Bool.or_eq_true, Bool.not_eq_true', decide_eq_true_eq] at hshort
    rcases hshort with hshort | hshort
    · rw [← Bool.not_eq_true, List.isPrefixOf_iff_prefix] at hshort
      exact hshort ((List.prefix_append _ _).trans hsplit)
    · simp at hlength
      omega
  simp [endsBefore, hcontinues, hdot, hslash]

/-- Whether `c` may follow the first character of a spelling, or make a comment of a slash. -/
def isMarkTail (c : Char) : Bool := "=><*+-&|?./".toList.contains c

lemma endsBefore_of_not_tail {spelling : List Char} {c : Char} (hne : spelling ≠ [])
    (hc : isMarkTail c = false) (hdigit : spelling = ['.'] → isDigit c = false) :
    endsBefore spelling c = true := by
  have htails : ∀ s ∈ symbols, s.1.tail.all isMarkTail = true := by decide
  have hcontinues : continuesMark spelling c = false := by
    by_contra hcontinues
    obtain ⟨s, hs, tail, hsplit⟩ := prefix_of_continuesMark (by simpa using hcontinues)
    have hmem : c ∈ s.1.tail := by
      obtain ⟨d, ds, rfl⟩ := List.exists_cons_of_ne_nil hne
      rw [← hsplit]
      simp
    rw [List.all_eq_true.mp (htails s hs) c hmem] at hc
    cases hc
  have hcomment : c ≠ '/' ∧ c ≠ '*' := by
    constructor <;> rintro rfl <;> revert hc <;> decide
  simp only [endsBefore, hcontinues, Bool.not_false, Bool.true_and, Bool.and_eq_true,
    Bool.not_eq_true', Bool.and_eq_false_iff, Bool.or_eq_false_iff, beq_eq_false_iff_ne]
  refine ⟨?_, .inr hcomment⟩
  by_cases hdot : spelling = ['.']
  · exact .inr (hdigit hdot)
  · exact .inl hdot

/-- The text begins as the code of an expression may begin. -/
def Opens (text : List Char) : Prop :=
  ∃ c r, text = c :: r ∧
    ("([\"'`".toList.contains c ∨ isNameStart c ∨ isDigit c ∨ c = '.' ∧ r.head?.any isDigit)

lemma Opens.append {text : List Char} (h : Opens text) (more : List Char) :
    Opens (text ++ more) := by
  obtain ⟨c, r, rfl, hc⟩ := h
  refine ⟨c, r ++ more, rfl, ?_⟩
  rcases hc with hc | hc | hc | ⟨rfl, hd⟩
  · exact .inl hc
  · exact .inr (.inl hc)
  · exact .inr (.inr (.inl hc))
  · cases r with
    | nil => simp at hd
    | cons d r => exact .inr (.inr (.inr ⟨rfl, hd⟩))

lemma Opens.head?_append {text : List Char} (h : Opens text) (more : List Char) :
    (text ++ more).head? = text.head? := by
  obtain ⟨c, r, rfl, _⟩ := h
  rfl

lemma opens_of_isWord {word : String} (h : isWord word) :
    Opens word.toList ∧ word.toList.head? ≠ some '.' := by
  unfold isWord at h
  split at h
  case h_1 => cases h
  case h_2 c r hw =>
    rw [Bool.and_eq_true] at h
    refine ⟨⟨c, r, hw, .inr (.inl h.1)⟩, ?_⟩
    rw [hw]
    rintro ⟨⟩
    exact absurd h.1 (by decide)

lemma isNamePart_of_isNameStart {c : Char} (h : isNameStart c) : isNamePart c := by
  simp only [isNameStart, isNamePart, Bool.or_eq_true] at h ⊢
  rcases h with (halpha | hscore) | hdollar
  · exact .inl (.inl (.inl halpha))
  · exact .inl (.inr hscore)
  · exact .inr hdollar

lemma isNamePart_of_isDigit {c : Char} (h : isDigit c) : isNamePart c := by
  have hdigits : ∀ c ∈ "0123456789".toList, isNamePart c := forall_mem_of_all (by decide)
  exact hdigits c (mem_digits_of_isDigit h)

lemma isInert_of_isNamePart {c : Char} (h : isNamePart c) : isInert c := by
  simp only [isInert, Bool.not_eq_true', Bool.or_eq_false_iff, beq_eq_false_iff_ne]
  refine ⟨⟨⟨⟨?_, ?_⟩, ?_⟩, ?_⟩, ?_⟩ <;> rintro rfl <;> revert h <;> decide

/-- Nothing that a hole needs to know about stands in a word. -/
lemma skips_of_isWord {word : String} (h : isWord word) : Skips word.toList := by
  apply skips_of_inert
  unfold isWord at h
  split at h
  case h_1 => cases h
  case h_2 c r hw =>
    simp only [Bool.and_eq_true, List.all_eq_true] at h
    rw [hw]
    intro d hd
    rcases List.mem_cons.1 hd with rfl | hd
    · exact isInert_of_isNamePart (isNamePart_of_isNameStart h.1)
    · exact isInert_of_isNamePart (h.2 d hd)

lemma Exponent.inert {power digits : List Char} {negative : Bool}
    (h : Exponent power negative digits) : ∀ d ∈ power, isInert d := by
  cases h with
  | missing => simp
  | given he hsign _ hdigits =>
    intro d hd
    rcases List.mem_cons.1 hd with rfl | hd
    · rcases he with rfl | rfl <;> decide
    · rcases List.mem_append.1 hd with hd | hd
      · cases hsign <;> simp at hd <;> subst hd <;> decide
      · exact isInert_of_isNamePart (isNamePart_of_isDigit (hdigits d hd))

/-- Nor does it in a number. -/
lemma NumberBody.inert {c : Char} {body : List Char} {value : Float}
    (h : NumberBody c body value) : ∀ d ∈ c :: body, isInert d := by
  have hdigit : ∀ d, isDigit d → isInert d :=
    fun d hd => isInert_of_isNamePart (isNamePart_of_isDigit hd)
  intro d hd
  cases h with
  | whole hc hdigits hpoint hpower =>
    rcases List.mem_cons.1 hd with rfl | hd
    · exact hdigit _ hc
    rcases List.mem_append.1 hd with hd | hd
    · exact hdigit d (hdigits d hd)
    rcases List.mem_append.1 hd with hd | hd
    · cases hpoint with
      | missing => simp at hd
      | given hfraction =>
        rcases List.mem_cons.1 hd with rfl | hd
        · decide
        · exact hdigit d (hfraction d hd)
    · exact hpower.inert d hd
  | point _ hdigits hpower =>
    rcases List.mem_cons.1 hd with rfl | hd
    · decide
    rcases List.mem_append.1 hd with hd | hd
    · exact hdigit d (hdigits d hd)
    · exact hpower.inert d hd
  | @radix x radix n digits hx hread _ =>
    rcases List.mem_cons.1 hd with rfl | hd
    · decide
    rcases List.mem_cons.1 hd with rfl | hd
    · unfold radixOf? at hx
      split at hx
      all_goals first | decide | cases hx
    · rcases isNameStart_or_isDigit (forall_isDigitOf_of_readDigits? hread d hd) with hd | hd
      · exact isInert_of_isNamePart (isNamePart_of_isNameStart hd)
      · exact hdigit d hd

lemma NumberText.opens_skips {value : Float} {raw : String} (h : NumberText value raw) :
    Opens raw.toList ∧ Skips raw.toList := by
  obtain ⟨c, body, hraw, hbody⟩ := h
  rw [hraw]
  refine ⟨⟨c, body, rfl, ?_⟩, skips_of_inert hbody.inert⟩
  rcases hbody.first with hc | hc
  · exact .inr (.inr (.inl hc))
  · exact .inr (.inr (.inr hc))

lemma StringText.opens_skips {value raw : String} (h : StringText value raw) :
    (Opens raw.toList ∧ raw.toList.head? ≠ some '.') ∧ Skips raw.toList := by
  obtain ⟨quote, body, cs, hquote, hraw, hbody, _⟩ := h
  rw [hraw]
  refine ⟨⟨⟨quote, _, rfl, .inl ?_⟩, ?_⟩, skips_string hquote hbody⟩
  · rcases hquote with rfl | rfl <;> decide
  · rcases hquote with rfl | rfl <;> simp

/-- No code but a number that starts with a point continues a mark. -/
lemma Opens.not_tail {text rest : List Char} (h : Opens text) (hpoint : text.head? ≠ some '.') :
    ∀ c, (text ++ rest).head? = some c → isMarkTail c = false := by
  have htails : ∀ c ∈ "=><*+-&|?./".toList, isNameStart c = false ∧ isDigit c = false ∧
      c ∉ "([\"'`".toList :=
    forall_mem_of_all (by decide)
  obtain ⟨c, r, rfl, hc⟩ := h
  rintro _ ⟨⟩
  by_contra htail
  rw [Bool.not_eq_false] at htail
  obtain ⟨hstart, hdigit, hmem⟩ := htails c (by simpa [isMarkTail] using htail)
  rcases hc with hc | hc | hc | ⟨rfl, _⟩
  · exact hmem (by simpa using hc)
  · rw [hstart] at hc
    cases hc
  · rw [hdigit] at hc
    cases hc
  · exact hpoint rfl

/-- Behind a mark that no point continues, code may follow. -/
lemma endsBefore_of_opens {spelling text rest : List Char} (h : Opens text) (hne : spelling ≠ [])
    (hpoint : endsBefore spelling '.') :
    ∀ c, (text ++ rest).head? = some c → endsBefore spelling c = true := by
  have hdot : spelling ≠ ['.'] := by
    rintro rfl
    revert hpoint
    decide
  intro c hc
  by_cases hfirst : text.head? = some '.'
  · obtain ⟨tail, rfl⟩ := List.head?_eq_some_iff.1 hfirst
    cases hc
    exact hpoint
  · exact endsBefore_of_not_tail hne (h.not_tail hfirst c hc) fun h => absurd h hdot

end Token

namespace TokenRun

open RowExpr.Number (isDigit)

variable {stop : Nat} {rest : List Char}

/-- A mark is read where no longer mark and no number or comment begins. -/
theorem starts_mark {spelling : List Char} {token : Token} (hmark : Token.IsMark spelling token)
    (hrest : ∀ c, rest.head? = some c → Token.endsBefore spelling c = true) :
    (scan stop (spelling ++ rest)).Starts token (scan stop rest) := by
  obtain ⟨hstart, hsymbol⟩ := hmark
  have hsecond : ∀ s ∈ Token.symbols, (s.1.tail.take 1).all (fun d => decide (isDigit d = false ∧
      (s.1.head? = some '/' → d ≠ '/' ∧ d ≠ '*'))) = true := by
    decide
  have hends := fun c hc => by simpa [Token.endsBefore] using hrest c hc
  cases spelling with
  | nil => simp at hstart
  | cons c tail =>
    have hnext : ∀ d, (tail ++ rest).head? = some d →
        (c = '.' → isDigit d = false) ∧ (c = '/' → d ≠ '/' ∧ d ≠ '*') := by
      intro d hd
      cases tail with
      | nil =>
        obtain ⟨⟨_, hpoint⟩, hcomment⟩ := hends d hd
        exact ⟨fun hc => hpoint.resolve_left (by simp [hc]),
          fun hc => hcomment.resolve_left (by simp [hc])⟩
      | cons e tail =>
        obtain rfl : e = d := by simpa using hd
        have he := forall_mem_of_all (hsecond _ (List.mem_of_find?_eq_some hsymbol)) e (by simp)
        exact ⟨fun _ => he.1, fun hc => he.2 (by simp [hc])⟩
    simp only [Token.startsMark, List.head?_cons, Option.any_some, Bool.and_eq_true,
      Bool.not_eq_true', Bool.or_eq_false_iff, beq_eq_false_iff_ne, ne_eq] at hstart
    obtain ⟨⟨⟨hblank, ⟨hdouble, hsingle⟩, hback⟩, hname⟩, hdigit⟩ := hstart
    have hnumber : ¬ (isDigit c ∨ c = '.' ∧ (tail ++ rest).head?.any isDigit) := by
      rintro (hc | ⟨rfl, hd⟩)
      · rw [hdigit] at hc
        cases hc
      · cases hhead : (tail ++ rest).head? with
        | none => simp [hhead] at hd
        | some d => simp [hhead, (hnext d hhead).1 rfl] at hd
    have hsymbol' : Token.symbolAt? (c :: (tail ++ rest)) = some (c :: tail, .token token) := by
      rw [← hsymbol, ← List.cons_append]
      exact Token.symbolAt?_append fun d hd => (hends d hd).1.1
    have hstart : StartsToken c (tail ++ rest) :=
      ⟨hblank, fun hc => ⟨fun h => ((hnext _ h).2 hc).1 rfl, fun h => ((hnext _ h).2 hc).2 rfl⟩⟩
    rw [List.cons_append]
    refine starts_of_scans hstart ?_
    rw [Token.scanToken, if_neg (by simp [hdouble, hsingle]), if_neg hback,
      if_neg (by simp [hname]), if_neg hnumber]
    split
    case h_1 spelling token' h =>
      cases hsymbol'.symm.trans h
      exact scans_ok.2 ⟨rfl, by simp⟩
    case h_2 h => cases hsymbol'.symm.trans h
    case h_3 h => cases hsymbol'.symm.trans h

/-- A point in front of a word is a mark. -/
lemma starts_dot {word : String} (hword : Token.isWord word) :
    (scan stop ('.' :: (word.toList ++ rest))).Starts (.punct .dot)
      (scan stop (word.toList ++ rest)) := by
  have hfirst : ∀ c, (word.toList ++ rest).head? = some c → Token.isNameStart c = true := by
    intro c hc
    unfold Token.isWord at hword
    split at hword
    case h_1 => cases hword
    case h_2 d r hw =>
      rw [Bool.and_eq_true] at hword
      rw [hw] at hc
      obtain rfl : d = c := by simpa using hc
      exact hword.1
  have htails : ∀ c ∈ "=><*+-&|?./".toList, Token.isNameStart c = false :=
    forall_mem_of_all (by decide)
  refine starts_mark (Token.isMark_punct .dot) fun c hc => ?_
  have hstart := hfirst c hc
  refine Token.endsBefore_of_not_tail (by decide) ?_ fun _ => ?_
  · by_contra htail
    rw [Bool.not_eq_false] at htail
    rw [htails c (by simpa [Token.isMarkTail] using htail)] at hstart
    cases hstart
  · by_contra hdigit
    rw [(Token.startsToken_of_isDigit (by simpa using hdigit) []).2.2.2] at hstart
    cases hstart

/-- A question mark and a point are refused. -/
lemma scan_questionPoint : ∃ f, scan stop ('?' :: '.' :: rest) = faulty stop f := by
  have hlone : ∀ c, Token.endsBefore "?.".toList c = true := Token.endsBefore_of_isLone (by decide)
  have hsymbol : Token.symbolAt? ("?.".toList ++ rest) =
      some ("?.".toList, .refused .optionalChaining) :=
    Token.symbolAt?_append fun c _ => by
      have := hlone c
      simp only [Token.endsBefore, Bool.and_eq_true, Bool.not_eq_true'] at this
      exact this.1.1
  have hnumber : ¬ (isDigit '?' ∨ '?' = '.' ∧ ('.' :: rest).head?.any isDigit) := by
    rintro (h | ⟨h, _⟩)
    · exact absurd h (by decide)
    · cases h
  have htoken : Token.scanToken stop '?' ('.' :: rest) =
      .error ⟨.optionalChaining, ('.' :: rest).length + 1⟩ := by
    rw [Token.scanToken, if_neg (by decide), if_neg (by decide), if_neg (by decide),
      if_neg hnumber]
    split
    case h_1 h => cases hsymbol.symm.trans h
    case h_2 h => cases hsymbol.symm.trans h; rfl
    case h_3 h => cases hsymbol.symm.trans h
  exact ⟨_, scan_of_fault ⟨by decide, by simp⟩ htoken⟩

end TokenRun

/-! ## The tokens of any text -/

/-- What the scanner promises of a token: a literal has the value of its spelling, and a name is
one. -/
def Token.Sound : Token → Prop
  | .number value raw => NumberText value raw
  | .string value raw => StringText value raw
  | .template head parts => Chunk head.toList ∧ ∀ part ∈ parts, Chunk part.2.toList
  | .identifier name => isName name
  | _ => True

namespace Token

open RowExpr.Number (isDigit)

lemma sound_ofWord {word : String} (h : isWord word) : (ofWord word).Sound := by
  by_cases hname : isName word = true
  · rw [ofWord_of_isName hname]
    exact hname
  · have hother : ∀ name, ofWord word ≠ .identifier name := by
      intro name hw
      simp [isName, h, hw] at hname
    revert hother
    unfold ofWord
    split
    · exact fun _ => trivial
    · exact fun _ => trivial
    · exact fun _ => trivial
    · split
      · exact fun _ => trivial
      · exact fun hother => absurd rfl (hother word)

lemma sound_of_symbolAt? {cs spelling : List Char} {token : Token}
    (h : symbolAt? cs = some (spelling, .token token)) : token.Sound := by
  obtain ⟨mark, rfl, _⟩ | ⟨op, rfl, _⟩ := mark_of_symbolAt? h
  · trivial
  · trivial

lemma sound_of_scans {stop : Nat} {c : Char} {r rest : List Char} {token : Token}
    (h : Scans (scanToken stop c r) token rest) : token.Sound := by
  by_cases hquote : c = '"' ∨ c = '\''
  · obtain ⟨body, cs, rfl, hbody, rfl⟩ := (scans_token_string hquote).1 h
    exact ⟨c, body, cs, hquote, by simp, hbody, rfl⟩
  rw [scanToken, if_neg hquote] at h
  split_ifs at h with hback hname hnumber
  · obtain ⟨t, left, _, ht, h⟩ := scans_bind_ok.1 h
    obtain ⟨rfl, _⟩ := scans_ok.1 h
    obtain ⟨_, hhead, hparts⟩ := chunk_of_scans ht
    refine ⟨by simpa using hhead, ?_⟩
    intro part hpart
    obtain ⟨part', hpart', rfl⟩ := List.mem_map.1 hpart
    simpa [placeHole] using hparts part' hpart'
  · obtain ⟨rfl, _⟩ := scans_ok.1 h
    apply sound_ofWord
    simp only [isWord, String.toList_ofList, hname, Bool.true_and, List.all_eq_true]
    intro d hd
    exact List.mem_takeWhile_imp hd
  · obtain ⟨body, value, rfl, hbody, rfl⟩ := numberBody_of_scans_number hnumber h
    exact ⟨c, body, by simp, hbody⟩
  · split at h
    case h_1 spelling token' hsymbol =>
      obtain ⟨rfl, _⟩ := scans_ok.1 h
      exact sound_of_symbolAt? hsymbol
    case h_2 => exact absurd h not_scans_error
    case h_3 => exact absurd h not_scans_error

end Token

/-- Every token of a text is sound. -/
theorem TokenRun.sound_scan (stop : Nat) (cs : List Char) :
    ∀ l ∈ (scan stop cs).tokens, l.token.Sound := by
  induction hn : cs.length using Nat.strong_induction_on generalizing cs with
  | _ n ih =>
    subst hn
    rw [scan]
    split
    case h_1 => simp [faulty]
    case h_2 => simp
    case h_3 c r suffix _ =>
      have hlt : r.length < cs.length := suffix.length_le
      dsimp only
      split
      case h_1 => simp [faulty]
      case h_2 s hs =>
        have hle := s.length_le
        intro l hl
        rcases List.mem_cons.1 hl with rfl | hl
        · exact Token.sound_of_scans ⟨s.suffix, hs⟩
        · exact ih s.rest.length (by omega) s.rest rfl l hl

end RowExpr
