/-
# The grammar of literals

What the scanner accepts as a string or number literal, written down as a grammar: which escapes
there are, what a row of characters and escapes stands for, and which parts a number has. The
scanner reads exactly the texts of this grammar: a string whatever follows its closing quote, and a
number if what follows it cannot continue it.

* `scans_token_string`: strings;
* `scans_number`, `numberBody_of_scans_number`: numbers, in both directions.
-/
import RowExpr.Proofs.Token.Scans

namespace RowExpr.Token

open RowExpr.Number (isDigit isDigitOf ofDigits readDigits? splitFraction splitSign Numeral)

/-! ## Escapes -/

/-- The code points of characters: all but the surrogates. -/
def IsCode (code : Nat) : Prop := code < 0xd800 ∨ 0xdfff < code ∧ code < 0x110000

/-- What may stand behind a backslash, given the character `next` after it, and the character it
stands for. -/
inductive Escape (next : Option Char) : List Char → Option Char → Prop
  | control {c value : Char} (h : controlEscape? c = some value) : Escape next [c] (some value)
  | null (h : ¬ next.any isDigit) : Escape next ['0'] (some '\x00')
  | hex {digits : List Char} (hlength : digits.length = 2)
      (hdigits : ∀ d ∈ digits, isDigitOf 16 d) (hcode : IsCode (ofDigits 16 digits)) :
      Escape next ('x' :: digits) (some (Char.ofNat (ofDigits 16 digits)))
  | unicode {digits : List Char} (hlength : digits.length = 4)
      (hdigits : ∀ d ∈ digits, isDigitOf 16 d) (hcode : IsCode (ofDigits 16 digits)) :
      Escape next ('u' :: digits) (some (Char.ofNat (ofDigits 16 digits)))
  | codePoint {digits : List Char} {code : Nat} (hdigits : ∀ d ∈ digits, d ≠ '\x7d')
      (hread : braceCode? digits = some code) (hcode : IsCode code) :
      Escape next ('u' :: '\x7b' :: digits ++ ['\x7d']) (some (Char.ofNat code))
  | lineFeed : Escape next ['\n'] none
  | plain {c : Char} (hcontrol : controlEscape? c = none) (hx : c ≠ 'x') (hu : c ≠ 'u')
      (hline : c ≠ '\n') (hdigit : ¬ isDigit c) : Escape next [c] (some c)

lemma scans_hex {count : Nat} {cs rest : List Char} {value : Nat} :
    Scans (scanHex count cs) value rest ↔
      ∃ digits, cs = digits ++ rest ∧ digits.length = count ∧
        (∀ d ∈ digits, isDigitOf 16 d) ∧ ofDigits 16 digits = value := by
  unfold scanHex
  constructor
  · intro h
    dsimp only at h
    split at h
    case isTrue hlength =>
      rw [scans_ok] at h
      obtain ⟨hvalue, hrest⟩ := h
      have hle := (List.takeWhile_prefix (isDigitOf 16) (l := cs.take count)).length_le
      have htake := List.length_take_le count cs
      have hall : (cs.take count).takeWhile (isDigitOf 16) = cs.take count :=
        (List.takeWhile_prefix _).eq_of_length (by omega)
      refine ⟨cs.take count, by rw [← hrest, List.take_append_drop], by omega, ?_, ?_⟩
      · exact List.takeWhile_eq_self_iff.1 hall
      · rw [← hvalue, hall]
    case isFalse => simp at h
  · rintro ⟨digits, rfl, rfl, hdigits, rfl⟩
    have hall : digits.takeWhile (isDigitOf 16) = digits := List.takeWhile_eq_self_iff.2 hdigits
    simp [hall]

lemma scans_code {cs rest : List Char} {value : Nat} :
    Scans (scanCode cs) value rest ↔
      (∃ digits, cs = '\x7b' :: (digits ++ '\x7d' :: rest) ∧ (∀ d ∈ digits, d ≠ '\x7d') ∧
        braceCode? digits = some value) ∨
      cs.head? ≠ some '\x7b' ∧ Scans (scanHex 4 cs) value rest := by
  unfold scanCode
  split
  case h_1 r =>
    constructor
    · intro h
      left
      dsimp only at h
      split at h
      case h_1 => simp at h
      case h_2 c left hleft =>
        split at h
        case h_1 code hcode =>
          rw [scans_ok] at h
          obtain ⟨rfl, rfl⟩ := h
          have hc : c = '\x7d' := by
            have := head?_dropWhile_eq_false (c := c) (by rw [hleft]; rfl)
            simpa using this
          have hr : r.takeWhile (· ≠ '\x7d') ++ c :: left = r := by
            rw [← hleft, List.takeWhile_append_dropWhile]
          refine ⟨r.takeWhile (· ≠ '\x7d'), by rw [hc] at hr; rw [hr], ?_, hcode⟩
          intro d hd
          simpa using List.mem_takeWhile_imp hd
        case h_2 => simp at h
    · rintro (⟨digits, hr, hdigits, hcode⟩ | ⟨hhead, _⟩)
      · cases hr
        have hinner : ∀ d ∈ digits, decide (d ≠ '\x7d') := by simpa using hdigits
        have hbrace : ∀ c, ('\x7d' :: rest).head? = some c → decide (c ≠ '\x7d') = false := by
          simp
        obtain ⟨htake, hdrop⟩ := span_append hinner hbrace
        dsimp only
        split
        case h_1 hnil => rw [hdrop] at hnil; cases hnil
        case h_2 c left hleft =>
          rw [hdrop] at hleft
          cases hleft
          rw [htake]
          split
          case h_1 code hcode' =>
            rw [hcode] at hcode'
            cases hcode'
            simp
          case h_2 hnone => simp [hcode] at hnone
      · simp at hhead
  case h_2 hne =>
    have hhead : cs.head? ≠ some '\x7b' := by
      cases cs with
      | nil => simp
      | cons c r =>
        rintro hc
        obtain rfl : c = '\x7b' := by simpa using hc
        exact hne r rfl
    constructor
    · intro h
      exact .inr ⟨hhead, h⟩
    · rintro (⟨digits, rfl, _⟩ | ⟨_, h⟩)
      · simp at hhead
      · exact h

lemma scans_code_digits {digits : List Char} (hlength : digits.length = 4)
    (hdigits : ∀ d ∈ digits, isDigitOf 16 d) (rest : List Char) :
    Scans (scanCode (digits ++ rest)) (ofDigits 16 digits) rest := by
  have hhead : (digits ++ rest).head? ≠ some '\x7b' := by
    cases digits with
    | nil => simp at hlength
    | cons d ds =>
      have hd := hdigits d (by simp)
      rintro hbrace
      obtain rfl : d = '\x7b' := by simpa using hbrace
      revert hd
      decide
  exact scans_code.2 (.inr ⟨hhead, scans_hex.2 ⟨digits, rfl, hlength, hdigits, rfl⟩⟩)

lemma characterOf_eq_ok {code left : Nat} {c : Char} :
    characterOf code left = .ok c ↔ IsCode code ∧ Char.ofNat code = c := by
  unfold characterOf IsCode
  split
  case isTrue h => simp [h]
  case isFalse h => simp [h]

/-- Behind a backslash the scanner reads exactly the escapes. -/
lemma scans_escape {cs rest : List Char} {value : Option Char} :
    Scans (scanEscape cs) value rest ↔
      ∃ text, cs = text ++ rest ∧ Escape rest.head? text value := by
  constructor
  · intro h
    unfold scanEscape at h
    split at h
    case h_1 => simp at h
    case h_2 c r =>
      split at h
      case h_1 v hv =>
        obtain ⟨rfl, rfl⟩ := scans_ok.1 h
        exact ⟨[c], rfl, .control hv⟩
      case h_2 hnone =>
        split_ifs at h with hnull hx hu hline hdigit
        · obtain ⟨rfl, hr⟩ := scans_ok.1 h
          dsimp only at hr
          subst hr
          obtain ⟨rfl, hnull⟩ := hnull
          exact ⟨['0'], rfl, .null hnull⟩
        · obtain ⟨n, left, _, hn, h⟩ := scans_bind_ok.1 h
          obtain ⟨v, hv, h⟩ := scans_bind.1 h
          obtain ⟨hcode, rfl⟩ := characterOf_eq_ok.1 hv
          obtain ⟨rfl, rfl⟩ := scans_ok.1 h
          obtain ⟨digits, rfl, hlength, hdigits, rfl⟩ := scans_hex.1 hn
          subst hx
          exact ⟨'x' :: digits, rfl, .hex hlength hdigits hcode⟩
        · obtain ⟨n, left, _, hn, h⟩ := scans_bind_ok.1 h
          obtain ⟨v, hv, h⟩ := scans_bind.1 h
          obtain ⟨hcode, rfl⟩ := characterOf_eq_ok.1 hv
          obtain ⟨rfl, rfl⟩ := scans_ok.1 h
          subst hu
          rcases scans_code.1 hn with ⟨digits, rfl, hdigits, hread⟩ | ⟨_, hn⟩
          · exact ⟨'u' :: '\x7b' :: digits ++ ['\x7d'], by simp, .codePoint hdigits hread hcode⟩
          · obtain ⟨digits, rfl, hlength, hdigits, rfl⟩ := scans_hex.1 hn
            exact ⟨'u' :: digits, rfl, .unicode hlength hdigits hcode⟩
        · obtain ⟨rfl, rfl⟩ := scans_ok.1 h
          subst hline
          exact ⟨['\n'], rfl, .lineFeed⟩
        · simp at h
        · obtain ⟨rfl, rfl⟩ := scans_ok.1 h
          exact ⟨[c], rfl, .plain hnone hx hu hline hdigit⟩
  · rintro ⟨text, rfl, htext⟩
    cases htext with
    | control h => simp [scanEscape, h]
    | null h => simp [scanEscape, controlEscape?, h]
    | @hex digits hlength hdigits hcode =>
      have hn : Scans (scanHex 2 (digits ++ rest)) (ofDigits 16 digits) rest :=
        scans_hex.2 ⟨digits, rfl, hlength, hdigits, rfl⟩
      refine scans_bind_ok.2 ⟨_, _, hn.1, hn, ?_⟩
      exact scans_bind.2 ⟨_, characterOf_eq_ok.2 ⟨hcode, rfl⟩, scans_ok.2 ⟨rfl, rfl⟩⟩
    | @unicode digits hlength hdigits hcode =>
      have hn := scans_code_digits hlength hdigits rest
      refine scans_bind_ok.2 ⟨_, _, hn.1, hn, ?_⟩
      exact scans_bind.2 ⟨_, characterOf_eq_ok.2 ⟨hcode, rfl⟩, scans_ok.2 ⟨rfl, rfl⟩⟩
    | @codePoint digits code hdigits hread hcode =>
      have hn : Scans (scanCode ('\x7b' :: digits ++ ['\x7d'] ++ rest)) code rest :=
        scans_code.2 (.inl ⟨digits, by simp, hdigits, hread⟩)
      refine scans_bind_ok.2 ⟨_, _, hn.1, hn, ?_⟩
      exact scans_bind.2 ⟨_, characterOf_eq_ok.2 ⟨hcode, rfl⟩, scans_ok.2 ⟨rfl, rfl⟩⟩
    | lineFeed => simp [scanEscape, controlEscape?]
    | plain hcontrol hx hu hline hdigit =>
      have hzero : ∀ c : Char, ¬ isDigit c → c ≠ '0' := by
        rintro c hc rfl
        exact hc (by decide)
      simp [scanEscape, hcontrol, hx, hu, hline, hdigit, hzero _ hdigit]

/-! ## Literals -/

/-- What may stand between two quotes of the given kind, and the text it stands for. -/
inductive StringBody (quote : Char) : List Char → List Char → Prop
  | nil : StringBody quote [] []
  | plain {c : Char} {body value : List Char} (hquote : c ≠ quote) (hline : c ≠ '\n')
      (hslash : c ≠ '\\') (hbody : StringBody quote body value) :
      StringBody quote (c :: body) (c :: value)
  | escape {text body value : List Char} {c : Option Char}
      (htext : Escape (body ++ [quote]).head? text c) (hbody : StringBody quote body value) :
      StringBody quote ('\\' :: (text ++ body)) (c.toList ++ value)

lemma stringBody_of_scans {quote : Char} {cs value rest : List Char}
    (h : Scans (scanString quote cs) value rest) :
    ∃ body, cs = body ++ quote :: rest ∧ StringBody quote body value := by
  induction cs using scanString.induct quote generalizing value rest with
  | case1 => simp [scanString] at h
  | case2 r =>
    simp only [scanString, if_true, scans_ok] at h
    obtain ⟨rfl, rfl⟩ := h
    exact ⟨[], rfl, .nil⟩
  | case3 r hquote => simp [scanString, hquote] at h
  | case4 r hquote hline ih =>
    rw [scanString, if_neg hquote, if_neg hline, if_pos rfl] at h
    obtain ⟨c, left, suffix, hc, h⟩ := scans_bind_ok.1 h
    obtain ⟨v, left', _, hv, h⟩ := scans_bind_ok.1 h
    obtain ⟨rfl, rfl⟩ := scans_ok.1 h
    obtain ⟨body, rfl, hbody⟩ := ih ⟨c, left, suffix⟩ hv
    obtain ⟨text, rfl, htext⟩ := scans_escape.1 hc
    refine ⟨'\\' :: (text ++ body), by simp, .escape ?_ hbody⟩
    cases body <;> exact htext
  | case5 c r hquote hline hslash ih =>
    rw [scanString, if_neg hquote, if_neg hline, if_neg hslash] at h
    obtain ⟨v, left, _, hv, h⟩ := scans_bind_ok.1 h
    obtain ⟨rfl, rfl⟩ := scans_ok.1 h
    obtain ⟨body, rfl, hbody⟩ := ih hv
    exact ⟨c :: body, rfl, .plain hquote hline hslash hbody⟩

lemma scans_of_stringBody {quote : Char} (hslash : quote ≠ '\\')
    {body value : List Char} (h : StringBody quote body value) (rest : List Char) :
    Scans (scanString quote (body ++ quote :: rest)) value rest := by
  induction h with
  | nil => simp [scanString]
  | @plain c body value hquote hc hc' _ ih =>
    rw [List.cons_append, scanString, if_neg hquote, if_neg hc, if_neg hc']
    exact scans_bind_ok.2 ⟨_, _, ih.1, ih, scans_ok.2 ⟨rfl, rfl⟩⟩
  | @escape text body value c htext _ ih =>
    have hhead : (body ++ [quote]).head? = (body ++ quote :: rest).head? := by
      cases body <;> rfl
    have hc : Scans (scanEscape (text ++ body ++ quote :: rest)) c (body ++ quote :: rest) :=
      scans_escape.2 ⟨text, by simp, hhead ▸ htext⟩
    rw [List.cons_append, scanString, if_neg hslash.symm, if_neg (by decide), if_pos rfl]
    exact scans_bind_ok.2 ⟨_, _, hc.1, hc, scans_bind_ok.2 ⟨_, _, ih.1, ih, scans_ok.2 ⟨rfl, rfl⟩⟩⟩

/-- Behind an opening quote the scanner reads exactly the bodies of literals. -/
lemma scans_string {quote : Char} (hslash : quote ≠ '\\')
    {cs value rest : List Char} :
    Scans (scanString quote cs) value rest ↔
      ∃ body, cs = body ++ quote :: rest ∧ StringBody quote body value := by
  constructor
  · exact stringBody_of_scans
  · rintro ⟨body, rfl, hbody⟩
    exact scans_of_stringBody hslash hbody rest

/-- A token that starts with a quote is a string, spelled up to its closing quote. -/
theorem scans_token_string {stop : Nat} {quote : Char} (hquote : quote = '"' ∨ quote = '\'')
    {r rest : List Char} {token : Token} :
    Scans (scanToken stop quote r) token rest ↔
      ∃ body value, r = body ++ quote :: rest ∧ StringBody quote body value ∧
        token = .string (String.ofList value) (String.ofList (quote :: (body ++ [quote]))) := by
  have hslash : quote ≠ '\\' := by rcases hquote with rfl | rfl <;> decide
  have hlexeme : ∀ body : List Char, before (body ++ quote :: rest) rest = body ++ [quote] := by
    intro body
    simpa using before_append_self (body ++ [quote]) rest
  rw [scanToken, if_pos hquote, scans_bind_ok]
  constructor
  · rintro ⟨value, left, _, hvalue, h⟩
    obtain ⟨htoken, hleft⟩ := scans_ok.1 h
    change left = rest at hleft
    subst hleft
    obtain ⟨body, rfl, hbody⟩ := stringBody_of_scans hvalue
    refine ⟨body, value, rfl, hbody, ?_⟩
    rw [← htoken, ← hlexeme body]
    rfl
  · rintro ⟨body, value, rfl, hbody, rfl⟩
    have hvalue := scans_of_stringBody hslash hbody rest
    exact ⟨value, rest, hvalue.1, hvalue,
      scans_ok.2 ⟨by rw [← hlexeme body]; rfl, rfl⟩⟩

/-! ## Numbers -/

/-- The sign of an exponent; `true` for a minus. -/
inductive Sign : List Char → Bool → Prop
  | missing : Sign [] false
  | plus : Sign ['+'] false
  | minus : Sign ['-'] true

/-- The exponent of a numeral, with its sign and digits. -/
inductive Exponent : List Char → Bool → List Char → Prop
  | missing : Exponent [] false []
  | given {e : Char} {sign digits : List Char} {negative : Bool} (he : e = 'e' ∨ e = 'E')
      (hsign : Sign sign negative) (hne : digits ≠ []) (hdigits : ∀ d ∈ digits, isDigit d) :
      Exponent (e :: (sign ++ digits)) negative digits

/-- The fraction of a numeral, with its digits. -/
inductive Fraction : List Char → List Char → Prop
  | missing : Fraction [] []
  | given {digits : List Char} (hdigits : ∀ d ∈ digits, isDigit d) : Fraction ('.' :: digits) digits

/-- What may stand behind the first character of a number literal, and the value of the whole. -/
inductive NumberBody : Char → List Char → Float → Prop
  | whole {c : Char} {digits point fraction power exponent : List Char} {negative : Bool}
      (hc : isDigit c) (hdigits : ∀ d ∈ digits, isDigit d) (hpoint : Fraction point fraction)
      (hpower : Exponent power negative exponent) :
      NumberBody c (digits ++ (point ++ power))
        (Numeral.toFloat false ⟨c :: digits, fraction, negative, exponent⟩)
  | point {digits power exponent : List Char} {negative : Bool} (hne : digits ≠ [])
      (hdigits : ∀ d ∈ digits, isDigit d) (hpower : Exponent power negative exponent) :
      NumberBody '.' (digits ++ power) (Numeral.toFloat false ⟨[], digits, negative, exponent⟩)
  | radix {x : Char} {radix n : Nat} {digits : List Char} (hx : radixOf? x = some radix)
      (hread : readDigits? radix digits = some n) (hn : n < 0x10000000000000000) :
      NumberBody '0' (x :: digits) (Number.ofInt n)

/-- Nothing in front of `rest` can be continued as a number. -/
def StopsNumber (rest : List Char) : Prop :=
  ∀ c, rest.head? = some c → isNameStart c = false ∧ isDigit c = false ∧ c ≠ '.'

/-- Neither a name nor a digit stands in front of `rest`.  A point may, behind a number that has one
already. -/
def EndsNumber (rest : List Char) : Prop :=
  ∀ c, rest.head? = some c → isNameStart c = false ∧ isDigit c = false

lemma StopsNumber.ends {rest : List Char} (h : StopsNumber rest) : EndsNumber rest :=
  fun c hc => ⟨(h c hc).1, (h c hc).2.1⟩

lemma alphabeticRanges_letters {n : Nat} (h : 0x41 ≤ n ∧ n ≤ 0x5a ∨ 0x61 ≤ n ∧ n ≤ 0x7a) :
    Text.alphabeticRanges.contains n = true := by
  have htable : Text.alphabeticRanges =
      (0x41, 0x5a) :: (0x61, 0x7a) :: Text.alphabeticRanges.tail.tail := rfl
  rw [htable]
  simp only [Text.Ranges.contains]
  split
  · omega
  · split
    · rfl
    · rw [if_neg (by omega), if_pos (by omega)]

/-- A digit of any radix is a decimal digit or a letter. -/
lemma isNameStart_or_isDigit {radix : Nat} {c : Char} (h : isDigitOf radix c) :
    isNameStart c = true ∨ isDigit c = true := by
  unfold isDigit isDigitOf at *
  unfold Number.digitValue at *
  dsimp only at *
  split_ifs at * with hdigit hlower hupper
  · right
    have : '9'.toNat = '0'.toNat + 9 := rfl
    simp only [decide_eq_true_eq]
    omega
  · left
    have : Text.alphabeticRanges.contains c.toNat = true := alphabeticRanges_letters (.inr hlower)
    simp [isNameStart, Text.isAlphabetic, this]
  · left
    have : Text.alphabeticRanges.contains c.toNat = true := alphabeticRanges_letters (.inl hupper)
    simp [isNameStart, Text.isAlphabetic, this]

lemma exists_sign (cs : List Char) :
    ∃ sign, cs = sign ++ (splitSign cs).2 ∧ Sign sign (splitSign cs).1 := by
  unfold splitSign
  split
  · exact ⟨['-'], rfl, .minus⟩
  · exact ⟨['+'], rfl, .plus⟩
  · exact ⟨[], rfl, .missing⟩

lemma splitSign_append {sign cs : List Char} {negative : Bool} (h : Sign sign negative)
    (hplus : cs.head? ≠ some '+') (hminus : cs.head? ≠ some '-') :
    splitSign (sign ++ cs) = (negative, cs) := by
  cases h with
  | plus => rfl
  | minus => rfl
  | missing =>
    unfold splitSign
    split
    case h_1 heq => exact absurd (congrArg List.head? heq) hminus
    case h_2 heq => exact absurd (congrArg List.head? heq) hplus
    case h_3 => rfl

lemma scans_exponent {text digits rest : List Char} {negative : Bool}
    (h : Exponent text negative digits) (hrest : EndsNumber rest) :
    Scans (scanExponent (text ++ rest)) (negative, digits) rest := by
  cases h with
  | missing =>
    cases rest with
    | nil => exact scans_ok.2 ⟨rfl, rfl⟩
    | cons c r =>
      have hc : ¬ (c = 'e' ∨ c = 'E') := by
        have hstart := (hrest c rfl).1
        rintro (rfl | rfl) <;> revert hstart <;> decide
      rw [List.nil_append, scanExponent, if_neg hc]
      exact scans_ok.2 ⟨rfl, rfl⟩
  | @given e sign digits negative he hsign hne hdigits =>
    have hspan := span_append hdigits fun c hc => (hrest c hc).2
    have hsplit : splitSign (sign ++ digits ++ rest) = (negative, digits ++ rest) := by
      obtain ⟨d, ds, rfl⟩ := List.exists_cons_of_ne_nil hne
      have hd := hdigits d (by simp)
      rw [List.append_assoc]
      refine splitSign_append hsign ?_ ?_ <;>
        · rintro heq
          obtain rfl := Option.some.inj heq
          exact absurd hd (by decide)
    have hhead : (digits ++ rest).head?.any isDigit := by
      obtain ⟨d, ds, rfl⟩ := List.exists_cons_of_ne_nil hne
      simpa using hdigits d (by simp)
    rw [List.cons_append, scanExponent, if_pos he]
    dsimp only
    rw [if_pos (by rw [hsplit]; exact hhead)]
    refine scans_ok.2 ⟨?_, ?_⟩
    · simp only [hsplit, hspan.1]
    · simp only [hsplit, hspan.2]

lemma exists_fraction (cs : List Char) :
    ∃ point, cs = point ++ (splitFraction cs).2 ∧ Fraction point (splitFraction cs).1 := by
  unfold splitFraction
  split
  case h_1 rest =>
    exact ⟨'.' :: rest.takeWhile isDigit, by simp, .given fun d hd => List.mem_takeWhile_imp hd⟩
  case h_2 => exact ⟨[], rfl, .missing⟩

lemma exponent_of_scans {cs digits rest : List Char} {negative : Bool}
    (h : Scans (scanExponent cs) (negative, digits) rest) :
    ∃ text, cs = text ++ rest ∧ Exponent text negative digits := by
  unfold scanExponent at h
  split at h
  case h_1 =>
    obtain ⟨hvalue, rfl⟩ := scans_ok.1 h
    cases hvalue
    exact ⟨[], rfl, .missing⟩
  case h_2 e r =>
    split_ifs at h with he
    · dsimp only at h
      split_ifs at h with hdigit
      · obtain ⟨hvalue, rfl⟩ := scans_ok.1 h
        cases hvalue
        obtain ⟨sign, hr, hsign⟩ := exists_sign r
        refine ⟨e :: (sign ++ (splitSign r).2.takeWhile isDigit), ?_, .given he hsign ?_ ?_⟩
        · rw [List.cons_append, List.append_assoc, List.takeWhile_append_dropWhile, ← hr]
        · intro hnil
          cases hds : (splitSign r).2 with
          | nil => simp [hds] at hdigit
          | cons d ds =>
            rw [hds] at hdigit hnil
            simp only [List.head?_cons, Option.any_some] at hdigit
            simp [hdigit] at hnil
        · intro d hd
          exact List.mem_takeWhile_imp hd
      · simp at h
    · obtain ⟨hvalue, rfl⟩ := scans_ok.1 h
      cases hvalue
      exact ⟨[], rfl, .missing⟩

lemma head?_exponent {power digits rest : List Char} {negative : Bool}
    (h : Exponent power negative digits) {c : Char} (hc : (power ++ rest).head? = some c) :
    c = 'e' ∨ c = 'E' ∨ rest.head? = some c := by
  cases h with
  | missing => exact .inr (.inr hc)
  | given he _ _ _ =>
    obtain rfl := by simpa using hc
    rcases he with rfl | rfl
    · exact .inl rfl
    · exact .inr (.inl rfl)

lemma head?_fraction {point fraction rest : List Char} (h : Fraction point fraction) {c : Char}
    (hc : (point ++ rest).head? = some c) : c = '.' ∨ rest.head? = some c := by
  cases h with
  | missing => exact .inr hc
  | given _ => exact .inl (by simpa using hc.symm)

/-- What stands behind the digits of a numeral does not begin with a digit, nor with the letter
of a radix. -/
lemma head?_afterDigits {point fraction power digits rest : List Char} {negative : Bool}
    (hpoint : Fraction point fraction) (hpower : Exponent power negative digits)
    (hrest : EndsNumber rest) {c : Char} (hc : (point ++ (power ++ rest)).head? = some c) :
    isDigit c = false ∧ radixOf? c = none := by
  have hletter : isNameStart c = false → radixOf? c = none := by
    intro hstart
    unfold radixOf?
    split <;> first | rfl | (revert hstart; decide)
  rcases head?_fraction hpoint hc with rfl | hc
  · decide
  · rcases head?_exponent hpower hc with rfl | rfl | hc
    · decide
    · decide
    · exact ⟨(hrest c hc).2, hletter (hrest c hc).1⟩

lemma splitFraction_append {point fraction power digits rest : List Char} {negative : Bool}
    (hpoint : Fraction point fraction) (hpower : Exponent power negative digits)
    (hrest : EndsNumber rest) (hdot : point ++ power = [] → rest.head? ≠ some '.') :
    splitFraction (point ++ (power ++ rest)) = (fraction, power ++ rest) := by
  cases hpoint with
  | missing =>
    unfold splitFraction
    split
    case h_1 r heq =>
      cases hpower with
      | missing => exact absurd (congrArg List.head? heq) (hdot rfl)
      | given he _ _ _ =>
        obtain ⟨rfl, _⟩ := List.cons.inj heq
        rcases he with he | he <;> cases he
    case h_2 => rfl
  | given hdigits =>
    have hspan := span_append hdigits fun c (hc : (power ++ rest).head? = some c) =>
      (head?_afterDigits .missing hpower hrest hc).1
    rw [List.cons_append, splitFraction, hspan.1, hspan.2]

lemma scans_numeral {whole fraction cs rest : List Char} {value : Float} :
    Scans (scanNumeral whole fraction cs) value rest ↔
      ∃ negative exponent, Scans (scanExponent cs) (negative, exponent) rest ∧
        value = Numeral.toFloat false ⟨whole, fraction, negative, exponent⟩ := by
  rw [scanNumeral, scans_bind_ok]
  constructor
  · rintro ⟨⟨negative, exponent⟩, left, _, hexp, h⟩
    obtain ⟨rfl, rfl⟩ := scans_ok.1 h
    exact ⟨negative, exponent, hexp, rfl⟩
  · rintro ⟨negative, exponent, hexp, rfl⟩
    exact ⟨(negative, exponent), rest, hexp.1, hexp, scans_ok.2 ⟨rfl, rfl⟩⟩

lemma scans_decimal_point {r rest : List Char} {value : Float} :
    Scans (scanDecimal '.' r) value rest ↔
      Scans (scanNumeral [] (r.takeWhile isDigit) (r.dropWhile isDigit)) value rest :=
  scans_within

lemma scans_decimal_digit {c : Char} (hc : c ≠ '.') {r rest : List Char} {value : Float} :
    Scans (scanDecimal c r) value rest ↔
      Scans (scanNumeral (c :: r.takeWhile isDigit) (splitFraction (r.dropWhile isDigit)).1
        (splitFraction (r.dropWhile isDigit)).2) value rest := by
  rw [scanDecimal, if_neg hc]
  exact scans_within

lemma scanValue_eq_scanDecimal {c : Char} {r : List Char}
    (h : c = '0' → ∀ x, r.head? = some x → radixOf? x = none) :
    scanValue c r = scanDecimal c r := by
  unfold scanValue
  split
  case h_1 => rfl
  case h_2 x r' =>
    split
    case h_1 radix hradix =>
      split_ifs with hc
      · rw [h hc x rfl] at hradix
        cases hradix
      · rfl
    case h_2 => rfl

lemma scans_radix {start cs rest : List Char} {radix : Nat} {value : Float} :
    Scans (scanRadix start radix cs) value rest ↔
      ∃ n, readDigits? radix (cs.takeWhile (isDigitOf radix)) = some n ∧
        n < 0x10000000000000000 ∧ value = Number.ofInt n ∧
        rest = cs.dropWhile (isDigitOf radix) := by
  unfold scanRadix
  dsimp only
  constructor
  · intro h
    split at h
    case h_1 n hn =>
      obtain ⟨hread, hlt⟩ := Option.filter_eq_some_iff.1 hn
      obtain ⟨rfl, rfl⟩ := scans_ok.1 h
      exact ⟨n, hread, by simpa using hlt, rfl, rfl⟩
    case h_2 => simp at h
  · rintro ⟨n, hread, hlt, rfl, rfl⟩
    have hn : (readDigits? radix (cs.takeWhile (isDigitOf radix))).filter
        (· < 0x10000000000000000) = some n := by
      rw [hread]
      simp [hlt]
    split
    case h_1 m hm =>
      rw [hn] at hm
      cases hm
      exact scans_ok.2 ⟨rfl, rfl⟩
    case h_2 hnone =>
      rw [hn] at hnone
      cases hnone

lemma forall_isDigitOf_of_readDigits? {radix n : Nat} {digits : List Char}
    (h : readDigits? radix digits = some n) : ∀ d ∈ digits, isDigitOf radix d := by
  unfold readDigits? at h
  split_ifs at h with hall
  simp only [Bool.and_eq_true, List.all_eq_true] at hall
  exact hall.2

/-- The value of a number literal is read if nothing behind it continues it: a point does so only
behind digits. -/
lemma scans_value_of_ends {c : Char} {body rest : List Char} {value : Float}
    (h : NumberBody c body value) (hrest : EndsNumber rest)
    (hdot : rest.head? = some '.' → c ≠ '.' → ∃ d ∈ body, isDigit d = false) :
    Scans (scanValue c (body ++ rest)) value rest := by
  induction h with
  | @whole c digits point fraction power exponent negative hc hdigits hpoint hpower =>
    have hne : c ≠ '.' := by
      rintro rfl
      revert hc
      decide
    have hafter := fun c hc => head?_afterDigits (c := c) hpoint hpower hrest hc
    obtain ⟨htake, hdrop⟩ := span_append hdigits fun c hc => (hafter c hc).1
    have hsplit := splitFraction_append hpoint hpower hrest fun hnone hhead => by
      obtain ⟨d, hd, hfalse⟩ := hdot hhead hne
      rw [hnone, List.append_nil] at hd
      rw [hdigits d hd] at hfalse
      cases hfalse
    have hdecimal : ∀ x, (digits ++ (point ++ (power ++ rest))).head? = some x →
        radixOf? x = none := by
      intro x hx
      cases digits with
      | nil => exact (hafter x hx).2
      | cons d ds =>
        obtain rfl : d = x := by simpa using hx
        have hd := hdigits d (by simp)
        unfold radixOf?
        split <;> first | rfl | (revert hd; decide)
    rw [List.append_assoc, List.append_assoc, scanValue_eq_scanDecimal fun _ => hdecimal,
      scans_decimal_digit hne, htake, hdrop, hsplit, scans_numeral]
    exact ⟨negative, exponent, scans_exponent hpower hrest, rfl⟩
  | @point digits power exponent negative hne hdigits hpower =>
    have hafter := fun c (hc : (power ++ rest).head? = some c) =>
      head?_afterDigits .missing hpower hrest hc
    obtain ⟨htake, hdrop⟩ := span_append hdigits fun c hc => (hafter c hc).1
    rw [List.append_assoc, scanValue_eq_scanDecimal (by simp), scans_decimal_point, htake, hdrop,
      scans_numeral]
    exact ⟨negative, exponent, scans_exponent hpower hrest, rfl⟩
  | @radix x radix n digits hx hread hn =>
    have hall := forall_isDigitOf_of_readDigits? hread
    have hstop : ∀ c, rest.head? = some c → isDigitOf radix c = false := by
      intro c hc
      by_contra hdigit
      obtain ⟨hstart, hdecimal⟩ := hrest c hc
      rcases isNameStart_or_isDigit (by simpa using hdigit) with h | h
      · rw [h] at hstart
        cases hstart
      · rw [h] at hdecimal
        cases hdecimal
    obtain ⟨htake, hdrop⟩ := span_append hall hstop
    rw [List.cons_append, scanValue, hx]
    simp only [if_true]
    refine scans_within.2 (scans_radix.2 ⟨n, ?_, hn, rfl, ?_⟩)
    · rw [htake, hread]
    · rw [hdrop]

/-- The value of a number literal is read if nothing at all behind it continues it. -/
lemma scans_value {c : Char} {body rest : List Char} {value : Float}
    (h : NumberBody c body value) (hrest : StopsNumber rest) :
    Scans (scanValue c (body ++ rest)) value rest :=
  scans_value_of_ends h hrest.ends fun hhead => absurd rfl (hrest '.' hhead).2.2

/-- A point behind digits belongs to the number. -/
lemma not_scans_value_before_point {c : Char} {body r : List Char} {value : Float}
    (hc : isDigit c) (hbody : ∀ d ∈ body, isDigit d) :
    ¬ Scans (scanValue c (body ++ '.' :: r)) value ('.' :: r) := by
  intro h
  have hne : c ≠ '.' := by
    rintro rfl
    revert hc
    decide
  have hdecimal : ∀ x, (body ++ '.' :: r).head? = some x → radixOf? x = none := by
    intro x hx
    cases body with
    | nil =>
      cases hx
      rfl
    | cons d ds =>
      obtain rfl : d = x := by simpa using hx
      have hd := hbody d (by simp)
      unfold radixOf?
      split <;> first | rfl | (revert hd; decide)
  have hpoint : ∀ x, ('.' :: r).head? = some x → isDigit x = false := by
    rintro _ ⟨⟩
    decide
  obtain ⟨htake, hdrop⟩ := span_append hbody hpoint
  rw [scanValue_eq_scanDecimal fun _ => hdecimal, scans_decimal_digit hne, htake, hdrop,
    scans_numeral] at h
  obtain ⟨_, _, ⟨hsuffix, _⟩, _⟩ := h
  have hle := hsuffix.length_le
  have hshort := (List.dropWhile_suffix (l := r) isDigit).length_le
  simp only [splitFraction, List.length_cons] at hle
  omega

lemma numberBody_of_scans {c : Char} {r rest : List Char} {value : Float}
    (hc : isDigit c ∨ c = '.' ∧ r.head?.any isDigit) (h : Scans (scanValue c r) value rest) :
    ∃ body, r = body ++ rest ∧ NumberBody c body value := by
  have hdecimal : Scans (scanDecimal c r) value rest →
      ∃ body, r = body ++ rest ∧ NumberBody c body value := by
    intro h
    have hspan := List.takeWhile_append_dropWhile (p := isDigit) (l := r)
    have hdigits : ∀ d ∈ r.takeWhile isDigit, isDigit d := fun d hd => List.mem_takeWhile_imp hd
    by_cases hdot : c = '.'
    · subst hdot
      have hne : r.takeWhile isDigit ≠ [] := by
        rcases hc with hc | ⟨_, hc⟩
        · exact absurd hc (by decide)
        · cases r with
          | nil => simp at hc
          | cons d ds =>
            simp only [List.head?_cons, Option.any_some] at hc
            simp [hc]
      obtain ⟨negative, exponent, hexp, rfl⟩ := scans_numeral.1 (scans_decimal_point.1 h)
      obtain ⟨power, hpower, hexp⟩ := exponent_of_scans hexp
      refine ⟨r.takeWhile isDigit ++ power, ?_, .point hne hdigits hexp⟩
      rw [List.append_assoc, ← hpower, hspan]
    · have hc : isDigit c := by
        rcases hc with hc | ⟨hc, _⟩
        · exact hc
        · exact absurd hc hdot
      obtain ⟨negative, exponent, hexp, rfl⟩ := scans_numeral.1 ((scans_decimal_digit hdot).1 h)
      obtain ⟨power, hpower, hexp⟩ := exponent_of_scans hexp
      obtain ⟨point, hpoint, hfraction⟩ := exists_fraction (r.dropWhile isDigit)
      refine ⟨r.takeWhile isDigit ++ (point ++ power), ?_, .whole hc hdigits hfraction hexp⟩
      rw [List.append_assoc, List.append_assoc, ← hpower, ← hpoint, hspan]
  by_cases hradix : c = '0' → ∀ x, r.head? = some x → radixOf? x = none
  · exact hdecimal (scanValue_eq_scanDecimal hradix ▸ h)
  · simp only [Classical.not_forall] at hradix
    obtain ⟨rfl, x, hx, hradix⟩ := hradix
    obtain ⟨r', rfl⟩ : ∃ r', r = x :: r' := by
      cases r with
      | nil => cases hx
      | cons y r' => exact ⟨r', by simpa using hx⟩
    obtain ⟨radix, hradix⟩ := Option.ne_none_iff_exists'.1 hradix
    rw [scanValue, hradix] at h
    simp only [if_true] at h
    obtain ⟨n, hread, hn, rfl, rfl⟩ := scans_radix.1 (scans_within.1 h)
    refine ⟨x :: r'.takeWhile (isDigitOf radix), ?_, .radix hradix hread hn⟩
    rw [List.cons_append, List.takeWhile_append_dropWhile]

/-- A number literal is read whole if its value is, and no name and no digit follows. -/
lemma scans_number_of_value {c : Char} {body rest : List Char} {value : Float}
    (hvalue : Scans (scanValue c (body ++ rest)) value rest) (hrest : EndsNumber rest) :
    Scans (scanNumber c (body ++ rest)) (.number value (String.ofList (c :: body))) rest := by
  have hstop : ¬ rest.head?.any fun c => isNameStart c || isDigit c := by
    cases hd : rest.head? with
    | none => simp
    | some d => simp [hrest d hd]
  refine scans_bind_ok.2 ⟨value, rest, hvalue.1, hvalue, ?_⟩
  dsimp only
  rw [if_neg hstop]
  refine scans_ok.2 ⟨?_, rfl⟩
  change number value (String.ofList (c :: before (body ++ rest) rest)) = _
  rw [before_append_self]

/-- A number literal is read whole if nothing behind it continues it. -/
theorem scans_number {c : Char} {body rest : List Char} {value : Float}
    (h : NumberBody c body value) (hrest : StopsNumber rest) :
    Scans (scanNumber c (body ++ rest)) (.number value (String.ofList (c :: body))) rest :=
  scans_number_of_value (scans_value h hrest) hrest.ends

/-- What is read as a number literal has a value, and no name and no digit follows it. -/
lemma value_of_scans_number {c : Char} {r rest : List Char} {token : Token}
    (h : Scans (scanNumber c r) token rest) :
    (∃ value, Scans (scanValue c r) value rest) ∧ EndsNumber rest := by
  obtain ⟨value, left, _, hvalue, h⟩ := scans_bind_ok.1 h
  dsimp only at h
  split_ifs at h with hstop
  · simp [throw, throwThe, MonadExceptOf.throw] at h
  · obtain ⟨-, hleft⟩ := scans_ok.1 h
    change left = rest at hleft
    subst hleft
    refine ⟨⟨value, hvalue⟩, fun d hd => ?_⟩
    simpa [hd] using hstop

theorem numberBody_of_scans_number {c : Char} {r rest : List Char} {token : Token}
    (hc : isDigit c ∨ c = '.' ∧ r.head?.any isDigit) (h : Scans (scanNumber c r) token rest) :
    ∃ body value, r = body ++ rest ∧ NumberBody c body value ∧
      token = .number value (String.ofList (c :: body)) := by
  obtain ⟨value, left, _, hvalue, h⟩ := scans_bind_ok.1 h
  dsimp only at h
  split_ifs at h
  · simp [throw, throwThe, MonadExceptOf.throw] at h
  · obtain ⟨htoken, hleft⟩ := scans_ok.1 h
    change left = rest at hleft
    subst hleft
    obtain ⟨body, rfl, hbody⟩ := numberBody_of_scans hc hvalue
    refine ⟨body, value, rfl, hbody, ?_⟩
    rw [← htoken]
    change number value (String.ofList (c :: before (body ++ left) left)) = _
    rw [before_append_self]

end RowExpr.Token
