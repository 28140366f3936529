/-
# The value of a template

The texts of a template are kept as they are written, because generated code repeats them and the
host decodes their escapes.  A template that is folded is not repeated, and its value has the same
texts, with the escapes as they are written.  A string of the same characters has its escapes
decoded, so the two values agree exactly if there is no escape.

* `Token.Decoded.eq_iff`: a text stands for the characters that are written if none of them is a
  backslash;
* `Expr.fold_template_eq_ok_iff`: the value of a template from the values in its holes;
* `Expr.fold_template_written`: the value of a template against the decoded texts.
-/
import RowExpr.Proofs.Expr.Branches
import RowExpr.Proofs.Roundtrip.Generated

namespace RowExpr

namespace Token

open RowExpr.Number (isDigit)

/-! ## Texts and the characters that are written -/

/-- The text with its escapes decoded, as they are in a string. -/
inductive Decoded : List Char → List Char → Prop
  | nil : Decoded [] []
  | plain {c : Char} {body value : List Char} (hslash : c ≠ '\\') (hbody : Decoded body value) :
      Decoded (c :: body) (c :: value)
  | escape {text body value : List Char} {c : Option Char} (htext : Escape body.head? text c)
      (hbody : Decoded body value) : Decoded ('\\' :: (text ++ body)) (c.toList ++ value)

/-- What an escape stands for depends on the next character only where that is a digit. -/
lemma Escape.of_next {next next' : Option Char} {text : List Char} {value : Option Char}
    (h : Escape next text value) (hnext : next'.any isDigit → next.any isDigit) :
    Escape next' text value := by
  cases h with
  | control h => exact .control h
  | null h => exact .null (mt hnext h)
  | hex hlength hdigits hcode => exact .hex hlength hdigits hcode
  | unicode hlength hdigits hcode => exact .unicode hlength hdigits hcode
  | codePoint hdigits hread hcode => exact .codePoint hdigits hread hcode
  | lineFeed => exact .lineFeed
  | plain hcontrol hx hu hline hdigit => exact .plain hcontrol hx hu hline hdigit

lemma StringBody.decoded {quote : Char} {body value : List Char}
    (h : StringBody quote body value) : Decoded body value := by
  induction h with
  | nil => exact .nil
  | plain _ _ hslash _ ih => exact .plain hslash ih
  | @escape text body value c htext _ ih =>
    refine .escape (htext.of_next ?_) ih
    cases body <;> simp

lemma Escape.length_le {next : Option Char} {text : List Char} {value : Option Char}
    (h : Escape next text value) : value.toList.length ≤ text.length := by
  have hvalue : value.toList.length ≤ 1 := by cases value <;> simp
  have htext : 1 ≤ text.length := by cases h <;> simp
  exact hvalue.trans htext

/-- Decoding makes a text with an escape shorter, and no text longer. -/
lemma Decoded.length_le {body value : List Char} (h : Decoded body value) :
    value.length ≤ body.length ∧ ('\\' ∈ body → value.length < body.length) := by
  induction h with
  | nil => simp
  | plain hslash _ ih =>
    simp only [List.length_cons, List.mem_cons, Ne.symm hslash, false_or]
    exact ⟨by omega, fun hmem => Nat.succ_lt_succ (ih.2 hmem)⟩
  | escape htext _ ih =>
    have := htext.length_le
    simp only [List.length_append, List.length_cons]
    omega

lemma Decoded.eq_of_not_mem {body value : List Char} (h : Decoded body value)
    (hslash : '\\' ∉ body) : body = value := by
  induction h with
  | nil => rfl
  | plain _ _ ih => rw [ih fun hmem => hslash (List.mem_cons_of_mem _ hmem)]
  | escape => simp at hslash

/-- A text stands for the characters that are written if and only if it has no escape. -/
lemma Decoded.eq_iff {body value : List Char} (h : Decoded body value) :
    body = value ↔ '\\' ∉ body := by
  refine ⟨fun heq hslash => ?_, h.eq_of_not_mem⟩
  have := h.length_le.2 hslash
  rw [heq] at this
  exact this.false

end Token

namespace Expr

open Token (Decoded)

variable {registry : Registry}

/-! ## Templates and the values in their holes -/

/-- The texts of the values, each with the text that follows it. -/
def interleave (values : List Value) (texts : List String) : String :=
  String.join (List.zipWith (fun v text => v.toText ++ text) values texts)

lemma evalParts_eq_ok_iff {parts : List (Expr × String)} {text : String} :
    evalParts registry parts = .ok text ↔
      ∃ values, List.Forall₂ (fun part v => part.1.eval registry = .ok v) parts values ∧
        text = interleave values (parts.map Prod.snd) := by
  induction parts generalizing text with
  | nil => simp [evalParts, interleave, eq_comm]
  | cons part rest ih =>
    obtain ⟨e, after⟩ := part
    constructor
    · intro h
      obtain ⟨v, hv, h⟩ := bind_eq_ok_iff.mp h
      obtain ⟨tail, htail, h⟩ := bind_eq_ok_iff.mp h
      obtain ⟨values, hvalues, rfl⟩ := ih.mp htail
      cases h
      exact ⟨v :: values, .cons hv hvalues, by simp [interleave]⟩
    · rintro ⟨values, hvalues, rfl⟩
      cases hvalues with
      | @cons _ v _ values hv hvalues =>
        refine bind_eq_ok_iff.mpr ⟨v, hv, ?_⟩
        refine bind_eq_ok_iff.mpr ⟨_, ih.mpr ⟨values, hvalues, rfl⟩, ?_⟩
        simp [interleave, pure, Except.pure]

lemma eval_template_eq_ok_iff {head : String} {parts : List (Expr × String)} {w : Value} :
    (template head parts).eval registry = .ok w ↔
      ∃ values, List.Forall₂ (fun part v => part.1.eval registry = .ok v) parts values ∧
        w = .string (head ++ interleave values (parts.map Prod.snd)) := by
  constructor
  · intro h
    obtain ⟨text, htext, h⟩ := bind_eq_ok_iff.mp h
    obtain ⟨values, hvalues, rfl⟩ := evalParts_eq_ok_iff.mp htext
    cases h
    exact ⟨values, hvalues, rfl⟩
  · rintro ⟨values, hvalues, rfl⟩
    exact bind_eq_ok_iff.mpr ⟨_, evalParts_eq_ok_iff.mpr ⟨values, hvalues, rfl⟩, rfl⟩

/-- A template varies with the row if one of the expressions in its holes does. -/
lemma forall_within_template_iff {head : String} {parts : List (Expr × String)} :
    (∀ s, Within s (template head parts) → ¬ s.Varies registry) ↔
      ∀ part ∈ parts, ∀ s, Within s part.1 → ¬ s.Varies registry := by
  rw [forall_within_iff]
  have hself : ¬ (template head parts).Varies registry := id
  simp only [hself, not_false_iff, true_and, children, List.forall_mem_map]

/-- A template is folded if the expressions in its holes are, to its texts as they are written with
the texts of their values in between. -/
theorem fold_template_eq_ok_iff {head : String} {parts : List (Expr × String)} {w : Value} :
    (template head parts).fold registry = .ok w ↔
      ∃ values, List.Forall₂ (fun part v => part.1.fold registry = .ok v) parts values ∧
        w = .string (head ++ interleave values (parts.map Prod.snd)) := by
  rw [fold_eq_ok_iff_eval, forall_within_template_iff, eval_template_eq_ok_iff]
  simp only [fold_eq_ok_iff_eval, List.forall₂_and_left, and_assoc, exists_and_left]

/-! ## Templates and decoded texts -/

/-- Decoding makes the texts between the values shorter, if one of them has an escape, and never
longer. -/
lemma length_interleave_le {texts decoded : List String}
    (h : List.Forall₂ (fun text value => Decoded text.toList value.toList) texts decoded)
    {values : List Value} (hlength : values.length = texts.length) :
    (interleave values decoded).length ≤ (interleave values texts).length ∧
      ((∃ text ∈ texts, '\\' ∈ text.toList) →
        (interleave values decoded).length < (interleave values texts).length) := by
  induction h generalizing values with
  | nil => simp [interleave]
  | @cons text value texts decoded htext _ ih =>
    obtain _ | ⟨v, values⟩ := values
    · simp at hlength
    obtain ⟨hle, hlt⟩ := htext.length_le
    obtain ⟨ihle, ihlt⟩ := ih (Nat.succ.inj hlength)
    simp only [String.length_toList] at hle hlt
    have hcons : ∀ after rest, (interleave (v :: values) (after :: rest)).length =
        v.toText.length + after.length + (interleave values rest).length := by
      simp [interleave]
    rw [hcons, hcons]
    refine ⟨by omega, ?_⟩
    rintro ⟨text', hmem, hslash⟩
    obtain rfl | hmem := List.mem_cons.mp hmem
    · have := hlt hslash
      omega
    · have := ihlt ⟨text', hmem, hslash⟩
      omega

/-- The texts of a template as they are written and its decoded texts make the same text with the
values in between, if and only if none of them has an escape. -/
lemma append_interleave_eq_iff {head head' : String} {texts decoded : List String}
    (hhead : Decoded head.toList head'.toList)
    (htexts : List.Forall₂ (fun text value => Decoded text.toList value.toList) texts decoded)
    {values : List Value} (hlength : values.length = texts.length) :
    head ++ interleave values texts = head' ++ interleave values decoded ↔
      ∀ text ∈ head :: texts, '\\' ∉ text.toList := by
  constructor
  · intro heq text hmem hslash
    obtain ⟨hle, hlt⟩ := hhead.length_le
    obtain ⟨hle', hlt'⟩ := length_interleave_le htexts hlength
    simp only [String.length_toList] at hle hlt
    have heq := congrArg String.length heq
    simp only [String.length_append] at heq
    obtain rfl | hmem := List.mem_cons.mp hmem
    · have := hlt hslash
      omega
    · have := hlt' ⟨text, hmem, hslash⟩
      omega
  · intro h
    obtain ⟨hslash, hslashes⟩ := List.forall_mem_cons.mp h
    have heads : head = head' := String.toList_injective (hhead.eq_of_not_mem hslash)
    have htexts : texts = decoded := by
      have hall := (List.forall₂_and_left _ _).mpr ⟨hslashes, htexts⟩
      rw [← List.forall₂_eq_eq_eq]
      exact hall.imp fun text value ⟨hslash, htext⟩ =>
        String.toList_injective (htext.eq_of_not_mem hslash)
    rw [heads, htexts]

/-- The text is scanned as the token, and nothing else. -/
def IsToken (text : String) (token : Token) : Prop :=
  ∃ position stop, TokenRun.ofText 0 text = ⟨[⟨position, token⟩], .eof stop⟩

/-- A text that is one template without holes writes that template. -/
lemma parse_of_isToken {text r : String} (h : IsToken text (.template r [])) :
    parse text = .ok (template r []) := by
  obtain ⟨position, stop, h⟩ := h
  have hstarts : (TokenRun.ofText 0 text).Starts (.template r []) (TokenRun.scan stop []) := by
    rw [TokenRun.scan_nil]
    exact ⟨position, h⟩
  have hholes : Grammar.GivesIff True [] (Grammar.holes []) := by
    rw [Grammar.holes]
    exact Grammar.givesIff_ok
  have hfront : Grammar.closes (Grammar.front (TokenRun.scan stop []).tokens) := by
    rw [TokenRun.scan_nil]
    rfl
  have hreads := Grammar.readsIff_assignment_template hstarts hholes hfront rfl
  have hwhole := hreads.wholeText (Grammar.reached_of_starts hstarts)
  exact hwhole.1 ⟨trivial, Grammar.reached_nil stop⟩

/-- The value of a string is the decoded text between its quotes. -/
lemma decoded_of_isToken {r v : String}
    (h : IsToken ("'" ++ r ++ "'") (.string v ("'" ++ r ++ "'"))) :
    Decoded r.toList v.toList := by
  obtain ⟨position, stop, h⟩ := h
  have hsound := TokenRun.sound_scan (0 + ("'" ++ r ++ "'").toList.length) ("'" ++ r ++ "'").toList
  rw [← TokenRun.ofText, h] at hsound
  obtain ⟨quote, body, cs, _, hraw, hbody, rfl⟩ := hsound _ (List.mem_singleton_self _)
  have hr : r.toList = body := by
    simp only [String.toList_append, List.append_assoc] at hraw
    obtain ⟨rfl, hraw⟩ := List.cons.inj hraw
    exact List.append_cancel_right hraw
  rw [hr, String.toList_ofList]
  exact hbody.decoded

/-- A template without holes is folded to the characters that are written, and so to the value of a
string of the same characters exactly if there is no escape.  A template is folded if and only if
the expressions in its holes are, to its texts as they are written with the texts of their values in
between; with decoded texts, that is the same value exactly if none of them has an escape. -/
theorem fold_template_written (registry : Registry) :
    (∀ r v : String, IsToken ("'" ++ r ++ "'") (.string v ("'" ++ r ++ "'")) →
      IsToken ("\x60" ++ r ++ "\x60") (.template r []) →
      ∃ e, parse ("\x60" ++ r ++ "\x60") = .ok e ∧ e.fold registry = .ok (.string r) ∧
        (e.fold registry = .ok (.string v) ↔ '\\' ∉ r.toList)) ∧
    ∀ (head : String) (parts : List (Expr × String)),
      (∀ w, (template head parts).fold registry = .ok w ↔
        ∃ values, List.Forall₂ (fun part v => part.1.fold registry = .ok v) parts values ∧
          w = .string (head ++ interleave values (parts.map Prod.snd))) ∧
      ∀ (values : List Value) (head' : String) (decoded : List String),
        List.Forall₂ (fun part v => part.1.fold registry = .ok v) parts values →
        Decoded head.toList head'.toList →
        List.Forall₂ (fun text value => Decoded text.toList value.toList)
          (parts.map Prod.snd) decoded →
        ((template head parts).fold registry = .ok (.string (head' ++ interleave values decoded)) ↔
          ∀ text ∈ head :: parts.map Prod.snd, '\\' ∉ text.toList) := by
  refine ⟨fun r v hstring htemplate => ?_, fun head parts => ⟨fun w => ?_, ?_⟩⟩
  · have hfold : (template r []).fold registry = .ok (.string r) :=
      fold_template_eq_ok_iff.mpr ⟨[], .nil, by simp [interleave]⟩
    refine ⟨template r [], parse_of_isToken htemplate, hfold, ?_⟩
    rw [hfold, ← (decoded_of_isToken hstring).eq_iff]
    simp [String.toList_inj]
  · exact fold_template_eq_ok_iff
  · intro values head' decoded hvalues hhead htexts
    have hfold : (template head parts).fold registry =
        .ok (.string (head ++ interleave values (parts.map Prod.snd))) :=
      fold_template_eq_ok_iff.mpr ⟨values, hvalues, rfl⟩
    have hlength : values.length = (parts.map Prod.snd).length := by
      rw [List.length_map, hvalues.length_eq]
    rw [hfold, ← append_interleave_eq_iff hhead htexts hlength]
    simp

/-- A line feed and a tabulator, both as escapes, around a hole. -/
theorem fold_template_written_lineAndTab :
    (IsToken "'\\n'" (.string "\n" "'\\n'") ∧ IsToken "\x60\\n\x60" (.template "\\n" []) ∧
      ∃ e, parse "\x60\\n\x60" = .ok e ∧ e.fold .standard = .ok (.string "\\n") ∧
        e.fold .standard ≠ .ok (.string "\n")) ∧
    (template "\\n" [(literal .null, "\\t")]).fold .standard = .ok (.string "\\nnull\\t") ∧
      (template "\\n" [(literal .null, "\\t")]).fold .standard ≠ .ok (.string "\nnull\t") := by
  obtain ⟨hwhole, hparts⟩ := fold_template_written .standard
  obtain ⟨hfold, hdecoded⟩ := hparts "\\n" [(literal .null, "\\t")]
  have hstring : IsToken "'\\n'" (.string "\n" "'\\n'") := ⟨0, 4, by cbv⟩
  have htemplate : IsToken "\x60\\n\x60" (.template "\\n" []) := ⟨0, 4, by cbv⟩
  have hvalues : List.Forall₂ (fun part v => part.1.fold .standard = .ok v)
      [(literal .null, "\\t")] [.null] := .cons rfl .nil
  have hline : Decoded "\\n".toList "\n".toList :=
    .escape (.control (by decide)) .nil
  have htab : Decoded "\\t".toList "\t".toList :=
    .escape (.control (by decide)) .nil
  refine ⟨⟨hstring, htemplate, ?_⟩, (hfold _).mpr ⟨_, hvalues, rfl⟩, ?_⟩
  · obtain ⟨e, hparse, hraw, hiff⟩ := hwhole "\\n" "\n" hstring htemplate
    exact ⟨e, hparse, hraw, fun h => hiff.mp h (by decide)⟩
  · intro h
    have hslash := (hdecoded _ "\n" ["\t"] hvalues hline (.cons htab .nil)).mp h
    exact hslash "\\n" (List.mem_cons_self ..) (by decide)

/-- The characters that a string decodes to a line feed stay as they are in a template. -/
theorem fold_template_ne_string :
    IsToken "'a\\nb'" (.string "a\nb" "'a\\nb'") ∧
      IsToken "\x60a\\nb\x60" (.template "a\\nb" []) ∧
      parse "\x60a\\nb\x60" = .ok (template "a\\nb" []) ∧
      (template "a\\nb" []).fold .standard ≠ .ok (.string "a\nb") := by
  have htemplate : IsToken "\x60a\\nb\x60" (.template "a\\nb" []) := ⟨0, 6, by cbv⟩
  refine ⟨⟨0, 6, by cbv⟩, htemplate, parse_of_isToken htemplate, fun h => ?_⟩
  have hvalue : Value.string "a\\nb" = .string "a\nb" := Except.ok.inj h
  exact absurd (Value.string.inj hvalue) (by decide)

end Expr

end RowExpr
