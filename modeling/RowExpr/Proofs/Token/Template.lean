/-
# Templates that are read again

The text of a template is kept as written, so it can be written back as it is: `Chunk` says which
texts can stand between two holes. A hole ends at the brace that closes it, and `Skips` says of a
text that it can stand in a hole: whatever is read behind it, the reader that looks for the closing
brace steps over it. Together they say when a written template is read as its own parts.

* `chunk_of_scans`: the texts between the holes of a template that was read;
* `scans_weave`: the parts of a template, written one after the other, are read as these parts;
* `skips_template`: a template can stand in a hole.
-/
import RowExpr.Proofs.Token.Literal

namespace RowExpr.Token

/-! ## The text between holes -/

/-- The texts between two holes: no backquote and no beginning of a hole, but behind a
backslash. -/
inductive Chunk : List Char → Prop
  | nil : Chunk []
  | escape {c : Char} {r : List Char} (hr : Chunk r) : Chunk ('\\' :: c :: r)
  | plain {c : Char} {r : List Char} (hquote : c ≠ '\x60') (hslash : c ≠ '\\')
      (hhole : ¬ (c = '$' ∧ r.head? = some '\x7b')) (hr : Chunk r) : Chunk (c :: r)

/-- The texts that the scanner finds between the holes of a template are such texts. -/
theorem chunk_of_scans {cs rest : List Char} {t : RawTemplate}
    (h : Scans (scanTemplate cs) t rest) :
    t.head <+: cs ∧ Chunk t.head ∧ ∀ part ∈ t.parts, Chunk part.2 := by
  induction hn : cs.length using Nat.strong_induction_on generalizing cs rest t with
  | _ n ih =>
    subst hn
    cases cs with
    | nil => simp [scanTemplate] at h
    | cons c r =>
      rw [scanTemplate.eq_def] at h
      dsimp only at h
      split_ifs at h with hquote hslash hhole
      · obtain ⟨rfl, rfl⟩ := scans_ok.1 h
        exact ⟨List.nil_prefix, .nil, by simp⟩
      · cases r with
        | nil => simp at h
        | cons d r' =>
          obtain ⟨t', left, _, ht, h⟩ := scans_bind_ok.1 h
          obtain ⟨rfl, rfl⟩ := scans_ok.1 h
          obtain ⟨hsplit, hhead, hparts⟩ :=
            ih r'.length (by simp only [List.length_cons]; omega) ht rfl
          subst hslash
          exact ⟨by simpa [RawTemplate.prepend] using hsplit, .escape hhead, hparts⟩
      · obtain ⟨hole, left, hsuffix, hhole, h⟩ := scans_bind_ok.1 h
        obtain ⟨t', left', _, ht, h⟩ := scans_bind_ok.1 h
        obtain ⟨rfl, rfl⟩ := scans_ok.1 h
        have hlt : left.length < (c :: r).length := by
          have := hsuffix.length_le
          simp at this ⊢
          omega
        obtain ⟨_, hhead, hparts⟩ := ih left.length hlt ht rfl
        refine ⟨List.nil_prefix, .nil, ?_⟩
        intro part hpart
        rcases List.mem_cons.1 hpart with rfl | hpart
        · exact hhead
        · exact hparts part hpart
      · obtain ⟨t', left, _, ht, h⟩ := scans_bind_ok.1 h
        obtain ⟨rfl, rfl⟩ := scans_ok.1 h
        obtain ⟨hsplit, hhead, hparts⟩ := ih r.length (by simp) ht rfl
        refine ⟨by simpa [RawTemplate.prepend] using hsplit, ?_, hparts⟩
        refine .plain hquote hslash ?_ hhead
        rintro ⟨rfl, hbrace⟩
        -- What the text starts with is what stands in the source.
        obtain ⟨tail, rfl⟩ := hsplit
        change t'.head.head? = some _ at hbrace
        refine hhole ⟨rfl, ?_⟩
        rw [List.head?_append, hbrace]
        rfl

/-- A text between holes is read as it is, if no brace follows it. -/
lemma scans_chunk {text rest left : List Char} {t : RawTemplate} (htext : Chunk text)
    (hrest : rest.head? ≠ some '\x7b') (h : Scans (scanTemplate rest) t left) :
    Scans (scanTemplate (text ++ rest)) (t.prepend text) left := by
  induction htext with
  | nil => exact h
  | @escape c r _ ih =>
    rw [List.cons_append, List.cons_append, scanTemplate.eq_def]
    dsimp only
    rw [if_neg (by decide), if_pos rfl]
    exact scans_bind_ok.2 ⟨_, _, ih.1, ih, scans_ok.2 ⟨rfl, rfl⟩⟩
  | @plain c r hquote hslash hhole _ ih =>
    have hopen : ¬ (c = '$' ∧ (r ++ rest).head? = some '\x7b') := by
      rintro ⟨rfl, hbrace⟩
      cases r with
      | nil => exact hrest hbrace
      | cons d r' => exact hhole ⟨rfl, by simpa using hbrace⟩
    rw [List.cons_append, scanTemplate.eq_def]
    dsimp only
    rw [if_neg hquote, if_neg hslash, if_neg hopen]
    exact scans_bind_ok.2 ⟨_, _, ih.1, ih, scans_ok.2 ⟨rfl, rfl⟩⟩

/-! ## What may stand in a hole -/

/-- The reader that looks for the end of a hole steps over the text, wherever it stands. -/
def Skips (text : List Char) : Prop :=
  ∀ ⦃depth : Nat⦄ ⦃rest value left : List Char⦄, Scans (scanHole depth rest) value left →
    Scans (scanHole depth (text ++ rest)) (text ++ value) left

lemma skips_nil : Skips [] := fun _ _ _ _ h => h

lemma Skips.append {text text' : List Char} (h : Skips text) (h' : Skips text') :
    Skips (text ++ text') := by
  intro depth rest value left hrest
  rw [List.append_assoc, List.append_assoc]
  exact h (h' hrest)

/-- The characters that mean nothing to the reader that looks for the end of a hole. -/
def isInert (c : Char) : Bool :=
  !(c == '\x7b' || c == '\x7d' || c == '"' || c == '\'' || c == '\x60')

lemma skips_char {c : Char} (h : isInert c) : Skips [c] := by
  intro depth rest value left hrest
  simp only [isInert, Bool.not_eq_true', Bool.or_eq_false_iff, beq_eq_false_iff_ne, ne_eq] at h
  obtain ⟨⟨⟨⟨hopen, hclose⟩, hdouble⟩, hsingle⟩, hback⟩ := h
  rw [List.singleton_append, scanHole.eq_def]
  dsimp only
  rw [if_neg hopen, if_neg hclose, if_neg (by simp [*]),
    if_neg hback]
  exact scans_bind_ok.2 ⟨_, _, hrest.1, hrest, scans_ok.2 ⟨rfl, rfl⟩⟩

lemma skips_of_inert {text : List Char} (h : ∀ c ∈ text, isInert c) : Skips text := by
  induction text with
  | nil => exact skips_nil
  | cons c r ih => exact (skips_char (h c (by simp))).append (ih fun d hd => h d (by simp [hd]))

lemma Skips.cons {c : Char} {text : List Char} (hc : isInert c) (h : Skips text) :
    Skips (c :: text) :=
  (skips_char hc).append h

/-- Braces around a text that is stepped over open and close again. -/
lemma Skips.braces {text : List Char} (h : Skips text) :
    Skips ('\x7b' :: (text ++ ['\x7d'])) := by
  intro depth rest value left hrest
  have hclose : Scans (scanHole (depth + 1) ('\x7d' :: rest)) ('\x7d' :: value) left := by
    rw [scanHole.eq_def]
    dsimp only
    rw [if_neg (by decide), if_pos rfl]
    exact scans_bind_ok.2 ⟨_, _, hrest.1, hrest, scans_ok.2 ⟨rfl, rfl⟩⟩
  have hinner := h hclose
  have hassoc : '\x7b' :: (text ++ ['\x7d']) ++ rest = '\x7b' :: (text ++ '\x7d' :: rest) := by simp
  rw [hassoc, scanHole.eq_def]
  dsimp only
  rw [if_pos rfl]
  exact scans_bind_ok.2 ⟨_, _, hinner.1, hinner, scans_ok.2 ⟨by simp [Scanned.map], rfl⟩⟩

lemma skips_string {quote : Char} (hquote : quote = '"' ∨ quote = '\'') {body value : List Char}
    (h : StringBody quote body value) : Skips (quote :: (body ++ [quote])) := by
  intro depth rest after left hrest
  have hslash : quote ≠ '\\' := by rcases hquote with rfl | rfl <;> decide
  have hopen : quote ≠ '\x7b' ∧ quote ≠ '\x7d' := by rcases hquote with rfl | rfl <;> decide
  have hbody := scans_of_stringBody hslash h rest
  have hassoc : quote :: (body ++ [quote]) ++ rest = quote :: (body ++ quote :: rest) := by simp
  have hlexeme : before (body ++ quote :: rest) rest = body ++ [quote] := by
    simpa using before_append_self (body ++ [quote]) rest
  rw [hassoc, scanHole.eq_def]
  dsimp only
  rw [if_neg hopen.1, if_neg hopen.2, if_pos hquote]
  refine scans_bind_ok.2 ⟨_, _, hbody.1, hbody, ?_⟩
  refine scans_bind_ok.2 ⟨_, _, hrest.1, hrest, scans_ok.2 ⟨?_, rfl⟩⟩
  change quote :: before (body ++ quote :: rest) rest ++ after = _
  rw [hlexeme]

/-- A template that is read up to its closing backquote is stepped over. -/
theorem skips_template {text : List Char}
    (h : ∀ rest, ∃ t, Scans (scanTemplate (text ++ '\x60' :: rest)) t rest) :
    Skips ('\x60' :: (text ++ ['\x60'])) := by
  intro depth rest after left hrest
  obtain ⟨t, ht⟩ := h rest
  have hassoc : '\x60' :: (text ++ ['\x60']) ++ rest = '\x60' :: (text ++ '\x60' :: rest) := by simp
  have hlexeme : before (text ++ '\x60' :: rest) rest = text ++ ['\x60'] := by
    simpa using before_append_self (text ++ ['\x60']) rest
  rw [hassoc, scanHole.eq_def]
  dsimp only
  rw [if_neg (by decide), if_neg (by decide), if_neg (by decide),
    if_pos rfl]
  refine scans_bind_ok.2 ⟨_, _, ht.1, ht, ?_⟩
  refine scans_bind_ok.2 ⟨_, _, hrest.1, hrest, scans_ok.2 ⟨?_, rfl⟩⟩
  change '\x60' :: before (text ++ '\x60' :: rest) rest ++ after = _
  rw [hlexeme]

/-! ## Whole templates -/

/-- Holes with the texts that follow them, as they are written. -/
def weave (parts : List (List Char × List Char)) : List Char :=
  parts.flatMap fun part => '$' :: '\x7b' :: (part.1 ++ '\x7d' :: part.2)

/-- A written template is read as its own parts. -/
theorem scans_weave {head : List Char} {parts : List (List Char × List Char)}
    (hhead : Chunk head) (hparts : ∀ part ∈ parts, Skips part.1 ∧ Chunk part.2)
    (rest : List Char) :
    ∃ t : RawTemplate, Scans (scanTemplate (head ++ (weave parts ++ '\x60' :: rest))) t rest ∧
      t.head = head ∧ t.parts.map (fun part => (part.1.source, part.2)) = parts := by
  induction parts generalizing head with
  | nil =>
    have hclose : Scans (scanTemplate ('\x60' :: rest)) {} rest := by
      rw [scanTemplate.eq_def]
      dsimp only
      rw [if_pos rfl]
      exact scans_ok.2 ⟨rfl, rfl⟩
    exact ⟨_, scans_chunk hhead (by simp [weave]) hclose, by simp [RawTemplate.prepend], rfl⟩
  | cons part parts ih =>
    obtain ⟨source, text⟩ := part
    obtain ⟨hsource, htext⟩ := hparts (source, text) (by simp)
    obtain ⟨t, ht, rfl, htparts⟩ := ih htext fun p hp => hparts p (by simp [hp])
    have hassoc : weave ((source, t.head) :: parts) ++ '\x60' :: rest =
        '$' :: '\x7b' :: (source ++ '\x7d' :: (t.head ++ (weave parts ++ '\x60' :: rest))) := by
      simp [weave]
    have hclose : ∀ r, Scans (scanHole 0 ('\x7d' :: r)) [] r := by
      intro r
      rw [scanHole.eq_def]
      dsimp only
      rw [if_neg (by decide), if_pos rfl]
      exact scans_ok.2 ⟨rfl, rfl⟩
    have hhole : Scans (scanHole 0
        (source ++ '\x7d' :: (t.head ++ (weave parts ++ '\x60' :: rest)))) source
        (t.head ++ (weave parts ++ '\x60' :: rest)) := by
      simpa using hsource (hclose (t.head ++ (weave parts ++ '\x60' :: rest)))
    have hopen : ∃ n, Scans (scanTemplate (weave ((source, t.head) :: parts) ++ '\x60' :: rest))
        (t.open ⟨source, n⟩) rest := by
      rw [hassoc, scanTemplate.eq_def]
      dsimp only
      rw [if_neg (by decide), if_neg (by decide), if_pos (by simp)]
      exact ⟨_, scans_bind_ok.2 ⟨source, _, hhole.1, hhole,
        scans_bind_ok.2 ⟨t, rest, ht.1, ht, scans_ok.2 ⟨rfl, rfl⟩⟩⟩⟩
    obtain ⟨n, hopen⟩ := hopen
    refine ⟨_, scans_chunk hhead ?_ hopen, ?_, ?_⟩
    · rw [hassoc]
      simp
    · simp [RawTemplate.prepend, RawTemplate.open]
    · simp [RawTemplate.prepend, RawTemplate.open, htparts]

end RowExpr.Token
