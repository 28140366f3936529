/-
# Braces in holes

The end of a hole is found by a reader that counts braces and knows strings and templates, and that
reads no tokens.  Its depth changes with the brace tokens of the text and with nothing else, as long
as no comment has a brace or a quote in it: the reader does not know comments.

* `Token.steps_of_scans`: the reader steps over a token, and its depth changes if the token is a
  brace;
* `TokenRun.steps_of_scan`: the reader steps over a text that can be read to its end.
-/
import RowExpr.Proofs.Token.Layout

namespace RowExpr

namespace Token

/-! ## From one depth to another -/

/-- The reader that looks for the end of a hole, `n` braces deep, steps over the text and is `m`
braces deep behind it. -/
def Steps (n m : Nat) (text : List Char) : Prop :=
  ∀ ⦃rest value left : List Char⦄, Scans (scanHole m rest) value left →
    Scans (scanHole n (text ++ rest)) (text ++ value) left

lemma Skips.steps {text : List Char} (h : Skips text) (n : Nat) : Steps n n text :=
  fun _ _ _ hrest => h hrest

lemma skips_of_steps {text : List Char} (h : ∀ n, Steps n n text) : Skips text :=
  fun n _ _ _ hrest => h n hrest

lemma Steps.append {n m k : Nat} {text text' : List Char} (h : Steps n m text)
    (h' : Steps m k text') : Steps n k (text ++ text') := by
  intro rest value left hrest
  rw [List.append_assoc, List.append_assoc]
  exact h (h' hrest)

lemma steps_open (n : Nat) : Steps n (n + 1) ['\x7b'] := by
  intro rest value left hrest
  rw [List.singleton_append, scanHole.eq_def]
  dsimp only
  rw [if_pos rfl]
  exact scans_bind_ok.2 ⟨_, _, hrest.1, hrest, scans_ok.2 ⟨rfl, rfl⟩⟩

lemma steps_close (n : Nat) : Steps (n + 1) n ['\x7d'] := by
  intro rest value left hrest
  rw [List.singleton_append, scanHole.eq_def]
  dsimp only
  rw [if_neg (by decide), if_pos rfl]
  exact scans_bind_ok.2 ⟨_, _, hrest.1, hrest, scans_ok.2 ⟨rfl, rfl⟩⟩

/-! ## Holes and templates, wherever they stand -/

/-- A template is read as it is wherever it stands, if its holes can be stepped over. -/
lemma skips_of_rawTemplate {t : RawTemplate} {cs left : List Char}
    (h : Scans (scanTemplate cs) t left) (hparts : ∀ part ∈ t.parts, Skips part.1.source) :
    Skips ('\x60' :: (t.text ++ ['\x60'])) := by
  obtain ⟨_, hhead, hchunks⟩ := chunk_of_scans h
  refine skips_template fun rest => ?_
  have hweave : ∀ part ∈ t.parts.map (fun part => (part.1.source, part.2)),
      Skips part.1 ∧ Chunk part.2 := by
    intro part hpart
    obtain ⟨part', hpart', rfl⟩ := List.mem_map.1 hpart
    exact ⟨hparts part' hpart', hchunks part' hpart'⟩
  obtain ⟨t', ht', _⟩ := scans_weave hhead hweave rest
  exact ⟨t', by rwa [RawTemplate.text, List.append_assoc]⟩

/-- Whatever is read of the text as a hole or as a template is stepped over wherever it stands. -/
structure StandsAnywhere (cs : List Char) : Prop where
  hole : ∀ {depth : Nat} {value left : List Char}, Scans (scanHole depth cs) value left →
    ∀ k, Steps (depth + k) k value
  holes : ∀ {t : RawTemplate} {left : List Char}, Scans (scanTemplate cs) t left →
    ∀ part ∈ t.parts, Skips part.1.source

section StandsAnywhere

variable {cs : List Char} (ih : ∀ cs' : List Char, cs'.length < cs.length → StandsAnywhere cs')
include ih

/-- The reader goes on behind what it has stepped over. -/
lemma steps_hole {depth : Nat} {value left : List Char} (h : Scans (scanHole depth cs) value left)
    (k : Nat) : Steps (depth + k) k value := by
  cases cs with
  | nil => simp [scanHole] at h
  | cons c r =>
    rw [scanHole.eq_def] at h
    dsimp only at h
    split_ifs at h with hopen hclose hquote hback
    · obtain ⟨value', left, _, hvalue, h⟩ := scans_bind_ok.1 h
      obtain ⟨rfl, rfl⟩ := scans_ok.1 h
      have hinner := (ih r (by simp)).hole hvalue k
      rw [Nat.add_right_comm] at hinner
      exact hopen ▸ (steps_open _).append hinner
    · cases depth with
      | zero =>
        obtain ⟨rfl, rfl⟩ := scans_ok.1 h
        rw [Nat.zero_add]
        exact skips_nil.steps k
      | succ depth =>
        obtain ⟨value', left, _, hvalue, h⟩ := scans_bind_ok.1 h
        obtain ⟨rfl, rfl⟩ := scans_ok.1 h
        have hinner := (ih r (by simp)).hole hvalue k
        rw [Nat.add_right_comm]
        exact hclose ▸ (steps_close _).append hinner
    · obtain ⟨_, left', hsuffix, hstring, h⟩ := scans_bind_ok.1 h
      obtain ⟨value', left, _, hvalue, h⟩ := scans_bind_ok.1 h
      obtain ⟨rfl, rfl⟩ := scans_ok.1 h
      obtain ⟨body, rfl, hbody⟩ := stringBody_of_scans hstring
      have hinner := (ih left' (Nat.lt_succ_of_le hsuffix.length_le)).hole hvalue k
      have hlexeme : before (body ++ c :: left') left' = body ++ [c] := by
        simpa using before_append_self (body ++ [c]) left'
      change Steps _ _ (c :: before (body ++ c :: left') left' ++ value')
      rw [hlexeme]
      exact ((skips_string hquote hbody).steps _).append hinner
    · obtain ⟨t, left', hsuffix, htemplate, h⟩ := scans_bind_ok.1 h
      obtain ⟨value', left, _, hvalue, h⟩ := scans_bind_ok.1 h
      obtain ⟨rfl, rfl⟩ := scans_ok.1 h
      have htext := (readAs_of_scans htemplate le_rfl).text
      have hskips := skips_of_rawTemplate htemplate ((ih r (by simp)).holes htemplate)
      have hinner := (ih left' (Nat.lt_succ_of_le hsuffix.length_le)).hole hvalue k
      have hlexeme : before r left' = t.text ++ ['\x60'] := by
        rw [← htext]
        simpa using before_append_self (t.text ++ ['\x60']) left'
      change Steps _ _ (c :: before r left' ++ value')
      rw [hlexeme, hback]
      exact (hskips.steps _).append hinner
    · obtain ⟨value', left, _, hvalue, h⟩ := scans_bind_ok.1 h
      obtain ⟨rfl, rfl⟩ := scans_ok.1 h
      have hinert : isInert c := by
        rw [not_or] at hquote
        simp [isInert, hopen, hclose, hquote, hback]
      exact ((skips_char hinert).steps _).append ((ih r (by simp)).hole hvalue k)

/-- The holes of a template are read one after the other. -/
lemma skips_holes {t : RawTemplate} {left : List Char} (h : Scans (scanTemplate cs) t left) :
    ∀ part ∈ t.parts, Skips part.1.source := by
  cases cs with
  | nil => simp [scanTemplate] at h
  | cons c r =>
    rw [scanTemplate.eq_def] at h
    dsimp only at h
    split_ifs at h with hquote hslash hhole
    · obtain ⟨rfl, rfl⟩ := scans_ok.1 h
      simp
    · cases r with
      | nil => simp at h
      | cons d r' =>
        obtain ⟨t', left, _, ht, h⟩ := scans_bind_ok.1 h
        obtain ⟨rfl, rfl⟩ := scans_ok.1 h
        have hparts := (ih r' (by simp)).holes ht
        exact hparts
    · obtain ⟨source, left, hsuffix, hsource, h⟩ := scans_bind_ok.1 h
      obtain ⟨t', left', _, ht, h⟩ := scans_bind_ok.1 h
      obtain ⟨rfl, rfl⟩ := scans_ok.1 h
      have hle := hsuffix.length_le
      rw [List.length_tail] at hle
      refine List.forall_mem_cons.mpr ⟨skips_of_steps fun n => ?_, (ih left ?_).holes ht⟩
      · have hsteps := (ih r.tail (by simp)).hole hsource n
        rwa [Nat.zero_add] at hsteps
      · simp only [List.length_cons]
        omega
    · obtain ⟨t', left, _, ht, h⟩ := scans_bind_ok.1 h
      obtain ⟨rfl, rfl⟩ := scans_ok.1 h
      have hparts := (ih r (by simp)).holes ht
      exact hparts

end StandsAnywhere

theorem standsAnywhere (cs : List Char) : StandsAnywhere cs := by
  induction hn : cs.length using Nat.strong_induction_on generalizing cs with
  | _ n ih =>
    subst hn
    have ih : ∀ cs' : List Char, cs'.length < cs.length → StandsAnywhere cs' :=
      fun cs' hlt => ih cs'.length hlt cs' rfl
    exact ⟨steps_hole ih, skips_holes ih⟩

/-! ## Tokens -/

/-- The depth behind a token: a brace that closes more than was opened has none. -/
def depthBehind : Nat → Token → Option Nat
  | n, .punct .lbrace => some (n + 1)
  | 0, .punct .rbrace => none
  | n + 1, .punct .rbrace => some n
  | n, _ => some n

lemma depthBehind_ofWord (n : Nat) (word : String) : depthBehind n (ofWord word) = some n := by
  unfold ofWord
  split
  · rfl
  · rfl
  · rfl
  · split <;> rfl

lemma steps_mark {n m : Nat} {mark : Punct} (h : depthBehind n (.punct mark) = some m) :
    Steps n m mark.spelling.toList := by
  cases mark with
  | lbrace =>
    cases h
    exact steps_open n
  | rbrace =>
    cases n with
    | zero => cases h
    | succ n =>
      cases h
      exact steps_close _
  | _ =>
    cases h
    exact (skips_of_inert (forall_mem_of_all (by decide))).steps _

lemma skips_assign (op : AssignOp) : Skips op.spelling.toList := by
  cases op <;> exact skips_of_inert (forall_mem_of_all (by decide))

lemma written_ofTemplate (stop : Nat) (t : RawTemplate) :
    (ofTemplate stop t).written = '\x60' :: (t.text ++ ['\x60']) := by
  simp [ofTemplate, written, RawTemplate.text, placeHole, Function.comp_def]

/-- The reader steps over a token, and its depth changes with a brace only. -/
theorem steps_of_scans {stop : Nat} {c : Char} {r rest : List Char} {token : Token}
    (h : Scans (scanToken stop c r) token rest) {n m : Nat}
    (hdepth : depthBehind n token = some m) : Steps n m token.written := by
  have hsound := sound_of_scans h
  unfold scanToken at h
  split_ifs at h with hquote hback hname hnumber
  · obtain ⟨s, -, h⟩ := scans_bind.1 h
    obtain ⟨rfl, rfl⟩ := scans_ok.1 h
    cases hdepth
    exact hsound.opens_skips.2.steps n
  · obtain ⟨t, left, _, ht, h⟩ := scans_bind_ok.1 h
    obtain ⟨rfl, rfl⟩ := scans_ok.1 h
    cases hdepth
    change Steps n n (ofTemplate stop t).written
    rw [written_ofTemplate]
    exact (skips_of_rawTemplate ht ((standsAnywhere r).holes ht)).steps n
  · obtain ⟨rfl, rfl⟩ := scans_ok.1 h
    rw [depthBehind_ofWord] at hdepth
    cases hdepth
    have hword : isWord (String.ofList (c :: r.takeWhile isNamePart)) := by
      simp only [isWord, String.toList_ofList, hname, Bool.true_and, List.all_eq_true]
      exact fun d hd => List.mem_takeWhile_imp hd
    rw [written_ofWord]
    exact (skips_of_isWord hword).steps n
  · obtain ⟨body, value, rfl, hbody, rfl⟩ := numberBody_of_scans_number hnumber h
    cases hdepth
    exact hsound.opens_skips.2.steps n
  · split at h
    case h_1 spelling token' hsymbol =>
      obtain ⟨rfl, rfl⟩ := scans_ok.1 h
      obtain ⟨mark, rfl, _⟩ | ⟨op, rfl, _⟩ := mark_of_symbolAt? hsymbol
      · exact steps_mark hdepth
      · cases hdepth
        exact (skips_assign op).steps n
    case h_2 => exact absurd h not_scans_error
    case h_3 => exact absurd h not_scans_error

end Token

/-! ## Whole texts -/

/-- The depth behind a row of tokens. -/
def depthBehindAll : Nat → List Lexeme → Option Nat
  | n, [] => some n
  | n, l :: rest => (Token.depthBehind n l.token).bind (depthBehindAll · rest)

namespace TokenRun

/-- The blanks and comments in front of the tokens of a text that ends at `stop`, and behind the
last of them. -/
def gaps (stop : Nat) (cs : List Char) : List (List Char) :=
  match Token.skipGap .blanks cs with
  | .error _ => [cs]
  | .ok ⟨[], _⟩ => [cs]
  | .ok ⟨c :: r, suffix⟩ =>
    have _ : r.length < cs.length := suffix.length_le
    match Token.scanToken stop c r with
    | .error _ => [cs]
    | .ok s => before cs (c :: r) :: gaps stop s.rest
termination_by cs.length
decreasing_by
  have := s.length_le
  omega

/-- A text that can be read to its end is stepped over, if there are no braces and no quotes in its
comments, and the depth changes as its tokens say. -/
theorem steps_of_scan {stop finish : Nat} {cs : List Char} {tokens : List Lexeme}
    (h : scan stop cs = ⟨tokens, .eof finish⟩) (hstop : cs.length ≤ stop)
    (hgaps : ∀ gap ∈ gaps stop cs, ∀ c ∈ gap, Token.isInert c) {n m : Nat}
    (hdepth : depthBehindAll n tokens = some m) : Token.Steps n m cs := by
  induction hn : cs.length using Nat.strong_induction_on generalizing cs tokens n with
  | _ size ih =>
    subst hn
    rw [gaps] at hgaps
    rw [scan] at h
    split at h
    case h_1 => cases h
    case h_2 hskip =>
      rw [hskip] at hgaps
      cases h
      cases hdepth
      exact (Token.skips_of_inert (hgaps cs (List.mem_singleton_self cs))).steps _
    case h_3 c r suffix hskip =>
      rw [hskip] at hgaps
      dsimp only at h hgaps
      split at h
      case h_1 => cases h
      case h_2 s hs =>
        rw [hs] at hgaps
        obtain ⟨hgap, hgaps⟩ := List.forall_mem_cons.mp hgaps
        cases hrun : scan stop s.rest with
        | mk tokens' ending =>
          rw [hrun] at h
          cases h
          obtain ⟨k, htoken, hdepth⟩ := Option.bind_eq_some_iff.mp hdepth
          have hscans : Scans (Token.scanToken stop c r) s.value s.rest := ⟨s.suffix, hs⟩
          have hlength := suffix.length_le
          have hrest := s.length_le
          rw [List.length_cons] at hlength
          have htext := (Token.laidToken_of_scans hscans (by omega)).text
          have hcs : before cs (c :: r) ++ (s.value.written ++ s.rest) = cs := by
            rw [htext, before_append suffix]
          rw [← hcs]
          refine ((Token.skips_of_inert hgap).steps n).append ?_
          refine (Token.steps_of_scans hscans htoken).append ?_
          exact ih s.rest.length (by omega) hrun (by omega) hgaps hdepth rfl

end TokenRun

end RowExpr
