/-
# The weight of tokens

A measure of how much is left to read in a row of tokens. A token weighs one, and a template as
much as the text in its holes on top of that, so that the tokens of a text never weigh more than
it has characters, and the text of a hole weighs less than the template around it.
-/
import RowExpr.Token.Scan

namespace RowExpr

/-- The weight of the holes of a template. -/
def holesWeight : List (Hole × String) → Nat
  | [] => 0
  | part :: rest => part.1.source.toList.length + 1 + holesWeight rest

/-- The weight of a token. -/
def Token.weight : Token → Nat
  | template _ parts => holesWeight parts + 1
  | _ => 1

/-- The weight of a row of tokens. -/
def weight : List Lexeme → Nat
  | [] => 0
  | l :: rest => l.token.weight + weight rest

@[simp] theorem weight_nil : weight [] = 0 := rfl

@[simp] theorem weight_cons (l : Lexeme) (rest : List Lexeme) :
    weight (l :: rest) = l.token.weight + weight rest := rfl

@[simp] theorem holesWeight_cons (part : Hole × String) (rest : List (Hole × String)) :
    holesWeight (part :: rest) = part.1.source.toList.length + 1 + holesWeight rest := rfl

@[simp] theorem Token.weight_punct (mark : Punct) : (Token.punct mark).weight = 1 := rfl

@[simp] theorem Token.weight_keyword (word : Keyword) : (Token.keyword word).weight = 1 := rfl

@[simp] theorem Token.weight_template (head : String) (parts : List (Hole × String)) :
    (Token.template head parts).weight = holesWeight parts + 1 := rfl

theorem Token.weight_pos (t : Token) : 0 < t.weight := by
  cases t <;> simp [Token.weight]

/-- A token weighs something. -/
theorem weight_lt_cons (l : Lexeme) (rest : List Lexeme) : weight rest < weight (l :: rest) := by
  have := l.token.weight_pos
  simp
  omega

namespace Token

/-- The number of characters in holes, and one more for each. -/
def sizeOfParts : List (RawHole × List Char) → Nat
  | [] => 0
  | part :: rest => part.1.source.length + 1 + sizeOfParts rest

/-- The number of characters in the holes of a template, and one more for each. -/
def RawTemplate.size (t : RawTemplate) : Nat := sizeOfParts t.parts

@[simp] theorem RawTemplate.size_prepend (text : List Char) (t : RawTemplate) :
    (t.prepend text).size = t.size := rfl

@[simp] theorem RawTemplate.size_open (hole : RawHole) (t : RawTemplate) :
    (t.open hole).size = hole.source.length + 1 + t.size := rfl

/-- A hole is longer than its text, by the brace that closes it. -/
theorem length_scanHole {depth : Nat} {cs : List Char} {s : Scanned cs (List Char)}
    (h : scanHole depth cs = .ok s) : s.value.length + s.rest.length < cs.length := by
  induction hn : cs.length using Nat.strongRecOn generalizing depth cs with
  | ind n ih =>
    subst hn
    cases cs with
    | nil => simp [scanHole] at h
    | cons c r =>
      have step {depth : Nat} {s : Scanned (c :: r) (List Char)}
          (h : (do
            let t ← scanHole depth r
            return (t.map (c :: ·)).after c : Except ScanFault _) = .ok s) :
          s.value.length + s.rest.length < (c :: r).length := by
        cases ht : scanHole depth r with
        | error _ => simp [ht, bind, Except.bind] at h
        | ok t =>
          have := ih r.length (by simp) ht rfl
          simp only [ht, bind, Except.bind, pure, Except.pure, Except.ok.injEq] at h
          subst h
          simp
          omega
      have inner {cs : List Char} (suffix : cs <:+ r) {s : Scanned (c :: r) (List Char)}
          (h : (do
            let t ← scanHole depth cs
            return ((t.map (c :: before r cs ++ ·)).within suffix).after c : Except ScanFault _)
              = .ok s) :
          s.value.length + s.rest.length < (c :: r).length := by
        have hle := suffix.length_le
        cases ht : scanHole depth cs with
        | error _ => simp [ht, bind, Except.bind] at h
        | ok t =>
          have := ih cs.length (by simp only [List.length_cons]; omega) ht rfl
          have := length_before suffix
          simp only [ht, bind, Except.bind, pure, Except.pure, Except.ok.injEq] at h
          subst h
          simp
          omega
      unfold scanHole at h
      split at h
      · exact step h
      · split at h
        · split at h
          · cases h
            simp
          · exact step h
        · split at h
          · cases ht : scanString c r with
            | error _ => simp [ht, bind, Except.bind] at h
            | ok t =>
              simp only [ht, bind, Except.bind] at h
              exact inner t.suffix h
          · split at h
            · cases ht : scanTemplate r with
              | error _ => simp [ht, bind, Except.bind] at h
              | ok t =>
                simp only [ht, bind, Except.bind] at h
                exact inner t.suffix h
            · exact step h

/-- A template is longer than the text in its holes. -/
theorem length_scanTemplate {cs : List Char} {s : Scanned cs RawTemplate}
    (h : scanTemplate cs = .ok s) : s.value.size + s.rest.length < cs.length := by
  induction hn : cs.length using Nat.strongRecOn generalizing cs with
  | ind n ih =>
    subst hn
    cases cs with
    | nil => simp [scanTemplate] at h
    | cons c r =>
      unfold scanTemplate at h
      split at h
      · cases h
        simp [RawTemplate.size, sizeOfParts]
      · split at h
        · split at h
          · simp at h
          · rename_i d r'
            cases ht : scanTemplate r' with
            | error _ => simp [ht, bind, Except.bind] at h
            | ok t =>
              have := ih r'.length (by simp only [List.length_cons]; omega) ht rfl
              simp only [ht, bind, Except.bind, pure, Except.pure, Except.ok.injEq] at h
              subst h
              simp
              omega
        · split at h
          · cases hh : scanHole 0 r.tail with
            | error _ => simp [hh, bind, Except.bind] at h
            | ok hole =>
              have hlen := hole.length_le
              have htail : r.tail.length ≤ r.length := by simp
              cases ht : scanTemplate hole.rest with
              | error _ => simp [hh, ht, bind, Except.bind] at h
              | ok t =>
                have := length_scanHole hh
                have := ih hole.rest.length (by simp only [List.length_cons]; omega) ht rfl
                simp only [hh, ht, bind, Except.bind, pure, Except.pure, Except.ok.injEq] at h
                subst h
                simp
                omega
          · cases ht : scanTemplate r with
            | error _ => simp [ht, bind, Except.bind] at h
            | ok t =>
              have := ih r.length (by simp) ht rfl
              simp only [ht, bind, Except.bind, pure, Except.pure, Except.ok.injEq] at h
              subst h
              simp
              omega

/-- The weight of holes does not depend on where they are placed. -/
theorem holesWeight_place (stop : Nat) (parts : List (RawHole × List Char)) :
    holesWeight (parts.map (placeHole stop)) = sizeOfParts parts := by
  induction parts with
  | nil => rfl
  | cons part rest ih => simp [sizeOfParts, placeHole, ih]

/-- The weight of a template is made up of its holes. -/
theorem weight_ofTemplate (stop : Nat) (t : RawTemplate) :
    (ofTemplate stop t).weight = t.size + 1 := by
  simp [ofTemplate, Token.weight, RawTemplate.size, holesWeight_place]

/-- A word has the weight of a single token. -/
theorem weight_ofWord (word : String) : (ofWord word).weight = 1 := by
  unfold ofWord
  split
  · rfl
  · rfl
  · rfl
  · split <;> rfl

/-- A mark has the weight of a single token. -/
theorem weight_of_symbolAt? {cs spelling : List Char} {token : Token}
    (h : symbolAt? cs = some (spelling, .token token)) : token.weight = 1 := by
  obtain ⟨mark, rfl, _⟩ | ⟨op, rfl, _⟩ := mark_of_symbolAt? h
  · rfl
  · rfl

/-- A token takes up at least as many characters as it weighs. -/
theorem weight_scanToken {stop : Nat} {c : Char} {r : List Char} {s : Scanned r Token}
    (h : scanToken stop c r = .ok s) : s.value.weight + s.rest.length ≤ r.length + 1 := by
  have hle := s.length_le
  unfold scanToken at h
  split at h
  · cases ht : scanString c r with
    | error _ => simp [ht, bind, Except.bind] at h
    | ok t =>
      simp only [ht, bind, Except.bind, pure, Except.pure, Except.ok.injEq] at h
      subst h
      simp [Token.weight]
      have := t.length_le
      omega
  · split at h
    · cases ht : scanTemplate r with
      | error _ => simp [ht, bind, Except.bind] at h
      | ok t =>
        have := length_scanTemplate ht
        simp only [ht, bind, Except.bind, pure, Except.pure, Except.ok.injEq] at h
        subst h
        simp [weight_ofTemplate]
        omega
    · split at h
      · cases h
        simp [weight_ofWord] at hle ⊢
        omega
      · split at h
        · cases ht : scanValue c r with
          | error _ => simp [scanNumber, ht, bind, Except.bind] at h
          | ok t =>
            simp only [scanNumber, ht, bind, Except.bind, pure, Except.pure] at h
            split at h
            · simp [throw, throwThe, MonadExceptOf.throw] at h
            · simp only [Except.ok.injEq] at h
              subst h
              simp [Token.weight]
              have := t.length_le
              omega
        · split at h
          · rename_i spelling token ht
            cases h
            have := weight_of_symbolAt? ht
            simp [this]
            omega
          · simp at h
          · simp at h

end Token

/-- The tokens of a text weigh at most as much as it has characters. -/
theorem weight_scan (stop : Nat) (cs : List Char) :
    weight (TokenRun.scan stop cs).tokens ≤ cs.length := by
  unfold TokenRun.scan
  split
  · simp [TokenRun.faulty]
  · simp
  · rename_i c r suffix _
    have hle : r.length + 1 ≤ cs.length := suffix.length_le
    split
    · simp [TokenRun.faulty]
    · rename_i s hs
      have := Token.weight_scanToken hs
      have := s.length_le
      have := weight_scan stop s.rest
      simp [TokenRun.cons]
      omega
termination_by cs.length

theorem weight_ofText (offset : Nat) (text : String) :
    weight (TokenRun.ofText offset text).tokens ≤ text.toList.length :=
  weight_scan (offset + text.toList.length) text.toList

end RowExpr
