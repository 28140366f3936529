/-
# Reading JSON values

A text is read strictly: nothing but one value and blanks around it, no comments, no trailing
commas, no control characters inside strings and no halves of surrogate pairs. Of several members
with one name the last counts, at the place of the first. Values are nested in less than 128 arrays
and objects.
-/
import RowExpr.Json.Number
import RowExpr.Table

namespace RowExpr.Json

/-! ## Strings -/

/-- The character that a single letter stands for after a backslash. -/
def escaped? : Char → Option Char
  | '\x22' => some '\x22'
  | '\\' => some '\\'
  | '/' => some '/'
  | 'b' => some '\x08'
  | 'f' => some '\x0c'
  | 'n' => some '\n'
  | 'r' => some '\r'
  | 't' => some '\t'
  | _ => none

/-- Whether a unit is the first half of a surrogate pair. -/
def isLeading (unit : Nat) : Bool := decide (0xd800 ≤ unit ∧ unit < 0xdc00)

/-- Whether a unit is the second half of a surrogate pair. -/
def isTrailing (unit : Nat) : Bool := decide (0xdc00 ≤ unit ∧ unit < 0xe000)

/-- The character of a surrogate pair. -/
def charOfPair (leading trailing : Nat) : Char :=
  Char.ofNat (0x10000 + (leading - 0xd800) * 0x400 + (trailing - 0xdc00))

/-- Four hexadecimal digits. -/
def readUnit : (cs : List Char) → Option (Scanned cs Nat)
  | a :: b :: c :: d :: _ => do
    let unit ← Number.readDigits? 16 [a, b, c, d]
    return ((((Scanned.stay unit).after d).after c).after b).after a
  | _ => none

/-- The second half of a surrogate pair, an escape of its own. -/
def readTrailing : (cs : List Char) → Option (Scanned cs Nat)
  | '\\' :: 'u' :: rest => do
    let unit ← readUnit rest
    if isTrailing unit.value then some ((unit.after 'u').after '\\') else none
  | _ => none

/-- The character of four hexadecimal digits, or of two times four if the first are the first half
of a surrogate pair. -/
def readUnicode (cs : List Char) : Option (Scanned cs Char) := do
  let ⟨unit, r, h⟩ ← readUnit cs
  if isTrailing unit then none
  else if isLeading unit then do
    let trailing ← readTrailing r
    return (trailing.map (charOfPair unit)).within h
  else return ⟨Char.ofNat unit, r, h⟩

/-- The character of an escape, after its backslash. -/
def readEscape : (cs : List Char) → Option (Scanned cs Char)
  | [] => none
  | c :: rest =>
    if c = 'u' then (readUnicode rest).map (·.after c)
    else (escaped? c).map fun char => (Scanned.stay char).after c

/-- The characters of a string, after its opening quote. -/
def readString (cs : List Char) : Option (Scanned cs (List Char)) :=
  match cs with
  | [] => none
  | c :: rest =>
    if c = '\x22' then some ((Scanned.stay []).after c)
    else if c = '\\' then do
      let ⟨first, r, h⟩ ← readEscape rest
      let more ← readString r
      return ((more.map (first :: ·)).within h).after c
    else if c.toNat < 32 then none
    else do
      let more ← readString rest
      return (more.map (c :: ·)).after c
termination_by cs.length
decreasing_by
  all_goals grind [List.IsSuffix.length_le]

/-! ## Blanks and words -/

/-- Whether `c` may stand between the parts of a value. -/
def isBlank (c : Char) : Bool := c == ' ' || c == '\t' || c == '\n' || c == '\r'

/-- Passes over blanks. -/
def skipBlanks : (cs : List Char) → Scanned cs Unit
  | [] => .stay ()
  | c :: rest => if isBlank c then (skipBlanks rest).after c else .stay ()

/-- The first character that is not blank, and what follows it. -/
structure Front (cs : List Char) where
  char : Char
  rest : List Char
  suffix : char :: rest <:+ cs

/-- The first character that is not blank, if there is one. -/
def front? (cs : List Char) : Option (Front cs) :=
  match skipBlanks cs with
  | ⟨_, [], _⟩ => none
  | ⟨_, c :: rest, h⟩ => some ⟨c, rest, h⟩

/-- What follows the mark `c`, if that is the first character that is not blank. -/
def mark? (c : Char) (cs : List Char) : Option { rest : List Char // c :: rest <:+ cs } :=
  match front? cs with
  | none => none
  | some ⟨d, rest, h⟩ => if e : d = c then some ⟨rest, e ▸ h⟩ else none

/-- Passes over a spelling. -/
def skipSpelling : (spelling cs : List Char) → Option (Scanned cs Unit)
  | [], _ => some (.stay ())
  | c :: spelling, d :: rest =>
    if c = d then (skipSpelling spelling rest).map (·.after d) else none
  | _ :: _, [] => none

/-- A value with a single spelling. -/
def readWord (spelling : String) (value : Json) (cs : List Char) : Option (Scanned cs Json) :=
  (skipSpelling spelling.toList cs).map (·.map fun _ => value)

/-- A value that is not made of others, which starts with `c`. -/
def readAtom (c : Char) (rest : List Char) : Option (Scanned (c :: rest) Json) :=
  if c = '\x22' then (readString rest).map fun s => (s.map (string <| String.ofList ·)).after c
  else if c = 't' then readWord "true" (boolean true) (c :: rest)
  else if c = 'f' then readWord "false" (boolean false) (c :: rest)
  else if c = 'n' then readWord "null" null (c :: rest)
  else readNumber (c :: rest)

/-! ## Values -/

/-- The brackets around an array and around an object. -/
inductive Bracket where
  | square
  | curly

/-- The bracket that `c` opens. -/
def bracket? : Char → Option Bracket
  | '[' => some .square
  | '\x7b' => some .curly
  | _ => none

mutual

/-- The value at the front of `cs`, with at most `depth` arrays and objects inside each other. -/
def readValue (depth : Nat) (cs : List Char) : Option (Scanned cs Json) := do
  let ⟨c, r, h⟩ ← front? cs
  match bracket? c, depth with
  | some .square, depth + 1 =>
    match mark? ']' r with
    | some ⟨_, h₁⟩ => return ((Scanned.stay (array [])).behind h₁).behind h
    | none => do
      let items ← readItems depth r
      return (items.map array).behind h
  | some .curly, depth + 1 =>
    match mark? '\x7d' r with
    | some ⟨_, h₁⟩ => return ((Scanned.stay (object [])).behind h₁).behind h
    | none => do
      let members ← readMembers depth [] r
      return (members.map object).behind h
  | some _, 0 => none
  | none, _ => do
    let atom ← readAtom c r
    return atom.within h
termination_by 2 * cs.length
decreasing_by
  all_goals
    have := h.length_le
    simp only [List.length_cons] at this
    omega

/-- The items of an array, at least one, up to its end. -/
def readItems (depth : Nat) (cs : List Char) : Option (Scanned cs (List Json)) := do
  let ⟨item, r, h⟩ ← readValue depth cs
  match mark? ',' r with
  | some ⟨r₁, h₁⟩ => do
    let items ← readItems depth r₁
    return ((items.map (item :: ·)).behind h₁).within h
  | none => do
    let ⟨_, h₁⟩ ← mark? ']' r
    return ((Scanned.stay [item]).behind h₁).within h
termination_by 2 * cs.length + 1
decreasing_by
  · omega
  · have := h.length_le
    have := h₁.length_le
    simp only [List.length_cons] at this
    omega

/-- The members of an object, at least one, up to its end, added to `members`. -/
def readMembers (depth : Nat) (members : Table Json) (cs : List Char) :
    Option (Scanned cs (Table Json)) := do
  let ⟨r, h⟩ ← mark? '\x22' cs
  let ⟨name, r₁, h₁⟩ ← readString r
  let ⟨r₂, h₂⟩ ← mark? ':' r₁
  let ⟨value, r₃, h₃⟩ ← readValue depth r₂
  let added := Table.insert (String.ofList name) value members
  match mark? ',' r₃ with
  | some ⟨r₄, h₄⟩ => do
    let all ← readMembers depth added r₄
    return ((((all.behind h₄).within h₃).behind h₂).within h₁).behind h
  | none => do
    let ⟨_, h₄⟩ ← mark? '\x7d' r₃
    return (((((Scanned.stay added).behind h₄).within h₃).behind h₂).within h₁).behind h
termination_by 2 * cs.length + 1
decreasing_by
  · have := h.length_le
    have := h₁.length_le
    have := h₂.length_le
    simp only [List.length_cons] at *
    omega
  · have := h.length_le
    have := h₁.length_le
    have := h₂.length_le
    have := h₃.length_le
    have := h₄.length_le
    simp only [List.length_cons] at *
    omega

end

/-- The value that a text writes. -/
def parse? (text : String) : Option Json := do
  let value ← readValue 127 text.toList
  match front? value.rest with
  | none => return value.value
  | some _ => none

end RowExpr.Json
