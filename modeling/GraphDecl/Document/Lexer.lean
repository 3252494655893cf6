import GraphDecl.Document.Token
import GraphDecl.Text.Cutting

/-!
Cutting a document into tokens. Offsets count characters. Every token is the longest one at its
place; the first fault ends the list, so that it is met only by a reader that gets that far.
-/

namespace GraphDecl

/-- White space, commas and byte order marks. -/
def isInsignificant (c : Char) : Bool :=
  c == ' ' || c == '\t' || c == ',' || c == '\ufeff' || c == '\n' || c == '\r'

def isNewline (c : Char) : Bool := c == '\n' || c == '\r'

def isNameStart (c : Char) : Bool := c.isAlpha || c == '_'

def isNameContinue (c : Char) : Bool := c.isAlphanum || c == '_'

namespace Lexer

/-- A fault and its offset from the start of the token. -/
structure Fault where
  offset : Nat
  error : LexicalError
  deriving DecidableEq, Repr

/-! ### Numbers -/

/-- The number of digits at `cs`, which stands at `offset`; at least one is needed. -/
def digits (offset : Nat) (cs : List Char) : Except Fault Nat :=
  match (cs.takeWhile Char.isDigit).length with
  | 0 => .error ⟨offset, .expectedDigit cs.head?⟩
  | n + 1 => .ok (n + 1)

/-- The width of the integer part after the sign: a single zero, or digits. -/
def integerWidth (offset : Nat) : List Char → Except Fault Nat
  | '0' :: d :: _ => if d.isDigit then .error ⟨offset + 1, .digitAfterZero d⟩ else .ok 1
  | cs => digits offset cs

/-- The width of `.` and digits, or 0. -/
def fractionWidth (offset : Nat) : List Char → Except Fault Nat
  | '.' :: r => (· + 1) <$> digits (offset + 1) r
  | _ => .ok 0

/-- The width of `e`, a sign and digits, or 0. -/
def exponentWidth (offset : Nat) : List Char → Except Fault Nat
  | c :: r =>
    if c = 'e' ∨ c = 'E' then
      match r with
      | s :: t =>
        if s = '+' ∨ s = '-' then (· + 2) <$> digits (offset + 2) t
        else (· + 1) <$> digits (offset + 1) r
      | [] => .error ⟨offset + 1, .expectedDigit none⟩
    else .ok 0
  | [] => .ok 0

/-- The width of a number and whether it is a float. No name and no `.` may follow it directly. -/
def numberWidth (cs : List Char) : Except Fault (Bool × Nat) := do
  let sign := if cs.head? = some '-' then 1 else 0
  let whole ← integerWidth sign (cs.drop sign)
  let n := sign + whole
  let fraction ← fractionWidth n (cs.drop n)
  let m := n + fraction
  let exponent ← exponentWidth m (cs.drop m)
  let k := m + exponent
  match cs.drop k with
  | c :: _ => if c = '.' ∨ isNameStart c then throw ⟨k, .expectedDigit (some c)⟩
  | [] => pure ()
  return (fraction + exponent != 0, k)

/-! ### Strings -/

def simpleEscape? : Char → Option Char
  | '"' => some '"'
  | '\\' => some '\\'
  | '/' => some '/'
  | 'b' => some '\x08'
  | 'f' => some '\x0c'
  | 'n' => some '\n'
  | 'r' => some '\r'
  | 't' => some '\t'
  | _ => none

/-- Whether a number is the code point of a character, which surrogates are not. -/
def isScalarValue (n : Nat) : Bool := n < 0xD800 || (0xE000 ≤ n && n < 0x110000)

/-- The number written by the first four characters. -/
def hexQuad? (cs : List Char) : Option Nat :=
  let quad := cs.take 4
  if quad.length = 4 ∧ quad.all Text.isHexDigit then some (Text.hexValue quad) else none

/-- `cs` follows `\u`. Four digits name a character, or eight of them, in two escapes, name one by
its surrogates. The result counts characters from the `u` on. -/
def quadEscape (cs : List Char) : Except LexicalError (Char × Nat) :=
  let fail := .error (.invalidUnicodeEscape ('\\' :: 'u' :: cs.take 4))
  match hexQuad? cs with
  | none => fail
  | some n =>
    if isScalarValue n then .ok (Char.ofNat n, 5)
    else match cs.drop 4 with
      | '\\' :: 'u' :: r =>
        match hexQuad? r with
        | some m =>
          if n < 0xDC00 ∧ 0xDC00 ≤ m ∧ m < 0xE000 then
            .ok (Char.ofNat (0x10000 + (n - 0xD800) * 0x400 + (m - 0xDC00)), 11)
          else fail
        | none => fail
      | _ => fail

/-- `cs` follows `\u` and a brace. No more than nine characters are looked at, the closing brace
among them. -/
def bracedEscape (cs : List Char) : Except LexicalError (Char × Nat) :=
  let seen := cs.take 9
  let number := seen.takeWhile Text.isHexDigit
  let fail := .error (.invalidUnicodeEscape ('\\' :: 'u' :: '\x7b' :: seen.take (number.length + 1)))
  if seen[number.length]? = some '\x7d' then
    if number ≠ [] ∧ isScalarValue (Text.hexValue number) then
      .ok (Char.ofNat (Text.hexValue number), number.length + 3)
    else fail
  else fail

/-- The character that an escape stands for and the number of characters after its backslash. -/
def escape : List Char → Except LexicalError (Char × Nat)
  | 'u' :: '\x7b' :: r => bracedEscape r
  | 'u' :: r => quadEscape r
  | c :: _ => match simpleEscape? c with
    | some d => .ok (d, 1)
    | none => .error (.invalidEscape ['\\', c])
  | [] => .error (.invalidEscape ['\\'])

/-- The value of the string whose rest is `cs`, and the offset after its closing quote. -/
def stringRest (offset : Nat) (cs : List Char) : Except Fault (List Char × Nat) :=
  match cs with
  | [] => .error ⟨offset, .unterminatedString⟩
  | '"' :: _ => .ok ([], offset + 1)
  | '\\' :: r =>
    match escape r with
    | .error e => .error ⟨offset, e⟩
    | .ok (c, n) =>
      match stringRest (offset + 1 + n) (r.drop n) with
      | .error f => .error f
      | .ok (value, stop) => .ok (c :: value, stop)
  | c :: r =>
    if isNewline c then .error ⟨offset, .unterminatedString⟩
    else match stringRest (offset + 1) r with
      | .error f => .error f
      | .ok (value, stop) => .ok (c :: value, stop)
termination_by cs.length
decreasing_by all_goals (simp only [List.length_cons, List.length_drop]; omega)

/-- Puts characters in front of the first line. -/
def consFirst (cs : List Char) : List (List Char) → List (List Char)
  | [] => [cs]
  | l :: ls => (cs ++ l) :: ls

/-- The raw lines of the block string whose rest is given, and the offset after it. Three quotes end
it; with a backslash in front they are text. -/
def blockRest (offset : Nat) : List Char → Except Fault (List (List Char) × Nat)
  | '"' :: '"' :: '"' :: _ => .ok ([[]], offset + 3)
  | '\\' :: '"' :: '"' :: '"' :: r =>
    (fun (ls, stop) => (consFirst ['"', '"', '"'] ls, stop)) <$> blockRest (offset + 4) r
  | '\r' :: '\n' :: r => (fun (ls, stop) => ([] :: ls, stop)) <$> blockRest (offset + 2) r
  | c :: r =>
    if isNewline c then (fun (ls, stop) => ([] :: ls, stop)) <$> blockRest (offset + 1) r
    else (fun (ls, stop) => (consFirst [c] ls, stop)) <$> blockRest (offset + 1) r
  | [] => .error ⟨offset, .unterminatedString⟩

def isIndentChar (c : Char) : Bool := c == ' ' || c == '\t'

/-- The indentation that all lines but the first have in common; lines of blanks do not count. -/
def commonIndent (lines : List (List Char)) : Option Nat :=
  ((lines.drop 1).filter (!·.all isIndentChar)).map (fun l => (l.takeWhile isIndentChar).length) |>.min?

/-- Drops the lines of blanks at both ends. -/
def trimLines (lines : List (List Char)) : List (List Char) :=
  let front := lines.dropWhile (·.all isIndentChar)
  (front.reverse.dropWhile (·.all isIndentChar)).reverse

/-- The value of a block string: the common indentation is dropped from all lines but the first, then
the lines of blanks at both ends. If there are lines of blanks only, nothing is left. -/
def blockValue (lines : List (List Char)) : String :=
  let cut := match commonIndent lines with
    | some n => (lines.take 1) ++ (lines.drop 1).map (List.drop n)
    | none => (lines.take 1) ++ (lines.drop 1).map fun _ => []
  Text.joinWith "\n" ((trimLines cut).map String.ofList)

/-! ### Tokens -/

/-- The token that starts with `c`, followed by `r`, and how many characters of `r` belong to it. -/
def readToken (c : Char) (r : List Char) : Except Fault (Token × Nat) :=
  match Punctuator.ofChar? c with
  | some p => .ok (.punctuator p, 0)
  | none =>
    if isNameStart c then
      let more := r.takeWhile isNameContinue
      .ok (.name (String.ofList (c :: more)), more.length)
    else if c.isDigit || c == '-' then do
      let (isFloat, width) ← numberWidth (c :: r)
      let text := String.ofList ((c :: r).take width)
      return (if isFloat then .float text else .int text, width - 1)
    else match c, r with
      | '"', '"' :: '"' :: t => do
        let (lines, stop) ← blockRest 3 t
        return (.blockString (blockValue lines), stop - 1)
      | '"', _ => do
        let (value, stop) ← stringRest 1 r
        return (.string (String.ofList value), stop - 1)
      | '.', '.' :: '.' :: _ => .ok (.punctuator .spread, 2)
      | '\'', _ => .error ⟨0, .singleQuote⟩
      | _, _ => .error ⟨0, .unexpectedCharacter c⟩

/-- The tokens of the text `cs`, whose first character is at `offset`. -/
def lexemesFrom (offset : Nat) (cs : List Char) : List Lexeme :=
  match cs with
  | [] => [⟨.eof, offset, offset⟩]
  | c :: r =>
    if isInsignificant c then lexemesFrom (offset + 1) r
    else if c = '#' then
      let n := (r.takeWhile (!isNewline ·)).length
      lexemesFrom (offset + 1 + n) (r.drop n)
    else match readToken c r with
      | .ok (token, n) =>
        ⟨token, offset, offset + 1 + n⟩ :: lexemesFrom (offset + 1 + n) (r.drop n)
      | .error fault => [⟨.invalid fault.error, offset + fault.offset, offset + fault.offset⟩]
termination_by cs.length
decreasing_by all_goals (simp only [List.length_cons, List.length_drop]; omega)

end Lexer

/-- The tokens of a document with their places. -/
def lexemes (text : String) : List Lexeme := Lexer.lexemesFrom 0 text.toList

def tokens (text : String) : List Token := (lexemes text).map (·.token)

end GraphDecl
