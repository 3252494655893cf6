import GraphDecl.Text.Digit
import GraphDecl.Text.Printable

/-!
Texts quoted in messages: one line of printable characters, everything else escaped.
-/

namespace GraphDecl.Text

/-- How a character is written between two `mark`s. -/
def quoteChar (mark c : Char) : List Char :=
  if c = mark ∨ c = '\\' then ['\\', c]
  else if c = '\t' then ['\\', 't']
  else if c = '\n' then ['\\', 'n']
  else if c = '\r' then ['\\', 'r']
  else if isPrintable c then [c]
  else if c.toNat < 0x100 then '\\' :: 'x' :: hexDigits 2 c.toNat
  else if c.toNat < 0x10000 then '\\' :: 'u' :: hexDigits 4 c.toNat
  else '\\' :: 'U' :: hexDigits 8 c.toNat

/-- Single quotes, or double ones around a text that holds single quotes and no double ones. -/
def quoteMark (s : List Char) : Char :=
  if s.contains '\'' && !s.contains '"' then '"' else '\''

def quoted (s : String) : String :=
  let mark := quoteMark s.toList
  String.ofList (mark :: s.toList.flatMap (quoteChar mark) ++ [mark])

/-- Quotes bytes: those of printable ASCII characters stand for these, the others are escaped. -/
def quotedBytes (bytes : List UInt8) : String :=
  let chars := bytes.map fun byte => Char.ofNat byte.toNat
  let mark := quoteMark chars
  let quoteByte (c : Char) :=
    if c.toNat < 0x80 then quoteChar mark c else '\\' :: 'x' :: hexDigits 2 c.toNat
  String.ofList ('b' :: mark :: chars.flatMap quoteByte ++ [mark])

end GraphDecl.Text
