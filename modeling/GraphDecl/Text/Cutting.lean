/-!
Where texts are trimmed, cut and put together: at blanks, at ends of lines, and at marks. Blanks and line breaks are those
of Unicode. The two classes differ: the unit separator U+001F is a blank and breaks no line.
-/

namespace GraphDecl.Text

/-! ### Blanks and line breaks -/

/-- Characters that end a line. -/
def isLineBreak (c : Char) : Bool :=
  c == '\n' || c == '\r' || c == '\x0b' || c == '\x0c' || c == '\x1c' || c == '\x1d' ||
  c == '\x1e' || c == '\u0085' || c == '\u2028' || c == '\u2029'

/-- White space: the line breaks and the spaces of every width. -/
def isBlank (c : Char) : Bool :=
  isLineBreak c || c == ' ' || c == '\t' || c == '\x1f' || c == '\u00a0' || c == '\u1680' ||
  ('\u2000' ≤ c && c ≤ '\u200a') || c == '\u202f' || c == '\u205f' || c == '\u3000'

def trimRight (s : List Char) : List Char := (s.reverse.dropWhile isBlank).reverse

def trim (s : List Char) : List Char := trimRight (s.dropWhile isBlank)

/-- Cuts a text at its line breaks, CR LF being one of them. A break at the very end opens no
further line. -/
def lines : List Char → List (List Char)
  | [] => []
  | '\r' :: '\n' :: r => [] :: lines r
  | c :: r =>
    if isLineBreak c then [] :: lines r
    else match lines r with
      | [] => [[c]]
      | l :: ls => (c :: l) :: ls

def allBlank (s : String) : Bool := s.toList.all isBlank

/-- A text without the blanks at its ends. -/
def trimmed (s : String) : String := String.ofList (trim s.toList)

/-! ### Ends of lines in files

There are three spellings of an end of line: LF, CR and CR LF.
-/

/-- Writes every CR LF and every lone CR as LF. -/
def unifyNewlines : List Char → List Char
  | [] => []
  | '\r' :: '\n' :: r => '\n' :: unifyNewlines r
  | '\r' :: r => '\n' :: unifyNewlines r
  | c :: r => c :: unifyNewlines r

/-- Cuts a text at every LF, CR and CR LF; the text after the last one is a line, empty or not. -/
def splitNewlines : List Char → List (List Char)
  | [] => [[]]
  | '\r' :: '\n' :: r => [] :: splitNewlines r
  | c :: r =>
    if c = '\r' ∨ c = '\n' then [] :: splitNewlines r
    else match splitNewlines r with
      | [] => [[c]]
      | l :: ls => (c :: l) :: ls

/-! ### Marks -/

def occurs (word : List Char) : List Char → Bool
  | [] => word.isEmpty
  | c :: r => word.isPrefixOf (c :: r) || occurs word r

/-- Cuts a text at every `mark`; `n` marks leave `n + 1` pieces. -/
def splitAt (mark : Char) : List Char → List (List Char)
  | [] => [[]]
  | c :: r =>
    if c = mark then [] :: splitAt mark r
    else match splitAt mark r with
      | [] => [[c]]
      | l :: ls => (c :: l) :: ls

def pieces (mark : Char) (s : String) : List String := (splitAt mark s.toList).map String.ofList

def joinWith (glue : String) : List String → String
  | [] => ""
  | s :: rest => rest.foldl (fun joined t => joined ++ glue ++ t) s

end GraphDecl.Text
