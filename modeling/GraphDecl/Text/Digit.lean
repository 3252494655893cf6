import GraphDecl.Text.Cutting

/-!
Digits and the numbers they spell: decimal ones of all scripts, and hexadecimal ones.
-/

namespace GraphDecl.Text

/-! ### Decimal digits

These are the characters of the general category Nd. Every script that has them has ten in a row, so the table lists the
zeros only. Whole numbers may be written with digits of any script, but not with very many of them.
-/

/-- The zeros of the scripts, in code point order. -/
def digitZeros : List Nat :=
  [0x30, 0x660, 0x6f0, 0x7c0, 0x966, 0x9e6, 0xa66, 0xae6, 0xb66, 0xbe6, 0xc66, 0xce6, 0xd66,
   0xde6, 0xe50, 0xed0, 0xf20, 0x1040, 0x1090, 0x17e0, 0x1810, 0x1946, 0x19d0, 0x1a80, 0x1a90,
   0x1b50, 0x1bb0, 0x1c40, 0x1c50, 0xa620, 0xa8d0, 0xa900, 0xa9d0, 0xa9f0, 0xaa50, 0xabf0, 0xff10,
   0x104a0, 0x10d30, 0x11066, 0x110f0, 0x11136, 0x111d0, 0x112f0, 0x11450, 0x114d0, 0x11650,
   0x116c0, 0x11730, 0x118e0, 0x11950, 0x11c50, 0x11d50, 0x11da0, 0x16a60, 0x16ac0, 0x16b50,
   0x1d7ce, 0x1d7d8, 0x1d7e2, 0x1d7ec, 0x1d7f6, 0x1e140, 0x1e2f0, 0x1e950, 0x1fbf0]

/-- Which of the ten decimal digits of some script a character stands for. -/
def digitValue? (c : Char) : Option Nat :=
  (digitZeros.find? fun z => z ≤ c.toNat && c.toNat < z + 10).map (c.toNat - ·)

def isDecimalDigit (c : Char) : Bool := (digitValue? c).isSome

/-- The number that digits spell after `n`, where single underscores may stand between them. -/
def natFrom? (n : Nat) : List Char → Option Nat
  | [] => some n
  | '_' :: c :: r => do natFrom? (10 * n + (← digitValue? c)) r
  | c :: r => do natFrom? (10 * n + (← digitValue? c)) r

/-- How many digits a number may have; zeros in front count. -/
def longestNumber : Nat := 4300

def nat? : List Char → Option Nat
  | [] => none
  | c :: r =>
    if longestNumber < ((c :: r).filter isDecimalDigit).length then none
    else do natFrom? (← digitValue? c) r

/-- The whole number that a text spells, with or without a sign and blanks around it. -/
def int? (s : String) : Option Int :=
  match trim s.toList with
  | '+' :: r => (nat? r).map Int.ofNat
  | '-' :: r => (nat? r).map fun n => -Int.ofNat n
  | r => (nat? r).map Int.ofNat

/-! ### Hexadecimal digits -/

def isHexDigit (c : Char) : Bool :=
  c.isDigit || ('a' ≤ c && c ≤ 'f') || ('A' ≤ c && c ≤ 'F')

/-- The value of one hexadecimal digit; letters of either case. -/
def hexDigitValue (c : Char) : Nat :=
  if c.isDigit then c.toNat - '0'.toNat else (c.toNat - 'A'.toNat) % 32 + 10

def hexValue (digits : List Char) : Nat := digits.foldl (fun n c => 16 * n + hexDigitValue c) 0

/-- The lowest `width` digits of a number, letters in lower case. -/
def hexDigits (width n : Nat) : List Char :=
  (List.range width).reverse.map fun i => Nat.digitChar (n >>> (4 * i) % 16)

/-- A code point as `U+00E9`: upper-case letters, four digits or more. -/
def codePointName (c : Char) : String :=
  let width := max 4 (Nat.toDigits 16 c.toNat).length
  "U+" ++ String.ofList ((hexDigits width c.toNat).map Char.toUpper)

end GraphDecl.Text
