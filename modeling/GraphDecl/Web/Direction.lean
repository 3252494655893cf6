import GraphDecl.Web.Marks

/-!
The direction of texts. A label of a name that holds characters of scripts written from right to left
holds no others that have a direction of their own.
-/

namespace GraphDecl.Web

inductive Direction
  | leftToRight | rightToLeft
  /-- Digits, which are written from left to right in every script. -/
  | number
  /-- Digits of Arabic, and those of some further scripts. -/
  | arabicNumber
  /-- The direction of what is in front of it. -/
  | inherited
  /-- The direction of what is around it. -/
  | neutral
  deriving DecidableEq, Repr

/-- Characters of names in scripts that are written from right to left. -/
def rightToLeftRuns : List (Nat × Nat) :=
  [(0x5d0, 0x5f4), (0x620, 0x64a), (0x66e, 0x66f), (0x671, 0x6d5), (0x6e5, 0x6e6), (0x6ee, 0x6ef),
   (0x6fa, 0x710), (0x712, 0x72f), (0x74d, 0x7a5), (0x7b1, 0x7ea), (0x7f4, 0x7f5), (0x800, 0x815),
   (0x81a, 0x81a), (0x824, 0x824), (0x828, 0x828), (0x840, 0x858), (0x860, 0x88e), (0x8a0, 0x8c9),
   (0xfe73, 0xfe73), (0x10800, 0x10a00), (0x10a10, 0x10a35), (0x10a60, 0x10ae4), (0x10b00, 0x10d23),
   (0x10e80, 0x10ea9), (0x10eb0, 0x10f45), (0x10f70, 0x10f81), (0x10fb0, 0x10ff6),
   (0x1e800, 0x1e8c4), (0x1e922, 0x1e943), (0x1e94b, 0x1e959)]

def numberRuns : List (Nat × Nat) :=
  [(0x30, 0x39), (0x6f0, 0x6f9)]

def arabicNumberRuns : List (Nat × Nat) :=
  [(0x660, 0x669), (0x10d30, 0x10d39)]

def neutralRuns : List (Nat × Nat) :=
  [(0x2d, 0x2d), (0xb7, 0xb7), (0x2b9, 0x2ba), (0x2c6, 0x2cf), (0x2ec, 0x2ec), (0x375, 0x375),
   (0x200c, 0x200d), (0x2e2f, 0x2e2f), (0x30fb, 0x30fb), (0xa67f, 0xa67f), (0xa717, 0xa71f),
   (0xa788, 0xa788)]

def direction (c : Char) : Direction :=
  if Text.inRuns numberRuns c then .number
  else if Text.inRuns arabicNumberRuns c then .arabicNumber
  else if Text.inRuns neutralRuns c then .neutral
  else if isUndirectedMark c then .inherited
  else if Text.inRuns rightToLeftRuns c then .rightToLeft
  else .leftToRight

/-- Whether a direction makes a text one that is written from right to left. -/
def Direction.turns : Direction → Bool
  | rightToLeft | arabicNumber => true
  | _ => false

/-- Whether the parts of a label keep to one direction. One from right to left starts with a letter, ends
with a letter or digit, apart from marks, and has digits of one kind only. -/
def keepsDirection (label : List Char) : Bool :=
  let ds := label.map direction
  if !ds.any (·.turns) then true
  else ds.head? == some .rightToLeft && !ds.contains .leftToRight
    && (ds.reverse.dropWhile (· == .inherited)).head? != some .neutral
    && !(ds.contains .number && ds.contains .arabicNumber)

end GraphDecl.Web
