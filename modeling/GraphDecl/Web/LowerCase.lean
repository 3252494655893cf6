import GraphDecl.Text.Upper
import GraphDecl.Web.Marks

/-!
Names of hosts in lower case. Most capitals have the small letter of which they are the upper-case form;
sigma has one of two forms, as it ends a word or not.
-/

namespace GraphDecl.Web

/-- Letters that are not the upper-case form of their lower-case form. -/
def lowerExceptions : List (Nat × List Nat) :=
  [(0x130, [0x69, 0x307]), (0x1c5, [0x1c6]), (0x1c8, [0x1c9]), (0x1cb, [0x1cc]), (0x1f2, [0x1f3]),
   (0x3f4, [0x3b8]), (0x1e9e, [0xdf]), (0x1f88, [0x1f80]), (0x1f89, [0x1f81]), (0x1f8a, [0x1f82]),
   (0x1f8b, [0x1f83]), (0x1f8c, [0x1f84]), (0x1f8d, [0x1f85]), (0x1f8e, [0x1f86]),
   (0x1f8f, [0x1f87]), (0x1f98, [0x1f90]), (0x1f99, [0x1f91]), (0x1f9a, [0x1f92]),
   (0x1f9b, [0x1f93]), (0x1f9c, [0x1f94]), (0x1f9d, [0x1f95]), (0x1f9e, [0x1f96]),
   (0x1f9f, [0x1f97]), (0x1fa8, [0x1fa0]), (0x1fa9, [0x1fa1]), (0x1faa, [0x1fa2]),
   (0x1fab, [0x1fa3]), (0x1fac, [0x1fa4]), (0x1fad, [0x1fa5]), (0x1fae, [0x1fa6]),
   (0x1faf, [0x1fa7]), (0x1fbc, [0x1fb3]), (0x1fcc, [0x1fc3]), (0x1ffc, [0x1ff3]),
   (0x2126, [0x3c9]), (0x212a, [0x6b]), (0x212b, [0xe5])]

def lower (c : Char) : List Char :=
  match lowerExceptions.lookup c.toNat with
  | some ns => ns.map Char.ofNat
  | none => [Text.small c]

/-- Letters of names, and their capitals, in scripts that have both. -/
def casedRuns : List (Nat × Nat) :=
  [(0x41, 0x7a), (0xc0, 0x1ba), (0x1bc, 0x1bf), (0x1cd, 0x293), (0x295, 0x2af), (0x370, 0x373),
   (0x376, 0x481), (0x48a, 0x556), (0x560, 0x588), (0x10a0, 0x10ff), (0x1c90, 0x1cbf),
   (0x1d00, 0x1d2b), (0x1d6b, 0x1d9a), (0x1e00, 0x1ffa), (0x2126, 0x2cee), (0x2cf2, 0x2d2d),
   (0xa640, 0xa66d), (0xa680, 0xa69b), (0xa722, 0xa787), (0xa78b, 0xa78e), (0xa790, 0xa7f6),
   (0xa7fa, 0xa7fa), (0xab30, 0xab68), (0x10400, 0x1044f), (0x104b0, 0x104fb), (0x10570, 0x105bc),
   (0x10c80, 0x10cf2), (0x118a0, 0x118df), (0x16e40, 0x16e7f), (0x1df00, 0x1df09),
   (0x1df0b, 0x1df1e), (0x1e900, 0x1e943)]

/-- Characters of names beside undirected marks that do not end a word. -/
def wordRuns : List (Nat × Nat) :=
  [(0x2e, 0x2e), (0xb7, 0xb7), (0x2b9, 0x2ee), (0x375, 0x375), (0x559, 0x559), (0x5f4, 0x5f4),
   (0x6e5, 0x6e6), (0x7f4, 0x7f5), (0x81a, 0x81a), (0x824, 0x824), (0x828, 0x828), (0x8c9, 0x8c9),
   (0x971, 0x971), (0xcbf, 0xcbf), (0xcc6, 0xcc6), (0xe46, 0xe46), (0xec6, 0xec6), (0x17d7, 0x17d7),
   (0x1843, 0x1843), (0x1aa7, 0x1aa7), (0x1c78, 0x1c7d), (0x1d2f, 0x1d4e), (0x200c, 0x200d),
   (0x2e2f, 0x2e2f), (0x3005, 0x3005), (0x309d, 0x309e), (0x30fc, 0x30fe), (0xa015, 0xa015),
   (0xa4f8, 0xa4fd), (0xa60c, 0xa60c), (0xa67f, 0xa67f), (0xa717, 0xa71f), (0xa788, 0xa788),
   (0xa9cf, 0xa9cf), (0xa9e6, 0xa9e6), (0xaa70, 0xaa70), (0xaadd, 0xaadd), (0xaaf3, 0xaaf4),
   (0xff0e, 0xff0e), (0x10780, 0x10780), (0x11a07, 0x11a08), (0x11c3f, 0x11c3f), (0x16b40, 0x16b43),
   (0x16f93, 0x16fe3), (0x1aff0, 0x1affe), (0x1e137, 0x1e13d), (0x1e94b, 0x1e94b)]

def isCased (c : Char) : Bool := Text.inRuns casedRuns c

/-- Whether a character says nothing about where a word ends. -/
def isWithinWord (c : Char) : Bool := Text.inRuns wordRuns c || isUndirectedMark c

/-- Whether the first letter of a text belongs to a word that starts right here. -/
def meetsLetter (s : List Char) : Bool :=
  match s.dropWhile isWithinWord with
  | c :: _ => isCased c
  | [] => false

/-- The lower-case form of what follows `before`, of which the last character comes first. -/
def lowerFrom (before : List Char) : List Char → List Char
  | [] => []
  | c :: s =>
    (if c = 'Σ' then [if meetsLetter before && !meetsLetter s then 'ς' else 'σ'] else lower c)
      ++ lowerFrom (c :: before) s

def lowerCase (s : List Char) : List Char := lowerFrom [] s

end GraphDecl.Web
