import GraphDecl.Files.Zip.Field

/-!
The directory at the end of a zip archive, which names the members and says where each one starts.
-/

namespace GraphDecl.Zip

/-! ### The end of the archive -/

/-- The place of the record that ends the archive. A comment of less than 64 KiB may follow it. -/
def endRecord? (data : ByteArray) : Option Nat :=
  let isEnd (place : Nat) := number data place 4 == endMark
  let bare := data.size - 22
  if data.size < 22 then none
  else if isEnd bare && number data (data.size - 2) 2 == 0 then some bare
  else
    let tail := (List.range (min data.size (0x10000 + 22) + 1)).map (data.size - ·)
    (tail.find? isEnd).filter (· + 22 ≤ data.size)

structure DirectoryPlace where
  stop : Nat
  size : Nat
  /-- Where it starts, if nothing stands in front of the archive. -/
  offset : Nat
  deriving DecidableEq, Repr

/-- The record at `place` may have another one in front of it, with larger numbers, and a locator
between the two. -/
def directoryPlace (data : ByteArray) (place : Nat) : Except ArchiveFault DirectoryPlace :=
  let plain := ⟨place, number data (place + 12) 4, number data (place + 16) 4⟩
  if place < 20 ∨ number data (place - 20) 4 ≠ wideEndLocatorMark then .ok plain
  else if number data (place - 16) 4 ≠ 0 ∨ 1 < number data (place - 4) 4 then .error .severalParts
  else if place < 76 then .error .notArchive
  else
    let wide := place - 76
    if number data wide 4 ≠ wideEndMark then .ok plain
    else .ok ⟨wide, number data (wide + 40) 8, number data (wide + 48) 8⟩

/-! ### The directory -/

structure Entry where
  /-- The name in full; what follows a character of code 0 does not count. -/
  fullName : String
  flags : Nat
  method : Nat
  checksum : Nat
  packedSize : Nat
  size : Nat
  attributes : Nat
  /-- Where the member starts, which is negative if it would be in front of the file. -/
  start : Int
  deriving DecidableEq, Repr

namespace Entry

def name (e : Entry) : String := String.ofList (e.fullName.toList.takeWhile (· ≠ '\x00'))

/-- A number of 8 bytes in an extra field. -/
def wideNumber (data : ByteArray) (n : WideNumber) (place stop : Nat) : Except ArchiveFault Nat :=
  if stop < place + 8 then .error (.wideNumberMissing n) else .ok (number data place 8)

/-- Takes the numbers that are too large for the entry from its extra field. -/
def widen (data : ByteArray) (e : Entry) (place stop : Nat) : Except ArchiveFault Entry := do
  let sizeIsWide := e.size = largest 4 ∨ e.size = largest 8
  let size ← if sizeIsWide then wideNumber data .size place stop else pure e.size
  let place := if sizeIsWide then place + 8 else place
  let packedIsWide := e.packedSize = largest 4
  let packedSize ← if packedIsWide then wideNumber data .packedSize place stop else pure e.packedSize
  let place := if packedIsWide then place + 8 else place
  let start ← if e.start = largest 4 then Int.ofNat <$> wideNumber data .start place stop
    else pure e.start
  return { e with size, packedSize, start }

/-- Goes through the extra fields between two places; `bound` is at least their number. -/
def withExtra (data : ByteArray) (stop : Nat) : Nat → Nat → Entry → Except ArchiveFault Entry
  | 0, _, e => .ok e
  | bound + 1, place, e =>
    if stop < place + 4 then .ok e
    else do
      let kind := number data place 2
      let size := number data (place + 2) 2
      let next := place + 4 + size
      if stop < next then throw (.extraField kind size)
      let e ← if kind = 1 then e.widen data (place + 4) next else pure e
      withExtra data stop bound next e

end Entry

/-- The latest version of the format that can be read, in tenths. -/
def latestVersion : Nat := 63

/-- The entry of a directory at `place`, and the place of the next one. The start of the member counts
from the start of the archive. -/
def entryAt (data : ByteArray) (stop place : Nat) : Except ArchiveFault (Entry × Nat) := do
  if stop < place + 46 then throw .directoryCut
  if number data place 4 ≠ entryMark then throw .entryMark
  let flags := number data (place + 8) 2
  let nameEnd := place + 46 + number data (place + 28) 2
  let fullName ← nameOf flags (data.extract (place + 46) (min nameEnd stop))
  let version := number data (place + 6) 1
  if latestVersion < version then throw (.laterVersion version)
  let extraEnd := nameEnd + number data (place + 30) 2
  let entry : Entry :=
    { fullName, flags
      method := number data (place + 10) 2
      checksum := number data (place + 16) 4
      packedSize := number data (place + 20) 4
      size := number data (place + 24) 4
      attributes := number data (place + 38) 4
      start := number data (place + 42) 4 }
  let entry ← entry.withExtra data (min extraEnd stop) (extraEnd - nameEnd) nameEnd
  return (entry, extraEnd + number data (place + 32) 2)

/-- The entries in the part of the directory between two places. Each takes at least 46 bytes, so
`bound` need not be larger than the part. -/
def entriesFrom (data : ByteArray) (stop : Nat) : Nat → Nat → Except ArchiveFault (List Entry)
  | 0, _ => .ok []
  | bound + 1, place =>
    if stop ≤ place then .ok []
    else do
      let (entry, next) ← entryAt data stop place
      return entry :: (← entriesFrom data stop bound next)

/-- A directory: its entries, and where it starts. -/
structure Directory where
  entries : List Entry
  start : Nat
  deriving DecidableEq, Repr

/-- The directory of an archive. Something may stand in front of the archive, which moves all members. -/
def directory (data : ByteArray) : Except ArchiveFault Directory :=
  match endRecord? data with
  | none => .error .notArchive
  | some place => do
    let ⟨stop, size, offset⟩ ← directoryPlace data place
    if stop < size then throw .directoryStart
    let entries ← entriesFrom data stop size (stop - size)
    let shift : Int := stop - size - offset
    return ⟨entries.map fun e => { e with start := e.start + shift }, stop - size⟩

/-- Where a member that starts at `start` has to end: where the next one starts. `before` are the
starts of the entries in front of its own; of members that start at one place only the first has any
room. -/
def Directory.limit (d : Directory) (before : List Int) (start : Int) : Int :=
  if before.contains start then start
  else (((d.entries.map (·.start)).filter (start < ·)).min?).getD d.start

end GraphDecl.Zip
