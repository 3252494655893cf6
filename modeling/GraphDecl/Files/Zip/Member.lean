import GraphDecl.Files.Zip.Field
import GraphDecl.Packing.Checksum

/-!
Making zip archives, which hold their members without packing them.
-/

namespace GraphDecl.Zip

structure Member where
  name : String
  data : ByteArray

/-- The fields that a member has in common in front of its data and in the directory. Names are marked
as UTF-8 and data is not compressed. -/
def fields (m : Member) : List UInt8 :=
  numberBytes 20 2 ++ numberBytes 0x800 2 ++ numberBytes 0 2 ++ numberBytes 0 2 ++ numberBytes 33 2
  ++ numberBytes (Checksum.ofBytes m.data).toNat 4 ++ numberBytes m.data.size 4
  ++ numberBytes m.data.size 4 ++ numberBytes m.name.utf8ByteSize 2 ++ numberBytes 0 2

def memberBytes (m : Member) : ByteArray :=
  (numberBytes headerMark 4 ++ fields m).toByteArray ++ m.name.toUTF8 ++ m.data

def entryBytes (m : Member) (offset : Nat) : ByteArray :=
  (numberBytes entryMark 4 ++ numberBytes 20 2 ++ fields m ++ numberBytes 0 10
    ++ numberBytes offset 4).toByteArray ++ m.name.toUTF8

def bodyAndDirectory (ms : List Member) : ByteArray × ByteArray :=
  ms.foldl (fun (body, directory) m =>
    (body ++ memberBytes m, directory ++ entryBytes m body.size)) (.empty, .empty)

def ofMembers (ms : List Member) : ByteArray :=
  let (body, directory) := bodyAndDirectory ms
  body ++ directory ++ (numberBytes endMark 4 ++ numberBytes 0 4 ++ numberBytes ms.length 2
    ++ numberBytes ms.length 2 ++ numberBytes directory.size 4 ++ numberBytes body.size 4
    ++ numberBytes 0 2).toByteArray

end GraphDecl.Zip
