import GraphDecl.Packing.Inflate
import GraphDecl.Packing.Lzma
import GraphDecl.Text.Quoted

/-!
What can be wrong with a zip archive, as a whole or at one of its members.
-/

namespace GraphDecl

/-- The numbers that an extra field has if they are too large for the entry itself. -/
inductive WideNumber
  | size | packedSize | start
  deriving DecidableEq, Repr

def WideNumber.text : WideNumber → String
  | size => "File size"
  | packedSize => "Compress size"
  | start => "Header offset"

inductive ArchiveFault
  /-- Nothing at the end of the file says that it is an archive. -/
  | notArchive
  /-- The archive is spread over several files. -/
  | severalParts
  | directoryStart | directoryCut | entryMark
  /-- The bytes of a name are no text. -/
  | undecodableName
  /-- A member needs a later version of the format, which is given in tenths. -/
  | laterVersion (tenths : Nat)
  | extraField (kind size : Nat)
  | wideNumberMissing (number : WideNumber)
  | emptyName
  /-- A member starts where no file can have anything. -/
  | startOutOfReach
  /-- Its start is not even a place in a file. -/
  | startTooLarge
  | headerCut | headerMark
  | patchedData | strongEncryption
  /-- The name in the directory is not the one in front of the data. -/
  | nameDiffers (name : String) (header : List UInt8)
  /-- The data of a member goes on where something else starts. -/
  | overlap (name : String)
  | encrypted (description : String)
  | unknownMethod
  /-- The file ends before the data of a member. -/
  | dataCut
  | deflate (fault : Inflate.Fault)
  | bzip2
  | lzma (fault : Lzma.Fault)
  | checksum (name : String)
  deriving DecidableEq, Repr

/-- A number of tenths with its decimal point. -/
def tenthsText (n : Nat) : String := toString (n / 10) ++ "." ++ toString (n % 10)

def ArchiveFault.message : ArchiveFault → String
  | notArchive => "File is not a zip file"
  | severalParts => "zipfiles that span multiple disks are not supported"
  | directoryStart => "Bad offset for central directory"
  | directoryCut => "Truncated central directory"
  | entryMark => "Bad magic number for central directory"
  | undecodableName => "Name is not UTF-8 text"
  | laterVersion n => "zip file version " ++ tenthsText n
  | extraField kind size => "Corrupt extra field " ++ String.ofList (Text.hexDigits 4 kind)
      ++ " (size=" ++ toString size ++ ")"
  | wideNumberMissing number => "Corrupt zip64 extra field. " ++ number.text ++ " not found."
  | emptyName => "string index out of range"
  | startOutOfReach => "Invalid argument"
  | startTooLarge => "cannot fit 'int' into an offset-sized integer"
  | headerCut => "Truncated file header"
  | headerMark => "Bad magic number for file header"
  | patchedData => "compressed patched data (flag bit 5)"
  | strongEncryption => "strong encryption (flag bit 6)"
  | nameDiffers name header => "File name in directory " ++ Text.quoted name ++ " and header "
      ++ Text.quotedBytes header ++ " differ."
  | overlap name => "Overlapped entries: " ++ Text.quoted name ++ " (possible zip bomb)"
  | encrypted description =>
    "File " ++ description ++ " is encrypted, password required for extraction"
  | unknownMethod => "That compression method is not supported"
  | dataCut => ""
  | deflate fault => "Error -3 while decompressing data: " ++ fault.message
  | bzip2 => "Invalid data stream"
  | lzma .properties => "Invalid or unsupported options"
  | lzma .data => "Corrupt input data"
  | checksum name => "Bad CRC-32 for file " ++ Text.quoted name

end GraphDecl
