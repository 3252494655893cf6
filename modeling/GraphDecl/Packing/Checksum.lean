/-!
The checksum CRC-32, by which an archive shows that its members are whole.
-/

namespace GraphDecl.Checksum

/-- Takes one bit out of the register, with the reversed polynomial. -/
def step (register : UInt32) : UInt32 :=
  if register &&& 1 = 1 then (register >>> 1) ^^^ 0xEDB88320 else register >>> 1

def steps : Nat → UInt32 → UInt32
  | 0, register => register
  | n + 1, register => steps n (step register)

def addByte (register : UInt32) (byte : UInt8) : UInt32 := steps 8 (register ^^^ byte.toUInt32)

def ofBytes (data : ByteArray) : UInt32 := data.foldl addByte 0xFFFFFFFF ^^^ 0xFFFFFFFF

/-! ### With the highest bit first -/

def highStep (register : UInt32) : UInt32 :=
  if register &&& 0x80000000 = 0 then register <<< 1 else (register <<< 1) ^^^ 0x04C11DB7

def highSteps : Nat → UInt32 → UInt32
  | 0, register => register
  | n + 1, register => highSteps n (highStep register)

def addHighByte (register : UInt32) (byte : UInt8) : UInt32 :=
  highSteps 8 (register ^^^ (byte.toUInt32 <<< 24))

/-- The checksum that takes the bits of each byte in the other order. -/
def ofBytesHighFirst (data : ByteArray) : UInt32 :=
  data.foldl addHighByte 0xFFFFFFFF ^^^ 0xFFFFFFFF

end GraphDecl.Checksum
