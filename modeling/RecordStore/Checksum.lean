import RecordStore.Bytes

namespace RecordStore.Checksum

def ieee : UInt32 := 0xEDB88320

def castagnoli : UInt32 := 0x82F63B78

def bitStep (polynomial register : UInt32) : UInt32 :=
  (register >>> 1) ^^^ (polynomial &&& (0 - (register &&& 1)))

def bitSteps (polynomial : UInt32) : Nat → UInt32 → UInt32
  | 0, register => register
  | n + 1, register => bitSteps polynomial n (bitStep polynomial register)

def byteStep (polynomial register : UInt32) (byte : UInt8) : UInt32 :=
  bitSteps polynomial 8 (register ^^^ byte.toUInt32)

def ieeeTable : Vector UInt32 256 :=
  Vector.ofFn fun i => bitSteps ieee 8 (UInt32.ofNat i.val)

def tableEntry (index : UInt8) : UInt32 := ieeeTable.get ⟨index.toNat, index.toNat_lt⟩

def tableStep (register : UInt32) (byte : UInt8) : UInt32 :=
  tableEntry (register ^^^ byte.toUInt32).toUInt8 ^^^ (register >>> 8)

def crc32 (bytes : Bytes) : UInt32 := ~~~ bytes.foldl tableStep 0xFFFFFFFF

def bitwise (polynomial : UInt32) (bytes : Bytes) : UInt32 :=
  ~~~ bytes.foldl (byteStep polynomial) 0xFFFFFFFF

def crc32c (bytes : Bytes) : UInt32 := bitwise castagnoli bytes

end RecordStore.Checksum
