import RecordStore.Checksum
import RecordStore.Fault
import RecordStore.Memory

namespace RecordStore

-- What may be done through a view: bit 0 allows writing, bit 1 atomic counting.
abbrev Capabilities := UInt8

namespace Capabilities

def none : Capabilities := 0
def all : Capabilities := 3

end Capabilities

structure View where
  region : Nat
  start : Nat
  size : UInt64
  caps : Capabilities
deriving DecidableEq, Repr

def isPowerOfTwo (n : UInt64) : Bool := n != 0 && n &&& (n - 1) == 0

namespace View

def empty : View := ⟨0, 0, 0, Capabilities.none⟩

def isEmpty (view : View) : Bool := view.size == 0

def isMutable (view : View) : Bool := view.caps &&& 1 != 0

def isAtomic (view : View) : Bool := view.caps &&& 2 != 0

def readOnly (view : View) : View := { view with caps := Capabilities.none }

def sameBytes (a b : View) : Bool := a.region == b.region && a.start == b.start && a.size == b.size

def inBounds (view : View) (offset length : UInt64) : Bool :=
  !(decide (offset + length > view.size) || decide (offset + length < offset))

theorem in_bounds_iff (view : View) (offset length : UInt64) :
    view.inBounds offset length = true ↔ offset.toNat + length.toNat ≤ view.size.toNat := by
  have ho := offset.toNat_lt
  have hl := length.toNat_lt
  have hs := view.size.toNat_lt
  simp only [inBounds, Bool.not_eq_true', Bool.or_eq_false_iff, decide_eq_false_iff_not,
    GT.gt, UInt64.lt_iff_toNat_lt, UInt64.toNat_add]
  omega

def checkBounds (view : View) (offset length : UInt64) : Except Fault Unit :=
  if view.inBounds offset length then .ok () else .error .outOfRange

def checkMutable (view : View) : Except Fault Unit :=
  if view.isMutable then .ok () else .error .readOnly

def slice (view : View) (offset length : UInt64) : Except Fault View := do
  view.checkBounds offset length
  return { view with start := view.start + offset.toNat, size := length }

def peek (view : View) (memory : Memory) (offset length : UInt64) : Bytes :=
  (memory.region view.region).window (view.start + offset.toNat) length.toNat

def poke (view : View) (memory : Memory) (offset : UInt64) (bytes : Bytes) : Memory :=
  memory.overwrite view.region (view.start + offset.toNat) bytes

def bytes (view : View) (memory : Memory) : Bytes := view.peek memory 0 view.size

def load (view : View) (memory : Memory) (offset length : UInt64) : Except Fault Bytes := do
  view.checkBounds offset length
  return view.peek memory offset length

def loadNat (view : View) (memory : Memory) (offset : UInt64) (width : Nat) : Except Fault Nat :=
  return decodeLE (← view.load memory offset width.toUInt64)

def store (view : View) (memory : Memory) (offset : UInt64) (bytes : Bytes) :
    Except Fault Memory := do
  view.checkMutable
  view.checkBounds offset bytes.length.toUInt64
  return view.poke memory offset bytes

def storeNat (view : View) (memory : Memory) (offset : UInt64) (width n : Nat) :
    Except Fault Memory :=
  view.store memory offset (encodeLE width n)

def storeText (view : View) (memory : Memory) (offset : UInt64) (text : Bytes) :
    Except Fault Memory :=
  view.store memory offset (text.map asciiByte)

def fill (view : View) (memory : Memory) (offset length : UInt64) (byte : UInt8) :
    Except Fault Memory := do
  view.checkMutable
  view.checkBounds offset length
  return view.poke memory offset (List.replicate length.toNat byte)

def zero (view : View) (memory : Memory) : Memory :=
  if view.isMutable then view.poke memory 0 (List.replicate view.size.toNat 0) else memory

-- Copies a range of another view. All bytes are read before the first is written, so the two
-- ranges may overlap.
def copy (view : View) (memory : Memory) (offset : UInt64) (source : View)
    (sourceOffset length : UInt64) : Except Fault Memory := do
  view.checkMutable
  view.checkBounds offset length
  source.checkBounds sourceOffset length
  return view.poke memory offset (source.peek memory sourceOffset length)

-- Atomic counting needs both capabilities, room, and a naturally aligned address. Regions start at
-- an aligned address, so the position in the region decides.
def addsAtomically (view : View) (offset width : UInt64) : Bool :=
  view.isAtomic && view.isMutable && view.inBounds offset width &&
    (view.start + offset.toNat) % width.toNat == 0

def addAtomic (view : View) (memory : Memory) (offset : UInt64) (width delta : Nat) :
    Except Fault (Nat × Memory) :=
  if view.addsAtomically offset width.toUInt64 then
    let before := decodeLE (view.peek memory offset width.toUInt64)
    .ok (before, view.poke memory offset (encodeLE width (before + delta)))
  else .error (.noAtomicAdd (8 * width))

def crc32 (view : View) (memory : Memory) (offset length : UInt64) : Except Fault UInt32 :=
  return Checksum.crc32 (← view.load memory offset length)

def crc32c (view : View) (memory : Memory) (offset length : UInt64) : Except Fault UInt32 :=
  return Checksum.crc32c (← view.load memory offset length)

end View

def blockAlignment (alignment : UInt64) : UInt64 := if alignment < 16 then 16 else alignment

def blockSize (size alignment : UInt64) : UInt64 :=
  (size + blockAlignment alignment - 1) &&& ~~~(blockAlignment alignment - 1)

-- Nothing needs no region, and only a region needs a valid alignment. A size that wraps when it is
-- rounded up asks for a block of no bytes, too short for the zeros that are then written.
def Memory.allocate (memory : Memory) (size alignment : UInt64) : Except Fault (View × Memory) :=
  if size = 0 then .ok ({ View.empty with caps := Capabilities.all }, memory)
  else if !isPowerOfTwo alignment then .error .badAlignment
  else if blockSize size alignment < size then .error .shortBlock
  else if memory.limit < (blockSize size alignment).toNat then .error .outOfMemory
  else .ok (⟨memory.fresh, 0, size, Capabilities.all⟩, memory.grow size.toNat)

end RecordStore
