import Mathlib.Logic.Function.Basic

/-!
# The floppy driver

`FloppyDisk.c` above its hardware: the head that steps from cylinder to cylinder and
the DMA that transfers the words of a track.  No operation of the hardware fails, so
that nothing but the state of the drive decides what a call returns; the waits are
left out.
-/

set_option autoImplicit false

namespace Apollo.Driver

def mfmSyncWord : UInt16 := 0x4489

def adfFormatV1 : UInt8 := 0xff

def adfDDSecsPerTrack : Nat := 11

/-- `ADF_SECTOR_SIZE / sizeof(uint32_t)`. -/
def adfSectorLongs : Nat := 128

/-- `FLOPPY_TRACK_BUFFER_CAPACITY`, which is the `track_size` of each drive. -/
def floppyTrackBufferCapacity : Nat := 6400

abbrev Words : Type := Nat → UInt16

/-! ## MFM -/

/-- `MASK` of `mfm_decode_sector`. -/
def mfmMask : UInt32 := 0x55555555

/-- The 32 bits at a word of the memory; the machine is big-endian. -/
def longAt (words : Words) (index : Nat) : UInt32 := (words index).toUInt32 <<< 16 ||| (words (index + 1)).toUInt32

def storeLong (words : Words) (index : Nat) (long : UInt32) : Words :=
  Function.update (Function.update words index (long >>> 16).toUInt16) (index + 1) long.toUInt16

/-- The loop of `mfm_decode_sector` with `count` rounds left; its checksum is not used. -/
def mfmDecodeLoop (words : Words) (dataSize input : Nat) : Nat → List UInt32
  | 0 => []
  | count + 1 =>
    let oddBits := longAt words input
    let evenBits := longAt words (input + 2 * dataSize)
    ((evenBits &&& mfmMask) ||| ((oddBits &&& mfmMask) <<< 1)) :: mfmDecodeLoop words dataSize (input + 2) count

def mfmDecodeSector (words : Words) (input dataSize : Nat) : List UInt32 := mfmDecodeLoop words dataSize input dataSize

/-- What the inner loop of `mfm_encode_sector` keeps. -/
structure MfmEncoder where
  oddBits : UInt32
  evenBits : UInt32
  prevOddBit : UInt32
  prevEvenBit : UInt32
  deriving DecidableEq

/-- A round of the inner loop of `mfm_encode_sector`. -/
def MfmEncoder.encodeBits (encoder : MfmEncoder) (data iEven : UInt32) : MfmEncoder :=
  let iOdd := iEven + 1
  let curOddBit := data &&& (1 <<< iOdd)
  let curEvenBit := data &&& (1 <<< iEven)
  let oddBits :=
    if curOddBit ≠ 0 then encoder.oddBits ||| (1 <<< iEven)
    else if encoder.prevOddBit = 0 then encoder.oddBits ||| (1 <<< iOdd)
    else encoder.oddBits
  let evenBits :=
    if curEvenBit ≠ 0 then encoder.evenBits ||| (1 <<< iEven)
    else if encoder.prevEvenBit = 0 then encoder.evenBits ||| (1 <<< iOdd)
    else encoder.evenBits
  ⟨oddBits, evenBits, curOddBit, curEvenBit⟩

/-- The longs that `mfm_encode_sector` makes of one. -/
def mfmEncodeLong (data : UInt32) : UInt32 × UInt32 :=
  let encoder := [30, 28, 26, 24, 22, 20, 18, 16, 14, 12, 10, 8, 6, 4, 2, 0].foldl
    (fun encoder iEven => MfmEncoder.encodeBits encoder data iEven) ⟨0, 0, 0, 0⟩
  (encoder.oddBits, encoder.evenBits)

def mfmEncodeLoop (words : Words) (dataSize output : Nat) : List UInt32 → Words
  | [] => words
  | data :: rest =>
    let (oddBits, evenBits) := mfmEncodeLong data
    mfmEncodeLoop (storeLong (storeLong words output oddBits) (output + 2 * dataSize) evenBits) dataSize (output + 2) rest

def mfmEncodeSector (input : List UInt32) (words : Words) (output : Nat) : Words :=
  mfmEncodeLoop words input.length output input

/-! ## The hardware -/

/-- The words of a track, which come around again and again. -/
structure FloppyTrack where
  length : Nat
  words : Words

structure FloppyHardware where
  tracks : Nat → Int → FloppyTrack
  cylinder : Int
  head : Nat

abbrev FloppySpin : Type := FloppyTrack → Nat

namespace FloppyHardware

def stepHead (hardware : FloppyHardware) (inout : Int) : FloppyHardware := { hardware with cylinder := hardware.cylinder + inout }

def selectHead (hardware : FloppyHardware) (side : Nat) : FloppyHardware := { hardware with head := side }

def track (hardware : FloppyHardware) : FloppyTrack := hardware.tracks hardware.head hardware.cylinder

def storeWords (length start : Nat) (data : Words) : Nat → Words → Words
  | 0, words => words
  | count + 1, words =>
    let words := storeWords length start data count words
    fun position => if position % length = (start + count) % length then data count else words position

/-- A DMA transfer between `fdc_io_begin` and `fdc_io_end`: the memory and the disk behind it. -/
def transfer (hardware : FloppyHardware) (spin : FloppySpin) (data : Words) (nwords readwrite : Nat) : Words × FloppyHardware :=
  let start := spin hardware.track
  if readwrite = 0 then (fun index => if index < nwords then hardware.track.words (start + index) else data index, hardware)
  else
    let track := { hardware.track with words := storeWords hardware.track.length start data nwords hardware.track.words }
    (data, { hardware with
      tracks := Function.update hardware.tracks hardware.head
        (Function.update (hardware.tracks hardware.head) hardware.cylinder track) })

end FloppyHardware

/-! ## The driver -/

/-- `FloppyDisk`; `trackBuffer` is the memory from the track buffer on, and `bufferValid` is
`FLOPPY_FLAG_TRACK_BUFFER_VALID`. -/
structure FloppyDisk where
  trackBuffer : Words
  trackSectors : Nat → Nat
  head : Int
  cylinder : Int
  bufferValid : Bool

structure FloppySystem where
  disk : FloppyDisk
  hardware : FloppyHardware

structure ADFSectorHeader where
  format : UInt8
  track : UInt8
  sector : UInt8
  deriving DecidableEq

def sectorHeader (words : Words) (index : Nat) : ADFSectorHeader :=
  let long := (mfmDecodeSector words index 1).headD 0
  ⟨(long >>> 24).toUInt8, (long >>> 16).toUInt8, (long >>> 8).toUInt8⟩

/-- The loops that skip words; `count` words are left. -/
def skipWords (skip : UInt16 → Bool) (words : Words) : Nat → Nat → Nat
  | 0, i => i
  | count + 1, i => if skip (words i) then skipWords skip words count (i + 1) else i

/-- A sector is recorded when its header is valid; its first occurrence is kept. -/
def recordSector (cylinder : Int) (header : ADFSectorHeader) (i : Nat) (sectorTable : Nat → Nat) : Nat → Nat :=
  if header.format ≠ adfFormatV1 ∨ (header.track.toNat : Int) ≠ cylinder ∨ adfDDSecsPerTrack ≤ header.sector.toNat then sectorTable
  else if sectorTable header.sector.toNat = 0 then Function.update sectorTable header.sector.toNat i
  else sectorTable

/-- The loop that builds the sector table; it makes no more rounds than there are words. -/
def buildSectorTable (words : Words) (cylinder : Int) : Nat → Nat → (Nat → Nat) → Nat → Nat
  | 0, _, sectorTable => sectorTable
  | fuel + 1, i, sectorTable =>
    if i < floppyTrackBufferCapacity then
      let i := skipWords (· != mfmSyncWord) words (floppyTrackBufferCapacity - i) i
      let i := skipWords (· == mfmSyncWord) words (floppyTrackBufferCapacity - i) i
      if i = floppyTrackBufferCapacity then sectorTable
      else buildSectorTable words cylinder fuel (i + 1) (recordSector cylinder (sectorHeader words i) i sectorTable)
    else sectorTable

namespace FloppySystem

/-- `FloppyDMA_DoIO`: the transfer that it begins is always a read. -/
def dmaTransfer (sys : FloppySystem) (spin : FloppySpin) (nwords _readwrite : Nat) : FloppySystem :=
  let (data, hardware) := sys.hardware.transfer spin sys.disk.trackBuffer nwords 0
  { disk := { sys.disk with trackBuffer := data }, hardware := hardware }

def dmaRead (sys : FloppySystem) (spin : FloppySpin) : FloppySystem := sys.dmaTransfer spin floppyTrackBufferCapacity 0

def dmaWrite (sys : FloppySystem) (spin : FloppySpin) : FloppySystem := sys.dmaTransfer spin floppyTrackBufferCapacity 1

def invalidateTrackBuffer (sys : FloppySystem) : FloppySystem :=
  if sys.disk.bufferValid then { sys with disk := { sys.disk with bufferValid := false, trackSectors := fun _ => 0 } } else sys

def stepTo (curDir : Int) : Nat → FloppySystem → FloppySystem
  | 0, sys => sys
  | nsteps + 1, sys =>
    stepTo curDir nsteps
      { disk := { sys.disk with cylinder := sys.disk.cylinder + curDir }, hardware := sys.hardware.stepHead curDir }

def seekTo (sys : FloppySystem) (cylinder : Int) (head : Nat) : FloppySystem :=
  let diff := cylinder - sys.disk.cylinder
  let curDir := if diff ≥ 0 then 1 else -1
  let changeSide := sys.disk.head ≠ head
  let sys := stepTo curDir diff.natAbs sys.invalidateTrackBuffer
  if changeSide then { disk := { sys.disk with head := head }, hardware := sys.hardware.selectHead head } else sys

def readTrack (sys : FloppySystem) (spin : FloppySpin) (head : Nat) (cylinder : Int) : FloppySystem :=
  let sys := if sys.disk.cylinder ≠ cylinder ∨ sys.disk.head ≠ head then sys.seekTo cylinder head else sys
  if sys.disk.bufferValid then sys
  else
    let sys := sys.dmaRead spin
    let table := buildSectorTable sys.disk.trackBuffer cylinder floppyTrackBufferCapacity 0 fun _ => 0
    { sys with disk := { sys.disk with trackSectors := table, bufferValid := true } }

/-- `FloppyDisk_ReadSector`; the result is `none` for `EIO`. -/
def readSector (sys : FloppySystem) (spin : FloppySpin) (head : Nat) (cylinder : Int) (sector : Nat) :
    Option (List UInt32) × FloppySystem :=
  let sys := sys.readTrack spin head cylinder
  let idx := sys.disk.trackSectors sector
  if idx = 0 then (none, sys) else (some (mfmDecodeSector sys.disk.trackBuffer (idx + 28) adfSectorLongs), sys)

def writeTrack (sys : FloppySystem) (spin : FloppySpin) (head : Nat) (cylinder : Int) : FloppySystem :=
  let sys := if sys.disk.cylinder ≠ cylinder ∨ sys.disk.head ≠ head then sys.seekTo cylinder head else sys
  sys.dmaWrite spin

/-- `FloppyDisk_WriteSector`; the result is whether it is `EOK`. -/
def writeSector (sys : FloppySystem) (readSpin writeSpin : FloppySpin) (head : Nat) (cylinder : Int) (sector : Nat)
    (buffer : List UInt32) : Bool × FloppySystem :=
  let sys := sys.readTrack readSpin head cylinder
  let idx := sys.disk.trackSectors sector
  if idx = 0 then (false, sys)
  else
    let sys := { sys with disk := { sys.disk with trackBuffer := mfmEncodeSector buffer sys.disk.trackBuffer (idx + 28) } }
    (true, sys.writeTrack writeSpin head cylinder)

end FloppySystem

end Apollo.Driver
