import Apollo.Process.GemDosExecutable

/-!
# Which executables are loaded safely

A relocation stream is proper when each word that it names lies inside of the text and the data
and when it ends in front of the end of the block.  The stream is the relocation bytes of the
file and, behind them, what the block held before.
-/

set_option autoImplicit false

namespace Apollo.Process

open Klib Lib

/-! ## Relocation streams -/

/-- The bytes behind the first word, with the offset that has been reached. -/
def ProperDeltas (limit : Nat) : Nat → List UInt8 → Prop
  | _, [] => False
  | reached, b :: rest =>
    if b = 0 then True
    else if b = 1 then ProperDeltas limit ((reached + 254) % 4294967296) rest
    else (reached + b.toNat) % 4294967296 + 4 ≤ limit ∧ ProperDeltas limit ((reached + b.toNat) % 4294967296) rest

def ProperStream (limit : Nat) (stream : List UInt8) : Prop :=
  4 ≤ stream.length ∧ (beNumber (stream.take 4) = 0 ∨
    beNumber (stream.take 4) + 4 ≤ limit ∧ ProperDeltas limit (beNumber (stream.take 4)) (stream.drop 4))

def Located (pTextBase limit : Nat) (locations : List Nat) : Prop :=
  ∀ location ∈ locations, pTextBase ≤ location ∧ location + 4 ≤ pTextBase + limit

section Relocation
variable {size offset limit : Nat} {block : Region size} {relocated after : Relocated}

theorem relocWord_inside {pLoc : Nat} (inside : block.Contains pLoc 4) :
    relocWord block offset pLoc relocated =
      some ⟨storeWord relocated.memory pLoc (wordAt relocated.memory pLoc + offset), pLoc :: relocated.locations⟩ := if_pos inside

theorem relocLoop_locations {remaining pLoc : Nat} (looped : relocLoop block offset remaining pLoc relocated = some after) :
    ∀ location ∈ relocated.locations, location ∈ after.locations := by
  induction remaining generalizing pLoc relocated with
  | zero => cases looped
  | succ remaining ih =>
    intro location member
    unfold relocLoop at looped
    dsimp only at looped
    split_ifs at looped
    · exact Option.some.inj looped ▸ member
    · exact ih looped location member
    · obtain ⟨next, word, looped⟩ := Option.bind_eq_some_iff.mp looped
      refine ih looped location ?_
      unfold relocWord at word
      split_ifs at word
      rw [← Option.some.inj word]
      exact List.mem_cons_of_mem _ member

theorem place_inside {reached : Nat} (range : offset + limit ≤ 4294967296) (inside : reached + 4 ≤ limit) :
    (offset + reached) % 4294967296 = offset + reached := Nat.mod_eq_of_lt (by omega)

theorem inside_of_place {reached : Nat} (range : offset + limit ≤ 4294967296) (low : reached < 4294967296)
    (first : offset ≤ (offset + reached) % 4294967296) (last : (offset + reached) % 4294967296 + 4 ≤ offset + limit) :
    reached + 4 ≤ limit := by
  omega

theorem relocLoop_proper (stream : List UInt8) {reached : Nat} (low : block.base ≤ offset)
    (behind : offset + limit + stream.length ≤ block.base + size)
    (reads : bytesAt relocated.memory (block.base + size - stream.length) stream.length = stream)
    (located : Located offset limit relocated.locations) (small : reached < 4294967296) :
    (∃ after, relocLoop block offset stream.length ((offset + reached) % 4294967296) relocated = some after ∧
      Located offset limit after.locations) ↔ ProperDeltas limit reached stream := by
  induction stream generalizing reached relocated with
  | nil => exact iff_of_false (fun ⟨_, looped, _⟩ => nomatch looped) id
  | cons b rest ih =>
    have range := block.fits
    rw [List.length_cons] at behind reads ⊢
    rw [bytesAt_succ] at reads
    obtain ⟨here, others⟩ := List.cons.inj reads
    have next : block.base + size - (rest.length + 1) + 1 = block.base + size - rest.length := by omega
    rw [next] at others
    unfold relocLoop ProperDeltas
    dsimp only
    rw [here]
    by_cases zero : b = 0
    · rw [if_pos zero, if_pos zero]
      exact iff_of_true ⟨relocated, rfl, located⟩ trivial
    · rw [if_neg zero, if_neg zero]
      by_cases skip : b = 1
      · have place : ((offset + reached) % 4294967296 + 254) % 4294967296 = (offset + (reached + 254) % 4294967296) % 4294967296 := by
          omega
        rw [if_pos skip, if_pos skip, place]
        exact ih (by omega) others located (Nat.mod_lt _ (by decide))
      · have place : ((offset + reached) % 4294967296 + b.toNat) % 4294967296 =
            (offset + (reached + b.toNat) % 4294967296) % 4294967296 := by omega
        have small' : (reached + b.toNat) % 4294967296 < 4294967296 := Nat.mod_lt _ (by decide)
        rw [if_neg skip, if_neg skip, place]
        by_cases inside : (reached + b.toNat) % 4294967296 + 4 ≤ limit
        · have same : (offset + (reached + b.toNat) % 4294967296) % 4294967296 = offset + (reached + b.toNat) % 4294967296 :=
            place_inside (by omega) inside
          have here' : block.Contains (offset + (reached + b.toNat) % 4294967296) 4 := ⟨by omega, by omega⟩
          rw [and_iff_right inside, same, relocWord_inside here']
          rw [← same]
          refine ih (by omega) ?_ ?_ small'
          · rw [same, storeWord, bytesAt_apart (.inr (by rw [length_beBytes]; omega))]
            exact others
          · intro location member
            rcases List.mem_cons.mp member with rfl | older
            · exact ⟨by omega, by omega⟩
            · exact located location older
        · refine iff_of_false ?_ fun both => inside both.1
          rintro ⟨after, looped, located'⟩
          obtain ⟨following, word, looped⟩ := Option.bind_eq_some_iff.mp looped
          unfold relocWord at word
          split_ifs at word
          obtain rfl := Option.some.inj word
          obtain ⟨first, last⟩ := located' _ (relocLoop_locations looped _ List.mem_cons_self)
          exact inside (inside_of_place (by omega) small' first last)

theorem relocExecutable_proper {pRelocBase : Nat} {memory : Nat → UInt8} (stream : List UInt8) (low : block.base ≤ offset)
    (behind : offset + limit ≤ pRelocBase) (ends : pRelocBase + stream.length = block.base + size)
    (reads : bytesAt memory pRelocBase stream.length = stream) :
    (∃ after, relocExecutable block offset pRelocBase memory = some after ∧ Located offset limit after.locations) ↔
      ProperStream limit stream := by
  have range := block.fits
  unfold ProperStream relocExecutable
  by_cases long : 4 ≤ stream.length
  · obtain ⟨rest, more⟩ := Nat.exists_eq_add_of_le long
    rw [more, bytesAt_add] at reads
    have word : bytesAt memory pRelocBase 4 = stream.take 4 := by
      rw [← reads, List.take_left' length_bytesAt]
    have deltas : bytesAt memory (pRelocBase + 4) rest = stream.drop 4 := by
      rw [← reads, List.drop_left' length_bytesAt]
    have first : beNumber (stream.take 4) < 4294967296 := by
      rw [← word]
      exact wordAt_lt memory pRelocBase
    rw [and_iff_right long, Region.load_inside ⟨by omega, by omega⟩, word]
    simp only [Option.bind_eq_bind, Option.bind_some]
    generalize beNumber (stream.take 4) = firstRelocOffset at first ⊢
    by_cases none : firstRelocOffset = 0
    · rw [if_pos none]
      exact iff_of_true ⟨_, rfl, nofun⟩ (.inl none)
    · rw [if_neg none, or_iff_right none]
      by_cases inside : firstRelocOffset + 4 ≤ limit
      · have same : (offset + firstRelocOffset) % 4294967296 = offset + firstRelocOffset := place_inside (by omega) inside
        have here : block.Contains (offset + firstRelocOffset) 4 := ⟨by omega, by omega⟩
        have length : (stream.drop 4).length = rest := by
          rw [List.length_drop, more, Nat.add_sub_cancel_left]
        have left : block.base + size - (pRelocBase + 4) = (stream.drop 4).length := by omega
        have start : block.base + size - (stream.drop 4).length = pRelocBase + 4 := by omega
        rw [and_iff_right inside, same, relocWord_inside here, left]
        rw [← same]
        refine relocLoop_proper (stream.drop 4) low (by omega) ?_ ?_ first
        · rw [start, same, storeWord, bytesAt_apart (.inr (by rw [length_beBytes]; omega)), length]
          exact deltas
        · intro location member
          rw [List.mem_singleton.mp member, same]
          exact ⟨by omega, by omega⟩
      · refine iff_of_false ?_ fun both => inside both.1
        rintro ⟨after, looped, located⟩
        obtain ⟨following, word, looped⟩ := Option.bind_eq_some_iff.mp looped
        unfold relocWord at word
        split_ifs at word
        obtain rfl := Option.some.inj word
        obtain ⟨first', last⟩ := located _ (relocLoop_locations looped _ List.mem_cons_self)
        exact inside (inside_of_place (by omega) first first' last)
  · refine iff_of_false ?_ fun both => long both.1
    rintro ⟨after, returned, -⟩
    rw [Region.load_outside fun inside => long (by have := inside.2; omega)] at returned
    cases returned

end Relocation

/-! ## Sizes -/

namespace GemDosExecutableHeader

variable {hdr : GemDosExecutableHeader} {fileSize : Nat}

def segments (hdr : GemDosExecutableHeader) : Nat := sizeOfHeader + hdr.textSize.toNat + hdr.dataSize.toNat

/-- None of the sizes is less than the number that it stands for. -/
structure SizesExact (hdr : GemDosExecutableHeader) (fileSize : Nat) : Prop where
  read : hdr.nbytesToRead = hdr.segments
  reloc : hdr.fileOffsetToReloc = hdr.segments + hdr.symbolTableSize.toNat
  stream : hdr.fileOffsetToReloc + hdr.relocSize fileSize = fileSize
  alloc : hdr.segments + max hdr.bssSize.toNat (hdr.relocSize fileSize) ≤ hdr.nbytesToAlloc fileSize

/-- The file has the bytes that the header speaks of, and the image is in reach of 32 bits. -/
def Fits (hdr : GemDosExecutableHeader) (fileSize : Nat) : Prop :=
  hdr.segments + hdr.symbolTableSize.toNat ≤ fileSize ∧
    hdr.segments + max hdr.bssSize.toNat (fileSize - (hdr.segments + hdr.symbolTableSize.toNat)) + 4095 < 4294967296

theorem Fits.relocSize_eq (fits : hdr.Fits fileSize) (short : fileSize < 4294967296) :
    hdr.nbytesToRead = hdr.segments ∧ hdr.fileOffsetToReloc = hdr.segments + hdr.symbolTableSize.toNat ∧
      hdr.relocSize fileSize = fileSize - (hdr.segments + hdr.symbolTableSize.toNat) := by
  obtain ⟨enough, -⟩ := fits
  have read : hdr.nbytesToRead = hdr.segments := Nat.mod_eq_of_lt (by unfold segments at enough; omega)
  have reloc : hdr.fileOffsetToReloc = hdr.segments + hdr.symbolTableSize.toNat := by
    unfold fileOffsetToReloc
    rw [read, Nat.mod_eq_of_lt (by omega)]
  unfold relocSize
  omega

/-- The block is the image, rounded up to pages. -/
theorem Fits.nbytesToAlloc_eq (fits : hdr.Fits fileSize) (short : fileSize < 4294967296) :
    hdr.nbytesToAlloc fileSize =
      (hdr.segments + max hdr.bssSize.toNat (fileSize - (hdr.segments + hdr.symbolTableSize.toNat)) + 4095) / 4096 * 4096 := by
  obtain ⟨read, -, stream⟩ := fits.relocSize_eq short
  obtain ⟨-, room⟩ := fits
  unfold nbytesToAlloc ceilPage
  rw [read, stream]
  omega

theorem sizesExact_iff (short : fileSize < 4294967296) : hdr.SizesExact fileSize ↔ hdr.Fits fileSize := by
  constructor
  · intro exact
    have stream := exact.stream
    have alloc := exact.alloc
    rw [exact.reloc] at stream
    have left : hdr.relocSize fileSize = fileSize - (hdr.segments + hdr.symbolTableSize.toNat) := by omega
    refine ⟨by omega, ?_⟩
    rw [← left]
    have wrapped : hdr.nbytesToAlloc fileSize ≤ 4294967295 / 4096 * 4096 := by
      unfold nbytesToAlloc ceilPage
      omega
    omega
  · intro fits
    obtain ⟨read, reloc, stream⟩ := fits.relocSize_eq short
    have alloc := fits.nbytesToAlloc_eq short
    obtain ⟨enough, room⟩ := fits
    exact ⟨read, reloc, by omega, by omega⟩

end GemDosExecutableHeader

/-! ## Loading -/

section Loading
variable {world : LoaderWorld} {file : List UInt8} {hdr : GemDosExecutableHeader} {memory : Nat → UInt8}

open GemDosExecutableHeader

theorem acceptFile_ok (accepted : acceptFile world file = .ok hdr) : file.length < 4294967296 ∧ world.opened = .ok () ∧
    sizeOfHeader ≤ file.length ∧ hdr = .ofBytes (readFile file 0 sizeOfHeader) ∧ checkHeader hdr = .ok () := by
  have read : readFile file 0 sizeOfHeader = file.take sizeOfHeader := rfl
  have length : (file.take sizeOfHeader).length = min sizeOfHeader file.length := List.length_take
  unfold acceptFile at accepted
  dsimp only at accepted
  rw [read] at accepted ⊢
  split_ifs at accepted with short long less
  · omega
  · cases opened : world.opened with
    | error err =>
      rw [opened] at accepted
      cases accepted
    | ok done =>
      rw [opened] at accepted
      cases checked : checkHeader (.ofBytes (file.take sizeOfHeader)) with
      | error err =>
        simp only [checked] at accepted
        cases accepted
      | ok done =>
        simp only [checked] at accepted
        obtain rfl := Except.ok.inj accepted
        exact ⟨by omega, rfl, by omega, rfl, checked⟩

def imageRead (base : Nat) (file : List UInt8) (hdr : GemDosExecutableHeader) (memory : Nat → UInt8) : Nat → UInt8 :=
  storeBytes (storeBytes memory base (file.take hdr.segments)) (base + hdr.segments) (file.drop (hdr.segments + hdr.symbolTableSize.toNat))

variable {size : Nat} {block : Region size}

theorem readInto_inside {pBuffer : Nat} {bytes : List UInt8} (inside : block.Contains pBuffer bytes.length) :
    readInto block memory pBuffer bytes = some (storeBytes memory pBuffer bytes) := by
  unfold readInto
  split_ifs with nothing
  · rw [nothing, storeBytes_nil]
  · exact Region.store_inside inside

/-- Behind the reads only the relocation can go wrong. -/
theorem loadInto_eq (fits : hdr.Fits file.length) (short : file.length < 4294967296)
    (room : hdr.segments + max hdr.bssSize.toNat (file.length - (hdr.segments + hdr.symbolTableSize.toNat)) ≤ size)
    (low : size < 2147483648) :
    loadInto block file hdr memory =
      (relocExecutable block (block.base + sizeOfHeader) (block.base + hdr.segments) (imageRead block.base file hdr memory)).bind
        fun relocated => some (.ok ⟨Memory.memset (block.base + hdr.segments) 0 hdr.bssSize.toNat relocated.memory,
          block.base, block.base + sizeOfHeader, relocated.locations⟩) := by
  obtain ⟨read, reloc, stream⟩ := fits.relocSize_eq short
  obtain ⟨enough, -⟩ := fits
  have first : readFile file 0 hdr.segments = file.take hdr.segments := by
    unfold readFile
    rw [if_pos (by omega), List.drop_zero]
  have firstLength : (file.take hdr.segments).length = hdr.segments := List.length_take_of_le (by omega)
  have second : readFile file (hdr.segments + hdr.symbolTableSize.toNat) (file.length - (hdr.segments + hdr.symbolTableSize.toNat)) =
      file.drop (hdr.segments + hdr.symbolTableSize.toNat) := by
    unfold readFile
    rw [if_pos (by omega), ← List.length_drop, List.take_length]
  have secondLength : (file.drop (hdr.segments + hdr.symbolTableSize.toNat)).length =
      file.length - (hdr.segments + hdr.symbolTableSize.toNat) := List.length_drop
  unfold loadInto
  dsimp only
  rw [read, reloc, stream, first, second, readInto_inside ⟨Nat.le_refl _, by omega⟩]
  simp only [Option.bind_eq_bind, Option.bind_some]
  rw [if_neg (not_not.mpr firstLength), readInto_inside ⟨by omega, by omega⟩]
  simp only [Option.bind_some]
  rw [if_neg (not_not.mpr secondLength)]
  refine congrArg _ (funext fun relocated => ?_)
  have cleared : block.Contains (block.base + hdr.segments) hdr.bssSize.toNat := ⟨by omega, by omega⟩
  unfold clear
  rw [if_pos (.inr cleared)]
  rfl

def relocationStream (base size : Nat) (file : List UInt8) (hdr : GemDosExecutableHeader) (memory : Nat → UInt8) : List UInt8 :=
  let relocs := file.drop (hdr.segments + hdr.symbolTableSize.toNat)
  relocs ++ bytesAt memory (base + hdr.segments + relocs.length) (size - hdr.segments - relocs.length)

theorem bytesAt_imageRead (room : hdr.segments + (file.length - (hdr.segments + hdr.symbolTableSize.toNat)) ≤ size)
    (enough : hdr.segments ≤ file.length) (base : Nat) :
    bytesAt (imageRead base file hdr memory) (base + hdr.segments) (size - hdr.segments) = relocationStream base size file hdr memory := by
  have firstLength : (file.take hdr.segments).length = hdr.segments := List.length_take_of_le enough
  have secondLength : (file.drop (hdr.segments + hdr.symbolTableSize.toNat)).length =
      file.length - (hdr.segments + hdr.symbolTableSize.toNat) := List.length_drop
  have whole : size - hdr.segments = (file.drop (hdr.segments + hdr.symbolTableSize.toNat)).length +
      (size - hdr.segments - (file.drop (hdr.segments + hdr.symbolTableSize.toNat)).length) := by omega
  unfold imageRead relocationStream
  rw [whole, bytesAt_add, bytesAt_storeBytes, bytesAt_apart (.inr (Nat.le_refl _)), bytesAt_apart (.inr (by omega)), ← whole]

/-- The image is in the block, the words that were relocated are in the text and the data, and no size is less than it has to be. -/
structure LoadsSafely (world : LoaderWorld) (file : List UInt8) (memory : Nat → UInt8) : Prop where
  sizes : ∀ hdr, acceptFile world file = .ok hdr → hdr.SizesExact file.length
  returns : ∃ result, load world file memory = some result ∧ ∀ image hdr, result = .ok image → acceptFile world file = .ok hdr →
    Located (image.imageBase + sizeOfHeader) (hdr.textSize.toNat + hdr.dataSize.toNat) image.relocations

def Loadable (world : LoaderWorld) (file : List UInt8) (memory : Nat → UInt8) (hdr : GemDosExecutableHeader) : Prop :=
  hdr.Fits file.length ∧ ((∃ err, world.memBlocks = .error err) ∨ hdr.nbytesToAlloc file.length < 2147483648 ∧
    ∀ block ∈ world.kalloc (hdr.nbytesToAlloc file.length), ProperStream (hdr.textSize.toNat + hdr.dataSize.toNat)
      (relocationStream block.base (hdr.nbytesToAlloc file.length) file hdr memory))

theorem loadInto_proper (fits : hdr.Fits file.length) (short : file.length < 4294967296)
    (room : hdr.segments + max hdr.bssSize.toNat (file.length - (hdr.segments + hdr.symbolTableSize.toNat)) ≤ size)
    (low : size < 2147483648) :
    (∃ result, loadInto block file hdr memory = some result ∧ ∀ image, result = .ok image →
      Located (image.imageBase + sizeOfHeader) (hdr.textSize.toNat + hdr.dataSize.toNat) image.relocations) ↔
    ProperStream (hdr.textSize.toNat + hdr.dataSize.toNat) (relocationStream block.base size file hdr memory) := by
  have segments : hdr.segments = sizeOfHeader + hdr.textSize.toNat + hdr.dataSize.toNat := rfl
  have reads := @bytesAt_imageRead file hdr memory size (by omega) (by have := fits.1; omega) block.base
  have length : (relocationStream block.base size file hdr memory).length = size - hdr.segments := by rw [← reads, length_bytesAt]
  have stream := @relocExecutable_proper size (block.base + sizeOfHeader) (hdr.textSize.toNat + hdr.dataSize.toNat) block
    (block.base + hdr.segments) (imageRead block.base file hdr memory) (relocationStream block.base size file hdr memory)
    (Nat.le_add_right _ _) (by omega) (by omega) (by rw [length]; exact reads)
  rw [loadInto_eq fits short room low, ← stream]
  constructor
  · rintro ⟨result, returned, located⟩
    obtain ⟨relocated, done, returned⟩ := Option.bind_eq_some_iff.mp returned
    obtain rfl := Option.some.inj returned
    exact ⟨relocated, done, located _ rfl⟩
  · rintro ⟨relocated, done, located⟩
    rw [done]
    refine ⟨_, rfl, fun image same => ?_⟩
    obtain rfl := Except.ok.inj same
    exact located

theorem load_refused {err : Errno} (refused : acceptFile world file = .error err) : load world file memory = some (.error err) := by
  unfold load
  rw [refused]

theorem load_accepted (accepted : acceptFile world file = .ok hdr) : load world file memory = loadAccepted world file hdr memory := by
  unfold load
  rw [accepted]

theorem loadAccepted_error {err : Errno} (refused : world.allocate (hdr.nbytesToAlloc file.length) = some (.error err)) :
    loadAccepted world file hdr memory = some (.error err) := by
  unfold loadAccepted
  rw [refused]

theorem loadAccepted_ok {block : Region (hdr.nbytesToAlloc file.length)}
    (given : world.allocate (hdr.nbytesToAlloc file.length) = some (.ok block)) :
    loadAccepted world file hdr memory = loadInto block file hdr memory := by
  unfold loadAccepted
  rw [given]

theorem allocate_pages {count : Nat} (positive : count ≠ 0) (pages : count / kCpuPageSize * kCpuPageSize = count) :
    world.allocate count =
      match world.memBlocks with
      | .error err => some (.error err)
      | .ok () => if count < 2147483648 then some (match world.kalloc count with | none => .error .ENOMEM | some block => .ok block)
        else none := by
  unfold LoaderWorld.allocate
  rw [if_neg positive, if_neg (not_not.mpr pages)]
  cases world.memBlocks with
  | error err => rfl
  | ok done =>
    cases world.kalloc count <;> rfl

theorem loadAccepted_safe (fits : hdr.Fits file.length) (short : file.length < 4294967296) :
    (∃ result, loadAccepted world file hdr memory = some result ∧ ∀ image, result = .ok image →
      Located (image.imageBase + sizeOfHeader) (hdr.textSize.toNat + hdr.dataSize.toNat) image.relocations) ↔
    ((∃ err, world.memBlocks = .error err) ∨ hdr.nbytesToAlloc file.length < 2147483648 ∧
      ∀ block ∈ world.kalloc (hdr.nbytesToAlloc file.length), ProperStream (hdr.textSize.toNat + hdr.dataSize.toNat)
        (relocationStream block.base (hdr.nbytesToAlloc file.length) file hdr memory)) := by
  have size := fits.nbytesToAlloc_eq short
  have some' : sizeOfHeader ≤ hdr.segments := by
    unfold segments
    omega
  have header : sizeOfHeader = 28 := rfl
  have pages := @allocate_pages world (hdr.nbytesToAlloc file.length) (by omega) (by unfold kCpuPageSize; omega)
  cases blocks : world.memBlocks with
  | error err =>
    rw [blocks] at pages
    exact iff_of_true ⟨_, loadAccepted_error pages, nofun⟩ (.inl ⟨err, rfl⟩)
  | ok done =>
    rw [blocks] at pages
    rw [or_iff_right fun ⟨_, error⟩ => nomatch error]
    by_cases low : hdr.nbytesToAlloc file.length < 2147483648
    · rw [if_pos low] at pages
      rw [and_iff_right low]
      cases given : world.kalloc (hdr.nbytesToAlloc file.length) with
      | none =>
        rw [given] at pages
        exact iff_of_true ⟨_, loadAccepted_error pages, nofun⟩ nofun
      | some block =>
        rw [given] at pages
        have proper := @loadInto_proper file hdr memory _ block fits short (by omega) low
        rw [loadAccepted_ok pages, proper]
        exact ⟨fun stream other same => Option.some.inj same ▸ stream, fun all => all block rfl⟩
    · rw [if_neg low] at pages
      refine iff_of_false ?_ fun both => low both.1
      rintro ⟨result, returned, -⟩
      unfold loadAccepted at returned
      rw [pages] at returned
      cases returned

/-- A file whose header is refused does no harm, and neither does one that has what its header says. -/
theorem load_safe (world : LoaderWorld) (file : List UInt8) (memory : Nat → UInt8) :
    LoadsSafely world file memory ↔ ∀ hdr, acceptFile world file = .ok hdr → Loadable world file memory hdr := by
  cases accepted : acceptFile world file with
  | error err => exact iff_of_true ⟨fun hdr same => (nomatch accepted.symm.trans same), _, load_refused accepted, nofun⟩ nofun
  | ok hdr =>
    have short := (acceptFile_ok accepted).1
    have safe := @loadAccepted_safe world file hdr memory
    constructor
    · rintro ⟨sizes, result, returned, located⟩ other same
      obtain rfl := Except.ok.inj same
      have fits := (sizesExact_iff short).mp (sizes hdr accepted)
      rw [load_accepted accepted] at returned
      exact ⟨fits, (safe fits short).mp ⟨result, returned, fun image same => located image hdr same accepted⟩⟩
    · intro all
      obtain ⟨fits, rest⟩ := all hdr rfl
      obtain ⟨result, returned, located⟩ := (safe fits short).mpr rest
      refine ⟨fun other same => ?_, result, (load_accepted accepted).trans returned, fun image other same same' => ?_⟩
      · obtain rfl := Except.ok.inj (accepted.symm.trans same)
        exact (sizesExact_iff short).mpr fits
      · obtain rfl := Except.ok.inj (accepted.symm.trans same')
        exact located image same

def pageWorld : LoaderWorld :=
  ⟨.ok (), .ok (), fun size => if fits : 4096 + size ≤ 4294967296 then some ⟨4096, by decide, fits⟩ else none⟩

def strayFile : List UInt8 :=
  [0x60, 0x1a, 0, 0, 0, 4, 0, 0, 0, 0, 0, 0, 0, 0, 0, 0, 0, 0, 0, 0, 0, 0, 0, 0, 0, 0, 0, 0, 0x4e, 0x71, 0x4e, 0x75, 0, 0, 0, 100, 0]

/-- The loader changes a word behind the text. -/
theorem strayFile_unsafe : ¬LoadsSafely pageWorld strayFile fun _ => 0 := by
  intro safe
  have accepted : acceptFile pageWorld strayFile = .ok ⟨gemDosExecMagic, 4, 0, 0, 0, 0⟩ := by decide
  have fits := (sizesExact_iff (by decide)).mp (safe.sizes _ accepted)
  obtain ⟨result, returned, located⟩ := safe.returns
  rw [load_accepted accepted] at returned
  rcases (loadAccepted_safe fits (by decide)).mp ⟨result, returned, fun image same => located image _ same accepted⟩ with
    ⟨err, impossible⟩ | ⟨-, proper⟩
  · cases impossible
  · obtain ⟨-, none | ⟨inside, -⟩⟩ := proper ⟨4096, by decide, by decide⟩ rfl
    · revert none
      decide
    · revert inside
      decide

end Loading

end Apollo.Process
