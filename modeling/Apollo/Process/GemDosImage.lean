import Apollo.Process.GemDosSafety

/-!
# What a well-formed executable becomes

The offsets of an executable are named by the gaps between them.  The loader adds the base of
the text to the word at each of them and leaves the rest as the file has it.
-/

set_option autoImplicit false

namespace Apollo.Process

open Klib Lib

/-! ## Relocation streams of a list of offsets -/

/-- The bytes behind the offset that has been reached: gaps, skips of 254, and the end. -/
inductive Deltas : Nat → List Nat → List UInt8 → Prop
  | done (reached : Nat) (rest : List UInt8) : Deltas reached [] (0 :: rest)
  | skip {reached : Nat} {offsets : List Nat} {stream : List UInt8} (later : Deltas (reached + 254) offsets stream) :
      Deltas reached offsets (1 :: stream)
  | gap {reached : Nat} {offsets : List Nat} {stream : List UInt8} (b : UInt8) (wide : 1 < b.toNat)
      (later : Deltas (reached + b.toNat) offsets stream) : Deltas reached ((reached + b.toNat) :: offsets) (b :: stream)

def Encodes (offsets : List Nat) (stream : List UInt8) : Prop :=
  match offsets with
  | [] => beNumber (stream.take 4) = 0
  | first :: rest => first ≠ 0 ∧ beNumber (stream.take 4) = first ∧ Deltas first rest (stream.drop 4)

theorem Deltas.append {reached : Nat} {offsets : List Nat} {stream : List UInt8} (deltas : Deltas reached offsets stream)
    (more : List UInt8) : Deltas reached offsets (stream ++ more) := by
  induction deltas with
  | done reached rest => exact .done reached (rest ++ more)
  | skip later ih => exact .skip ih
  | gap b wide later ih => exact .gap b wide ih

theorem Encodes.append {offsets : List Nat} {stream : List UInt8} (encodes : Encodes offsets stream) (long : 4 ≤ stream.length)
    (more : List UInt8) : Encodes offsets (stream ++ more) := by
  have word : (stream ++ more).take 4 = stream.take 4 := List.take_append_of_le_length long
  have behind : (stream ++ more).drop 4 = stream.drop 4 ++ more := List.drop_append_of_le_length long
  cases offsets with
  | nil =>
    unfold Encodes at encodes ⊢
    rwa [word]
  | cons first rest =>
    obtain ⟨nonzero, same, deltas⟩ := encodes
    refine ⟨nonzero, ?_, ?_⟩
    · rwa [word]
    · rw [behind]
      exact deltas.append more

/-! ## What the relocation does -/

def relocateAll (offset : Nat) : List Nat → (Nat → UInt8) → Nat → UInt8
  | [], memory => memory
  | place :: rest, memory => relocateAll offset rest (storeWord memory (offset + place) (wordAt memory (offset + place) + offset))

section Relocation
variable {size offset limit other : Nat} {block : Region size} {relocated : Relocated} {memory : Nat → UInt8} {offsets : List Nat}

theorem relocateAll_apart (apart : ∀ place ∈ offsets, other < offset + place ∨ offset + place + 4 ≤ other) :
    relocateAll offset offsets memory other = memory other := by
  induction offsets generalizing memory with
  | nil => rfl
  | cons place rest ih =>
    have here := apart place List.mem_cons_self
    rw [relocateAll, ih fun later member => apart later (List.mem_cons_of_mem _ member), storeWord,
      storeBytes_apart (by rw [length_beBytes]; omega)]

theorem relocateAll_word (sparse : offsets.Pairwise (· + 4 ≤ ·)) {place : Nat} (member : place ∈ offsets) :
    wordAt (relocateAll offset offsets memory) (offset + place) = (wordAt memory (offset + place) + offset) % 4294967296 := by
  induction offsets generalizing memory with
  | nil => cases member
  | cons first rest ih =>
    obtain ⟨apart, others⟩ := List.pairwise_cons.mp sparse
    rw [relocateAll]
    rcases List.mem_cons.mp member with rfl | later
    · rw [← wordAt_storeWord memory (offset + place)]
      refine wordAt_congr fun index inside => relocateAll_apart fun other member => ?_
      have behind := apart other member
      omega
    · have behind := apart place later
      rw [ih others later, storeWord, wordAt_apart (.inr (by rw [length_beBytes]; omega))]

theorem relocLoop_eq {reached : Nat} {stream : List UInt8} (deltas : Deltas reached offsets stream) (low : block.base ≤ offset)
    (behind : offset + limit + stream.length ≤ block.base + size) (inside : ∀ place ∈ offsets, place + 4 ≤ limit)
    (reads : bytesAt relocated.memory (block.base + size - stream.length) stream.length = stream) :
    relocLoop block offset stream.length ((offset + reached) % 4294967296) relocated =
      some ⟨relocateAll offset offsets relocated.memory, (offsets.map (offset + ·)).reverse ++ relocated.locations⟩ := by
  have range := block.fits
  induction deltas generalizing relocated with
  | done reached rest =>
    rw [List.length_cons, bytesAt_succ] at reads
    rw [List.length_cons, relocLoop, (List.cons.inj reads).1]
    exact if_pos rfl
  | @skip reached offsets stream later ih =>
    rw [List.length_cons] at behind reads ⊢
    rw [bytesAt_succ] at reads
    obtain ⟨here, others⟩ := List.cons.inj reads
    have next : block.base + size - (stream.length + 1) + 1 = block.base + size - stream.length := by omega
    have place : ((offset + reached) % 4294967296 + 254) % 4294967296 = (offset + (reached + 254)) % 4294967296 := by omega
    rw [next] at others
    rw [relocLoop, here]
    rw [place]
    exact ih (by omega) inside others
  | @gap reached offsets stream b wide later ih =>
    rw [List.length_cons] at behind reads ⊢
    rw [bytesAt_succ] at reads
    obtain ⟨here, others⟩ := List.cons.inj reads
    have next : block.base + size - (stream.length + 1) + 1 = block.base + size - stream.length := by omega
    have place : ((offset + reached) % 4294967296 + b.toNat) % 4294967296 = (offset + (reached + b.toNat)) % 4294967296 := by omega
    have bound := inside (reached + b.toNat) List.mem_cons_self
    have same : (offset + (reached + b.toNat)) % 4294967296 = offset + (reached + b.toNat) := place_inside (by omega) bound
    have word : block.Contains (offset + (reached + b.toNat)) 4 := ⟨by omega, by omega⟩
    rw [next] at others
    rw [relocLoop, here]
    refine (if_neg (by rintro rfl; exact absurd wide (by decide))).trans ((if_neg (by rintro rfl; exact absurd wide (by decide))).trans ?_)
    dsimp only
    rw [place, same, relocWord_inside word]
    rw [← same]
    refine (ih (by omega) (fun other member => inside other (List.mem_cons_of_mem _ member)) ?_).trans ?_
    · rw [same, storeWord, bytesAt_apart (.inr (by rw [length_beBytes]; omega))]
      exact others
    · rw [same, List.map_cons, List.reverse_cons, List.append_assoc, List.singleton_append, relocateAll]

theorem relocExecutable_eq {pRelocBase : Nat} {stream : List UInt8} (encodes : Encodes offsets stream) (long : 4 ≤ stream.length)
    (low : block.base ≤ offset) (behind : offset + limit ≤ pRelocBase) (ends : pRelocBase + stream.length = block.base + size)
    (inside : ∀ place ∈ offsets, place + 4 ≤ limit) (reads : bytesAt memory pRelocBase stream.length = stream) :
    relocExecutable block offset pRelocBase memory =
      some ⟨relocateAll offset offsets memory, (offsets.map (offset + ·)).reverse⟩ := by
  have range := block.fits
  obtain ⟨rest, more⟩ := Nat.exists_eq_add_of_le long
  rw [more, bytesAt_add] at reads
  have word : bytesAt memory pRelocBase 4 = stream.take 4 := by rw [← reads, List.take_left' length_bytesAt]
  have deltas : bytesAt memory (pRelocBase + 4) rest = stream.drop 4 := by rw [← reads, List.drop_left' length_bytesAt]
  unfold relocExecutable
  rw [Region.load_inside ⟨by omega, by omega⟩, word]
  simp only [Option.bind_eq_bind, Option.bind_some]
  cases offsets with
  | nil => exact if_pos encodes
  | cons first others =>
    obtain ⟨nonzero, same, later⟩ := encodes
    have bound := inside first List.mem_cons_self
    have place : (offset + first) % 4294967296 = offset + first := place_inside (by omega) bound
    have here : block.Contains (offset + first) 4 := ⟨by omega, by omega⟩
    have length : (stream.drop 4).length = rest := by rw [List.length_drop, more, Nat.add_sub_cancel_left]
    have left : block.base + size - (pRelocBase + 4) = (stream.drop 4).length := by omega
    have start : block.base + size - (stream.drop 4).length = pRelocBase + 4 := by omega
    rw [same, if_neg nonzero, place, relocWord_inside here, left]
    rw [← place]
    refine (relocLoop_eq later low (by omega) (fun other member => inside other (List.mem_cons_of_mem _ member)) ?_).trans ?_
    · rw [start, place, storeWord, bytesAt_apart (.inr (by rw [length_beBytes]; omega)), length]
      exact deltas
    · rw [place, List.map_cons, List.reverse_cons, relocateAll]

end Relocation

/-! ## Executables -/

section Loading
variable {world : LoaderWorld} {file : List UInt8} {offsets : List Nat} {memory : Nat → UInt8}

open GemDosExecutableHeader

def headerOf (file : List UInt8) : GemDosExecutableHeader := .ofBytes (file.take sizeOfHeader)

structure WellFormed (file : List UInt8) (offsets : List Nat) : Prop where
  short : file.length < 4294967296
  header : checkHeader (headerOf file) = .ok ()
  sizes : (headerOf file).segments + (headerOf file).symbolTableSize.toNat + 4 ≤ file.length
  relocations : Encodes offsets (file.drop ((headerOf file).segments + (headerOf file).symbolTableSize.toNat))
  inside : ∀ place ∈ offsets, place + 4 ≤ (headerOf file).textSize.toNat + (headerOf file).dataSize.toNat

structure LoadedImage (file : List UInt8) (offsets : List Nat) (base : Nat) (image : Image) : Prop where
  imageBase : image.imageBase = base
  entryPoint : image.entryPoint = base + sizeOfHeader
  words : ∀ place ∈ offsets, wordAt image.memory (base + sizeOfHeader + place) =
    (beNumber ((file.drop (sizeOfHeader + place)).take 4) + (base + sizeOfHeader)) % 4294967296
  once : image.relocations.reverse = offsets.map (base + sizeOfHeader + ·)
  bytes : ∀ index < (headerOf file).textSize.toNat + (headerOf file).dataSize.toNat,
    (∀ place ∈ offsets, index < place ∨ place + 4 ≤ index) →
    image.memory (base + sizeOfHeader + index) = file.getD (sizeOfHeader + index) 0
  bss : ∀ index < (headerOf file).bssSize.toNat, image.memory (base + (headerOf file).segments + index) = 0

theorem WellFormed.accepted (wellFormed : WellFormed file offsets) (opened : world.opened = .ok ()) :
    acceptFile world file = .ok (headerOf file) := by
  have segments : sizeOfHeader ≤ (headerOf file).segments := by
    unfold segments
    omega
  have enough := wellFormed.sizes
  have short := wellFormed.short
  have length : (file.take sizeOfHeader).length = sizeOfHeader := List.length_take_of_le (by omega)
  have read : readFile file 0 sizeOfHeader = file.take sizeOfHeader := rfl
  have checked := wellFormed.header
  unfold headerOf at checked
  unfold acceptFile
  rw [if_neg (by omega), if_neg (by omega), opened, read, if_neg (by omega)]
  simp only [checked]
  rfl

/-- An address space gives a block of a positive number of bytes. -/
theorem allocate_ok {count : Nat} {block : Region count} (allocated : world.allocate count = some (.ok block)) :
    count ≠ 0 ∧ count < 2147483648 := by
  unfold LoaderWorld.allocate at allocated
  split_ifs at allocated with nothing pages
  · cases allocated
  · cases allocated
  · exact ⟨nothing, by assumption⟩
  · cases blocks : world.memBlocks with
    | error err =>
      rw [blocks] at allocated
      cases allocated
    | ok done =>
      rw [blocks] at allocated
      cases allocated

theorem Fits.of_allocated {hdr : GemDosExecutableHeader} {fileSize : Nat} (short : fileSize < 4294967296)
    (enough : hdr.segments + hdr.symbolTableSize.toNat ≤ fileSize) (reach : hdr.segments + hdr.bssSize.toNat < 4294967296)
    (positive : hdr.nbytesToAlloc fileSize ≠ 0) : hdr.Fits fileSize := by
  have read : hdr.nbytesToRead = hdr.segments := Nat.mod_eq_of_lt (by unfold segments at enough; omega)
  have reloc : hdr.fileOffsetToReloc = hdr.segments + hdr.symbolTableSize.toNat := by
    unfold fileOffsetToReloc
    rw [read, Nat.mod_eq_of_lt (by omega)]
  have stream : hdr.relocSize fileSize = fileSize - (hdr.segments + hdr.symbolTableSize.toNat) := by
    unfold relocSize
    omega
  refine ⟨enough, Nat.lt_of_not_le fun long => positive ?_⟩
  unfold nbytesToAlloc ceilPage
  omega

theorem memset_zero (dst count other : Nat) (memory : Nat → UInt8) :
    Memory.memset dst 0 count memory other = if dst ≤ other ∧ other < dst + count then 0 else memory other := by
  rw [Memory.memset_eq_fillBytes, Memory.fillBytes, Filling.byte_iterate]
  rfl

/-- What the loader leaves, without a look at how the offsets lie. -/
theorem load_eq (wellFormed : WellFormed file offsets) (reach : (headerOf file).segments + (headerOf file).bssSize.toNat < 4294967296)
    (opened : world.opened = .ok ()) {block : Region ((headerOf file).nbytesToAlloc file.length)}
    (allocated : world.allocate ((headerOf file).nbytesToAlloc file.length) = some (.ok block)) :
    load world file memory = some (.ok ⟨Memory.memset (block.base + (headerOf file).segments) 0 (headerOf file).bssSize.toNat
      (relocateAll (block.base + sizeOfHeader) offsets (imageRead block.base file (headerOf file) memory)),
      block.base, block.base + sizeOfHeader, (offsets.map (block.base + sizeOfHeader + ·)).reverse⟩) := by
  have enough := wellFormed.sizes
  obtain ⟨positive, low⟩ := allocate_ok allocated
  have fits := Fits.of_allocated wellFormed.short (by omega) reach positive
  have size := fits.nbytesToAlloc_eq wellFormed.short
  have reads := @bytesAt_imageRead file (headerOf file) memory ((headerOf file).nbytesToAlloc file.length) (by omega) (by omega) block.base
  have length : (relocationStream block.base ((headerOf file).nbytesToAlloc file.length) file (headerOf file) memory).length =
    (headerOf file).nbytesToAlloc file.length - (headerOf file).segments := by rw [← reads, length_bytesAt]
  have encodes : Encodes offsets (relocationStream block.base ((headerOf file).nbytesToAlloc file.length) file (headerOf file) memory) :=
    wellFormed.relocations.append (by rw [List.length_drop]; omega) _
  have segments : (headerOf file).segments = sizeOfHeader + (headerOf file).textSize.toNat + (headerOf file).dataSize.toNat := rfl
  rw [load_accepted (wellFormed.accepted opened), loadAccepted_ok allocated, loadInto_eq fits wellFormed.short (by omega) low,
    relocExecutable_eq encodes (by omega) (Nat.le_add_right _ _)
      (show block.base + sizeOfHeader + ((headerOf file).textSize.toNat + (headerOf file).dataSize.toNat) ≤
        block.base + (headerOf file).segments by omega) (by omega) wellFormed.inside (by rw [length]; exact reads)]
  rfl

theorem bytesAt_segments {hdr : GemDosExecutableHeader} (enough : hdr.segments ≤ file.length) (base : Nat) {index count : Nat}
    (inside : index + count ≤ hdr.segments) :
    bytesAt (imageRead base file hdr memory) (base + index) count = (file.drop index).take count := by
  have length : (file.take hdr.segments).length = hdr.segments := List.length_take_of_le enough
  unfold imageRead
  rw [bytesAt_apart (.inl (by omega)), bytesAt_storeBytes_part _ _ (by omega), List.drop_take, List.take_take,
    Nat.min_eq_left (by omega)]

/-- With the offsets four or more apart each word is the one of the file, relocated once. -/
theorem load_wellFormed (world : LoaderWorld) (file : List UInt8) (offsets : List Nat) (memory : Nat → UInt8)
    (wellFormed : WellFormed file offsets) (sparse : offsets.Pairwise (· + 4 ≤ ·))
    (reach : (headerOf file).segments + (headerOf file).bssSize.toNat < 4294967296) (opened : world.opened = .ok ())
    (block : Region ((headerOf file).nbytesToAlloc file.length))
    (allocated : world.allocate ((headerOf file).nbytesToAlloc file.length) = some (.ok block)) :
    ∃ image, load world file memory = some (.ok image) ∧ LoadedImage file offsets block.base image := by
  have enough := wellFormed.sizes
  have segments : (headerOf file).segments = sizeOfHeader + (headerOf file).textSize.toNat + (headerOf file).dataSize.toNat := rfl
  have cleared {index : Nat} (inside : index < (headerOf file).segments) (memory : Nat → UInt8) :
      Memory.memset (block.base + (headerOf file).segments) 0 (headerOf file).bssSize.toNat memory (block.base + index) =
        memory (block.base + index) := by
    rw [memset_zero, if_neg (by omega)]
  refine ⟨_, load_eq wellFormed reach opened allocated, rfl, rfl, fun place member => ?_, List.reverse_reverse _, fun index inside apart => ?_,
    fun index inside => ?_⟩
  · have bound := wellFormed.inside place member
    have word := @bytesAt_segments file memory (headerOf file) (by omega) block.base (sizeOfHeader + place) 4 (by omega)
    rw [← Nat.add_assoc] at word
    have relocated := @relocateAll_word (block.base + sizeOfHeader) (imageRead block.base file (headerOf file) memory) offsets sparse place member
    have original : wordAt (imageRead block.base file (headerOf file) memory) (block.base + sizeOfHeader + place) =
      beNumber ((file.drop (sizeOfHeader + place)).take 4) := congrArg beNumber word
    rw [original] at relocated
    rw [← relocated]
    refine wordAt_congr fun index inside => ?_
    have same : block.base + sizeOfHeader + place + index = block.base + (sizeOfHeader + place + index) := by omega
    rw [same]
    exact cleared (by omega) _
  · have same : block.base + sizeOfHeader + index = block.base + (sizeOfHeader + index) := Nat.add_assoc _ _ _
    have byte := @bytesAt_segments file memory (headerOf file) (by omega) block.base (sizeOfHeader + index) 1 (by omega)
    rw [same]
    refine (cleared (by omega) _).trans ?_
    rw [← same, relocateAll_apart fun place member => by have := apart place member; omega, same]
    have low : sizeOfHeader + index < file.length := by omega
    rw [List.drop_eq_getElem_cons low, List.take_succ_cons, List.take_zero] at byte
    rw [List.getD_eq_getElem _ _ low]
    exact (List.cons.inj byte).1
  · dsimp only
    rw [memset_zero, if_pos ⟨Nat.le_add_right _ _, by omega⟩]

theorem pageWorld_allocate {count : Nat} (positive : count ≠ 0) (pages : count / kCpuPageSize * kCpuPageSize = count)
    (low : count < 2147483648) :
    pageWorld.allocate count = some (.ok ⟨4096, by decide, Nat.le_trans (Nat.add_le_add_left (Nat.le_of_lt low) 4096) (by decide)⟩) := by
  have fits : 4096 + count ≤ 4294967296 := by omega
  rw [allocate_pages positive pages]
  unfold pageWorld
  dsimp only
  rw [if_pos low, dif_pos fits]

def twoWordsFile : List UInt8 :=
  [0x60, 0x1a, 0, 0, 0, 10, 0, 0, 0, 0, 0, 0, 0, 4, 0, 0, 0, 0, 0, 0, 0, 0, 0, 0, 0, 0, 0, 0,
    0x4e, 0x71, 0, 0, 0, 6, 0, 0, 0, 2, 0, 0, 0, 2, 4, 0]

theorem twoWords_load : ∃ image, load pageWorld twoWordsFile (fun _ => 0) = some (.ok image) ∧ LoadedImage twoWordsFile [2, 6] 4096 image :=
  load_wellFormed pageWorld twoWordsFile [2, 6] (fun _ => 0)
    ⟨by decide, by decide, by decide, ⟨by decide, by decide, .gap 4 (by decide) (.done 6 [])⟩, by decide⟩ (by decide) (by decide) rfl _
    (pageWorld_allocate (by decide) (by decide) (by decide))

def sharedBytesFile : List UInt8 :=
  [0x60, 0x1a, 0, 0, 0, 10, 0, 0, 0, 0, 0, 0, 0, 0, 0, 0, 0, 0, 0, 0, 0, 0, 0, 0, 0, 0, 0, 0,
    0, 0, 0, 0, 0, 0, 0, 0, 0, 0, 0, 0, 0, 2, 2, 0]

theorem sharedBytes_differ : WellFormed sharedBytesFile [2, 4] ∧
    ¬∃ image, load pageWorld sharedBytesFile (fun _ => 0) = some (.ok image) ∧ LoadedImage sharedBytesFile [2, 4] 4096 image := by
  have wellFormed : WellFormed sharedBytesFile [2, 4] :=
    ⟨by decide, by decide, by decide, ⟨by decide, by decide, .gap 2 (by decide) (.done 4 [])⟩, by decide⟩
  refine ⟨wellFormed, ?_⟩
  rintro ⟨image, loaded, whole⟩
  rw [load_eq wellFormed (by decide) rfl (pageWorld_allocate (by decide) (by decide) (by decide))] at loaded
  have same := Except.ok.inj (Option.some.inj loaded)
  have word := whole.words 4 (by decide)
  rw [← same] at word
  have cleared (memory : Nat → UInt8) :
      Memory.memset (4096 + (headerOf sharedBytesFile).segments) 0 (headerOf sharedBytesFile).bssSize.toNat memory = memory := by
    have none : (headerOf sharedBytesFile).bssSize.toNat = 0 := rfl
    exact funext fun other => (memset_zero _ _ other memory).trans (if_neg (by omega))
  dsimp only at word
  rw [cleared] at word
  -- the first word has put two bytes of the base into the second one
  have base : 4096 + sizeOfHeader = 4124 := rfl
  rw [base] at word
  have original : wordAt (imageRead 4096 sharedBytesFile (headerOf sharedBytesFile) fun _ => 0) (4124 + 2) = 0 :=
    congrArg beNumber (@bytesAt_segments sharedBytesFile (fun _ => 0) (headerOf sharedBytesFile) (by decide) 4096 30 4 (by decide))
  have text : (beNumber ((sharedBytesFile.drop (sizeOfHeader + 4)).take 4) + 4124) % 4294967296 = 4124 := rfl
  rw [text, relocateAll, relocateAll, relocateAll, wordAt_storeWord, original] at word
  have nothing {second : Nat} (same : (second + 4124) % 4294967296 = 4124) (low : second < 4294967296) : second = 0 := by omega
  have byte := first_of_word (nothing word (wordAt_lt _ _))
  revert byte
  decide

end Loading

end Apollo.Process
