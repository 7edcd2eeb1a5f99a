import Apollo.Tools.KeyMapLayout

/-!
# The image of a compiled key map

The header with the offsets of the ranges is followed by their records, the tables
of their traps and the strings.  The compiler writes this image, unless a string
crosses the end of its memory.
-/

set_option autoImplicit false

namespace Apollo.Tools

open Lib

structure KeyRun where
  keyType : KeyType
  lower : Nat
  keys : List Key
  nonempty : 0 < keys.length
  consecutive : ∀ index key, keys[index]? = some key → key.keyCode = lower + index ∧ key.type = keyType

def rangesOf (start : Nat) : List KeyRun → List KeyRange
  | [] => []
  | run :: rest => ⟨run.keyType, start, start + (run.keys.length - 1)⟩ :: rangesOf (start + run.keys.length) rest

@[simp] theorem length_rangesOf (start : Nat) (runs : List KeyRun) : (rangesOf start runs).length = runs.length := by
  induction runs generalizing start with
  | nil => rfl
  | cons run rest ih => rw [rangesOf, List.length_cons, ih, List.length_cons]

/-! ## Items -/

def recordItems (index : Nat) (run : KeyRun) : List (Item Slot) :=
  wordItems run.keyType.code ++ wordItems run.lower ++ wordItems (run.lower + (run.keys.length - 1)) ++
    [.slot (.patch (.range index))]

def recordsFrom (index : Nat) : List KeyRun → List (Item Slot)
  | [] => []
  | run :: rest => recordItems index run ++ recordsFrom (index + 1) rest

def trapItems : KeyTrap → List (Item Slot)
  | .fourBytes unmodified shift option shiftOption => [unmodified, shift, option, shiftOption].map .byte
  | .string stringIdx => [.slot (.patch (.string stringIdx))]

def keyItems (key : Key) : List (Item Slot) := trapItems key.trap

def tableItems (run : KeyRun) : List (Item Slot) := run.keys.flatMap keyItems

def textItems (text : List UInt8) : List (Item Slot) := (text ++ [0]).map .byte

def offsetSlots (count : Nat) : List (Item Slot) := (List.range count).map fun index => .slot (.offset index)

def headerItems (rangeCount : Nat) : List (Item Slot) :=
  wordItems 0 ++ [.slot .size] ++ wordItems rangeCount ++ offsetSlots rangeCount

/-- No string crosses a boundary of the memory when they are written from an offset on. -/
def TextsFit (offset : Nat) : List (List UInt8) → Prop
  | [] => True
  | text :: rest => ¬Crosses offset (text.length + 1) ∧ TextsFit (offset + (text.length + 1)) rest

@[simp] theorem imageSize_recordItems (index : Nat) (run : KeyRun) : imageSize (recordItems index run) = 8 := by
  simp [recordItems, Item.size]

@[simp] theorem imageSize_recordsFrom (index : Nat) (runs : List KeyRun) :
    imageSize (recordsFrom index runs) = 8 * runs.length := by
  induction runs generalizing index with
  | nil => rfl
  | cons run rest ih => rw [recordsFrom, imageSize_append, imageSize_recordItems, ih, List.length_cons, Nat.mul_succ, Nat.add_comm]

@[simp] theorem imageSize_textItems (text : List UInt8) : imageSize (textItems text) = text.length + 1 := by
  rw [textItems, imageSize_bytes, List.length_append, List.length_singleton]

@[simp] theorem imageSize_offsetSlots (count : Nat) : imageSize (offsetSlots count) = 2 * count := by
  unfold offsetSlots
  induction count with
  | zero => rfl
  | succ count ih =>
    rw [List.range_succ, List.map_append, imageSize_append, ih]
    rfl

@[simp] theorem imageSize_headerItems (rangeCount : Nat) : imageSize (headerItems rangeCount) = 6 + 2 * rangeCount := by
  simp only [headerItems, imageSize_append, imageSize_wordItems, imageSize_cons, imageSize_nil, imageSize_offsetSlots, Item.size]

def trapSize : KeyType → Nat
  | .fourBytes => 4
  | .string => 2

theorem imageSize_keyItems (key : Key) : imageSize (keyItems key) = trapSize key.type := by
  unfold keyItems Key.type
  cases key.trap with
  | fourBytes => exact imageSize_bytes _
  | string => rfl

theorem even_keyItems (key : Key) : imageSize (keyItems key) % 2 = 0 := by
  unfold keyItems
  cases key.trap with
  | fourBytes => rw [trapItems, imageSize_bytes, List.length_cons, List.length_cons, List.length_cons, List.length_singleton]
  | string => rw [trapItems, imageSize_cons, imageSize_nil, Item.size]

theorem even_keys (keys : List Key) : imageSize (keys.flatMap keyItems) % 2 = 0 := by
  induction keys with
  | nil => rfl
  | cons key rest ih =>
    have := even_keyItems key
    rw [List.flatMap_cons, imageSize_append]
    omega

/-! ## Writing -/

section Loops
variable {kmap : KeyMap} {layout : Layout}

theorem writeRangeSlots_emits (count : Nat) (index : Nat) (fresh : ∀ later, layout.values (.offset later) = 0)
    (small : imageSize layout.items + 2 * count ≤ 65535) (even : imageSize layout.items % 2 = 0) :
    Emits (writeRangeSlots count) layout (layout.append ((List.range' index count).map fun index => .slot (.offset index))) () := by
  induction count generalizing layout index with
  | zero =>
    rw [List.range'_zero, List.map_nil, Layout.append_nil]
    exact emits_pure ()
  | succ count ih =>
    rw [writeRangeSlots, List.range'_succ, List.map_cons, ← List.singleton_append, ← Layout.append_append]
    refine (write16_slot (fresh index) (fun _ => rfl) (by omega) even).bind (ih _ fresh ?_ ?_)
    · rw [Layout.size_append]
      change _ + 2 + _ ≤ _
      omega
    · rw [Layout.size_append]
      change (_ + 2) % 2 = _
      omega

def Layout.assignFrom (layout : Layout) (slot : Nat → Slot) (index : Nat) (positions : List Nat) : Layout :=
  { layout with values := Lib.assignFrom slot index positions layout.values }

theorem writeRange_emits {α : Type} {next : Compile α} {after : Layout} {result : α} {base index start : Nat} {run : KeyRun}
    {more : List Key} (keys : kmap.keys.drop start = run.keys ++ more) (fresh : layout.values (.patch (.range index)) = 0)
    (located : Located layout.items (base + 2 * index) [.slot (.offset index)])
    (once : (labelsOf layout.items).count (.offset index) = 1)
    (small : imageSize layout.items + 8 ≤ 65535) (even : imageSize layout.items % 2 = 0)
    (continues : Emits next ((layout.append (recordItems index run)).assign (.offset index) (imageSize layout.items)) after result) :
    Emits (do
      let offsetToCurRange ← write16 run.keyType.code
      let lower ← keyAt kmap start
      let _ ← write16 lower.keyCode
      let upper ← keyAt kmap (start + (run.keys.length - 1))
      let _ ← write16 upper.keyCode
      let slot ← write16 0
      addPatchLocation slot (.range index)
      patchWritten (base + 2 * index) offsetToCurRange
      next) layout after result := by
  have keyOf {offset : Nat} (inside : offset < run.keys.length) :
      ∃ key, kmap.keys[start + offset]? = some key ∧ key.keyCode = run.lower + offset := by
    have found : kmap.keys[start + offset]? = some run.keys[offset] := by
      rw [← List.getElem?_drop, keys, List.getElem?_append_left inside, List.getElem?_eq_getElem inside]
    exact ⟨_, found, (run.consecutive offset _ (List.getElem?_eq_getElem inside)).1⟩
  obtain ⟨lower, foundLower, lowerCode⟩ := keyOf run.nonempty
  obtain ⟨upper, foundUpper, upperCode⟩ := keyOf (Nat.sub_lt run.nonempty Nat.one_pos)
  refine (write16_word _ (by omega) even).bind ((keyAt_emits foundLower).bind ?_)
  refine (write16_word _ ?_ ?_).bind ((keyAt_emits foundUpper).bind ?_)
  · rw [Layout.size_append, imageSize_wordItems]
    omega
  · rw [Layout.size_append, imageSize_wordItems]
    omega
  refine (write16_word _ ?_ ?_).bind ?_
  · rw [Layout.size_append, Layout.size_append, imageSize_wordItems, imageSize_wordItems]
    omega
  · rw [Layout.size_append, Layout.size_append, imageSize_wordItems, imageSize_wordItems]
    omega
  refine Emits.bind (write16_unnoted (by exact fresh) ?_ ?_) ((addPatchLocation_emits (.range index)).bind ?_)
  · rw [Layout.size_append, Layout.size_append, Layout.size_append, imageSize_wordItems, imageSize_wordItems, imageSize_wordItems]
    omega
  · rw [Layout.size_append, Layout.size_append, Layout.size_append, imageSize_wordItems, imageSize_wordItems, imageSize_wordItems]
    omega
  rw [lowerCode, upperCode, Layout.append_append, Layout.append_append, Layout.append_append]
  refine (patchWritten_emits (located.append _) ?_ _).bind continues
  change (labelsOf (layout.items ++ recordItems index run)).count _ = 1
  rw [labelsOf_append, List.count_append, once]
  simp [recordItems, labelsOf]

theorem writeRanges_emits {base : Nat} (runs : List KeyRun) (index start : Nat)
    (keys : kmap.keys.drop start = runs.flatMap KeyRun.keys) (fresh : ∀ later, layout.values (.patch (.range later)) = 0)
    (slots : ∀ later, index ≤ later → later < index + runs.length →
      Located layout.items (base + 2 * later) [.slot (.offset later)] ∧ (labelsOf layout.items).count (.offset later) = 1)
    (small : imageSize layout.items + 8 * runs.length ≤ 65535) (even : imageSize layout.items % 2 = 0) :
    Emits (writeRanges kmap base index (rangesOf start runs)) layout
      ((layout.append (recordsFrom index runs)).assignFrom .offset index
        (offsetsFrom (imageSize layout.items) (runs.map fun _ => 8))) () := by
  induction runs generalizing layout index start with
  | nil =>
    rw [recordsFrom, Layout.append_nil]
    exact emits_pure ()
  | cons run rest ih =>
    rw [List.flatMap_cons] at keys
    rw [List.length_cons] at small slots
    obtain ⟨located, once⟩ := slots index (Nat.le_refl _) (by omega)
    have size : imageSize ((layout.append (recordItems index run)).assign (.offset index) (imageSize layout.items)).items =
        imageSize layout.items + 8 := by
      rw [← imageSize_recordItems index run]
      exact Layout.size_append _ _
    have continues := @ih ((layout.append (recordItems index run)).assign (.offset index) (imageSize layout.items))
      (index + 1) (start + run.keys.length) ?_ ?_ ?_ (by omega) (by omega)
    · refine writeRange_emits keys (fresh index) located once (by omega) even ?_
      rw [size] at continues
      rw [recordsFrom, ← Layout.append_append]
      exact continues
    · rw [← List.drop_drop, keys, List.drop_left]
    · exact fun later => (Layout.assign_of_ne (by simp) _).trans (fresh later)
    · intro later above below
      obtain ⟨located, once⟩ := slots later (by omega) (by omega)
      refine ⟨located.append _, ?_⟩
      change (labelsOf (layout.items ++ recordItems index run)).count _ = 1
      rw [labelsOf_append, List.count_append, once]
      simp [recordItems, labelsOf]

theorem writeTrap_emits {key : Key} (fresh : ∀ later, layout.values (.patch (.string later)) = 0)
    (small : imageSize layout.items + imageSize (keyItems key) ≤ 65535) (even : imageSize layout.items % 2 = 0) :
    Emits (writeTrap key.trap) layout (layout.append (keyItems key)) () := by
  unfold keyItems at small ⊢
  cases trap : key.trap with
  | fourBytes unmodified shift option shiftOption =>
    rw [trap, trapItems, imageSize_bytes] at small
    change _ + 4 ≤ _ at small
    have bytes : trapItems (.fourBytes unmodified shift option shiftOption) =
        [.byte unmodified] ++ [.byte shift] ++ [.byte option] ++ [.byte shiftOption] := rfl
    rw [bytes, ← Layout.append_append, ← Layout.append_append, ← Layout.append_append]
    refine (write8_emits (by omega)).bind ((write8_emits ?_).bind ((write8_emits ?_).bind (write8_emits ?_)))
    · rw [Layout.size_append]
      change _ + 1 ≤ _
      omega
    · rw [Layout.size_append, Layout.size_append]
      change _ + 1 + 1 ≤ _
      omega
    · rw [Layout.size_append, Layout.size_append, Layout.size_append]
      change _ + 1 + 1 + 1 ≤ _
      omega
  | string stringIdx => exact (write16_unnoted (fresh stringIdx) (by omega) even).bind (addPatchLocation_emits _)

theorem writeTraps_emits {more : List Key} (keys : List Key) (index : Nat) (found : kmap.keys.drop index = keys ++ more)
    (fresh : ∀ later, layout.values (.patch (.string later)) = 0)
    (small : imageSize layout.items + imageSize (keys.flatMap keyItems) ≤ 65535) (even : imageSize layout.items % 2 = 0) :
    Emits (writeTraps kmap index keys.length) layout (layout.append (keys.flatMap keyItems)) () := by
  induction keys generalizing layout index with
  | nil =>
    rw [List.flatMap_nil, Layout.append_nil]
    exact emits_pure ()
  | cons key rest ih =>
    have here : kmap.keys[index]? = some key := by
      rw [← Nat.add_zero index, ← List.getElem?_drop, found]
      rfl
    rw [List.flatMap_cons, imageSize_append] at small
    rw [List.length_cons, writeTraps, List.flatMap_cons, ← Layout.append_append]
    have evenKey := even_keyItems key
    refine (keyAt_emits here).bind ((writeTrap_emits fresh (by omega) even).bind (ih _ ?_ fresh ?_ ?_))
    · rw [← List.drop_drop, found]
      rfl
    · rw [Layout.size_append]
      omega
    · rw [Layout.size_append]
      omega

theorem writeTrapTables_emits (runs : List KeyRun) (index start : Nat) (keys : kmap.keys.drop start = runs.flatMap KeyRun.keys)
    (fresh : ∀ later, layout.values (.patch (.string later)) = 0) (noted : layout.Noted)
    (small : imageSize layout.items + imageSize (runs.flatMap tableItems) ≤ 65535) (even : imageSize layout.items % 2 = 0) :
    Emits (writeTrapTables kmap index (rangesOf start runs)) layout
      ((layout.append (runs.flatMap tableItems)).assignFrom (fun index => .patch (.range index)) index
        (offsetsFrom (imageSize layout.items) (runs.map fun run => imageSize (tableItems run)))) () := by
  induction runs generalizing layout index start with
  | nil =>
    rw [List.flatMap_nil, Layout.append_nil]
    exact emits_pure ()
  | cons run rest ih =>
    rw [List.flatMap_cons] at keys
    rw [List.flatMap_cons, imageSize_append] at small
    have evenTable := even_keys run.keys
    have count : start + (run.keys.length - 1) + 1 - start = run.keys.length := by
      have := run.nonempty
      omega
    have fresh' (later : Nat) : (layout.assign (.patch (.range index)) (imageSize layout.items)).values (.patch (.string later)) = 0 :=
      (Layout.assign_of_ne (by simp) _).trans (fresh later)
    rw [rangesOf, writeTrapTables, count]
    refine (getLocationCounter_emits (by omega)).bind ((patchLabeled16_emits _ _ noted).bind
      ((writeTraps_emits run.keys start keys fresh' ?_ even).bind ?_))
    · change imageSize layout.items + imageSize (tableItems run) ≤ _
      omega
    have size : imageSize ((layout.assign (.patch (.range index)) (imageSize layout.items)).append (tableItems run)).items =
        imageSize layout.items + imageSize (tableItems run) := Layout.size_append _ _
    have continues := @ih ((layout.assign (.patch (.range index)) (imageSize layout.items)).append (tableItems run))
      (index + 1) (start + run.keys.length) ?_ fresh' ?_ (by omega) ?_
    · rw [size] at continues
      rw [List.flatMap_cons, ← Layout.append_append]
      exact continues
    · rw [← List.drop_drop, keys, List.drop_left]
    · exact noted.append _
    · change imageSize (tableItems run) % 2 = 0 at evenTable
      omega

theorem writeStrings_emits (texts : List (List UInt8)) (index : Nat) (short : ∀ text ∈ texts, text.length + 1 ≤ 4096)
    (fit : TextsFit (imageSize layout.items) texts) (noted : layout.Noted)
    (small : imageSize layout.items + imageSize (texts.flatMap textItems) ≤ 65535) :
    Emits (writeStrings index texts) layout
      ((layout.append (texts.flatMap textItems)).assignFrom (fun index => .patch (.string index)) index
        (offsetsFrom (imageSize layout.items) (texts.map fun text => text.length + 1))) () := by
  induction texts generalizing layout index with
  | nil =>
    rw [List.flatMap_nil, Layout.append_nil]
    exact emits_pure ()
  | cons text rest ih =>
    rw [List.flatMap_cons, imageSize_append, imageSize_textItems] at small
    have size : imageSize (layout.append (textItems text)).items = imageSize layout.items + (text.length + 1) := by
      rw [Layout.size_append, imageSize_textItems]
    have noted' := noted.append (textItems text)
    have continues := @ih ((layout.append (textItems text)).assign (.patch (.string index)) (imageSize layout.items)) (index + 1)
      (fun text later => short text (List.mem_cons_of_mem _ later)) (size ▸ fit.2) noted' (size ▸ by omega)
    refine (getLocationCounter_emits (by omega)).bind ((writeString_emits (short text List.mem_cons_self) (by omega) fit.1).bind
      ((patchLabeled16_emits _ _ noted').bind ?_))
    have start : imageSize ((layout.append (textItems text)).assign (.patch (.string index)) (imageSize layout.items)).items =
        imageSize layout.items + (text.length + 1) := size
    rw [start] at continues
    rw [List.flatMap_cons, ← Layout.append_append]
    exact continues

theorem writeStrings_stops (texts : List (List UInt8)) (index : Nat) (short : ∀ text ∈ texts, text.length + 1 ≤ 4096)
    (unfit : ¬TextsFit (imageSize layout.items) texts) (noted : layout.Noted)
    (small : imageSize layout.items + imageSize (texts.flatMap textItems) ≤ 65535) :
    Stops (writeStrings index texts) layout := by
  induction texts generalizing layout index with
  | nil => exact absurd trivial unfit
  | cons text rest ih =>
    rw [List.flatMap_cons, imageSize_append, imageSize_textItems] at small
    refine (getLocationCounter_emits (by omega)).bind_stops ?_
    by_cases crosses : Crosses (imageSize layout.items) (text.length + 1)
    · exact (writeString_stops (short text List.mem_cons_self) (by omega) crosses).bind _
    · have size : imageSize (layout.append (textItems text)).items = imageSize layout.items + (text.length + 1) := by
        rw [Layout.size_append, imageSize_textItems]
      have noted' := noted.append (textItems text)
      refine (writeString_emits (short text List.mem_cons_self) (by omega) crosses).bind_stops
        ((patchLabeled16_emits _ _ noted').bind_stops ?_)
      refine @ih ((layout.append (textItems text)).assign (.patch (.string index)) (imageSize layout.items)) (index + 1)
        (fun text later => short text (List.mem_cons_of_mem _ later)) (fun fit => unfit ⟨crosses, size ▸ fit⟩) noted' (size ▸ by omega)

theorem patchSize_emits {offset : Nat} (located : Located layout.items offset [.slot .size])
    (once : (labelsOf layout.items).count .size = 1) :
    Emits (do
      let ckmap ← Code.get
      patchWritten offset ckmap.bytes.length) layout (layout.assign .size (imageSize layout.items)) () := by
  intro ckmap emitted
  rw [Code.bind_of_ok (Code.get_apply _), emitted.length]
  exact patchWritten_emits located once _ ckmap emitted

end Loops

/-! ## The whole image -/

def imageItems (runs : List KeyRun) (strings : List (List UInt8)) : List (Item Slot) :=
  headerItems runs.length ++ recordsFrom 0 runs ++ runs.flatMap tableItems ++ strings.flatMap textItems

def tablesOffset (runs : List KeyRun) : Nat := 6 + 2 * runs.length + 8 * runs.length

def stringsOffset (runs : List KeyRun) : Nat := tablesOffset runs + imageSize (runs.flatMap tableItems)

theorem imageSize_imageItems (runs : List KeyRun) (strings : List (List UInt8)) :
    imageSize (imageItems runs strings) = stringsOffset runs + imageSize (strings.flatMap textItems) := by
  unfold imageItems stringsOffset tablesOffset
  rw [imageSize_append, imageSize_append, imageSize_append, imageSize_headerItems, imageSize_recordsFrom]

def imageValues (runs : List KeyRun) (strings : List (List UInt8)) : Slot → Nat :=
  Function.update
    (assignFrom (fun index => .patch (.string index)) 0 (offsetsFrom (stringsOffset runs) (strings.map fun text => text.length + 1))
      (assignFrom (fun index => .patch (.range index)) 0
        (offsetsFrom (tablesOffset runs) (runs.map fun run => imageSize (tableItems run)))
        (assignFrom .offset 0 (offsetsFrom (6 + 2 * runs.length) (runs.map fun _ => 8)) fun _ => 0)))
    .size (imageSize (imageItems runs strings))

/-! ### Parts of the image -/

theorem recordsFrom_append (index : Nat) (before after : List KeyRun) :
    recordsFrom index (before ++ after) = recordsFrom index before ++ recordsFrom (index + before.length) after := by
  induction before generalizing index with
  | nil => rfl
  | cons run rest ih =>
    rw [List.cons_append, recordsFrom, recordsFrom, ih, List.length_cons, List.append_assoc, Nat.add_assoc, Nat.add_comm 1]

end Apollo.Tools

namespace Apollo.Lib

open Tools

theorem Located.offsetSlot {items : List (Item Slot)} {offset count index : Nat} (located : Located items offset (offsetSlots count))
    (inside : index < count) : Located items (offset + 2 * index) [.slot (.offset index)] := by
  have split : List.range count = List.range index ++ index :: List.range' (index + 1) (count - index - 1) := by
    have total : count = index + ((count - index - 1) + 1) := by omega
    have joined := @List.range'_append_1 0 index (count - index - 1 + 1)
    rw [Nat.zero_add, ← total] at joined
    rw [← List.range'_succ, List.range_eq_range', List.range_eq_range']
    exact joined.symm
  have size : imageSize ((List.range index).map fun index => (.slot (.offset index) : Item Slot)) = 2 * index :=
    imageSize_offsetSlots index
  unfold offsetSlots at located
  rw [split, List.map_append, List.map_cons, ← List.singleton_append] at located
  rw [← size]
  exact located.right.left

end Apollo.Lib

namespace Apollo.Tools

open Lib

section Parts
variable {runs before after : List KeyRun} {run : KeyRun} {strings : List (List UInt8)}

theorem located_rangeCount (runs : List KeyRun) (strings : List (List UInt8)) :
    Located (imageItems runs strings) 4 (wordItems runs.length) := by
  have word := (Located.whole (wordItems 0 ++ [.slot .size] ++ wordItems runs.length : List (Item Slot))).right
  exact (((word.append _).append _).append _).append _

theorem located_offsetSlot {index : Nat} (inside : index < runs.length) :
    Located (imageItems runs strings) (6 + 2 * index) [.slot (.offset index)] := by
  have header := (Located.whole (headerItems runs.length)).right.offsetSlot inside
  rw [imageSize_append, imageSize_append, imageSize_wordItems, imageSize_wordItems, Nat.zero_add] at header
  exact ((header.append _).append _).append _

theorem located_record (split : runs = before ++ run :: after) :
    Located (imageItems runs strings) (6 + 2 * runs.length + 8 * before.length) (recordItems before.length run) := by
  have records := (Located.whole (headerItems runs.length ++ recordsFrom 0 runs)).right
  have elements : recordsFrom 0 runs =
      recordsFrom 0 before ++ (recordItems before.length run ++ recordsFrom (before.length + 1) after) := by
    rw [split, recordsFrom_append, recordsFrom, Nat.zero_add]
  rw [imageSize_headerItems, Nat.zero_add, elements] at records
  have record := records.right.left
  rw [imageSize_recordsFrom, ← elements] at record
  exact (record.append _).append _

theorem located_table (split : runs = before ++ run :: after) :
    Located (imageItems runs strings) (tablesOffset runs + imageSize (before.flatMap tableItems)) (tableItems run) := by
  have tables := (Located.whole (headerItems runs.length ++ recordsFrom 0 runs ++ runs.flatMap tableItems)).right
  have elements : runs.flatMap tableItems = (before ++ run :: after).flatMap tableItems := by rw [split]
  rw [imageSize_append, imageSize_headerItems, imageSize_recordsFrom, Nat.zero_add, elements] at tables
  have table := tables.element
  rw [← elements] at table
  exact table.append _

theorem located_text {front back : List (List UInt8)} {text : List UInt8} (split : strings = front ++ text :: back) :
    Located (imageItems runs strings) (stringsOffset runs + imageSize (front.flatMap textItems)) (textItems text) := by
  have texts := (Located.whole (imageItems runs strings)).right
  have elements : strings.flatMap textItems = (front ++ text :: back).flatMap textItems := by rw [split]
  rw [imageSize_append, imageSize_append, imageSize_headerItems, imageSize_recordsFrom, Nat.zero_add, elements] at texts
  exact texts.element

theorem value_offset (split : runs = before ++ run :: after) :
    imageValues runs strings (.offset before.length) = 6 + 2 * runs.length + 8 * before.length := by
  unfold imageValues
  rw [Function.update_of_ne (by simp), assignFrom_of_ne (by simp), assignFrom_of_ne (by simp)]
  have assigned := assignFrom_offsetsFrom (fun left right same => Slot.offset.inj same) (6 + 2 * runs.length) (fun _ => 8) before after run
    fun _ => 0
  have sum : (before.map fun _ => 8).sum = 8 * before.length := by rw [List.map_const', List.sum_replicate_nat, Nat.mul_comm]
  rw [← split, sum] at assigned
  exact assigned

theorem value_range (split : runs = before ++ run :: after) :
    imageValues runs strings (.patch (.range before.length)) = tablesOffset runs + imageSize (before.flatMap tableItems) := by
  unfold imageValues
  rw [Function.update_of_ne (by simp), assignFrom_of_ne (by simp), imageSize_flatMap]
  have assigned := assignFrom_offsetsFrom (fun left right same => PatchLabel.range.inj (Slot.patch.inj same)) (tablesOffset runs)
    (fun run => imageSize (tableItems run)) before after run
    (assignFrom .offset 0 (offsetsFrom (6 + 2 * runs.length) (runs.map fun _ => 8)) fun _ => 0)
  rw [← split] at assigned
  exact assigned

theorem value_string {front back : List (List UInt8)} {text : List UInt8} (split : strings = front ++ text :: back) :
    imageValues runs strings (.patch (.string front.length)) = stringsOffset runs + imageSize (front.flatMap textItems) := by
  unfold imageValues
  rw [Function.update_of_ne (by simp), imageSize_flatMap]
  have assigned := assignFrom_offsetsFrom (fun left right same => PatchLabel.string.inj (Slot.patch.inj same)) (stringsOffset runs)
    (fun text : List UInt8 => text.length + 1) front back text
    (assignFrom (fun index => .patch (.range index)) 0 (offsetsFrom (tablesOffset runs) (runs.map fun run => imageSize (tableItems run)))
      (assignFrom .offset 0 (offsetsFrom (6 + 2 * runs.length) (runs.map fun _ => 8)) fun _ => 0))
  rw [← split] at assigned
  simp only [imageSize_textItems]
  exact assigned

end Parts

section Image
variable {kmap : KeyMap} {runs : List KeyRun}

def blankLayout : Layout := ⟨[], [], fun _ => 0⟩

def headerLayout (rangeCount : Nat) : Layout :=
  ((blankLayout.append (wordItems 0)).append [.slot .size]).append (wordItems rangeCount)

theorem size_headerLayout (rangeCount : Nat) : imageSize (headerLayout rangeCount).items = 6 := by
  rfl

def slotsLayout (rangeCount : Nat) : Layout := (headerLayout rangeCount).append (offsetSlots rangeCount)

def recordsLayout (runs : List KeyRun) : Layout :=
  ((slotsLayout runs.length).append (recordsFrom 0 runs)).assignFrom .offset 0
    (offsetsFrom (6 + 2 * runs.length) (runs.map fun _ => 8))

def tablesLayout (runs : List KeyRun) : Layout :=
  ((recordsLayout runs).append (runs.flatMap tableItems)).assignFrom (fun index => .patch (.range index)) 0
    (offsetsFrom (tablesOffset runs) (runs.map fun run => imageSize (tableItems run)))

theorem size_slotsLayout (rangeCount : Nat) : imageSize (slotsLayout rangeCount).items = 6 + 2 * rangeCount := by
  unfold slotsLayout
  rw [Layout.size_append, size_headerLayout, imageSize_offsetSlots]

theorem size_recordsLayout (runs : List KeyRun) : imageSize (recordsLayout runs).items = tablesOffset runs := by
  change imageSize ((slotsLayout runs.length).append (recordsFrom 0 runs)).items = _
  rw [Layout.size_append, size_slotsLayout, imageSize_recordsFrom]
  rfl

theorem size_tablesLayout (runs : List KeyRun) : imageSize (tablesLayout runs).items = stringsOffset runs := by
  change imageSize ((recordsLayout runs).append (runs.flatMap tableItems)).items = _
  rw [Layout.size_append, size_recordsLayout]
  rfl

theorem noted_recordsLayout (runs : List KeyRun) : (recordsLayout runs).Noted := by
  have blank : blankLayout.Noted := rfl
  have header : (headerLayout runs.length).Noted := ((blank.append _).append _).append _
  exact (header.append (offsetSlots runs.length)).append (recordsFrom 0 runs)

theorem noted_tablesLayout (runs : List KeyRun) : (tablesLayout runs).Noted := (noted_recordsLayout runs).append _

theorem labelsOf_offsetSlots (count : Nat) : labelsOf (offsetSlots count) = (List.range count).map .offset := by
  unfold offsetSlots
  induction List.range count with
  | nil => rfl
  | cons index rest ih =>
    rw [List.map_cons, List.map_cons, labelsOf, ih]

theorem count_offsetSlots {count index : Nat} (inside : index < count) :
    (labelsOf (offsetSlots count)).count (.offset index) = 1 := by
  rw [labelsOf_offsetSlots]
  refine List.count_eq_one_of_mem (List.Nodup.map (fun left right same => Slot.offset.inj same) List.nodup_range) ?_
  exact List.mem_map_of_mem (List.mem_range.mpr inside)

theorem base_slots (rangeCount : Nat) (index : Nat) (_ : 0 ≤ index) (inside : index < 0 + rangeCount) :
    Located (slotsLayout rangeCount).items (6 + 2 * index) [.slot (.offset index)] ∧
      (labelsOf (slotsLayout rangeCount).items).count (.offset index) = 1 := by
  rw [Nat.zero_add] at inside
  have located := (Located.whole ((headerLayout rangeCount).items ++ offsetSlots rangeCount)).right.offsetSlot inside
  rw [size_headerLayout, Nat.zero_add] at located
  refine ⟨located, ?_⟩
  change (labelsOf ((headerLayout rangeCount).items ++ offsetSlots rangeCount)).count _ = 1
  rw [labelsOf_append, List.count_append, count_offsetSlots inside]
  simp [headerLayout, blankLayout, Layout.append, labelsOf]

theorem writeTables_leads {next : Compile Unit} (keys : kmap.keys = runs.flatMap KeyRun.keys) (small : stringsOffset runs ≤ 65535) :
    Leads (do
      let offsetToFirstRangeOffset ← getLocationCounter
      writeRangeSlots runs.length
      writeRanges kmap offsetToFirstRangeOffset 0 (rangesOf 0 runs)
      writeTrapTables kmap 0 (rangesOf 0 runs)
      next) (headerLayout runs.length) next (tablesLayout runs) := by
  have header := size_headerLayout runs.length
  have slotsEnd := size_slotsLayout runs.length
  have recordsEnd := size_recordsLayout runs
  have total : 6 + 2 * runs.length + 8 * runs.length + imageSize (runs.flatMap tableItems) ≤ 65535 := small
  have offset : tablesOffset runs = 6 + 2 * runs.length + 8 * runs.length := rfl
  have drop : kmap.keys.drop 0 = runs.flatMap KeyRun.keys := keys
  refine ((getLocationCounter_emits (by omega)).leads _).trans ?_
  have slots : Emits (writeRangeSlots runs.length) (headerLayout runs.length) (slotsLayout runs.length) () := by
    have emits := writeRangeSlots_emits runs.length 0 (fun later => (rfl : (headerLayout runs.length).values (.offset later) = 0))
      (by omega) (by omega)
    rw [← List.range_eq_range'] at emits
    exact emits
  have records : Emits (writeRanges kmap 6 0 (rangesOf 0 runs)) (slotsLayout runs.length) (recordsLayout runs) () := by
    have emits := writeRanges_emits runs 0 0 drop
      (fun later => (rfl : (slotsLayout runs.length).values (.patch (.range later)) = 0)) (base_slots runs.length) (by omega) (by omega)
    rw [slotsEnd] at emits
    exact emits
  have tables : Emits (writeTrapTables kmap 0 (rangesOf 0 runs)) (recordsLayout runs) (tablesLayout runs) () := by
    have fresh (later : Nat) : (recordsLayout runs).values (.patch (.string later)) = 0 := assignFrom_of_ne (by simp) _ _
    have emits := writeTrapTables_emits runs 0 0 drop fresh (noted_recordsLayout runs) (recordsEnd ▸ small) (by omega)
    rw [recordsEnd] at emits
    exact emits
  exact (slots.leads _).trans ((records.leads _).trans (tables.leads _))

theorem emitted_blank : Emitted blankLayout ⟨[], 0, []⟩ := ⟨rfl, rfl, .none rfl rfl⟩

theorem slot_size (runs : List KeyRun) (strings : List (List UInt8)) :
    Located (imageItems runs strings) 2 [.slot .size] ∧ (labelsOf (imageItems runs strings)).count .size = 1 := by
  have records (index : Nat) : (labelsOf (recordsFrom index runs)).count .size = 0 := by
    induction runs generalizing index with
    | nil => rfl
    | cons run rest ih =>
      rw [recordsFrom, labelsOf_append, List.count_append, ih]
      simp [recordItems, labelsOf]
  have table (keys : List Key) : (labelsOf (keys.flatMap keyItems)).count .size = 0 := by
    induction keys with
    | nil => rfl
    | cons key rest ih =>
      rw [List.flatMap_cons, labelsOf_append, List.count_append, ih, keyItems]
      cases key.trap with
      | fourBytes => rw [trapItems, labelsOf_bytes, List.count_nil]
      | string => rfl
  have tables : (labelsOf (runs.flatMap tableItems)).count .size = 0 := by
    clear records
    induction runs with
    | nil => rfl
    | cons run rest ih => rw [List.flatMap_cons, labelsOf_append, List.count_append, tableItems, table, ih]
  have texts : labelsOf (strings.flatMap textItems) = [] := by
    induction strings with
    | nil => rfl
    | cons text rest ih => rw [List.flatMap_cons, labelsOf_append, ih, textItems, labelsOf_bytes, List.append_nil]
  have slots : (labelsOf (offsetSlots runs.length)).count .size = 0 := by
    rw [labelsOf_offsetSlots]
    exact List.count_eq_zero.mpr (by simp)
  constructor
  · have word := (Located.whole (wordItems 0 ++ [.slot .size] : List (Item Slot))).right
    exact ((((word.append _).append _).append _).append _).append _
  · rw [imageItems, headerItems, labelsOf_append, labelsOf_append, labelsOf_append, labelsOf_append, labelsOf_append, labelsOf_append,
      labelsOf_wordItems, labelsOf_wordItems, List.count_append, List.count_append, List.count_append, List.count_append, records,
      tables, texts, slots]
    rfl

theorem compile_leads {next : Nat → Compile Unit} (rangeCount : Nat) :
    Leads (do
      let _ ← write16 0
      let keyMapSizeOffset ← write16 0
      let _ ← write16 rangeCount
      next keyMapSizeOffset) blankLayout (next 2) (headerLayout rangeCount) :=
  ((write16_word 0 (by decide) rfl).leads _).trans (((write16_slot rfl (fun _ => rfl) (by decide) rfl).leads _).trans
    ((write16_word rangeCount (by decide) rfl).leads _))

def finalLayout (runs : List KeyRun) (strings : List (List UInt8)) : Layout :=
  (((tablesLayout runs).append (strings.flatMap textItems)).assignFrom (fun index => .patch (.string index)) 0
    (offsetsFrom (stringsOffset runs) (strings.map fun text => text.length + 1))).assign .size (imageSize (imageItems runs strings))

theorem compile_empty (ranges : kmap.ranges = []) : Emits (compileKeyMapType0 kmap) blankLayout (finalLayout [] []) () := by
  obtain ⟨located, once⟩ := slot_size [] []
  unfold compileKeyMapType0
  rw [ranges]
  refine (compile_leads 0).emits ?_
  exact patchSize_emits located once

section Ranges
variable {strings : List (List UInt8)} (keys : kmap.keys = runs.flatMap KeyRun.keys) (ranges : kmap.ranges = rangesOf 0 runs)
  (texts : kmap.strings = strings) (some : 0 < runs.length) (short : ∀ text ∈ strings, text.length + 1 ≤ 4096)
  (small : imageSize (imageItems runs strings) ≤ 65535)
include keys ranges texts some short small

/-- The image is written when no string crosses the end of the memory. -/
theorem compile_emits (fit : TextsFit (stringsOffset runs) strings) :
    Emits (compileKeyMapType0 kmap) blankLayout (finalLayout runs strings) () := by
  obtain ⟨located, once⟩ := slot_size runs strings
  have size := size_tablesLayout runs
  have total := imageSize_imageItems runs strings
  have written := writeStrings_emits strings 0 short (size.symm ▸ fit) (noted_tablesLayout runs) (by omega)
  rw [size] at written
  unfold compileKeyMapType0
  rw [ranges, length_rangesOf, texts]
  refine (compile_leads runs.length).emits ?_
  rw [if_pos some]
  refine (writeTables_leads keys (by omega)).emits (written.bind ?_)
  exact patchSize_emits located once

/-- A string that crosses the end of the memory is written behind it. -/
theorem compile_stops (unfit : ¬TextsFit (stringsOffset runs) strings) : Stops (compileKeyMapType0 kmap) blankLayout := by
  have size := size_tablesLayout runs
  have total := imageSize_imageItems runs strings
  unfold compileKeyMapType0
  rw [ranges, length_rangesOf, texts]
  refine (compile_leads runs.length).stops ?_
  rw [if_pos some]
  refine (writeTables_leads keys (by omega)).stops (Stops.bind ?_ _)
  exact writeStrings_stops strings 0 short (size.symm ▸ unfit) (noted_tablesLayout runs) (by omega)

end Ranges

theorem bytes_finalLayout {strings : List (List UInt8)} {ckmap : CompiledKeyMap} (emitted : Emitted (finalLayout runs strings) ckmap) :
    ckmap.bytes = render (imageValues runs strings) (imageItems runs strings) := emitted.bytes

end Image

end Apollo.Tools
