import Apollo.Tools.KeyMapCompiler

/-!
# The layout of a compiled key map

What the compiler writes, as an image with slots: the header with the offsets of the
ranges, the records of the ranges, the tables of their traps and the strings.  The
memory for the image only grows when it is full, so a string that does not end where
the memory ends is written behind it.
-/

set_option autoImplicit false

namespace Apollo.Tools

open Lib

/-! ## Memory -/

/-- A boundary of the memory lies between the first and the last byte. -/
def Crosses (offset count : Nat) : Prop := ∃ k, offset < 4096 * 2 ^ k ∧ 4096 * 2 ^ k < offset + count

inductive Sized (ckmap : CompiledKeyMap) : Prop
  | none (empty : ckmap.bytes = []) (capacity : ckmap.capacity = 0)
  | some (k : Nat) (capacity : ckmap.capacity = 4096 * 2 ^ k) (used : 0 < ckmap.bytes.length)
      (fits : ckmap.bytes.length ≤ ckmap.capacity) (needed : k = 0 ∨ ckmap.capacity < 2 * ckmap.bytes.length)

section Memory
variable {ckmap : CompiledKeyMap} {chunk : List UInt8}

theorem storeBytes_eq (chunk : List UInt8) (room : ckmap.bytes.length ≤ ckmap.capacity) :
    storeBytes chunk ckmap =
      if ckmap.bytes.length + chunk.length ≤ ckmap.capacity then .ok () { ckmap with bytes := ckmap.bytes ++ chunk }
      else .fault := by
  induction chunk generalizing ckmap with
  | nil =>
    rw [List.length_nil, Nat.add_zero, if_pos room, List.append_nil]
    rfl
  | cons byte rest ih =>
    unfold storeBytes storeByte
    by_cases inside : ckmap.bytes.length < ckmap.capacity
    · have stores : (do
          let ckmap ← Code.get
          if ckmap.bytes.length < ckmap.capacity then Code.modify fun ckmap => { ckmap with bytes := ckmap.bytes ++ [byte] }
          else Code.fault : Compile Unit) ckmap = .ok () { ckmap with bytes := ckmap.bytes ++ [byte] } := by
        rw [Code.bind_of_ok (Code.get_apply _), if_pos inside]
        rfl
      rw [Code.bind_of_ok stores, ih (by rw [List.length_append]; exact inside)]
      rw [List.length_append, List.length_singleton, List.length_cons, List.append_assoc, List.singleton_append,
        Nat.add_assoc, Nat.add_comm 1]
    · have stops : (do
          let ckmap ← Code.get
          if ckmap.bytes.length < ckmap.capacity then Code.modify fun ckmap => { ckmap with bytes := ckmap.bytes ++ [byte] }
          else Code.fault : Compile Unit) ckmap = .fault := by
        rw [Code.bind_of_ok (Code.get_apply _), if_neg inside]
        rfl
      rw [Code.bind_of_fault stops, List.length_cons, if_neg (by omega)]

def grown (ckmap : CompiledKeyMap) : CompiledKeyMap :=
  if ckmap.bytes.length = ckmap.capacity then
    { ckmap with capacity := if ckmap.capacity > 0 then ckmap.capacity * 2 else 4096 }
  else ckmap

theorem ensure_eq (sized : Sized ckmap) (small : ckmap.bytes.length ≤ 65535) {count : Nat} (short : count ≤ 4096) :
    ensureCompiledKeyMapSize count ckmap = .ok () (grown ckmap) := by
  unfold ensureCompiledKeyMapSize grown
  rw [Code.bind_of_ok (Code.get_apply _), if_neg (by omega)]
  split_ifs with full positive
  · have large : 4096 ≤ ckmap.capacity := by
      cases sized with
      | none empty capacity => omega
      | some k capacity used fits needed =>
        rw [capacity]
        exact Nat.le_mul_of_pos_right _ (Nat.two_pow_pos k)
    rw [Code.modify_apply, Nat.max_eq_left (by omega)]
  · rw [Code.modify_apply, Nat.max_eq_left (by omega)]
  · rfl

@[simp] theorem bytes_grown : (grown ckmap).bytes = ckmap.bytes := by
  unfold grown
  split_ifs <;> rfl

@[simp] theorem patchLocs_grown : (grown ckmap).patchLocs = ckmap.patchLocs := by
  unfold grown
  split_ifs <;> rfl

theorem capacity_lt_of_fits {j k : Nat} (below : 4096 * 2 ^ j < 4096 * 2 ^ k) : 4096 * 2 ^ (j + 1) ≤ 4096 * 2 ^ k := by
  have exponents : j < k := (Nat.pow_lt_pow_iff_right (by decide)).mp (Nat.lt_of_mul_lt_mul_left below)
  exact Nat.mul_le_mul_left _ (Nat.pow_le_pow_right (by decide) exponents)

/-- The memory that a chunk finds has the size of a boundary and room for a byte, and it is the smallest of this kind. -/
theorem grown_capacity (sized : Sized ckmap) :
    ∃ k, (grown ckmap).capacity = 4096 * 2 ^ k ∧ ckmap.bytes.length < 4096 * 2 ^ k ∧
      (k = 0 ∨ 4096 * 2 ^ k ≤ 2 * ckmap.bytes.length) := by
  unfold grown
  cases sized with
  | none empty capacity =>
    refine ⟨0, ?_, ?_, .inl rfl⟩
    · rw [empty, capacity]
      rfl
    · rw [empty]
      decide
  | some k capacity used fits needed =>
    by_cases full : ckmap.bytes.length = ckmap.capacity
    · refine ⟨k + 1, ?_, ?_, .inr ?_⟩
      · rw [if_pos full, if_pos (by omega)]
        rw [capacity, Nat.pow_succ, Nat.mul_assoc]
      · omega
      · omega
    · refine ⟨k, ?_, ?_, ?_⟩
      · rw [if_neg full]
        exact capacity
      · omega
      · omega

/-- A chunk fits into the memory exactly when it does not cross a boundary. -/
theorem fits_iff (sized : Sized ckmap) {count : Nat} (short : count ≤ 4096) :
    (ckmap.bytes.length + count ≤ (grown ckmap).capacity ↔ ¬Crosses ckmap.bytes.length count) := by
  obtain ⟨k, capacity, room, least⟩ := grown_capacity sized
  rw [capacity]
  refine ⟨fun fits crosses => ?_, fun clear => ?_⟩
  · obtain ⟨j, above, below⟩ := crosses
    have next := capacity_lt_of_fits (j := j) (k := k) (by omega)
    rcases least with rfl | least
    · omega
    · omega
  · exact Nat.le_of_not_lt fun behind => clear ⟨k, room, behind⟩

theorem Sized.append (sized : Sized ckmap) (some : 0 < chunk.length)
    (fits : ckmap.bytes.length + chunk.length ≤ (grown ckmap).capacity) :
    Sized { grown ckmap with bytes := ckmap.bytes ++ chunk } := by
  obtain ⟨k, capacity, room, least⟩ := grown_capacity sized
  refine .some k capacity ?_ ?_ ?_
  · rw [List.length_append]
    omega
  · rw [List.length_append]
    exact fits
  · rw [List.length_append, capacity]
    omega

end Memory

/-! ## Layouts -/

inductive Slot
  | size
  | offset (index : Nat)
  | patch (label : PatchLabel)
  deriving DecidableEq

def patchSlots (offset : Nat) : List (Item Slot) → List (Nat × PatchLabel)
  | [] => []
  | .byte _ :: rest => patchSlots (offset + 1) rest
  | .slot .size :: rest => patchSlots (offset + 2) rest
  | .slot (.offset _) :: rest => patchSlots (offset + 2) rest
  | .slot (.patch label) :: rest => (offset, label) :: patchSlots (offset + 2) rest

structure Layout where
  items : List (Item Slot)
  patchLocs : List (Nat × PatchLabel)
  values : Slot → Nat

def Layout.append (layout : Layout) (part : List (Item Slot)) : Layout :=
  { layout with items := layout.items ++ part, patchLocs := layout.patchLocs ++ patchSlots (imageSize layout.items) part }

theorem patchSlots_append (offset : Nat) (front back : List (Item Slot)) :
    patchSlots offset (front ++ back) = patchSlots offset front ++ patchSlots (offset + imageSize front) back := by
  induction front generalizing offset with
  | nil => rfl
  | cons item rest ih =>
    cases item with
    | byte value => rw [List.cons_append, patchSlots, patchSlots, ih, imageSize_cons, Item.size, Nat.add_assoc]
    | slot slot =>
      cases slot with
      | size => rw [List.cons_append, patchSlots, patchSlots, ih, imageSize_cons, Item.size, Nat.add_assoc]
      | offset index => rw [List.cons_append, patchSlots, patchSlots, ih, imageSize_cons, Item.size, Nat.add_assoc]
      | patch label =>
        rw [List.cons_append, patchSlots, patchSlots, ih, imageSize_cons, Item.size, Nat.add_assoc, List.cons_append]

theorem patchSlots_bytes (offset : Nat) (bytes : List UInt8) : patchSlots offset (bytes.map .byte) = [] := by
  induction bytes generalizing offset with
  | nil => rfl
  | cons byte rest ih => exact ih _

@[simp] theorem Layout.size_append (layout : Layout) (part : List (Item Slot)) :
    imageSize (layout.append part).items = imageSize layout.items + imageSize part := imageSize_append _ _

theorem Layout.append_append (layout : Layout) (first second : List (Item Slot)) :
    (layout.append first).append second = layout.append (first ++ second) := by
  unfold append
  rw [patchSlots_append, imageSize_append, List.append_assoc, List.append_assoc]

theorem Layout.append_nil (layout : Layout) : layout.append [] = layout := by
  unfold append
  rw [patchSlots, List.append_nil, List.append_nil]

def Layout.Noted (layout : Layout) : Prop := layout.patchLocs = patchSlots 0 layout.items

theorem Layout.Noted.append {layout : Layout} (noted : layout.Noted) (part : List (Item Slot)) : (layout.append part).Noted := by
  change layout.patchLocs ++ patchSlots (imageSize layout.items) part = patchSlots 0 (layout.items ++ part)
  rw [noted, patchSlots_append, Nat.zero_add]

structure Emitted (layout : Layout) (ckmap : CompiledKeyMap) : Prop where
  bytes : ckmap.bytes = render layout.values layout.items
  patchLocs : ckmap.patchLocs = layout.patchLocs
  sized : Sized ckmap

def Emits {α : Type} (code : Compile α) (before after : Layout) (result : α) : Prop :=
  ∀ ckmap, Emitted before ckmap → ∃ ckmap', code ckmap = .ok result ckmap' ∧ Emitted after ckmap'

theorem Emitted.length {layout : Layout} {ckmap : CompiledKeyMap} (emitted : Emitted layout ckmap) :
    ckmap.bytes.length = imageSize layout.items := by
  rw [emitted.bytes, length_render]

section Emits
variable {α β : Type} {before middle after layout : Layout} {code : Compile α} {next : α → Compile β} {first : α} {result : β}

theorem emits_pure (value : α) : Emits (pure value) layout layout value := fun ckmap emitted => ⟨ckmap, rfl, emitted⟩

theorem Emits.bind (starts : Emits code before middle first) (continues : Emits (next first) middle after result) :
    Emits (code >>= next) before after result := by
  intro ckmap emitted
  obtain ⟨ckmap', returns, emitted'⟩ := starts ckmap emitted
  rw [Code.bind_of_ok returns]
  exact continues ckmap' emitted'

def Stops (code : Compile α) (before : Layout) : Prop := ∀ ckmap, Emitted before ckmap → code ckmap = .fault

theorem Stops.bind (stops : Stops code before) (next : α → Compile β) : Stops (code >>= next) before :=
  fun ckmap emitted => Code.bind_of_fault (stops ckmap emitted) next

theorem Emits.bind_stops (starts : Emits code before middle first) (stops : Stops (next first) middle) :
    Stops (code >>= next) before := by
  intro ckmap emitted
  obtain ⟨ckmap', returns, emitted'⟩ := starts ckmap emitted
  rw [Code.bind_of_ok returns]
  exact stops ckmap' emitted'

def Leads (code : Compile β) (before : Layout) (rest : Compile β) (after : Layout) : Prop :=
  ∀ ckmap, Emitted before ckmap → ∃ ckmap', code ckmap = rest ckmap' ∧ Emitted after ckmap'

theorem Emits.leads (starts : Emits code before middle first) (next : α → Compile β) :
    Leads (code >>= next) before (next first) middle := by
  intro ckmap emitted
  obtain ⟨ckmap', returns, emitted'⟩ := starts ckmap emitted
  exact ⟨ckmap', Code.bind_of_ok returns next, emitted'⟩

section Leads
variable {call rest last : Compile β}

theorem Leads.trans (leads : Leads call before rest middle) (goes : Leads rest middle last after) : Leads call before last after := by
  intro ckmap emitted
  obtain ⟨ckmap', same, emitted'⟩ := leads ckmap emitted
  rw [same]
  exact goes ckmap' emitted'

theorem Leads.emits (leads : Leads call before rest middle) (emits : Emits rest middle after result) :
    Emits call before after result := by
  intro ckmap emitted
  obtain ⟨ckmap', same, emitted'⟩ := leads ckmap emitted
  rw [same]
  exact emits ckmap' emitted'

theorem Leads.stops (leads : Leads call before rest middle) (stops : Stops rest middle) : Stops call before := by
  intro ckmap emitted
  obtain ⟨ckmap', same, emitted'⟩ := leads ckmap emitted
  rw [same]
  exact stops ckmap' emitted'

end Leads

theorem stored {ckmap : CompiledKeyMap} {chunk : List UInt8} (emitted : Emitted layout ckmap) (some : 0 < chunk.length)
    (short : chunk.length ≤ 4096) (clear : ¬Crosses (imageSize layout.items) chunk.length) :
    storeBytes chunk (grown ckmap) = .ok () { grown ckmap with bytes := ckmap.bytes ++ chunk } ∧
      Sized { grown ckmap with bytes := ckmap.bytes ++ chunk } := by
  have fits := (fits_iff emitted.sized short).mpr (emitted.length ▸ clear)
  refine ⟨?_, emitted.sized.append some fits⟩
  rw [storeBytes_eq chunk (by rw [bytes_grown]; omega), bytes_grown, if_pos fits]

theorem not_crosses_byte (offset : Nat) : ¬Crosses offset 1 := by
  rintro ⟨k, above, below⟩
  omega

theorem not_crosses_word {offset : Nat} (even : offset % 2 = 0) : ¬Crosses offset 2 := by
  rintro ⟨k, above, below⟩
  omega

theorem write16_emits {value : Nat} {part : List (Item Slot)} (rendered : render layout.values part = beBytes 2 value)
    (silent : ∀ offset, patchSlots offset part = []) (small : imageSize layout.items ≤ 65535) (even : imageSize layout.items % 2 = 0) :
    Emits (write16 value) layout (layout.append part) (imageSize layout.items) := by
  intro ckmap emitted
  have length := length_beBytes 2 value
  obtain ⟨stores, sized⟩ := stored emitted (by omega) (by omega) (length.symm ▸ not_crosses_word even)
  refine ⟨{ grown ckmap with bytes := ckmap.bytes ++ beBytes 2 value }, ?_, ?_, ?_, sized⟩
  · unfold write16
    rw [Code.bind_of_ok (ensure_eq emitted.sized (emitted.length ▸ small) (Nat.le_of_ble_eq_true rfl)), Code.bind_of_ok (Code.get_apply _),
      Code.bind_of_ok stores, bytes_grown, emitted.length]
    rfl
  · change ckmap.bytes ++ _ = render layout.values (layout.items ++ part)
    rw [render_append, rendered, emitted.bytes]
  · change (grown ckmap).patchLocs = layout.patchLocs ++ patchSlots _ part
    rw [silent, List.append_nil, patchLocs_grown, emitted.patchLocs]

theorem write8_emits {byte : UInt8} (small : imageSize layout.items ≤ 65535) :
    Emits (write8 byte) layout (layout.append [.byte byte]) () := by
  intro ckmap emitted
  obtain ⟨stores, sized⟩ := stored emitted (show 0 < [byte].length from Nat.one_pos) (Nat.le_of_ble_eq_true rfl) (not_crosses_byte _)
  refine ⟨{ grown ckmap with bytes := ckmap.bytes ++ [byte] }, ?_, ?_, ?_, sized⟩
  · unfold write8
    rw [Code.bind_of_ok (ensure_eq emitted.sized (emitted.length ▸ small) (Nat.le_of_ble_eq_true rfl)), stores]
  · change ckmap.bytes ++ _ = render layout.values (layout.items ++ [.byte byte])
    rw [render_append, emitted.bytes]
    rfl
  · change (grown ckmap).patchLocs = layout.patchLocs ++ []
    rw [List.append_nil, patchLocs_grown, emitted.patchLocs]

theorem writeString_emits {text : List UInt8} (short : text.length + 1 ≤ 4096) (small : imageSize layout.items ≤ 65535)
    (clear : ¬Crosses (imageSize layout.items) (text.length + 1)) :
    Emits (writeString text) layout (layout.append ((text ++ [0]).map .byte)) () := by
  intro ckmap emitted
  have length : (text ++ [0]).length = text.length + 1 := List.length_append
  obtain ⟨stores, sized⟩ := stored emitted (by omega) (length.symm ▸ short) (length.symm ▸ clear)
  refine ⟨{ grown ckmap with bytes := ckmap.bytes ++ (text ++ [0]) }, ?_, ?_, ?_, sized⟩
  · unfold writeString
    rw [Code.bind_of_ok (ensure_eq emitted.sized (emitted.length ▸ small) short), stores]
  · change ckmap.bytes ++ _ = render layout.values (layout.items ++ _)
    rw [render_append, render_bytes, emitted.bytes]
  · change (grown ckmap).patchLocs = layout.patchLocs ++ patchSlots _ _
    rw [patchSlots_bytes, List.append_nil, patchLocs_grown, emitted.patchLocs]

/-- A string that crosses the end of the memory is written behind it. -/
theorem writeString_stops {text : List UInt8} (short : text.length + 1 ≤ 4096) (small : imageSize layout.items ≤ 65535)
    (crosses : Crosses (imageSize layout.items) (text.length + 1)) : Stops (writeString text) layout := by
  intro ckmap emitted
  have behind : ¬ckmap.bytes.length + (text.length + 1) ≤ (grown ckmap).capacity := fun fits =>
    (fits_iff emitted.sized short).mp fits (emitted.length ▸ crosses)
  have room : (grown ckmap).bytes.length ≤ (grown ckmap).capacity := by
    obtain ⟨k, capacity, room, least⟩ := grown_capacity emitted.sized
    rw [bytes_grown, capacity]
    exact Nat.le_of_lt room
  unfold writeString
  rw [Code.bind_of_ok (ensure_eq emitted.sized (emitted.length ▸ small) short), storeBytes_eq _ room, bytes_grown,
    List.length_append, List.length_singleton, if_neg behind]

theorem getLocationCounter_emits (small : imageSize layout.items ≤ 65535) :
    Emits getLocationCounter layout layout (imageSize layout.items) := by
  intro ckmap emitted
  refine ⟨ckmap, ?_, emitted⟩
  unfold getLocationCounter
  rw [Code.bind_of_ok (Code.get_apply _), Code.pure_apply, emitted.length, Nat.mod_eq_of_lt (Nat.lt_succ_of_le small)]

theorem keyAt_emits {kmap : KeyMap} {index : Nat} {key : Key} (found : kmap.keys[index]? = some key) :
    Emits (keyAt kmap index) layout layout key := by
  unfold keyAt
  rw [found]
  exact emits_pure key

/-! ### Slots -/

theorem write16_slot {slot : Slot} (fresh : layout.values slot = 0) (silent : ∀ offset, patchSlots offset [.slot slot] = [])
    (small : imageSize layout.items ≤ 65535) (even : imageSize layout.items % 2 = 0) :
    Emits (write16 0) layout (layout.append [.slot slot]) (imageSize layout.items) := by
  refine write16_emits ?_ silent small even
  change beBytes 2 (layout.values slot) ++ [] = _
  rw [fresh, List.append_nil]

theorem write16_word (value : Nat) (small : imageSize layout.items ≤ 65535) (even : imageSize layout.items % 2 = 0) :
    Emits (write16 value) layout (layout.append (wordItems value)) (imageSize layout.items) :=
  write16_emits (render_wordItems _ _) (fun offset => patchSlots_bytes offset _) small even

def Layout.unnoted (layout : Layout) (label : PatchLabel) : Layout :=
  { layout with items := layout.items ++ [.slot (.patch label)] }

theorem write16_unnoted {label : PatchLabel} (fresh : layout.values (.patch label) = 0)
    (small : imageSize layout.items ≤ 65535) (even : imageSize layout.items % 2 = 0) :
    Emits (write16 0) layout (layout.unnoted label) (imageSize layout.items) := by
  intro ckmap emitted
  -- the bytes are those of the slot that is written when it is not noted
  obtain ⟨ckmap', returns, emitted'⟩ := write16_word 0 small even ckmap emitted
  refine ⟨ckmap', returns, ?_, ?_, emitted'.sized⟩
  · rw [emitted'.bytes]
    change render _ (layout.items ++ wordItems 0) = render _ (layout.items ++ [.slot (.patch label)])
    rw [render_append, render_append, render_wordItems]
    change _ = _ ++ (beBytes 2 (layout.values (.patch label)) ++ [])
    rw [fresh, List.append_nil]
    rfl
  · rw [emitted'.patchLocs]
    change layout.patchLocs ++ patchSlots _ (wordItems 0) = _
    rw [wordItems, patchSlots_bytes, List.append_nil]
    rfl

theorem addPatchLocation_emits (label : PatchLabel) :
    Emits (addPatchLocation (imageSize layout.items) label) (layout.unnoted label) (layout.append [.slot (.patch label)]) () := by
  intro ckmap emitted
  refine ⟨_, rfl, emitted.bytes, ?_, ?_⟩
  · change ckmap.patchLocs ++ _ = _
    rw [emitted.patchLocs]
    rfl
  · cases emitted.sized with
    | none empty capacity => exact .none empty capacity
    | some k capacity used fits needed => exact .some k capacity used fits needed

/-! ### Patches -/

def Layout.assign (layout : Layout) (slot : Slot) (value : Nat) : Layout :=
  { layout with values := Function.update layout.values slot value }

theorem Layout.assign_of_ne {layout : Layout} {slot other : Slot} (different : other ≠ slot) (value : Nat) :
    (layout.assign slot value).values other = layout.values other := Function.update_of_ne different _ _

theorem Sized.patched {ckmap : CompiledKeyMap} {bytes : List UInt8} (sized : Sized ckmap) (length : bytes.length = ckmap.bytes.length) :
    Sized { ckmap with bytes := bytes } := by
  cases sized with
  | none empty capacity => exact .none (List.eq_nil_of_length_eq_zero (by rw [length, empty, List.length_nil])) capacity
  | some k capacity used fits needed =>
    exact .some k capacity (length.symm ▸ used) (length.symm ▸ fits) (length.symm ▸ needed)

theorem patchSlots_filter (offset : Nat) (items : List (Item Slot)) (label : PatchLabel) :
    ((patchSlots offset items).filter (·.2 = label)).map (·.1) = ((slotsFrom offset items).filter (·.2 = .patch label)).map (·.1) := by
  induction items generalizing offset with
  | nil => rfl
  | cons item rest ih =>
    cases item with
    | byte value => exact ih _
    | slot slot =>
      rw [slotsFrom]
      cases slot with
      | size =>
        exact ih _
      | offset index =>
        exact ih _
      | patch found =>
        rw [patchSlots]
        by_cases same : found = label
        · rw [List.filter_cons_of_pos (by simpa using same), List.filter_cons_of_pos (by simpa using same), List.map_cons,
            List.map_cons, ih]
        · rw [List.filter_cons_of_neg (by simpa using same), List.filter_cons_of_neg (by simpa using same)]
          exact ih _

theorem patchLabeled16_emits (label : PatchLabel) (value : Nat) (noted : layout.Noted) :
    Emits (patchLabeled16 label value) layout (layout.assign (.patch label) value) () := by
  intro ckmap emitted
  have bytes : (ckmap.patchLocs.filter (·.2 = label)).foldl (fun bytes slot => patch16 bytes slot.1 value) ckmap.bytes =
      render (layout.assign (.patch label) value).values layout.items := by
    have patched := patch_all layout.items layout.values (.patch label) value
    rw [← List.foldl_map (f := Prod.fst) (g := fun bytes offset => patch16 bytes offset value)] at patched
    rw [emitted.bytes, emitted.patchLocs, noted,
      ← List.foldl_map (f := Prod.fst) (g := fun bytes offset => patch16 bytes offset value), patchSlots_filter]
    exact patched
  refine ⟨_, rfl, bytes, emitted.patchLocs, emitted.sized.patched ?_⟩
  rw [bytes, length_render, emitted.length]

theorem patchWritten_emits {offset : Nat} {slot : Slot} (located : Located layout.items offset [.slot slot])
    (once : (labelsOf layout.items).count slot = 1) (value : Nat) :
    Emits (patchWritten offset value) layout (layout.assign slot value) () := by
  intro ckmap emitted
  have bytes : patch16 ckmap.bytes offset value = render (layout.assign slot value).values layout.items := by
    rw [emitted.bytes]
    exact located.patch16 once value
  refine ⟨_, rfl, bytes, emitted.patchLocs, emitted.sized.patched ?_⟩
  rw [bytes, length_render, emitted.length]

end Emits

end Apollo.Tools
