import Apollo.Lib.Bytes

/-!
# Images with slots

An assembler that does not know an offset yet writes a 16-bit slot and patches it
later.  An image is described by its items, which are bytes and labelled slots, and
by the values of the labels; patching all slots of a label changes its value.
-/

set_option autoImplicit false

namespace Apollo.Lib

inductive Item (ι : Type)
  | byte (value : UInt8)
  | slot (label : ι)

variable {ι : Type}

namespace Item

def size : Item ι → Nat
  | byte _ => 1
  | slot _ => 2

def render (values : ι → Nat) : Item ι → List UInt8
  | byte value => [value]
  | slot label => beBytes 2 (values label)

theorem length_render (values : ι → Nat) (item : Item ι) : (item.render values).length = item.size := by
  cases item with
  | byte => rfl
  | slot => exact length_beBytes 2 _

end Item

def imageSize (items : List (Item ι)) : Nat := (items.map Item.size).sum

def render (values : ι → Nat) (items : List (Item ι)) : List UInt8 := items.flatMap (Item.render values)

def slotsFrom : Nat → List (Item ι) → List (Nat × ι)
  | _, [] => []
  | offset, .byte _ :: rest => slotsFrom (offset + 1) rest
  | offset, .slot label :: rest => (offset, label) :: slotsFrom (offset + 2) rest

def labelsOf : List (Item ι) → List ι
  | [] => []
  | .byte _ :: rest => labelsOf rest
  | .slot label :: rest => label :: labelsOf rest

def wordItems (value : Nat) : List (Item ι) := (beBytes 2 value).map .byte

def patch16 (bytes : List UInt8) (offset value : Nat) : List UInt8 :=
  (bytes.set offset (beByte 2 value 0)).set (offset + 1) (beByte 2 value 1)

def read16 (bytes : List UInt8) (offset : Nat) : Option Nat :=
  bytes[offset]?.bind fun high => bytes[offset + 1]?.map fun low => high.toNat * 256 + low.toNat

section Images
variable {values : ι → Nat} {items front back : List (Item ι)} {label : ι} {offset value : Nat}

@[simp] theorem imageSize_nil : imageSize ([] : List (Item ι)) = 0 := rfl

@[simp] theorem imageSize_cons (item : Item ι) (rest : List (Item ι)) : imageSize (item :: rest) = item.size + imageSize rest := by
  simp [imageSize]

@[simp] theorem imageSize_append (front back : List (Item ι)) : imageSize (front ++ back) = imageSize front + imageSize back := by
  simp [imageSize]

theorem render_cons (values : ι → Nat) (item : Item ι) (rest : List (Item ι)) :
    render values (item :: rest) = item.render values ++ render values rest := List.flatMap_cons

theorem render_append (values : ι → Nat) (front back : List (Item ι)) :
    render values (front ++ back) = render values front ++ render values back := List.flatMap_append

@[simp] theorem length_render (values : ι → Nat) (items : List (Item ι)) : (render values items).length = imageSize items := by
  induction items with
  | nil => rfl
  | cons item rest ih => rw [render_cons, List.length_append, Item.length_render, ih, imageSize_cons]

theorem imageSize_flatMap {α : Type} (part : α → List (Item ι)) (elements : List α) :
    imageSize (elements.flatMap part) = (elements.map fun element => imageSize (part element)).sum := by
  induction elements with
  | nil => rfl
  | cons element rest ih => rw [List.flatMap_cons, imageSize_append, ih, List.map_cons, List.sum_cons]

theorem beBytes_two (value : Nat) : beBytes 2 value = [beByte 2 value 0, beByte 2 value 1] := rfl

theorem patch16_middle (front back : List UInt8) (old value : Nat) :
    patch16 (front ++ beBytes 2 old ++ back) front.length value = front ++ beBytes 2 value ++ back := by
  unfold patch16
  rw [beBytes_two, beBytes_two, List.append_assoc, List.append_assoc, List.set_append_right _ _ (Nat.le_refl _),
    List.set_append_right _ _ (Nat.le_add_right _ 1), Nat.sub_self, Nat.add_sub_cancel_left]
  rfl

theorem read16_middle (front back : List UInt8) (value : Nat) :
    read16 (front ++ beBytes 2 value ++ back) front.length = some (value % 65536) := by
  unfold read16
  rw [beBytes_two, List.append_assoc, List.getElem?_append_right (Nat.le_refl _),
    List.getElem?_append_right (Nat.le_add_right _ 1), Nat.sub_self, Nat.add_sub_cancel_left]
  change some ((beByte 2 value 0).toNat * 256 + (beByte 2 value 1).toNat) = _
  unfold beByte
  rw [UInt8.toNat_ofNat', UInt8.toNat_ofNat']
  congr 1
  omega

theorem read16_render (values : ι → Nat) (front back : List (Item ι)) (label : ι) :
    read16 (render values (front ++ .slot label :: back)) (imageSize front) = some (values label % 65536) := by
  rw [render_append, render_cons, ← List.append_assoc, ← length_render values front]
  exact read16_middle _ _ _

@[simp] theorem labelsOf_append (front back : List (Item ι)) : labelsOf (front ++ back) = labelsOf front ++ labelsOf back := by
  induction front with
  | nil => rfl
  | cons item rest ih =>
    cases item with
    | byte value => exact ih
    | slot label =>
      change label :: labelsOf (rest ++ back) = _
      rw [ih]
      rfl

@[simp] theorem labelsOf_bytes (bytes : List UInt8) : labelsOf (bytes.map .byte : List (Item ι)) = [] := by
  induction bytes with
  | nil => rfl
  | cons byte rest ih => exact ih

@[simp] theorem imageSize_bytes (bytes : List UInt8) : imageSize (bytes.map .byte : List (Item ι)) = bytes.length := by
  induction bytes with
  | nil => rfl
  | cons byte rest ih => rw [List.map_cons, imageSize_cons, ih, List.length_cons, Nat.add_comm, Item.size]

@[simp] theorem render_bytes (values : ι → Nat) (bytes : List UInt8) : render values (bytes.map .byte) = bytes := by
  induction bytes with
  | nil => rfl
  | cons byte rest ih =>
    rw [List.map_cons, render_cons, ih]
    rfl

@[simp] theorem imageSize_wordItems (value : Nat) : imageSize (wordItems value : List (Item ι)) = 2 := imageSize_bytes _

@[simp] theorem labelsOf_wordItems (value : Nat) : labelsOf (wordItems value : List (Item ι)) = [] := labelsOf_bytes _

theorem render_wordItems (values : ι → Nat) (value : Nat) : render values (wordItems value) = beBytes 2 value :=
  render_bytes values _

/-! ## Parts of an image -/

def Located (items : List (Item ι)) (offset : Nat) (part : List (Item ι)) : Prop :=
  ∃ front back, items = front ++ part ++ back ∧ imageSize front = offset

theorem Located.whole (items : List (Item ι)) : Located items 0 items := ⟨[], [], by simp, rfl⟩

theorem Located.left {first second : List (Item ι)} (located : Located items offset (first ++ second)) :
    Located items offset first := by
  obtain ⟨front, back, rfl, rfl⟩ := located
  exact ⟨front, second ++ back, by simp, rfl⟩

theorem Located.right {first second : List (Item ι)} (located : Located items offset (first ++ second)) :
    Located items (offset + imageSize first) second := by
  obtain ⟨front, back, rfl, rfl⟩ := located
  exact ⟨front ++ first, back, by simp, by simp⟩

theorem Located.element {α : Type} {part : α → List (Item ι)} {before after : List α} {element : α}
    (located : Located items offset ((before ++ element :: after).flatMap part)) :
    Located items (offset + imageSize (before.flatMap part)) (part element) := by
  rw [List.flatMap_append, List.flatMap_cons] at located
  exact located.right.left

theorem Located.append {part : List (Item ι)} (located : Located items offset part) (more : List (Item ι)) :
    Located (items ++ more) offset part := by
  obtain ⟨front, back, rfl, rfl⟩ := located
  exact ⟨front, back ++ more, by simp, rfl⟩

theorem Located.read16_slot (located : Located items offset [.slot label]) :
    read16 (render values items) offset = some (values label % 65536) := by
  obtain ⟨front, back, rfl, rfl⟩ := located
  rw [List.append_assoc]
  exact read16_render values front back label

theorem Located.read16_word (located : Located items offset (wordItems value)) :
    read16 (render values items) offset = some (value % 65536) := by
  obtain ⟨front, back, rfl, rfl⟩ := located
  rw [render_append, render_append, render_wordItems, ← length_render values front]
  exact read16_middle _ _ _

theorem Located.getElem_byte {bytes : List UInt8} (located : Located items offset (bytes.map .byte)) {index : Nat}
    (inside : index < bytes.length) : (render values items)[offset + index]? = bytes[index]? := by
  obtain ⟨front, back, rfl, rfl⟩ := located
  rw [render_append, render_append, render_bytes, List.append_assoc,
    List.getElem?_append_right (by rw [length_render]; exact Nat.le_add_right _ _), length_render, Nat.add_sub_cancel_left,
    List.getElem?_append_left inside]

variable [DecidableEq ι]

/-- A label without a slot has no effect on the bytes. -/
theorem render_update (absent : label ∉ labelsOf items) : render (Function.update values label value) items = render values items := by
  induction items with
  | nil => rfl
  | cons item rest ih =>
    rw [render_cons, render_cons]
    cases item with
    | byte found =>
      rw [ih absent]
      rfl
    | slot found =>
      have other : found ≠ label := fun same => absent (by rw [same]; exact List.mem_cons_self)
      rw [ih (List.not_mem_of_not_mem_cons absent), Item.render, Item.render, Function.update_of_ne other]

theorem patch16_render (absentFront : label ∉ labelsOf front) (absentBack : label ∉ labelsOf back) (value : Nat) :
    patch16 (render values (front ++ [.slot label] ++ back)) (imageSize front) value =
      render (Function.update values label value) (front ++ [.slot label] ++ back) := by
  have slot (values : ι → Nat) : render values [Item.slot label] = beBytes 2 (values label) := List.append_nil _
  rw [render_append, render_append, render_append, render_append, render_update absentFront, render_update absentBack, slot,
    slot, Function.update_self, ← length_render values front]
  exact patch16_middle _ _ _ _

theorem Located.patch16 (located : Located items offset [.slot label]) (once : (labelsOf items).count label = 1) (value : Nat) :
    patch16 (render values items) offset value = render (Function.update values label value) items := by
  obtain ⟨front, back, rfl, rfl⟩ := located
  rw [labelsOf_append, labelsOf_append, List.count_append, List.count_append] at once
  have slot : (labelsOf [Item.slot label]).count label = 1 := List.count_singleton_self
  exact patch16_render (List.count_eq_zero.mp (by omega)) (List.count_eq_zero.mp (by omega)) value

theorem foldl_patch16 (before : List UInt8) (items : List (Item ι)) (values : ι → Nat) (label : ι) (value : Nat) :
    ((slotsFrom before.length items).filter (·.2 = label)).foldl (fun bytes slot => patch16 bytes slot.1 value)
        (before ++ render values items) =
      before ++ render (Function.update values label value) items := by
  induction items generalizing before with
  | nil => rfl
  | cons item rest ih =>
    cases item with
    | byte found =>
      have moved := ih (before ++ [found])
      rw [List.length_append] at moved
      rw [slotsFrom, render_cons, render_cons, Item.render, Item.render, ← List.append_assoc, ← List.append_assoc]
      exact moved
    | slot found =>
      rw [slotsFrom, render_cons, render_cons, Item.render, Item.render, ← List.append_assoc, ← List.append_assoc]
      by_cases same : found = label
      · have moved := ih (before ++ beBytes 2 value)
        rw [List.length_append, length_beBytes] at moved
        subst same
        rw [List.filter_cons_of_pos (by simp), List.foldl_cons, patch16_middle, Function.update_self]
        exact moved
      · have moved := ih (before ++ beBytes 2 (values found))
        rw [List.length_append, length_beBytes] at moved
        rw [List.filter_cons_of_neg (by simpa using same), Function.update_of_ne same]
        exact moved

theorem patch_all (items : List (Item ι)) (values : ι → Nat) (label : ι) (value : Nat) :
    ((slotsFrom 0 items).filter (·.2 = label)).foldl (fun bytes slot => patch16 bytes slot.1 value) (render values items) =
      render (Function.update values label value) items :=
  foldl_patch16 [] items values label value

def assignFrom (label : Nat → ι) (index : Nat) : List Nat → (ι → Nat) → ι → Nat
  | [], values => values
  | position :: rest, values => assignFrom label (index + 1) rest (Function.update values (label index) position)

theorem assignFrom_of_ne {labels : Nat → ι} {index : Nat} (other : ∀ later, index ≤ later → label ≠ labels later) (positions : List Nat)
    (values : ι → Nat) : assignFrom labels index positions values label = values label := by
  induction positions generalizing index values with
  | nil => rfl
  | cons position rest ih =>
    rw [assignFrom, ih (fun later above => other later (Nat.le_of_succ_le above)),
      Function.update_of_ne (other index (Nat.le_refl _))]

theorem assignFrom_apply {labels : Nat → ι} (distinct : Function.Injective labels) (index : Nat) (before after : List Nat)
    (position : Nat) (values : ι → Nat) :
    assignFrom labels index (before ++ position :: after) values (labels (index + before.length)) = position := by
  induction before generalizing index values with
  | nil =>
    have other (later : Nat) (above : index + 1 ≤ later) : labels index ≠ labels later := fun same =>
      Nat.ne_of_lt above (distinct same)
    change assignFrom labels (index + 1) after (Function.update values (labels index) position) (labels index) = position
    rw [assignFrom_of_ne other, Function.update_self]
  | cons first rest ih =>
    rw [List.cons_append, assignFrom, List.length_cons, Nat.add_comm rest.length, ← Nat.add_assoc]
    exact ih _ _

def offsetsFrom (offset : Nat) : List Nat → List Nat
  | [] => []
  | size :: rest => offset :: offsetsFrom (offset + size) rest

theorem offsetsFrom_append (offset : Nat) (before after : List Nat) :
    offsetsFrom offset (before ++ after) = offsetsFrom offset before ++ offsetsFrom (offset + before.sum) after := by
  induction before generalizing offset with
  | nil => rfl
  | cons size rest ih =>
    rw [List.cons_append, offsetsFrom, offsetsFrom, ih, List.sum_cons, Nat.add_assoc, List.cons_append]

@[simp] theorem length_offsetsFrom (offset : Nat) (sizes : List Nat) : (offsetsFrom offset sizes).length = sizes.length := by
  induction sizes generalizing offset with
  | nil => rfl
  | cons size rest ih => rw [offsetsFrom, List.length_cons, ih, List.length_cons]

theorem assignFrom_offsetsFrom {α : Type} {labels : Nat → ι} (distinct : Function.Injective labels) (offset : Nat) (size : α → Nat)
    (before after : List α) (element : α) (values : ι → Nat) :
    assignFrom labels 0 (offsetsFrom offset ((before ++ element :: after).map size)) values (labels before.length) =
      offset + (before.map size).sum := by
  have applied := assignFrom_apply distinct 0 (offsetsFrom offset (before.map size))
    (offsetsFrom (offset + (before.map size).sum + size element) (after.map size)) (offset + (before.map size).sum) values
  rw [length_offsetsFrom, List.length_map, Nat.zero_add] at applied
  rw [List.map_append, List.map_cons, offsetsFrom_append, offsetsFrom]
  exact applied

end Images

end Apollo.Lib
