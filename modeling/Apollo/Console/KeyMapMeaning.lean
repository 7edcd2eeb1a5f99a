import Apollo.Console.KeyMap
import Apollo.Tools.KeyMapStatements
import Mathlib.Data.Nat.Bitwise

/-!
# Key maps mean what the key file says

The image of a compiled key map is read by the kernel.  The meaning of a key is that
of its statement, for every event.
-/

set_option autoImplicit false

namespace Apollo.Console

open Lib Tools

/-! ## Modifiers -/

theorem hasFlag_bit (flags : UInt32) (bit : Nat) (small : bit < 32) :
    hasFlag flags (UInt32.ofNat (2 ^ bit)) = flags.toNat.testBit bit := by
  have value : (UInt32.ofNat (2 ^ bit)).toNat = 2 ^ bit := by
    rw [UInt32.toNat_ofNat', Nat.mod_eq_of_lt (Nat.pow_lt_pow_right (by decide) small)]
  have zero : flags &&& UInt32.ofNat (2 ^ bit) = 0 ↔ flags.toNat.testBit bit = false := by
    rw [← UInt32.toNat_inj, UInt32.toNat_and, value, Nat.and_two_pow]
    cases flags.toNat.testBit bit <;> simp
  unfold hasFlag
  rw [bne, Bool.eq_iff_iff]
  simp [zero]

theorem hasFlag_shift (flags : UInt32) : hasFlag flags kHIDEventModifierFlagShift = flags.toNat.testBit 0 :=
  hasFlag_bit flags 0 (by decide)

theorem hasFlag_option (flags : UInt32) : hasFlag flags kHIDEventModifierFlagOption = flags.toNat.testBit 1 :=
  hasFlag_bit flags 1 (by decide)

theorem hasFlag_control (flags : UInt32) : hasFlag flags kHIDEventModifierFlagControl = flags.toNat.testBit 2 :=
  hasFlag_bit flags 2 (by decide)

theorem modifierIdx_eq (flags : UInt32) :
    (flags &&& (kHIDEventModifierFlagShift ||| kHIDEventModifierFlagOption)).toNat =
      (hasFlag flags kHIDEventModifierFlagShift).toNat + 2 * (hasFlag flags kHIDEventModifierFlagOption).toNat := by
  rw [hasFlag_shift, hasFlag_option, UInt32.toNat_and, Nat.testBit_eq_decide_div_mod_eq, Nat.testBit_eq_decide_div_mod_eq]
  change flags.toNat &&& (2 ^ 2 - 1) = _
  rw [Nat.and_two_pow_sub_one_eq_mod]
  by_cases low : flags.toNat / 2 ^ 0 % 2 = 1
  · by_cases high : flags.toNat / 2 ^ 1 % 2 = 1
    · rw [decide_eq_true low, decide_eq_true high, Bool.toNat_true]
      omega
    · rw [decide_eq_true low, decide_eq_false high, Bool.toNat_true, Bool.toNat_false]
      omega
  · by_cases high : flags.toNat / 2 ^ 1 % 2 = 1
    · rw [decide_eq_false low, decide_eq_true high, Bool.toNat_true, Bool.toNat_false]
      omega
    · rw [decide_eq_false low, decide_eq_false high, Bool.toNat_false]
      omega

def KeyEvent.letter (event : KeyEvent) : Bool := decide (keyA ≤ event.keyCode ∧ event.keyCode ≤ keyZ)

def KeyEvent.has (event : KeyEvent) (flag : UInt32) : Bool := hasFlag event.flags flag

def KeyEvent.shifted (event : KeyEvent) : Bool :=
  xor (event.has kHIDEventModifierFlagShift) (event.has kHIDEventModifierFlagCapsLock && event.letter)

theorem testBit_and (flags mask : UInt32) (bit : Nat) :
    (flags &&& mask).toNat.testBit bit = (flags.toNat.testBit bit && mask.toNat.testBit bit) := by
  rw [UInt32.toNat_and, Nat.testBit_and]

theorem testBit_or (flags mask : UInt32) (bit : Nat) :
    (flags ||| mask).toNat.testBit bit = (flags.toNat.testBit bit || mask.toNat.testBit bit) := by
  rw [UInt32.toNat_or, Nat.testBit_or]

theorem effectiveFlags_shift (event : KeyEvent) : hasFlag (effectiveFlags event) kHIDEventModifierFlagShift = event.shifted := by
  unfold effectiveFlags KeyEvent.shifted KeyEvent.has KeyEvent.letter
  by_cases caps : hasFlag event.flags kHIDEventModifierFlagCapsLock = true ∧ keyA ≤ event.keyCode ∧ event.keyCode ≤ keyZ
  · rw [if_pos caps, caps.1, decide_eq_true caps.2, Bool.true_and, Bool.xor_true]
    cases shift : hasFlag event.flags kHIDEventModifierFlagShift with
    | true =>
      rw [if_pos rfl, hasFlag_shift, testBit_and]
      exact Bool.and_false _
    | false =>
      rw [if_neg Bool.false_ne_true, hasFlag_shift, testBit_or]
      exact Bool.or_true _
  · rw [if_neg caps]
    cases lock : hasFlag event.flags kHIDEventModifierFlagCapsLock with
    | true =>
      rw [decide_eq_false (fun letter => caps ⟨lock, letter⟩), Bool.and_false, Bool.xor_false]
    | false => rw [Bool.false_and, Bool.xor_false]

theorem effectiveFlags_other (event : KeyEvent) {bit : Nat} (set : (~~~kHIDEventModifierFlagShift).toNat.testBit bit = true)
    (clear : kHIDEventModifierFlagShift.toNat.testBit bit = false) :
    (effectiveFlags event).toNat.testBit bit = event.flags.toNat.testBit bit := by
  unfold effectiveFlags
  split_ifs
  · rw [testBit_and, set, Bool.and_true]
  · rw [testBit_or, clear, Bool.or_false]
  · rfl

theorem effectiveFlags_option (event : KeyEvent) :
    hasFlag (effectiveFlags event) kHIDEventModifierFlagOption = event.has kHIDEventModifierFlagOption := by
  unfold KeyEvent.has
  rw [hasFlag_option, hasFlag_option]
  exact effectiveFlags_other event (by decide) (by decide)

theorem effectiveFlags_control (event : KeyEvent) :
    hasFlag (effectiveFlags event) kHIDEventModifierFlagControl = event.has kHIDEventModifierFlagControl := by
  unfold KeyEvent.has
  rw [hasFlag_control, hasFlag_control]
  exact effectiveFlags_other event (by decide) (by decide)

/-! ## Meanings -/

def entryOf (unmodified shift option shiftOption : UInt8) (event : KeyEvent) : UInt8 :=
  if event.has kHIDEventModifierFlagOption then (if event.shifted then shiftOption else option)
  else if event.shifted then shift else unmodified

def characterOf (unmodified shift option shiftOption : UInt8) (event : KeyEvent) : UInt8 :=
  let entry := entryOf unmodified shift option shiftOption event
  let character := if entry = 0 then unmodified else entry
  if event.has kHIDEventModifierFlagControl then character &&& 0x1f else character

def meaningOf (meaning : KeyMeaning) (event : KeyEvent) : List UInt8 :=
  match meaning with
  | .bytes unmodified shift option shiftOption => [characterOf unmodified shift option shiftOption event]
  | .string text => text

def expected (statements : List KeyStatement) (event : KeyEvent) : List UInt8 :=
  match statements.find? fun statement => statement.keyCode = event.keyCode with
  | some statement => meaningOf statement.meaning event
  | none => []

/-! ## Reading -/

section Reading
variable {image text : List UInt8} {range : KeyMapRange} {event : KeyEvent}

theorem mapType0_eq {unmodified shift option shiftOption : UInt8}
    (table : ∀ index < 4, image[range.traps + 4 * (event.keyCode - range.lower) + index]? =
      [unmodified, shift, option, shiftOption][index]?) :
    mapType0 image range event = some [characterOf unmodified shift option shiftOption event] := by
  have select : image[range.traps + 4 * (event.keyCode - range.lower) +
      (effectiveFlags event &&& (kHIDEventModifierFlagShift ||| kHIDEventModifierFlagOption)).toNat]? =
      some (entryOf unmodified shift option shiftOption event) := by
    rw [modifierIdx_eq, effectiveFlags_shift, effectiveFlags_option]
    unfold entryOf
    cases event.has kHIDEventModifierFlagOption with
    | true =>
      cases event.shifted with
      | true => exact table 3 (by decide)
      | false => exact table 2 (by decide)
    | false =>
      cases event.shifted with
      | true => exact table 1 (by decide)
      | false => exact table 0 (by decide)
  have base : image[range.traps + 4 * (event.keyCode - range.lower)]? = some unmodified := table 0 (by decide)
  unfold mapType0 characterOf
  dsimp only
  rw [select, base, effectiveFlags_control]
  simp only [Option.bind_eq_bind, Option.bind_some]
  split_ifs <;> rfl

theorem copyTrapString_eq {offset maxOutChars : Nat} (nonzero : ∀ byte ∈ text, byte ≠ 0) (short : text.length ≤ maxOutChars)
    (table : ∀ index < text.length + 1, image[offset + index]? = (text ++ [0])[index]?) :
    copyTrapString image offset maxOutChars = some text := by
  induction text generalizing offset maxOutChars with
  | nil =>
    have stop : image[offset]? = some 0 := table 0 (by decide)
    cases maxOutChars with
    | zero =>
      rw [copyTrapString, stop]
      rfl
    | succ maxOutChars =>
      rw [copyTrapString, stop]
      rfl
  | cons byte rest ih =>
    have here : image[offset]? = some byte := table 0 (Nat.succ_pos _)
    cases maxOutChars with
    | zero => exact absurd short (Nat.not_succ_le_zero _)
    | succ maxOutChars =>
      have copied : copyTrapString image (offset + 1) maxOutChars = some rest := by
        refine ih (fun byte later => nonzero byte (List.mem_cons_of_mem _ later)) (Nat.le_of_succ_le_succ short) ?_
        intro index inside
        rw [Nat.add_assoc, Nat.add_comm 1]
        exact table (index + 1) (Nat.succ_lt_succ inside)
      rw [copyTrapString, here]
      simp only [Option.bind_eq_bind, Option.bind_some, if_neg (nonzero byte List.mem_cons_self), copied]
      rfl

end Reading

/-! ## Reading an image -/

def imageOf (runs : List KeyRun) (strings : List (List UInt8)) : List UInt8 :=
  render (imageValues runs strings) (imageItems runs strings)

theorem imageSize_keys {type : KeyType} {keys : List Key} (types : ∀ key ∈ keys, key.type = type) :
    imageSize (keys.flatMap keyItems) = trapSize type * keys.length := by
  induction keys with
  | nil => rfl
  | cons key rest ih =>
    rw [List.flatMap_cons, imageSize_append, ih fun key later => types key (List.mem_cons_of_mem _ later), imageSize_keyItems,
      types key List.mem_cons_self, List.length_cons, Nat.mul_succ, Nat.add_comm]

section Image
variable {runs before after : List KeyRun} {run : KeyRun} {strings : List (List UInt8)} {event : KeyEvent} {maxOutBytes : Nat}

theorem KeyRunType (run : KeyRun) : ∀ key ∈ run.keys, key.type = run.keyType := by
  intro key member
  obtain ⟨index, found⟩ := List.mem_iff_getElem?.mp member
  exact (run.consecutive index key found).2

theorem table_le (split : runs = before ++ run :: after) :
    tablesOffset runs + imageSize (before.flatMap tableItems) + imageSize (tableItems run) ≤ stringsOffset runs := by
  have elements : runs.flatMap tableItems = before.flatMap tableItems ++ (tableItems run ++ after.flatMap tableItems) := by
    rw [split, List.flatMap_append, List.flatMap_cons]
  unfold stringsOffset
  rw [elements, imageSize_append, imageSize_append]
  omega

theorem readRange_eq (small : imageSize (imageItems runs strings) ≤ 65535) (split : runs = before ++ run :: after)
    (code : run.lower + (run.keys.length - 1) < 65536) :
    readRange (imageOf runs strings) (6 + 2 * runs.length + 8 * before.length) =
      some ⟨run.keyType.code, run.lower, run.lower + (run.keys.length - 1),
        tablesOffset runs + imageSize (before.flatMap tableItems)⟩ := by
  have record := @located_record _ _ _ _ strings split
  have type : read16 (imageOf runs strings) _ = _ := record.left.left.left.read16_word
  have lower : read16 (imageOf runs strings) _ = _ := record.left.left.right.read16_word
  have upper : read16 (imageOf runs strings) _ = _ := record.left.right.read16_word
  have traps : read16 (imageOf runs strings) _ = _ := record.right.read16_slot
  have known : run.keyType.code < 65536 := by
    cases run.keyType with
    | fourBytes => decide
    | string => decide
  have behind := table_le split
  rw [imageSize_imageItems] at small
  rw [imageSize_append, imageSize_wordItems, imageSize_wordItems, Nat.mod_eq_of_lt code] at upper
  rw [imageSize_append, imageSize_append, imageSize_wordItems, imageSize_wordItems, imageSize_wordItems, value_range split,
    Nat.mod_eq_of_lt (by omega)] at traps
  rw [imageSize_wordItems, Nat.mod_eq_of_lt (by omega)] at lower
  rw [Nat.mod_eq_of_lt known] at type
  unfold readRange
  rw [type, lower, upper, traps]
  rfl

theorem mapKey_eq {front back : List Key} {key : Key} (small : imageSize (imageItems runs strings) ≤ 65535)
    (split : runs = before ++ run :: after) (keys : run.keys = front ++ key :: back) (code : event.keyCode = run.lower + front.length)
    (texts : ∀ stringIdx, key.trap = .string stringIdx →
      ∃ text, strings[stringIdx]? = some text ∧ text.length ≤ maxOutBytes ∧ ∀ byte ∈ text, byte ≠ 0)
    {range : KeyMapRange} (isRange : range = ⟨run.keyType.code, run.lower, run.lower + (run.keys.length - 1),
      tablesOffset runs + imageSize (before.flatMap tableItems)⟩) :
    (if range.type = keyMapRangeType0 then mapType0 (imageOf runs strings) range event
      else if range.type = keyMapRangeType3 then mapType3 (imageOf runs strings) range event maxOutBytes
      else some []) = some (meaningOf (trapOf strings key.trap) event) := by
  have types := KeyRunType run
  rw [keys] at types
  have type := types key (List.mem_append_right _ List.mem_cons_self)
  have size := imageSize_keys fun key member => types key (List.mem_append_left _ member)
  have table := @located_table _ _ _ _ strings split
  unfold tableItems at table
  rw [keys] at table
  have trap := table.element
  have index : event.keyCode - range.lower = front.length := by
    rw [isRange, code, Nat.add_sub_cancel_left]
  have traps : range.traps = tablesOffset runs + imageSize (before.flatMap tableItems) := by rw [isRange]
  have rangeType : range.type = run.keyType.code := by rw [isRange]
  rw [size] at trap
  unfold Key.type at type
  unfold keyItems at trap
  cases held : key.trap with
  | fourBytes unmodified shift option shiftOption =>
    rw [held] at type trap
    have runType : run.keyType = .fourBytes := type.symm
    rw [runType] at trap rangeType
    rw [rangeType, if_pos (show KeyType.fourBytes.code = keyMapRangeType0 from rfl)]
    refine mapType0_eq fun entry inside => ?_
    rw [index, traps]
    exact trap.getElem_byte inside
  | string stringIdx =>
    rw [held] at type trap
    have runType : run.keyType = .string := type.symm
    rw [runType] at trap rangeType
    obtain ⟨text, found, short, nonzero⟩ := texts stringIdx held
    obtain ⟨inside, rfl⟩ := List.getElem?_eq_some_iff.mp found
    have strings_split : strings = strings.take stringIdx ++ strings[stringIdx] :: strings.drop (stringIdx + 1) := by
      rw [← List.drop_eq_getElem_cons, List.take_append_drop]
    have offset : read16 (imageOf runs strings) _ = _ := trap.read16_slot
    have value := @value_string runs _ _ _ _ strings_split
    have located := @located_text runs _ _ _ _ strings_split
    have behind : stringsOffset runs + imageSize ((strings.take stringIdx).flatMap textItems) ≤ 65535 := by
      have elements : strings.flatMap textItems =
          (strings.take stringIdx).flatMap textItems ++ (strings.drop stringIdx).flatMap textItems := by
        rw [← List.flatMap_append, List.take_append_drop]
      rw [imageSize_imageItems, elements, imageSize_append] at small
      omega
    rw [List.length_take, Nat.min_eq_left (Nat.le_of_lt inside)] at value
    rw [value, Nat.mod_eq_of_lt (by omega)] at offset
    have copied : copyTrapString (imageOf runs strings)
        (stringsOffset runs + imageSize ((strings.take stringIdx).flatMap textItems)) maxOutBytes = some strings[stringIdx] := by
      refine copyTrapString_eq nonzero short fun entry below => ?_
      exact located.getElem_byte (by rw [List.length_append]; exact below)
    have meaning : trapOf strings (.string stringIdx) = .string strings[stringIdx] := by
      change KeyMeaning.string (strings[stringIdx]?.getD []) = _
      rw [List.getElem?_eq_getElem inside]
      rfl
    rw [meaning, rangeType, if_neg (by decide), if_pos (show KeyType.string.code = keyMapRangeType3 from rfl)]
    unfold mapType3
    rw [index, traps]
    exact (congrArg (Option.bind · _) offset).trans copied

def keyOf (keys : List Key) (keyCode : Nat) : Option Key := keys.find? fun key => key.keyCode = keyCode

theorem keyOf_run (run : KeyRun) (more : List Key) (inside : run.lower ≤ event.keyCode ∧ event.keyCode ≤ run.lower + (run.keys.length - 1)) :
    ∃ front key back, run.keys = front ++ key :: back ∧ event.keyCode = run.lower + front.length ∧
      keyOf (run.keys ++ more) event.keyCode = some key := by
  have below : event.keyCode - run.lower < run.keys.length := by
    have := run.nonempty
    omega
  have split : run.keys = run.keys.take (event.keyCode - run.lower) ++ run.keys[event.keyCode - run.lower] ::
      run.keys.drop (event.keyCode - run.lower + 1) := by
    rw [← List.drop_eq_getElem_cons, List.take_append_drop]
  have length : (run.keys.take (event.keyCode - run.lower)).length = event.keyCode - run.lower := by
    rw [List.length_take, Nat.min_eq_left (Nat.le_of_lt below)]
  refine ⟨_, _, _, split, by omega, ?_⟩
  unfold keyOf
  rw [List.find?_eq_some_iff_append]
  refine ⟨?_, run.keys.take (event.keyCode - run.lower), run.keys.drop (event.keyCode - run.lower + 1) ++ more, ?_, ?_⟩
  · rw [decide_eq_true_eq, (run.consecutive _ _ (List.getElem?_eq_getElem below)).1]
    omega
  · rw [← List.cons_append, ← List.append_assoc, ← split]
  · intro key member
    obtain ⟨index, here⟩ := List.mem_iff_getElem?.mp member
    obtain ⟨before, -⟩ := List.getElem?_eq_some_iff.mp here
    rw [List.getElem?_take_of_lt (length ▸ before)] at here
    rw [Bool.not_eq_true', decide_eq_false_iff_not, (run.consecutive _ _ here).1]
    omega

theorem keyOf_other (run : KeyRun) (more : List Key) (outside : ¬(run.lower ≤ event.keyCode ∧ event.keyCode ≤ run.lower + (run.keys.length - 1))) :
    keyOf (run.keys ++ more) event.keyCode = keyOf more event.keyCode := by
  have absent : run.keys.find? (fun key => key.keyCode = event.keyCode) = none := by
    rw [List.find?_eq_none]
    intro key member
    obtain ⟨index, here⟩ := List.mem_iff_getElem?.mp member
    obtain ⟨inside, -⟩ := List.getElem?_eq_some_iff.mp here
    rw [decide_eq_true_eq, (run.consecutive _ _ here).1]
    omega
  unfold keyOf
  rw [List.find?_append, absent, Option.none_or]

def imageMeaning (keys : List Key) (strings : List (List UInt8)) (event : KeyEvent) : List UInt8 :=
  (keyOf keys event.keyCode).elim [] fun key => meaningOf (trapOf strings key.trap) event

def StringsHeld (keys : List Key) (strings : List (List UInt8)) (maxOutBytes : Nat) : Prop :=
  ∀ key ∈ keys, ∀ stringIdx, key.trap = .string stringIdx →
    ∃ text, strings[stringIdx]? = some text ∧ text.length ≤ maxOutBytes ∧ ∀ byte ∈ text, byte ≠ 0

theorem mapRanges_eq (small : imageSize (imageItems runs strings) ≤ 65535)
    (codes : ∀ key ∈ runs.flatMap KeyRun.keys, key.keyCode < 65536)
    (held : StringsHeld (runs.flatMap KeyRun.keys) strings maxOutBytes) (before after : List KeyRun) (split : runs = before ++ after) :
    mapRanges (imageOf runs strings) event maxOutBytes before.length after.length =
      some (imageMeaning (after.flatMap KeyRun.keys) strings event) := by
  induction after generalizing before with
  | nil => rfl
  | cons run rest ih =>
    have member (key : Key) (within : key ∈ run.keys) : key ∈ runs.flatMap KeyRun.keys := by
      rw [split]
      exact List.mem_flatMap_of_mem (List.mem_append_right _ List.mem_cons_self) within
    have code : run.lower + (run.keys.length - 1) < 65536 := by
      have last := List.getElem?_eq_getElem (Nat.sub_lt run.nonempty Nat.one_pos)
      rw [← (run.consecutive _ _ last).1]
      exact codes _ (member _ (List.getElem_mem _))
    have inside : before.length < runs.length := by
      rw [split, List.length_append, List.length_cons]
      omega
    have offset : read16 (imageOf runs strings) (6 + 2 * before.length) = _ := (located_offsetSlot inside).read16_slot
    have behind := table_le split
    have total := imageSize_imageItems runs strings
    have tables : tablesOffset runs = 6 + 2 * runs.length + 8 * runs.length := rfl
    rw [value_offset split, Nat.mod_eq_of_lt (by omega)] at offset
    rw [List.length_cons, mapRanges, offset]
    simp only [Option.bind_eq_bind, Option.bind_some, readRange_eq small split code]
    unfold imageMeaning
    rw [List.flatMap_cons]
    by_cases within : run.lower ≤ event.keyCode ∧ event.keyCode ≤ run.lower + (run.keys.length - 1)
    · obtain ⟨front, key, back, keys, here, found⟩ := keyOf_run run (rest.flatMap KeyRun.keys) within
      have keyMember := member key (keys ▸ List.mem_append_right _ List.mem_cons_self)
      rw [if_pos within, found]
      exact mapKey_eq small split keys here (held key keyMember) rfl
    · rw [if_neg within, keyOf_other run _ within]
      have rest_eq := ih (before ++ [run]) (by rw [split, List.append_assoc, List.singleton_append])
      rw [List.length_append, List.length_singleton] at rest_eq
      exact rest_eq

theorem keyMapMap_eq (small : imageSize (imageItems runs strings) ≤ 65535)
    (codes : ∀ key ∈ runs.flatMap KeyRun.keys, key.keyCode < 65536)
    (held : StringsHeld (runs.flatMap KeyRun.keys) strings maxOutBytes) (some : 0 < maxOutBytes) :
    keyMapMap (imageOf runs strings) event maxOutBytes = .some (imageMeaning (runs.flatMap KeyRun.keys) strings event) := by
  have count : read16 (imageOf runs strings) 4 = _ := (located_rangeCount runs strings).read16_word
  have total := imageSize_imageItems runs strings
  have tables : stringsOffset runs = 6 + 2 * runs.length + 8 * runs.length + imageSize (runs.flatMap tableItems) := rfl
  rw [Nat.mod_eq_of_lt (by omega)] at count
  unfold keyMapMap
  rw [if_pos some, count]
  exact mapRanges_eq small codes held [] runs rfl

end Image

/-! ## Key files -/

structure ValidStatements (statements : List KeyStatement) : Prop where
  codes : ∀ statement ∈ statements, statement.keyCode < 65536
  distinct : (statements.map KeyStatement.keyCode).Nodup
  texts : ∀ statement ∈ statements, ∀ text, statement.meaning = .string text →
    1 ≤ text.length ∧ text.length ≤ kKeyMapMaxByteSequenceLength ∧ ∀ byte ∈ text, byte ≠ 0
  size : compiledSize statements ≤ 65535

/-- The kernel reads what the key file says about every event. -/
def Faithful (statements : List KeyStatement) : Prop :=
  ∃ ckmap, compile statements = .ok () ckmap ∧ ∀ event maxOutBytes, kKeyMapMaxByteSequenceLength ≤ maxOutBytes →
    keyMapMap ckmap.bytes event maxOutBytes = some (expected statements event)

def StringsFit (statements : List KeyStatement) : Prop := TextsFit (stringsStart statements) (textsOf statements)

/-- The order of the table does not matter when its codes are different. -/
theorem keyOf_perm {keys sorted : List Key} (same : sorted.Perm keys) (distinct : (keys.map Key.keyCode).Nodup) (keyCode : Nat) :
    keyOf sorted keyCode = keyOf keys keyCode := by
  unfold keyOf
  cases found : keys.find? fun key => key.keyCode = keyCode with
  | none =>
    rw [List.find?_eq_none] at found ⊢
    exact fun key member => found key (same.subset member)
  | some key =>
    have member := List.mem_of_find?_eq_some found
    have test := List.find?_some found
    have code : key.keyCode = keyCode := of_decide_eq_true test
    cases other : sorted.find? fun key => key.keyCode = keyCode with
    | none =>
      rw [List.find?_eq_none] at other
      exact absurd (decide_eq_true code) (other key (same.mem_iff.mpr member))
    | some twin =>
      have twinMember := same.subset (List.mem_of_find?_eq_some other)
      have twinTest := List.find?_some other
      have twinCode : twin.keyCode = keyCode := of_decide_eq_true twinTest
      rw [List.inj_on_of_nodup_map distinct twinMember member (twinCode.trans code.symm)]

theorem imageMeaning_eq {keys : List Key} {strings : List (List UInt8)} {statements : List KeyStatement}
    (means : List.Forall₂ (Key.Means strings) keys statements) (event : KeyEvent) :
    imageMeaning keys strings event = expected statements event := by
  unfold imageMeaning keyOf expected
  induction means with
  | nil => rfl
  | cons first rest ih =>
    rename_i key statement keys statements
    by_cases here : statement.keyCode = event.keyCode
    · rw [List.find?_cons, List.find?_cons, first.keyCode, decide_eq_true here]
      exact congrArg (meaningOf · event) first.meaning
    · rw [List.find?_cons, List.find?_cons, first.keyCode, decide_eq_false here]
      exact ih

structure Compiled (statements : List KeyStatement) (kmap : KeyMap) (runs : List KeyRun) : Prop where
  keys : kmap.keys = runs.flatMap KeyRun.keys
  ranges : kmap.ranges = rangesOf 0 runs
  strings : kmap.strings = textsOf statements
  codes : ∀ key ∈ kmap.keys, key.keyCode < 65536
  held : StringsHeld kmap.keys (textsOf statements) kKeyMapMaxByteSequenceLength
  offset : stringsOffset runs = stringsStart statements
  size : imageSize (imageItems runs (textsOf statements)) = compiledSize statements
  short : ∀ text ∈ textsOf statements, text.length + 1 ≤ 4096
  empty : runs = [] → textsOf statements = []
  meaning : ∀ event, imageMeaning kmap.keys (textsOf statements) event = expected statements event

theorem sortedKeys {kmap : KeyMap} (distinct : (kmap.keys.map Key.keyCode).Nodup) :
    (calculateKeyRanges kmap).keys.Perm kmap.keys ∧
      (calculateKeyRanges kmap).keys.Pairwise fun left right => left.keyCode < right.keyCode := by
  have perm : (calculateKeyRanges kmap).keys.Perm kmap.keys := List.mergeSort_perm _ _
  refine ⟨perm, ?_⟩
  have total (left right : Key) : (decide (left.keyCode ≤ right.keyCode) || decide (right.keyCode ≤ left.keyCode)) = true := by
    rw [Bool.or_eq_true, decide_eq_true_eq, decide_eq_true_eq]
    exact Nat.le_total _ _
  have trans (a b c : Key) (first : decide (a.keyCode ≤ b.keyCode) = true) (second : decide (b.keyCode ≤ c.keyCode) = true) :
      decide (a.keyCode ≤ c.keyCode) = true := decide_eq_true (Nat.le_trans (of_decide_eq_true first) (of_decide_eq_true second))
  have sorted : (calculateKeyRanges kmap).keys.Pairwise fun left right => decide (left.keyCode ≤ right.keyCode) = true :=
    List.pairwise_mergeSort trans total _
  have different : (calculateKeyRanges kmap).keys.Pairwise fun left right => left.keyCode ≠ right.keyCode :=
    List.pairwise_map.mp ((perm.map Key.keyCode).nodup_iff.mpr distinct)
  exact (sorted.and different).imp fun both => Nat.lt_of_le_of_ne (of_decide_eq_true both.1) both.2

theorem ValidStatements.compiled {statements : List KeyStatement} (valid : ValidStatements statements) :
    ∃ runs, Compiled statements (calculateKeyRanges (parseKeysFile statements)) runs := by
  obtain ⟨means, texts⟩ := parseKeysFile_spec statements
  have codes := codes_eq means
  have keyCodes : (parseKeysFile statements).keys.map Key.keyCode = statements.map KeyStatement.keyCode := by
    have first := congrArg (List.map Prod.fst) codes
    rw [List.map_map, List.map_map] at first
    exact first
  have types : (parseKeysFile statements).keys.map (fun key => trapSize key.type) =
      statements.map fun statement => trapSize statement.meaning.type := by
    have second := congrArg (List.map fun code : Nat × KeyType => trapSize code.2) codes
    rw [List.map_map, List.map_map] at second
    exact second
  have distinct := valid.distinct
  rw [← keyCodes] at distinct
  obtain ⟨perm, sorted⟩ := sortedKeys distinct
  obtain ⟨runs, keys, count, ranges⟩ := ranges_spec sorted
  have length : runs.length = runCount (statements.map KeyStatement.code) := by
    rw [count, startCount_eq sorted, runCount_perm (perm.map Key.code), codes]
  have tables : imageSize (runs.flatMap tableItems) = (statements.map fun statement => trapSize statement.meaning.type).sum := by
    have flat : runs.flatMap tableItems = (calculateKeyRanges (parseKeysFile statements)).keys.flatMap keyItems := by
      rw [keys, List.flatMap_assoc]
      rfl
    rw [flat, imageSize_flatMap, ← types]
    simp only [imageSize_keyItems]
    exact (perm.map _).sum_nat
  have offset : stringsOffset runs = stringsStart statements := by
    unfold stringsOffset tablesOffset stringsStart
    omega
  have texts (text : List UInt8) (member : text ∈ textsOf statements) :
      text.length ≤ kKeyMapMaxByteSequenceLength ∧ ∀ byte ∈ text, byte ≠ 0 := by
    obtain ⟨statement, within, meaning⟩ := texts text member
    exact (valid.texts statement within text meaning).2
  refine ⟨runs, keys, ranges, rfl, ?_, ?_, offset, ?_, ?_, ?_, ?_⟩
  · intro key member
    have within := List.mem_map_of_mem (perm.subset member) (f := Key.keyCode)
    rw [keyCodes] at within
    obtain ⟨statement, source, same⟩ := List.mem_map.mp within
    rw [← same]
    exact valid.codes statement source
  · intro key member stringIdx trap
    obtain ⟨statement, sees⟩ := exists_means means (perm.subset member)
    have inside := sees.held stringIdx trap
    exact ⟨_, List.getElem?_eq_getElem inside, texts _ (List.getElem_mem inside)⟩
  · rw [imageSize_imageItems, offset, imageSize_flatMap]
    simp only [imageSize_textItems]
    rfl
  · intro text member
    exact Nat.le_trans (Nat.succ_le_succ (texts text member).1) (by decide)
  · intro none
    rw [none, List.flatMap_nil] at keys
    rw [keys] at perm
    have absent : statements = [] := by
      rw [perm.nil_eq.symm] at means
      cases means
      rfl
    rw [absent]
    rfl
  · intro event
    rw [← imageMeaning_eq means event]
    unfold imageMeaning
    rw [keyOf_perm perm distinct]
    rfl

section Files
variable {statements : List KeyStatement}

/-- A string that crosses a boundary is written behind the memory of the image. -/
theorem compile_fault (valid : ValidStatements statements) (unfit : ¬StringsFit statements) : compile statements = .fault := by
  obtain ⟨runs, compiled⟩ := valid.compiled
  have some : 0 < runs.length := by
    rw [List.length_pos_iff]
    intro none
    have absent := compiled.empty none
    unfold StringsFit at unfit
    rw [absent] at unfit
    exact unfit trivial
  exact compile_stops compiled.keys compiled.ranges compiled.strings some compiled.short (compiled.size ▸ valid.size)
    (compiled.offset.symm ▸ unfit) _ emitted_blank

theorem compile_faithful (valid : ValidStatements statements) (fit : StringsFit statements) : Faithful statements := by
  obtain ⟨runs, compiled⟩ := valid.compiled
  have small : imageSize (imageItems runs (textsOf statements)) ≤ 65535 := compiled.size ▸ valid.size
  have written : ∃ ckmap, compile statements = .ok () ckmap ∧ ckmap.bytes = imageOf runs (textsOf statements) := by
    by_cases some : 0 < runs.length
    · obtain ⟨ckmap, returns, emitted⟩ := compile_emits compiled.keys compiled.ranges compiled.strings some compiled.short small
        (compiled.offset.symm ▸ fit) _ emitted_blank
      exact ⟨ckmap, returns, bytes_finalLayout emitted⟩
    · have none := List.length_eq_zero_iff.mp (Nat.eq_zero_of_not_pos some)
      have ranges := compiled.ranges
      rw [compiled.empty none, none] at *
      obtain ⟨ckmap, returns, emitted⟩ := compile_empty ranges _ emitted_blank
      exact ⟨ckmap, returns, bytes_finalLayout emitted⟩
  obtain ⟨ckmap, returns, bytes⟩ := written
  refine ⟨ckmap, returns, fun event maxOutBytes room => ?_⟩
  have held : StringsHeld (runs.flatMap KeyRun.keys) (textsOf statements) maxOutBytes := by
    intro key member stringIdx trap
    obtain ⟨text, found, short, nonzero⟩ := compiled.held key (compiled.keys ▸ member) stringIdx trap
    exact ⟨text, found, Nat.le_trans short room, nonzero⟩
  rw [bytes, keyMapMap_eq small (compiled.keys ▸ compiled.codes) held (Nat.lt_of_lt_of_le (by decide) room), ← compiled.keys,
    compiled.meaning]

/-- A compiled key map means what the key file says unless a string crosses a boundary of the memory. -/
theorem compile_faithful_iff (valid : ValidStatements statements) : Faithful statements ↔ StringsFit statements := by
  refine ⟨fun faithful => ?_, compile_faithful valid⟩
  obtain ⟨ckmap, returns, -⟩ := faithful
  by_contra unfit
  rw [compile_fault valid unfit] at returns
  cases returns

end Files

/-! ### A small key file and a large one -/

def smallKeyFile : List KeyStatement :=
  [⟨0x3a, .string [0x1b, 0x5b, 0x31]⟩, ⟨0x05, .bytes 0x62 0x42 0 0⟩, ⟨0x04, .bytes 0x61 0x41 0xe5 0⟩]

def largeKeyFile : List KeyStatement :=
  (List.range 291).map (fun index => ⟨2 * index, .bytes 0x61 0x41 0 0⟩) ++ [⟨0xffff, .string (List.replicate 16 0x61)⟩]

theorem smallKeyFile_valid : ValidStatements smallKeyFile := by
  refine ⟨by decide, by decide, ?_, by decide⟩
  intro statement member text meaning
  simp only [smallKeyFile, List.mem_cons, List.not_mem_nil, or_false] at member
  rcases member with rfl | rfl | rfl
  · rw [← KeyMeaning.string.inj meaning]
    decide +kernel
  · exact KeyMeaning.noConfusion meaning
  · exact KeyMeaning.noConfusion meaning

theorem not_crosses_of_le {offset count : Nat} (small : offset + count ≤ 4096) : ¬Crosses offset count := by
  rintro ⟨k, -, below⟩
  have := Nat.two_pow_pos k
  omega

theorem smallKeyFile_faithful : Faithful smallKeyFile :=
  (compile_faithful_iff smallKeyFile_valid).mpr ⟨not_crosses_of_le (by decide), trivial⟩

theorem largeKeyFile_codes :
    largeKeyFile.map KeyStatement.keyCode = (List.range 291).map (2 * ·) ++ [0xffff] := by
  unfold largeKeyFile
  rw [List.map_append, List.map_map]
  rfl

theorem largeKeyFile_code_cases {code : Nat} (member : code ∈ largeKeyFile.map KeyStatement.keyCode) :
    (∃ index < 291, code = 2 * index) ∨ code = 0xffff := by
  rw [largeKeyFile_codes] at member
  rcases List.mem_append.mp member with character | last
  · obtain ⟨index, inside, rfl⟩ := List.mem_map.mp character
    exact .inl ⟨index, List.mem_range.mp inside, rfl⟩
  · exact .inr (List.mem_singleton.mp last)

theorem stringsStart_eq {statements : List KeyStatement} {runs traps : Nat} (count : runCount (statements.map KeyStatement.code) = runs)
    (size : (statements.map fun statement => trapSize statement.meaning.type).sum = traps) :
    stringsStart statements = 6 + 10 * runs + traps := by
  rw [← count, ← size]
  rfl

theorem compiledSize_eq {statements : List KeyStatement} {start : Nat} {texts : List (List UInt8)}
    (strings : stringsStart statements = start) (table : textsOf statements = texts) :
    compiledSize statements = start + (texts.map fun text => text.length + 1).sum := by
  rw [← strings, ← table]
  rfl

theorem largeKeyFile_start : stringsStart largeKeyFile = 4092 := by
  have codes : ∀ code ∈ largeKeyFile.map KeyStatement.code, code.1 ∈ largeKeyFile.map KeyStatement.keyCode := by
    intro code member
    obtain ⟨statement, inside, rfl⟩ := List.mem_map.mp member
    exact List.mem_map_of_mem inside
  have runs : runCount (largeKeyFile.map KeyStatement.code) = 292 := by
    have isolated : ∀ code ∈ largeKeyFile.map KeyStatement.code, startsRun (largeKeyFile.map KeyStatement.code) code = true := by
      intro code member
      refine (startsRun_iff _ code).mpr fun other before same => ?_
      rcases largeKeyFile_code_cases (codes code member) with ⟨index, _, _⟩ | _ <;>
        rcases largeKeyFile_code_cases (codes other before) with ⟨earlier, _, _⟩ | _ <;> omega
    rw [runCount, List.countP_eq_length.mpr isolated]
    decide +kernel
  have traps : (largeKeyFile.map fun statement => trapSize statement.meaning.type).sum = 1166 := by decide +kernel
  exact stringsStart_eq runs traps

theorem largeKeyFile_texts : textsOf largeKeyFile = [List.replicate 16 0x61] := by decide +kernel

theorem largeKeyFile_valid : ValidStatements largeKeyFile := by
  refine ⟨?_, ?_, ?_, ?_⟩
  · intro statement member
    rcases largeKeyFile_code_cases (List.mem_map_of_mem member) with ⟨index, _, _⟩ | _ <;> omega
  · rw [largeKeyFile_codes, List.nodup_append]
    refine ⟨?_, List.nodup_singleton _, ?_⟩
    · exact List.nodup_range.map fun first second same => Nat.eq_of_mul_eq_mul_left Nat.two_pos same
    · intro code member other last
      obtain ⟨index, inside, double⟩ := List.mem_map.mp member
      rw [List.mem_singleton.mp last]
      omega
  · intro statement member text meaning
    rcases List.mem_append.mp member with character | last
    · obtain ⟨index, -, rfl⟩ := List.mem_map.mp character
      exact KeyMeaning.noConfusion meaning
    · rw [List.mem_singleton.mp last] at meaning
      rw [← KeyMeaning.string.inj meaning]
      decide +kernel
  · rw [compiledSize_eq largeKeyFile_start largeKeyFile_texts]
    decide

theorem largeKeyFile_unfit : ¬StringsFit largeKeyFile := by
  unfold StringsFit
  rw [largeKeyFile_start, largeKeyFile_texts]
  exact fun fit => fit.1 ⟨0, by decide⟩

/-- The compiler writes behind the memory of its image. -/
theorem keyFile_not_compiled : ¬∀ statements, ValidStatements statements → Faithful statements := by
  intro all
  obtain ⟨ckmap, returns, -⟩ := all largeKeyFile largeKeyFile_valid
  rw [compile_fault largeKeyFile_valid largeKeyFile_unfit] at returns
  cases returns

end Apollo.Console
