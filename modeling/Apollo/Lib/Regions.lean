import Apollo.Lib.Bytes

/-!
# Regions of a byte memory

A region is a range of 32-bit addresses that does not begin at `NULL`.  An access outside
of it is none.  Numbers are stored most significant byte first.
-/

set_option autoImplicit false

namespace Apollo.Lib

structure Region (size : Nat) where
  base : Nat
  positive : 0 < base
  fits : base + size ≤ 4294967296

section Bytes
variable {memory memory' : Nat → UInt8} {address other count : Nat} {bytes more : List UInt8}

def bytesAt (memory : Nat → UInt8) (address count : Nat) : List UInt8 :=
  (List.range count).map fun index => memory (address + index)

/-- The bytes of a list, stored from `address` on. -/
def storeBytes (memory : Nat → UInt8) (address : Nat) (bytes : List UInt8) : Nat → UInt8 := fun other =>
  if address ≤ other ∧ other < address + bytes.length then bytes.getD (other - address) 0 else memory other

@[simp] theorem length_bytesAt : (bytesAt memory address count).length = count := by simp [bytesAt]

theorem bytesAt_congr (same : ∀ index < count, memory (address + index) = memory' (address + index)) :
    bytesAt memory address count = bytesAt memory' address count := by
  refine List.map_congr_left fun index inside => ?_
  exact same index (List.mem_range.mp inside)

theorem bytesAt_succ (memory : Nat → UInt8) (address count : Nat) :
    bytesAt memory address (count + 1) = memory address :: bytesAt memory (address + 1) count := by
  simp only [bytesAt, List.range_succ_eq_map, List.map_cons, List.map_map, Nat.add_zero, List.cons.injEq, true_and]
  refine List.map_congr_left fun index _ => ?_
  simp only [Function.comp, Nat.succ_eq_add_one]
  congr 1
  omega

theorem bytesAt_add (memory : Nat → UInt8) (address first second : Nat) :
    bytesAt memory address (first + second) = bytesAt memory address first ++ bytesAt memory (address + first) second := by
  induction first generalizing address with
  | zero => simp [bytesAt]
  | succ first ih =>
    have rest : address + 1 + first = address + (first + 1) := by omega
    rw [Nat.add_right_comm, bytesAt_succ, ih, bytesAt_succ, List.cons_append, rest]

theorem storeBytes_apart (apart : other < address ∨ address + bytes.length ≤ other) : storeBytes memory address bytes other = memory other :=
  if_neg (by omega)

theorem storeBytes_inside {index : Nat} (inside : index < bytes.length) :
    storeBytes memory address bytes (address + index) = bytes.getD index 0 := by
  have same : address + index - address = index := by omega
  unfold storeBytes
  rw [if_pos (by omega), same]

@[simp] theorem storeBytes_nil (memory : Nat → UInt8) (address : Nat) : storeBytes memory address [] = memory := by
  funext other
  exact if_neg (by simp only [List.length_nil]; omega)

theorem storeBytes_append (memory : Nat → UInt8) (address : Nat) (bytes more : List UInt8) :
    storeBytes (storeBytes memory address bytes) (address + bytes.length) more = storeBytes memory address (bytes ++ more) := by
  funext other
  by_cases first : address ≤ other ∧ other < address + bytes.length
  · obtain ⟨index, rfl⟩ := Nat.exists_eq_add_of_le first.1
    have inside : index < bytes.length := by omega
    rw [storeBytes_apart (by omega), storeBytes_inside inside, storeBytes_inside (by rw [List.length_append]; omega),
      List.getD_append _ _ _ _ inside]
  · by_cases second : address + bytes.length ≤ other ∧ other < address + bytes.length + more.length
    · obtain ⟨index, rfl⟩ := Nat.exists_eq_add_of_le second.1
      have inside : index < more.length := by omega
      rw [storeBytes_inside inside, Nat.add_assoc, storeBytes_inside (by rw [List.length_append]; omega),
        List.getD_append_right _ _ _ _ (Nat.le_add_right _ _), Nat.add_sub_cancel_left]
    · rw [storeBytes_apart (by omega), storeBytes_apart (by omega), storeBytes_apart (by rw [List.length_append]; omega)]

theorem bytesAt_storeBytes (memory : Nat → UInt8) (address : Nat) (bytes : List UInt8) :
    bytesAt (storeBytes memory address bytes) address bytes.length = bytes := by
  refine List.ext_getElem length_bytesAt fun index inside inside' => ?_
  simp only [bytesAt, List.getElem_map, List.getElem_range]
  rw [storeBytes_inside inside', List.getD_eq_getElem _ _ inside']

theorem bytesAt_storeBytes_part (memory : Nat → UInt8) (address : Nat) {start : Nat} (inside : start + count ≤ bytes.length) :
    bytesAt (storeBytes memory address bytes) (address + start) count = (bytes.drop start).take count := by
  refine List.ext_getElem ?_ fun index low low' => ?_
  · rw [length_bytesAt, List.length_take, List.length_drop]
    omega
  · rw [length_bytesAt] at low
    simp only [bytesAt, List.getElem_map, List.getElem_range, List.getElem_take, List.getElem_drop]
    rw [Nat.add_assoc, storeBytes_inside (by omega), List.getD_eq_getElem _ _ (by omega)]

theorem bytesAt_apart (apart : other + count ≤ address ∨ address + bytes.length ≤ other) :
    bytesAt (storeBytes memory address bytes) other count = bytesAt memory other count :=
  bytesAt_congr fun index inside => storeBytes_apart (by omega)

end Bytes

/-! ## Words -/

section Words
variable {memory : Nat → UInt8} {address other value : Nat} {bytes : List UInt8}

def beNumber (bytes : List UInt8) : Nat := bytes.foldl (fun number byte => number * 256 + byte.toNat) 0

def wordAt (memory : Nat → UInt8) (address : Nat) : Nat := beNumber (bytesAt memory address 4)

def storeWord (memory : Nat → UInt8) (address value : Nat) : Nat → UInt8 := storeBytes memory address (beBytes 4 value)

theorem beNumber_beBytes (value : Nat) : beNumber (beBytes 4 value) = value % 4294967296 := by
  have digits : beBytes 4 value = [.ofNat (value / 16777216), .ofNat (value / 65536), .ofNat (value / 256), .ofNat (value / 1)] := rfl
  rw [digits]
  simp only [beNumber, List.foldl_cons, List.foldl_nil, UInt8.toNat_ofNat', Nat.div_one]
  omega

theorem wordAt_storeWord (memory : Nat → UInt8) (address value : Nat) :
    wordAt (storeWord memory address value) address = value % 4294967296 := by
  have read := bytesAt_storeBytes memory address (beBytes 4 value)
  rw [length_beBytes] at read
  unfold wordAt storeWord
  rw [read, beNumber_beBytes]

theorem wordAt_apart (apart : other + 4 ≤ address ∨ address + bytes.length ≤ other) :
    wordAt (storeBytes memory address bytes) other = wordAt memory other := by
  unfold wordAt
  rw [bytesAt_apart apart]

theorem wordAt_congr {memory' : Nat → UInt8} (same : ∀ index < 4, memory (address + index) = memory' (address + index)) :
    wordAt memory address = wordAt memory' address := by
  unfold wordAt
  rw [bytesAt_congr same]

theorem wordAt_storeWords (memory : Nat → UInt8) (address : Nat) {words : List Nat} {index : Nat} (entry : words[index]? = some value) :
    wordAt (storeBytes memory address (words.flatMap (beBytes 4))) (address + 4 * index) = value % 4294967296 := by
  induction words generalizing memory address index with
  | nil => cases entry
  | cons word rest ih =>
    have parts := storeBytes_append memory address (beBytes 4 word) (rest.flatMap (beBytes 4))
    rw [length_beBytes] at parts
    rw [List.flatMap_cons, ← parts]
    cases index with
    | zero =>
      obtain rfl : word = value := Option.some.inj entry
      have here : address + 4 * 0 = address := rfl
      rw [here, wordAt_apart (.inl (Nat.le_refl _))]
      exact wordAt_storeWord memory address word
    | succ index =>
      have next : address + 4 * (index + 1) = address + 4 + 4 * index := by omega
      rw [next]
      exact ih _ _ entry

theorem wordAt_lt (memory : Nat → UInt8) (address : Nat) : wordAt memory address < 4294967296 := by
  have digits : bytesAt memory address 4 = [memory address, memory (address + 1), memory (address + 2), memory (address + 3)] := rfl
  unfold wordAt
  rw [digits]
  simp only [beNumber, List.foldl_cons, List.foldl_nil]
  have first := (memory address).toNat_lt
  have second := (memory (address + 1)).toNat_lt
  have third := (memory (address + 2)).toNat_lt
  have last := (memory (address + 3)).toNat_lt
  omega

theorem first_of_word (zero : wordAt memory address = 0) : memory address = 0 := by
  have digits : bytesAt memory address 4 = [memory address, memory (address + 1), memory (address + 2), memory (address + 3)] := rfl
  unfold wordAt at zero
  rw [digits] at zero
  simp only [beNumber, List.foldl_cons, List.foldl_nil] at zero
  exact UInt8.toNat_inj.mp (show (memory address).toNat = 0 by omega)

end Words

/-! ## Strings -/

structure CString where
  bytes : List UInt8
  nonzero : 0 ∉ bytes

def CString.size (string : CString) : Nat := string.bytes.length + 1

/-- The string is stored at `address`. -/
def StringAt (memory : Nat → UInt8) (address : Nat) (string : CString) : Prop :=
  bytesAt memory address string.size = string.bytes ++ [0]

theorem StringAt.congr {memory memory' : Nat → UInt8} {address : Nat} {string : CString} (stored : StringAt memory address string)
    (same : ∀ index < string.size, memory (address + index) = memory' (address + index)) : StringAt memory' address string :=
  (bytesAt_congr same).symm.trans stored

theorem stringAt_storeBytes (memory : Nat → UInt8) (address : Nat) (string : CString) :
    StringAt (storeBytes memory address (string.bytes ++ [0])) address string := by
  have read := bytesAt_storeBytes memory address (string.bytes ++ [0])
  rw [List.length_append, List.length_singleton] at read
  exact read

/-! ## Accesses -/

namespace Region

variable {size : Nat}

def Contains (region : Region size) (address count : Nat) : Prop :=
  region.base ≤ address ∧ address + count ≤ region.base + size

instance (region : Region size) (address count : Nat) : Decidable (region.Contains address count) :=
  inferInstanceAs (Decidable (_ ∧ _))

def load (region : Region size) (memory : Nat → UInt8) (address count : Nat) : Option (List UInt8) :=
  if region.Contains address count then some (bytesAt memory address count) else none

def store (region : Region size) (memory : Nat → UInt8) (address : Nat) (bytes : List UInt8) : Option (Nat → UInt8) :=
  if region.Contains address bytes.length then some (storeBytes memory address bytes) else none

variable {region : Region size} {memory : Nat → UInt8} {address count : Nat} {bytes : List UInt8}

theorem load_inside (inside : region.Contains address count) : region.load memory address count = some (bytesAt memory address count) :=
  if_pos inside

theorem load_outside (outside : ¬region.Contains address count) : region.load memory address count = none := if_neg outside

theorem store_inside (inside : region.Contains address bytes.length) :
    region.store memory address bytes = some (storeBytes memory address bytes) := if_pos inside

theorem store_outside (outside : ¬region.Contains address bytes.length) : region.store memory address bytes = none := if_neg outside

end Region

end Apollo.Lib
