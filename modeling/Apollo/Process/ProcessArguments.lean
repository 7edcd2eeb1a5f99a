import Apollo.Klib.Allocator
import Apollo.Lib.Regions

/-!
# The arguments of a process

`calc_size_of_arg_table` and `Process_CopyInProcessArguments_Locked`.  A table is `NULL` or
has its strings in front of a `NULL`; what the address space allocates is a parameter.
-/

set_option autoImplicit false

namespace Apollo.Process

open Klib Lib

def argMax : Nat := 65535

def sizeOfProcessArguments : Nat := 32

/-- The loop of `calc_size_of_arg_table`. -/
def calcSizeLoop (maxByteCount : Nat) : List CString → Nat → Nat
  | [], nbytes => nbytes
  | _ :: pTable, nbytes =>
    -- the loop over the characters does not count them
    let nbytes := nbytes + 4 + 1
    if nbytes > maxByteCount then nbytes else calcSizeLoop maxByteCount pTable nbytes

/-- `calc_size_of_arg_table`: the size, and the number of entries. -/
def calcSizeOfArgTable (pTable : Option (List CString)) (maxByteCount : Nat) : Nat × Nat :=
  match pTable with
  | none => (0, 0)
  | some pTable => (calcSizeLoop maxByteCount pTable 0, 1)

section Copying
variable {size : Nat} (block : Region size)

/-- `String_Copy`: the first address behind the NUL of the copy. -/
def stringCopy (pDst : Nat) : List UInt8 → (Nat → UInt8) → Option (Nat × (Nat → UInt8))
  | [], memory => do
      let memory ← block.store memory pDst [0]
      some (pDst + 1, memory)
  | ch :: pSrc, memory => do
      let memory ← block.store memory pDst [ch]
      stringCopy (pDst + 1) pSrc memory

/-- The loop over the entries of a table.  There is nothing to copy from `NULL`. -/
def copyTable (pProcTable : Nat) : Nat → List CString → Nat → (Nat → UInt8) → Option (Nat × (Nat → UInt8))
  | 0, _, pDst, memory => some (pDst, memory)
  | _ + 1, [], _, _ => none
  | count + 1, pSrc :: pSrcTable, pDst, memory => do
      let memory ← block.store memory pProcTable (beBytes 4 pDst)
      let (pDst, memory) ← stringCopy block pDst pSrc.bytes memory
      copyTable (pProcTable + 4) count pSrcTable pDst memory

/-- The part of `Process_CopyInProcessArguments_Locked` behind the allocation. -/
def copyIn (urtFuncs nArgvCount nEnvCount : Nat) (pSrcArgv pSrcEnv : List CString) (memory : Nat → UInt8) : Option (Nat → UInt8) := do
  let pProcArgs := block.base
  let pProcArgv := pProcArgs + sizeOfProcessArguments
  let pProcEnv := pProcArgv + 4 * (nArgvCount + 1)
  let pDst := pProcEnv + 4 * (nEnvCount + 1)
  let (pDst, memory) ← copyTable block pProcArgv nArgvCount pSrcArgv pDst memory
  let memory ← block.store memory (pProcArgv + 4 * nArgvCount) (beBytes 4 0)
  let (_, memory) ← copyTable block pProcEnv nEnvCount pSrcEnv pDst memory
  let memory ← block.store memory (pProcEnv + 4 * nEnvCount) (beBytes 4 0)
  block.store memory pProcArgs
    ([sizeOfProcessArguments, 0, size, nArgvCount, pProcArgv, pProcEnv, 0, urtFuncs].flatMap (beBytes 4))

end Copying

/-- What a successful copy leaves: `argumentsBase` with its block, and the memory. -/
structure Arguments where
  size : Nat
  block : Region size
  memory : Nat → UInt8

/-- The part of `Process_CopyInProcessArguments_Locked` behind the check of the size.  The address space has a block of the
size or no memory. -/
def copyInAllocated (allocate : (size : Nat) → Option (Region size)) (urtFuncs nbytesProcargs nArgvCount nEnvCount : Nat)
    (pSrcArgv pSrcEnv : List CString) (memory : Nat → UInt8) : Option (Except Errno Arguments) :=
  match allocate nbytesProcargs with
  | none => some (.error .ENOMEM)
  | some block => do
      let memory ← copyIn block urtFuncs nArgvCount nEnvCount pSrcArgv pSrcEnv memory
      some (.ok ⟨nbytesProcargs, block, memory⟩)

def copyInProcessArguments (allocate : (size : Nat) → Option (Region size)) (urtFuncs : Nat) (pArgv pEnv : Option (List CString))
    (memory : Nat → UInt8) : Option (Except Errno Arguments) :=
  let (nbytesArgv, nArgvCount) := calcSizeOfArgTable pArgv argMax
  let (nbytesEnvp, nEnvCount) := calcSizeOfArgTable pEnv argMax
  let nbytesArgvEnvp := nbytesArgv + nbytesEnvp
  if nbytesArgvEnvp > argMax then some (.error .E2BIG)
  else
    let nbytesProcargs := ceilPage (sizeOfProcessArguments + nbytesArgvEnvp)
    copyInAllocated allocate urtFuncs nbytesProcargs nArgvCount nEnvCount (pArgv.getD []) (pEnv.getD []) memory

/-! ## What a process is given -/

def spaceOf (table : List CString) : Nat := (table.map fun string => 4 + string.size).sum

/-- Pointers to the strings, and `NULL`. -/
structure TableAt {size : Nat} (block : Region size) (memory : Nat → UInt8) (pTable : Nat) (strings : List CString) : Prop where
  entry : ∀ (index : Nat) (string : CString), strings[index]? = some string →
    block.Contains (wordAt memory (pTable + 4 * index)) string.size ∧ StringAt memory (wordAt memory (pTable + 4 * index)) string
  ends : wordAt memory (pTable + 4 * strings.length) = 0

def copiesOf (memory : Nat → UInt8) (pTable : Nat) (strings : List CString) : List (Nat × Nat) :=
  strings.mapIdx fun index string => (wordAt memory (pTable + 4 * index), string.size)

structure ArgumentsAt {size : Nat} (block : Region size) (memory : Nat → UInt8) (argv envp : List CString) : Prop where
  count : wordAt memory (block.base + 12) = argv.length
  arguments : TableAt block memory (wordAt memory (block.base + 16)) argv
  environment : TableAt block memory (wordAt memory (block.base + 20)) envp
  /-- No copy shares a byte with another one. -/
  apart : (copiesOf memory (wordAt memory (block.base + 16)) argv ++ copiesOf memory (wordAt memory (block.base + 20)) envp).Pairwise
    fun first second => first.1 + first.2 ≤ second.1 ∨ second.1 + second.2 ≤ first.1

/-- The call is refused when the arguments take more than `__ARG_MAX`, and else the process has all of them. -/
def CopiesArguments (allocate : (size : Nat) → Option (Region size)) (urtFuncs : Nat) (pArgv pEnv : Option (List CString))
    (memory : Nat → UInt8) : Prop :=
  ∃ result, copyInProcessArguments allocate urtFuncs pArgv pEnv memory = some result ∧
    (result = .error .E2BIG ↔ argMax < spaceOf (pArgv.getD []) + spaceOf (pEnv.getD [])) ∧
    (result ≠ .error .E2BIG → ∃ arguments, result = .ok arguments ∧
      ArgumentsAt arguments.block arguments.memory (pArgv.getD []) (pEnv.getD []) ∧
      ∀ address, ¬arguments.block.Contains address 1 → arguments.memory address = memory address)

/-! ## The loops -/

section Loops

theorem calcSizeLoop_eq (maxByteCount : Nat) (pTable : List CString) (nbytes : Nat) :
    calcSizeLoop maxByteCount pTable nbytes = nbytes + 5 * pTable.length ∨
      maxByteCount < calcSizeLoop maxByteCount pTable nbytes ∧ maxByteCount < nbytes + 5 * pTable.length := by
  induction pTable generalizing nbytes with
  | nil => exact .inl rfl
  | cons string rest ih =>
    rw [calcSizeLoop, List.length_cons]
    by_cases long : nbytes + 4 + 1 > maxByteCount
    · rw [if_pos long]
      exact .inr ⟨long, by omega⟩
    · rw [if_neg long]
      rcases ih (nbytes + 4 + 1) with same | more
      · exact .inl (by omega)
      · exact .inr ⟨more.1, by omega⟩

variable {size : Nat} {block : Region size} {memory : Nat → UInt8} {pDst slot : Nat}

theorem stringCopy_eq (low : block.base ≤ pDst) (pSrc : List UInt8) :
    stringCopy block pDst pSrc memory =
      if pDst + (pSrc.length + 1) ≤ block.base + size then some (pDst + (pSrc.length + 1), storeBytes memory pDst (pSrc ++ [0])) else none := by
  induction pSrc generalizing pDst memory with
  | nil =>
    unfold stringCopy
    rw [List.length_nil, Nat.zero_add]
    by_cases inside : pDst + 1 ≤ block.base + size
    · have here : block.Contains pDst [(0 : UInt8)].length := ⟨low, inside⟩
      rw [Region.store_inside here, if_pos inside]
      rfl
    · rw [Region.store_outside fun both => inside both.2, if_neg inside]
      rfl
  | cons ch rest ih =>
    unfold stringCopy
    by_cases inside : pDst + 1 ≤ block.base + size
    · have next : pDst + 1 + (rest.length + 1) = pDst + (rest.length + 1 + 1) := by omega
      have whole := storeBytes_append memory pDst [ch] (rest ++ [0])
      rw [List.length_singleton] at whole
      have here : block.Contains pDst [ch].length := ⟨low, inside⟩
      rw [Region.store_inside here]
      simp only [Option.bind_eq_bind, Option.bind_some]
      rw [ih (by omega), next, whole]
      rfl
    · rw [Region.store_outside fun both => inside both.2, if_neg (by omega)]
      rfl

def copySize (strings : List CString) : Nat := (strings.map CString.size).sum

def tableWritten (slot pDst : Nat) : List CString → (Nat → UInt8) → Nat → UInt8
  | [], memory => memory
  | string :: rest, memory =>
    tableWritten (slot + 4) (pDst + string.size) rest (storeBytes (storeWord memory slot pDst) pDst (string.bytes ++ [0]))

theorem copySize_cons (string : CString) (rest : List CString) : copySize (string :: rest) = string.size + copySize rest := rfl

theorem copyTable_eq (strings more : List CString) (table : block.Contains slot 0) (copies : block.Contains pDst 0) :
    copyTable block slot strings.length (strings ++ more) pDst memory =
      if slot + 4 * strings.length ≤ block.base + size ∧ pDst + copySize strings ≤ block.base + size then
        some (pDst + copySize strings, tableWritten slot pDst strings memory)
      else none := by
  induction strings generalizing slot pDst memory with
  | nil => exact (if_pos ⟨table.2, copies.2⟩).symm
  | cons string rest ih =>
    have sizes := copySize_cons string rest
    rw [List.length_cons, List.cons_append]
    unfold copyTable
    by_cases room : block.Contains slot 4
    · rw [Region.store_inside room]
      simp only [Option.bind_eq_bind, Option.bind_some]
      rw [stringCopy_eq copies.1]
      by_cases fits : pDst + (string.bytes.length + 1) ≤ block.base + size
      · have total : pDst + (string.bytes.length + 1) + copySize rest = pDst + copySize (string :: rest) := by
          rw [sizes, CString.size]
          omega
        rw [if_pos fits]
        simp only [Option.bind_some]
        have table' : block.Contains (slot + 4) 0 := ⟨Nat.le_trans table.1 (Nat.le_add_right _ _), room.2⟩
        have copies' : block.Contains (pDst + (string.bytes.length + 1)) 0 := ⟨Nat.le_trans copies.1 (Nat.le_add_right _ _), fits⟩
        rw [ih table' copies', total]
        refine if_congr ?_ rfl rfl
        omega
      · rw [if_neg fits, if_neg fun both => fits (by have := both.2; rw [sizes, CString.size] at this; omega)]
        rfl
    · rw [Region.store_outside room, if_neg fun both => room ⟨table.1, by omega⟩]
      rfl

theorem copyTable_missing (count : Nat) (strings : List CString) (less : strings.length < count) :
    copyTable block slot count strings pDst memory = none := by
  induction strings generalizing slot pDst memory count with
  | nil =>
    obtain ⟨rest, rfl⟩ := Nat.exists_eq_succ_of_ne_zero (Nat.ne_of_gt less)
    rfl
  | cons string rest ih =>
    obtain ⟨others, rfl⟩ := Nat.exists_eq_succ_of_ne_zero (Nat.ne_of_gt (Nat.lt_of_le_of_lt (Nat.zero_le _) less))
    unfold copyTable
    cases block.store memory slot (beBytes 4 pDst) with
    | none => rfl
    | some memory =>
      simp only [Option.bind_eq_bind, Option.bind_some]
      cases stringCopy block pDst string.bytes memory with
      | none => rfl
      | some copied => exact ih others (Nat.lt_of_succ_lt_succ less)

def copies : Nat → List CString → List (Nat × Nat)
  | _, [] => []
  | pDst, string :: rest => (pDst, string.size) :: copies (pDst + string.size) rest

theorem copies_length (strings : List CString) : (copies pDst strings).length = strings.length := by
  induction strings generalizing pDst with
  | nil => rfl
  | cons string rest ih => exact congrArg (· + 1) ih

theorem copies_append (strings more : List CString) :
    copies pDst (strings ++ more) = copies pDst strings ++ copies (pDst + copySize strings) more := by
  induction strings generalizing pDst with
  | nil => rfl
  | cons string rest ih =>
    have total : pDst + string.size + copySize rest = pDst + copySize (string :: rest) := by
      rw [copySize_cons, Nat.add_assoc]
    rw [List.cons_append, copies, copies, ih, total, List.cons_append]

theorem copies_low (strings : List CString) : ∀ copy ∈ copies pDst strings, pDst ≤ copy.1 := by
  induction strings generalizing pDst with
  | nil => exact nofun
  | cons string rest ih =>
    intro copy member
    rcases List.mem_cons.mp member with rfl | later
    · exact Nat.le_refl pDst
    · exact Nat.le_trans (Nat.le_add_right _ _) (ih copy later)

/-- Each copy is behind the ones in front of it. -/
theorem copies_apart (strings : List CString) :
    (copies pDst strings).Pairwise fun first second => first.1 + first.2 ≤ second.1 ∨ second.1 + second.2 ≤ first.1 := by
  induction strings generalizing pDst with
  | nil => exact .nil
  | cons string rest ih => exact .cons (fun copy member => .inl (copies_low rest copy member)) ih

theorem tableWritten_apart {other : Nat} (strings : List CString) (slots : other < slot ∨ slot + 4 * strings.length ≤ other)
    (copied : other < pDst ∨ pDst + copySize strings ≤ other) : tableWritten slot pDst strings memory other = memory other := by
  induction strings generalizing slot pDst memory with
  | nil => rfl
  | cons string rest ih =>
    rw [List.length_cons] at slots
    rw [copySize_cons] at copied
    have width : (string.bytes ++ [0]).length = string.size := List.length_append
    rw [tableWritten, ih (by omega) (by omega), storeBytes_apart (by omega), storeWord,
      storeBytes_apart (by rw [length_beBytes]; omega)]

theorem tableWritten_entry (strings : List CString) (order : slot + 4 * strings.length ≤ pDst) (fits : pDst + copySize strings ≤ 4294967296)
    {index : Nat} {string : CString} (entry : strings[index]? = some string) :
    ∃ copy, (copies pDst strings)[index]? = some (copy, string.size) ∧ pDst ≤ copy ∧ copy + string.size ≤ pDst + copySize strings ∧
      wordAt (tableWritten slot pDst strings memory) (slot + 4 * index) = copy ∧
      StringAt (tableWritten slot pDst strings memory) copy string := by
  induction strings generalizing slot pDst memory index with
  | nil => cases entry
  | cons first rest ih =>
    rw [List.length_cons] at order
    rw [copySize_cons] at fits ⊢
    have one : 1 ≤ first.size := Nat.le_add_left _ _
    cases index with
    | zero =>
      obtain rfl : first = string := Option.some.inj entry
      have low : pDst % 4294967296 = pDst := Nat.mod_eq_of_lt (by omega)
      refine ⟨pDst, rfl, Nat.le_refl _, by omega, ?_, ?_⟩
      · have here : slot + 4 * 0 = slot := rfl
        rw [tableWritten, here,
          wordAt_congr fun index inside => tableWritten_apart rest (.inl (by omega)) (.inl (by omega)),
          wordAt_apart (by omega), wordAt_storeWord, low]
      · exact (stringAt_storeBytes _ _ _).congr fun index inside => (tableWritten_apart rest (.inr (by omega)) (.inl (by omega))).symm
    | succ index =>
      obtain ⟨copy, place, low, high, pointer, stored⟩ := @ih
        (storeBytes (storeWord memory slot pDst) pDst (first.bytes ++ [0])) (pDst + first.size) (slot + 4)
        (by omega) (by omega) index entry
      have next : slot + 4 + 4 * index = slot + 4 * (index + 1) := by omega
      rw [next] at pointer
      exact ⟨copy, place, by omega, by omega, pointer, stored⟩

end Loops

/-! ## The block -/

section Block
variable {size urtFuncs : Nat} {block : Region size} {memory : Nat → UInt8} {argv envp : List CString}

def layoutSize (argv envp : List CString) : Nat :=
  sizeOfProcessArguments + 4 * (argv.length + 1) + 4 * (envp.length + 1) + copySize argv + copySize envp

/-- The memory behind `copyIn`. -/
def argumentsWritten (base size urtFuncs : Nat) (argv envp : List CString) (memory : Nat → UInt8) : Nat → UInt8 :=
  let pProcArgv := base + sizeOfProcessArguments
  let pProcEnv := pProcArgv + 4 * (argv.length + 1)
  let pDst := pProcEnv + 4 * (envp.length + 1)
  let memory := storeWord (tableWritten pProcArgv pDst argv memory) (pProcArgv + 4 * argv.length) 0
  let memory := storeWord (tableWritten pProcEnv (pDst + copySize argv) envp memory) (pProcEnv + 4 * envp.length) 0
  storeBytes memory base ([sizeOfProcessArguments, 0, size, argv.length, pProcArgv, pProcEnv, 0, urtFuncs].flatMap (beBytes 4))

theorem copyIn_eq (moreArgv moreEnv : List CString)
    (tables : sizeOfProcessArguments + 4 * (argv.length + 1) + 4 * (envp.length + 1) ≤ size) :
    copyIn block urtFuncs argv.length envp.length (argv ++ moreArgv) (envp ++ moreEnv) memory =
      if layoutSize argv envp ≤ size then some (argumentsWritten block.base size urtFuncs argv envp memory) else none := by
  have header : sizeOfProcessArguments = 32 := rfl
  have layout : layoutSize argv envp = sizeOfProcessArguments + 4 * (argv.length + 1) + 4 * (envp.length + 1) +
    copySize argv + copySize envp := rfl
  unfold copyIn
  dsimp only
  rw [copyTable_eq _ _ ⟨by omega, by omega⟩ ⟨by omega, by omega⟩]
  by_cases first : block.base + sizeOfProcessArguments + 4 * (argv.length + 1) + 4 * (envp.length + 1) + copySize argv ≤ block.base + size
  · rw [if_pos ⟨by omega, first⟩]
    simp only [Option.bind_eq_bind, Option.bind_some]
    rw [Region.store_inside ⟨by omega, by rw [length_beBytes]; omega⟩, Option.bind_some,
      copyTable_eq _ _ ⟨by omega, by omega⟩ ⟨by omega, by omega⟩]
    by_cases second : layoutSize argv envp ≤ size
    · rw [if_pos ⟨by omega, by omega⟩, if_pos second]
      simp only [Option.bind_some]
      rw [Region.store_inside ⟨by omega, by rw [length_beBytes]; omega⟩, Option.bind_some]
      refine Region.store_inside ⟨Nat.le_refl _, ?_⟩
      rw [length_be32Table]
      simp only [List.length_cons, List.length_nil]
      omega
    · rw [if_neg fun both => second (by omega), if_neg second]
      rfl
  · rw [if_neg fun both => first both.2, if_neg (by omega)]
    rfl

def argvWritten (base : Nat) (argv envp : List CString) (memory : Nat → UInt8) : Nat → UInt8 :=
  tableWritten (base + sizeOfProcessArguments)
    (base + sizeOfProcessArguments + 4 * (argv.length + 1) + 4 * (envp.length + 1)) argv memory

def envWritten (base : Nat) (argv envp : List CString) (memory : Nat → UInt8) : Nat → UInt8 :=
  tableWritten (base + sizeOfProcessArguments + 4 * (argv.length + 1))
    (base + sizeOfProcessArguments + 4 * (argv.length + 1) + 4 * (envp.length + 1) + copySize argv) envp
    (storeWord (argvWritten base argv envp memory) (base + sizeOfProcessArguments + 4 * argv.length) 0)

variable {base other index : Nat} {string : CString}

theorem argumentsWritten_env (behind : base + sizeOfProcessArguments ≤ other)
    (apart : other < base + sizeOfProcessArguments + 4 * (argv.length + 1) + 4 * envp.length ∨
      base + sizeOfProcessArguments + 4 * (argv.length + 1) + 4 * (envp.length + 1) ≤ other) :
    argumentsWritten base size urtFuncs argv envp memory other = envWritten base argv envp memory other := by
  have descriptor : sizeOfProcessArguments = 4 * 8 := rfl
  unfold argumentsWritten
  rw [storeBytes_apart, storeWord, storeBytes_apart]
  · rfl
  · rw [length_beBytes]
    omega
  · rw [length_be32Table]
    simp only [List.length_cons, List.length_nil]
    omega

theorem envWritten_argv (apart : other < base + sizeOfProcessArguments + 4 * argv.length ∨
      base + sizeOfProcessArguments + 4 * (argv.length + 1) + 4 * (envp.length + 1) ≤ other)
    (argument : other < base + sizeOfProcessArguments + 4 * (argv.length + 1) + 4 * (envp.length + 1) + copySize argv) :
    envWritten base argv envp memory other = argvWritten base argv envp memory other := by
  unfold envWritten
  rw [tableWritten_apart _ (by omega) (.inl argument), storeWord, storeBytes_apart]
  rw [length_beBytes]
  omega

def TableCopied (block : Region size) (memory : Nat → UInt8) (pTable pDst : Nat) (strings : List CString) : Prop :=
  ∀ (index : Nat) (string : CString), strings[index]? = some string → ∃ copy, (copies pDst strings)[index]? = some (copy, string.size) ∧
    block.Contains copy string.size ∧ wordAt memory (pTable + 4 * index) = copy ∧ StringAt memory copy string

section TableCopied
variable {pTable pDst : Nat} {strings : List CString}

theorem TableCopied.tableAt (copied : TableCopied block memory pTable pDst strings)
    (ends : wordAt memory (pTable + 4 * strings.length) = 0) : TableAt block memory pTable strings where
  entry := by
    intro index string entry
    obtain ⟨copy, -, inside, pointer, stored⟩ := copied index string entry
    rw [pointer]
    exact ⟨inside, stored⟩
  ends := ends

theorem TableCopied.copiesOf_eq (copied : TableCopied block memory pTable pDst strings) :
    copiesOf memory pTable strings = copies pDst strings := by
  refine List.ext_getElem? fun index => ?_
  unfold copiesOf
  rw [List.getElem?_mapIdx]
  cases entry : strings[index]? with
  | none =>
    have behind : strings.length ≤ index := List.getElem?_eq_none_iff.mp entry
    exact (List.getElem?_eq_none (by rw [copies_length]; exact behind)).symm
  | some string =>
    obtain ⟨copy, place, -, pointer, -⟩ := copied index string entry
    rw [place, ← pointer]
    rfl

end TableCopied

theorem argumentsWritten_argv (fits : layoutSize argv envp ≤ size) :
    TableCopied block (argumentsWritten block.base size urtFuncs argv envp memory) (block.base + sizeOfProcessArguments)
      (block.base + sizeOfProcessArguments + 4 * (argv.length + 1) + 4 * (envp.length + 1)) argv := by
  intro index string entry
  have layout : layoutSize argv envp = sizeOfProcessArguments + 4 * (argv.length + 1) + 4 * (envp.length + 1) +
    copySize argv + copySize envp := rfl
  have range := block.fits
  have bound := (List.getElem?_eq_some_iff.mp entry).1
  obtain ⟨copy, place, low, high, pointer, stored⟩ := @tableWritten_entry memory
    (block.base + sizeOfProcessArguments + 4 * (argv.length + 1) + 4 * (envp.length + 1)) (block.base + sizeOfProcessArguments)
    argv (by omega) (by omega) index string entry
  refine ⟨copy, place, ⟨by omega, by omega⟩, ?_, ?_⟩
  · rw [← pointer]
    refine wordAt_congr fun byte inside => ?_
    rw [argumentsWritten_env (by omega) (.inl (by omega)), envWritten_argv (.inl (by omega)) (by omega)]
    rfl
  · refine stored.congr fun byte inside => ?_
    rw [argumentsWritten_env (by omega) (.inr (by omega)), envWritten_argv (.inr (by omega)) (by omega)]
    rfl

theorem argumentsWritten_envp (fits : layoutSize argv envp ≤ size) :
    TableCopied block (argumentsWritten block.base size urtFuncs argv envp memory)
      (block.base + sizeOfProcessArguments + 4 * (argv.length + 1))
      (block.base + sizeOfProcessArguments + 4 * (argv.length + 1) + 4 * (envp.length + 1) + copySize argv) envp := by
  intro index string entry
  have layout : layoutSize argv envp = sizeOfProcessArguments + 4 * (argv.length + 1) + 4 * (envp.length + 1) +
    copySize argv + copySize envp := rfl
  have range := block.fits
  have bound := (List.getElem?_eq_some_iff.mp entry).1
  obtain ⟨copy, place, low, high, pointer, stored⟩ := @tableWritten_entry
    (storeWord (argvWritten block.base argv envp memory) (block.base + sizeOfProcessArguments + 4 * argv.length) 0)
    (block.base + sizeOfProcessArguments + 4 * (argv.length + 1) + 4 * (envp.length + 1) + copySize argv)
    (block.base + sizeOfProcessArguments + 4 * (argv.length + 1))
    envp (by omega) (by omega) index string entry
  refine ⟨copy, place, ⟨by omega, by omega⟩, ?_, ?_⟩
  · rw [← pointer]
    refine wordAt_congr fun byte inside => ?_
    rw [argumentsWritten_env (by omega) (.inl (by omega))]
    rfl
  · refine stored.congr fun byte inside => ?_
    rw [argumentsWritten_env (by omega) (.inr (by omega))]
    rfl

theorem argumentsWritten_word {value : Nat}
    (entry : [sizeOfProcessArguments, 0, size, argv.length, base + sizeOfProcessArguments,
      base + sizeOfProcessArguments + 4 * (argv.length + 1), 0, urtFuncs][index]? = some value) (low : value < 4294967296) :
    wordAt (argumentsWritten base size urtFuncs argv envp memory) (base + 4 * index) = value :=
  (wordAt_storeWords _ base entry).trans (Nat.mod_eq_of_lt low)

theorem argumentsWritten_at (fits : layoutSize argv envp ≤ size) :
    ArgumentsAt block (argumentsWritten block.base size urtFuncs argv envp memory) argv envp := by
  have layout : layoutSize argv envp = sizeOfProcessArguments + 4 * (argv.length + 1) + 4 * (envp.length + 1) +
    copySize argv + copySize envp := rfl
  have range := block.fits
  have arguments := @argumentsWritten_argv size urtFuncs block memory argv envp fits
  have environment := @argumentsWritten_envp size urtFuncs block memory argv envp fits
  have argvAt : wordAt (argumentsWritten block.base size urtFuncs argv envp memory) (block.base + 16) = block.base + sizeOfProcessArguments :=
    @argumentsWritten_word size urtFuncs memory argv envp block.base 4 _ rfl (by omega)
  have envpAt : wordAt (argumentsWritten block.base size urtFuncs argv envp memory) (block.base + 20) =
      block.base + sizeOfProcessArguments + 4 * (argv.length + 1) :=
    @argumentsWritten_word size urtFuncs memory argv envp block.base 5 _ rfl (by omega)
  constructor
  · exact @argumentsWritten_word size urtFuncs memory argv envp block.base 3 _ rfl (by omega)
  · rw [argvAt]
    refine arguments.tableAt (Eq.trans (wordAt_congr fun byte inside => ?_) (wordAt_storeWord (argvWritten block.base argv envp memory)
      (block.base + sizeOfProcessArguments + 4 * argv.length) 0))
    rw [argumentsWritten_env (by omega) (.inl (by omega))]
    exact tableWritten_apart _ (.inl (by omega)) (.inl (by omega))
  · rw [envpAt]
    refine environment.tableAt (Eq.trans (wordAt_congr fun byte inside => ?_) (wordAt_storeWord (envWritten block.base argv envp memory)
      (block.base + sizeOfProcessArguments + 4 * (argv.length + 1) + 4 * envp.length) 0))
    refine storeBytes_apart (.inr ?_)
    have descriptor : sizeOfProcessArguments = 32 := rfl
    rw [length_be32Table]
    simp only [List.length_cons, List.length_nil]
    omega
  · rw [argvAt, envpAt, arguments.copiesOf_eq, environment.copiesOf_eq, ← copies_append]
    exact copies_apart _

theorem argumentsWritten_outside (fits : layoutSize argv envp ≤ size) (outside : ¬block.Contains other 1) :
    argumentsWritten block.base size urtFuncs argv envp memory other = memory other := by
  have descriptor : sizeOfProcessArguments = 4 * 8 := rfl
  have layout : layoutSize argv envp = sizeOfProcessArguments + 4 * (argv.length + 1) + 4 * (envp.length + 1) +
    copySize argv + copySize envp := rfl
  have apart : other < block.base ∨ block.base + size ≤ other := by
    by_cases low : block.base ≤ other
    · exact .inr (Nat.le_of_not_lt fun high => outside ⟨low, high⟩)
    · exact .inl (Nat.lt_of_not_le low)
  unfold argumentsWritten
  rw [storeBytes_apart, storeWord, storeBytes_apart (by rw [length_beBytes]; omega), tableWritten_apart _ (by omega) (by omega),
    storeWord, storeBytes_apart (by rw [length_beBytes]; omega), tableWritten_apart _ (by omega) (by omega)]
  rw [length_be32Table]
  simp only [List.length_cons, List.length_nil]
  omega

end Block

/-! ## The call -/

section Call
variable {allocate : (size : Nat) → Option (Region size)} {urtFuncs : Nat} {pArgv pEnv pTable : Option (List CString)}
  {memory : Nat → UInt8}

theorem calcSizeOfArgTable_eq (maxByteCount : Nat) (pTable : Option (List CString)) :
    (calcSizeOfArgTable pTable maxByteCount).1 = 5 * (pTable.getD []).length ∨
      maxByteCount < (calcSizeOfArgTable pTable maxByteCount).1 ∧ maxByteCount < 5 * (pTable.getD []).length := by
  cases pTable with
  | none => exact .inl rfl
  | some pTable =>
    have loop := calcSizeLoop_eq maxByteCount pTable 0
    rwa [Nat.zero_add] at loop

theorem calcSizeOfArgTable_count (maxByteCount : Nat) (pTable : Option (List CString)) :
    (calcSizeOfArgTable pTable maxByteCount).2 = if pTable.isSome then 1 else 0 := by
  cases pTable <;> rfl

theorem copyInProcessArguments_refused (many : argMax < 5 * ((pArgv.getD []).length + (pEnv.getD []).length)) :
    copyInProcessArguments allocate urtFuncs pArgv pEnv memory = some (.error .E2BIG) := by
  have first := calcSizeOfArgTable_eq argMax pArgv
  have second := calcSizeOfArgTable_eq argMax pEnv
  have long : argMax < (calcSizeOfArgTable pArgv argMax).1 + (calcSizeOfArgTable pEnv argMax).1 := by omega
  exact if_pos long

theorem copyInProcessArguments_tried (few : ¬argMax < 5 * ((pArgv.getD []).length + (pEnv.getD []).length)) :
    copyInProcessArguments allocate urtFuncs pArgv pEnv memory =
      copyInAllocated allocate urtFuncs (ceilPage (sizeOfProcessArguments + 5 * ((pArgv.getD []).length + (pEnv.getD []).length)))
        (if pArgv.isSome then 1 else 0) (if pEnv.isSome then 1 else 0) (pArgv.getD []) (pEnv.getD []) memory := by
  have first := calcSizeOfArgTable_eq argMax pArgv
  have second := calcSizeOfArgTable_eq argMax pEnv
  have total : (calcSizeOfArgTable pArgv argMax).1 + (calcSizeOfArgTable pEnv argMax).1 =
    5 * ((pArgv.getD []).length + (pEnv.getD []).length) := by omega
  have short : ¬argMax < (calcSizeOfArgTable pArgv argMax).1 + (calcSizeOfArgTable pEnv argMax).1 := by omega
  rw [← calcSizeOfArgTable_count argMax, ← calcSizeOfArgTable_count argMax, ← total]
  exact if_neg short

variable {second few : Nat} {argv envp : List CString}

theorem copyInAllocated_none {size first : Nat} (refused : allocate size = none) :
    copyInAllocated allocate urtFuncs size first second argv envp memory = some (.error .ENOMEM) := by
  unfold copyInAllocated
  rw [refused]

theorem copyInAllocated_some {size first : Nat} {block : Region size} (given : allocate size = some block) :
    copyInAllocated allocate urtFuncs size first second argv envp memory =
      (copyIn block urtFuncs first second argv envp memory).bind fun memory => some (.ok ⟨size, block, memory⟩) := by
  unfold copyInAllocated
  rw [given]
  rfl

theorem ceilPage_low (low : few ≤ argMax) : 4096 ≤ ceilPage (sizeOfProcessArguments + few) := by
  unfold ceilPage sizeOfProcessArguments
  unfold argMax at low
  omega

theorem copyIn_taken {size : Nat} {block : Region size} {first : Nat} {after : Nat → UInt8}
    (room : sizeOfProcessArguments + 4 * (first + 1) + 4 * (second + 1) ≤ size)
    (copied : copyIn block urtFuncs first second argv envp memory = some after) :
    first ≤ argv.length ∧ second ≤ envp.length ∧ layoutSize (argv.take first) (envp.take second) ≤ size ∧
      after = argumentsWritten block.base size urtFuncs (argv.take first) (envp.take second) memory := by
  have arguments : first ≤ argv.length := by
    refine Nat.le_of_not_lt fun missing => ?_
    unfold copyIn at copied
    dsimp only at copied
    rw [copyTable_missing first argv missing] at copied
    cases copied
  have environment : second ≤ envp.length := by
    refine Nat.le_of_not_lt fun missing => ?_
    obtain ⟨behind, -, copied⟩ := Option.bind_eq_some_iff.mp copied
    obtain ⟨memory, -, copied⟩ := Option.bind_eq_some_iff.mp copied
    rw [copyTable_missing second envp missing] at copied
    cases copied
  have sizes : (argv.take first).length = first ∧ (envp.take second).length = second :=
    ⟨List.length_take_of_le arguments, List.length_take_of_le environment⟩
  have whole := @copyIn_eq size urtFuncs block memory (argv.take first) (envp.take second) (argv.drop first) (envp.drop second)
    (by rw [sizes.1, sizes.2]; exact room)
  rw [List.take_append_drop, List.take_append_drop, sizes.1, sizes.2, copied] at whole
  by_cases fits : layoutSize (argv.take first) (envp.take second) ≤ size
  · rw [if_pos fits] at whole
    exact ⟨arguments, environment, fits, Option.some.inj whole⟩
  · rw [if_neg fits] at whole
    cases whole

/-- The slot behind the entries that are counted is `NULL`, which is not in the block. -/
theorem argumentsAt_taken {size : Nat} {block : Region size} {first : Nat} {after : Nat → UInt8}
    (taken : ArgumentsAt block after (argv.take first) (envp.take second)) (arguments : first ≤ argv.length)
    (environment : second ≤ envp.length) (given : ArgumentsAt block after argv envp) : argv.length = first ∧ envp.length = second := by
  have count := taken.count
  rw [List.length_take_of_le arguments] at count
  refine ⟨given.count.symm.trans count, Nat.le_antisymm (Nat.le_of_not_lt fun more => ?_) environment⟩
  have ends := taken.environment.ends
  rw [List.length_take_of_le environment] at ends
  obtain ⟨inside, -⟩ := given.environment.entry second envp[second] (List.getElem?_eq_getElem more)
  rw [ends] at inside
  exact Nat.not_lt_of_le inside.1 block.positive

theorem spaceOf_eq (table : List CString) : spaceOf table = 4 * table.length + copySize table := by
  induction table with
  | nil => rfl
  | cons string rest ih =>
    have first : spaceOf (string :: rest) = 4 + string.size + spaceOf rest := rfl
    rw [first, copySize_cons, ih, List.length_cons]
    omega

theorem length_le_copySize (table : List CString) : table.length ≤ copySize table := by
  induction table with
  | nil => exact Nat.le_refl 0
  | cons string rest ih =>
    rw [List.length_cons, copySize_cons, CString.size]
    omega

theorem count_iff (pTable : Option (List CString)) :
    (pTable.getD []).length = (if pTable.isSome then 1 else 0) ↔ ∀ table ∈ pTable, table.length = 1 := by
  cases pTable with
  | none => exact iff_of_true rfl nofun
  | some table => exact ⟨fun one other same => Option.some.inj same ▸ one, fun one => one table rfl⟩

theorem ceilPage_one (low : few ≤ 2) : ceilPage (sizeOfProcessArguments + 5 * few) = kCpuPageSize := by
  have small : (32 + 5 * few + 4095) % 4294967296 = 32 + 5 * few + 4095 := Nat.mod_eq_of_lt (by omega)
  unfold ceilPage sizeOfProcessArguments kCpuPageSize
  omega

theorem CopiesArguments.counts (copies : CopiesArguments allocate urtFuncs pArgv pEnv memory)
    (few : ¬argMax < 5 * ((pArgv.getD []).length + (pEnv.getD []).length)) :
    (pArgv.getD []).length = (if pArgv.isSome then 1 else 0) ∧ (pEnv.getD []).length = (if pEnv.isSome then 1 else 0) ∧
      layoutSize (pArgv.getD []) (pEnv.getD []) ≤ kCpuPageSize ∧ (allocate kCpuPageSize).isSome := by
  have header : sizeOfProcessArguments = 32 := rfl
  have counts (table : Option (List CString)) : (if table.isSome then 1 else 0) ≤ 1 := by split_ifs <;> decide
  have low := counts pArgv
  have low' := counts pEnv
  obtain ⟨result, returned, -, built⟩ := copies
  have page := ceilPage_low (Nat.le_of_not_lt few)
  obtain ⟨pages, size⟩ : ∃ pages, ceilPage (sizeOfProcessArguments + 5 * ((pArgv.getD []).length + (pEnv.getD []).length)) = pages :=
    ⟨_, rfl⟩
  rw [copyInProcessArguments_tried few, size] at returned
  cases allocated : allocate pages with
  | none =>
    rw [copyInAllocated_none allocated] at returned
    obtain rfl := Option.some.inj returned
    obtain ⟨arguments, impossible, -⟩ := built nofun
    cases impossible
  | some block =>
    rw [copyInAllocated_some allocated] at returned
    obtain ⟨after, copied, returned⟩ := Option.bind_eq_some_iff.mp returned
    obtain rfl := Option.some.inj returned
    obtain ⟨arguments, same, given, -⟩ := built nofun
    obtain rfl := Except.ok.inj same
    obtain ⟨first, second, fits, rfl⟩ := copyIn_taken (by omega) copied
    obtain ⟨one, one'⟩ := argumentsAt_taken (argumentsWritten_at fits) first second given
    obtain rfl := size.symm.trans (ceilPage_one (show (pArgv.getD []).length + (pEnv.getD []).length ≤ 2 by omega))
    rw [← one, ← one', List.take_length, List.take_length] at fits
    exact ⟨one, one', fits, Option.isSome_iff_exists.mpr ⟨block, allocated⟩⟩

/-- The process gets all of its arguments when they are too many by any count, or when each table has one entry at most
and everything fits into one page. -/
theorem copyInProcessArguments_copies (allocate : (size : Nat) → Option (Region size)) (urtFuncs : Nat)
    (pArgv pEnv : Option (List CString)) (memory : Nat → UInt8) :
    CopiesArguments allocate urtFuncs pArgv pEnv memory ↔
      argMax < 5 * ((pArgv.getD []).length + (pEnv.getD []).length) ∨
        (∀ table ∈ pArgv, table.length = 1) ∧ (∀ table ∈ pEnv, table.length = 1) ∧
          layoutSize (pArgv.getD []) (pEnv.getD []) ≤ kCpuPageSize ∧ (allocate kCpuPageSize).isSome := by
  have arguments := spaceOf_eq (pArgv.getD [])
  have environment := spaceOf_eq (pEnv.getD [])
  by_cases many : argMax < 5 * ((pArgv.getD []).length + (pEnv.getD []).length)
  · have long := length_le_copySize (pArgv.getD [])
    have long' := length_le_copySize (pEnv.getD [])
    exact iff_of_true ⟨_, copyInProcessArguments_refused many, iff_of_true rfl (by omega), fun other => absurd rfl other⟩ (.inl many)
  · rw [or_iff_right many, ← count_iff, ← count_iff]
    refine ⟨fun copies => copies.counts many, ?_⟩
    rintro ⟨one, one', fits, given⟩
    have counts (table : Option (List CString)) : (if table.isSome then 1 else 0) ≤ 1 := by split_ifs <;> decide
    have low := counts pArgv
    have low' := counts pEnv
    have size := ceilPage_one (show (pArgv.getD []).length + (pEnv.getD []).length ≤ 2 by omega)
    obtain ⟨block, allocated⟩ := Option.isSome_iff_exists.mp given
    have page : layoutSize (pArgv.getD []) (pEnv.getD []) = sizeOfProcessArguments + 4 * ((pArgv.getD []).length + 1) +
      4 * ((pEnv.getD []).length + 1) + copySize (pArgv.getD []) + copySize (pEnv.getD []) := rfl
    have limit : kCpuPageSize = 4096 ∧ argMax = 65535 := ⟨rfl, rfl⟩
    have copied := @copyIn_eq kCpuPageSize urtFuncs block memory (pArgv.getD []) (pEnv.getD []) [] [] (by omega)
    rw [List.append_nil, List.append_nil, if_pos fits, one, one'] at copied
    unfold CopiesArguments
    rw [copyInProcessArguments_tried many, size, copyInAllocated_some allocated, copied]
    refine ⟨_, rfl, iff_of_false nofun (by omega), fun _ => ⟨_, rfl, ?_⟩⟩
    exact ⟨argumentsWritten_at fits, fun address outside => argumentsWritten_outside fits outside⟩

/-- Of two arguments the process gets one. -/
theorem secondArgument_lost :
    ¬CopiesArguments (fun size => if fits : 4096 + size ≤ 4294967296 then some ⟨4096, by decide, fits⟩ else none) 0
      (some [⟨[0x61], by decide⟩, ⟨[0x62], by decide⟩]) none fun _ => 0 := by
  intro copies
  have one := (copies.counts (by decide)).1
  cases one

end Call

end Apollo.Process
