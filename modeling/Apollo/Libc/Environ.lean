import Apollo.Lib.Regions
import Apollo.Lib.Runs
import Mathlib.Data.List.TakeWhile

/-!
# The environment

`environ.c`.  A call that reads through `NULL`, frees what `malloc` has not returned or does not
end is none.  In `*cp++ = *cp` the right side is read before the increment or behind it; what a
caller finds where nothing was returned is a parameter of the call.  Allocations succeed.
-/

set_option autoImplicit false

namespace Apollo.Libc

open Lib

def strncmp : Nat → List UInt8 → List UInt8 → Int
  | 0, _, _ => 0
  | _ + 1, [], [] => 0
  | _ + 1, [], rhs :: _ => 0 - rhs.toNat
  | _ + 1, lhs :: _, [] => lhs.toNat - 0
  | count + 1, lhs :: lhss, rhs :: rhss => if lhs = rhs then strncmp count lhss rhss else (lhs.toNat : Int) - rhs.toNat

/-- The entries of the block in front of `environ` and those from there on, and whether `malloc` has returned the block. -/
structure Environment where
  passed : List (List UInt8)
  environ : List (List UInt8)
  freeable : Bool
  deriving DecidableEq

/-- `vname` is `name=…`. -/
def isEntryOf (name : List UInt8) (nMaxChars : Nat) (vname : List UInt8) : Bool :=
  strncmp nMaxChars name vname == 0 && vname.getD nMaxChars 0 == 61

/-- `vname` is `name=…` or just `name`. -/
def isRemoved (name : List UInt8) (nMaxChars : Nat) (vname : List UInt8) : Bool :=
  strncmp nMaxChars name vname == 0 && (vname.getD nMaxChars 0 == 61 || vname.getD nMaxChars 0 == 0)

/-- `__getenv`: the index and the value. -/
def getenvLoop (name : List UInt8) (nMaxChars : Nat) : List (List UInt8) → Nat → Option (Nat × List UInt8)
  | [], _ => none
  | vname :: rest, idx =>
    if isEntryOf name nMaxChars vname then some (idx, vname.drop (nMaxChars + 1)) else getenvLoop name nMaxChars rest (idx + 1)

/-- The inner loop of `__unsetenv`: the entries from the one that is removed on. -/
def closeGap (late : Bool) (entries : List (List UInt8)) : List (List UInt8) := if late then entries.tail else entries

/-- `__unsetenv`.  Where the gap does not close, the loop finds the same entry again. -/
def unsetenvLoop (late : Bool) (name : List UInt8) (nMaxChars : Nat) : List (List UInt8) → Option (List (List UInt8))
  | [] => some []
  | vname :: rest =>
    if isRemoved name nMaxChars vname then
      if closeGap late (vname :: rest) = rest then unsetenvLoop late name nMaxChars rest else none
    else do
      let rest ← unsetenvLoop late name nMaxChars rest
      some (vname :: rest)

namespace Environment

def unset (environment : Environment) (late : Bool) (name : List UInt8) (nMaxChars startIdx : Nat) : Option Environment := do
  let rest ← unsetenvLoop late name nMaxChars (environment.environ.drop startIdx)
  some { environment with environ := environment.environ.take startIdx ++ rest }

def putAt (environment : Environment) (entry : List UInt8) (idx : Nat) : Environment :=
  { environment with environ := environment.environ.set idx entry }

/-- `__addenv`.  `environ` gets the pointer that the copy has left behind the entries. -/
def add (environment : Environment) (entry : List UInt8) : Option Environment :=
  if environment.freeable ∧ environment.passed ≠ [] then none
  else some ⟨environment.environ ++ [entry], [], true⟩

end Environment

def createEnvEntry (name value : List UInt8) : List UInt8 := name ++ [61] ++ value

inductive EnvironCall
  | getenv (name : CString)
  | setenv (name value : Option CString) (overwrite : Bool)
  | putenv (str : Option CString)
  | unsetenv (name : Option CString)

/-- A call, and what its caller finds where it returns nothing. -/
structure EnvironRequest where
  call : EnvironCall
  leftover : Int

inductive EnvironReply
  | value (value : Option (List UInt8))
  | status (status : Int)
  deriving DecidableEq

namespace Environment

variable (environment : Environment) (late : Bool)

def getenv (name : List UInt8) : Option (List UInt8) := (getenvLoop name name.length environment.environ 0).map Prod.snd

/-- The name of a variable is not empty and has no `=`. -/
def validName (name : Option CString) : Option (List UInt8) :=
  match name with
  | none => none
  | some name => if name.bytes = [] ∨ 61 ∈ name.bytes then none else some name.bytes

def setenv (name value : Option CString) (overwrite : Bool) (leftover : Int) : Option (Int × Environment) :=
  match validName name with
  | none => some (-1, environment)
  | some name =>
    match getenvLoop name name.length environment.environ 0 with
    | some (idxOfOldEntry, _) =>
      if overwrite = false then some (0, environment)
      else
        match value with
        | none => do
            let environment ← environment.unset late name name.length idxOfOldEntry
            some (0, environment)
        | some value =>
          if value.bytes = [] then do
            let environment ← environment.unset late name name.length idxOfOldEntry
            some (0, environment)
          else do
            let environment ← (environment.putAt (createEnvEntry name value.bytes) idxOfOldEntry).unset late name name.length (idxOfOldEntry + 1)
            -- there is no return statement here
            some (leftover, environment)
    | none =>
      match value with
      | none => none
      | some value => do
          let environment ← environment.add (createEnvEntry name value.bytes)
          some (0, environment)

/-- The characters in front of the last `=`. -/
def beforeLast (str : List UInt8) : List UInt8 := (str.reverse.dropWhile (· ≠ 61)).tail.reverse

def putenv (str : Option CString) : Option (Int × Environment) :=
  match str with
  | none => some (-1, environment)
  | some str =>
    if str.bytes = [] then some (-1, environment)
    else if 61 ∉ str.bytes then do
      let environment ← environment.unset late str.bytes str.bytes.length 0
      some (0, environment)
    else do
      let environment ← environment.unset late str.bytes (beforeLast str.bytes).length 0
      let environment ← environment.add str.bytes
      some (0, environment)

def unsetenv (name : Option CString) : Option (Int × Environment) :=
  match validName name with
  | none => some (-1, environment)
  | some name => do
      let environment ← environment.unset late name name.length 0
      some (0, environment)

def perform (request : EnvironRequest) : Option (EnvironReply × Environment) :=
  match request.call with
  | .getenv name => some (.value (environment.getenv name.bytes), environment)
  | .setenv name value overwrite => (environment.setenv late name value overwrite request.leftover).map fun result => (.status result.1, result.2)
  | .putenv str => (environment.putenv late str).map fun result => (.status result.1, result.2)
  | .unsetenv name => (environment.unsetenv late name).map fun result => (.status result.1, result.2)

end Environment

/-! ## What the environment is for -/

abbrev Bindings : Type := List UInt8 → Option (List UInt8)

structure EnvironEntry where
  name : List UInt8
  value : List UInt8
  separated : 61 ∉ name
  nonzero : 0 ∉ name ∧ 0 ∉ value

def EnvironEntry.text (entry : EnvironEntry) : List UInt8 := entry.name ++ 61 :: entry.value

def bindingsOf (table : List EnvironEntry) : Bindings := fun name =>
  (table.find? fun entry => entry.name == name).map EnvironEntry.value

def given (string : Option CString) : Bool :=
  match string with
  | none => false
  | some string => string.bytes != []

def Bindings.change (bindings : Bindings) (name : List UInt8) (value : Option (List UInt8)) : Bindings := fun other =>
  if other = name then value else bindings other

def EnvironCall.bind (call : EnvironCall) (bindings : Bindings) : Bindings :=
  match call with
  | .getenv _ => bindings
  | .setenv name value overwrite =>
    match Environment.validName name with
    | none => bindings
    | some name =>
      if overwrite = false ∧ (bindings name).isSome then bindings
      else if overwrite ∧ given value = false then bindings.change name none
      else bindings.change name (some ((value.map CString.bytes).getD []))
  | .putenv str =>
    match str with
    | none => bindings
    | some str =>
      if str.bytes = [] then bindings
      else if 61 ∉ str.bytes then bindings.change str.bytes none
      else bindings.change (str.bytes.takeWhile (· ≠ 61)) (some (str.bytes.dropWhile (· ≠ 61)).tail)
  | .unsetenv name =>
    match Environment.validName name with
    | none => bindings
    | some name => bindings.change name none

def EnvironCall.reply (call : EnvironCall) (bindings : Bindings) : EnvironReply :=
  match call with
  | .getenv name => .value (bindings name.bytes)
  | .setenv name _ _ => .status (if (Environment.validName name).isSome then 0 else -1)
  | .putenv str => .status (if given str then 0 else -1)
  | .unsetenv name => .status (if (Environment.validName name).isSome then 0 else -1)

end Apollo.Libc
