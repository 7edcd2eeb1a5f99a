import Apollo.Libc.Environ

/-!
# The environment as a map

As long as no entry is added the environment keeps the values of its variables: entries are
found by their whole names, removed with all their duplicates, and replaced where they are.
-/

set_option autoImplicit false

namespace Apollo.Libc

open Lib

/-! ## Entries -/

section Entries
variable {name : List UInt8} {entry : EnvironEntry}

theorem strncmp_eq_zero (nonzero : 0 ∉ name) (vname : List UInt8) : strncmp name.length name vname = 0 ↔ name <+: vname := by
  induction name generalizing vname with
  | nil => exact iff_of_true rfl List.nil_prefix
  | cons ch rest ih =>
    rw [List.length_cons]
    cases vname with
    | nil =>
      refine iff_of_false (fun same => ?_) fun sub => nomatch List.prefix_nil.mp sub
      have zero : ch.toNat = (0 : UInt8).toNat := by
        have value : (0 : UInt8).toNat = 0 := rfl
        simp only [strncmp] at same
        omega
      exact nonzero (UInt8.toNat_inj.mp zero ▸ List.mem_cons_self)
    | cons other others =>
      rw [strncmp, List.cons_prefix_cons]
      by_cases same : ch = other
      · rw [if_pos same, ih fun member => nonzero (List.mem_cons_of_mem _ member)]
        exact (and_iff_right same).symm
      · rw [if_neg same]
        refine iff_of_false (fun zero => same (UInt8.toNat_inj.mp (by omega))) fun both => same both.1

/-- A text has one name in front of its first `=`. -/
theorem separated_inj {left right more less : List UInt8} (first : 61 ∉ left) (second : 61 ∉ right)
    (same : left ++ 61 :: more = right ++ 61 :: less) : left = right ∧ more = less := by
  induction left generalizing right with
  | nil =>
    cases right with
    | nil => exact ⟨rfl, (List.cons.inj same).2⟩
    | cons ch rest => exact absurd ((List.cons.inj same).1 ▸ List.mem_cons_self) second
  | cons ch rest ih =>
    cases right with
    | nil => exact absurd ((List.cons.inj same).1 ▸ List.mem_cons_self) first
    | cons other others =>
      obtain ⟨here, behind⟩ := List.cons.inj same
      obtain ⟨names, values⟩ := ih (fun member => first (List.mem_cons_of_mem _ member))
        (fun member => second (List.mem_cons_of_mem _ member)) behind
      exact ⟨by rw [here, names], values⟩

theorem isEntryOf_text (separated : 61 ∉ name) (nonzero : 0 ∉ name) : isEntryOf name name.length entry.text = (entry.name == name) := by
  rw [Bool.eq_iff_iff]
  unfold isEntryOf EnvironEntry.text
  rw [Bool.and_eq_true, beq_iff_eq, beq_iff_eq, beq_iff_eq, strncmp_eq_zero nonzero]
  constructor
  · rintro ⟨⟨rest, whole⟩, separator⟩
    rw [← whole, List.getD_append_right _ _ _ _ (Nat.le_refl _), Nat.sub_self] at separator
    cases rest with
    | nil => cases separator
    | cons ch rest =>
      obtain rfl : ch = 61 := separator
      exact (separated_inj separated entry.separated whole).1.symm
  · rintro rfl
    refine ⟨List.prefix_append _ _, ?_⟩
    rw [List.getD_append_right _ _ _ _ (Nat.le_refl _), Nat.sub_self]
    rfl

/-- The entries that are removed are those as well: none of them is without a value. -/
theorem isRemoved_text (separated : 61 ∉ name) (nonzero : 0 ∉ name) : isRemoved name name.length entry.text = (entry.name == name) := by
  rw [← isEntryOf_text separated nonzero, Bool.eq_iff_iff]
  unfold isRemoved isEntryOf
  rw [Bool.and_eq_true, Bool.and_eq_true, Bool.or_eq_true, beq_iff_eq, beq_iff_eq, beq_iff_eq, strncmp_eq_zero nonzero]
  refine and_congr_right fun sub => or_iff_left fun ends => ?_
  obtain ⟨rest, whole⟩ := sub
  rw [← whole, List.getD_append_right _ _ _ _ (Nat.le_refl _), Nat.sub_self] at ends
  have member : (61 : UInt8) ∈ name ++ rest := by
    rw [whole]
    exact List.mem_append_right _ List.mem_cons_self
  cases rest with
  | nil => exact separated (by rwa [List.append_nil] at member)
  | cons ch rest =>
    obtain rfl : ch = 0 := ends
    have zero : (0 : UInt8) ∈ entry.text := whole ▸ List.mem_append_right _ List.mem_cons_self
    rcases List.mem_append.mp zero with inName | inValue
    · exact entry.nonzero.1 inName
    · rcases List.mem_cons.mp inValue with impossible | inValue
      · cases impossible
      · exact entry.nonzero.2 inValue

theorem text_drop (entry : EnvironEntry) : entry.text.drop (entry.name.length + 1) = entry.value := by
  unfold EnvironEntry.text
  rw [← List.drop_drop, List.drop_left]
  rfl

end Entries

/-! ## Tables -/

section Tables
variable {name : List UInt8} {table : List EnvironEntry} {late : Bool}

theorem getenvLoop_some (separated : 61 ∉ name) (nonzero : 0 ∉ name) {start idx : Nat} {value : List UInt8}
    (found : getenvLoop name name.length (table.map EnvironEntry.text) start = some (idx, value)) :
    ∃ front entry back, table = front ++ entry :: back ∧ idx = start + front.length ∧ entry.name = name ∧ value = entry.value ∧
      ∀ other ∈ front, other.name ≠ name := by
  induction table generalizing start with
  | nil => cases found
  | cons entry rest ih =>
    rw [List.map_cons, getenvLoop, isEntryOf_text separated nonzero] at found
    by_cases same : entry.name = name
    · rw [if_pos (beq_iff_eq.mpr same), ← same, text_drop] at found
      cases found
      exact ⟨[], entry, rest, rfl, rfl, same, rfl, nofun⟩
    · rw [if_neg fun equal => same (beq_iff_eq.mp equal)] at found
      obtain ⟨front, other, back, rfl, place, named, values, apart⟩ := ih found
      exact ⟨entry :: front, other, back, rfl, by rw [place, List.length_cons]; omega, named, values,
        List.forall_mem_cons.mpr ⟨same, apart⟩⟩

theorem getenvLoop_value (separated : 61 ∉ name) (nonzero : 0 ∉ name) (start : Nat) :
    (getenvLoop name name.length (table.map EnvironEntry.text) start).map Prod.snd = bindingsOf table name := by
  induction table generalizing start with
  | nil => rfl
  | cons entry rest ih =>
    unfold bindingsOf
    rw [List.map_cons, getenvLoop, isEntryOf_text separated nonzero, List.find?_cons]
    by_cases same : entry.name = name
    · rw [if_pos (beq_iff_eq.mpr same), beq_iff_eq.mpr same, ← same, text_drop]
      rfl
    · rw [if_neg fun equal => same (beq_iff_eq.mp equal), beq_eq_false_iff_ne.mpr same]
      exact ih (start + 1)

theorem bindingsOf_eq_none : bindingsOf table name = none ↔ ∀ entry ∈ table, entry.name ≠ name := by
  unfold bindingsOf
  simp

/-- The loop takes out what has the name; where the gap does not close there must be nothing to take out. -/
theorem unsetenvLoop_eq (separated : 61 ∉ name) (nonzero : 0 ∉ name) (closes : late = true ∨ ∀ entry ∈ table, entry.name ≠ name) :
    unsetenvLoop late name name.length (table.map EnvironEntry.text) =
      some ((table.filter fun entry => entry.name != name).map EnvironEntry.text) := by
  induction table with
  | nil => rfl
  | cons entry rest ih =>
    have closes' : late = true ∨ ∀ entry ∈ rest, entry.name ≠ name :=
      closes.imp_right fun apart other member => apart other (List.mem_cons_of_mem _ member)
    rw [List.map_cons, unsetenvLoop, isRemoved_text separated nonzero, List.filter_cons]
    by_cases same : entry.name = name
    · have now : late = true := closes.resolve_right fun apart => apart entry List.mem_cons_self same
      subst now
      have gap : closeGap true (entry.text :: rest.map EnvironEntry.text) = rest.map EnvironEntry.text := rfl
      rw [if_pos (beq_iff_eq.mpr same), if_pos gap, ih closes', if_neg (by simp [same])]
    · rw [if_neg fun equal => same (beq_iff_eq.mp equal), ih closes', if_pos (bne_iff_ne.mpr same)]
      rfl

theorem bindingsOf_append (front back : List EnvironEntry) (other : List UInt8) :
    bindingsOf (front ++ back) other = (bindingsOf front other).or (bindingsOf back other) := by
  unfold bindingsOf
  rw [List.find?_append]
  cases front.find? fun entry => entry.name == other <;> rfl

theorem bindingsOf_filter (table : List EnvironEntry) (name : List UInt8) :
    bindingsOf (table.filter fun entry => entry.name != name) = (bindingsOf table).change name none := by
  funext other
  unfold Bindings.change
  by_cases same : other = name
  · rw [if_pos same, bindingsOf_eq_none]
    rw [same]
    simpa using (List.mem_filter.mp member).2
  · rw [if_neg same]
    unfold bindingsOf
    rw [List.find?_filter]
    congr 2
    funext entry
    by_cases named : entry.name = other
    · simp [named, same]
    · simp [named]

/-- The first entry with the name is replaced, and the others behind it are taken out. -/
theorem bindingsOf_replaced {front back : List EnvironEntry} {old entry : EnvironEntry} (named : entry.name = name) (named' : old.name = name)
    (apart : ∀ other ∈ front, other.name ≠ name) :
    bindingsOf (front ++ entry :: back.filter fun other => other.name != name) =
      (bindingsOf (front ++ old :: back)).change name (some entry.value) := by
  have behind := bindingsOf_filter back name
  funext other
  have here (entry : EnvironEntry) (rest : List EnvironEntry) :
      bindingsOf (entry :: rest) other = if entry.name = other then some entry.value else bindingsOf rest other := by
    unfold bindingsOf
    rw [List.find?_cons]
    by_cases same : entry.name = other
    · rw [beq_iff_eq.mpr same, if_pos same]
      rfl
    · rw [beq_eq_false_iff_ne.mpr same, if_neg same]
  unfold Bindings.change
  rw [bindingsOf_append, bindingsOf_append, here, here, named, named', behind]
  unfold Bindings.change
  by_cases same : other = name
  · rw [same, bindingsOf_eq_none.mpr apart, if_pos rfl, if_pos rfl]
    rfl
  · have same' : ¬name = other := fun equal => same equal.symm
    simp only [if_neg same, if_neg same']

end Tables

/-! ## Calls -/

/-- `environ` is the start of its block, and its entries have the values. -/
def Represents (environment : Environment) (bindings : Bindings) : Prop :=
  environment.passed = [] ∧ ∃ table : List EnvironEntry, environment.environ = table.map EnvironEntry.text ∧ bindings = bindingsOf table

/-- No entry is added; an entry is taken out only where the gap closes, and replaced only where the caller finds a 0. -/
def Meets (late : Bool) (environment : Environment) (request : EnvironRequest) : Prop :=
  match request.call with
  | .getenv name => 61 ∉ name.bytes
  | .setenv name value overwrite => ∀ valid ∈ Environment.validName name, (environment.getenv valid).isSome ∧
      (overwrite = true → (given value = false → late = true) ∧ (given value = true → request.leftover = 0 ∧
        (late = true ∨ environment.environ.countP (isEntryOf valid valid.length) = 1)))
  | .putenv str => ∀ string ∈ str, 61 ∉ string.bytes ∧ (string.bytes ≠ [] → late = true ∨ environment.getenv string.bytes = none)
  | .unsetenv name => ∀ valid ∈ Environment.validName name, late = true ∨ environment.getenv valid = none

section Calls
variable {environment after : Environment} {bindings : Bindings} {late : Bool} {name : List UInt8} {table : List EnvironEntry}

variable {string : Option CString} {leftover : Int} {idx : Nat} {old : List UInt8}

theorem validName_some (valid : Environment.validName string = some name) : 61 ∉ name ∧ 0 ∉ name := by
  unfold Environment.validName at valid
  cases string with
  | none => cases valid
  | some string =>
    dsimp only at valid
    split_ifs at valid with refused
    rw [← Option.some.inj valid]
    exact ⟨fun member => refused (.inr member), string.nonzero⟩

theorem getenv_eq (environ : environment.environ = table.map EnvironEntry.text) (separated : 61 ∉ name) (nonzero : 0 ∉ name) :
    environment.getenv name = bindingsOf table name := by
  unfold Environment.getenv
  rw [environ]
  exact getenvLoop_value separated nonzero 0

theorem unset_eq {front back : List EnvironEntry} {startIdx : Nat} (environ : environment.environ = (front ++ back).map EnvironEntry.text)
    (start : startIdx = front.length) (separated : 61 ∉ name) (nonzero : 0 ∉ name)
    (closes : late = true ∨ ∀ entry ∈ back, entry.name ≠ name) :
    environment.unset late name name.length startIdx =
      some { environment with environ := (front ++ back.filter fun entry => entry.name != name).map EnvironEntry.text } := by
  have length : startIdx = (front.map EnvironEntry.text).length := by rw [List.length_map, start]
  unfold Environment.unset
  rw [environ, List.map_append, length, List.drop_left, List.take_left, unsetenvLoop_eq separated nonzero closes, List.map_append]
  rfl

theorem Represents.unset (represents : Represents environment bindings) (separated : 61 ∉ name) (nonzero : 0 ∉ name)
    (closes : late = true ∨ environment.getenv name = none) :
    ∃ after, environment.unset late name name.length 0 = some after ∧ Represents after (bindings.change name none) := by
  obtain ⟨passed, table, environ, rfl⟩ := represents
  rw [getenv_eq environ separated nonzero, bindingsOf_eq_none] at closes
  exact ⟨_, @unset_eq environment late name [] table 0 environ rfl separated nonzero closes, passed, _, rfl, (bindingsOf_filter table name).symm⟩

theorem bind_setenv_invalid (invalid : Environment.validName string = none) (value : Option CString)
    (overwrite : Bool) (bindings : Bindings) : (EnvironCall.setenv string value overwrite).bind bindings = bindings := by
  unfold EnvironCall.bind
  dsimp only
  rw [invalid]

theorem bind_setenv (valid : Environment.validName string = some name) (value : Option CString)
    (overwrite : Bool) (bindings : Bindings) : (EnvironCall.setenv string value overwrite).bind bindings =
      if overwrite = false ∧ (bindings name).isSome then bindings
      else if overwrite ∧ given value = false then bindings.change name none
      else bindings.change name (some ((value.map CString.bytes).getD [])) := by
  unfold EnvironCall.bind
  dsimp only
  rw [valid]

/-- The part of `setenv` for a name that is in the table and whose value may be changed. -/
theorem setenv_overwrite {value : Option CString} (valid : Environment.validName string = some name) (search : getenvLoop name name.length environment.environ 0 = some (idx, old)) :
    environment.setenv late string value true leftover =
      if given value then ((environment.putAt (createEnvEntry name ((value.map CString.bytes).getD [])) idx).unset late name name.length
        (idx + 1)).map fun after => (leftover, after)
      else (environment.unset late name name.length idx).map fun after => (0, after) := by
  unfold Environment.setenv
  rw [valid]
  dsimp only
  rw [search]
  cases value with
  | none => exact Option.map_eq_bind.symm
  | some value =>
    dsimp only
    by_cases empty : value.bytes = []
    · have nothing : given (some value) = false := bne_eq_false_iff_eq.mpr empty
      rw [if_pos empty, nothing]
      exact Option.map_eq_bind.symm
    · have something : given (some value) = true := bne_iff_ne.mpr empty
      rw [if_neg empty, something, if_pos rfl]
      exact Option.map_eq_bind.symm

theorem setenv_kept {value : Option CString} (valid : Environment.validName string = some name) (search : getenvLoop name name.length environment.environ 0 = some (idx, old)) :
    environment.setenv late string value false leftover = some (0, environment) := by
  unfold Environment.setenv
  rw [valid]
  dsimp only
  rw [search]
  rfl

theorem search_some (environ : environment.environ = table.map EnvironEntry.text) (separated : 61 ∉ name) (nonzero : 0 ∉ name)
    (here : (bindingsOf table name).isSome) :
    ∃ front entry back, table = front ++ entry :: back ∧ entry.name = name ∧ (∀ other ∈ front, other.name ≠ name) ∧
      getenvLoop name name.length environment.environ 0 = some (front.length, entry.value) := by
  rw [← getenvLoop_value separated nonzero 0, Option.isSome_map] at here
  obtain ⟨⟨idx, value⟩, search⟩ := Option.isSome_iff_exists.mp here
  obtain ⟨front, entry, back, rfl, place, named, rfl, apart⟩ := getenvLoop_some separated nonzero search
  rw [Nat.zero_add] at place
  exact ⟨front, entry, back, rfl, named, apart, by rw [environ, search, place]⟩

theorem countP_one {front back : List EnvironEntry} {entry : EnvironEntry} (separated : 61 ∉ name) (nonzero : 0 ∉ name)
    (named : entry.name = name) (one : ((front ++ entry :: back).map EnvironEntry.text).countP (isEntryOf name name.length) = 1) :
    ∀ other ∈ back, other.name ≠ name := by
  intro other member same
  have here : (isEntryOf name name.length ∘ EnvironEntry.text) entry = true := by
    rw [Function.comp_apply, isEntryOf_text separated nonzero]
    exact beq_iff_eq.mpr named
  have later : 0 < back.countP (isEntryOf name name.length ∘ EnvironEntry.text) := by
    refine List.countP_pos_iff.mpr ⟨other, member, ?_⟩
    rw [Function.comp_apply, isEntryOf_text separated nonzero]
    exact beq_iff_eq.mpr same
  rw [List.countP_map, List.countP_append, List.countP_cons_of_pos here] at one
  omega

section
variable (represents : Represents environment bindings)
include represents

theorem Represents.setenv {value : Option CString} {overwrite : Bool} (meets : Meets late environment ⟨.setenv string value overwrite, leftover⟩) :
    ∃ after, environment.setenv late string value overwrite leftover =
      some (if (Environment.validName string).isSome then 0 else -1, after) ∧
      Represents after ((EnvironCall.setenv string value overwrite).bind bindings) := by
  cases valid : Environment.validName string with
  | none =>
    refine ⟨environment, ?_, (bind_setenv_invalid valid value overwrite bindings).symm ▸ represents⟩
    unfold Environment.setenv
    rw [valid]
    rfl
  | some name =>
    obtain ⟨separated, nonzero⟩ := validName_some valid
    obtain ⟨here, overwrites⟩ := meets name valid
    obtain ⟨passed, table, environ, rfl⟩ := represents
    rw [getenv_eq environ separated nonzero] at here
    rw [bind_setenv valid, Option.isSome_some, if_pos rfl]
    obtain ⟨front, old, back, rfl, named, apart, search⟩ := search_some environ separated nonzero here
    cases overwrite with
    | false =>
      rw [if_pos ⟨rfl, here⟩]
      exact ⟨environment, setenv_kept valid search, passed, _, environ, rfl⟩
    | true =>
      obtain ⟨removes, replaces⟩ := overwrites rfl
      rw [if_neg (fun both => nomatch both.1), setenv_overwrite valid search]
      cases something : given value with
      | false =>
        have kept : front ++ (old :: back).filter (fun entry => entry.name != name) =
            (front ++ old :: back).filter fun entry => entry.name != name := by
          rw [List.filter_append, List.filter_eq_self.mpr fun entry member => bne_iff_ne.mpr (apart entry member)]
        rw [if_neg (by decide), if_pos ⟨rfl, rfl⟩, unset_eq environ rfl separated nonzero (.inl (removes something))]
        refine ⟨_, rfl, passed, _, congrArg _ kept, ?_⟩
        exact (bindingsOf_filter _ name).symm
      | true =>
        obtain ⟨rfl, closes⟩ := replaces something
        have closes' : late = true ∨ ∀ entry ∈ back, entry.name ≠ name :=
          closes.imp_right fun one => countP_one separated nonzero named (environ ▸ one)
        have noNul : 0 ∉ (value.map CString.bytes).getD [] := by
          cases value with
          | none => exact List.not_mem_nil
          | some value => exact value.nonzero
        let entry : EnvironEntry := ⟨name, (value.map CString.bytes).getD [], separated, nonzero, noNul⟩
        have put : (environment.putAt (createEnvEntry name ((value.map CString.bytes).getD [])) front.length).environ =
            ((front ++ [entry]) ++ back).map EnvironEntry.text := by
          unfold Environment.putAt createEnvEntry
          rw [environ, List.map_append, List.map_cons, List.set_append_right _ _ (by rw [List.length_map]), List.length_map,
            Nat.sub_self, List.set_cons_zero, List.append_assoc, List.append_assoc, List.map_append]
          rfl
        rw [if_pos rfl, if_neg (fun both => nomatch both.2),
          unset_eq put (by rw [List.length_append]; rfl) separated nonzero closes']
        refine ⟨_, rfl, passed, _, rfl, ?_⟩
        rw [List.append_assoc, List.singleton_append]
        exact (@bindingsOf_replaced name front back old entry rfl named apart).symm

theorem Represents.putenv {str : Option CString} (meets : Meets late environment ⟨.putenv str, leftover⟩) :
    ∃ after, environment.putenv late str = some (if given str then 0 else -1, after) ∧
      Represents after ((EnvironCall.putenv str).bind bindings) := by
  cases str with
  | none => exact ⟨environment, rfl, represents⟩
  | some str =>
    obtain ⟨separated, closes⟩ := meets str rfl
    unfold Environment.putenv EnvironCall.bind
    dsimp only
    by_cases empty : str.bytes = []
    · have nothing : given (some str) = false := bne_eq_false_iff_eq.mpr empty
      rw [if_pos empty, if_pos empty, nothing]
      exact ⟨environment, rfl, represents⟩
    · have something : given (some str) = true := bne_iff_ne.mpr empty
      obtain ⟨after, removed, represents⟩ := represents.unset separated str.nonzero (closes empty)
      rw [if_neg empty, if_pos separated, if_neg empty, if_pos separated, something, removed]
      exact ⟨after, rfl, represents⟩

theorem Represents.unsetenv (meets : Meets late environment ⟨.unsetenv string, leftover⟩) :
    ∃ after, environment.unsetenv late string = some (if (Environment.validName string).isSome then 0 else -1, after) ∧
      Represents after ((EnvironCall.unsetenv string).bind bindings) := by
  unfold Environment.unsetenv EnvironCall.bind
  dsimp only
  cases valid : Environment.validName string with
  | none => exact ⟨environment, rfl, represents⟩
  | some name =>
    obtain ⟨separated, nonzero⟩ := validName_some valid
    obtain ⟨after, removed, represents⟩ := represents.unset separated nonzero (meets name valid)
    dsimp only
    rw [removed]
    exact ⟨after, rfl, represents⟩

theorem Represents.getenv {name : List UInt8} (separated : 61 ∉ name) (nonzero : 0 ∉ name) :
    environment.getenv name = bindings name := by
  obtain ⟨-, table, environ, rfl⟩ := represents
  exact getenv_eq environ separated nonzero

theorem Represents.perform {request : EnvironRequest} (meets : Meets late environment request) :
    ∃ after, environment.perform late request = some (request.call.reply bindings, after) ∧
      Represents after (request.call.bind bindings) := by
  obtain ⟨call, leftover⟩ := request
  cases call with
  | getenv name =>
    refine ⟨environment, ?_, represents⟩
    unfold Environment.perform EnvironCall.reply
    dsimp only
    rw [represents.getenv meets name.nonzero]
  | setenv name value overwrite =>
    obtain ⟨after, returned, represents⟩ := represents.setenv meets
    refine ⟨after, ?_, represents⟩
    unfold Environment.perform
    dsimp only
    rw [returned]
    rfl
  | putenv str =>
    obtain ⟨after, returned, represents⟩ := represents.putenv meets
    refine ⟨after, ?_, represents⟩
    unfold Environment.perform
    dsimp only
    rw [returned]
    rfl
  | unsetenv name =>
    obtain ⟨after, returned, represents⟩ := represents.unsetenv meets
    refine ⟨after, ?_, represents⟩
    unfold Environment.perform
    dsimp only
    rw [returned]
    rfl

end

end Calls

/-! ## Runs -/

def EnvironStep (late : Bool) (environment : Environment) (label : EnvironRequest × EnvironReply) (after : Environment) : Prop :=
  Meets late environment label.1 ∧ environment.perform late label.1 = some (label.2, after)

def bindingsBehind (initial : Bindings) : List (EnvironRequest × EnvironReply) → Bindings
  | [] => initial
  | (request, _) :: older => request.call.bind (bindingsBehind initial older)

def RepliesRight (initial : Bindings) : List (EnvironRequest × EnvironReply) → Prop
  | [] => True
  | (request, reply) :: older => reply = request.call.reply (bindingsBehind initial older) ∧ RepliesRight initial older

def Environment.start (table : List EnvironEntry) : Environment := ⟨[], table.map EnvironEntry.text, false⟩

/-- In every run whose calls meet the condition `environ` stays the start of its block, each variable has the value that was set
last, each call returns what it should, and the next call that meets the condition returns as well. -/
theorem environment_map (late : Bool) (table : List EnvironEntry) {labels : List (EnvironRequest × EnvironReply)} {state : Environment}
    (run : Runs (EnvironStep late) (.start table) labels state) :
    state.passed = [] ∧ RepliesRight (bindingsOf table) labels ∧
      (∀ name : CString, 61 ∉ name.bytes → state.getenv name.bytes = bindingsBehind (bindingsOf table) labels name.bytes) ∧
      ∀ request, Meets late state request → (state.perform late request).isSome := by
  have reached : Represents state (bindingsBehind (bindingsOf table) labels) ∧ RepliesRight (bindingsOf table) labels := by
    refine run.history (fun labels state => Represents state (bindingsBehind (bindingsOf table) labels) ∧
      RepliesRight (bindingsOf table) labels) ⟨⟨rfl, table, rfl, rfl⟩, trivial⟩ ?_
    rintro labels ⟨request, reply⟩ state after - ⟨represents, right⟩ ⟨meets, performed⟩
    obtain ⟨after', performed', represents'⟩ := represents.perform meets
    rw [performed] at performed'
    obtain ⟨same, rfl⟩ := Prod.mk.inj (Option.some.inj performed')
    exact ⟨represents', same, right⟩
  obtain ⟨represents, right⟩ := reached
  refine ⟨represents.1, right, fun name separated => represents.getenv separated name.nonzero, fun request meets => ?_⟩
  obtain ⟨after, performed, -⟩ := represents.perform meets
  rw [performed]
  rfl

def twiceNamed : List EnvironEntry := [⟨[65], [49], by decide, by decide⟩, ⟨[65], [50], by decide, by decide⟩]

theorem twiceNamed_map : (Environment.start twiceNamed).getenv [65] = some [49] ∧
    ∃ state, Runs (EnvironStep true) (.start twiceNamed)
      [(⟨.setenv (some ⟨[65], by decide⟩) (some ⟨[51], by decide⟩) true, 0⟩, .status 0)] state ∧
      state.getenv [65] = some [51] := by
  have run : Runs (EnvironStep true) (.start twiceNamed)
      [(⟨.setenv (some ⟨[65], by decide⟩) (some ⟨[51], by decide⟩) true, 0⟩, .status 0)] ⟨[], [[65, 61, 51]], false⟩ := by
    refine .step .nil ⟨?_, by decide⟩
    intro valid same
    obtain rfl := Option.some.inj same
    exact ⟨by decide, fun _ => ⟨nofun, fun _ => ⟨rfl, .inl rfl⟩⟩⟩
  exact ⟨((environment_map true twiceNamed .nil).2.2.1 ⟨[65], by decide⟩ (by decide)).trans (by decide), _, run,
    ((environment_map true twiceNamed run).2.2.1 ⟨[65], by decide⟩ (by decide)).trans (by decide)⟩

/-- `A` is set to `1` in an empty environment, and `getenv` does not find it. -/
def SetThenLost (late : Bool) : Prop :=
  ∃ after,
    (Environment.start []).perform late ⟨.setenv (some ⟨[65], by decide⟩) (some ⟨[49], by decide⟩) true, 0⟩ = some (.status 0, after) ∧
      after.perform late ⟨.getenv ⟨[65], by decide⟩, 0⟩ = some (.value none, after) ∧
      (EnvironCall.setenv (some ⟨[65], by decide⟩) (some ⟨[49], by decide⟩) true).bind (bindingsOf []) [65] = some [49]

/-- A variable that has been set is not there, whatever the order of evaluation. -/
theorem added_lost : SetThenLost false ∧ SetThenLost true :=
  ⟨⟨⟨[[65, 61, 49]], [], true⟩, by decide, by decide, by decide⟩, ⟨⟨[[65, 61, 49]], [], true⟩, by decide, by decide, by decide⟩⟩

end Apollo.Libc
