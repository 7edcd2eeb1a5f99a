import Apollo.Tools.KeyMapRanges

/-!
# The statements of a key file

The table of the keys and that of the strings hold what the statements say.  The
layout of the image only depends on the codes and the types of the keys and on the
lengths of the strings.
-/

set_option autoImplicit false

namespace Apollo.Tools

open Lib

def trapOf (strings : List (List UInt8)) (trap : KeyTrap) : KeyMeaning :=
  match trap with
  | .fourBytes unmodified shift option shiftOption => .bytes unmodified shift option shiftOption
  | .string stringIdx => .string (strings[stringIdx]?.getD [])

/-! ## The tables -/

structure Key.Means (strings : List (List UInt8)) (key : Key) (statement : KeyStatement) : Prop where
  keyCode : key.keyCode = statement.keyCode
  meaning : trapOf strings key.trap = statement.meaning
  held : ∀ stringIdx, key.trap = .string stringIdx → stringIdx < strings.length

structure Parsed (kmap : KeyMap) (statements : List KeyStatement) : Prop where
  keys : List.Forall₂ (Key.Means kmap.strings) kmap.keys statements
  strings : ∀ text ∈ kmap.strings, ∃ statement ∈ statements, statement.meaning = .string text

section Parsing
variable {kmap : KeyMap} {statements : List KeyStatement} {strings : List (List UInt8)}

theorem addAndUniqueString_spec (strings : List (List UInt8)) (text : List UInt8) :
    (∃ more, (addAndUniqueString strings text).1 = strings ++ more ∧ ∀ other ∈ more, other = text) ∧
      (addAndUniqueString strings text).1[(addAndUniqueString strings text).2]? = some text := by
  unfold addAndUniqueString
  cases found : strings.findIdx? (· == text) with
  | some index =>
    obtain ⟨inside, same, -⟩ := List.findIdx?_eq_some_iff_getElem.mp found
    refine ⟨⟨[], (List.append_nil _).symm, nofun⟩, ?_⟩
    rw [List.getElem?_eq_getElem inside, beq_iff_eq.mp same]
  | none => exact ⟨⟨[text], rfl, fun other member => List.mem_singleton.mp member⟩, List.getElem?_concat_length⟩

theorem Key.Means.append {key : Key} {statement : KeyStatement} (means : key.Means strings statement) (more : List (List UInt8)) :
    key.Means (strings ++ more) statement := by
  refine ⟨means.keyCode, ?_, fun stringIdx trap => ?_⟩
  · rw [← means.meaning]
    cases trap : key.trap with
    | fourBytes => rfl
    | string stringIdx =>
      change KeyMeaning.string ((strings ++ more)[stringIdx]?.getD []) = .string (strings[stringIdx]?.getD [])
      rw [List.getElem?_append_left (means.held stringIdx trap)]
  · rw [List.length_append]
    exact Nat.lt_of_lt_of_le (means.held stringIdx trap) (Nat.le_add_right _ _)

theorem Parsed.add (parsed : Parsed kmap statements) (statement : KeyStatement) :
    Parsed (addKeyStatement kmap statement) (statements ++ [statement]) := by
  unfold addKeyStatement
  obtain ⟨keyCode, meaning⟩ := statement
  cases meaning with
  | bytes unmodified shift option shiftOption =>
    refine ⟨List.rel_append parsed.keys (.cons ⟨rfl, rfl, nofun⟩ .nil), fun text member => ?_⟩
    obtain ⟨source, earlier, means⟩ := parsed.strings text member
    exact ⟨source, List.mem_append_left _ earlier, means⟩
  | string text =>
    obtain ⟨⟨more, table, new⟩, entry⟩ := addAndUniqueString_spec kmap.strings text
    dsimp only
    rw [table] at entry ⊢
    obtain ⟨inside, -⟩ := List.getElem?_eq_some_iff.mp entry
    refine ⟨List.rel_append (parsed.keys.imp fun key statement means => means.append more) (.cons ⟨rfl, ?_, ?_⟩ .nil), ?_⟩
    · change KeyMeaning.string ((kmap.strings ++ more)[(addAndUniqueString kmap.strings text).2]?.getD []) = .string text
      rw [entry]
      rfl
    · intro stringIdx same
      rw [← KeyTrap.string.inj same]
      exact inside
    · intro other member
      rcases List.mem_append.mp member with earlier | later
      · obtain ⟨source, before, means⟩ := parsed.strings other earlier
        exact ⟨source, List.mem_append_left _ before, means⟩
      · exact ⟨_, List.mem_append_right _ List.mem_cons_self, by rw [new other later]⟩

theorem parseKeysFile_spec (statements : List KeyStatement) : Parsed (parseKeysFile statements) statements := by
  have fold (more before : List KeyStatement) (kmap : KeyMap) (parsed : Parsed kmap before) :
      Parsed (more.foldl addKeyStatement kmap) (before ++ more) := by
    induction more generalizing before kmap with
    | nil => exact (List.append_nil before).symm ▸ parsed
    | cons statement rest ih =>
      rw [List.foldl_cons, ← List.singleton_append, ← List.append_assoc]
      exact ih _ _ (parsed.add statement)
  exact fold statements [] _ ⟨.nil, nofun⟩

end Parsing

/-! ## The layout -/

def KeyMeaning.type : KeyMeaning → KeyType
  | bytes .. => .fourBytes
  | string _ => .string

def Key.code (key : Key) : Nat × KeyType := (key.keyCode, key.type)

def KeyStatement.code (statement : KeyStatement) : Nat × KeyType := (statement.keyCode, statement.meaning.type)

def startsRun (codes : List (Nat × KeyType)) (code : Nat × KeyType) : Bool :=
  codes.all fun other => !(decide (other.1 + 1 = code.1) && decide (other.2 = code.2))

def runCount (codes : List (Nat × KeyType)) : Nat := codes.countP (startsRun codes)

def stringsStart (statements : List KeyStatement) : Nat :=
  6 + 10 * runCount (statements.map KeyStatement.code) + (statements.map fun statement => trapSize statement.meaning.type).sum

/-- The different strings of the statements, in the order of their first occurrences. -/
def textsOf (statements : List KeyStatement) : List (List UInt8) := (parseKeysFile statements).strings

def compiledSize (statements : List KeyStatement) : Nat :=
  stringsStart statements + ((textsOf statements).map fun text => text.length + 1).sum

section Layout
variable {strings : List (List UInt8)} {keys : List Key} {statements : List KeyStatement}

theorem startsRun_iff (codes : List (Nat × KeyType)) (code : Nat × KeyType) :
    startsRun codes code = true ↔ ∀ other ∈ codes, ¬(other.1 + 1 = code.1 ∧ other.2 = code.2) := by
  unfold startsRun
  rw [List.all_eq_true]
  refine forall₂_congr fun other _ => ?_
  rw [Bool.not_eq_true', Bool.and_eq_false_iff, decide_eq_false_iff_not, decide_eq_false_iff_not, not_and_or]

theorem runCount_perm {codes others : List (Nat × KeyType)} (same : codes.Perm others) : runCount codes = runCount others := by
  unfold runCount
  rw [same.countP_eq]
  refine List.countP_congr fun code _ => ?_
  rw [startsRun_iff, startsRun_iff]
  exact forall_congr' fun other => by rw [same.mem_iff]

theorem startsRange_eq {front rest : List Key} {key : Key}
    (sorted : (front ++ key :: rest).Pairwise fun left right => left.keyCode < right.keyCode) :
    startsRange front.getLast? key = startsRun ((front ++ key :: rest).map Key.code) key.code := by
  obtain ⟨earlier, later, between⟩ := List.pairwise_append.mp sorted
  have above (other : Key) (member : other ∈ key :: rest) : key.keyCode ≤ other.keyCode := by
    rcases List.mem_cons.mp member with rfl | member
    · exact Nat.le_refl _
    · exact Nat.le_of_lt ((List.pairwise_cons.mp later).1 other member)
  rw [Bool.eq_iff_iff, startsRun_iff]
  rcases List.eq_nil_or_concat' front with rfl | ⟨init, previous, rfl⟩
  · refine ⟨fun _ other member same => ?_, fun _ => rfl⟩
    obtain ⟨source, within, rfl⟩ := List.mem_map.mp member
    have := above source within
    have code : source.keyCode + 1 = key.keyCode := same.1
    omega
  · rw [List.getLast?_concat]
    have next : previous.keyCode < key.keyCode :=
      between previous (List.mem_append_right _ List.mem_cons_self) key List.mem_cons_self
    have starts : startsRange (some previous) key = true ↔ ¬(previous.keyCode + 1 = key.keyCode ∧ previous.type = key.type) := by
      unfold startsRange
      simp only [Bool.or_eq_true, decide_eq_true_eq, bne_iff_ne, ne_eq]
      refine ⟨fun starts same => ?_, fun apart => ?_⟩
      · rcases starts with far | other
        · omega
        · exact other same.2.symm
      · by_cases far : (key.keyCode : Int) - previous.keyCode > 1
        · exact .inl far
        · exact .inr fun same => apart ⟨by omega, same.symm⟩
    rw [starts]
    refine ⟨fun apart other member same => ?_, fun all same => all previous.code ?_ same⟩
    · obtain ⟨source, within, rfl⟩ := List.mem_map.mp member
      have code : source.keyCode + 1 = key.keyCode := same.1
      rcases List.mem_append.mp within with before | behind
      · rcases List.mem_append.mp before with inner | last
        · have := (List.pairwise_append.mp earlier).2.2 source inner previous List.mem_cons_self
          omega
        · rw [List.mem_singleton.mp last] at code same
          exact apart ⟨code, same.2⟩
      · have := above source behind
        omega
    · exact List.mem_map_of_mem (List.mem_append_left _ (List.mem_append_right _ List.mem_cons_self))

theorem startCount_eq (sorted : keys.Pairwise fun left right => left.keyCode < right.keyCode) :
    startCount none keys = runCount (keys.map Key.code) := by
  have behind (rest front : List Key) (sorted : (front ++ rest).Pairwise fun left right => left.keyCode < right.keyCode) :
      startCount front.getLast? rest = (rest.map Key.code).countP (startsRun ((front ++ rest).map Key.code)) := by
    induction rest generalizing front with
    | nil => rfl
    | cons key rest ih =>
      have shift : front ++ key :: rest = front ++ [key] ++ rest := by rw [List.append_assoc, List.singleton_append]
      have later := ih (front ++ [key]) (shift ▸ sorted)
      rw [List.getLast?_concat, ← shift] at later
      rw [startCount, later, startsRange_eq sorted, List.map_cons, List.countP_cons, Nat.add_comm]
  exact behind keys [] sorted

theorem Key.Means.code {key : Key} {statement : KeyStatement} (means : key.Means strings statement) : key.code = statement.code := by
  unfold Key.code KeyStatement.code
  rw [means.keyCode, ← means.meaning]
  unfold Key.type
  cases key.trap with
  | fourBytes => rfl
  | string => rfl

theorem codes_eq (means : List.Forall₂ (Key.Means strings) keys statements) :
    keys.map Key.code = statements.map KeyStatement.code := by
  induction means with
  | nil => rfl
  | cons first rest ih => rw [List.map_cons, List.map_cons, first.code, ih]

theorem exists_means (means : List.Forall₂ (Key.Means strings) keys statements) {key : Key} (member : key ∈ keys) :
    ∃ statement, key.Means strings statement := by
  induction means with
  | nil => exact absurd member List.not_mem_nil
  | cons first rest ih =>
    rcases List.mem_cons.mp member with rfl | later
    · exact ⟨_, first⟩
    · exact ih later

end Layout

end Apollo.Tools
