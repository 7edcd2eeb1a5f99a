import Apollo.Libc.Stream
import Mathlib.Algebra.Group.Nat.Defs

/-!
# Reading and writing items

`fread` and `fwrite`, which read and write their items byte by byte; a size has 32 bits.  What the callbacks of a
stream answer to one call after the other is a parameter.
-/

set_option autoImplicit false

namespace Apollo.Libc

/-- A callback has moved its byte, has moved none, or has failed. -/
inductive Answer (α : Type)
  | done (value : α)
  | endOfFile
  | error (reason : Errno)
  deriving DecidableEq

def Answer.isDone {α : Type} : Answer α → Bool
  | done _ => true
  | endOfFile => false
  | error _ => false

/-- A stream, the calls of `fgetc` and `fputc` it has seen, and the bytes its callback has accepted. -/
structure ItemStream where
  mode : Nat
  hasError : Bool
  hasEof : Bool
  errno : Option Errno
  calls : Nat
  accepted : List UInt8
  deriving DecidableEq

namespace ItemStream

variable {α : Type}

/-- What comes of a call that needs `flag`. -/
def answer (flag : Nat) (answers : Nat → Answer α) (s : ItemStream) : Answer α :=
  if s.mode &&& flag = 0 then .error .EBADF else answers s.calls

def answered (answer : Answer α) (s : ItemStream) : ItemStream :=
  match answer with
  | .done _ => { s with calls := s.calls + 1, hasEof := false }
  | .endOfFile => { s with calls := s.calls + 1, hasEof := true }
  | .error reason => { s with calls := s.calls + 1, hasError := true, errno := some reason }

/-- `fgetc`; no character is `EOF`. -/
def fgetc (answers : Nat → Answer UInt8) (s : ItemStream) : Option UInt8 × ItemStream :=
  match s.answer kStreamModeRead answers with
  | .done buf => (some buf, s.answered (.done buf))
  | failure => (none, s.answered failure)

def fputc (answers : Nat → Answer Unit) (ch : UInt8) (s : ItemStream) : Option UInt8 × ItemStream :=
  match s.answer kStreamModeWrite answers with
  | .done taken => (some ch, { s.answered (.done taken) with accepted := s.accepted ++ [ch] })
  | failure => (none, s.answered failure)

/-- The loop of `fread`: the bytes read, the buffer and the stream. -/
def freadLoop (answers : Nat → Answer UInt8) :
    Nat → Nat → (Nat → UInt8) → ItemStream → Nat × (Nat → UInt8) × ItemStream
  | 0, nBytesRead, buffer, s => (nBytesRead, buffer, s)
  | nBytesToRead + 1, nBytesRead, buffer, s =>
    match s.fgetc answers with
    | (none, s) => (nBytesRead, buffer, s)
    | (some ch, s) => freadLoop answers nBytesToRead (nBytesRead + 1) (Function.update buffer nBytesRead ch) s

def fread (answers : Nat → Answer UInt8) (buffer : Nat → UInt8) (size count : UInt32) (s : ItemStream) :
    Nat × (Nat → UInt8) × ItemStream :=
  if size = 0 ∨ count = 0 then (0, buffer, s)
  else
    let (nBytesRead, buffer, s) := freadLoop answers (size * count).toNat 0 buffer s
    (nBytesRead / size.toNat, buffer, s)

/-- The loop of `fwrite`: the bytes written, with the one that was refused, and the stream. -/
def fwriteLoop (answers : Nat → Answer Unit) (buffer : Nat → UInt8) : Nat → Nat → ItemStream → Nat × ItemStream
  | 0, nBytesWritten, s => (nBytesWritten, s)
  | nBytesToWrite + 1, nBytesWritten, s =>
    match s.fputc answers (buffer nBytesWritten) with
    | (none, s) => (nBytesWritten + 1, s)
    | (some _, s) => fwriteLoop answers buffer nBytesToWrite (nBytesWritten + 1) s

def fwrite (answers : Nat → Answer Unit) (buffer : Nat → UInt8) (size count : UInt32) (s : ItemStream) :
    Nat × ItemStream :=
  if size = 0 ∨ count = 0 then (0, s)
  else
    let (nBytesWritten, s) := fwriteLoop answers buffer (size * count).toNat 0 s
    (nBytesWritten / size.toNat, s)

/-! ## The bytes that are moved -/

variable {answers : Nat → Answer α} {flag mode : Nat} {s : ItemStream}

def Serves (flag : Nat) (answers : Nat → Answer α) (mode : Nat) (call : Nat) : Prop :=
  mode &&& flag ≠ 0 ∧ (answers call).isDone = true

instance (flag : Nat) (answers : Nat → Answer α) (mode call : Nat) : Decidable (Serves flag answers mode call) :=
  inferInstanceAs (Decidable (_ ∧ _))

/-- How many of `limit` calls, the next one being `call`, move their bytes before one does not. -/
def served (flag : Nat) (answers : Nat → Answer α) (mode : Nat) : Nat → Nat → Nat
  | 0, _ => 0
  | limit + 1, call => if Serves flag answers mode call then served flag answers mode limit (call + 1) + 1 else 0

theorem served_le (limit : Nat) : ∀ call, served flag answers mode limit call ≤ limit := by
  induction limit with
  | zero => exact fun _ => le_refl _
  | succ limit ih =>
    intro call
    rw [served]
    split
    · exact Nat.succ_le_succ (ih _)
    · exact Nat.zero_le _

/-- Fewer calls move fewer bytes, but not before one fails. -/
theorem served_of_le (limit : Nat) :
    ∀ (fewer call : Nat), fewer ≤ limit →
      served flag answers mode fewer call = min fewer (served flag answers mode limit call) := by
  induction limit with
  | zero =>
    intro fewer call le
    rw [Nat.le_zero.mp le]
    rfl
  | succ limit ih =>
    intro fewer call le
    cases fewer with
    | zero => simp [served]
    | succ fewer =>
      rw [served, served, ih fewer (call + 1) (Nat.le_of_succ_le_succ le)]
      split
      case isTrue => omega
      case isFalse => rfl

def callsMade (limit served : Nat) : Nat := if served < limit then served + 1 else limit

theorem served_callsMade (limit call : Nat) :
    served flag answers mode (callsMade limit (served flag answers mode limit call)) call =
      served flag answers mode limit call := by
  rw [callsMade]
  split
  case isTrue less =>
    rw [served_of_le limit _ call less]
    omega
  case isFalse => rfl

theorem answered_calls (answer : Answer α) (s : ItemStream) :
    (s.answered answer).calls = s.calls + 1 ∧ (s.answered answer).mode = s.mode ∧
      (s.answered answer).accepted = s.accepted := by
  cases answer <;> exact ⟨rfl, rfl, rfl⟩

theorem answer_of_serves (serves : Serves flag answers s.mode s.calls) :
    ∃ value, answers s.calls = .done value ∧ s.answer flag answers = .done value := by
  obtain ⟨mode, done⟩ := serves
  cases answered : answers s.calls with
  | done value => exact ⟨value, rfl, (if_neg mode).trans answered⟩
  | endOfFile => simp [answered, Answer.isDone] at done
  | error reason => simp [answered, Answer.isDone] at done

theorem answer_of_fails (fails : ¬Serves flag answers s.mode s.calls) : (s.answer flag answers).isDone = false := by
  rw [answer]
  split
  case isTrue => rfl
  case isFalse mode => exact Bool.eq_false_iff.mpr fun done => fails ⟨mode, done⟩

/-! ## Reading -/

theorem fgetc_of_serves {answers : Nat → Answer UInt8} (serves : Serves kStreamModeRead answers s.mode s.calls) :
    ∃ ch after, s.fgetc answers = (some ch, after) ∧ answers s.calls = .done ch ∧ after.calls = s.calls + 1 ∧
      after.mode = s.mode := by
  obtain ⟨ch, given, answered⟩ := answer_of_serves serves
  have flags := answered_calls (.done ch) s
  refine ⟨ch, s.answered (.done ch), ?_, given, flags.1, flags.2.1⟩
  rw [fgetc, answered]

theorem fgetc_of_fails {answers : Nat → Answer UInt8} (fails : ¬Serves kStreamModeRead answers s.mode s.calls) :
    ∃ after, s.fgetc answers = (none, after) ∧ after.calls = s.calls + 1 := by
  have failed := answer_of_fails fails
  rw [fgetc]
  cases answered : s.answer kStreamModeRead answers with
  | done value => simp [answered, Answer.isDone] at failed
  | endOfFile => exact ⟨_, rfl, rfl⟩
  | error reason => exact ⟨_, rfl, rfl⟩

/-- What `fread` leaves when `moved` of the bytes that it asks for are delivered. -/
structure Fetched (answers : Nat → Answer UInt8) (limit done moved : Nat) (buffer : Nat → UInt8) (s : ItemStream)
    (result : Nat × (Nat → UInt8) × ItemStream) : Prop where
  count : result.1 = done + moved
  stored : ∀ i < moved, answers (s.calls + i) = .done (result.2.1 (done + i))
  frame : ∀ i, i < done ∨ done + moved ≤ i → result.2.1 i = buffer i
  calls : result.2.2.calls = s.calls + callsMade limit moved

theorem freadLoop_fetched (answers : Nat → Answer UInt8) (limit : Nat) :
    ∀ (done : Nat) (buffer : Nat → UInt8) (s : ItemStream),
      Fetched answers limit done (served kStreamModeRead answers s.mode limit s.calls) buffer s
        (freadLoop answers limit done buffer s) := by
  induction limit with
  | zero => exact fun done buffer s => ⟨rfl, nofun, fun _ _ => rfl, rfl⟩
  | succ limit ih =>
    intro done buffer s
    rw [freadLoop, served]
    by_cases serves : Serves kStreamModeRead answers s.mode s.calls
    · obtain ⟨ch, after, call, given, calls, mode⟩ := fgetc_of_serves serves
      have rest := ih (done + 1) (Function.update buffer done ch) after
      rw [calls, mode] at rest
      rw [call, if_pos serves]
      refine ⟨?_, ?_, ?_, ?_⟩
      · rw [rest.count]
        omega
      · intro i less
        cases i with
        | zero =>
          have kept := rest.frame done (.inl (Nat.lt_succ_self _))
          rw [Function.update_self] at kept
          rw [Nat.add_zero done, kept]
          exact given
        | succ i =>
          have stored := rest.stored i (Nat.lt_of_succ_lt_succ less)
          rw [calls] at stored
          rw [← Nat.add_assoc, Nat.add_right_comm, stored, Nat.add_right_comm done 1 i, Nat.add_assoc]
      · intro i outside
        rw [rest.frame i (by omega), Function.update_of_ne (by omega)]
      · rw [rest.calls, calls, callsMade, callsMade]
        split <;> split <;> omega
    · obtain ⟨after, call, calls⟩ := fgetc_of_fails serves
      rw [call, if_neg serves]
      exact ⟨rfl, nofun, fun _ _ => rfl, calls⟩

/-! ## Writing -/

theorem fputc_of_serves {answers : Nat → Answer Unit} (ch : UInt8) (serves : Serves kStreamModeWrite answers s.mode s.calls) :
    ∃ after, s.fputc answers ch = (some ch, after) ∧ after.calls = s.calls + 1 ∧ after.mode = s.mode ∧
      after.accepted = s.accepted ++ [ch] := by
  obtain ⟨taken, -, answered⟩ := answer_of_serves serves
  have flags := answered_calls (.done taken) s
  refine ⟨{ s.answered (.done taken) with accepted := s.accepted ++ [ch] }, ?_, flags.1, flags.2.1, rfl⟩
  rw [fputc, answered]

theorem fputc_of_fails {answers : Nat → Answer Unit} (ch : UInt8) (fails : ¬Serves kStreamModeWrite answers s.mode s.calls) :
    ∃ after, s.fputc answers ch = (none, after) ∧ after.calls = s.calls + 1 ∧ after.accepted = s.accepted := by
  have failed := answer_of_fails fails
  rw [fputc]
  cases answered : s.answer kStreamModeWrite answers with
  | done value => simp [answered, Answer.isDone] at failed
  | endOfFile => exact ⟨_, rfl, rfl, rfl⟩
  | error reason => exact ⟨_, rfl, rfl, rfl⟩

/-- What `fwrite` leaves when `moved` of the bytes that it offers are accepted. -/
structure Stored (limit done moved : Nat) (buffer : Nat → UInt8) (s : ItemStream) (result : Nat × ItemStream) : Prop where
  count : result.1 = done + callsMade limit moved
  accepted : result.2.accepted = s.accepted ++ (List.range' done moved).map buffer
  calls : result.2.calls = s.calls + callsMade limit moved

theorem fwriteLoop_stored (answers : Nat → Answer Unit) (buffer : Nat → UInt8) (limit : Nat) :
    ∀ (done : Nat) (s : ItemStream),
      Stored limit done (served kStreamModeWrite answers s.mode limit s.calls) buffer s
        (fwriteLoop answers buffer limit done s) := by
  induction limit with
  | zero => exact fun done s => ⟨rfl, (List.append_nil _).symm, rfl⟩
  | succ limit ih =>
    intro done s
    rw [fwriteLoop, served]
    by_cases serves : Serves kStreamModeWrite answers s.mode s.calls
    · obtain ⟨after, call, calls, mode, accepted⟩ := fputc_of_serves (buffer done) serves
      have rest := ih (done + 1) after
      rw [calls, mode] at rest
      rw [call, if_pos serves]
      refine ⟨?_, ?_, ?_⟩
      · rw [rest.count, callsMade, callsMade]
        split <;> split <;> omega
      · rw [rest.accepted, accepted, List.append_assoc, List.range'_succ]
        rfl
      · rw [rest.calls, calls, callsMade, callsMade]
        split <;> split <;> omega
    · obtain ⟨after, call, calls, accepted⟩ := fputc_of_fails (buffer done) serves
      rw [call, if_neg serves]
      exact ⟨rfl, by rw [accepted]; simp, calls⟩

/-! ## Whole items -/

/-- A call that has moved `moved` bytes reports them in whole items, and all items when it made no
call that failed.  Items without bytes are not counted. -/
structure ReportsItems (size count : UInt32) (moved made returned : Nat) : Prop where
  items : returned = moved / size.toNat
  atMost : returned ≤ count.toNat
  all : moved = made → 0 < size.toNat → returned = count.toNat

structure WritesItems (buffer : Nat → UInt8) (size count : UInt32) (s : ItemStream) (result : Nat × ItemStream) : Prop where
  reports : ReportsItems size count (result.2.accepted.length - s.accepted.length) (result.2.calls - s.calls) result.1
  accepted : ∃ moved, result.2.accepted = s.accepted ++ (List.range moved).map buffer

/-- The bytes that the calls behind `before` have delivered. -/
def delivered (answers : Nat → Answer UInt8) (before after : ItemStream) : Nat :=
  served kStreamModeRead answers before.mode (after.calls - before.calls) before.calls

/-- `fread` reports the items that it has stored, and stores nothing behind the buffer. -/
structure ReadsItems (answers : Nat → Answer UInt8) (buffer : Nat → UInt8) (size count : UInt32) (s : ItemStream)
    (result : Nat × (Nat → UInt8) × ItemStream) : Prop where
  reports : ReportsItems size count (delivered answers s result.2.2) (result.2.2.calls - s.calls) result.1
  stored : ∀ i < delivered answers s result.2.2, answers (s.calls + i) = .done (result.2.1 i)
  inside : ∀ i, size.toNat * count.toNat ≤ i → result.2.1 i = buffer i

/-- The report of a call that asks for the wrapped product, with the bytes it counts. -/
theorem reportsItems_iff {size count : UInt32} {moved counted : Nat} (positive : 0 < size.toNat)
    (fits : moved ≤ (size * count).toNat) (counts : counted = moved ∨ moved < (size * count).toNat ∧ counted = moved + 1) :
    ReportsItems size count moved (callsMade (size * count).toNat moved) (counted / size.toNat) ↔
      (counted = moved ∨ ¬size.toNat ∣ moved + 1) ∧ (moved = (size * count).toNat → size.toNat * count.toNat < 2 ^ 32) := by
  have wrapped : (size * count).toNat = size.toNat * count.toNat % 2 ^ 32 := UInt32.toNat_mul ..
  have items : counted / size.toNat = moved / size.toNat ↔ counted = moved ∨ ¬size.toNat ∣ moved + 1 := by
    rcases counts with rfl | ⟨-, rfl⟩
    · exact iff_of_true rfl (.inl rfl)
    · rw [Nat.succ_div]
      split <;> simp_all
  have atMost : counted / size.toNat ≤ count.toNat := by
    have bound : counted ≤ size.toNat * count.toNat := by omega
    exact Nat.div_le_of_le_mul bound
  have made : moved = callsMade (size * count).toNat moved ↔ moved = (size * count).toNat := by
    rw [callsMade]
    split <;> omega
  constructor
  · intro reports
    refine ⟨items.mp reports.items, fun whole => ?_⟩
    have all := reports.all (made.mpr whole) positive
    rw [reports.items] at all
    by_contra large
    have less : moved < size.toNat * count.toNat := by omega
    exact absurd all (Nat.div_lt_of_lt_mul less).ne
  · rintro ⟨same, small⟩
    refine ⟨items.mpr same, atMost, fun whole _ => ?_⟩
    have whole := made.mp whole
    have total : moved = size.toNat * count.toNat := by
      rw [whole, wrapped, Nat.mod_eq_of_lt (small whole)]
    rw [items.mpr same, total, Nat.mul_div_cancel_left _ positive]

theorem product_of_zero {size count : UInt32} (zero : size = 0 ∨ count = 0) :
    (size * count).toNat = 0 ∧ size.toNat * count.toNat = 0 := by
  rcases zero with rfl | rfl <;> simp

theorem ReportsItems.none {size count : UInt32} (zero : size = 0 ∨ count = 0) : ReportsItems size count 0 0 0 where
  items := (Nat.zero_div _).symm
  atMost := Nat.zero_le _
  all := by
    rintro - positive
    rcases zero with rfl | rfl
    · exact absurd positive (lt_irrefl _)
    · rfl

theorem size_positive {size count : UInt32} (zero : ¬(size = 0 ∨ count = 0)) : 0 < size.toNat := by
  refine Nat.pos_of_ne_zero fun none => zero (.inl ?_)
  exact UInt32.toNat_inj.mp none

theorem writesItems_iff (answers : Nat → Answer Unit) (buffer : Nat → UInt8) (size count : UInt32) (s : ItemStream) :
    WritesItems buffer size count s (s.fwrite answers buffer size count) ↔
      let moved := served kStreamModeWrite answers s.mode (size * count).toNat s.calls
      if moved < (size * count).toNat then ¬size.toNat ∣ moved + 1 else size.toNat * count.toNat < 2 ^ 32 := by
  by_cases zero : size = 0 ∨ count = 0
  · obtain ⟨wrapped, product⟩ := product_of_zero zero
    have call : s.fwrite answers buffer size count = (0, s) := if_pos zero
    rw [wrapped, product, call]
    refine iff_of_true ⟨?_, 0, (List.append_nil _).symm⟩ (by simp [served])
    simpa using ReportsItems.none zero
  · have positive := size_positive zero
    have stored := fwriteLoop_stored answers buffer (size * count).toNat 0 s
    have fits := @served_le _ answers kStreamModeWrite s.mode (size * count).toNat s.calls
    generalize run : fwriteLoop answers buffer (size * count).toNat 0 s = result at stored
    have call : s.fwrite answers buffer size count = (result.1 / size.toNat, result.2) := by
      rw [fwrite, if_neg zero, run]
    generalize served kStreamModeWrite answers s.mode (size * count).toNat s.calls = moved at stored fits ⊢
    have accepted : result.2.accepted.length - s.accepted.length = moved := by
      rw [stored.accepted]
      simp
    have made : result.2.calls - s.calls = callsMade (size * count).toNat moved := by
      rw [stored.calls]
      omega
    have counted := stored.count
    have report := @reportsItems_iff size count _ result.1 positive fits (by
      rw [counted, callsMade]
      split <;> omega)
    have whole : WritesItems buffer size count s (s.fwrite answers buffer size count) ↔
        ReportsItems size count moved (callsMade (size * count).toNat moved) (result.1 / size.toNat) := by
      rw [call]
      constructor
      · intro writes
        have reports := writes.reports
        rwa [accepted, made] at reports
      · intro reports
        refine ⟨?_, moved, ?_⟩
        · rwa [accepted, made]
        · rw [stored.accepted, List.range_eq_range']
    rw [whole, report, counted, callsMade]
    dsimp only
    split
    case isTrue less =>
      have other : 0 + (moved + 1) ≠ moved := by omega
      simp only [other, false_or, and_iff_left_iff_imp]
      exact fun _ same => absurd same less.ne
    case isFalse behind =>
      have same : moved = (size * count).toNat := by omega
      simp [← same]

theorem readsItems_iff (answers : Nat → Answer UInt8) (buffer : Nat → UInt8) (size count : UInt32) (s : ItemStream) :
    ReadsItems answers buffer size count s (s.fread answers buffer size count) ↔
      let moved := served kStreamModeRead answers s.mode (size * count).toNat s.calls
      moved < (size * count).toNat ∨ size.toNat * count.toNat < 2 ^ 32 := by
  by_cases zero : size = 0 ∨ count = 0
  · obtain ⟨wrapped, product⟩ := product_of_zero zero
    have call : s.fread answers buffer size count = (0, buffer, s) := if_pos zero
    have nothing : delivered answers s s = 0 := by simp [delivered, served]
    rw [product, call]
    refine iff_of_true ⟨?_, ?_, fun _ _ => rfl⟩ (.inr (by decide))
    · rw [nothing, Nat.sub_self]
      exact ReportsItems.none zero
    · rw [nothing]
      exact nofun
  · have positive := size_positive zero
    have fetched := freadLoop_fetched answers (size * count).toNat 0 buffer s
    have fits := @served_le _ answers kStreamModeRead s.mode (size * count).toNat s.calls
    have again := @served_callsMade _ answers kStreamModeRead s.mode (size * count).toNat s.calls
    generalize run : freadLoop answers (size * count).toNat 0 buffer s = result at fetched
    have call : s.fread answers buffer size count = (result.1 / size.toNat, result.2.1, result.2.2) := by
      rw [fread, if_neg zero, run]
    generalize served kStreamModeRead answers s.mode (size * count).toNat s.calls = moved at fetched fits again ⊢
    have made : result.2.2.calls - s.calls = callsMade (size * count).toNat moved := by
      rw [fetched.calls]
      omega
    have bytes : delivered answers s result.2.2 = moved := by rw [delivered, made, again]
    have counted : result.1 = moved := by
      rw [fetched.count]
      omega
    have wrapped : (size * count).toNat ≤ size.toNat * count.toNat := (UInt32.toNat_mul ..) ▸ Nat.mod_le ..
    have report := @reportsItems_iff size count _ result.1 positive fits (.inl counted)
    have whole : ReadsItems answers buffer size count s (s.fread answers buffer size count) ↔
        ReportsItems size count moved (callsMade (size * count).toNat moved) (result.1 / size.toNat) := by
      rw [call]
      constructor
      · intro reads
        have reports := reads.reports
        rwa [bytes, made] at reports
      · intro reports
        refine ⟨?_, ?_, ?_⟩
        · rwa [bytes, made]
        · rw [bytes]
          intro i less
          have stored := fetched.stored i less
          rwa [Nat.zero_add] at stored
        · intro i outside
          exact fetched.frame i (.inr (by omega))
    rw [whole, report, counted]
    simp only [true_or, true_and]
    constructor
    · intro small
      exact (Nat.lt_or_ge moved (size * count).toNat).imp_right fun behind => small (by omega)
    · rintro (less | small) same
      · exact absurd same less.ne
      · exact small

/-- `fwrite` counts the byte that is refused, and both ask for no more bytes than the wrapped product. -/
theorem items_reported (accepts : Nat → Answer Unit) (delivers : Nat → Answer UInt8) (buffer : Nat → UInt8)
    (size count : UInt32) (s : ItemStream) :
    (WritesItems buffer size count s (s.fwrite accepts buffer size count) ↔
      let moved := served kStreamModeWrite accepts s.mode (size * count).toNat s.calls
      if moved < (size * count).toNat then ¬size.toNat ∣ moved + 1 else size.toNat * count.toNat < 2 ^ 32) ∧
    (ReadsItems delivers buffer size count s (s.fread delivers buffer size count) ↔
      let moved := served kStreamModeRead delivers s.mode (size * count).toNat s.calls
      moved < (size * count).toNat ∨ size.toNat * count.toNat < 2 ^ 32) :=
  ⟨writesItems_iff accepts buffer size count s, readsItems_iff delivers buffer size count s⟩

/-- A stream that is at its end takes no byte, and `fwrite` reports one. -/
theorem refused_reported :
    ¬WritesItems (fun _ => 65) 1 1 ⟨kStreamModeWrite, false, false, none, 0, []⟩
      (fwrite (fun _ => .endOfFile) (fun _ => 65) 1 1 ⟨kStreamModeWrite, false, false, none, 0, []⟩) := by
  intro writes
  exact absurd writes.reports.items (by decide)

end ItemStream
end Apollo.Libc
