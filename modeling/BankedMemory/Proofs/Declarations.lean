import BankedMemory.Proofs.Checks
import BankedMemory.Proofs.Construction.Network

/-!
# What may be declared

On an open memory a reader or a writer is accepted just when it fits the shape of the memory, and there is room for
a writer. All declared ports fit then, and pass the check that a build makes of them.
-/

namespace BankedMemory.Storage

open Build

namespace Ports

/-- A reader that fits the shape, and observes writers declared before it only. -/
def TakesReader (ports : Ports) (reader : Reader) : Prop :=
  reader.addr.length = ports.blueprint.addressWidth ∧ ∀ writer ∈ reader.observed, writer < ports.writers.length

/-- The enable has one net, or one for each chunk of a row that is divided evenly. -/
def Divides (width : Nat) (enable : Bus) : (granularity : Option Nat) → Prop
  | none => enable.length = 1
  | some granularity => 0 < granularity ∧ granularity ∣ width ∧ enable.length = width / granularity

/-- A writer that fits the shape. -/
def FitsWriter (ports : Ports) (writer : Writer) : Prop :=
  writer.addr.length = ports.blueprint.addressWidth ∧ writer.data.length = ports.blueprint.width ∧
    Divides ports.blueprint.width writer.enable writer.granularity

/-- There is room for one more writer. -/
def HasRoom (ports : Ports) : Prop := ∀ capacity ∈ ports.capacity, ports.writers.length < capacity

/-- All ports fit the shape, and there are no more writers than there may be. -/
structure Sound (ports : Ports) : Prop where
  readers : ∀ reader ∈ ports.readers, ports.TakesReader reader
  writers : ∀ writer ∈ ports.writers, ports.FitsWriter writer
  capacity : ∀ capacity ∈ ports.capacity, ports.writers.length ≤ capacity

variable {ports : Ports}

theorem sound_ofBlueprint (blueprint : Blueprint) (capacity : Option Nat) : (ofBlueprint blueprint capacity).Sound where
  readers _ member := absurd member List.not_mem_nil
  writers _ member := absurd member List.not_mem_nil
  capacity _ _ := Nat.zero_le _

theorem Sound.addReader (sound : ports.Sound) {reader : Reader} (takes : ports.TakesReader reader) :
    { ports with readers := ports.readers ++ [reader] }.Sound where
  readers other member := by
    rcases List.mem_append.mp member with old | new
    · exact sound.readers other old
    · rw [List.mem_singleton.mp new]
      exact takes
  writers := sound.writers
  capacity := sound.capacity

theorem Sound.addWriter (sound : ports.Sound) {writer : Writer} (room : ports.HasRoom)
    (fits : ports.FitsWriter writer) : { ports with writers := ports.writers ++ [writer] }.Sound where
  readers reader member := by
    obtain ⟨addressed, declared⟩ := sound.readers reader member
    refine ⟨addressed, fun observed among => ?_⟩
    have := declared observed among
    rw [List.length_append]
    omega
  writers other member := by
    rcases List.mem_append.mp member with old | new
    · exact sound.writers other old
    · rw [List.mem_singleton.mp new]
      exact fits
  capacity capacity limited := by
    rw [List.length_append]
    exact room capacity limited

theorem Sound.frozen (sound : ports.Sound) : { ports with frozen := true }.Sound :=
  ⟨sound.readers, sound.writers, sound.capacity⟩

/-- The mask of a writer that fits is as wide as a row. -/
theorem FitsWriter.length_mask {writer : Writer} (fits : ports.FitsWriter writer) :
    writer.mask.length = ports.blueprint.width := by
  obtain ⟨_, wide, divides⟩ := fits
  rw [Writer.length_mask, Writer.maskWidth]
  cases grouped : writer.granularity with
  | none =>
    rw [grouped] at divides
    have single : writer.enable.length = 1 := divides
    rw [single, wide, Nat.one_mul]
  | some granularity =>
    rw [grouped] at divides
    obtain ⟨_, divisor, count⟩ := divides
    rw [count]
    exact Nat.div_mul_cancel divisor

/-- Sound ports pass the check of a build. -/
theorem Sound.verify (sound : ports.Sound) : ports.verify = .ok () := by
  have readers : ports.readers.zipIdx.forM ports.verifyReader = .ok () := by
    refine forM_eq_ok_iff.mpr fun entry member => ?_
    obtain ⟨addressed, declared⟩ := sound.readers entry.1 (List.fst_mem_of_mem_zipIdx member)
    have none_missing : (entry.1.observed.any fun writer => ports.writers.length ≤ writer) = false := by
      simpa using declared
    simp [verifyReader, addressed, none_missing]
  have writers : ports.writers.zipIdx.forM ports.verifyWriter = .ok () := by
    refine forM_eq_ok_iff.mpr fun entry member => ?_
    have fits := sound.writers entry.1 (List.fst_mem_of_mem_zipIdx member)
    have full := fits.length_mask
    obtain ⟨addressed, wide, _⟩ := fits
    simp [verifyWriter, addressed, wide, full]
  unfold Ports.verify
  rw [readers, writers]
  cases limited : ports.capacity with
  | none => rfl
  | some capacity =>
    have below := sound.capacity capacity limited
    have within : ¬ capacity < ports.writers.length := by omega
    simp [within]
    rfl

/-! ### Single declarations -/

/-- A reader that may be declared gets the next number. -/
theorem declareReader_of_takes (opened : ports.frozen = false) {reader : Reader} (takes : ports.TakesReader reader) :
    ports.declareReader reader = .ok (ports.readers.length, { ports with readers := ports.readers ++ [reader] }) := by
  obtain ⟨addressed, declared⟩ := takes
  have none_missing : (reader.observed.find? fun writer => ports.writers.length ≤ writer) = none := by
    simpa using declared
  simp [declareReader, checkOpen, opened, checkAddress, addressed, none_missing, bind, Except.bind]

theorem declareReader_refused (opened : ports.frozen = false) {reader : Reader}
    (misfit : ¬ ports.TakesReader reader) :
    ∃ cause, ports.declareReader reader = .error cause ∧ cause.kind = .configuration := by
  by_cases addressed : reader.addr.length = ports.blueprint.addressWidth
  · cases missing : reader.observed.find? fun writer => ports.writers.length ≤ writer with
    | none =>
      refine absurd ⟨addressed, ?_⟩ misfit
      simpa using missing
    | some writer =>
      refine ⟨.unknownWriter writer, ?_, rfl⟩
      simp [declareReader, checkOpen, opened, checkAddress, addressed, missing, bind, Except.bind]
  · refine ⟨.addressWidth reader.addr.length ports.blueprint.addressWidth ports.blueprint.depth, ?_, rfl⟩
    simp [declareReader, checkOpen, opened, checkAddress, addressed, bind, Except.bind]

theorem checkCapacity_of_room (room : ports.HasRoom) : ports.checkCapacity = .ok () := by
  unfold checkCapacity
  cases limited : ports.capacity with
  | none => rfl
  | some capacity =>
    have below := room capacity limited
    have within : ¬ capacity ≤ ports.writers.length := by omega
    simp [within]

/-- The width of the enable is right just when it divides a row evenly. -/
theorem enableWidth_eq_ok_iff {granularity : Option Nat} {enable : Bus} :
    ports.enableWidth granularity = .ok enable.length ↔ Divides ports.blueprint.width enable granularity := by
  cases granularity with
  | none =>
    show Except.ok 1 = Except.ok enable.length ↔ enable.length = 1
    simp [eq_comm]
  | some granularity =>
    unfold enableWidth Divides
    by_cases zero : granularity = 0
    · simp [zero]
    · by_cases even : ports.blueprint.width % granularity = 0
      · simp [zero, even, Nat.dvd_of_mod_eq_zero even, Nat.pos_of_ne_zero zero, eq_comm]
      · have uneven : ¬ granularity ∣ ports.blueprint.width := fun divisor => even (Nat.mod_eq_zero_of_dvd divisor)
        simp [zero, even, uneven]

/-- A writer that may be declared gets the next number. -/
theorem declareWriter_of_fits (opened : ports.frozen = false) {writer : Writer} (room : ports.HasRoom)
    (fits : ports.FitsWriter writer) :
    ports.declareWriter writer = .ok (ports.writers.length, { ports with writers := ports.writers ++ [writer] }) := by
  obtain ⟨addressed, wide, divides⟩ := fits
  have expected := enableWidth_eq_ok_iff.mpr divides
  simp [declareWriter, checkOpen, opened, checkCapacity_of_room room, checkAddress, addressed, wide, expected, bind,
    Except.bind, pure, Except.pure]

theorem declareWriter_full (opened : ports.frozen = false) (writer : Writer) (full : ¬ ports.HasRoom) :
    ∃ cause, ports.declareWriter writer = .error cause ∧ cause.kind = .capacity := by
  unfold HasRoom at full
  push Not at full
  obtain ⟨capacity, limited, reached⟩ := full
  have limited : ports.capacity = some capacity := limited
  refine ⟨.writersExhausted capacity, ?_, rfl⟩
  simp [declareWriter, checkOpen, opened, checkCapacity, limited, reached, bind, Except.bind]

theorem declareWriter_misfit (opened : ports.frozen = false) {writer : Writer} (room : ports.HasRoom)
    (misfit : ¬ ports.FitsWriter writer) :
    ∃ cause, ports.declareWriter writer = .error cause ∧ cause.kind = .configuration := by
  have start : ports.checkOpen .declareWriter = .ok () ∧ ports.checkCapacity = .ok () := by
    simp [checkOpen, opened, checkCapacity_of_room room]
  unfold declareWriter
  rw [start.1, start.2]
  by_cases addressed : writer.addr.length = ports.blueprint.addressWidth
  · by_cases wide : writer.data.length = ports.blueprint.width
    · cases granted : ports.enableWidth writer.granularity with
      | error cause =>
        refine ⟨cause, ?_, ?_⟩
        · simp [checkAddress, addressed, wide, bind, Except.bind]
        · unfold enableWidth at granted
          grind [Refusal.kind]
      | ok expected =>
        have uneven : writer.enable.length ≠ expected := by
          rintro rfl
          exact misfit ⟨addressed, wide, enableWidth_eq_ok_iff.mp granted⟩
        refine ⟨.enableWidth writer.enable.length expected, ?_, rfl⟩
        simp [checkAddress, addressed, wide, uneven, bind, Except.bind, throw, throwThe, MonadExceptOf.throw]
    · refine ⟨.dataWidth writer.data.length ports.blueprint.width, ?_, rfl⟩
      simp [checkAddress, addressed, wide, bind, Except.bind, throw, throwThe, MonadExceptOf.throw]
  · refine ⟨.addressWidth writer.addr.length ports.blueprint.addressWidth ports.blueprint.depth, ?_, rfl⟩
    simp [checkAddress, addressed, bind, Except.bind]

theorem freeze_of_open (opened : ports.frozen = false) : ports.freeze = .ok { ports with frozen := true } := by
  simp [freeze, checkOpen, opened, bind, Except.bind, pure, Except.pure]

/-- Nothing may be attempted once the declarations have ended. -/
theorem refused_of_frozen (closed : ports.frozen = true) :
    (∀ reader, ports.declareReader reader = .error (.alreadyBuilt .declareReader)) ∧
      (∀ writer, ports.declareWriter writer = .error (.alreadyBuilt .declareWriter)) ∧
      ports.freeze = .error (.alreadyBuilt .assemble) := by
  have checks (attempt : Attempt) : ports.checkOpen attempt = .error (.alreadyBuilt attempt) := by
    simp [checkOpen, closed]
  refine ⟨fun reader => ?_, fun writer => ?_, ?_⟩
  · simp [declareReader, checks, bind, Except.bind]
  · simp [declareWriter, checks, bind, Except.bind]
  · simp [freeze, checks, bind, Except.bind]

end Ports

end BankedMemory.Storage
