import BankedMemory.Proofs.Census.Tallies
import BankedMemory.Proofs.Construction.Refusals

/-!
# What replicas cost

A memory with one writer costs a bank for each reader, whatever the writer and the initial rows are. The size of the
initial word and of a row have to be within the limits of words and buses, and then nothing else can go wrong.
-/

namespace BankedMemory

/-- Addresses have no more bits than sizes. -/
theorem Size.addressWidth_le {count : Nat} (countable : count ≤ Size.bound) : Size.addressWidth count ≤ 64 :=
  addressWidth_le_iff.mpr countable

namespace Storage

open Build

namespace Blueprint

/-- An accepted blueprint whose initial word is within the limit of words, and its rows within that of buses. -/
structure Storable (blueprint : Blueprint) : Prop extends blueprint.Accepted where
  word : blueprint.depth * blueprint.width ≤ Bits.maxWidth
  bus : blueprint.width ≤ Bus.maxWidth

variable {blueprint : Blueprint}

theorem Accepted.length_filledRows (accepted : blueprint.Accepted) :
    blueprint.filledRows.length = blueprint.depth * blueprint.width := by
  have widths : blueprint.rows.map List.length = List.replicate blueprint.rows.length blueprint.width :=
    List.map_eq_replicate_iff.mpr accepted.wide
  simp only [filledRows, List.length_append, List.length_flatten, widths, List.sum_replicate, Nat.nsmul_eq_mul,
    List.length_replicate]
  rw [← Nat.add_mul, Nat.add_sub_cancel' accepted.fit]

theorem ofShape_eq_ok_iff {width depth : Nat} : ofShape width depth = .ok blueprint ↔
    width ≠ 0 ∧ depth ≠ 0 ∧ blueprint = ⟨width, depth, [], []⟩ := by
  unfold ofShape
  by_cases no_width : width = 0
  · simp [no_width]
  · by_cases no_depth : depth = 0
    · simp [no_width, no_depth]
    · simp [no_width, no_depth, eq_comm]

theorem eq_of_withRows {rows : List Bits} {after : Blueprint} (given : blueprint.withRows rows = .ok after) :
    after = { blueprint with rows } := by
  unfold withRows at given
  split at given
  · cases given
  · split at given
    · cases given
    · exact (Except.ok.inj given).symm

theorem initialWord_of_le (within : blueprint.missing ≤ Bits.maxWidth) :
    blueprint.initialWord = .ok blueprint.filledRows := by
  have below : blueprint.missing < Size.bound := Nat.lt_of_le_of_lt within (by decide)
  unfold missing at within below
  simp only [initialWord, Size.mul, if_pos below, Bits.filled, Positions.filled, if_pos within, bind, Except.bind, pure,
    Except.pure, filledRows]

/-- More zeros can be asked for than any word has. -/
theorem initialWord_of_lt (countable : blueprint.missing < Size.bound) (large : Bits.maxWidth < blueprint.missing) :
    blueprint.initialWord = .error .tooLarge := by
  unfold missing at countable large
  simp only [initialWord, Size.mul, if_pos countable, Bits.filled, Positions.filled, if_neg (Nat.not_le.mpr large), bind,
    Except.bind]

theorem Storable.initialWord (storable : blueprint.Storable) : blueprint.initialWord = .ok blueprint.filledRows :=
  initialWord_of_le (Nat.le_trans blueprint.missing_le storable.word)

theorem Storable.addressWidth_le (storable : blueprint.Storable) : blueprint.addressWidth ≤ Bus.maxWidth := by
  have rows : blueprint.depth ≤ Bits.maxWidth :=
    Nat.le_trans (Nat.le_mul_of_pos_right _ storable.width_pos) storable.word
  exact Nat.le_trans (Size.addressWidth_le (Nat.le_trans rows (by decide))) (by decide)

/-- A bank over the initial rows passes its check if its ports have the right widths, and all that is clocked has the
clock of the write port. -/
theorem Storable.check_bank (storable : blueprint.Storable) {port : WritePort}
    (data : port.data.length = blueprint.width) (mask : port.mask.length = blueprint.width) (addr : Bus)
    {register? : Option Register} (fits : ∀ register, register? = some register →
      register.init.length = blueprint.width ∧ register.visibility.length = 1 ∧ register.clock = port.clock) :
    (Memory.mk blueprint.depth blueprint.width blueprint.filledRows blueprint.attributes [port]
      [⟨addr, blueprint.width, register?⟩]).check = .ok () := by
  have below {size : Nat} (within : size ≤ Bits.maxWidth) : size < Size.bound :=
    Nat.lt_of_le_of_lt within (by decide)
  refine Memory.check_eq_ok_iff.mpr ?_
  constructor
  case bounded => exact below storable.word
  case init => exact storable.length_filledRows
  case writes =>
    intro other member
    rw [List.mem_singleton.mp member]
    exact ⟨data, mask⟩
  case reads =>
    intro other member
    rw [List.mem_singleton.mp member]
  case registers =>
    intro other member register registered
    rw [List.mem_singleton.mp member] at registered ⊢
    obtain ⟨wide, single, same⟩ := fits register registered
    refine ⟨wide, single, fun pair at_pair _ => ?_⟩
    rw [List.mem_singleton.mp (List.of_mem_zip at_pair).2, same]
  case output =>
    show blueprint.width + 0 < Size.bound
    exact Nat.lt_of_le_of_lt storable.bus (by decide)

end Blueprint

/-- So many readers have data of so many bits each. -/
def Assembly.Reads (assembly : Assembly) (readers width : Nat) : Prop :=
  assembly.readData.length = readers ∧ ∀ data ∈ assembly.readData, data.length = width

/-- A bank with its label. -/
def bankTally (width : Nat) (name? : Option String) : Tally := Tally.cell "memory" width + Tally.label name?

namespace Replicated

/-- A write port whose words are as wide as a row, on the clock of the memory. -/
structure Drives (memory : Replicated) (port : WritePort) : Prop where
  data : port.data.length = memory.ports.blueprint.width
  mask : port.mask.length = memory.ports.blueprint.width
  clock : port.clock = memory.clock

variable {memory : Replicated}

theorem costs_writePort (sound : memory.ports.Sound) (address : memory.ports.blueprint.addressWidth ≤ Bus.maxWidth)
    (row : memory.ports.blueprint.width ≤ Bus.maxWidth) : Costs memory.writePort 0 memory.Drives := by
  unfold writePort
  cases first : memory.ports.writers.head? with
  | some writer =>
    have fits := sound.writers writer (List.mem_of_mem_head? first)
    exact costs_pure ⟨fits.2.1, fits.length_mask, rfl⟩
  | none =>
    have idle : memory.idlePort = .ok ⟨List.replicate memory.ports.blueprint.addressWidth .zero,
        List.replicate memory.ports.blueprint.width .zero, List.replicate memory.ports.blueprint.width .zero,
        memory.clock⟩ := by
      simp only [idlePort, Bus.filled, Positions.filled, if_pos address, if_pos row, bind, Except.bind, pure,
        Except.pure]
    refine costs_free_bind costs_report fun _ _ => costs_ofFault idle ?_
    exact ⟨List.length_replicate, List.length_replicate, rfl⟩

section Banks

variable (storable : memory.ports.blueprint.Storable)
include storable

theorem costs_addBank {port : WritePort} (drives : memory.Drives port) (entry : Reader × Nat) :
    Costs (memory.addBank port memory.ports.blueprint.filledRows entry)
      (bankTally memory.ports.blueprint.width memory.name) fun bank =>
        bank.output.length = memory.ports.blueprint.width := by
  have within : memory.ports.blueprint.width ≤ Bits.maxWidth := Nat.le_trans storable.bus (by decide)
  have built := bank_eq_ok_iff.mpr
    ⟨within, (rfl : memory.replica port memory.ports.blueprint.filledRows entry.1 = _)⟩
  have checked : (Cell.memory (memory.replica port memory.ports.blueprint.filledRows entry.1)).check = .ok () := by
    refine storable.check_bank drives.data drives.mask entry.1.addr fun register registered => ?_
    cases registered
    exact ⟨List.length_replicate, rfl, drives.clock.symm⟩
  unfold addBank
  refine costs_ofFault_bind built (costs_bind (costs_add checked) fun output wide => ?_)
  have labelled := costs_label (memory.name.map fun name => s!"{name}.replica{entry.2}") output
  refine costs_bind_free (labelled.eq (Tally.label_map _ _)) fun _ _ => ?_
  exact costs_free_bind costs_report fun _ _ => costs_pure wide

theorem costs_addBanks {port : WritePort} (drives : memory.Drives port) :
    Costs (memory.addBanks port)
      (memory.ports.readers.length • bankTally memory.ports.blueprint.width memory.name) fun banks =>
        banks.length = memory.ports.readers.length ∧
          ∀ bank ∈ banks, bank.output.length = memory.ports.blueprint.width := by
  unfold addBanks
  by_cases no_reader : memory.ports.readers = []
  · simp only [no_reader, List.isEmpty_nil, if_true]
    exact (costs_pure ⟨rfl, by simp⟩).eq (zero_nsmul _).symm
  · simp only [List.isEmpty_eq_false_iff.mpr no_reader, Bool.false_eq_true, if_false]
    refine costs_ofFault_bind storable.initialWord ?_
    have each := costs_mapM_const (l := memory.ports.readers.zipIdx) fun entry _ => costs_addBank storable drives entry
    rwa [List.length_zipIdx] at each

/-- A memory with one writer costs a bank for each reader. -/
theorem costs_assemble (sound : memory.ports.Sound) :
    Costs memory.assemble (memory.ports.readers.length • bankTally memory.ports.blueprint.width memory.name)
      fun assembly => assembly.Reads memory.ports.readers.length memory.ports.blueprint.width := by
  unfold assemble
  refine costs_ofRefusal_bind sound.verify ?_
  refine costs_free_bind (costs_writePort sound storable.addressWidth_le storable.bus) fun port drives => ?_
  refine costs_bind_free (costs_addBanks storable drives) fun banks ⟨count, wide⟩ => ?_
  rw [if_neg (not_not.mpr (show banks.length = memory.expectedBanks from count))]
  refine costs_free_bind costs_report fun _ _ => costs_pure ⟨?_, fun bus member => ?_⟩
  · rw [List.length_map, count]
  · obtain ⟨bank, at_bank, rfl⟩ := List.mem_map.mp member
    exact wide bank at_bank

theorem costs_build (opened : memory.ports.frozen = false) (sound : memory.ports.Sound) :
    Costs memory.build (memory.ports.readers.length • bankTally memory.ports.blueprint.width memory.name)
      fun assembly => assembly.Reads memory.ports.readers.length memory.ports.blueprint.width := by
  unfold build
  refine costs_ofRefusal_bind (Ports.freeze_of_open opened) ?_
  exact @costs_assemble { memory with ports := { memory.ports with frozen := true } } storable sound.frozen

end Banks

end Replicated

end Storage

end BankedMemory
