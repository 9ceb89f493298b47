import BankedMemory.Proofs.Construction.Replicas
import BankedMemory.Proofs.Evaluation.Renaming
import BankedMemory.Proofs.Network.Ports

/-!
# One cell in place of all banks

A memory with one writer could as well be a single cell with the same write port, or with none, and with a read port
for each reader. The bank of a reader holds the part of what this cell holds that the read port of this reader sees:
all rows, and one register. A clock cycle changes the part as it changes the whole.
-/

namespace BankedMemory

/-- All rows, and the register of one read port. -/
def Contents.part (contents : Contents) (k : Nat) : Contents := ⟨contents.rows, contents.held[k]?.toList⟩

namespace Storage.Replicated

variable (memory : Replicated)

/-- The only write port of the whole memory, if it has a writer. Each place of a row has the net that enables it. -/
def onlyPort : Option WritePort :=
  memory.ports.writers.head?.map fun writer => ⟨writer.addr, writer.data,
    (List.range memory.ports.blueprint.width).map fun place => (writer.enableAt place).getD (.const .zero),
    memory.clock⟩

/-- The read port of a reader of the whole memory. It sees what the writer writes if the reader observes it, and the row
as it was otherwise. -/
def wholePort (reader : Reader) : ReadPort :=
  ⟨reader.addr, memory.ports.blueprint.width, some ⟨memory.clock, .high reader.enable,
    Bits.unknowns memory.ports.blueprint.width,
    memory.onlyPort.toList.map fun _ => if 0 ∈ reader.observed then .after else .before⟩⟩

/-- The whole memory as one cell. -/
def whole : Memory where
  depth := memory.ports.blueprint.depth
  width := memory.ports.blueprint.width
  init := memory.ports.blueprint.filledRows
  attributes := memory.ports.blueprint.attributes
  writePorts := memory.onlyPort.toList
  readPorts := memory.ports.readers.map memory.wholePort

variable {memory} {port : WritePort} {init : Bits} {value : Net → Trit}

theorem whole_init (word : memory.ports.blueprint.initialWord = .ok init) : memory.whole.init = init :=
  (Blueprint.eq_filledRows word).symm

/-- With a writer, the bank of a reader sees of a write what the whole memory is to show of it. -/
theorem visibility_of_onlyPort (only : memory.onlyPort = some port) (reader : Reader) :
    memory.visibility reader = if 0 ∈ reader.observed then .after else .before := by
  have some_writer : memory.ports.writers ≠ [] := fun none => by simp [onlyPort, none] at only
  simp only [visibility_eq, some_writer, ne_eq, not_false_eq_true, true_and]

/-- The write port of the banks is that of the whole memory, or all its operands are zero. -/
theorem onlyPort_cases (verified : memory.ports.verify = .ok ()) (written : memory.WrittenBy port) :
    memory.onlyPort = some port ∨
      memory.onlyPort = none ∧ ∀ net ∈ port.addr ++ port.data ++ port.mask, net = .const .zero := by
  unfold WrittenBy at written
  unfold onlyPort
  cases first : memory.ports.writers.head? with
  | some writer =>
    rw [first] at written
    rw [List.head?_eq_getElem?] at first
    rw [Option.map_some, ← Ports.mask_eq_map verified first]
    exact Or.inl (congrArg some written.symm)
  | none =>
    rw [first] at written
    refine Or.inr ⟨rfl, ?_⟩
    simp only at written
    unfold idlePort at written
    obtain ⟨addr, addr_eq, written⟩ := Build.except_bind_eq_ok.mp written
    obtain ⟨data, data_eq, written⟩ := Build.except_bind_eq_ok.mp written
    cases written
    intro net member
    simp only [List.mem_append, or_assoc, or_self] at member
    exact member.elim (Bus.eq_of_mem_filled addr_eq) (Bus.eq_of_mem_filled data_eq)

theorem exists_held {g : Net → Net} {contents : Contents} (aligned : (memory.whole.map g).Aligned contents) {k : Nat}
    {reader : Reader} (found : memory.ports.readers[k]? = some reader) :
    ∃ word, contents.held[k]? = some (some word) := by
  have both := congrArg (·[k]?) aligned
  have at_port : (memory.whole.map g).readPorts[k]? = some ((memory.wholePort reader).map g) := by
    simp [Memory.map, whole, found]
  simp only [List.getElem?_map, at_port, Option.map_some] at both
  obtain ⟨held, at_held, is_some⟩ := Option.map_eq_some_iff.mp both
  obtain ⟨word, rfl⟩ := Option.isSome_iff_exists.mp is_some
  exact ⟨word, at_held⟩

section Cycle

variable {g : Net → Net} (constant : g (.const .zero) = .const .zero) (grounded : value (.const .zero) = .zero)
  (verified : memory.ports.verify = .ok ()) (written : memory.WrittenBy port) {reader : Reader}
include constant grounded verified written

/-- The whole memory is written as each bank is. -/
theorem rowWrites_cases (init : Bits) (reader : Reader) : ∃ write,
    ((memory.replica port init reader).map g).rowWrites value = [write] ∧
      ((memory.whole.map g).rowWrites value = [write] ∧ memory.onlyPort = some port ∨
        write = none ∧ (memory.whole.map g).rowWrites value = [] ∧ memory.onlyPort = none) := by
  refine ⟨((memory.replica port init reader).map g).rowWrite value (port.map g), rfl, ?_⟩
  rcases onlyPort_cases verified written with only | ⟨no_port, idle⟩
  · refine Or.inl ⟨?_, only⟩
    simp only [Memory.rowWrites, Memory.map, whole, only, Option.toList_some, List.map_cons, List.map_nil]
    rfl
  · refine Or.inr ⟨?_, by simp [Memory.rowWrites, Memory.map, whole, no_port], no_port⟩
    have zeros : (port.map g).mask.map value = List.replicate port.mask.length .zero := by
      refine (List.map_map (l := port.mask)).trans (List.map_eq_replicate_iff.mpr fun net member => ?_)
      rw [idle net (List.mem_append_right _ member), Function.comp_apply, constant, grounded]
    have no_strobe : ((memory.replica port init reader).map g).strobe value (port.map g) = none := by
      unfold Memory.strobe
      rw [zeros]
      split
      · simp [Bits.isZero]
      · rfl
    simp [Memory.rowWrite, no_strobe]

/-- The register of a reader changes in the whole memory as it does in the bank of the reader. -/
theorem nextHeld_whole (rows : Array Bits) (held : Bits) {register register' : Register}
    (inside : (memory.wholePort reader).register = some register)
    (alone : (memory.readPort reader).register = some register') :
    (memory.whole.map g).nextHeld value rows ((memory.wholePort reader).map g) (register.map g) held =
      ((memory.replica port init reader).map g).nextHeld value rows ((memory.readPort reader).map g) (register'.map g)
        held := by
  obtain rfl := Option.some.inj inside
  obtain rfl := Option.some.inj alone
  obtain ⟨write, one, all⟩ := rowWrites_cases constant grounded verified written init reader
  have same (row : Nat) (word : Bits) :
      Memory.sampled ((memory.whole.map g).rowWrites value)
        (memory.onlyPort.toList.map fun _ => if 0 ∈ reader.observed then .after else .before) row word =
      Memory.sampled (((memory.replica port init reader).map g).rowWrites value) [memory.visibility reader] row word := by
    rw [one]
    rcases all with ⟨writes, only⟩ | ⟨rfl, writes, only⟩
    · rw [writes, only, visibility_of_onlyPort only]
      rfl
    · rw [writes, only]
      rfl
  unfold Memory.nextHeld
  simp only [Register.map, same]
  rfl

/-- The bank of a reader changes as a part of the whole memory. -/
theorem part_nextContents {contents : Contents} (aligned : (memory.whole.map g).Aligned contents) {k : Nat}
    (found : memory.ports.readers[k]? = some reader) :
    ((memory.whole.map g).nextContents value contents).part k =
      ((memory.replica port init reader).map g).nextContents value (contents.part k) := by
  obtain ⟨held, at_held⟩ := exists_held aligned found
  obtain ⟨write, one, all⟩ := rowWrites_cases constant grounded verified written init reader
  have rows : Memory.commit contents.rows (((memory.whole.map g).rowWrites value).filterMap id) =
      Memory.commit contents.rows ((((memory.replica port init reader).map g).rowWrites value).filterMap id) := by
    rw [one]
    rcases all with ⟨writes, -⟩ | ⟨rfl, writes, -⟩
    · rw [writes]
    · rw [writes]
      rfl
  have at_entry : ((memory.whole.map g).readPorts.zip contents.held)[k]? =
      some ((memory.wholePort reader).map g, some held) :=
    List.getElem?_zip_eq_some.mpr ⟨by simp [Memory.map, whole, found], at_held⟩
  unfold Memory.nextContents Contents.part
  simp only [rows, List.getElem?_map, at_entry, at_held]
  refine congrArg (Contents.mk _) (congrArg (fun word => [some word]) ?_)
  exact nextHeld_whole constant grounded verified written contents.rows held rfl rfl

end Cycle

section Needs

variable {g : Net → Net} {netlist : Netlist} {state : State} (verified : memory.ports.verify = .ok ())
  (written : memory.WrittenBy port) {net : Net}
include verified written

/-- The whole memory needs what the banks need, except for constants. -/
theorem needed_by_whole (constant : g (.const .zero) = .const .zero) {reader : Reader}
    (declared : reader ∈ memory.ports.readers)
    (needed : net ∈ netlist.neededBy state ((memory.replica port init reader).map g)) :
    net ∈ netlist.neededBy state (memory.whole.map g) ∨ net = .const .zero := by
  simp only [Netlist.neededBy, Memory.map, replica, List.map_cons, List.map_nil, List.flatMap_cons,
    List.flatMap_nil, List.append_nil, List.mem_append] at needed
  rcases needed with needed | needed
  · rcases onlyPort_cases verified written with only | ⟨_, idle⟩
    · left
      refine List.mem_append_left _ (List.mem_flatMap.mpr ⟨port.map g, ?_, needed⟩)
      simp [Memory.map, whole, only]
    · right
      have operand : net ∈ (port.addr ++ port.data ++ port.mask).map g := by
        rw [List.map_append, List.map_append]
        exact Netlist.mem_of_neededByWrite needed
      obtain ⟨original, member, rfl⟩ := List.mem_map.mp operand
      rw [idle original member, constant]
  · left
    refine List.mem_append_right _ (List.mem_flatMap.mpr ⟨(memory.wholePort reader).map g, ?_, needed⟩)
    exact List.mem_map_of_mem (List.mem_map_of_mem declared)

/-- Some bank needs what the whole memory needs. -/
theorem needed_by_replica (init : Bits) (some_reader : memory.ports.readers ≠ [])
    (needed : net ∈ netlist.neededBy state (memory.whole.map g)) :
    ∃ reader ∈ memory.ports.readers, net ∈ netlist.neededBy state ((memory.replica port init reader).map g) := by
  rcases List.mem_append.mp needed with needed | needed
  · obtain ⟨target, member, needed⟩ := List.mem_flatMap.mp needed
    obtain ⟨reader, declared⟩ := List.exists_mem_of_ne_nil _ some_reader
    refine ⟨reader, declared, List.mem_append_left _ (List.mem_flatMap.mpr ⟨target, ?_, needed⟩)⟩
    rcases onlyPort_cases verified written with only | ⟨none, _⟩
    · simpa [Memory.map, whole, replica, only] using member
    · simp [Memory.map, whole, none] at member
  · obtain ⟨target, member, needed⟩ := List.mem_flatMap.mp needed
    obtain ⟨original, at_ports, rfl⟩ := List.mem_map.mp member
    obtain ⟨reader, declared, rfl⟩ := List.mem_map.mp at_ports
    refine ⟨reader, declared, List.mem_append_right _ (List.mem_flatMap.mpr ⟨(memory.readPort reader).map g, ?_, needed⟩)⟩
    exact List.mem_map_of_mem List.mem_cons_self

end Needs

section Words

variable {g : Net → Net} {reader : Reader} {k : Nat} {contents : Contents}

/-- To begin with, the bank of a reader holds the part of what the whole memory holds. -/
theorem part_initialContents (word : memory.ports.blueprint.initialWord = .ok init)
    (found : memory.ports.readers[k]? = some reader) :
    (memory.whole.map g).initialContents.part k =
      ((memory.replica port init reader).map g).initialContents := by
  rw [Memory.initialContents_map, Memory.initialContents_map]
  unfold Memory.initialContents Memory.initialRows
  rw [whole_init word]
  simp only [Contents.part, whole, replica, List.map_map, List.getElem?_map, found, Option.map_some]
  rfl

/-- The bank of a reader shows the word in its register. -/
theorem output_part {word : Bits} (held : contents.held[k]? = some (some word)) :
    ((memory.replica port init reader).map g).output value (contents.part k) = word := by
  unfold Contents.part
  rw [held]
  exact List.append_nil word

theorem sized_whole (checked : (memory.replica port init reader).check = .ok ())
    (verified : memory.ports.verify = .ok ()) (written : memory.WrittenBy port) : (memory.whole.map g).Sized where
  bounded := (Memory.sized_of_check checked).bounded
  writes target member := by
    have sized := Memory.sized_of_check checked
    rcases onlyPort_cases verified written with only | ⟨none, _⟩
    · obtain rfl : target = port.map g := by simpa [Memory.map, whole, only] using member
      simpa [WritePort.map, Memory.map, whole, replica] using sized.writes port List.mem_cons_self
    · simp [Memory.map, whole, none] at member
  reads target member := by
    obtain ⟨other, at_other, rfl⟩ := List.mem_map.mp member
    obtain ⟨reader, _, rfl⟩ := List.mem_map.mp at_other
    rfl

theorem full_initialContents (accepted : memory.ports.blueprint.Accepted)
    (word : memory.ports.blueprint.initialWord = .ok init) :
    (memory.whole.map g).Full (memory.whole.map g).initialContents where
  rows row inside := by
    rw [Memory.initialContents_map]
    unfold Memory.initialContents Memory.initialRows
    rw [whole_init word]
    have table := accepted.splitRows_initialWord word
    exact ⟨Bits.tabulate memory.ports.blueprint.width (memory.ports.blueprint.initialBit row),
      (congrArg (·[row]?) table).trans (Bits.getElem?_table inside), Bits.length_tabulate _ _⟩
  held word member := by
    rw [Memory.initialContents_map] at member
    obtain ⟨target, at_target, same⟩ := List.mem_map.mp member
    obtain ⟨reader, _, rfl⟩ := List.mem_map.mp at_target
    cases same
    exact List.length_replicate

/-- The whole memory shows the words of all readers side by side. -/
theorem output_whole (aligned : (memory.whole.map g).Aligned contents) (full : (memory.whole.map g).Full contents)
    {word : Bits} (held : contents.held[k]? = some (some word)) {offset : Nat}
    (inside : offset < memory.ports.blueprint.width) :
    ((memory.whole.map g).output value contents)[k * memory.ports.blueprint.width + offset]? = word[offset]? := by
  have same_length : contents.held.length = (memory.whole.map g).readPorts.length := by
    simpa using congrArg List.length aligned
  have all_held : ∀ entry ∈ contents.held, ∃ word, entry = some word := by
    intro entry member
    obtain ⟨i, at_entry⟩ := List.mem_iff_getElem?.mp member
    obtain ⟨within, _⟩ := List.getElem?_eq_some_iff.mp at_entry
    have at_reader : i < memory.ports.readers.length := by
      simpa [same_length, Memory.map, whole] using within
    obtain ⟨word, at_word⟩ := exists_held aligned (List.getElem?_eq_getElem at_reader)
    exact ⟨word, Option.some.inj (at_entry.symm.trans at_word)⟩
  have words : ((memory.whole.map g).readPorts.zip contents.held).map (fun entry =>
      (memory.whole.map g).portOutput value contents.rows entry.1 entry.2) = contents.held.map (·.getD []) := by
    conv_rhs => rw [← List.map_snd_zip (Nat.le_of_eq same_length), List.map_map]
    refine List.map_congr_left ?_
    rintro ⟨target, entry⟩ member
    obtain ⟨word, rfl⟩ := all_held entry (List.of_mem_zip member).2
    rfl
  have wide : ∀ l ∈ contents.held.map (·.getD []), l.length = memory.ports.blueprint.width := by
    intro l member
    obtain ⟨entry, at_entry, rfl⟩ := List.mem_map.mp member
    obtain ⟨word, rfl⟩ := all_held entry at_entry
    exact full.held word at_entry
  unfold Memory.output
  rw [List.flatMap_def, words, getElem?_flatten_of_length wide inside, List.getElem?_map, held]
  rfl

end Words

end Storage.Replicated

end BankedMemory
