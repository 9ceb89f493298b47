import BankedMemory.Proofs.Contention.Bits
import BankedMemory.Proofs.Evaluation.Stores

/-!
# The order of write ports

A netlist whose memories list their write ports in another order carries the same bits and needs the same nets in a
clock cycle. After the cycle its memories hold the same rows, since the order of the writes does not matter to a row.
Nothing is said about what the registers of read ports sample, where the order does matter.
-/

namespace BankedMemory

/-- A read port without what its register sees of each write port. -/
def ReadPort.unordered (port : ReadPort) : ReadPort :=
  { port with register := port.register.map fun register => { register with visibility := [] } }

namespace Memory

/-- Memories that list the same write ports in any order, and are read alike but for what the registers of their read
ports see of each write port. -/
structure Reordered (memory other : Memory) : Prop where
  depth : memory.depth = other.depth
  width : memory.width = other.width
  writePorts : memory.writePorts.Perm other.writePorts
  readPorts : memory.readPorts.map ReadPort.unordered = other.readPorts.map ReadPort.unordered

variable {memory other : Memory} {value : Net → Trit} {contents : Contents}

theorem Reordered.refl (memory : Memory) : memory.Reordered memory := ⟨rfl, rfl, .refl _, rfl⟩

theorem Reordered.symm (h : memory.Reordered other) : other.Reordered memory :=
  ⟨h.depth.symm, h.width.symm, h.writePorts.symm, h.readPorts.symm⟩

theorem Reordered.rowOf (h : memory.Reordered other) : memory.rowOf = other.rowOf := by
  funext addr
  unfold Memory.rowOf
  rw [h.depth]

theorem output_unordered (memory : Memory) (value : Net → Trit) (contents : Contents) :
    memory.output value contents = ((memory.readPorts.map ReadPort.unordered).zip contents.held).flatMap fun entry =>
      memory.portOutput value contents.rows entry.1 entry.2 := by
  rw [List.zip_map_left, List.flatMap_map]
  rfl

theorem Reordered.output (h : memory.Reordered other) : memory.output value contents = other.output value contents := by
  have ports (port : ReadPort) (held : Option Bits) :
      memory.portOutput value contents.rows port held = other.portOutput value contents.rows port held := by
    unfold portOutput
    rw [h.rowOf]
  rw [output_unordered, output_unordered, h.readPorts]
  simp only [ports]

theorem sources_unordered (memory : Memory) : (Cell.memory memory).sources =
    (memory.readPorts.map ReadPort.unordered).flatMap fun port =>
      if port.register.isNone then port.addr else [] := by
  rw [List.flatMap_map]
  simp only [ReadPort.unordered, Option.isNone_map]
  rfl

theorem aligned_unordered : memory.Aligned contents ↔ contents.held.map Option.isSome =
    (memory.readPorts.map ReadPort.unordered).map fun port => port.register.isSome := by
  rw [List.map_map]
  simp only [Function.comp_def, ReadPort.unordered, Option.isSome_map]
  rfl

theorem Reordered.aligned (h : memory.Reordered other) : memory.Aligned contents ↔ other.Aligned contents := by
  rw [aligned_unordered, aligned_unordered, h.readPorts]

theorem Reordered.sized (h : memory.Reordered other) (sized : memory.Sized) : other.Sized where
  bounded := by
    rw [← h.depth, ← h.width]
    exact sized.bounded
  writes port member := by
    rw [← h.width]
    exact sized.writes port (h.writePorts.mem_iff.mpr member)
  reads port member := by
    have widths := congrArg (List.map ReadPort.width) h.readPorts
    rw [List.map_map, List.map_map] at widths
    have at_width : port.width ∈ memory.readPorts.map ReadPort.width := by
      refine widths ▸ List.mem_map_of_mem (f := ReadPort.width ∘ ReadPort.unordered) member
    obtain ⟨original, at_memory, same⟩ := List.mem_map.mp at_width
    rw [← same, ← h.width]
    exact sized.reads original at_memory

/-- Memories that differ in the order of their write ports hold the same rows after a cycle. -/
theorem Reordered.nextRows (h : memory.Reordered other) (sized : memory.Sized) {rows : Array Bits}
    (full : memory.FullRows rows) : memory.nextRows value rows = other.nextRows value rows := by
  have offers (row : Nat) : memory.offer value row = other.offer value row := by
    funext port
    unfold offer
    rw [h.rowOf, h.width]
  apply Array.ext_getElem?
  intro row
  unfold Memory.nextRows
  rw [getElem?_commit, getElem?_commit]
  by_cases inside : row < memory.depth
  · obtain ⟨word, found, wide⟩ := full row inside
    rw [found, Option.map_some, Option.map_some, commitRow_rowWrites sized value row wide,
      commitRow_rowWrites (h.sized sized) value row (wide.trans h.width), ← offers,
      commitRow_perm wide (sized.fits_offers value row) (h.writePorts.map _)]
  · have outside := Nat.le_of_not_lt inside
    rw [no_writes_outside value outside, no_writes_outside value (h.depth ▸ outside)]

end Memory

/-- Slots that are equal, or hold memories that differ in the order of their write ports. -/
inductive Slot.Reordered : Slot → Slot → Prop where
  | same (slot : Slot) : Reordered slot slot
  | memory {m m' : Memory} (reordered : m.Reordered m') : Reordered (.cell (.memory m)) (.cell (.memory m'))

namespace Netlist

/-- Netlists that differ in the order of the write ports of their memories. -/
def Reordered (netlist other : Netlist) : Prop :=
  ∀ index : Nat, Option.Rel Slot.Reordered netlist.slots[index]? other.slots[index]?

variable {netlist other : Netlist} {state : State}

theorem Reordered.symm (h : netlist.Reordered other) : other.Reordered netlist := by
  intro index
  have slots := h index
  generalize netlist.slots[index]? = slot at slots ⊢
  generalize other.slots[index]? = slot' at slots ⊢
  cases slots with
  | none => exact .none
  | some related =>
    cases related with
    | same => exact .some (.same _)
    | memory reordered => exact .some (.memory reordered.symm)

/-- The cells at one slot. -/
theorem Reordered.cell?_cases (h : netlist.Reordered other) (index : Nat) :
    netlist.cell? index = other.cell? index ∨
      ∃ m m', netlist.cell? index = some (.memory m) ∧ other.cell? index = some (.memory m') ∧ m.Reordered m' := by
  have slots := h index
  unfold cell?
  generalize netlist.slots[index]? = slot at slots ⊢
  generalize other.slots[index]? = slot' at slots ⊢
  cases slots with
  | none => exact Or.inl rfl
  | some related =>
    cases related with
    | same => exact Or.inl rfl
    | memory reordered => exact Or.inr ⟨_, _, rfl, rfl, reordered⟩

theorem Reordered.memory (h : netlist.Reordered other) {index : Nat} {m : Memory}
    (found : netlist.cell? index = some (.memory m)) :
    ∃ m', other.cell? index = some (.memory m') ∧ m.Reordered m' := by
  rcases h.cell?_cases index with same | ⟨m, m', at_index, at_other, reordered⟩
  · exact ⟨m, same ▸ found, .refl m⟩
  · obtain rfl := Cell.memory.inj (Option.some.inj (at_index.symm.trans found))
    exact ⟨m', at_other, reordered⟩

theorem Reordered.driver (h : netlist.Reordered other) (net : Net) : netlist.driver net = other.driver net := by
  cases net with
  | const bit => rfl
  | slot index =>
    have slots := h index
    unfold Netlist.driver slot
    dsimp only
    generalize netlist.slots[index]? = slot at slots ⊢
    generalize other.slots[index]? = slot' at slots ⊢
    cases slots with
    | none => rfl
    | some related => cases related <;> rfl

theorem Reordered.sourcesAt (h : netlist.Reordered other) (index : Nat) :
    netlist.sourcesAt index = other.sourcesAt index := by
  rcases h.cell?_cases index with same | ⟨m, m', at_index, at_other, reordered⟩
  · unfold Netlist.sourcesAt
    rw [same]
  · rw [sourcesAt_of_cell at_index, sourcesAt_of_cell at_other, Memory.sources_unordered, Memory.sources_unordered,
      reordered.readPorts]

theorem Reordered.outputUnder (h : netlist.Reordered other) (value : Net → Trit) (index : Nat) :
    netlist.outputUnder value state index = other.outputUnder value state index := by
  rcases h.cell?_cases index with same | ⟨m, m', at_index, at_other, reordered⟩
  · unfold Netlist.outputUnder
    rw [same]
  · rw [outputUnder_of_cell at_index, outputUnder_of_cell at_other]
    have output : m.output value = m'.output value := funext fun contents => reordered.output
    simp only [Cell.outputBits, output]

theorem Reordered.carries (h : netlist.Reordered other) {net : Net} {bit : Trit}
    (carried : netlist.Carries state net bit) : other.Carries state net bit := by
  induction carried with
  | const bit => exact .const bit
  | cell value driven _ shown ih =>
    rw [h.driver] at driven
    rw [h.outputUnder] at shown
    exact .cell value driven (fun source member => ih source (h.sourcesAt _ ▸ member)) shown

theorem Reordered.live_iff (h : netlist.Reordered other) {net : Net} :
    netlist.Live state net ↔ other.Live state net :=
  exists_congr fun _ => ⟨h.carries, h.symm.carries⟩

theorem Reordered.aligned (h : netlist.Reordered other) (aligned : state.Aligned netlist) : state.Aligned other := by
  intro index m contents found held
  obtain ⟨m', at_netlist, reordered⟩ := h.symm.memory found
  exact reordered.aligned.mpr (aligned index m' contents at_netlist held)

theorem Reordered.valueIn (h : netlist.Reordered other) (aligned : state.Aligned netlist) :
    netlist.valueIn state = other.valueIn state :=
  funext fun _ => valueIn_congr aligned (h.aligned aligned) fun _ => ⟨h.carries, h.symm.carries⟩

theorem neededByRead_unordered (port : ReadPort) :
    netlist.neededByRead state port.unordered = netlist.neededByRead state port := by
  unfold neededByRead ReadPort.unordered
  cases port.register <;> rfl

/-- Memories that differ in the order of their write ports need the same nets. -/
theorem mem_neededBy_of_reordered {m m' : Memory} (reordered : m.Reordered m')
    (values : netlist.valueIn state = other.valueIn state) {net : Net} (needed : net ∈ netlist.neededBy state m) :
    net ∈ other.neededBy state m' := by
  have reads : netlist.neededByRead state = other.neededByRead state := by
    funext port
    unfold neededByRead
    rw [values]
  have writes (port : WritePort) : netlist.neededByWrite state m port = other.neededByWrite state m' port := by
    have strobes : m.strobe (netlist.valueIn state) port = m'.strobe (other.valueIn state) port := by
      unfold Memory.strobe
      rw [reordered.rowOf, values]
    unfold neededByWrite
    rw [strobes]
  have unordered (m : Memory) : m.readPorts.flatMap (other.neededByRead state) =
      (m.readPorts.map ReadPort.unordered).flatMap (other.neededByRead state) := by
    rw [List.flatMap_map]
    exact List.flatMap_congr fun port _ => (neededByRead_unordered port).symm
  unfold neededBy at needed ⊢
  rcases List.mem_append.mp needed with write | read
  · obtain ⟨port, member, needed⟩ := List.mem_flatMap.mp write
    refine List.mem_append_left _ (List.mem_flatMap.mpr ⟨port, reordered.writePorts.mem_iff.mp member, ?_⟩)
    rwa [← writes]
  · apply List.mem_append_right
    rw [unordered, ← reordered.readPorts, ← unordered]
    rwa [reads] at read

/-- A cycle that succeeds does so in any order of the write ports, with the same rows after it. -/
theorem Reordered.step (h : netlist.Reordered other) (aligned : state.Aligned netlist) {next : State}
    (done : netlist.step state = .ok next) (sized : ∀ index m, netlist.cell? index = some (.memory m) → m.Sized)
    (full : ∀ index m contents, netlist.cell? index = some (.memory m) → state.contentsAt index = some contents →
      m.FullRows contents.rows) :
    ∃ next', other.step state = .ok next' ∧
      ∀ index, (next'.contentsAt index).map Contents.rows = (next.contentsAt index).map Contents.rows := by
  -- both netlists evaluate to the same bits and need the same nets, so that both cycles succeed
  have aligned' := h.aligned aligned
  have values := h.valueIn aligned
  have live := (step_succeeds_iff aligned).mp ⟨next, done⟩
  obtain ⟨next', done'⟩ := (step_succeeds_iff aligned').mpr fun net needed => by
    obtain ⟨index, m, found, needed⟩ := mem_cycleNeeds.mp needed
    obtain ⟨m', at_netlist, reordered⟩ := h.symm.memory found
    have needed' := mem_neededBy_of_reordered reordered values.symm needed
    exact h.live_iff.mp (live net (mem_cycleNeeds.mpr ⟨index, m', at_netlist, needed'⟩))
  refine ⟨next', done', fun index => ?_⟩
  rw [step_eq aligned done, step_eq aligned' done', ← values]
  by_cases found : ∃ m, netlist.cell? index = some (.memory m)
  · obtain ⟨m, found⟩ := found
    obtain ⟨m', at_other, reordered⟩ := h.memory found
    rw [contentsAt_nextState_eq_map _ found, contentsAt_nextState_eq_map _ at_other, Option.map_map, Option.map_map]
    refine Option.map_congr fun contents held => ?_
    exact (reordered.nextRows (sized index m found) (full index m contents found held)).symm
  · have nowhere (m : Memory) : other.cell? index ≠ some (.memory m) := by
      intro at_other
      obtain ⟨m', at_netlist, _⟩ := h.symm.memory at_other
      exact found ⟨m', at_netlist⟩
    rw [contentsAt_nextState_of_other _ fun m at_netlist => found ⟨m, at_netlist⟩,
      contentsAt_nextState_of_other _ nowhere]

end Netlist

end BankedMemory
