import BankedMemory.Proofs.Evaluation.Fitting
import BankedMemory.Proofs.Evaluation.Offers

/-!
# What the rows of a memory depend on

The rows of a memory change through its write ports alone. So memories that differ in their read ports only, and are
written alike, hold the same rows in every state of a run, for any words at their ports.
-/

namespace BankedMemory

namespace Memory

variable {memory : Memory} {port : WritePort}

/-- A memory without its read ports: all that its rows depend on. -/
def unread (memory : Memory) : Memory := { memory with readPorts := [] }

/-- The rows of a memory after a cycle. -/
def nextRows (memory : Memory) (value : Net → Trit) (rows : Array Bits) : Array Bits :=
  commit rows ((memory.rowWrites value).filterMap id)

theorem rows_nextContents (memory : Memory) (value : Net → Trit) (contents : Contents) :
    (memory.nextContents value contents).rows = memory.unread.nextRows value contents.rows := rfl

/-- All rows are there, and as wide as they have to be. -/
def FullRows (memory : Memory) (rows : Array Bits) : Prop :=
  ∀ row < memory.depth, ∃ word, rows[row]? = some word ∧ word.length = memory.width

theorem Sized.unread (sized : memory.Sized) : memory.unread.Sized :=
  ⟨sized.bounded, sized.writes, by simp [Memory.unread]⟩

theorem Checked.unread (checked : memory.Checked) : memory.unread.Checked :=
  { checked with
    reads := by simp [Memory.unread]
    registers := by simp [Memory.unread]
    output := (by decide : 0 < Size.bound) }

theorem FullRows.next {rows : Array Bits} (full : memory.FullRows rows) (sized : memory.Sized) (value : Net → Trit) :
    memory.FullRows (memory.nextRows value rows) := by
  have all : memory.unread.Full ⟨rows, []⟩ := ⟨full, by simp⟩
  exact (all.nextContents sized.unread value).rows

theorem FullRows.getD {rows : Array Bits} (full : memory.FullRows rows) {row : Nat} (inside : row < memory.depth) :
    (rows.getD row []).length = memory.width := by
  obtain ⟨word, found, wide⟩ := full row inside
  simp [Array.getD_eq_getD_getElem?, found, wide]

/-- A write that meets no other one updates the row. -/
theorem commitRow_alone {word : Bits} {write : RowWrite} (fits : write.Fits word.length) :
    commitRow word [write] = word.update write.mask write.data := by
  obtain ⟨row, mask, data⟩ := write
  obtain ⟨mask_wide, data_wide⟩ := fits
  rw [← Bits.tabulate_getD word .unknown, ← Bits.tabulate_getD mask .unknown, ← Bits.tabulate_getD data .unknown,
    mask_wide, data_wide, commitRow_single, Bits.update_tabulate]

/-- A row after a cycle takes what all ports offer to it. -/
theorem FullRows.getD_next {rows : Array Bits} (full : memory.FullRows rows) (sized : memory.Sized)
    (value : Net → Trit) {row : Nat} (inside : row < memory.depth) :
    (memory.nextRows value rows).getD row [] =
      commitRow (rows.getD row []) (memory.writePorts.map (memory.offer value row)) := by
  obtain ⟨word, found, wide⟩ := full row inside
  rw [← commitRow_rowWrites sized value row (full.getD inside), nextRows, Array.getD_eq_getD_getElem?,
    getElem?_commit, Array.getD_eq_getD_getElem?, found]
  rfl

/-- Under a single write port, a register samples the row as it was or as it is after the cycle. -/
theorem sampled_alone (writes : memory.writePorts = [port]) (sized : memory.Sized) (value : Net → Trit) (seen : Bool)
    {rows : Array Bits} (full : memory.FullRows rows) {row : Nat} (inside : row < memory.depth) :
    sampled (memory.rowWrites value) [if seen then .after else .before] row (rows.getD row []) =
      (if seen then memory.nextRows value rows else rows).getD row [] := by
  have wide := full.getD inside
  have fits : (memory.offer value row port).Fits (rows.getD row []).length :=
    wide ▸ sized.fits_offer value row (by simp [writes])
  rw [sampled_rowWrites sized value _ row wide, writes]
  cases seen with
  | false => rfl
  | true =>
    rw [if_pos rfl, if_pos rfl, full.getD_next sized value inside, writes]
    exact (commitRow_alone fits).symm

/-- Only a row without bits is not found at the address that selects it. -/
theorem Sized.narrow (sized : memory.Sized) {addr : Bits} {row : Nat} (selects : memory.Selects addr row)
    (miss : memory.rowOf addr = none) : memory.width = 0 := by
  by_contra wide
  rw [(rowOf_eq_some_iff (sized.countable (Nat.pos_of_ne_zero wide))).mpr selects] at miss
  cases miss

/-- A read port without a register shows the row that its address selects. -/
theorem FullRows.portOutput_of_selects {rows : Array Bits} (full : memory.FullRows rows) (sized : memory.Sized)
    {reader : ReadPort} (member : reader ∈ memory.readPorts) {value : Net → Trit} {row : Nat}
    (selects : memory.Selects (reader.addr.map value) row) :
    memory.portOutput value rows reader none = rows.getD row [] := by
  cases found : memory.rowOf (reader.addr.map value) with
  | some other =>
    obtain rfl := (selects_of_rowOf found).unique selects
    exact portOutput_of_hit found rows
  | none =>
    have narrow := sized.narrow selects found
    rw [portOutput_of_miss found, sized.reads reader member, narrow]
    exact (List.length_eq_zero_iff.mp ((full.getD selects.1).trans narrow)).symm

/-- After a cycle, a memory with a single read port shows what the register of this port then holds. -/
theorem output_nextContents {reader : ReadPort} {register : Register} (reads : memory.readPorts = [reader])
    (registered : reader.register = some register) (value value' : Net → Trit) (rows : Array Bits) (held : Bits) :
    memory.output value' (memory.nextContents value ⟨rows, [some held]⟩) =
      memory.nextHeld value rows reader register held := by
  unfold output nextContents
  simp [reads, registered, portOutput]

/-- An enabled register samples the row that its address selects. -/
theorem FullRows.nextHeld_of_selects {rows : Array Bits} (full : memory.FullRows rows) (sized : memory.Sized)
    {reader : ReadPort} (member : reader ∈ memory.readPorts) {register : Register} {value : Net → Trit} {row : Nat}
    (clocked : register.clock.isConst = false) (enabled : register.enable.active (value register.enable.net) = .one)
    (selects : memory.Selects (reader.addr.map value) row) (held : Bits) :
    memory.nextHeld value rows reader register held =
      sampled (memory.rowWrites value) register.visibility row (rows.getD row []) := by
  cases found : memory.rowOf (reader.addr.map value) with
  | some other =>
    obtain rfl := (selects_of_rowOf found).unique selects
    simp [nextHeld, clocked, enabled, found]
  | none =>
    have narrow := sized.narrow selects found
    have wide : (sampled (memory.rowWrites value) register.visibility row (rows.getD row [])).length = memory.width :=
      length_sampled (fun _ at_writes => sized.fits value at_writes) _ _ (full.getD selects.1)
    simp only [nextHeld, clocked, enabled, found, sized.reads reader member, narrow, Bool.false_eq_true, if_false]
    exact (List.length_eq_zero_iff.mp (wide.trans narrow)).symm

end Memory

namespace Netlist

variable {netlist : Netlist} {state : State} {store : Memory} {rows : Array Bits}

/-- All memories of a netlist that are the same but for their read ports hold the same rows. -/
def Stores (netlist : Netlist) (state : State) (store : Memory) (rows : Array Bits) : Prop :=
  ∀ index memory, netlist.cell? index = some (.memory memory) → memory.unread = store →
    ∃ contents, state.contentsAt index = some contents ∧ contents.rows = rows

theorem stores_initial (netlist : Netlist) (store : Memory) :
    netlist.Stores (State.initial netlist) store store.initialContents.rows := by
  rintro index memory found rfl
  refine ⟨memory.initialContents, ?_, rfl⟩
  rw [State.contentsAt_initial, found]
  rfl

theorem Stores.setInput (h : netlist.Stores state store rows) {name : String} {word : Bits} {next : State}
    (done : state.setInput name word = .ok next) : netlist.Stores next store rows := by
  intro index memory found alike
  obtain ⟨contents, held, same⟩ := h index memory found alike
  refine ⟨contents, ?_, same⟩
  unfold State.contentsAt at held ⊢
  rwa [State.contents_setInput done]

theorem Stores.nextState (h : netlist.Stores state store rows) (value : Net → Trit) :
    netlist.Stores (netlist.nextState value state) store (store.nextRows value rows) := by
  rintro index memory found rfl
  obtain ⟨contents, held, rfl⟩ := h index memory found rfl
  exact ⟨_, contentsAt_nextState value found held, memory.rows_nextContents value contents⟩

theorem Stores.step (h : netlist.Stores state store rows) (aligned : state.Aligned netlist) {next : State}
    (done : netlist.step state = .ok next) :
    netlist.Stores next store (store.nextRows (netlist.valueIn state) rows) :=
  step_eq aligned done ▸ h.nextState _

/-- In every state of a run there are rows that all these memories hold. -/
theorem stores_performFromStart {actions : List Action} {last : State}
    (run : netlist.performFromStart actions = .ok last) (store : Memory) :
    ∃ rows, netlist.Stores last store rows ∧ (store.Checked → store.FullRows rows) := by
  refine (performFromStart_keeps (P := fun state =>
    ∃ rows, netlist.Stores state store rows ∧ (store.Checked → store.FullRows rows)) ?_ ?_ ?_ run).2
  · exact ⟨_, stores_initial netlist store, fun checked => checked.full_initialContents.rows⟩
  · rintro state name word next ⟨rows, holds, full⟩ done
    exact ⟨rows, holds.setInput done, full⟩
  · rintro state _ ⟨rows, holds, full⟩
    exact ⟨_, holds.nextState _, fun checked => (full checked).next checked.sized _⟩

end Netlist

end BankedMemory
