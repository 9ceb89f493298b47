import BankedMemory.Proofs.Checks
import BankedMemory.Proofs.Evaluation.Runs
import BankedMemory.Proofs.Evaluation.Renaming

/-!
# States that fit a netlist

A state fits a netlist if each input has a word of its width, and each memory has all its rows and registers, with
words of the width of the memory. The initial state fits, provided that inputs of one name are equally wide, since
such inputs share one word; setting inputs and advancing the clock keep the fit. In a state that fits, every cell puts
out a word of its width.
-/

namespace BankedMemory

/-- Inputs of one name are equally wide. -/
def Netlist.InputsAgree (netlist : Netlist) : Prop :=
  ∀ i j name v w, netlist.cell? i = some (.input name v) → netlist.cell? j = some (.input name w) → v = w

/-- Words and contents of the right widths for all inputs and memories. -/
structure State.Fits (netlist : Netlist) (state : State) : Prop where
  inputs : ∀ index name width, netlist.cell? index = some (.input name width) →
    ∃ word, state.inputs.get? name = some word ∧ word.length = width
  memories : ∀ index memory, netlist.cell? index = some (.memory memory) →
    ∃ contents, state.contentsAt index = some contents ∧ memory.Aligned contents ∧ memory.Full contents

namespace Memory

variable {memory : Memory} {contents : Contents}

theorem Aligned.length_held (aligned : memory.Aligned contents) : contents.held.length = memory.readPorts.length := by
  simpa using congrArg List.length aligned

/-- The held word of a port with a register, and none for a port without. -/
theorem Aligned.held (aligned : memory.Aligned contents) {p : Nat} {port : ReadPort}
    (found : memory.readPorts[p]? = some port) :
    ∃ held, contents.held[p]? = some held ∧ held.isSome = port.register.isSome := by
  have both := congrArg (·[p]?) aligned
  simp only [List.getElem?_map, found, Option.map_some] at both
  exact Option.map_eq_some_iff.mp both

theorem length_portOutput (sized : memory.Sized) (full : memory.Full contents) (value : Net → Trit) {port : ReadPort}
    (member : port ∈ memory.readPorts) {held : Option Bits} (at_held : held ∈ contents.held) :
    (memory.portOutput value contents.rows port held).length = memory.width := by
  cases held with
  | some word => exact full.held word at_held
  | none =>
    cases hit : memory.rowOf (port.addr.map value) with
    | none => simp [portOutput_of_miss hit, Bits.unknowns, sized.reads port member]
    | some row =>
      obtain ⟨word, found, wide⟩ := full.rows row (rowOf_lt hit)
      simp [portOutput_of_hit hit, Array.getD_eq_getD_getElem?, found, wide]

/-- The words at the read ports of a memory. -/
def portWords (memory : Memory) (value : Net → Trit) (contents : Contents) : List Bits :=
  (memory.readPorts.zip contents.held).map fun entry =>
    memory.portOutput value contents.rows entry.1 entry.2

theorem output_eq_flatten (memory : Memory) (value : Net → Trit) (contents : Contents) :
    memory.output value contents = (memory.portWords value contents).flatten := List.flatMap_def ..

theorem length_portWords (sized : memory.Sized) (full : memory.Full contents) (value : Net → Trit) :
    ∀ word ∈ memory.portWords value contents, word.length = memory.width := by
  intro word member
  obtain ⟨⟨port, held⟩, at_entry, rfl⟩ := List.mem_map.mp member
  obtain ⟨at_port, at_held⟩ := List.of_mem_zip at_entry
  exact length_portOutput sized full value at_port at_held

theorem outputWidth_eq_mul (sized : memory.Sized) : memory.outputWidth = memory.readPorts.length * memory.width := by
  have widths : memory.readPorts.map ReadPort.width = List.replicate memory.readPorts.length memory.width :=
    List.map_eq_replicate_iff.mpr sized.reads
  unfold outputWidth
  rw [widths]
  exact (List.sum_replicate_nat ..)

theorem length_output (sized : memory.Sized) (aligned : memory.Aligned contents) (full : memory.Full contents)
    (value : Net → Trit) : (memory.output value contents).length = memory.outputWidth := by
  have widths : (memory.portWords value contents).map List.length =
      List.replicate (memory.portWords value contents).length memory.width :=
    List.map_eq_replicate_iff.mpr (length_portWords sized full value)
  have ports : (memory.portWords value contents).length = memory.readPorts.length := by
    simp [portWords, aligned.length_held]
  rw [output_eq_flatten, List.length_flatten, widths, ports, outputWidth_eq_mul sized]
  exact List.sum_replicate_nat ..

end Memory

namespace State

variable {netlist : Netlist} {state : State}

theorem Fits.aligned (fits : state.Fits netlist) : state.Aligned netlist := by
  intro index memory contents found held
  obtain ⟨_, held', aligned, _⟩ := fits.memories index memory found
  rw [held] at held'
  cases held'
  exact aligned

/-- A table filled entry by entry has the word that all entries of a name agree on. -/
theorem get?_foldl_put {name : String} {width : Nat} {entries : List (String × Nat)} {table : Table Bits}
    (agree : ∀ entry ∈ entries, entry.1 = name → entry.2 = width)
    (present : name ∈ entries.map Prod.fst ∨ table.get? name = some (Bits.unknowns width)) :
    (entries.foldl (fun (table : Table Bits) entry => table.put entry.1 (Bits.unknowns entry.2)) table).get? name =
      some (Bits.unknowns width) := by
  induction entries generalizing table with
  | nil => exact present.resolve_left List.not_mem_nil
  | cons entry rest ih =>
    refine ih (fun other member => agree other (List.mem_cons_of_mem entry member)) ?_
    dsimp only
    by_cases same : name = entry.1
    · subst same
      rw [agree entry List.mem_cons_self rfl]
      exact Or.inr (Table.get?_put_self ..)
    · rw [Table.get?_put_of_ne same]
      exact present.imp_left fun member => (List.mem_cons.mp member).resolve_left same

theorem mem_inputs_iff {entry : String × Nat} :
    entry ∈ (netlist.slots.toList.filterMap fun slot => slot.cell?.bind Cell.input?) ↔
      ∃ index, netlist.cell? index = some (.input entry.1 entry.2) := by
  rw [List.mem_filterMap]
  constructor
  · rintro ⟨slot, member, is_input⟩
    obtain ⟨i, at_place⟩ := List.mem_iff_getElem?.mp member
    obtain ⟨c, is_cell, is_input⟩ := Option.bind_eq_some_iff.mp is_input
    refine ⟨i, ?_⟩
    rw [Array.getElem?_toList] at at_place
    cases c <;> cases is_input
    simp [Netlist.cell?, at_place, is_cell]
  · rintro ⟨i, at_input⟩
    refine ⟨.cell (.input entry.1 entry.2), ?_, rfl⟩
    exact Array.mem_toList_iff.mpr (Array.mem_of_getElem? (Netlist.driver_of_cell at_input).1)

/-- To begin with, the inputs of one name are unknown, as wide as all of them are. -/
theorem get?_initial (agree : netlist.InputsAgree) {index : Nat} {name : String} {width : Nat}
    (found : netlist.cell? index = some (.input name width)) :
    (State.initial netlist).inputs.get? name = some (Bits.unknowns width) := by
  rw [State.inputs_initial]
  refine get?_foldl_put (fun entry member same => ?_) (Or.inl ?_)
  · obtain ⟨i, at_input⟩ := mem_inputs_iff.mp member
    rw [same] at at_input
    exact agree i index name entry.2 width at_input found
  · exact List.mem_map.mpr ⟨(name, width), mem_inputs_iff.mpr ⟨index, found⟩, rfl⟩

theorem fits_initial (agree : netlist.InputsAgree)
    (checked : ∀ index c, netlist.cell? index = some c → c.check = .ok ()) : (State.initial netlist).Fits netlist where
  inputs _ _ width found := ⟨Bits.unknowns width, get?_initial agree found, List.length_replicate⟩
  memories index memory found := by
    refine ⟨memory.initialContents, ?_, memory.aligned_initialContents, ?_⟩
    · rw [State.contentsAt_initial, found]
      rfl
    · exact (Memory.check_eq_ok_iff.mp (checked index _ found)).full_initialContents

theorem Fits.setInput (fits : state.Fits netlist) {name : String} {word : Bits} {next : State}
    (done : state.setInput name word = .ok next) : next.Fits netlist where
  inputs index other width found := by
    obtain ⟨old, held, wide⟩ := fits.inputs index other width found
    rw [inputs_setInput done]
    by_cases same : other = name
    · subst same
      refine ⟨word, Table.get?_put_self .., ?_⟩
      unfold State.setInput at done
      rw [held] at done
      dsimp only at done
      split at done
      · rename_i equal
        exact equal.symm.trans wide
      · cases done
    · exact ⟨old, (Table.get?_put_of_ne same ..).trans held, wide⟩
  memories index memory found := by
    obtain ⟨contents, held, rest⟩ := fits.memories index memory found
    refine ⟨contents, ?_, rest⟩
    unfold contentsAt at held ⊢
    rwa [contents_setInput done]

theorem Fits.nextState (fits : state.Fits netlist)
    (checked : ∀ index c, netlist.cell? index = some c → c.check = .ok ()) (value : Net → Trit) :
    (netlist.nextState value state).Fits netlist where
  inputs := fits.inputs
  memories index memory found := by
    obtain ⟨contents, held, aligned, full⟩ := fits.memories index memory found
    have sized := Memory.sized_of_check (checked index _ found)
    exact ⟨_, Netlist.contentsAt_nextState value found held, aligned.nextContents value, full.nextContents sized value⟩

/-- A cell puts out a word of its width. -/
theorem Fits.length_outputBits (fits : state.Fits netlist) {index : Nat} {c : Cell}
    (found : netlist.cell? index = some c) (checked : c.check = .ok ()) (value : Net → Trit) :
    (c.outputBits value state.inputs (state.contentsAt index)).length = c.outputWidth := by
  cases c with
  | invert a => simp [Cell.outputBits, Bits.invert, Cell.outputWidth]
  | gate kind a b =>
    have same : a.length = b.length := Size.agree_eq_ok_iff.mp checked
    simp [Cell.outputBits, Cell.outputWidth, same]
  | equal a b => rfl
  | memory m =>
    obtain ⟨contents, held, aligned, full⟩ := fits.memories index m found
    have wide := Memory.length_output (Memory.sized_of_check checked) aligned full value
    simpa [Cell.outputBits, held, Cell.outputWidth] using wide
  | input name width =>
    obtain ⟨word, held, wide⟩ := fits.inputs index name width found
    simpa [Cell.outputBits, held, Cell.outputWidth] using wide
  | output name bus => rfl
  | label name bus => rfl

end State

namespace Netlist

variable {netlist : Netlist} {state : State}

theorem fits_perform (checked : ∀ index c, netlist.cell? index = some c → c.check = .ok ()) {actions : List Action}
    {last : State} (fits : state.Fits netlist) (run : netlist.perform actions state = .ok last) :
    last.Fits netlist :=
  (perform_keeps (fun _ _ _ _ here done => here.setInput done) (fun _ _ here => here.nextState checked _)
    fits.aligned fits run).2

/-- Every state of a run fits. -/
theorem fits_performFromStart (agree : netlist.InputsAgree)
    (checked : ∀ index c, netlist.cell? index = some c → c.check = .ok ()) {actions : List Action} {last : State}
    (run : netlist.performFromStart actions = .ok last) : last.Fits netlist :=
  (performFromStart_keeps (State.fits_initial agree checked) (fun _ _ _ _ here done => here.setInput done)
    (fun _ _ here => here.nextState checked _) run).2

end Netlist

end BankedMemory
