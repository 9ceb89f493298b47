import BankedMemory.Proofs.Evaluation.Cycle

/-!
# Cells with other operands

A cell whose operands are exchanged for other nets does what the old one does under the values that the new nets have
at their places. This holds for its output and, if constants stay constants, for what a memory needs and does in a
clock cycle.
-/

namespace BankedMemory

variable {f : Net → Net} {value : Net → Trit}

namespace Memory

theorem output_map (memory : Memory) (contents : Contents) :
    (memory.map f).output value contents = memory.output (value ∘ f) contents := by
  unfold output Memory.map
  rw [List.zip_map_left, List.flatMap_map]
  congr 1
  funext ⟨port, held⟩
  cases held with
  | some word => rfl
  | none => simp [portOutput, rowOf, ReadPort.map]

theorem map_map (g : Net → Net) (memory : Memory) : (memory.map f).map g = memory.map (g ∘ f) := by
  have writes (port : WritePort) : (port.map f).map g = port.map (g ∘ f) := by
    simp [WritePort.map, Control.map]
  have reads (port : ReadPort) : (port.map f).map g = port.map (g ∘ f) := by
    cases registered : port.register <;> simp [ReadPort.map, Register.map, Control.map, registered]
  simp [Memory.map, writes, reads]

theorem map_id (memory : Memory) : memory.map id = memory := by
  have writes (port : WritePort) : port.map id = port := by
    simp [WritePort.map, Control.map]
  have reads (port : ReadPort) : port.map id = port := by
    obtain ⟨addr, width, register⟩ := port
    cases register <;> simp [ReadPort.map, Register.map, Control.map]
  have all_writes : memory.writePorts.map (WritePort.map id) = memory.writePorts := by
    rw [List.map_congr_left fun port _ => writes port, List.map_id']
  have all_reads : memory.readPorts.map (ReadPort.map id) = memory.readPorts := by
    rw [List.map_congr_left fun port _ => reads port, List.map_id']
  unfold map
  rw [all_writes, all_reads]

/-- Only what becomes of the operands matters. -/
theorem map_congr {g : Net → Net} {memory : Memory} (same : ∀ net ∈ memory.nets, f net = g net) :
    memory.map f = memory.map g := by
  have writes : memory.writePorts.map (WritePort.map f) = memory.writePorts.map (WritePort.map g) := by
    refine List.map_congr_left fun port member => ?_
    have same_at (net : Net) (operand : net ∈ port.nets) : f net = g net :=
      same net (List.mem_append_left _ (List.mem_flatMap.mpr ⟨port, member, operand⟩))
    unfold WritePort.map Control.map
    congr 1
    · exact List.map_congr_left fun net operand => same_at net (by simp [WritePort.nets, operand])
    · exact List.map_congr_left fun net operand => same_at net (by simp [WritePort.nets, operand])
    · exact List.map_congr_left fun net operand => same_at net (by simp [WritePort.nets, operand])
    · rw [same_at port.clock.net (by simp [WritePort.nets])]
  have reads : memory.readPorts.map (ReadPort.map f) = memory.readPorts.map (ReadPort.map g) := by
    refine List.map_congr_left fun port member => ?_
    have same_at (net : Net) (operand : net ∈ port.nets) : f net = g net :=
      same net (List.mem_append_right _ (List.mem_flatMap.mpr ⟨port, member, operand⟩))
    unfold ReadPort.map
    congr 1
    · exact List.map_congr_left fun net operand => same_at net (by simp [ReadPort.nets, operand])
    · cases registered : port.register with
      | none => rfl
      | some register =>
        have clock := same_at register.clock.net (by simp [ReadPort.nets, registered, Register.nets])
        have enable := same_at register.enable.net (by simp [ReadPort.nets, registered, Register.nets])
        simp [Register.map, Control.map, clock, enable]
  unfold map
  rw [writes, reads]

theorem nets_map (memory : Memory) : (memory.map f).nets = memory.nets.map f := by
  have writes (port : WritePort) : (port.map f).nets = port.nets.map f := by
    simp [WritePort.nets, WritePort.map, Control.map]
  have reads (port : ReadPort) : (port.map f).nets = port.nets.map f := by
    cases registered : port.register <;>
      simp [ReadPort.nets, ReadPort.map, Register.nets, Register.map, Control.map, registered]
  simp [nets, map, List.flatMap_map, List.map_flatMap, writes, reads]

theorem initialContents_map (memory : Memory) : (memory.map f).initialContents = memory.initialContents := by
  unfold initialContents initialRows Memory.map
  rw [List.map_map]
  congr 2
  funext port
  cases registered : port.register <;> simp [ReadPort.map, Register.map, registered]

theorem strobe_map (memory : Memory) (port : WritePort) :
    (memory.map f).strobe value (port.map f) = memory.strobe (value ∘ f) port := by
  unfold strobe
  simp only [WritePort.map, List.map_map]
  rfl

section Clocks

variable (constant : ∀ net, (f net).isConst = net.isConst)
include constant

theorem rowWrite_map (memory : Memory) (port : WritePort) :
    (memory.map f).rowWrite value (port.map f) = memory.rowWrite (value ∘ f) port := by
  have clock : (port.map f).clock.isConst = port.clock.isConst := constant _
  have data : (port.map f).data.map value = port.data.map (value ∘ f) := List.map_map
  unfold rowWrite
  rw [strobe_map, clock, data]

theorem rowWrites_map (memory : Memory) : (memory.map f).rowWrites value = memory.rowWrites (value ∘ f) := by
  have ports : (memory.map f).writePorts = memory.writePorts.map (WritePort.map f) := rfl
  unfold rowWrites
  rw [ports, List.map_map]
  exact List.map_congr_left fun port _ => rowWrite_map constant memory port

theorem nextHeld_map (memory : Memory) (rows : Array Bits) (port : ReadPort) (register : Register) (held : Bits) :
    (memory.map f).nextHeld value rows (port.map f) (register.map f) held =
      memory.nextHeld (value ∘ f) rows port register held := by
  have clock : (register.map f).clock.isConst = register.clock.isConst := constant _
  have addr : (port.map f).addr.map value = port.addr.map (value ∘ f) := List.map_map
  unfold nextHeld
  rw [rowWrites_map constant, clock, addr]
  rfl

theorem nextContents_map (memory : Memory) (contents : Contents) :
    (memory.map f).nextContents value contents = memory.nextContents (value ∘ f) contents := by
  have ports : (memory.map f).readPorts = memory.readPorts.map (ReadPort.map f) := rfl
  unfold nextContents
  dsimp only
  rw [rowWrites_map constant, ports, List.zip_map_left, List.map_map]
  refine congrArg (Contents.mk _) (List.map_congr_left ?_)
  rintro ⟨port, held⟩ _
  cases registered : port.register with
  | none => simp [ReadPort.map, registered]
  | some register =>
    cases held with
    | none => simp
    | some word =>
      simp only [Function.comp_apply, Prod.map_apply, id_eq, ReadPort.map, registered, Option.map_some]
      exact congrArg some (nextHeld_map constant memory contents.rows port register word)

end Clocks

end Memory

namespace Cell

theorem map_map (g : Net → Net) (c : Cell) : (c.map f).map g = c.map (g ∘ f) := by
  cases c <;> simp [map, Memory.map_map]

theorem map_id (c : Cell) : c.map id = c := by
  cases c <;> simp [map, Memory.map_id]

/-- Only what becomes of the operands matters. -/
theorem map_congr {g : Net → Net} {c : Cell} (same : ∀ net ∈ c.nets, f net = g net) : c.map f = c.map g := by
  cases c with
  | invert a => exact congrArg invert (List.map_congr_left same)
  | gate kind a b =>
    exact congrArg₂ (gate kind) (List.map_congr_left fun net member => same net (List.mem_append_left _ member))
      (List.map_congr_left fun net member => same net (List.mem_append_right _ member))
  | equal a b =>
    exact congrArg₂ equal (List.map_congr_left fun net member => same net (List.mem_append_left _ member))
      (List.map_congr_left fun net member => same net (List.mem_append_right _ member))
  | memory m => exact congrArg memory (Memory.map_congr same)
  | input name width => rfl
  | output name bus => exact congrArg (output name) (List.map_congr_left same)
  | label name bus => exact congrArg (label name) (List.map_congr_left same)

theorem nets_map (c : Cell) : (c.map f).nets = c.nets.map f := by
  cases c <;> simp [map, nets, Memory.nets_map]

theorem outputBits_map (inputs : Table Bits) (contents : Option Contents) (c : Cell) :
    (c.map f).outputBits value inputs contents = c.outputBits (value ∘ f) inputs contents := by
  cases c with
  | memory m =>
    cases contents with
    | none => rfl
    | some contents => simp [Cell.map, outputBits, Memory.output_map]
  | _ => simp [Cell.map, outputBits]

/-- Only the output of a memory depends on what its slot holds. -/
theorem outputBits_congr {c : Cell} {contents other : Option Contents} (inputs : Table Bits)
    (same : ∀ m, c = .memory m → contents = other) :
    c.outputBits value inputs contents = c.outputBits value inputs other := by
  cases c with
  | memory m => rw [same m rfl]
  | _ => rfl

theorem sources_map (c : Cell) : (c.map f).sources = c.sources.map f := by
  cases c with
  | memory m =>
    simp only [Cell.map, sources, Memory.map, List.flatMap_map, List.map_flatMap]
    congr 1
    funext port
    cases registered : port.register <;> simp [ReadPort.map, registered]
  | _ => simp [Cell.map, sources]

end Cell

namespace Netlist

variable {netlist other : Netlist} {state state' : State}

/-- What a memory with other operands needs in a cycle, if these carry the same bits. -/
theorem neededBy_map (constant : ∀ net, (f net).isConst = net.isConst)
    (same : other.valueIn state' ∘ f = netlist.valueIn state) (memory : Memory) :
    other.neededBy state' (memory.map f) = (netlist.neededBy state memory).map f := by
  have at_net (net : Net) : other.valueIn state' (f net) = netlist.valueIn state net := congrFun same net
  have writes (port : WritePort) : other.neededByWrite state' (memory.map f) (port.map f) =
      (netlist.neededByWrite state memory port).map f := by
    unfold neededByWrite
    rw [Memory.strobe_map, same]
    by_cases strobed : (memory.strobe (netlist.valueIn state) port).isSome = true <;>
      cases held : port.clock.net.isConst <;>
      simp [WritePort.map, Control.map, Control.isConst, constant, strobed, held]
  have reads (port : ReadPort) : other.neededByRead state' (port.map f) =
      (netlist.neededByRead state port).map f := by
    unfold neededByRead
    cases registered : port.register with
    | none => simp [ReadPort.map, registered]
    | some register =>
      by_cases enabled : register.enable.active (netlist.valueIn state register.enable.net) = .one <;>
        cases held : register.clock.net.isConst <;>
        simp_all [ReadPort.map, Register.map, Control.map, Control.isConst, Control.active]
  unfold neededBy
  simp only [Memory.map, List.flatMap_map, List.map_append, List.map_flatMap]
  congr 1
  · exact List.flatMap_congr fun port _ => writes port
  · exact List.flatMap_congr fun port _ => reads port

end Netlist

/-- The name and the width of an input. -/
def Cell.input? : Cell → Option (String × Nat)
  | .input name width => some (name, width)
  | _ => none

theorem Cell.input?_map (f : Net → Net) (c : Cell) : (c.map f).input? = c.input? := by
  cases c <;> rfl

/-- To begin with, the inputs are unknown words. -/
theorem State.inputs_initial (netlist : Netlist) : (State.initial netlist).inputs =
    (netlist.slots.toList.filterMap fun slot => slot.cell?.bind Cell.input?).foldl
      (fun (inputs : Table Bits) entry => inputs.put entry.1 (Bits.unknowns entry.2)) [] := by
  have listed : netlist.slots.toList.filterMap (fun slot => slot.cell?.bind Cell.input?) =
      netlist.cells.filterMap (·.2.input?) := by
    unfold Netlist.cells
    conv_lhs => rw [← List.zipIdx_map_fst 0 netlist.slots.toList, List.filterMap_map]
    rw [List.filterMap_filterMap]
    refine List.filterMap_congr fun entry _ => ?_
    rw [Function.comp_apply]
    cases entry.1.cell? <;> rfl
  rw [listed, List.foldl_filterMap]
  unfold State.initial
  refine congrArg (fun f => netlist.cells.foldl f []) (funext fun inputs => funext fun entry => ?_)
  cases entry.2 <;> rfl

end BankedMemory
