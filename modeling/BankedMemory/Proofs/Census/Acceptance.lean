import BankedMemory.CommandLine.Options
import BankedMemory.Proofs.Census.Networks

/-!
# Memories by options

Options are acceptable if the memory has a size and every enable bit of a writer belongs to a whole number of data
bits. The declarations of the command line then succeed one after the other, and so does the build behind them. Other
options are refused, at the shape of the memory or at its first writer.
-/

namespace BankedMemory

namespace Netlist

/-- Where no chain is longer than one link, a netlist may be applied, and its tally stays. -/
theorem exists_apply {netlist : Netlist} (direct : netlist.rewiring.Direct) : ∃ after,
    netlist.apply = .ok after ∧ after.slots.size = netlist.tally.2 ∧
      ((after.cells.map fun entry => entry.2.className : List String) : Multiset String) = netlist.tally.1 := by
  refine ⟨_, apply_eq_ok_iff.mpr ⟨fun net _ => direct.not_endless net, rfl⟩, ?_, ?_⟩
  · exact (Array.size_map ..).trans netlist.size_arena
  · have same (c : Cell) : (c.map netlist.rewiring.resolve).className = c.className := by
      cases c <;> rfl
    have cells_eq : cells ⟨netlist.arena.map (Slot.map netlist.rewiring.resolve), #[], ∅⟩ =
        cellsIn 0 (netlist.arena.map (Slot.map netlist.rewiring.resolve)).toList := rfl
    rw [cells_eq, Array.toList_map, cellsIn_map, List.map_map]
    simp only [Function.comp_def, same]
    rfl

end Netlist

namespace Storage.Engine

@[simp] theorem ports_withPorts (engine : Engine) (ports : Ports) : (engine.withPorts ports).ports = ports := by
  cases engine <;> rfl

@[simp] theorem withPorts_withPorts (engine : Engine) (ports later : Ports) :
    (engine.withPorts ports).withPorts later = engine.withPorts later := by
  cases engine <;> rfl

/-- A memory under construction, once some writers and readers have been declared. -/
structure Underway (start : Engine) (writers readers : Nat) (engine : Engine) : Prop where
  kept : engine = start.withPorts engine.ports
  sound : engine.ports.Sound
  opened : engine.ports.frozen = false
  blueprint : engine.ports.blueprint = start.ports.blueprint
  capacity : engine.ports.capacity = start.ports.capacity
  writers : engine.ports.writers.length = writers
  readers : engine.ports.readers.length = readers

variable {start engine : Engine} {writers readers : Nat}

theorem Underway.withPorts (underway : Underway start writers readers engine) {ports : Ports} (sound : ports.Sound)
    (opened : ports.frozen = false) (blueprint : ports.blueprint = engine.ports.blueprint)
    (capacity : ports.capacity = engine.ports.capacity) :
    Underway start ports.writers.length ports.readers.length (engine.withPorts ports) := by
  constructor
  case kept => rw [ports_withPorts, underway.kept, withPorts_withPorts]
  all_goals rw [ports_withPorts]
  case sound => exact sound
  case opened => exact opened
  case blueprint => rw [blueprint, underway.blueprint]
  case capacity => rw [capacity, underway.capacity]

theorem Underway.declareWriter (underway : Underway start writers readers engine) {writer : Writer}
    (room : engine.ports.HasRoom) (fits : engine.ports.FitsWriter writer) : ∃ after,
      engine.declareWriter writer = .ok (writers, after) ∧ Underway start (writers + 1) readers after := by
  have declared := Ports.declareWriter_of_fits underway.opened room fits
  refine ⟨engine.withPorts { engine.ports with writers := engine.ports.writers ++ [writer] }, ?_, ?_⟩
  · simp only [Engine.declareWriter, declared, underway.writers, bind, Except.bind, pure, Except.pure]
  · have after := underway.withPorts (underway.sound.addWriter room fits) underway.opened rfl rfl
    rwa [List.length_append, List.length_singleton, underway.writers, underway.readers] at after

theorem Underway.declareReader (underway : Underway start writers readers engine) {reader : Reader}
    (takes : engine.ports.TakesReader reader) : ∃ after,
      engine.declareReader reader = .ok (readers, after) ∧ Underway start writers (readers + 1) after := by
  have declared := Ports.declareReader_of_takes underway.opened takes
  refine ⟨engine.withPorts { engine.ports with readers := engine.ports.readers ++ [reader] }, ?_, ?_⟩
  · simp only [Engine.declareReader, declared, underway.readers, bind, Except.bind, pure, Except.pure]
  · have after := underway.withPorts (underway.sound.addReader takes) underway.opened rfl rfl
    rwa [List.length_append, List.length_singleton, underway.writers, underway.readers] at after

end Storage.Engine

/-- A refusal of some kind. -/
def Storage.Halt.OfKind (kind : RefusalKind) (halt : Halt) : Prop := ∃ cause, halt = .refused cause ∧ cause.kind = kind

namespace CommandLine.Options

open Storage Storage.Build

variable {options : Options}

/-- The memory has a size, and its rows can be divided as the writers need it. -/
def Acceptable (options : Options) : Prop :=
  0 < options.width ∧ 0 < options.depth ∧
    ∀ granularity, options.granularity = some granularity →
      0 < granularity ∧ (options.writers = 0 ∨ granularity ∣ options.width)

def blueprint (options : Options) : Blueprint := ⟨options.width, options.depth, [], []⟩

def writerTally (options : Options) : Tally :=
  Tally.cell "input" options.blueprint.addressWidth +
    (Tally.cell "input" options.width + Tally.cell "input" options.enableWidth)

def readerTally (options : Options) : Tally :=
  Tally.cell "input" options.blueprint.addressWidth + Tally.cell "input" 1

section Declarations

variable {clock : Control} {engine : Engine} {index : Nat}

theorem blueprint_engine (options : Options) (blueprint : Blueprint) (clock : Control) :
    (options.engine blueprint clock).ports.blueprint = blueprint := by
  unfold Options.engine
  split <;> rfl

theorem costs_addWriter (acceptable : options.Acceptable) (few : index < options.writers)
    (underway : (options.engine options.blueprint clock).Underway index 0 engine) :
    Costs (options.addWriter engine index) options.writerTally
      ((options.engine options.blueprint clock).Underway (index + 1) 0) := by
  have blueprint := underway.blueprint.trans (blueprint_engine options options.blueprint clock)
  unfold addWriter writerTally
  rw [blueprint]
  refine costs_bind (costs_add rfl) fun addr addressed => costs_bind (costs_add rfl) fun data wide => ?_
  refine costs_bind_free (costs_add rfl) fun enable enabled => ?_
  have divides : Ports.Divides options.width enable options.granularity := by
    cases granted : options.granularity with
    | none =>
      show enable.length = 1
      simpa [Cell.outputWidth, enableWidth, granted] using enabled
    | some granularity =>
      obtain ⟨positive, none_or_divides⟩ := acceptable.2.2 granularity granted
      refine ⟨positive, none_or_divides.resolve_left (by omega), ?_⟩
      simpa [Cell.outputWidth, enableWidth, granted] using enabled
  have room : engine.ports.HasRoom := by
    intro capacity limited
    rw [underway.capacity, Options.engine] at limited
    rw [underway.writers]
    split at limited
    · cases limited
      omega
    · cases limited
  have fits : engine.ports.FitsWriter ⟨addr, data, enable, options.granularity⟩ := by
    rw [Ports.FitsWriter, blueprint]
    exact ⟨addressed, wide, divides⟩
  obtain ⟨after, declared, underway⟩ := underway.declareWriter room fits
  exact costs_ofRefusal_bind declared (costs_pure underway)

theorem costs_addReader (underway : (options.engine options.blueprint clock).Underway options.writers index engine) :
    Costs (options.addReader engine index) options.readerTally
      ((options.engine options.blueprint clock).Underway options.writers (index + 1)) := by
  have blueprint := underway.blueprint.trans (blueprint_engine options options.blueprint clock)
  unfold addReader readerTally
  rw [blueprint]
  refine costs_bind (costs_add rfl) fun addr addressed => costs_bind_free (costs_add rfl) fun bus single => ?_
  obtain ⟨enable, rfl⟩ := List.length_eq_one_iff.mp single
  refine costs_ofFault_bind (rfl : Bus.single [enable] = .ok enable) ?_
  dsimp only
  have takes : engine.ports.TakesReader ((Reader.ofNets addr enable).observing
      (if options.transparent then List.range options.writers else [])) := by
    constructor
    · rw [blueprint]
      exact addressed
    · intro writer observed
      rw [underway.writers]
      simp only [Reader.observing, Reader.ofNets, List.nil_append, List.mem_eraseDups, List.mem_mergeSort] at observed
      split at observed
      · exact List.mem_range.mp observed
      · exact absurd observed List.not_mem_nil
  obtain ⟨after, declared, underway⟩ := underway.declareReader takes
  exact costs_ofRefusal_bind declared (costs_pure underway)

theorem costs_addWriters (acceptable : options.Acceptable) (clock : Control) :
    Costs ((List.range options.writers).foldlM options.addWriter (options.engine options.blueprint clock))
      (options.writers • options.writerTally)
      ((options.engine options.blueprint clock).Underway options.writers 0) := by
  have start : (options.engine options.blueprint clock).Underway 0 0 (options.engine options.blueprint clock) := by
    unfold Options.engine
    split
    · exact ⟨rfl, Ports.sound_ofBlueprint _ _, rfl, rfl, rfl, rfl, rfl⟩
    · exact ⟨rfl, Ports.sound_ofBlueprint _ _, rfl, rfl, rfl, rfl, rfl⟩
  exact costs_foldlM_range (fun writers => (options.engine options.blueprint clock).Underway writers 0) start
    fun index few engine underway => costs_addWriter acceptable few underway

theorem costs_addReaders (underway : (options.engine options.blueprint clock).Underway options.writers 0 engine) :
    Costs ((List.range options.readers).foldlM options.addReader engine) (options.readers • options.readerTally)
      ((options.engine options.blueprint clock).Underway options.writers options.readers) :=
  costs_foldlM_range _ underway fun _ _ _ underway => costs_addReader underway

end Declarations

/-- What the memory costs without its inputs and outputs. -/
def memoryTally (options : Options) : Tally :=
  let bank := bankTally options.width (some "mem")
  if options.writers ≤ 1 then options.readers • bank
  else (if options.lowestIndexWins then XorNetwork.arbitrationTally options.width options.writers else 0) +
    options.writers • Tally.placeholders options.width +
      ((options.writers * (options.writers - 1)) • XorNetwork.relayTally options.width (some "mem") +
        (options.writers • (options.readers • bank) +
          options.readers • ((options.writers - 1) • Tally.cell "xor" options.width)))

/-- What the whole netlist costs: the clock, the other inputs, the memory, and the outputs. -/
def tally (options : Options) : Tally :=
  Tally.cell "input" 1 + (options.writers • options.writerTally + (options.readers • options.readerTally +
    (options.memoryTally + options.readers • Tally.cell "output" 0)))

theorem memoryTally_of_underway {clock : Control} {engine : Engine}
    (underway : (options.engine options.blueprint clock).Underway options.writers options.readers engine) :
    engine.tally = options.memoryTally := by
  have blueprint := underway.blueprint.trans (blueprint_engine options options.blueprint clock)
  rw [underway.kept]
  unfold Options.engine memoryTally
  split
  · simp only [Engine.withPorts, Engine.tally, underway.readers, blueprint]
    rfl
  · simp only [Engine.withPorts, Engine.tally, XorNetwork.tally, XorNetwork.lanesTally, XorNetwork.maskingTally,
      XorNetwork.ofBlueprint, arbitration, underway.readers, underway.writers, blueprint]
    cases options.lowestIndexWins <;> rfl

theorem several_of_underway {clock : Control} {engine : Engine}
    (underway : (options.engine options.blueprint clock).Underway options.writers options.readers engine) :
    engine.Several := by
  have writers := underway.writers
  rw [underway.kept]
  unfold Options.engine
  split
  · trivial
  · show 1 < engine.ports.writers.length
    omega

/-- For acceptable options whose sizes fit the memory is built, with exactly the cells and slots of their tally. -/
theorem exists_construct (acceptable : options.Acceptable) (storable : options.blueprint.Storable)
    (room : Netlist.empty.Numbered options.tally.2) (events : Array Event) : ∃ netlist after,
      Ends options.construct ⟨.empty, events⟩ netlist after ∧ netlist.slots.size = options.tally.2 ∧
        ((netlist.cells.map fun entry => entry.2.className : List String) : Multiset String) = options.tally.1 := by
  let writing := options.writers • options.writerTally
  let reading := options.readers • options.readerTally
  let showing := options.readers • Tally.cell "output" 0
  let bench : Workbench := ⟨.empty, events⟩
  have room : bench.netlist.Numbered
      ((Tally.cell "input" 1).2 + (writing.2 + (reading.2 + (options.memoryTally.2 + showing.2)))) := room
  have shape : Blueprint.ofShape options.width options.depth = .ok options.blueprint :=
    Blueprint.ofShape_eq_ok_iff.mpr
      ⟨Nat.pos_iff_ne_zero.mp acceptable.1, Nat.pos_iff_ne_zero.mp acceptable.2.1, rfl⟩
  obtain ⟨bus, first, clocked, of_clock, single⟩ := costs_add (c := .input "clk" 1) rfl bench
    (room.mono (Nat.le_add_right _ _))
  have room_first : first.netlist.Numbered (writing.2 + (reading.2 + (options.memoryTally.2 + showing.2))) :=
    of_clock.numbered room
  obtain ⟨clock, rfl⟩ := List.length_eq_one_iff.mp single
  obtain ⟨writable, second, written, of_writers, underway⟩ := costs_addWriters acceptable (.high clock) first
    (room_first.mono (Nat.le_add_right _ _))
  have room_second : second.netlist.Numbered (reading.2 + (options.memoryTally.2 + showing.2)) :=
    of_writers.numbered room_first
  obtain ⟨engine, third, read, of_readers, underway⟩ := costs_addReaders underway second
    (room_second.mono (Nat.le_add_right _ _))
  have room_third : third.netlist.Numbered (options.memoryTally.2 + showing.2) := of_readers.numbered room_second
  have cost := memoryTally_of_underway underway
  have blueprint := underway.blueprint.trans (blueprint_engine options options.blueprint _)
  have untied : third.netlist.rewiring = ∅ := by
    rw [of_readers.rewiring, of_writers.rewiring, of_clock.rewiring]
    rfl
  obtain ⟨assembly, fourth, built, of_memory, direct, count⟩ := engine.exists_construct underway.opened
    underway.sound (by rwa [blueprint]) (several_of_underway underway)
    (cost ▸ room_third.mono (Nat.le_add_right _ _)) untied
  have room_fourth : fourth.netlist.Numbered showing.2 := by
    have next : fourth.netlist.next = third.netlist.next + engine.tally.2 := congrArg Prod.snd of_memory
    rw [cost] at next
    rw [Netlist.Numbered] at room_third ⊢
    omega
  have shows : ∀ entry ∈ assembly.readData.zipIdx, Costs (do let _ ← Build.add (.output s!"rdata{entry.2}" entry.1))
      (Tally.cell "output" 0) fun _ => True :=
    fun entry _ => costs_bind_free (costs_add rfl) fun _ _ => costs_pure trivial
  have showing_costs := costs_forM_const shows
  rw [List.length_zipIdx, count, underway.readers] at showing_costs
  obtain ⟨_, fifth, shown, of_outputs, _⟩ := showing_costs fourth room_fourth
  have total : fifth.netlist.tally = options.tally := by
    have nothing : bench.netlist.tally = 0 := rfl
    rw [of_outputs.tally, of_memory, cost, of_readers.tally, of_writers.tally, of_clock.tally, nothing]
    simp only [zero_add, add_assoc]
    rfl
  obtain ⟨netlist, applied, size, kinds⟩ := Netlist.exists_apply (of_outputs.rewiring ▸ direct)
  rw [total] at size kinds
  unfold construct
  refine exists_ends_bind (ends_ofRefusal.mpr ⟨shape, rfl⟩) (exists_ends_bind clocked ?_)
  refine exists_ends_bind (ends_ofFault.mpr ⟨(rfl : Bus.single [clock] = .ok clock), rfl⟩) ?_
  refine exists_ends_bind written (exists_ends_bind read (exists_ends_bind built ?_))
  refine exists_ends_bind shown (exists_ends_bind (ends_get.mpr ⟨rfl, rfl⟩) ?_)
  refine exists_ends_bind (ends_ofFault.mpr ⟨applied, rfl⟩) (exists_ends_bind (ends_report.mpr rfl : Ends _ _ () _) ?_)
  exact ⟨netlist, _, ends_pure.mpr ⟨rfl, rfl⟩, size, kinds⟩

/-! ### Options that are refused -/

/-- The declaration of the first writer is refused if its enable bits would not divide a row evenly. -/
theorem refuses_addWriter {clock : Control} {bench : Workbench} {granularity : Nat}
    (granted : options.granularity = some granularity) (uneven : ¬ granularity ∣ options.width)
    (room : bench.netlist.Numbered options.writerTally.2) :
    (options.addWriter (options.engine options.blueprint clock) 0).Stops bench (Halt.OfKind .configuration) := by
  have opened : (options.engine options.blueprint clock).ports.frozen = false := by
    unfold Options.engine
    split <;> rfl
  have has_room : (options.engine options.blueprint clock).ports.HasRoom := by
    unfold Options.engine
    split
    · rintro _ ⟨⟩
      exact Nat.one_pos
    · rintro _ ⟨⟩
  unfold addWriter
  rw [blueprint_engine]
  refine (costs_add rfl).stops_bind (room.mono (Nat.le_add_right _ _)) fun addr first addressed _ => ?_
  have room_first := addressed.numbered room
  refine (costs_add rfl).stops_bind (room_first.mono (Nat.le_add_right _ _)) fun data second offered _ => ?_
  refine (costs_add rfl).stops_bind (offered.numbered room_first) fun enable third _ _ => stops_bind_left ?_
  have misfit (addr data enable : Bus) : ¬ (options.engine options.blueprint clock).ports.FitsWriter
      ⟨addr, data, enable, options.granularity⟩ := by
    rintro ⟨_, _, divides⟩
    rw [blueprint_engine, granted] at divides
    exact uneven divides.2.1
  obtain ⟨cause, refused, kind⟩ := Ports.declareWriter_misfit opened has_room (misfit addr data enable)
  refine stops_ofRefusal ?_ ⟨cause, rfl, kind⟩
  rw [Engine.declareWriter, refused]
  rfl

theorem refuses_construct (unacceptable : ¬ options.Acceptable) (positive : options.granularity ≠ some 0)
    {bench : Workbench} (room : 0 < options.width → bench.netlist.Numbered options.tally.2) :
    options.construct.Stops bench (Halt.OfKind .configuration) := by
  unfold construct
  by_cases no_width : options.width = 0
  · exact stops_bind_left (stops_ofRefusal (if_pos no_width) ⟨.zeroWidth, rfl, rfl⟩)
  by_cases no_depth : options.depth = 0
  · refine stops_bind_left (stops_ofRefusal ?_ ⟨.zeroDepth, rfl, rfl⟩)
    rw [Blueprint.ofShape, if_neg no_width, if_pos no_depth]
  have shape : Blueprint.ofShape options.width options.depth = .ok options.blueprint :=
    Blueprint.ofShape_eq_ok_iff.mpr ⟨no_width, no_depth, rfl⟩
  -- what is left is a granularity that does not divide a row, and a first writer that it is given to
  obtain ⟨granularity, granted, some_writer, uneven⟩ : ∃ granularity, options.granularity = some granularity ∧
      options.writers ≠ 0 ∧ ¬ granularity ∣ options.width := by
    by_contra all
    push Not at all
    refine unacceptable ⟨Nat.pos_of_ne_zero no_width, Nat.pos_of_ne_zero no_depth, fun granularity granted => ?_⟩
    refine ⟨Nat.pos_of_ne_zero ?_, or_iff_not_imp_left.mpr (all granularity granted)⟩
    rintro rfl
    exact positive granted
  obtain ⟨others, count⟩ := Nat.exists_eq_succ_of_ne_zero some_writer
  refine stops_bind_right (ends_ofRefusal.mpr ⟨shape, rfl⟩) ?_
  have room := room (Nat.pos_of_ne_zero no_width)
  refine (costs_add rfl).stops_bind (room.mono (Nat.le_add_right _ _)) fun bus after clocked single => ?_
  obtain ⟨clock, rfl⟩ := List.length_eq_one_iff.mp single
  refine stops_bind_right (ends_ofFault.mpr ⟨(rfl : Bus.single [clock] = .ok clock), rfl⟩) (stops_bind_left ?_)
  have first_writer : options.writerTally.2 ≤ (options.writers • options.writerTally).2 := by
    rw [Prod.smul_snd, nsmul_eq_mul]
    exact Nat.le_mul_of_pos_left _ (Nat.pos_of_ne_zero some_writer)
  have room_first := (clocked.numbered room).mono (Nat.le_trans first_writer (Nat.le_add_right _ _))
  rw [count, List.range_succ_eq_map, List.foldlM_cons]
  exact stops_bind_left (refuses_addWriter granted uneven room_first)

end CommandLine.Options

end BankedMemory
