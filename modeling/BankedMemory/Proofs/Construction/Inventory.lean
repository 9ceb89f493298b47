import BankedMemory.Netlist.Census
import BankedMemory.Proofs.Construction.Bookkeeping
import BankedMemory.Proofs.Network.Coherence

/-!
# The banks of a built memory

A build lists its banks in a fixed order, the relays before the replicas and both pair by pair. Each bank is a memory
of its own, with the ports that its role tells, and the build adds no other memories. All that was in the netlist
before stays as it was.
-/

namespace BankedMemory

namespace Netlist

variable {netlist before after : Netlist} {revisions : List Revision}

/-- The netlist with its queue behind its applied slots. -/
def laidOut (netlist : Netlist) : Netlist := ⟨netlist.arena, #[], netlist.rewiring⟩

/-- The cells of a longer arena are the old ones and those that were added. -/
theorem cells_laidOut_of_extends (longer : before.Extends after) :
    after.laidOut.cells = before.laidOut.cells ++ after.added before.next := by
  have old : after.arena.toList.take before.next = before.arena.toList := by
    refine List.ext_getElem? fun index => ?_
    rw [List.getElem?_take, Array.getElem?_toList, Array.getElem?_toList]
    split
    · rename_i inside
      exact longer.arena index inside
    · rename_i outside
      exact (Array.getElem?_eq_none (by rw [size_arena]; omega)).symm
  have size : before.arena.toList.length = before.next := by rw [Array.length_toList, size_arena]
  have both : cellsIn 0 after.arena.toList =
      cellsIn 0 (before.arena.toList ++ after.arena.toList.drop before.next) := by
    rw [← old, List.take_append_drop]
  rw [cellsIn_append, size, Nat.zero_add] at both
  exact both

/-- The cells of a revised netlist are those that it had, with their operands resolved, and later ones. -/
theorem cells_reviseAll (h : netlist.reviseAll revisions = .ok after) (applied : .apply ∈ revisions) :
    ∃ later, after.cells =
        (netlist.laidOut.cells.map fun entry => (entry.1, entry.2.map (netlist.resolvedAll revisions))) ++ later ∧
      ∀ entry ∈ later, netlist.next ≤ entry.1 := by
  have full := next_le_size_slots h applied
  have old : after.slots.toList.take netlist.next =
      netlist.arena.toList.map (Slot.map (netlist.resolvedAll revisions)) := by
    refine List.ext_getElem? fun index => ?_
    rw [List.getElem?_take, List.getElem?_map, Array.getElem?_toList, Array.getElem?_toList]
    split
    · rename_i inside
      have found := Array.getElem?_eq_getElem (size_arena netlist ▸ inside)
      rw [found, slots_reviseAll h applied found]
      rfl
    · rename_i outside
      rw [Array.getElem?_eq_none (by rw [size_arena]; omega)]
      rfl
  have size : (netlist.arena.toList.map (Slot.map (netlist.resolvedAll revisions))).length = netlist.next := by
    rw [List.length_map, Array.length_toList, size_arena]
  have both : cellsIn 0 after.slots.toList = cellsIn 0 (netlist.arena.toList.map
      (Slot.map (netlist.resolvedAll revisions)) ++ after.slots.toList.drop netlist.next) := by
    rw [← old, List.take_append_drop]
  rw [cellsIn_append, cellsIn_map, size, Nat.zero_add] at both
  refine ⟨cellsIn netlist.next (after.slots.toList.drop netlist.next), both, ?_⟩
  exact fun entry member => (mem_cellsIn.mp member).1

end Netlist

namespace Storage

open Build

namespace XorNetwork

variable {network : XorNetwork} {Has : Bus → Cell → Prop} {lanes : List Lane} {banks : List Bank}

/-- The roles of all banks: a relay from each writer to each other one, and then a replica of each writer for each
reader. -/
def roles (network : XorNetwork) : List Role :=
  let writers := List.range network.ports.writers.length
  (writers.flatMap fun source => (writers.filter fun sink => sink ≠ source).map (.relay source)) ++
    writers.flatMap fun writer => (List.range network.ports.readers.length).map (.replica writer)

/-- What the banks of a writer start with: the rows of the memory for the first writer, and zeros for the others. -/
def startOf (blueprint : Blueprint) (writer : Nat) : Bits :=
  if writer = 0 then blueprint.filledRows else Bits.zeros (blueprint.depth * blueprint.width)

/-- A bank has the write port of one lane. A relay reads at the address of another lane at once, and a replica serves
one reader in the next cycle. -/
def Wired (network : XorNetwork) (Has : Bus → Cell → Prop) (lanes : List Lane) (bank : Bank) : Prop :=
  let blueprint := network.ports.blueprint
  match bank.role with
  | .relay source sink => ∃ first ∈ lanes[source]?, ∃ last ∈ lanes[sink]?, Has bank.output (.memory
      { depth := blueprint.depth
        width := blueprint.width
        init := startOf blueprint source
        attributes := blueprint.attributes
        writePorts := [⟨first.writer.addr, first.data, first.mask, network.clock⟩]
        readPorts := [⟨last.writer.addr, blueprint.width, none⟩] })
  | .replica writer reader => ∃ lane ∈ lanes[writer]?, ∃ port ∈ network.ports.readers[reader]?, Has bank.output (.memory
      { depth := blueprint.depth
        width := blueprint.width
        init := startOf blueprint writer
        attributes := blueprint.attributes
        writePorts := [⟨lane.writer.addr, lane.data, lane.mask, network.clock⟩]
        readPorts := [⟨port.addr, blueprint.width, some ⟨network.clock, .high port.enable,
          Bits.unknowns blueprint.width, [if writer ∈ port.observed then .after else .before]⟩⟩] })

theorem filledRows_groupBlueprint (network : XorNetwork) (writer : Nat) :
    (network.groupBlueprint writer).filledRows = startOf network.ports.blueprint writer := by
  unfold groupBlueprint startOf
  split
  · rfl
  · exact List.nil_append _

theorem attributes_groupBlueprint (network : XorNetwork) (writer : Nat) :
    (network.groupBlueprint writer).attributes = network.ports.blueprint.attributes := by
  unfold groupBlueprint
  split <;> rfl

theorem map_snd_zipIdx {α : Type} (l : List α) : l.zipIdx.map Prod.snd = List.range l.length := by
  rw [List.zipIdx_map_snd, List.range_eq_range']

theorem map_role_pairs (lanes : List Lane) : ((pairs lanes).map fun pair => Role.relay pair.1.2 pair.2.2) =
    (List.range lanes.length).flatMap fun source =>
      ((List.range lanes.length).filter fun sink => sink ≠ source).map (.relay source) := by
  have sinks (source : Nat) : ((List.range lanes.length).filter fun sink => sink ≠ source) =
      (otherLanes lanes source).map Prod.snd := by
    rw [← map_snd_zipIdx lanes, List.filter_map]
    rfl
  simp only [sinks]
  rw [pairs, List.map_flatMap, ← map_snd_zipIdx lanes, List.flatMap_map]
  simp only [List.map_map]
  rfl

/-- The banks have their roles in order, as many writers as there are lanes. -/
theorem Stocked.roles (stocked : network.Stocked Has lanes banks)
    (full : lanes.length = network.ports.writers.length) : banks.map Bank.role = network.roles := by
  obtain ⟨relays, groups, rfl, each_relay, each_group⟩ := stocked
  have of_relays : relays.map Bank.role = (pairs lanes).map fun pair => Role.relay pair.1.2 pair.2.2 := by
    rw [map_eq_map_iff_forall₂]
    exact each_relay.flip.imp fun bank pair relay => relay.1
  have of_group (source : Lane × Nat) (group : List Bank)
      (each : List.Forall₂ (network.IsReplica Has source) network.ports.readers.zipIdx group) :
      group.map Bank.role = (List.range network.ports.readers.length).map (.replica source.2) := by
    rw [← map_snd_zipIdx, List.map_map, map_eq_map_iff_forall₂]
    exact each.flip.imp fun bank entry replica => replica.1
  have of_groups : groups.flatten.map Bank.role = (List.range lanes.length).flatMap fun writer =>
      (List.range network.ports.readers.length).map (.replica writer) := by
    rw [← map_snd_zipIdx lanes, List.flatMap_map]
    generalize lanes.zipIdx = sources at each_group
    induction each_group with
    | nil => rfl
    | cons each _ ih => rw [List.flatten_cons, List.map_append, of_group _ _ each, ih, List.flatMap_cons]
  rw [List.map_append, of_relays, of_groups, map_role_pairs, XorNetwork.roles, full]

theorem length_filter_ne {count k : Nat} (inside : k < count) :
    ((List.range count).filter fun other => other ≠ k).length = count - 1 := by
  have erased : ((List.range count).filter fun other => other ≠ k) = (List.range count).erase k := by
    rw [List.nodup_range.erase_eq_filter]
    exact List.filter_congr fun other _ => by simp [bne, beq_eq_decide]
  rw [erased, List.length_erase_of_mem (List.mem_range.mpr inside), List.length_range]

theorem length_roles (network : XorNetwork) : network.roles.length = network.expectedBanks := by
  have each {count : Nat} {f : Nat → List Role} {width : Nat} (wide : ∀ k < count, (f k).length = width) :
      ((List.range count).flatMap f).length = count * width := by
    have alike : (List.range count).map (fun k => (f k).length) = (List.range count).map fun _ => width :=
      List.map_congr_left fun k member => wide k (List.mem_range.mp member)
    rw [List.length_flatMap, alike, List.map_const', List.sum_replicate_nat, List.length_range]
  rw [roles, expectedBanks, List.length_append, each fun k inside => by rw [List.length_map, length_filter_ne inside],
    each fun k _ => by rw [List.length_map, List.length_range], Nat.mul_add]

theorem Layout.wired {Tied : Bus → Bus → Prop} {assembly : Assembly} (layout : network.Layout Has Tied assembly lanes) :
    ∀ bank ∈ assembly.banks, network.Wired Has lanes bank := by
  intro bank member
  unfold Wired
  rcases layout.banks.mem_cases member with ⟨source, at_source, sink, at_sink, role, init, word, has⟩ |
      ⟨source, at_source, entry, at_entry, role, init, word, has⟩
  · rw [role]
    rw [Blueprint.eq_filledRows word, relayBank, filledRows_groupBlueprint, attributes_groupBlueprint,
      depth_groupBlueprint, width_groupBlueprint] at has
    have at_sink := (List.mem_filter.mp at_sink).1
    exact ⟨source.1, List.mem_zipIdx_iff_getElem?.mp at_source, sink.1, List.mem_zipIdx_iff_getElem?.mp at_sink, has⟩
  · rw [role]
    rw [Blueprint.eq_filledRows word, replicaBank, filledRows_groupBlueprint, attributes_groupBlueprint,
      depth_groupBlueprint, width_groupBlueprint] at has
    simp only [Reader.observes_iff] at has
    exact ⟨source.1, List.mem_zipIdx_iff_getElem?.mp at_source, entry.1, List.mem_zipIdx_iff_getElem?.mp at_entry, has⟩

end XorNetwork

namespace Replicated

/-- The port of all banks: that of the writer, or one that never writes if there is no writer. -/
def DrivenBy (memory : Replicated) (port : WritePort) : Prop :=
  (∃ writer, memory.ports.writers.head? = some writer ∧
    port = ⟨writer.addr, writer.data, writer.mask, memory.clock⟩) ∨
  memory.ports.writers = [] ∧ port = ⟨List.replicate memory.ports.blueprint.addressWidth .zero,
    List.replicate memory.ports.blueprint.width .zero, List.replicate memory.ports.blueprint.width .zero, memory.clock⟩

/-- A bank has the given write port and serves one reader in the next cycle. -/
def Wired (memory : Replicated) (Has : Bus → Cell → Prop) (port : WritePort) (bank : Bank) : Prop :=
  let blueprint := memory.ports.blueprint
  ∃ k, bank.role = .replica 0 k ∧ ∃ reader ∈ memory.ports.readers[k]?, Has bank.output (.memory
    { depth := blueprint.depth
      width := blueprint.width
      init := blueprint.filledRows
      attributes := blueprint.attributes
      writePorts := [port]
      readPorts := [⟨reader.addr, blueprint.width, some ⟨memory.clock, .high reader.enable,
        Bits.unknowns blueprint.width, [if memory.ports.writers ≠ [] ∧ 0 ∈ reader.observed then .after else .before]⟩⟩] })

variable {memory : Replicated} {Has : Bus → Cell → Prop} {assembly : Assembly} {port : WritePort} {init : Bits}

theorem WrittenBy.drivenBy (written : memory.WrittenBy port) : memory.DrivenBy port := by
  unfold WrittenBy at written
  cases first : memory.ports.writers.head? with
  | some writer =>
    rw [first] at written
    exact .inl ⟨writer, first, written⟩
  | none =>
    rw [first] at written
    obtain ⟨addr, addr_eq, written⟩ := Build.except_bind_eq_ok.mp written
    obtain ⟨data, data_eq, written⟩ := Build.except_bind_eq_ok.mp written
    obtain rfl := Bus.eq_of_filled addr_eq
    obtain rfl := Bus.eq_of_filled data_eq
    cases written
    exact .inr ⟨List.head?_eq_none_iff.mp first, rfl⟩

/-- The banks of a memory that tells the writer 0 have the ports of its readers, in their order. -/
theorem Layout.wired (layout : memory.Layout Has assembly port init) (writer : memory.writer = 0) :
    ∀ bank ∈ assembly.banks, memory.Wired Has port bank := by
  intro bank member
  obtain ⟨k, at_place⟩ := List.mem_iff_getElem?.mp member
  have replicas := layout.replicas
  rw [← layout.outputs, List.forall₂_map_right_iff] at replicas
  obtain ⟨reader, found, has⟩ := forall₂_right replicas at_place
  have role := congrArg (·[k]?) layout.roles
  obtain ⟨inside, _⟩ := List.getElem?_eq_some_iff.mp found
  simp only [List.getElem?_map, at_place, List.getElem?_range inside, Option.map_some, Option.some.injEq,
    writer] at role
  have some_reader : memory.ports.readers ≠ [] := List.ne_nil_of_mem (List.mem_of_getElem? found)
  rw [Blueprint.eq_filledRows (layout.initial some_reader), replica, readPort, visibility_eq] at has
  exact ⟨k, role, reader, found, has⟩

end Replicated

namespace Engine

open Build

/-- An engine as its user makes it: from a blueprint, by declaring readers and writers. -/
inductive Declared : Engine → Prop where
  | replicated (blueprint : Blueprint) (clock : Control) (name : Option String) :
      Declared (.replicated (.ofBlueprint blueprint clock name))
  | xorNetwork (blueprint : Blueprint) (clock : Control) (name : Option String) (arbitration : Arbitration) :
      Declared (.xorNetwork (.ofBlueprint blueprint clock name arbitration))
  | reader {engine after : Engine} {reader : Reader} {handle : Nat} (declared : Declared engine)
      (accepted : engine.declareReader reader = .ok (handle, after)) : Declared after
  | writer {engine after : Engine} {writer : Writer} {handle : Nat} (declared : Declared engine)
      (accepted : engine.declareWriter writer = .ok (handle, after)) : Declared after

/-- The writer that the roles of a memory with one writer tell. -/
def writer : Engine → Nat
  | replicated memory => memory.writer
  | xorNetwork _ => 0

theorem writer_withPorts (engine : Engine) (ports : Ports) : (engine.withPorts ports).writer = engine.writer := by
  cases engine <;> rfl

/-- A memory with one writer tells the writer 0, unless it is a part of a larger memory. -/
theorem Declared.writer_eq {engine : Engine} (declared : engine.Declared) : engine.writer = 0 := by
  induction declared with
  | replicated blueprint clock name => rfl
  | xorNetwork blueprint clock name arbitration => rfl
  | reader _ accepted ih =>
    obtain ⟨_, _, same⟩ := except_bind_eq_ok.mp accepted
    cases same
    rw [writer_withPorts, ih]
  | writer _ accepted ih =>
    obtain ⟨_, _, same⟩ := except_bind_eq_ok.mp accepted
    cases same
    rw [writer_withPorts, ih]

/-- The roles of all banks, in order. -/
def roles : Engine → List Role
  | replicated memory => (List.range memory.ports.readers.length).map (.replica 0)
  | xorNetwork network => network.roles

theorem length_roles (engine : Engine) : engine.roles.length = engine.expectedBanks := by
  cases engine with
  | replicated memory => exact (List.length_map _).trans List.length_range
  | xorNetwork network => exact network.length_roles

/-- Each bank has the ports that its role tells. -/
def Wired (Has : Bus → Cell → Prop) (banks : List Bank) : Engine → Prop
  | replicated memory => ∃ port, memory.DrivenBy port ∧ ∀ bank ∈ banks, memory.Wired Has port bank
  | xorNetwork network => ∃ lanes : List Lane, lanes.map Lane.writer = network.ports.writers ∧
      (∀ source ∈ lanes.zipIdx, network.MaskedBy Has source.2 source.1.writer source.1.mask) ∧
      ∀ bank ∈ banks, network.Wired Has lanes bank

variable {engine : Engine}

theorem build_of_ends {bench after : Workbench} {assembly : Assembly}
    (ended : engine.construct.Ends bench assembly after) :
    ∃ ports, engine.ports.freeze = .ok ports ∧ engine.build bench = (.ok assembly, engine.withPorts ports, after) := by
  unfold construct at ended
  obtain ⟨ports, middle, frozen, assembled⟩ := ends_bind.mp ended
  obtain ⟨freezes, rfl⟩ := ends_ofRefusal.mp frozen
  refine ⟨ports, freezes, ?_⟩
  have done : (engine.withPorts ports).assemble.run.run middle = (.ok assembly, after) := assembled
  unfold build
  rw [freezes]
  simp only [done]

/-- A build declares no further ports. -/
theorem expectedBanks_build {bench after : Workbench} {assembly : Assembly}
    (ended : engine.construct.Ends bench assembly after) :
    (engine.build bench).2.1.expectedBanks = engine.expectedBanks := by
  obtain ⟨ports, freezes, built⟩ := build_of_ends ended
  rw [built, Ports.eq_of_freeze freezes]
  cases engine <;> rfl

/-- What a build leaves in the netlist. -/
structure Inventory (engine : Engine) (site : Standing engine.construct) : Prop where
  roles : site.assembly.banks.map Bank.role = engine.roles
  /-- The number of banks is known before the build and after it. -/
  count : site.assembly.banks.length = engine.expectedBanks
  count_after : (engine.build (.ofNetlist site.before)).2.1.expectedBanks = site.assembly.banks.length
  wired : engine.Wired site.Has site.assembly.banks
  /-- Each bank is the whole output of a memory of its own, and neither banks nor other memories are added besides. -/
  placed : ∃ slots moreMemories moreBanks : List Nat,
    slots.map site.netlist.outputOf = site.assembly.banks.map Bank.output ∧ slots.Nodup ∧
      (∀ slot ∈ slots, site.before.next ≤ slot ∧ slot < site.bench.netlist.next) ∧
      site.netlist.memories.map Prod.fst = site.before.laidOut.memories.map Prod.fst ++ slots ++ moreMemories ∧
      site.netlist.banks = site.before.laidOut.banks ++ slots ++ moreBanks ∧
      ∀ slot ∈ moreMemories ++ moreBanks, site.bench.netlist.next ≤ slot
  /-- What was there before stays in its place. -/
  kept : ∀ (index : Nat) (slot : Slot), site.before.arena[index]? = some slot →
    site.bench.netlist.arena[index]? = some slot ∧ site.netlist.slots[index]? = some (slot.map site.resolve)
  /-- Only placeholders of the build are replaced by it. -/
  rewired : ∀ net, ¬ site.bench.netlist.Blank site.before.next [net] →
    site.bench.netlist.rewiring.target? net = site.before.rewiring.target? net

end Engine

namespace XorNetwork

variable {network : XorNetwork}

/-- Without a writer there are no banks, and the data of each reader is constant. -/
theorem adds_nothing (no_writer : network.ports.writers = []) : Adds (fun _ => True) network.build
    fun assembly _ => assembly.banks = [] ∧ ∀ data ∈ assembly.readData, ∀ net ∈ data, ∃ bit, net = .const bit := by
  unfold build
  refine adds_ofRefusal_bind fun ports frozen => ?_
  rw [Ports.eq_of_freeze frozen]
  unfold assemble
  refine adds_ofRefusal_bind fun _ _ => adds_then adds_reported fun _ => ?_
  simp only [no_writer, List.isEmpty_nil, if_true]
  refine adds_then adds_reported fun _ => ?_
  refine adds_then ((adds_results (fun readData _ => ∀ data ∈ readData, ∀ net ∈ data, ∃ bit, net = .const bit)
    network.ports.readers fun done reader _ => adds_ofFault fun data _ filled constant => ?_).strengthen
      fun _ _ _ member => nomatch member) fun readData => adds_pure fun _ constant => ⟨rfl, constant⟩
  refine List.forall_mem_append.mpr ⟨constant, List.forall_mem_singleton.mpr fun net member => ?_⟩
  exact ⟨_, Bus.eq_of_mem_filled filled member⟩

end XorNetwork

namespace Standing

variable {build : Build Assembly} (site : Standing build)

/-- The memories of the netlist are those that there were before, those that the build has added, and later ones. -/
theorem memories_eq (longer : site.before.Extends site.bench.netlist) : ∃ later, site.netlist.memories =
      ((site.before.laidOut.memories ++ memoriesIn (site.bench.netlist.added site.before.next)).map fun entry =>
        (entry.1, entry.2.map site.resolve)) ++ later ∧ ∀ entry ∈ later, site.bench.netlist.next ≤ entry.1 := by
  obtain ⟨later, cells_eq, beyond⟩ := Netlist.cells_reviseAll site.netlist_eq site.applied
  rw [Netlist.cells_laidOut_of_extends longer] at cells_eq
  refine ⟨memoriesIn later, ?_, fun entry member => beyond _ (mem_memoriesIn.mp member)⟩
  have memories := congrArg memoriesIn cells_eq
  rwa [memoriesIn_append, memoriesIn_map, memoriesIn_append] at memories

end Standing

namespace Engine

variable {engine : Engine} (site : Standing engine.construct)

/-- The build has an account of what it has added. -/
theorem account_standing : Account site.before (fun _ => True) (site.assembly.banks.map Bank.output) []
    site.bench.netlist :=
  (accounts_construct (fun _ => trivial) (fun _ _ => trivial) trivial _ _ _ rfl site.built).2.1

theorem extends_standing : site.before.Extends site.bench.netlist := by
  obtain ⟨edits, edited⟩ := (account_standing site).edited
  exact Netlist.editAll_extends edited

/-- What the build adds are its banks, one memory for each, and no other memories. -/
theorem placed_standing : ∃ slots moreMemories moreBanks : List Nat,
    slots.map site.netlist.outputOf = site.assembly.banks.map Bank.output ∧ slots.Nodup ∧
      (∀ slot ∈ slots, site.before.next ≤ slot ∧ slot < site.bench.netlist.next) ∧
      site.netlist.memories.map Prod.fst = site.before.laidOut.memories.map Prod.fst ++ slots ++ moreMemories ∧
      site.netlist.banks = site.before.laidOut.banks ++ slots ++ moreBanks ∧
      ∀ slot ∈ moreMemories ++ moreBanks, site.bench.netlist.next ≤ slot := by
  have account := account_standing site
  obtain ⟨later, memories_eq, beyond⟩ := site.memories_eq (extends_standing site)
  let added := memoriesIn (site.bench.netlist.added site.before.next)
  have firsts (entries : List (Nat × Memory)) :
      (entries.map fun entry => (entry.1, entry.2.map site.resolve)).map Prod.fst = entries.map Prod.fst := by
    rw [List.map_map]
    rfl
  have slots_eq : site.netlist.memories.map Prod.fst =
      site.before.laidOut.memories.map Prod.fst ++ added.map Prod.fst ++ later.map Prod.fst := by
    rw [memories_eq, List.map_append, firsts, List.map_append]
  have all_banks : added.filter (fun entry => entry.2.isBank) = added :=
    List.filter_eq_self.mpr fun entry member => account.banks entry.1 entry.2 (mem_memoriesIn.mp member)
  have banks_eq : site.netlist.banks = site.before.laidOut.banks ++ added.map Prod.fst ++
      (later.filter fun entry => entry.2.isBank).map Prod.fst := by
    have shape (memory : Memory) : (memory.map site.resolve).isBank = memory.isBank := by
      simp [Memory.isBank, Memory.map]
    rw [Netlist.banks, memories_eq, List.filter_append, List.map_append, List.filter_map, firsts]
    simp only [Function.comp_def, shape]
    rw [List.filter_append, List.map_append, all_banks]
    rfl
  refine ⟨added.map Prod.fst, _, _, ?_, ?_, ?_, slots_eq, banks_eq, ?_⟩
  · rw [← account.stock, outputsIn, List.map_map]
    refine List.map_congr_left fun entry member => ?_
    exact site.outputOf_of_arena (Netlist.mem_added.mp (mem_memoriesIn.mp member)).2
  · refine site.netlist.nodup_memories.sublist ?_
    rw [slots_eq]
    exact (List.sublist_append_right _ _).trans (List.sublist_append_left _ _)
  · intro slot member
    obtain ⟨entry, at_entry, rfl⟩ := List.mem_map.mp member
    obtain ⟨low, found⟩ := Netlist.mem_added.mp (mem_memoriesIn.mp at_entry)
    exact ⟨low, Netlist.lt_next_of_arena found⟩
  · intro slot member
    rcases List.mem_append.mp member with memory | bank
    · obtain ⟨entry, at_later, rfl⟩ := List.mem_map.mp memory
      exact beyond entry at_later
    · obtain ⟨entry, at_later, rfl⟩ := List.mem_map.mp bank
      exact beyond entry (List.mem_filter.mp at_later).1

theorem rewired_standing (net : Net) (other : ¬ site.bench.netlist.Blank site.before.next [net]) :
    site.bench.netlist.rewiring.target? net = site.before.rewiring.target? net := by
  obtain ⟨grows, account, _⟩ := accounts_construct (fun _ => trivial) (fun _ _ => trivial) trivial _ _ _ rfl site.built
  refine Option.ext fun target => ⟨fun replaced => ?_, fun replaced => grows.rewired net target replaced⟩
  exact (account.replaced net target replaced).resolve_right fun blank => other blank.1

theorem banks_of_replicated {memory : Replicated} (site : Standing (replicated memory).construct)
    (writer : memory.writer = 0) : site.assembly.banks.map Bank.role = (replicated memory).roles ∧
      (replicated memory).Wired site.Has site.assembly.banks := by
  have low : From 0 (Workbench.ofNetlist site.before).netlist := Nat.zero_le _
  obtain ⟨_, port, init, layout⟩ := Replicated.adds_build _ _ _ low site.built
  have placed := layout.mono fun _ _ queued => site.has_of_queued queued
  exact ⟨by rw [placed.roles, writer, roles], port, placed.written.drivenBy, placed.wired writer⟩

theorem banks_of_xorNetwork {network : XorNetwork} (site : Standing (xorNetwork network).construct) :
    site.assembly.banks.map Bank.role = (xorNetwork network).roles ∧
      (xorNetwork network).Wired site.Has site.assembly.banks := by
  by_cases no_writer : network.ports.writers = []
  · obtain ⟨_, none_built⟩ := XorNetwork.adds_nothing no_writer _ _ _ trivial site.built
    have no_banks : site.assembly.banks = [] := none_built.1
    refine ⟨?_, [], no_writer.symm, ?_, ?_⟩
    · simp [no_banks, roles, XorNetwork.roles, no_writer]
    · exact fun _ member => nomatch member
    · rw [no_banks]
      exact fun _ member => nomatch member
  · obtain ⟨lanes, layout⟩ := XorNetwork.exists_layout_standing site no_writer
    exact ⟨layout.banks.roles layout.length_lanes, lanes, layout.writers, layout.masked, layout.wired⟩

/-- Wherever a memory is built and applied, its banks are listed in order, wired as their roles tell, and all that it
adds in memories. -/
theorem inventory (declared : engine.Declared) : engine.Inventory site := by
  have listed : site.assembly.banks.map Bank.role = engine.roles ∧ engine.Wired site.Has site.assembly.banks := by
    cases engine with
    | replicated memory => exact banks_of_replicated site declared.writer_eq
    | xorNetwork network => exact banks_of_xorNetwork site
  have count : site.assembly.banks.length = engine.expectedBanks := by
    rw [← engine.length_roles, ← listed.1, List.length_map]
  constructor
  · exact listed.1
  · exact count
  · rw [expectedBanks_build site.built, count]
  · exact listed.2
  · exact placed_standing site
  · intro index slot found
    have later := (extends_standing site).slot found
    exact ⟨later, Netlist.slots_reviseAll site.netlist_eq site.applied later⟩
  · exact rewired_standing site

/-- The pair is declared port by port. -/
theorem declared_pair : (xorNetwork (XorNetwork.pair .none [[.one]])).Declared := by
  have board : (xorNetwork (.ofBlueprint ⟨1, 2, [[.one]], []⟩ (.high (.slot 0)) none .none)).Declared := .xorNetwork ..
  have one := @Declared.writer _ _ ⟨[.zero], [.one], [.slot 1], none⟩ _ board rfl
  have two := @Declared.writer _ _ ⟨[.zero], [.one], [.slot 2], some 1⟩ _ one rfl
  exact @Declared.reader _ _ ⟨[.zero], .slot 3, [0]⟩ _ two rfl

/-- A bank of the pair, written at the only address that its writers have. -/
def pairBank (init : Bits) (data mask : Net) (reads : Option Register) : Memory where
  depth := 2
  width := 1
  init
  attributes := []
  writePorts := [⟨[.zero], [data], [mask], .high (.slot 0)⟩]
  readPorts := [⟨[.zero], 1, reads⟩]

/-- The banks of the first writer start with the given row and are written under its enable. Of the two replicas, the
reader observes the first. -/
theorem pair_inventory : (xorNetwork (XorNetwork.pair .none [[.one]])).Declared ∧
    (xorNetwork (XorNetwork.pair .none [[.one]])).Inventory (XorNetwork.standingPair .one) ∧
    (XorNetwork.standingPair .one).assembly.banks =
      [⟨.relay 0 1, [.slot 6]⟩, ⟨.relay 1 0, [.slot 8]⟩, ⟨.replica 0 0, [.slot 10]⟩, ⟨.replica 1 0, [.slot 11]⟩] ∧
    (XorNetwork.standingPair .one).netlist.memories =
      [(6, pairBank [.one, .zero] (.slot 9) (.slot 1) none), (8, pairBank [.zero, .zero] (.slot 7) (.slot 2) none),
        (10, pairBank [.one, .zero] (.slot 9) (.slot 1)
          (some ⟨.high (.slot 0), .high (.slot 3), [.unknown], [.after]⟩)),
        (11, pairBank [.zero, .zero] (.slot 7) (.slot 2)
          (some ⟨.high (.slot 0), .high (.slot 3), [.unknown], [.before]⟩))] :=
  ⟨declared_pair, @inventory (xorNetwork (XorNetwork.pair .none [[.one]])) (XorNetwork.standingPair .one) declared_pair,
    by decide +kernel, by decide +kernel⟩

end Engine

end Storage

end BankedMemory
