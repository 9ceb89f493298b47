import BankedMemory.Proofs.Checks
import BankedMemory.Proofs.Construction.Network
import BankedMemory.Proofs.Network.Ports

/-!
# An installed network follows its shares

In every state of a run the banks of one writer hold its shares, and the replicas of a reader sum up to its data. A
cycle keeps this, for any bits at the ports: the relays show each writer the shares of all others at its row, so that
what reaches the banks is what the machine of shares offers. The cycle does not fault, as long as the ports and all
other memories can be evaluated.
-/

namespace BankedMemory.Storage

open Finset

/-- All but the memory can be evaluated in a state: the nets at its ports, and what other memories need in a cycle. -/
structure Installation.Settles {build : Build Assembly} (site : Installation build) (ports : Ports) (state : State) :
    Prop where
  readable : ∃ word, site.netlist.read state (ports.nets.map site.resolve) = .ok word
  others : ∀ index memory, site.netlist.cell? index = some (.memory memory) →
    (∀ bank ∈ site.assembly.banks, site.netlist.outputOf index ≠ bank.output) →
    ∃ marks, site.netlist.settleMemory state (Marks.initial site.netlist) memory = .ok marks

theorem isOk_iff {ε α : Type} {x : Except ε α} : x.isOk = true ↔ ∃ result, x = .ok result := by
  cases x <;> simp [Except.isOk, Except.toBool]

instance {build : Build Assembly} (site : Installation build) (ports : Ports) (state : State) :
    Decidable (site.Settles ports state) :=
  decidable_of_iff ((site.netlist.read state (ports.nets.map site.resolve)).isOk = true ∧
      ∀ entry ∈ site.netlist.memories, (∀ bank ∈ site.assembly.banks, site.netlist.outputOf entry.1 ≠ bank.output) →
        (site.netlist.settleMemory state (Marks.initial site.netlist) entry.2).isOk = true) <| by
    simp only [isOk_iff]
    constructor
    · rintro ⟨readable, others⟩
      exact ⟨readable, fun index memory found => others (index, memory) (Netlist.mem_memories.mpr found)⟩
    · rintro ⟨readable, others⟩
      exact ⟨readable, fun entry member => others entry.1 entry.2 (Netlist.mem_memories.mp member)⟩

/-- Each reader reads the word that is given for it. -/
def Installation.Reads {build : Build Assembly} (site : Installation build) (ports : Ports) (state : State)
    (data : Nat → Nat → Trit) : Prop :=
  ∀ k < ports.readers.length, ∃ bus, site.assembly.readData[k]? = some bus ∧
    site.netlist.read state bus = .ok (Bits.tabulate ports.blueprint.width (data k))

instance {build : Build Assembly} (site : Installation build) (ports : Ports) (state : State)
    (data : Nat → Nat → Trit) : Decidable (site.Reads ports state data) :=
  decidable_of_iff (∀ k < ports.readers.length, (site.assembly.readData[k]?).any fun bus =>
      site.netlist.read state bus = .ok (Bits.tabulate ports.blueprint.width (data k))) <| by
    simp only [Option.any_eq_true, decide_eq_true_eq, Installation.Reads]

namespace Installation.Reads

variable {build : Build Assembly} {site : Installation build} {ports : Ports} {state : State}
  {data other : Nat → Nat → Trit}

theorem congr (h : site.Reads ports state data)
    (same : ∀ k < ports.readers.length, ∀ place < ports.blueprint.width, data k place = other k place) :
    site.Reads ports state other := by
  intro k inside
  obtain ⟨bus, at_bus, read⟩ := h k inside
  exact ⟨bus, at_bus, read.trans (congrArg Except.ok (Bits.tabulate_congr (same k inside)))⟩

theorem unique (h : site.Reads ports state data) (h' : site.Reads ports state other) :
    ∀ k < ports.readers.length, ∀ place < ports.blueprint.width, data k place = other k place := by
  intro k inside place place_inside
  obtain ⟨bus, at_bus, read⟩ := h k inside
  obtain ⟨bus', at_bus', read'⟩ := h' k inside
  obtain rfl : bus = bus' := Option.some.inj (at_bus.symm.trans at_bus')
  exact Bits.tabulate_inj (Except.ok.inj (read.symm.trans read')) place_inside

end Installation.Reads

namespace XorNetwork

variable (network : XorNetwork)

/-- The rows that hold the shares of one writer. -/
def shareRows (s : Shares) (i : Nat) : Array Bits :=
  Bits.table network.ports.blueprint.depth network.ports.blueprint.width (s.share i)

/-- The banks hold the shares of their writers, and the replicas of a reader sum up to its data. -/
structure Follows (site : Installation network.build) (lanes : List Lane) (state : State) (s : Shares) : Prop where
  relays : ∀ source ∈ lanes.zipIdx, ∀ sink ∈ lanes.zipIdx, ∀ init output,
    (network.groupBlueprint source.2).initialWord = .ok init →
    site.Has output (.memory (network.relayBank init source sink.1)) →
    site.netlist.Holds state ((network.relayBank init source sink.1).map site.resolve)
      ⟨network.shareRows s source.2, [none]⟩
  replicas : ∃ part : Nat → Nat → Nat → Trit,
    (∀ source ∈ lanes.zipIdx, ∀ k reader init output, network.ports.readers[k]? = some reader →
      (network.groupBlueprint source.2).initialWord = .ok init →
      site.Has output (.memory (network.replicaBank init source reader)) →
      site.netlist.Holds state ((network.replicaBank init source reader).map site.resolve)
        ⟨network.shareRows s source.2,
          [some (Bits.tabulate network.ports.blueprint.width (part source.2 k))]⟩) ∧
    ∀ k place, ∑ i ∈ range network.ports.writers.length, part i k place = s.data k place

variable {network} {site : Installation network.build} {lanes : List Lane} {state : State} {s : Shares}

theorem Follows.setInput (h : network.Follows site lanes state s) {name : String} {word : Bits} {next : State}
    (done : state.setInput name word = .ok next) : network.Follows site lanes next s where
  relays source from_source sink to_sink init output rows has :=
    (h.relays source from_source sink to_sink init output rows has).setInput done
  replicas := by
    obtain ⟨part, holds, sums⟩ := h.replicas
    exact ⟨part, fun source from_source k reader init output found rows has =>
      (holds source from_source k reader init output found rows has).setInput done, sums⟩

theorem depth_groupBlueprint (i : Nat) : (network.groupBlueprint i).depth = network.ports.blueprint.depth := by
  unfold groupBlueprint
  split <;> rfl

theorem width_groupBlueprint (i : Nat) : (network.groupBlueprint i).width = network.ports.blueprint.width := by
  unfold groupBlueprint
  split <;> rfl

theorem accepted_groupBlueprint (accepted : network.ports.blueprint.Accepted) (i : Nat) :
    (network.groupBlueprint i).Accepted := by
  unfold groupBlueprint
  split
  · exact accepted
  · exact accepted.zeroed

theorem initialRows_group (accepted : network.ports.blueprint.Accepted) {i : Nat} {init : Bits}
    (word : (network.groupBlueprint i).initialWord = .ok init) :
    (Memory.splitRows (network.groupBlueprint i).width (network.groupBlueprint i).depth init).toArray =
      network.shareRows (.initial network.ports) i := by
  rw [(accepted_groupBlueprint accepted i).splitRows_initialWord word, depth_groupBlueprint, width_groupBlueprint]
  apply Bits.table_congr
  intro row _ place _
  by_cases first : i = 0
  · simp [groupBlueprint, Shares.initial, first]
  · simp [groupBlueprint, Shares.initial, first, Blueprint.initialBit_zeroed]

/-- To begin with, the banks hold the initial shares. -/
theorem follows_initial (accepted : network.ports.blueprint.Accepted) (some_writer : network.ports.writers ≠ []) :
    network.Follows site lanes (State.initial site.netlist) (.initial network.ports) where
  relays source _ sink _ init _ word _ := by
    have holds := site.netlist.holds_initial ((network.relayBank init source sink.1).map site.resolve)
    have rows := initialRows_group accepted word
    unfold Memory.initialContents Memory.initialRows at holds
    rw [← rows]
    exact holds
  replicas := by
    refine ⟨fun _ _ _ => .unknown, fun source _ k reader init _ _ word _ => ?_, fun _ _ => ?_⟩
    · have holds := site.netlist.holds_initial ((network.replicaBank init source reader).map site.resolve)
      have rows := initialRows_group accepted word
      rw [← Bits.unknowns_eq_tabulate, ← rows, ← width_groupBlueprint source.2]
      exact holds
    · exact Shares.sum_unknown (List.length_pos_iff.mpr some_writer)

/-- A memory with as many rows as the network selects them alike. -/
theorem selects_iff {memory : Memory} (deep : memory.depth = network.ports.blueprint.depth) {addr : Bits} {row : Nat} :
    memory.Selects addr row ↔ network.ports.rowOf addr = some row := by
  rw [Ports.rowOf_eq_some_iff, Memory.Selects, deep]

/-- A bank finds the row whose number its address denotes. -/
theorem rowOf_of_has (accepted : network.ports.blueprint.Accepted) {memory : Memory}
    (deep : memory.depth = network.ports.blueprint.depth) (broad : memory.width = network.ports.blueprint.width)
    {output : Bus} (has : site.Has output (.memory memory)) (addr : Bits) :
    memory.rowOf addr = network.ports.rowOf addr := by
  have countable := (Memory.sized_of_check has.checked).countable (broad ▸ accepted.width_pos)
  exact Option.ext fun row => (Memory.rowOf_eq_some_iff countable).trans (selects_iff deep)

theorem sum_otherLanes (f : Nat → Trit) (j : Nat) :
    ((otherLanes lanes j).map fun source => f source.2).sum = ∑ i ∈ (range lanes.length).erase j, f i := by
  have places : (otherLanes lanes j).map Prod.snd = (List.range lanes.length).filter (· ≠ j) := by
    rw [List.range_eq_range', ← List.zipIdx_map_snd 0 lanes, List.filter_map]
    rfl
  have distinct : ((List.range lanes.length).filter (· ≠ j)).Nodup := List.nodup_range.filter _
  have members : ((List.range lanes.length).filter (· ≠ j)).toFinset = (range lanes.length).erase j := by
    ext i
    simp [and_comm]
  rw [← members, List.sum_toFinset f distinct, ← places, List.map_map]
  rfl

theorem sum_zipIdx (f : Nat → Trit) :
    (lanes.zipIdx.map fun source => f source.2).sum = ∑ i ∈ range lanes.length, f i := by
  have places : lanes.zipIdx.map Prod.snd = List.range lanes.length := by
    rw [List.range_eq_range', List.zipIdx_map_snd]
  have members : (List.range lanes.length).toFinset = range lanes.length := by
    ext i
    simp
  rw [← members, List.sum_toFinset f List.nodup_range, ← places, List.map_map]
  rfl

section Cycle

variable (layout : network.Layout site.Has site.Tied site.assembly lanes) (aligned : state.Aligned site.netlist)
  (live : ∀ net ∈ network.ports.nets, site.netlist.Live state (site.resolve net))

/-- The words at the ports in a state. -/
def trafficIn (network : XorNetwork) (site : Installation network.build) (state : State) : Traffic :=
  network.ports.traffic (site.value state)

include layout in
theorem addr_of_lane {source : Lane × Nat} (member : source ∈ lanes.zipIdx) :
    (network.trafficIn site state).addr source.2 =
      (source.1.writer.addr.map site.resolve).map (site.netlist.valueIn state) := by
  simp [trafficIn, Ports.traffic, layout.writer_of_lane member, Installation.value]

include layout aligned live

theorem shows_data {source : Lane × Nat} (member : source ∈ lanes.zipIdx) :
    site.Shows state source.1.writer.data
      (Bits.tabulate network.ports.blueprint.width ((network.trafficIn site state).data source.2)) := by
  have found := layout.writer_of_lane member
  have shown := Installation.shows_of_live aligned fun net at_data =>
    live net (Ports.writer_nets found (List.mem_append_left _ (List.mem_append_right _ at_data)))
  rwa [Ports.data_eq_tabulate layout.verified found] at shown

theorem shows_writer_mask {i : Nat} {writer : Writer} (found : network.ports.writers[i]? = some writer) :
    site.Shows state writer.mask
      (Bits.tabulate network.ports.blueprint.width ((network.trafficIn site state).mask i)) := by
  have shown := Installation.shows_of_live aligned fun net at_mask =>
    live net (Ports.writer_nets found (List.mem_append_right _ (Ports.mem_enable_of_mem_mask at_mask)))
  rwa [Ports.mask_eq_tabulate layout.verified found] at shown

omit layout in
theorem shows_writer_addr {i : Nat} {writer : Writer} (found : network.ports.writers[i]? = some writer) :
    site.Shows state writer.addr ((network.trafficIn site state).addr i) := by
  have addr_eq : (network.trafficIn site state).addr i = writer.addr.map (site.value state) := by
    simp [trafficIn, Ports.traffic, found]
  rw [addr_eq]
  exact Installation.shows_of_live aligned fun net at_addr =>
    live net (Ports.writer_nets found (List.mem_append_left _ (List.mem_append_left _ at_addr)))

variable (accepted : network.ports.blueprint.Accepted)
include accepted

theorem shows_relay (follows : network.Follows site lanes state s) {source sink : Lane × Nat}
    (from_source : source ∈ lanes.zipIdx) (to_sink : sink ∈ lanes.zipIdx) {output : Bus}
    (relay : network.Relayed site.Has source sink output) :
    site.Shows state output (Bits.tabulate network.ports.blueprint.width
      (s.relayed (network.ports.rowOf ((network.trafficIn site state).addr sink.2)) source.2)) := by
  obtain ⟨init, word, has⟩ := relay
  have holds := follows.relays source from_source sink to_sink init output word has
  have row_eq : Memory.rowOf ((network.relayBank init source sink.1).map site.resolve)
      ((sink.1.writer.addr.map site.resolve).map (site.netlist.valueIn state)) =
      network.ports.rowOf ((network.trafficIn site state).addr sink.2) := by
    rw [addr_of_lane layout to_sink]
    exact rowOf_of_has accepted (depth_groupBlueprint source.2) (width_groupBlueprint source.2) has _
  have word_eq : Memory.output ((network.relayBank init source sink.1).map site.resolve) (site.netlist.valueIn state)
      ⟨network.shareRows s source.2, [none]⟩ = Bits.tabulate network.ports.blueprint.width
        (s.relayed (network.ports.rowOf ((network.trafficIn site state).addr sink.2)) source.2) := by
    refine (List.append_nil _).trans ?_
    cases hit : network.ports.rowOf ((network.trafficIn site state).addr sink.2) with
    | none =>
      rw [← width_groupBlueprint source.2]
      exact (Memory.portOutput_of_miss (row_eq.trans hit) _).trans (Bits.unknowns_eq_tabulate _)
    | some row => exact (Memory.portOutput_of_hit (row_eq.trans hit) _).trans (Bits.getD_table (Ports.rowOf_lt hit))
  unfold Installation.Shows
  rw [has.fixed, ← word_eq]
  refine has.placed.shows_memory holds (fun net member => ?_) ?_
  · have at_bus : net ∈ sink.1.writer.addr.map site.resolve := by
      simpa [Cell.sources, Memory.map, relayBank, ReadPort.map] using member
    obtain ⟨original, at_addr, rfl⟩ := List.mem_map.mp at_bus
    have at_ports := Ports.writer_nets (layout.writer_of_lane to_sink)
      (List.mem_append_left _ (List.mem_append_left _ at_addr))
    exact (live original at_ports).carries_valueIn aligned
  · rw [word_eq, Bits.length_tabulate, ← width_groupBlueprint source.2]
    rfl

/-- The data combined for a writer is what it offers. -/
theorem shows_offered (follows : network.Follows site lanes state s) {sink : Lane × Nat}
    (member : sink ∈ lanes.zipIdx) : ∃ data, site.Tied sink.1.data data ∧
      site.Shows state data (Bits.tabulate network.ports.blueprint.width
        (s.offered network.ports (network.trafficIn site state) sink.2)) := by
  obtain ⟨outputs, data, relays, chain, tied⟩ := layout.combined sink member
  refine ⟨data, tied, ?_⟩
  have shown : List.Forall₂ (fun output word =>
      site.Shows state output (Bits.tabulate network.ports.blueprint.width word)) outputs
      ((otherLanes lanes sink.2).map fun source =>
        s.relayed (network.ports.rowOf ((network.trafficIn site state).addr sink.2)) source.2) := by
    rw [List.forall₂_map_right_iff]
    refine (forall₂_of_mem relays fun source output at_source relay => ?_).flip
    exact shows_relay layout aligned live accepted follows (List.mem_filter.mp at_source).1 member relay
  have joined := Installation.shows_chain aligned chain (shows_data layout aligned live member) shown
  simp only [List.map_map, Function.comp_def, Gate.apply, Trit.foldl_add] at joined
  have words : s.offered network.ports (network.trafficIn site state) sink.2 = fun place =>
      (network.trafficIn site state).data sink.2 place + ((otherLanes lanes sink.2).map fun source =>
        s.relayed (network.ports.rowOf ((network.trafficIn site state).addr sink.2)) source.2 place).sum := by
    funext place
    unfold Shares.offered
    rw [← layout.length_lanes, ← sum_otherLanes]
  rw [words]
  exact joined

/-- What is written into a bank of a lane is what its writer offers. -/
theorem shows_lane_data (follows : network.Follows site lanes state s) {source : Lane × Nat}
    (member : source ∈ lanes.zipIdx) {output : Bus} {c : Cell} (has : site.Has output c)
    (operands : ∀ net ∈ source.1.data, net ∈ c.nets) :
    site.Shows state source.1.data (Bits.tabulate network.ports.blueprint.width
      (s.offered network.ports (network.trafficIn site state) source.2)) := by
  obtain ⟨data, tied, shown⟩ := shows_offered layout aligned live accepted follows member
  unfold Installation.Shows at shown ⊢
  rwa [tied.map_resolve has operands]

/-- The words at the ports, but for the masks that the writers write with. -/
def maskedTraffic (network : XorNetwork) (site : Installation network.build) (state : State)
    (mask : Nat → Nat → Trit) : Traffic := { network.trafficIn site state with mask }

variable {mask : Nat → Nat → Trit} (masked : ∀ source ∈ lanes.zipIdx,
  site.Shows state source.1.mask (Bits.tabulate network.ports.blueprint.width (mask source.2)))
include masked

/-- The port through which a lane writes its banks, once the netlist is applied. -/
def lanePort (site : Installation network.build) (lane : Lane) : WritePort :=
  WritePort.map site.resolve ⟨lane.writer.addr, lane.data, lane.mask, network.clock⟩

/-- The words with which a lane writes its banks. -/
theorem words_of_lane (follows : network.Follows site lanes state s) {source : Lane × Nat}
    (from_source : source ∈ lanes.zipIdx) {output : Bus} {c : Cell} (has : site.Has output c)
    (operands : ∀ net ∈ source.1.data, net ∈ c.nets) :
    (lanePort site source.1).addr.map (site.netlist.valueIn state) =
        (network.maskedTraffic site state mask).addr source.2 ∧
      (lanePort site source.1).mask.map (site.netlist.valueIn state) =
        Bits.tabulate network.ports.blueprint.width (mask source.2) ∧
      (lanePort site source.1).data.map (site.netlist.valueIn state) =
        Bits.tabulate network.ports.blueprint.width (s.offered network.ports (network.trafficIn site state) source.2) :=
  ⟨(addr_of_lane layout from_source).symm, (masked source from_source).map_valueIn aligned,
    (shows_lane_data layout aligned live accepted follows from_source has operands).map_valueIn aligned⟩

theorem live_lane (follows : network.Follows site lanes state s) {source : Lane × Nat}
    (from_source : source ∈ lanes.zipIdx) {output : Bus} {c : Cell} (has : site.Has output c)
    (operands : ∀ net ∈ source.1.data, net ∈ c.nets) (memory : Memory) :
    ∀ net ∈ site.netlist.neededByWrite state memory (lanePort site source.1), site.netlist.Live state net := by
  intro net needed
  rcases List.mem_append.mp (Netlist.mem_of_neededByWrite needed) with in_port | in_mask
  · rcases List.mem_append.mp in_port with in_addr | in_data
    · obtain ⟨original, at_addr, rfl⟩ := List.mem_map.mp in_addr
      exact live original (Ports.writer_nets (layout.writer_of_lane from_source)
        (List.mem_append_left _ (List.mem_append_left _ at_addr)))
    · exact (shows_lane_data layout aligned live accepted follows from_source has operands).live net in_data
  · exact (masked source from_source).live net in_mask

theorem live_relayBank (follows : network.Follows site lanes state s) {source sink : Lane × Nat}
    (from_source : source ∈ lanes.zipIdx) {output : Bus} {init : Bits}
    (has : site.Has output (.memory (network.relayBank init source sink.1))) :
    ∀ net ∈ site.netlist.neededBy state ((network.relayBank init source sink.1).map site.resolve),
      site.netlist.Live state net := by
  intro net needed
  have written : net ∈ site.netlist.neededByWrite state
      ((network.relayBank init source sink.1).map site.resolve) (lanePort site source.1) := by
    rcases List.mem_append.mp needed with written | sampled
    · obtain ⟨port, at_port, written⟩ := List.mem_flatMap.mp written
      rwa [show port = lanePort site source.1 from List.mem_singleton.mp at_port] at written
    · obtain ⟨port, at_port, sampled⟩ := List.mem_flatMap.mp sampled
      obtain ⟨register, registered, _⟩ := Netlist.mem_of_neededByRead sampled
      rw [List.mem_singleton.mp at_port] at registered
      cases registered
  exact live_lane layout aligned live accepted masked follows from_source has
    (fun net member => by simp [Cell.nets, Memory.nets, relayBank, WritePort.nets, member]) _ net written

theorem live_replicaBank (follows : network.Follows site lanes state s) {source : Lane × Nat}
    (from_source : source ∈ lanes.zipIdx) {reader : Reader} (known : reader ∈ network.ports.readers) {output : Bus}
    {init : Bits} (has : site.Has output (.memory (network.replicaBank init source reader))) :
    ∀ net ∈ site.netlist.neededBy state ((network.replicaBank init source reader).map site.resolve),
      site.netlist.Live state net := by
  intro net needed
  rcases List.mem_append.mp needed with written | sampled
  · have written : net ∈ site.netlist.neededByWrite state
        ((network.replicaBank init source reader).map site.resolve) (lanePort site source.1) := by
      obtain ⟨port, at_port, written⟩ := List.mem_flatMap.mp written
      rwa [show port = lanePort site source.1 from List.mem_singleton.mp at_port] at written
    exact live_lane layout aligned live accepted masked follows from_source has
      (fun net member => by simp [Cell.nets, Memory.nets, replicaBank, WritePort.nets, member]) _ net written
  · obtain ⟨k, found_reader⟩ := List.mem_iff_getElem?.mp known
    obtain ⟨port, at_port, sampled⟩ := List.mem_flatMap.mp sampled
    obtain ⟨register, registered, at_ports⟩ := Netlist.mem_of_neededByRead sampled
    rw [List.mem_singleton.mp at_port] at registered at_ports
    cases registered
    have operand : net ∈ (reader.enable :: reader.addr).map site.resolve := at_ports
    obtain ⟨original, declared, rfl⟩ := List.mem_map.mp operand
    exact live original (Ports.reader_nets found_reader declared)

variable (clocked : (network.clock.map site.resolve).isConst = false)
include clocked

theorem nextContents_relayBank (follows : network.Follows site lanes state s) {source sink : Lane × Nat}
    (from_source : source ∈ lanes.zipIdx) {output : Bus} {init : Bits}
    (has : site.Has output (.memory (network.relayBank init source sink.1))) :
    ((network.relayBank init source sink.1).map site.resolve).nextContents (site.netlist.valueIn state)
        ⟨network.shareRows s source.2, [none]⟩ =
      ⟨network.shareRows (s.advance network.ports (network.maskedTraffic site state mask)) source.2, [none]⟩ := by
  obtain ⟨row_eq, mask_word, data_word⟩ := words_of_lane layout aligned live accepted masked follows from_source has
    fun net member => by simp [Cell.nets, Memory.nets, relayBank, WritePort.nets, member]
  have next := Memory.nextContents_relay mask_word data_word ((network.relayBank init source sink.1).map site.resolve)
    network.ports.blueprint.depth (s.share source.2) clocked rfl rfl
  have found_row (addr : Bits) : ((network.relayBank init source sink.1).map site.resolve).rowOf addr =
      network.ports.rowOf addr :=
    rowOf_of_has accepted (depth_groupBlueprint source.2) (width_groupBlueprint source.2) has addr
  rw [found_row, row_eq] at next
  unfold shareRows
  rw [next]
  congr 2
  exact s.written_offered network.ports (network.maskedTraffic site state mask) source.2

theorem nextContents_replicaBank (follows : network.Follows site lanes state s) {source : Lane × Nat}
    (from_source : source ∈ lanes.zipIdx) {k : Nat} {reader : Reader} (found : network.ports.readers[k]? = some reader)
    {output : Bus} {init : Bits} (has : site.Has output (.memory (network.replicaBank init source reader)))
    (held : Nat → Trit) :
    ((network.replicaBank init source reader).map site.resolve).nextContents (site.netlist.valueIn state)
        ⟨network.shareRows s source.2, [some (Bits.tabulate network.ports.blueprint.width held)]⟩ =
      ⟨network.shareRows (s.advance network.ports (network.maskedTraffic site state mask)) source.2,
        [some (Bits.tabulate network.ports.blueprint.width (Memory.latched
          ((network.maskedTraffic site state mask).enable k)
          (network.ports.rowOf ((network.maskedTraffic site state mask).readAddr k)) held fun row place =>
            if network.ports.observes k source.2 then
              s.exchange network.ports (network.maskedTraffic site state mask) source.2 row place
            else s.share source.2 row place))]⟩ := by
  obtain ⟨row_eq, mask_word, data_word⟩ := words_of_lane layout aligned live accepted masked follows from_source has
    fun net member => by simp [Cell.nets, Memory.nets, replicaBank, WritePort.nets, member]
  have reads : ((network.replicaBank init source reader).map site.resolve).readPorts =
      [⟨reader.addr.map site.resolve, network.ports.blueprint.width, some ⟨(lanePort site source.1).clock,
        .high (site.resolve reader.enable), Bits.unknowns network.ports.blueprint.width,
        [if reader.observes source.2 then .after else .before]⟩⟩] := by
    simp only [Memory.map, replicaBank, width_groupBlueprint]
    rfl
  have next := Memory.nextContents_replica mask_word data_word
    ((network.replicaBank init source reader).map site.resolve) (s.share source.2) clocked rfl
    (depth_groupBlueprint source.2) held reads
  have found_row (addr : Bits) : ((network.replicaBank init source reader).map site.resolve).rowOf addr =
      network.ports.rowOf addr :=
    rowOf_of_has accepted (depth_groupBlueprint source.2) (width_groupBlueprint source.2) has addr
  rw [found_row, found_row] at next
  have read_eq : (reader.addr.map site.resolve).map (site.netlist.valueIn state) =
      (network.maskedTraffic site state mask).readAddr k := by
    simp [maskedTraffic, trafficIn, Ports.traffic, found, Installation.value]
  have enable_eq : site.netlist.valueIn state (site.resolve reader.enable) =
      (network.maskedTraffic site state mask).enable k := by
    simp [maskedTraffic, trafficIn, Ports.traffic, found, Installation.value]
  have seen : reader.observes source.2 = network.ports.observes k source.2 := by
    rw [Bool.eq_iff_iff, Reader.observes_iff]
    simp [Ports.observes, found]
  have exchanged : Memory.written (network.ports.rowOf ((network.maskedTraffic site state mask).addr source.2))
      (mask source.2) (s.offered network.ports (network.trafficIn site state) source.2) (s.share source.2) =
        s.exchange network.ports (network.maskedTraffic site state mask) source.2 :=
    s.written_offered network.ports (network.maskedTraffic site state mask) source.2
  rw [row_eq, read_eq, enable_eq, exchanged] at next
  simp only [← seen]
  exact next

/-- A cycle advances the shares. -/
theorem follows_nextState (some_writer : network.ports.writers ≠ []) (follows : network.Follows site lanes state s) :
    network.Follows site lanes (site.netlist.nextState (site.netlist.valueIn state) state)
      (s.advance network.ports (network.maskedTraffic site state mask)) where
  relays source from_source sink to_sink init output word has := by
    have next := (follows.relays source from_source sink to_sink init output word has).nextState
      (site.netlist.valueIn state)
    rwa [nextContents_relayBank layout aligned live accepted masked clocked follows from_source has] at next
  replicas := by
    obtain ⟨part, holds, sums⟩ := follows.replicas
    refine ⟨fun i k => Memory.latched ((network.maskedTraffic site state mask).enable k)
      (network.ports.rowOf ((network.maskedTraffic site state mask).readAddr k)) (part i k) fun row place =>
        if network.ports.observes k i then
          s.exchange network.ports (network.maskedTraffic site state mask) i row place
        else s.share i row place, fun source from_source k reader init output found word has => ?_, fun k place => ?_⟩
    · have next := (holds source from_source k reader init output found word has).nextState
        (site.netlist.valueIn state)
      rwa [nextContents_replicaBank layout aligned live accepted masked clocked follows from_source found has] at next
    · rw [Shares.sum_latched (List.length_pos_iff.mpr some_writer)]
      simp only [sums]
      rfl

end Cycle

section Frozen

variable (frozen : (network.clock.map site.resolve).isConst = true)
include frozen

theorem frozen_relayBank (init : Bits) (source : Lane × Nat) (sink : Lane) :
    ((network.relayBank init source sink).map site.resolve).Frozen where
  writes port member := by
    obtain rfl : port = lanePort site source.1 := List.mem_singleton.mp member
    exact frozen
  reads port member register registered := by
    rw [List.mem_singleton.mp member] at registered
    cases registered

theorem frozen_replicaBank (init : Bits) (source : Lane × Nat) (reader : Reader) :
    ((network.replicaBank init source reader).map site.resolve).Frozen where
  writes port member := by
    obtain rfl : port = lanePort site source.1 := List.mem_singleton.mp member
    exact frozen
  reads port member register registered := by
    rw [List.mem_singleton.mp member] at registered
    cases registered
    exact frozen

/-- If the clock is a constant, a cycle changes no share. -/
theorem follows_nextState_of_frozen (value : Net → Trit) (follows : network.Follows site lanes state s) :
    network.Follows site lanes (site.netlist.nextState value state) s where
  relays source from_source sink to_sink init output word has :=
    (follows.relays source from_source sink to_sink init output word has).nextState_of_frozen
      (frozen_relayBank frozen init source sink.1) rfl value
  replicas := by
    obtain ⟨part, holds, sums⟩ := follows.replicas
    exact ⟨part, fun source from_source k reader init output found word has =>
      (holds source from_source k reader init output found word has).nextState_of_frozen
        (frozen_replicaBank frozen init source reader) rfl value, sums⟩

end Frozen

/-- A cycle needs nothing that cannot be evaluated, if the banks do not. -/
theorem live_cycleNeeds (layout : network.Layout site.Has site.Tied site.assembly lanes)
    (aligned : state.Aligned site.netlist) (accepted : network.ports.blueprint.Accepted)
    (settles : site.Settles network.ports state)
    (relays : ∀ source ∈ lanes.zipIdx, ∀ sink : Lane × Nat, ∀ init output,
      site.Has output (.memory (network.relayBank init source sink.1)) →
      ∀ net ∈ site.netlist.neededBy state ((network.relayBank init source sink.1).map site.resolve),
        site.netlist.Live state net)
    (replicas : ∀ source ∈ lanes.zipIdx, ∀ reader ∈ network.ports.readers, ∀ init output,
      site.Has output (.memory (network.replicaBank init source reader)) →
      ∀ net ∈ site.netlist.neededBy state ((network.replicaBank init source reader).map site.resolve),
        site.netlist.Live state net) :
    ∀ net ∈ site.netlist.cycleNeeds state, site.netlist.Live state net := by
  intro net needed
  obtain ⟨⟨index, memory⟩, member, needed⟩ := List.mem_flatMap.mp needed
  have found := Netlist.mem_memories.mp member
  by_cases listed : ∃ bank ∈ site.assembly.banks, site.netlist.outputOf index = bank.output
  · obtain ⟨bank, at_bank, same⟩ := listed
    rcases layout.banks.mem_cases at_bank with ⟨source, from_source, sink, _, _, init, _, has⟩ |
      ⟨source, from_source, ⟨reader, _⟩, known, _, init, _, has⟩
    · have wide : 0 < (Cell.memory (network.relayBank init source sink.1)).outputWidth := by
        simpa [Cell.outputWidth, Memory.outputWidth, relayBank, width_groupBlueprint] using accepted.width_pos
      obtain rfl : memory = (network.relayBank init source sink.1).map site.resolve :=
        Cell.memory.inj (has.cell_eq wide found same)
      exact relays source from_source sink init _ has net needed
    · have wide : 0 < (Cell.memory (network.replicaBank init source reader)).outputWidth := by
        simpa [Cell.outputWidth, Memory.outputWidth, replicaBank, width_groupBlueprint] using accepted.width_pos
      obtain rfl : memory = (network.replicaBank init source reader).map site.resolve :=
        Cell.memory.inj (has.cell_eq wide found same)
      exact replicas source from_source reader (List.fst_mem_of_mem_zipIdx known) init _ has net needed
  · have unlisted : ∀ bank ∈ site.assembly.banks, site.netlist.outputOf index ≠ bank.output :=
      fun bank at_bank same => listed ⟨bank, at_bank, same⟩
    obtain ⟨marks, settled⟩ := settles.others index memory found unlisted
    exact Netlist.live_of_settleMemory aligned settled net needed

/-- A replica shows what its register holds. -/
theorem shows_replica {source : Lane × Nat} {reader : Reader} {output : Bus} {init : Bits} {rows : Array Bits}
    {held : Nat → Trit} (has : site.Has output (.memory (network.replicaBank init source reader)))
    (holds : site.netlist.Holds state ((network.replicaBank init source reader).map site.resolve)
      ⟨rows, [some (Bits.tabulate network.ports.blueprint.width held)]⟩) :
    site.Shows state output (Bits.tabulate network.ports.blueprint.width held) := by
  have word_eq : Memory.output ((network.replicaBank init source reader).map site.resolve)
      (site.netlist.valueIn state) ⟨rows, [some (Bits.tabulate network.ports.blueprint.width held)]⟩ =
        Bits.tabulate network.ports.blueprint.width held := List.append_nil _
  unfold Installation.Shows
  rw [has.fixed, ← word_eq]
  refine has.placed.shows_memory holds (fun net member => ?_) ?_
  · simp [Cell.sources, Memory.map, replicaBank, ReadPort.map] at member
  · rw [word_eq, Bits.length_tabulate, ← width_groupBlueprint source.2]
    rfl

/-- What a reader reads are the sums in its registers. -/
theorem read_data (layout : network.Layout site.Has site.Tied site.assembly lanes) (aligned : state.Aligned site.netlist)
    (some_writer : network.ports.writers ≠ []) (follows : network.Follows site lanes state s) {k : Nat}
    {reader : Reader} (found : network.ports.readers[k]? = some reader) :
    ∃ data, site.assembly.readData[k]? = some data ∧
      site.netlist.read state data = .ok (Bits.tabulate network.ports.blueprint.width (s.data k)) := by
  obtain ⟨data, at_data, outputs, stored, joined⟩ := forall₂_left layout.readData found
  obtain ⟨part, holds, sums⟩ := follows.replicas
  refine ⟨data, at_data, (Netlist.read_eq_ok_iff aligned).mpr ?_⟩
  have shown : List.Forall₂ (fun output word =>
      site.Shows state output (Bits.tabulate network.ports.blueprint.width word)) outputs
      (lanes.zipIdx.map fun source => part source.2 k) := by
    rw [List.forall₂_map_right_iff]
    refine (forall₂_of_mem stored fun source output from_source ⟨init, word, has⟩ => ?_).flip
    exact shows_replica has (holds source from_source k reader init output found word has)
  have some_output : outputs ≠ [] := by
    rintro rfl
    have := List.forall₂_nil_right_iff.mp stored
    have none : lanes.length = 0 := by simpa using congrArg List.length this
    rw [layout.length_lanes] at none
    exact some_writer (List.length_eq_zero_iff.mp none)
  have fixed : data.map site.resolve = data := by
    cases outputs with
    | nil => exact absurd rfl some_output
    | cons first rest =>
      obtain ⟨source, _, init, _, has⟩ := forall₂_mem_right stored List.mem_cons_self
      exact Installation.fixed_chain joined has.fixed
  have sum_shown := Installation.shows_joined_xor aligned joined some_output shown
  have words : s.data k = fun place => ((lanes.zipIdx.map fun source => part source.2 k).map (· place)).sum := by
    funext place
    rw [← sums k place, ← layout.length_lanes, ← sum_zipIdx, List.map_map]
    rfl
  unfold Installation.Shows at sum_shown
  rwa [fixed, ← words] at sum_shown

theorem live_ports (settles : site.Settles network.ports state) (aligned : state.Aligned site.netlist) :
    ∀ net ∈ network.ports.nets, site.netlist.Live state (site.resolve net) := by
  intro net member
  obtain ⟨word, read⟩ := settles.readable
  exact ((Netlist.read_eq_ok_iff aligned).mp read).live _ (List.mem_map_of_mem member)

/-- A cycle in which the banks are not clocked succeeds, and the shares stay as they are. -/
theorem step_of_frozen (layout : network.Layout site.Has site.Tied site.assembly lanes)
    (accepted : network.ports.blueprint.Accepted) (frozen : (network.clock.map site.resolve).isConst = true)
    (aligned : state.Aligned site.netlist) (settles : site.Settles network.ports state)
    (follows : network.Follows site lanes state s) :
    ∃ next, site.netlist.step state = .ok next ∧ network.Follows site lanes next s := by
  have needs := live_cycleNeeds layout aligned accepted settles
    (fun source _ sink init _ _ => by simp [(frozen_relayBank frozen init source sink.1).neededBy])
    (fun source _ reader _ init _ _ => by simp [(frozen_replicaBank frozen init source reader).neededBy])
  obtain ⟨next, stepped⟩ := (Netlist.step_succeeds_iff aligned).mpr needs
  refine ⟨next, stepped, ?_⟩
  rw [Netlist.step_eq aligned stepped]
  exact follows_nextState_of_frozen frozen _ follows

/-- A cycle in which the banks are clocked succeeds, and advances the shares by the words at the ports. -/
theorem step_of_clocked (layout : network.Layout site.Has site.Tied site.assembly lanes)
    (some_writer : network.ports.writers ≠ []) (accepted : network.ports.blueprint.Accepted)
    (clocked : (network.clock.map site.resolve).isConst = false) (aligned : state.Aligned site.netlist)
    (settles : site.Settles network.ports state) {mask : Nat → Nat → Trit}
    (masked : ∀ source ∈ lanes.zipIdx,
      site.Shows state source.1.mask (Bits.tabulate network.ports.blueprint.width (mask source.2)))
    (follows : network.Follows site lanes state s) :
    ∃ next, site.netlist.step state = .ok next ∧
      network.Follows site lanes next (s.advance network.ports (network.maskedTraffic site state mask)) := by
  have live := live_ports settles aligned
  have needs := live_cycleNeeds layout aligned accepted settles
    (fun source from_source sink init _ has => live_relayBank layout aligned live accepted masked follows from_source has)
    (fun source from_source reader known init _ has =>
      live_replicaBank layout aligned live accepted masked follows from_source known has)
  obtain ⟨next, stepped⟩ := (Netlist.step_succeeds_iff aligned).mpr needs
  refine ⟨next, stepped, ?_⟩
  rw [Netlist.step_eq aligned stepped]
  exact follows_nextState layout aligned live accepted masked clocked some_writer follows

/-- The words at the ports in the cycles of a run in which the banks are clocked: in none, if the clock is a constant. -/
def history (network : XorNetwork) (site : Installation network.build) (actions : List Action) (start : State) :
    List Traffic :=
  if (network.clock.map site.resolve).isConst then []
  else (site.netlist.ticks actions start).map (network.trafficIn site)

theorem history_of_clocked (clocked : (network.clock.map site.resolve).isConst = false) (actions : List Action)
    (start : State) :
    network.history site actions start = (site.netlist.ticks actions start).map (network.trafficIn site) := by
  simp [history, clocked]

/-- What a run has to provide: an initial state, settings that fit, and cycles in which all but the network can be
evaluated and the words at the ports are as required. -/
structure Run (network : XorNetwork) (site : Installation network.build) (actions : List Action) (start : State)
    (Required : Traffic → Prop) : Prop where
  started : site.netlist.start = .ok start
  fits : ∀ action ∈ actions, action.Fits start
  settles : ∀ tick ∈ site.netlist.ticks actions start, site.Settles network.ports tick
  required : ∀ tick ∈ site.netlist.ticks actions start, Required (network.trafficIn site tick)

instance (network : XorNetwork) (site : Installation network.build) (actions : List Action) (start : State)
    (Required : Traffic → Prop) [DecidablePred Required] : Decidable (network.Run site actions start Required) :=
  decidable_of_iff (site.netlist.start = .ok start ∧ (∀ action ∈ actions, action.Fits start) ∧
      ∀ tick ∈ site.netlist.ticks actions start,
        site.Settles network.ports tick ∧ Required (network.trafficIn site tick))
    ⟨fun ⟨started, fits, ready⟩ =>
      ⟨started, fits, fun tick member => (ready tick member).1, fun tick member => (ready tick member).2⟩,
    fun run => ⟨run.started, run.fits, fun tick member => ⟨run.settles tick member, run.required tick member⟩⟩⟩

/-- A machine that keeps in step with the shares tells what the readers read. The masks of the lanes show what is made
of the words at the ports; `Required` is what the machine asks of these words in each cycle. -/
theorem perform_agrees {Machine : Type} (Agrees : Shares → Machine → Prop) (advance : Traffic → Machine → Machine)
    (masks : Traffic → Nat → Nat → Trit) (Required : Traffic → Prop)
    (layout : network.Layout site.Has site.Tied site.assembly lanes) (some_writer : network.ports.writers ≠ [])
    (accepted : network.ports.blueprint.Accepted)
    (masked : ∀ state, state.Aligned site.netlist →
      (∀ net ∈ network.ports.nets, site.netlist.Live state (site.resolve net)) →
      ∀ source ∈ lanes.zipIdx, site.Shows state source.1.mask
        (Bits.tabulate network.ports.blueprint.width (masks (network.trafficIn site state) source.2)))
    (keeps : ∀ s machine state, Agrees s machine → Required (network.trafficIn site state) →
      Agrees (s.advance network.ports (network.maskedTraffic site state (masks (network.trafficIn site state))))
        (advance (network.trafficIn site state) machine))
    (machine : Machine) (agrees : Agrees (.initial network.ports) machine) {actions : List Action} {start : State}
    (run : network.Run site actions start Required) :
    ∃ last s, site.netlist.perform actions start = .ok last ∧ site.Reads network.ports last s.data ∧
      Agrees s ((network.history site actions start).foldl (fun machine traffic => advance traffic machine) machine) := by
  have start_eq := Netlist.start_eq run.started
  have aligned : start.Aligned site.netlist := start_eq ▸ State.aligned_initial site.netlist
  have follows : network.Follows site lanes start (.initial network.ports) :=
    start_eq ▸ follows_initial accepted some_writer
  have reads {last : State} {s : Shares} (aligned : last.Aligned site.netlist)
      (follows : network.Follows site lanes last s) : site.Reads network.ports last s.data :=
    fun k inside => read_data layout aligned some_writer follows (List.getElem?_eq_getElem inside)
  have ready : ∀ tick ∈ site.netlist.ticks actions start,
      site.Settles network.ports tick ∧ Required (network.trafficIn site tick) :=
    fun tick member => ⟨run.settles tick member, run.required tick member⟩
  cases clocked : (network.clock.map site.resolve).isConst with
  | true =>
    have steady := Netlist.perform_follows (network.Follows site lanes)
      (fun state => site.Settles network.ports state ∧ Required (network.trafficIn site state))
      (fun _ s => s) (fun _ _ _ _ _ follows done => follows.setInput done) ?_ actions aligned follows run.fits ready
    · obtain ⟨last, performed, aligned', follows'⟩ := steady
      rw [List.foldl_fixed] at follows'
      refine ⟨last, _, performed, reads aligned' follows', ?_⟩
      simpa [history, clocked] using agrees
    · rintro state s aligned follows ⟨settles, -⟩
      exact step_of_frozen layout accepted clocked aligned settles follows
  | false =>
    have in_step := Netlist.perform_follows
      (fun state machine => ∃ s, network.Follows site lanes state s ∧ Agrees s machine)
      (fun state => site.Settles network.ports state ∧ Required (network.trafficIn site state))
      (fun state machine => advance (network.trafficIn site state) machine)
      ?_ ?_ actions aligned ⟨_, follows, agrees⟩ run.fits ready
    · obtain ⟨last, performed, aligned', s, follows', agrees'⟩ := in_step
      refine ⟨last, s, performed, reads aligned' follows', ?_⟩
      rwa [history_of_clocked clocked, List.foldl_map]
    · rintro state machine name word next ⟨s, follows, agrees⟩ done
      exact ⟨s, follows.setInput done, agrees⟩
    · rintro state machine aligned ⟨s, follows, agrees⟩ ⟨settles, required⟩
      obtain ⟨next, stepped, follows'⟩ := step_of_clocked layout some_writer accepted clocked aligned settles
        (masked state aligned (live_ports settles aligned)) follows
      exact ⟨next, stepped, _, follows', keeps s machine state agrees required⟩

end XorNetwork

end BankedMemory.Storage
