import BankedMemory.Proofs.Construction.Chains
import BankedMemory.Proofs.Construction.Replicas
import BankedMemory.Storage.XorNetwork

/-!
# The cells of a network

A build of a network adds the gates that make the masks, a relay bank from each writer to each other one, a group of
replicas for each writer, and the gates that join their data. The placeholders for the data that the writers write are
tied to the data that has been combined for them.
-/

namespace BankedMemory.Storage.XorNetwork

open Build

variable (network : XorNetwork) (Has : Bus → Cell → Prop)

/-- The bits that one writer writes, if it writes to the row of another. -/
def Clash (writer other : Writer) (clash : Bus) : Prop :=
  ∃ sameRow, Has sameRow (.equal other.addr writer.addr) ∧
    Has clash (.gate .and other.mask (sameRow.repeated network.ports.blueprint.width))

/-- The mask of a writer without the bits that any of the earlier writers writes to its row. -/
def Arbitrated (writer : Writer) (earlier : List Writer) (mask : Bus) : Prop :=
  (earlier = [] ∧ mask = writer.mask) ∨
  ∃ clashes conflict free, earlier ≠ [] ∧ List.Forall₂ (network.Clash Has writer) earlier clashes ∧
    Joined Has .or clashes conflict ∧ Has free (.invert conflict) ∧ Has mask (.gate .and writer.mask free)

/-- The mask that a writer writes with. -/
def MaskedBy (index : Nat) (writer : Writer) (mask : Bus) : Prop :=
  match network.arbitration with
  | .none => mask = writer.mask
  | .lowestIndex => network.Arbitrated Has writer (network.ports.writers.take index) mask

/-- A relay bank leads from one writer to another. -/
def Relayed (source sink : Lane × Nat) (output : Bus) : Prop :=
  ∃ init, (network.groupBlueprint source.2).initialWord = .ok init ∧
    Has output (.memory (network.relayBank init source sink.1))

/-- The bank of one reader in the group of one writer. -/
def replicaBank (init : Bits) (source : Lane × Nat) (reader : Reader) : Memory :=
  let blueprint := network.groupBlueprint source.2
  ⟨blueprint.depth, blueprint.width, init, blueprint.attributes,
    [⟨source.1.writer.addr, source.1.data, source.1.mask, network.clock⟩],
    [⟨reader.addr, blueprint.width, some ⟨network.clock, .high reader.enable, Bits.unknowns blueprint.width,
      [if reader.observes source.2 then .after else .before]⟩⟩]⟩

/-- A bank holds what one writer has contributed, for one reader. -/
def Stored (reader : Reader) (source : Lane × Nat) (output : Bus) : Prop :=
  ∃ init, (network.groupBlueprint source.2).initialWord = .ok init ∧
    Has output (.memory (network.replicaBank init source reader))

/-- All pairs of different lanes, source first. -/
def pairs (lanes : List Lane) : List ((Lane × Nat) × (Lane × Nat)) :=
  lanes.zipIdx.flatMap fun source => (otherLanes lanes source.2).map (source, ·)

/-- A bank passes on what one lane writes to another lane. -/
def IsRelay (pair : (Lane × Nat) × (Lane × Nat)) (bank : Bank) : Prop :=
  bank.role = .relay pair.1.2 pair.2.2 ∧ network.Relayed Has pair.1 pair.2 bank.output

/-- A bank holds what a lane writes for a reader. -/
def IsReplica (source : Lane × Nat) (entry : Reader × Nat) (bank : Bank) : Prop :=
  bank.role = .replica source.2 entry.2 ∧ network.Stored Has entry.1 source bank.output

/-- All banks in their order: the relays from each lane to each other one, and then the replicas of each lane. -/
def Stocked (lanes : List Lane) (banks : List Bank) : Prop :=
  ∃ relays groups, banks = relays ++ groups.flatten ∧
    List.Forall₂ (network.IsRelay Has) (pairs lanes) relays ∧
    List.Forall₂ (fun source group => List.Forall₂ (network.IsReplica Has source) network.ports.readers.zipIdx group)
      lanes.zipIdx groups

/-- What has been added once the network is built, with `Has` telling which cells there are and `Tied` which
placeholders are replaced by which nets. -/
structure Layout (Tied : Bus → Bus → Prop) (assembly : Assembly) (lanes : List Lane) : Prop where
  verified : network.ports.verify = .ok ()
  writers : lanes.map Lane.writer = network.ports.writers
  masked : ∀ source ∈ lanes.zipIdx, network.MaskedBy Has source.2 source.1.writer source.1.mask
  combined : ∀ sink ∈ lanes.zipIdx, ∃ outputs data,
    List.Forall₂ (fun source output => network.Relayed Has source sink output) (otherLanes lanes sink.2) outputs ∧
      Chain Has .xor sink.1.writer.data outputs data ∧ Tied sink.1.data data
  readData : List.Forall₂ (fun reader data => ∃ outputs,
    List.Forall₂ (network.Stored Has reader) lanes.zipIdx outputs ∧ Joined Has .xor outputs data)
      network.ports.readers assembly.readData
  banks : network.Stocked Has lanes assembly.banks

variable {network Has}

section Lanes

variable {Tied : Bus → Bus → Prop} {assembly : Assembly} {lanes : List Lane}
  (layout : network.Layout Has Tied assembly lanes)
include layout

theorem Layout.writer_of_lane {source : Lane × Nat} (member : source ∈ lanes.zipIdx) :
    network.ports.writers[source.2]? = some source.1.writer := by
  rw [← layout.writers, List.getElem?_map, List.mem_zipIdx_iff_getElem?.mp member]
  rfl

theorem Layout.length_lanes : lanes.length = network.ports.writers.length := by
  rw [← layout.writers, List.length_map]

/-- Each writer has a lane. -/
theorem Layout.exists_lane {i : Nat} (inside : i < network.ports.writers.length) :
    ∃ lane, (lane, i) ∈ lanes.zipIdx := by
  rw [← layout.length_lanes] at inside
  exact ⟨lanes[i], List.mem_zipIdx_iff_getElem?.mpr (List.getElem?_eq_getElem inside)⟩

end Lanes

section Inventory

variable {lanes : List Lane} {banks : List Bank} (stocked : network.Stocked Has lanes banks)
include stocked

theorem Stocked.mem_cases {bank : Bank} (member : bank ∈ banks) :
    (∃ source ∈ lanes.zipIdx, ∃ sink ∈ otherLanes lanes source.2, network.IsRelay Has (source, sink) bank) ∨
      ∃ source ∈ lanes.zipIdx, ∃ entry ∈ network.ports.readers.zipIdx, network.IsReplica Has source entry bank := by
  obtain ⟨relays, groups, rfl, each_relay, each_group⟩ := stocked
  rcases List.mem_append.mp member with relay | replica
  · obtain ⟨pair, at_pair, here⟩ := forall₂_mem_right each_relay relay
    obtain ⟨source, at_source, at_sinks⟩ := List.mem_flatMap.mp at_pair
    obtain ⟨sink, at_sink, rfl⟩ := List.mem_map.mp at_sinks
    exact Or.inl ⟨source, at_source, sink, at_sink, here⟩
  · obtain ⟨group, at_group, at_bank⟩ := List.mem_flatten.mp replica
    obtain ⟨source, at_source, here⟩ := forall₂_mem_right each_group at_group
    obtain ⟨entry, at_entry, here⟩ := forall₂_mem_right here at_bank
    exact Or.inr ⟨source, at_source, entry, at_entry, here⟩

theorem Stocked.exists_relay {source sink : Lane × Nat} (from_source : source ∈ lanes.zipIdx)
    (to_sink : sink ∈ lanes.zipIdx) (different : sink.2 ≠ source.2) :
    ∃ bank ∈ banks, network.IsRelay Has (source, sink) bank := by
  obtain ⟨relays, groups, rfl, each_relay, _⟩ := stocked
  have at_pair : (source, sink) ∈ pairs lanes :=
    List.mem_flatMap.mpr ⟨source, from_source, List.mem_map.mpr
      ⟨sink, List.mem_filter.mpr ⟨to_sink, by simpa using different⟩, rfl⟩⟩
  obtain ⟨bank, at_bank, here⟩ := forall₂_mem_right each_relay.flip at_pair
  exact ⟨bank, List.mem_append_left _ at_bank, here⟩

theorem Stocked.exists_replica {source : Lane × Nat} (from_source : source ∈ lanes.zipIdx) {entry : Reader × Nat}
    (to_reader : entry ∈ network.ports.readers.zipIdx) : ∃ bank ∈ banks, network.IsReplica Has source entry bank := by
  obtain ⟨relays, groups, rfl, _, each_group⟩ := stocked
  obtain ⟨group, at_group, here⟩ := forall₂_mem_right each_group.flip from_source
  obtain ⟨bank, at_bank, here⟩ := forall₂_mem_right here.flip to_reader
  exact ⟨bank, List.mem_append_right _ (List.mem_flatten.mpr ⟨group, at_group, at_bank⟩), here⟩

end Inventory

variable {Has' : Bus → Cell → Prop} (weaker : ∀ output c, Has output c → Has' output c)
include weaker

theorem Clash.mono {writer other : Writer} {clash : Bus} (h : network.Clash Has writer other clash) :
    network.Clash Has' writer other clash := by
  obtain ⟨sameRow, compared, written⟩ := h
  exact ⟨sameRow, weaker _ _ compared, weaker _ _ written⟩

theorem Arbitrated.mono {writer : Writer} {earlier : List Writer} {mask : Bus}
    (h : network.Arbitrated Has writer earlier mask) : network.Arbitrated Has' writer earlier mask := by
  rcases h with alone | ⟨clashes, conflict, free, some_earlier, each, joined, inverted, masked⟩
  · exact Or.inl alone
  · exact Or.inr ⟨clashes, conflict, free, some_earlier, each.imp fun _ _ => Clash.mono weaker,
      joined.mono weaker, weaker _ _ inverted, weaker _ _ masked⟩

theorem MaskedBy.mono {index : Nat} {writer : Writer} {mask : Bus} (h : network.MaskedBy Has index writer mask) :
    network.MaskedBy Has' index writer mask := by
  unfold MaskedBy at h ⊢
  cases policy : network.arbitration with
  | none => simpa [policy] using h
  | lowestIndex =>
    rw [policy] at h
    exact h.mono weaker

theorem Relayed.mono {source sink : Lane × Nat} {output : Bus} (h : network.Relayed Has source sink output) :
    network.Relayed Has' source sink output := by
  obtain ⟨init, word, placed⟩ := h
  exact ⟨init, word, weaker _ _ placed⟩

theorem Stored.mono {reader : Reader} {source : Lane × Nat} {output : Bus}
    (h : network.Stored Has reader source output) : network.Stored Has' reader source output := by
  obtain ⟨init, word, placed⟩ := h
  exact ⟨init, word, weaker _ _ placed⟩

theorem IsRelay.mono {pair : (Lane × Nat) × (Lane × Nat)} {bank : Bank} (h : network.IsRelay Has pair bank) :
    network.IsRelay Has' pair bank := ⟨h.1, h.2.mono weaker⟩

theorem IsReplica.mono {source : Lane × Nat} {entry : Reader × Nat} {bank : Bank}
    (h : network.IsReplica Has source entry bank) : network.IsReplica Has' source entry bank :=
  ⟨h.1, h.2.mono weaker⟩

theorem Layout.mono {Tied Tied' : Bus → Bus → Prop} (tied : ∀ source target, Tied source target → Tied' source target)
    {assembly : Assembly} {lanes : List Lane} (h : network.Layout Has Tied assembly lanes) :
    network.Layout Has' Tied' assembly lanes where
  verified := h.verified
  writers := h.writers
  masked source member := (h.masked source member).mono weaker
  combined sink member := by
    obtain ⟨outputs, data, relays, chain, same⟩ := h.combined sink member
    exact ⟨outputs, data, relays.imp fun _ _ => Relayed.mono weaker, chain.mono weaker, tied _ _ same⟩
  readData := h.readData.imp fun reader data ⟨outputs, replicas, joined⟩ =>
    ⟨outputs, replicas.imp fun _ _ => Stored.mono weaker, joined.mono weaker⟩
  banks := by
    obtain ⟨relays, groups, all, each_relay, each_group⟩ := h.banks
    exact ⟨relays, groups, all, each_relay.imp fun _ _ => IsRelay.mono weaker,
      each_group.imp fun _ _ group => group.imp fun _ _ => IsReplica.mono weaker⟩

omit weaker

variable {base : Nat}

theorem lasting_relayed {source sink : Lane × Nat} {output : Bus} :
    Lasting fun netlist => network.Relayed (netlist.Queued base) source sink output :=
  fun before after grows h => h.mono fun _ _ => lasting_queued before after grows

theorem lasting_stored {reader : Reader} {source : Lane × Nat} {output : Bus} :
    Lasting fun netlist => network.Stored (netlist.Queued base) reader source output :=
  fun before after grows h => h.mono fun _ _ => lasting_queued before after grows

theorem lasting_isRelay {pair : (Lane × Nat) × (Lane × Nat)} {bank : Bank} :
    Lasting fun netlist => network.IsRelay (netlist.Queued base) pair bank :=
  fun before after grows h => h.mono fun _ _ => lasting_queued before after grows

theorem lasting_clash {writer other : Writer} {clash : Bus} :
    Lasting fun netlist => network.Clash (netlist.Queued base) writer other clash :=
  fun before after grows h => h.mono fun _ _ => lasting_queued before after grows

theorem lasting_arbitrated {writer : Writer} {earlier : List Writer} {mask : Bus} :
    Lasting fun netlist => network.Arbitrated (netlist.Queued base) writer earlier mask :=
  fun before after grows h => h.mono fun _ _ => lasting_queued before after grows

theorem lasting_maskedBy {index : Nat} {writer : Writer} {mask : Bus} :
    Lasting fun netlist => network.MaskedBy (netlist.Queued base) index writer mask :=
  fun before after grows h => h.mono fun _ _ => lasting_queued before after grows

/-- The bits that some writers write to the row of another one, if there are any such writers. -/
def Contested (network : XorNetwork) (Has : Bus → Cell → Prop) (writer : Writer) (earlier : List Writer) :
    Option Bus → Prop
  | none => earlier = []
  | some conflict => earlier ≠ [] ∧ ∃ clashes, List.Forall₂ (network.Clash Has writer) earlier clashes ∧
      Joined Has .or clashes conflict

theorem lasting_contested {writer : Writer} {earlier : List Writer} {conflict? : Option Bus} :
    Lasting fun netlist => network.Contested (netlist.Queued base) writer earlier conflict? := by
  cases conflict? with
  | none => exact lasting_const _
  | some conflict =>
    exact (lasting_const _).and (.exists fun clashes => (lasting_forall₂ fun _ _ => lasting_clash).and lasting_joined)

theorem adds_conflict (writer : Writer) (earlier : List Writer) :
    Adds (From base) (network.conflict writer earlier) fun conflict? netlist =>
      network.Contested (netlist.Queued base) writer earlier conflict? := by
  unfold conflict
  refine adds_foldlM lasting_from earlier
    (fun done conflict? netlist => network.Contested (netlist.Queued base) writer done conflict?)
    (fun _ _ => rfl) fun done other _ conflict? _ => ?_
  have kept : Lasting fun netlist => From base netlist ∧
      network.Contested (netlist.Queued base) writer done conflict? := lasting_from.and lasting_contested
  refine adds_bind kept (adds_add fun _ holds => holds.1) (fun _ => lasting_queued) fun sameRow => ?_
  refine adds_bind kept (adds_add fun _ holds => holds.1) (fun _ => lasting_queued) fun written => ?_
  cases conflict? with
  | none =>
    refine adds_pure fun netlist holds written_queued compared => ?_
    obtain rfl : done = [] := holds.2
    exact ⟨by simp, [written], .cons ⟨sameRow, compared, written_queued⟩ .nil, rfl⟩
  | some conflict =>
    refine adds_bind kept (adds_add fun _ holds => holds.1) (fun _ => lasting_queued) fun joined => ?_
    refine adds_pure fun netlist holds joined_queued written_queued compared => ?_
    obtain ⟨some_earlier, clashes, each, chain⟩ := holds.2
    have some_clash : clashes ≠ [] := by
      rintro rfl
      exact some_earlier (List.forall₂_nil_right_iff.mp each)
    exact ⟨by simp, clashes ++ [written],
      List.rel_append each (.cons ⟨sameRow, compared, written_queued⟩ .nil), chain.snoc some_clash joined_queued⟩

theorem adds_masks : Adds (From base) network.masks fun masks netlist =>
    List.Forall₂ (fun entry mask => network.MaskedBy (netlist.Queued base) entry.2 entry.1 mask)
      network.ports.writers.zipIdx masks := by
  unfold masks MaskedBy
  cases network.arbitration with
  | none =>
    refine adds_pure fun _ _ => ?_
    rw [← List.zipIdx_map_fst 0 network.ports.writers, List.map_map, List.forall₂_map_right_iff]
    simp [List.forall₂_same]
  | lowestIndex =>
    refine adds_mapM lasting_from (fun _ _ => lasting_arbitrated) fun entry _ => ?_
    unfold arbitratedMask
    refine adds_bind lasting_from (adds_conflict entry.1 _) (fun _ => lasting_contested) fun conflict? => ?_
    cases conflict? with
    | none => exact adds_pure fun _ _ alone => Or.inl ⟨alone, rfl⟩
    | some conflict =>
      refine adds_bind lasting_from (adds_add fun _ low => low) (fun _ => lasting_queued) fun free => ?_
      refine (adds_add fun _ low => low).weaken fun mask netlist masked inverted contested => ?_
      obtain ⟨some_earlier, clashes, each, joined⟩ := contested
      exact Or.inr ⟨clashes, conflict, free, some_earlier, each, joined, inverted, masked⟩

/-- What has been collected for the lanes, once some relays have been passed on from sources to sinks. -/
structure Collected (network : XorNetwork) (Has : Bus → Cell → Prop) (lanes : List Lane)
    (passed : List ((Lane × Nat) × (Lane × Nat))) (relays : Relays) : Prop where
  combined : ∀ sink ∈ lanes.zipIdx, ∃ outputs data,
    List.Forall₂ (fun source output => network.Relayed Has source sink output)
      ((passed.filter fun pair => pair.2.2 = sink.2).map Prod.fst) outputs ∧
    Chain Has .xor sink.1.writer.data outputs data ∧ relays.combined[sink.2]? = some data
  banks : List.Forall₂ (network.IsRelay Has) passed relays.banks

variable {lanes : List Lane} {passed : List ((Lane × Nat) × (Lane × Nat))} {relays : Relays}

theorem lasting_collected : Lasting fun netlist => network.Collected (netlist.Queued base) lanes passed relays := by
  intro before after grows h
  refine ⟨fun sink member => ?_, lasting_forall₂ (fun _ _ => lasting_isRelay) before after grows h.banks⟩
  obtain ⟨outputs, data, each, chain, at_sink⟩ := h.combined sink member
  exact ⟨outputs, data, lasting_forall₂ (fun _ _ => lasting_relayed) before after grows each,
    lasting_chain before after grows chain, at_sink⟩

/-- Passing on one more relay lengthens the chain of its sink and no other. -/
theorem Collected.pass {source sink : Lane × Nat} {output data : Bus}
    (h : network.Collected Has lanes passed relays) (member : sink ∈ lanes.zipIdx)
    (relay : network.Relayed Has source sink output)
    (joined : Has data (.gate .xor (relays.combined.getD sink.2 []) output)) :
    network.Collected Has lanes (passed ++ [(source, sink)])
      ⟨relays.combined.set sink.2 data, relays.banks ++ [⟨.relay source.2 sink.2, output⟩]⟩ where
  banks := List.rel_append h.banks (.cons ⟨rfl, relay⟩ .nil)
  combined other at_other := by
    obtain ⟨outputs, before, each, chain, at_place⟩ := h.combined other at_other
    by_cases same : other.2 = sink.2
    · have same_lane : other = sink := by
        have one := List.mem_zipIdx_iff_getElem?.mp at_other
        have two := List.mem_zipIdx_iff_getElem?.mp member
        rw [same, two] at one
        exact Prod.ext (Option.some.inj one).symm same
      subst same_lane
      have old : relays.combined.getD other.2 [] = before := by
        rw [List.getD_eq_getElem?_getD, at_place, Option.getD_some]
      rw [old] at joined
      obtain ⟨inside, _⟩ := List.getElem?_eq_some_iff.mp at_place
      refine ⟨outputs ++ [output], data, ?_, chain_snoc.mpr ⟨before, chain, joined⟩, ?_⟩
      · rw [List.filter_append, List.map_append]
        exact List.rel_append each (by simpa using relay)
      · exact List.getElem?_set_self inside
    · refine ⟨outputs, before, ?_, chain, ?_⟩
      · have different : sink.2 ≠ other.2 := fun e => same e.symm
        simpa [List.filter_append, different] using each
      · rw [List.getElem?_set_ne fun e => same e.symm]
        exact at_place

theorem adds_addRelay {source sink : Lane × Nat} {init : Bits} (member : sink ∈ lanes.zipIdx)
    (word : (network.groupBlueprint source.2).initialWord = .ok init) :
    Adds (fun netlist => From base netlist ∧ network.Collected (netlist.Queued base) lanes passed relays)
      (network.addRelay init source relays sink)
      fun relays netlist => network.Collected (netlist.Queued base) lanes (passed ++ [(source, sink)]) relays := by
  have kept : Lasting fun netlist => From base netlist ∧
      network.Collected (netlist.Queued base) lanes passed relays := lasting_from.and lasting_collected
  unfold addRelay
  refine adds_bind kept (adds_add fun _ holds => holds.1) (fun _ => lasting_queued) fun output => ?_
  refine adds_seq kept (adds_label.strengthen fun _ holds => holds.1) fun _ => ?_
  refine adds_seq kept adds_report fun _ => ?_
  refine adds_bind kept (adds_add fun _ holds => holds.1) (fun _ => lasting_queued) fun data => ?_
  exact adds_pure fun netlist holds joined placed => holds.2.pass member ⟨init, word, placed⟩ joined

theorem adds_addRelays {source : Lane × Nat} :
    Adds (fun netlist => From base netlist ∧ network.Collected (netlist.Queued base) lanes passed relays)
      (network.addRelays lanes relays source)
      fun relays netlist => network.Collected (netlist.Queued base) lanes
        (passed ++ (otherLanes lanes source.2).map (source, ·)) relays := by
  unfold addRelays
  cases others : otherLanes lanes source.2 with
  | nil => exact adds_pure fun netlist holds => by simpa using holds.2
  | cons first rest =>
    refine adds_ofFault_bind fun init word => ?_
    refine adds_foldlM (lasting_from.and lasting_collected) (first :: rest)
      (fun done relays netlist =>
        network.Collected (netlist.Queued base) lanes (passed ++ done.map (source, ·)) relays)
      (fun netlist holds => by simpa using holds.2) fun done sink later relays all => ?_
    have member : sink ∈ lanes.zipIdx := by
      have : sink ∈ otherLanes lanes source.2 := by
        rw [others, all]
        simp
      exact (List.mem_filter.mp this).1
    refine ((adds_addRelay member word).strengthen fun _ holds => ⟨holds.1.1, holds.2⟩).weaken ?_
    exact fun _ _ collected => by simpa using collected

/-- The sources of the relays to one lane are all other lanes. -/
theorem sources_pairs {sink : Lane × Nat} (member : sink ∈ lanes.zipIdx) :
    ((pairs lanes).filter fun pair => pair.2.2 = sink.2).map Prod.fst = otherLanes lanes sink.2 := by
  have alone : (lanes.zipIdx.filter fun other => other.2 = sink.2) = [sink] := by
    simpa using filter_zipIdx (List.mem_zipIdx_iff_getElem?.mp member) 0
  have each (source : Lane × Nat) :
      ((otherLanes lanes source.2).filter fun other => other.2 = sink.2).map (fun _ => source) =
        if source.2 ≠ sink.2 then [source] else [] := by
    unfold otherLanes
    rw [List.filter_comm, alone]
    by_cases same : source.2 = sink.2
    · simp [same]
    · have different : sink.2 ≠ source.2 := fun e => same e.symm
      simp [same, different]
  unfold pairs
  rw [List.filter_flatMap, List.map_flatMap]
  simp only [List.filter_map, List.map_map, Function.comp_def, each]
  unfold otherLanes
  induction lanes.zipIdx with
  | nil => rfl
  | cons source rest ih =>
    rw [List.flatMap_cons, ih]
    by_cases same : source.2 = sink.2 <;> simp [same]

theorem observes_observing (addr : Bus) (enable : Net) (seen : Bool) :
    ((Reader.ofNets addr enable).observing (if seen then [0] else [])).observes 0 = seen := by
  cases seen <;> simp [Reader.observing, Reader.ofNets, Reader.observes]

/-- What a reader is within the group of one writer. -/
def groupReader (index : Nat) (reader : Reader) : Reader :=
  (Reader.ofNets reader.addr reader.enable).observing (if reader.observes index then [0] else [])

/-- The group of one writer as a memory of its own. -/
structure Grouped (network : XorNetwork) (source : Lane × Nat) (group : Storage.Replicated) : Prop where
  clock : group.clock = network.clock
  blueprint : group.ports.blueprint = network.groupBlueprint source.2
  writers : group.ports.writers = [⟨source.1.writer.addr, source.1.data, source.1.mask, some 1⟩]
  readers : group.ports.readers = network.ports.readers.map (groupReader source.2)
  writer : group.writer = source.2

theorem declareReader_eq_ok {ports after : Ports} {reader : Reader} {number : Nat}
    (h : ports.declareReader reader = .ok (number, after)) :
    after = { ports with readers := ports.readers ++ [reader] } := by
  unfold Ports.declareReader at h
  obtain ⟨_, _, h⟩ := except_bind_eq_ok.mp h
  obtain ⟨_, _, h⟩ := except_bind_eq_ok.mp h
  split at h
  · cases h
  · exact (Prod.ext_iff.mp (Except.ok.inj h)).2.symm

theorem declareWriter_eq_ok {ports after : Ports} {writer : Writer} {number : Nat}
    (h : ports.declareWriter writer = .ok (number, after)) :
    number = ports.writers.length ∧ after = { ports with writers := ports.writers ++ [writer] } := by
  unfold Ports.declareWriter at h
  obtain ⟨_, _, h⟩ := except_bind_eq_ok.mp h
  obtain ⟨_, _, h⟩ := except_bind_eq_ok.mp h
  obtain ⟨_, _, h⟩ := except_bind_eq_ok.mp h
  split at h
  · cases h
  · obtain ⟨_, _, h⟩ := except_bind_eq_ok.mp h
    split at h
    · cases h
    · have both := Prod.ext_iff.mp (Except.ok.inj h)
      exact ⟨both.1.symm, both.2.symm⟩

theorem declareReaders_eq_ok {α : Type} {readers : List α} {f : α → Reader} {ports after : Ports}
    (h : readers.foldlM (fun ports reader => do
      let (_, ports) ← ports.declareReader (f reader)
      return ports) ports = .ok after) :
    after = { ports with readers := ports.readers ++ readers.map f } := by
  induction readers generalizing ports with
  | nil =>
    cases h
    simp
  | cons reader rest ih =>
    rw [List.foldlM_cons] at h
    obtain ⟨middle, first, h⟩ := except_bind_eq_ok.mp h
    obtain ⟨⟨number, declared⟩, added, first⟩ := except_bind_eq_ok.mp first
    cases first
    rw [ih h, declareReader_eq_ok added]
    simp

theorem grouped_of_group {source : Lane × Nat} {group : Storage.Replicated} (h : network.group source = .ok group) :
    network.Grouped source group := by
  unfold XorNetwork.group at h
  obtain ⟨⟨number, ports⟩, declared, h⟩ := except_bind_eq_ok.mp h
  obtain ⟨rfl, rfl⟩ := declareWriter_eq_ok declared
  obtain ⟨ports, readers, h⟩ := except_bind_eq_ok.mp h
  have all := declareReaders_eq_ok readers
  cases h
  subst all
  exact ⟨rfl, rfl, rfl, rfl, rfl⟩

theorem name_of_group {source : Lane × Nat} {group : Storage.Replicated} (h : network.group source = .ok group) :
    group.name = network.name.map fun name => s!"{name}.group{source.2}" := by
  unfold XorNetwork.group at h
  obtain ⟨⟨number, ports⟩, _, h⟩ := except_bind_eq_ok.mp h
  obtain ⟨ports, _, h⟩ := except_bind_eq_ok.mp h
  cases h
  rfl

theorem Grouped.replica_eq {source : Lane × Nat} {group : Storage.Replicated} (h : network.Grouped source group)
    {port : WritePort} (written : group.WrittenBy port) (init : Bits) (reader : Reader) :
    group.replica port init (groupReader source.2 reader) = network.replicaBank init source reader := by
  have port_eq : port = ⟨source.1.writer.addr, source.1.data, source.1.mask, network.clock⟩ := by
    have single : (List.replicate 1 : Net → List Net) = fun net => [net] := rfl
    unfold Replicated.WrittenBy at written
    simpa [h.writers, h.clock, Writer.mask, single] using written
  have visible : group.visibility (groupReader source.2 reader) =
      if reader.observes source.2 then .after else .before := by
    unfold Replicated.visibility groupReader
    rw [h.writers, observes_observing]
    simp
  subst port_eq
  unfold Replicated.replica Replicated.readPort replicaBank
  rw [visible, h.blueprint, h.clock]
  rfl

/-- A group has a replica for each reader, in their order. -/
structure Populated (network : XorNetwork) (Has : Bus → Cell → Prop) (source : Lane × Nat) (group : Assembly) :
    Prop where
  replicas : List.Forall₂ (fun reader output => network.Stored Has reader source output) network.ports.readers
    group.readData
  outputs : group.banks.map Bank.output = group.readData
  roles : group.banks.map Bank.role = (List.range network.ports.readers.length).map (.replica source.2)

theorem lasting_populated {source : Lane × Nat} {group : Assembly} :
    Lasting fun netlist => network.Populated (netlist.Queued base) source group :=
  fun before after grows h => { h with
    replicas := lasting_forall₂ (fun _ _ => lasting_stored) before after grows h.replicas }

theorem Populated.banks {source : Lane × Nat} {group : Assembly} (h : network.Populated Has source group) :
    List.Forall₂ (network.IsReplica Has source) network.ports.readers.zipIdx group.banks := by
  have stored := h.replicas
  rw [← h.outputs, List.forall₂_map_right_iff] at stored
  obtain ⟨full, each⟩ := forall₂_iff_getElem?.mp stored
  refine forall₂_iff_getElem?.mpr ⟨by simpa using full, fun k entry bank at_reader at_bank => ?_⟩
  rw [List.getElem?_zipIdx, Option.map_eq_some_iff] at at_reader
  obtain ⟨reader, found, rfl⟩ := at_reader
  have numbered := congrArg (·[k]?) h.roles
  obtain ⟨inside, _⟩ := List.getElem?_eq_some_iff.mp found
  simp only [List.getElem?_map, at_bank, List.getElem?_range inside, Option.map_some, Option.some.injEq] at numbered
  exact ⟨by simpa using numbered, each k reader bank found at_bank⟩

/-- The group of one writer has a bank for each reader. -/
theorem adds_addGroup (source : Lane × Nat) : Adds (From base) (network.addGroup source) fun group netlist =>
    network.Populated (netlist.Queued base) source group := by
  unfold addGroup
  refine adds_refuseAs (adds_ofRefusal_bind fun group declared => ?_)
  have grouped := grouped_of_group declared
  refine Replicated.adds_build.weaken fun assembly netlist ⟨port, init, layout⟩ => ⟨?_, layout.outputs, ?_⟩
  rotate_left
  · rw [layout.roles, grouped.readers, grouped.writer, List.length_map]
  have replicas := layout.replicas
  rw [grouped.readers, List.forall₂_map_left_iff] at replicas
  have initial := layout.initial
  rw [grouped.readers, grouped.blueprint] at initial
  cases readers : network.ports.readers with
  | nil =>
    rw [readers] at replicas
    rwa [List.forall₂_nil_left_iff] at replicas ⊢
  | cons first rest =>
    have word := initial (by simp [readers])
    rw [readers] at replicas
    refine replicas.imp fun reader output queued => ⟨init, word, ?_⟩
    rwa [grouped.replica_eq layout.written] at queued

theorem adds_relays (known : ∀ sink ∈ lanes.zipIdx, network.ports.writers[sink.2]? = some sink.1.writer) :
    Adds (From base) (lanes.zipIdx.foldlM (network.addRelays lanes) ⟨network.ports.writers.map Writer.data, []⟩)
      fun relays netlist => network.Collected (netlist.Queued base) lanes (pairs lanes) relays := by
  refine adds_foldlM lasting_from lanes.zipIdx
    (fun done relays netlist => network.Collected (netlist.Queued base) lanes
      (done.flatMap fun source => (otherLanes lanes source.2).map (source, ·)) relays)
    (fun netlist _ => ?_) fun done source _ relays _ => ?_
  · refine ⟨fun sink member => ⟨[], sink.1.writer.data, .nil, rfl, ?_⟩, .nil⟩
    simp [known sink member]
  · rw [List.flatMap_append, List.flatMap_singleton]
    exact adds_addRelays

/-- The lanes of some writers, from their masks and placeholders. -/
def lanesOf (writers : List Writer) (masks placeholders : List Bus) : List Lane :=
  (writers.zip (masks.zip placeholders)).map fun entry => Lane.mk entry.1 entry.2.1 entry.2.2

theorem getElem?_lanesOf {writers : List Writer} {masks placeholders : List Bus} {i : Nat} {lane : Lane}
    (found : (lanesOf writers masks placeholders)[i]? = some lane) :
    writers[i]? = some lane.writer ∧ masks[i]? = some lane.mask ∧ placeholders[i]? = some lane.data := by
  simp only [lanesOf, List.getElem?_map, Option.map_eq_some_iff, List.getElem?_zip_eq_some] at found
  obtain ⟨⟨writer, mask, data⟩, ⟨at_writer, at_mask, at_data⟩, rfl⟩ := found
  exact ⟨at_writer, at_mask, at_data⟩

theorem map_writer_lanesOf {writers : List Writer} {masks placeholders : List Bus}
    (full : masks.length = writers.length) (full' : placeholders.length = writers.length) :
    (lanesOf writers masks placeholders).map Lane.writer = writers := by
  unfold lanesOf
  rw [List.map_map]
  exact List.map_fst_zip (by simp [full, full'])

/-- Every reader joins its replicas in the groups of all lanes. -/
theorem stored_of_groups {groups : List Assembly} {reader : Reader} {k : Nat}
    (each : List.Forall₂ (fun source (group : Assembly) =>
      List.Forall₂ (fun reader output => network.Stored Has reader source output) network.ports.readers group.readData)
      lanes.zipIdx groups) (found : network.ports.readers[k]? = some reader) :
    List.Forall₂ (network.Stored Has reader) lanes.zipIdx (groups.map fun group => group.readData.getD k []) := by
  rw [List.forall₂_map_right_iff]
  refine each.imp fun source group stored => ?_
  obtain ⟨output, at_place, here⟩ := forall₂_left stored found
  rwa [List.getD_eq_getElem?_getD, at_place]

theorem adds_combineReader (groups : List Assembly) (k : Nat) :
    Adds (From base) (combineReader groups k) fun data netlist =>
      Joined (netlist.Queued base) .xor (groups.map fun group => group.readData.getD k []) data := by
  unfold combineReader
  cases groups.map fun group => group.readData.getD k [] with
  | nil => exact adds_pure fun _ _ => rfl
  | cons first rest => exact adds_chain first rest

theorem adds_ties {placeholders combined : List Bus} :
    Adds (fun netlist => From base netlist ∧ ∀ placeholder ∈ placeholders, netlist.Blank base placeholder)
      ((placeholders.zip combined).forM fun entry => Build.rewireBus entry.1 entry.2)
      fun _ netlist => ∀ entry ∈ placeholders.zip combined, Tied base netlist entry.1 entry.2 := by
  refine adds_forM (lasting_from.and (.forall fun _ => .forall fun _ => lasting_blank)) (fun _ => lasting_tied)
    fun entry member => adds_rewireBus fun netlist holds => holds.2 entry.1 (List.of_mem_zip member).1

/-- The parts of a network, each added in its turn, make up its layout. -/
theorem Layout.of_parts {Tied : Bus → Bus → Prop} {masks placeholders readData : List Bus} {groups : List Assembly}
    (verified : network.ports.verify = .ok ())
    (masked : List.Forall₂ (fun entry mask => network.MaskedBy Has entry.2 entry.1 mask)
      network.ports.writers.zipIdx masks)
    (full : placeholders.length = network.ports.writers.length)
    (lanes_eq : lanes = lanesOf network.ports.writers masks placeholders)
    (collected : network.Collected Has lanes (pairs lanes) relays)
    (tied : ∀ entry ∈ placeholders.zip relays.combined, Tied entry.1 entry.2)
    (populated : List.Forall₂ (network.Populated Has) lanes.zipIdx groups)
    (joined : List.Forall₂ (fun k data => Joined Has .xor (groups.map fun group => group.readData.getD k []) data)
      (List.range network.ports.readers.length) readData) :
    network.Layout Has Tied ⟨readData, relays.banks ++ groups.flatMap Assembly.banks⟩ lanes where
  verified := verified
  writers := by
    rw [lanes_eq]
    exact map_writer_lanesOf (by simpa using (forall₂_iff_getElem?.mp masked).1) full
  masked source member := by
    rw [lanes_eq] at member
    obtain ⟨at_writer, at_mask, _⟩ := getElem?_lanesOf (List.mem_zipIdx_iff_getElem?.mp member)
    have entry : network.ports.writers.zipIdx[source.2]? = some (source.1.writer, source.2) := by
      simp [List.getElem?_zipIdx, at_writer]
    exact (forall₂_iff_getElem?.mp masked).2 source.2 _ _ entry at_mask
  combined sink member := by
    obtain ⟨outputs, data, each, chain, at_sink⟩ := collected.combined sink member
    rw [sources_pairs member] at each
    refine ⟨outputs, data, each, chain, tied (sink.1.data, data) ?_⟩
    rw [lanes_eq] at member
    obtain ⟨_, _, at_data⟩ := getElem?_lanesOf (List.mem_zipIdx_iff_getElem?.mp member)
    exact List.mem_of_getElem? (List.getElem?_zip_eq_some.mpr ⟨at_data, at_sink⟩)
  readData := forall₂_of_range joined fun k reader data found here =>
    ⟨_, stored_of_groups (populated.imp fun _ _ group => group.replicas) found, here⟩
  banks := ⟨relays.banks, groups.map Assembly.banks, by rw [List.flatMap_def], collected.banks,
    List.forall₂_map_right_iff.mpr (populated.imp fun _ _ group => group.banks)⟩

theorem adds_assembleLanes (verified : network.ports.verify = .ok ()) :
    Adds (From base) network.assembleLanes fun assembly netlist =>
      ∃ lanes, network.Layout (netlist.Queued base) (Tied base netlist) assembly lanes := by
  unfold assembleLanes
  refine adds_bind lasting_from adds_masks
    (fun masks => lasting_forall₂ fun _ _ => lasting_maskedBy) fun masks => ?_
  refine adds_keep lasting_from (adds_mapM lasting_from (fun _ _ => lasting_blank)
    fun _ _ => adds_addPlaceholders fun _ low => low) fun placeholders => ?_
  have kept : Lasting fun netlist => From base netlist ∧
      List.Forall₂ (fun _ placeholder => netlist.Blank base placeholder) network.ports.writers placeholders :=
    lasting_from.and (lasting_forall₂ fun _ _ => lasting_blank)
  have known : ∀ sink ∈ (lanesOf network.ports.writers masks placeholders).zipIdx,
      network.ports.writers[sink.2]? = some sink.1.writer :=
    fun sink member => (getElem?_lanesOf (List.mem_zipIdx_iff_getElem?.mp member)).1
  refine adds_bind kept ((adds_relays known).strengthen fun _ holds => holds.1)
    (fun _ => lasting_collected) fun relays => ?_
  refine adds_bind kept (adds_ties.strengthen fun netlist holds => ⟨holds.1, fun placeholder member => ?_⟩)
    (fun _ => .forall fun _ => .forall fun _ => lasting_tied) fun _ => ?_
  · exact (forall₂_mem_right holds.2 member).elim fun _ blank => blank.2
  refine adds_bind kept (adds_mapM kept (fun _ _ => lasting_populated)
    fun source _ => (adds_addGroup source).strengthen fun _ holds => holds.1)
    (fun _ => lasting_forall₂ fun _ _ => lasting_populated) fun groups => ?_
  refine adds_bind kept (adds_mapM kept (fun _ _ => lasting_joined)
    fun k _ => (adds_combineReader groups k).strengthen fun _ holds => holds.1)
    (fun _ => lasting_forall₂ fun _ _ => lasting_joined) fun readData => ?_
  dsimp only
  split
  · exact adds_throw
  refine adds_seq kept adds_report fun _ => adds_pure fun netlist holds joined populated tied collected masked => ?_
  have full : placeholders.length = network.ports.writers.length := (forall₂_iff_getElem?.mp holds.2).1
  exact ⟨_, .of_parts verified masked full rfl collected tied populated joined⟩

theorem adds_assemble (some_writer : network.ports.writers ≠ []) :
    Adds (From base) network.assemble fun assembly netlist =>
      ∃ lanes, network.Layout (netlist.Queued base) (Tied base netlist) assembly lanes := by
  unfold assemble
  refine adds_ofRefusal_bind fun _ verified => ?_
  refine adds_seq lasting_from adds_report fun _ => ?_
  have not_empty : network.ports.writers.isEmpty = false := by simpa using some_writer
  rw [not_empty]
  exact adds_assembleLanes verified

theorem adds_build (some_writer : network.ports.writers ≠ []) :
    Adds (From base) network.build fun assembly netlist =>
      ∃ lanes, network.Layout (netlist.Queued base) (Tied base netlist) assembly lanes := by
  unfold build
  refine adds_ofRefusal_bind fun ports frozen => ?_
  rw [Ports.eq_of_freeze frozen]
  exact (adds_assemble some_writer).weaken fun _ _ ⟨lanes, layout⟩ =>
    ⟨lanes, layout.verified, layout.writers, layout.masked, layout.combined, layout.readData, layout.banks⟩

/-- Wherever a network with a writer is installed, all its cells are in their places. -/
theorem exists_layout (site : Installation network.build) (some_writer : network.ports.writers ≠ []) :
    ∃ lanes, network.Layout site.Has site.Tied site.assembly lanes := by
  have low : From site.before.next (Workbench.ofNetlist site.before).netlist := Nat.le_refl _
  obtain ⟨grows, lanes, layout⟩ := adds_build some_writer _ _ _ low site.built
  exact ⟨lanes, layout.mono (fun _ _ queued => site.has_of_queued grows queued) fun _ _ tied => site.tied_of_build tied⟩

end BankedMemory.Storage.XorNetwork
