import BankedMemory.Proofs.Census.Replicas
import BankedMemory.Proofs.Census.Ties
import Mathlib.Data.Nat.Choose.Basic
import Mathlib.Tactic.Abel

/-!
# What networks cost

A network costs a relay bank from each writer to each other one and a replica of each writer for each reader, with the
gates that combine their data, and placeholders for the data of the writers. Arbitration costs a comparison for each
two writers, and gates that join what they tell.
-/

namespace BankedMemory.Storage

open Build

/-- A bus of some that are all of one width has that width. -/
theorem length_getD {buses : List Bus} {index width : Nat} (wide : ∀ bus ∈ buses, bus.length = width)
    (inside : index < buses.length) : (buses.getD index []).length = width := by
  rw [List.getD_eq_getElem?_getD, List.getElem?_eq_getElem inside, Option.getD_some]
  exact wide _ (List.getElem_mem inside)

namespace XorNetwork

/-- The gates that find what earlier writers write to the row of a writer. -/
def conflictTally (width earlier : Nat) : Tally :=
  earlier • (Tally.cell "eq" 1 + Tally.cell "and" width) + (earlier - 1) • Tally.cell "or" width

/-- The gates that make the mask of a writer from what earlier writers write. -/
def maskTally (width earlier : Nat) : Tally :=
  conflictTally width earlier + if earlier = 0 then 0 else Tally.cell "not" width + Tally.cell "and" width

/-- The gates that make all masks. -/
def arbitrationTally (width writers : Nat) : Tally :=
  writers.choose 2 • (Tally.cell "eq" 1 + Tally.cell "and" width) + (writers - 1).choose 2 • Tally.cell "or" width +
    (writers - 1) • (Tally.cell "not" width + Tally.cell "and" width)

theorem sum_conflictTally (width earlier : Nat) :
    (∑ k ∈ Finset.range earlier, (Tally.cell "eq" 1 + (Tally.cell "and" width +
      if k = 0 then 0 else Tally.cell "or" width))) = conflictTally width earlier := by
  induction earlier with
  | zero => simp [conflictTally]
  | succ earlier ih =>
    rw [Finset.sum_range_succ, ih]
    cases earlier with
    | zero => simp only [conflictTally, zero_add, if_true, add_zero, one_nsmul, Nat.sub_self, Nat.zero_sub, zero_nsmul]
    | succ earlier =>
      simp only [conflictTally, Nat.add_sub_cancel, succ_nsmul, Nat.succ_ne_zero, if_false]
      abel

theorem sum_maskTally (width writers : Nat) :
    ∑ k ∈ Finset.range writers, maskTally width k = arbitrationTally width writers := by
  induction writers with
  | zero => simp [arbitrationTally]
  | succ writers ih =>
    rw [Finset.sum_range_succ, ih]
    cases writers with
    | zero => simp [arbitrationTally, maskTally, conflictTally]
    | succ earlier =>
      have pairs : (earlier + 1 + 1).choose 2 = (earlier + 1) + (earlier + 1).choose 2 := by
        rw [Nat.choose_succ_succ' (earlier + 1) 1, Nat.choose_one_right]
      have fewer : (earlier + 1).choose 2 = earlier + earlier.choose 2 := by
        rw [Nat.choose_succ_succ' earlier 1, Nat.choose_one_right]
      simp only [arbitrationTally, maskTally, conflictTally, Nat.add_sub_cancel, Nat.succ_ne_zero, if_false, pairs,
        fewer, add_nsmul, one_nsmul]
      abel

variable {network : XorNetwork}

/-- What is known of the bits that earlier writers write: they are on a bus as wide as a row, if there are earlier
writers. -/
def Disputed (network : XorNetwork) (earlier : List Writer) : Option Bus → Prop
  | none => earlier = []
  | some conflict => earlier ≠ [] ∧ conflict.length = network.ports.blueprint.width

/-- Without arbitration the masks cost nothing. -/
def maskingTally (network : XorNetwork) : Tally :=
  match network.arbitration with
  | .none => 0
  | .lowestIndex => arbitrationTally network.ports.blueprint.width network.ports.writers.length

section Masks

variable (sound : network.ports.Sound)
include sound

theorem costs_conflict {writer : Writer} (member : writer ∈ network.ports.writers) {earlier : List Writer}
    (declared : ∀ other ∈ earlier, other ∈ network.ports.writers) :
    Costs (network.conflict writer earlier) (conflictTally network.ports.blueprint.width earlier.length)
      (network.Disputed earlier) := by
  unfold conflict
  rw [← sum_conflictTally]
  refine costs_foldlM earlier _ network.Disputed rfl fun done other rest conflict? all disputed => ?_
  have fits := sound.writers writer member
  have fits' := sound.writers other (declared other (by simp [all]))
  have compared : (Cell.equal other.addr writer.addr).check = .ok () :=
    Size.agree_eq_ok_iff.mpr (fits'.1.trans fits.1.symm)
  refine costs_bind (costs_add compared) fun sameRow (single : sameRow.length = 1) => ?_
  have full := fits'.length_mask
  have spread : (sameRow.repeated network.ports.blueprint.width).length = network.ports.blueprint.width := by
    simp [Bus.repeated, single]
  refine costs_bind (costs_gate fits'.length_mask spread) fun written wide => ?_
  cases conflict? with
  | none =>
    obtain rfl : done = [] := disputed
    exact costs_pure ⟨by simp, wide⟩
  | some conflict =>
    obtain ⟨some_done, wide'⟩ := disputed
    rw [if_neg (by simpa using some_done)]
    exact costs_bind_free (costs_gate wide' wide) fun output wide => costs_pure ⟨by simp, wide⟩

theorem costs_arbitratedMask {writer : Writer} (member : writer ∈ network.ports.writers) {earlier : List Writer}
    (declared : ∀ other ∈ earlier, other ∈ network.ports.writers) :
    Costs (network.arbitratedMask writer earlier) (maskTally network.ports.blueprint.width earlier.length)
      fun mask => mask.length = network.ports.blueprint.width := by
  unfold arbitratedMask maskTally
  have full := (sound.writers writer member).length_mask
  refine costs_bind (costs_conflict sound member declared) fun conflict? disputed => ?_
  cases conflict? with
  | none =>
    obtain rfl : earlier = [] := disputed
    exact costs_pure full
  | some conflict =>
    obtain ⟨some_earlier, wide⟩ := disputed
    rw [if_neg (by simpa using some_earlier)]
    exact costs_bind (costs_invert wide) fun free wide => costs_gate full wide

theorem costs_masks : Costs network.masks network.maskingTally fun masks =>
    masks.length = network.ports.writers.length ∧
      ∀ mask ∈ masks, mask.length = network.ports.blueprint.width := by
  unfold masks maskingTally
  cases network.arbitration with
  | none =>
    refine costs_pure ⟨List.length_map _, fun mask member => ?_⟩
    obtain ⟨writer, declared, rfl⟩ := List.mem_map.mp member
    exact (sound.writers writer declared).length_mask
  | lowestIndex =>
    have each : ∀ entry ∈ network.ports.writers.zipIdx,
        Costs (network.arbitratedMask entry.1 (network.ports.writers.take entry.2))
          (maskTally network.ports.blueprint.width entry.2)
          fun mask => mask.length = network.ports.blueprint.width := by
      intro entry member
      have earlier : ∀ other ∈ network.ports.writers.take entry.2, other ∈ network.ports.writers :=
        fun other => List.mem_of_mem_take
      have costs := costs_arbitratedMask sound (List.fst_mem_of_mem_zipIdx member) earlier
      obtain ⟨inside, _⟩ := List.getElem?_eq_some_iff.mp (List.mem_zipIdx_iff_getElem?.mp member)
      rwa [List.length_take, Nat.min_eq_left (Nat.le_of_lt inside)] at costs
    have all := costs_mapM each
    rw [List.length_zipIdx] at all
    refine all.eq ?_
    have numbers : network.ports.writers.zipIdx.map (fun entry => maskTally network.ports.blueprint.width entry.2) =
        (List.range network.ports.writers.length).map (maskTally network.ports.blueprint.width) := by
      rw [← map_snd_zipIdx, List.map_map]
      rfl
    rw [numbers, ← sum_maskTally]
    rfl

end Masks

/-- For each lane there is combined data as wide as a row. -/
def Spans (network : XorNetwork) (lanes : List Lane) (relays : Relays) : Prop :=
  relays.combined.length = lanes.length ∧ ∀ data ∈ relays.combined, data.length = network.ports.blueprint.width

/-- A relay bank with its label and the gate that combines its data. -/
def relayTally (width : Nat) (name? : Option String) : Tally := bankTally width name? + Tally.cell "xor" width

theorem storable_groupBlueprint (storable : network.ports.blueprint.Storable) (index : Nat) :
    (network.groupBlueprint index).Storable := by
  unfold groupBlueprint
  split
  · exact storable
  · exact ⟨storable.zeroed, storable.word, storable.bus⟩

section Relays

variable {lanes : List Lane} (storable : network.ports.blueprint.Storable)
  (fitting : ∀ source ∈ lanes.zipIdx, network.Fitting source.1)
include storable fitting

theorem costs_addRelay {source sink : Lane × Nat} (from_source : source ∈ lanes.zipIdx) {relays : Relays}
    (spans : network.Spans lanes relays) (inside : sink.2 < lanes.length) :
    Costs (network.addRelay (network.groupBlueprint source.2).filledRows source relays sink)
      (relayTally network.ports.blueprint.width network.name)
      (network.Spans lanes) := by
  have same_width := (network.blueprint_groupBlueprint source.2).1
  have fits := fitting source from_source
  obtain ⟨full, wide⟩ := spans
  have checked : (Cell.memory (network.relayBank (network.groupBlueprint source.2).filledRows source sink.1)).check =
      .ok () := by
    refine (storable_groupBlueprint storable source.2).check_bank (fits.data.trans same_width.symm)
      (fits.mask.trans same_width.symm) sink.1.writer.addr ?_
    exact fun _ registered => nomatch registered
  have placed := costs_add checked
  have put_out : (Cell.memory (network.relayBank (network.groupBlueprint source.2).filledRows source
      sink.1)).outputWidth = network.ports.blueprint.width := same_width
  rw [put_out] at placed
  have old := length_getD wide (full.symm ▸ inside)
  unfold addRelay relayTally bankTally
  rw [add_assoc]
  refine costs_bind placed fun output wide' => ?_
  have labelled := costs_label (network.name.map fun name => s!"{name}.relay{source.2}_{sink.2}") output
  refine costs_bind (labelled.eq (Tally.label_map _ _)) fun _ _ => costs_free_bind costs_report fun _ _ => ?_
  refine costs_bind_free (costs_gate old wide') fun combined wide'' => costs_pure ⟨?_, fun data member => ?_⟩
  · exact (List.length_set ..).trans full
  · rcases List.mem_or_eq_of_mem_set member with earlier | rfl
    · exact wide data earlier
    · exact wide''

theorem costs_addRelays {source : Lane × Nat} (from_source : source ∈ lanes.zipIdx) {relays : Relays}
    (spans : network.Spans lanes relays) :
    Costs (network.addRelays lanes relays source)
      ((lanes.length - 1) • relayTally network.ports.blueprint.width network.name)
      (network.Spans lanes) := by
  obtain ⟨inside, _⟩ := List.getElem?_eq_some_iff.mp (List.mem_zipIdx_iff_getElem?.mp from_source)
  rw [← length_otherLanes inside]
  unfold addRelays
  cases others : otherLanes lanes source.2 with
  | nil => exact (costs_pure spans).eq (zero_nsmul _).symm
  | cons first rest =>
    refine costs_ofFault_bind (storable_groupBlueprint storable source.2).initialWord ?_
    refine costs_foldlM_const (network.Spans lanes) spans fun sink member relays spans => ?_
    have at_sink : sink ∈ otherLanes lanes source.2 := others ▸ member
    obtain ⟨inside, _⟩ := List.getElem?_eq_some_iff.mp
      (List.mem_zipIdx_iff_getElem?.mp (List.mem_filter.mp at_sink).1)
    exact costs_addRelay storable fitting from_source spans inside

/-- Relays lead from each lane to all others. -/
theorem costs_relays {relays : Relays} (spans : network.Spans lanes relays) :
    Costs (lanes.zipIdx.foldlM (network.addRelays lanes) relays)
      ((lanes.length * (lanes.length - 1)) • relayTally network.ports.blueprint.width network.name)
      (network.Spans lanes) := by
  have all := costs_foldlM_const (l := lanes.zipIdx) (network.Spans lanes) spans fun source member relays spans =>
    costs_addRelays storable fitting member spans
  rwa [List.length_zipIdx, ← mul_nsmul'] at all

end Relays

section Groups

variable (sound : network.ports.Sound) (storable : network.ports.blueprint.Storable)
include sound storable

theorem costs_addGroup {source : Lane × Nat} (fitting : network.Fitting source.1) :
    Costs (network.addGroup source)
      (network.ports.readers.length • bankTally network.ports.blueprint.width network.name)
      fun group => group.Reads network.ports.readers.length network.ports.blueprint.width := by
  obtain ⟨group, declared, opened, fits⟩ := exists_group sound fitting
  have grouped := grouped_of_group declared
  have fitted : group.ports.blueprint.Storable := grouped.blueprint ▸ storable_groupBlueprint storable source.2
  have built := Replicated.costs_build fitted opened fits
  rw [grouped.readers, List.length_map, grouped.blueprint, (network.blueprint_groupBlueprint source.2).1] at built
  unfold addGroup
  rw [name_of_group declared, bankTally, Tally.label_map] at built
  exact costs_refuseAs (costs_ofRefusal_bind declared built)

end Groups

/-- Of each group but the first the data of a reader takes a gate. -/
theorem costs_combineReader {groups : List Assembly} {readers width : Nat}
    (reads : ∀ group ∈ groups, group.Reads readers width) (some_group : groups ≠ []) {reader : Nat}
    (inside : reader < readers) :
    Costs (combineReader groups reader) ((groups.length - 1) • Tally.cell "xor" width)
      fun data => data.length = width := by
  have wide : ∀ data ∈ groups.map (fun group => group.readData.getD reader []), data.length = width := by
    intro data member
    obtain ⟨group, at_group, rfl⟩ := List.mem_map.mp member
    obtain ⟨count, wide⟩ := reads group at_group
    exact length_getD wide (count.symm ▸ inside)
  unfold combineReader
  cases groups with
  | nil => exact absurd rfl some_group
  | cons group others =>
    obtain ⟨first, rest⟩ := List.forall_mem_cons.mp wide
    have joined : Costs ((others.map fun group => group.readData.getD reader []).foldlM
        (fun data other => Build.add (.gate .xor data other)) (group.readData.getD reader [])) _ _ :=
      costs_foldlM_const (fun data => data.length = width) first fun other member data wide =>
        costs_gate wide (rest other member)
    rwa [List.length_map] at joined

/-- The data combined for each of several lanes is on nets that have been added with the relays. -/
theorem beyond_of_relays {lanes : List Lane} (known : ∀ sink ∈ lanes.zipIdx,
    network.ports.writers[sink.2]? = some sink.1.writer) (several : 1 < lanes.length) {relays : Relays}
    {bench after : Workbench} (collected : Ends (lanes.zipIdx.foldlM (network.addRelays lanes)
      ⟨network.ports.writers.map Writer.data, []⟩) bench relays after) (full : relays.combined.length = lanes.length) :
    ∀ data ∈ relays.combined, ∀ net ∈ data, ∃ index, bench.netlist.next ≤ index ∧ net = .slot index := by
  obtain ⟨_, all⟩ := adds_relays known _ _ _ (show From bench.netlist.next bench.netlist from Nat.le_refl _) collected
  intro data member net at_data
  obtain ⟨k, found⟩ := List.mem_iff_getElem?.mp member
  obtain ⟨inside, _⟩ := List.getElem?_eq_some_iff.mp found
  have inside : k < lanes.length := full ▸ inside
  have sink : (lanes[k], k) ∈ lanes.zipIdx := List.mem_zipIdx_iff_getElem?.mpr (List.getElem?_eq_getElem inside)
  obtain ⟨outputs, data', each, chain, found'⟩ := all.combined _ sink
  obtain rfl : data = data' := Option.some.inj (found.symm.trans found')
  -- some relay leads to the lane, so the last gate of its chain puts the data out
  have some_relay : outputs ≠ [] := by
    rintro rfl
    rw [sources_pairs sink] at each
    have none_other := congrArg List.length (List.forall₂_nil_right_iff.mp each)
    rw [length_otherLanes inside] at none_other
    simp only [List.length_nil] at none_other
    omega
  obtain ⟨earlier, last, rfl⟩ := (List.eq_nil_or_concat' outputs).resolve_left some_relay
  obtain ⟨_, _, _, index, low, rfl, _⟩ := chain_snoc.mp chain
  obtain ⟨slot, first, _, rfl⟩ := Bus.mem_ofSlots.mp at_data
  exact ⟨slot, Nat.le_trans low first, rfl⟩

/-- What a network costs before its first bank: the masks, and the placeholders for what the writers write. -/
def lanesTally (network : XorNetwork) : Tally :=
  network.maskingTally + network.ports.writers.length • Tally.placeholders network.ports.blueprint.width

/-- What a whole network costs. -/
def tally (network : XorNetwork) : Tally :=
  let width := network.ports.blueprint.width
  let writers := network.ports.writers.length
  let readers := network.ports.readers.length
  network.lanesTally + ((writers * (writers - 1)) • relayTally width network.name +
    (writers • (readers • bankTally width network.name) + readers • ((writers - 1) • Tally.cell "xor" width)))

/-- Once the placeholders of all lanes are tied to combined data that has been added later, no chain is longer than one
link. -/
theorem exists_direct_ties {placeholders combined : List Bus} {start lanes width : Nat}
    (placed : placeholders.flatten = Bus.ofSlots start (lanes * width)) (count : placeholders.length = lanes)
    (wide : ∀ bus ∈ placeholders, bus.length = width) (count' : combined.length = lanes)
    (wide' : ∀ bus ∈ combined, bus.length = width) {bench : Workbench} (untied : bench.netlist.rewiring = ∅)
    (beyond : ∀ data ∈ combined, ∀ net ∈ data, ∃ index, start + lanes * width ≤ index ∧ net = .slot index) :
    ∃ after, Ends ((placeholders.zip combined).forM fun entry => Build.rewireBus entry.1 entry.2) bench () after ∧
      after.netlist.arena = bench.netlist.arena ∧ after.netlist.rewiring.Direct := by
  have sources : (placeholders.zip combined).map Prod.fst = placeholders :=
    List.map_fst_zip (Nat.le_of_eq (count.trans count'.symm))
  have kept (net : Net) : bench.netlist.rewiring.target? net = none := by
    rw [untied]
    exact Netlist.target?_empty net
  obtain ⟨after, ended, arena, replaced⟩ := exists_ties bench (placeholders.zip combined)
    (fun entry member => by
      obtain ⟨left, right⟩ := List.of_mem_zip member
      rw [wide _ left, wide' _ right])
    (by rw [sources, placed]; exact Bus.nodup_ofSlots _ _) (fun net _ => kept net)
  -- a net that is replaced is a placeholder, and a net that it is replaced by is none
  have tied (net goal : Net) (found : after.netlist.rewiring.target? net = some goal) :
      net ∈ Bus.ofSlots start (lanes * width) ∧ ∃ index, start + lanes * width ≤ index ∧ goal = .slot index := by
    rcases replaced net goal found with earlier | ⟨entry, member, at_source, at_target⟩
    · rw [kept net] at earlier
      cases earlier
    · obtain ⟨left, right⟩ := List.of_mem_zip member
      rw [← placed]
      exact ⟨List.mem_flatten_of_mem left at_source, beyond _ right goal at_target⟩
  refine ⟨after, ended, arena, fun net goal found => Option.eq_none_iff_forall_ne_some.mpr fun next again => ?_⟩
  obtain ⟨_, index, low, rfl⟩ := tied net goal found
  obtain ⟨slot, _, high, same⟩ := Bus.mem_ofSlots.mp (tied _ next again).1
  have same := Net.slot.inj same
  omega

theorem exists_lanes (sound : network.ports.Sound) {bench : Workbench}
    (room : bench.netlist.Numbered network.lanesTally.2) :
    ∃ masks placeholders between after, Ends network.masks bench masks between ∧
      Ends (network.ports.writers.mapM fun _ => Build.addPlaceholders network.ports.blueprint.width) between
        placeholders after ∧ Netlist.Spends network.lanesTally bench.netlist after.netlist ∧
          placeholders.length = network.ports.writers.length ∧
            ∀ bus ∈ placeholders, bus.length = network.ports.blueprint.width := by
  let placing := network.ports.writers.length • Tally.placeholders network.ports.blueprint.width
  have room : bench.netlist.Numbered (network.maskingTally.2 + placing.2) := room
  obtain ⟨masks, between, masked, of_masks, _⟩ := costs_masks sound bench (room.mono (Nat.le_add_right _ _))
  have placing_costs := costs_mapM_const (l := network.ports.writers) fun _ _ =>
    costs_addPlaceholders network.ports.blueprint.width
  obtain ⟨placeholders, after, placed, of_places, count, wide⟩ := placing_costs between (of_masks.numbered room)
  exact ⟨masks, placeholders, between, after, masked, placed, of_masks.trans of_places, count, wide⟩

/-- A network with several writers is built wherever its slots get numbers and nothing is replaced yet. -/
theorem exists_assembleLanes (sound : network.ports.Sound) (storable : network.ports.blueprint.Storable)
    (several : 1 < network.ports.writers.length) {bench : Workbench}
    (room : bench.netlist.Numbered network.tally.2) (untied : bench.netlist.rewiring = ∅) :
    ∃ assembly after, Ends network.assembleLanes bench assembly after ∧
      after.netlist.tally = bench.netlist.tally + network.tally ∧ after.netlist.rewiring.Direct ∧
        assembly.readData.length = network.ports.readers.length := by
  let width := network.ports.blueprint.width
  let writers := network.ports.writers.length
  let readers := network.ports.readers.length
  let relaying := (writers * (writers - 1)) • relayTally width network.name
  let grouping := writers • (readers • bankTally width network.name)
  let reading := readers • ((writers - 1) • Tally.cell "xor" width)
  have room : bench.netlist.Numbered (network.lanesTally.2 + (relaying.2 + (grouping.2 + reading.2))) := room
  obtain ⟨masks, placeholders, first, second, masked, placed, of_lanes, count, wide⟩ :=
    exists_lanes sound (room.mono (Nat.le_add_right _ _))
  have room_second : second.netlist.Numbered (relaying.2 + (grouping.2 + reading.2)) := of_lanes.numbered room
  have fitting := fitting_lanes sound masked placed
  have full := length_lanesOf masked placed
  have own : network.Spans (lanesOf network.ports.writers masks placeholders)
      ⟨network.ports.writers.map Writer.data, []⟩ := by
    refine ⟨(List.length_map _).trans full.symm, fun data member => ?_⟩
    obtain ⟨writer, declared, rfl⟩ := List.mem_map.mp member
    exact (sound.writers writer declared).2.1
  have relaying_costs := costs_relays storable fitting own
  rw [full] at relaying_costs
  obtain ⟨relays, third, collected, of_relays, spans⟩ := relaying_costs second (room_second.mono (Nat.le_add_right _ _))
  obtain ⟨fourth, tied, arena, direct⟩ : ∃ fourth, Ends ((placeholders.zip relays.combined).forM fun entry =>
      Build.rewireBus entry.1 entry.2) third () fourth ∧ fourth.netlist.arena = third.netlist.arena ∧
        fourth.netlist.rewiring.Direct := by
    obtain ⟨slots, next, _⟩ := flatten_of_placeholders placed
    refine exists_direct_ties slots count wide (spans.1.trans full) spans.2 ?_ ?_
    · rw [of_relays.rewiring, of_lanes.rewiring, untied]
    · rw [← next]
      exact beyond_of_relays writer_of_lanesOf (full ▸ several) collected spans.1
  have same := Netlist.tally_congr arena
  have next_fourth : fourth.netlist.next = third.netlist.next := congrArg Prod.snd same
  unfold assembleLanes
  refine exists_ends_bind masked (exists_ends_bind placed (exists_ends_bind collected (exists_ends_bind tied ?_)))
  refine Costs.exists_ends (?_ : Costs _ (grouping + reading) fun assembly => assembly.readData.length = readers)
    ((of_relays.numbered room_second).of_le (Nat.le_of_eq next_fourth))
    fun assembly after of_rest count => ⟨?_, ?_, count⟩
  · have grouping_costs := costs_mapM_const (l := (lanesOf network.ports.writers masks placeholders).zipIdx)
      fun source member => costs_addGroup sound storable (fitting source member)
    rw [List.length_zipIdx, full] at grouping_costs
    refine costs_then grouping_costs fun _ groups _ grouped ⟨groups_full, reads⟩ => ?_
    have some_group : groups ≠ [] := List.ne_nil_of_length_pos (by omega)
    have reading_costs := costs_mapM_const (l := List.range network.ports.readers.length) fun reader member =>
      costs_combineReader reads some_group (List.mem_range.mp member)
    rw [List.length_range, groups_full] at reading_costs
    refine costs_bind_free reading_costs fun readData ⟨count, _⟩ => ?_
    dsimp only
    rw [if_neg (not_not.mpr (length_of_parts full writer_of_lanesOf collected grouped))]
    exact costs_free_bind costs_report fun _ _ => costs_pure count
  · rw [of_rest.tally, same, of_relays.tally, of_lanes.tally]
    simp only [add_assoc]
    rfl
  · rwa [of_rest.rewiring]

end XorNetwork

namespace Engine

/-- What a memory costs that has one writer at most, or a network. -/
def tally : Engine → Tally
  | replicated memory => memory.ports.readers.length • bankTally memory.ports.blueprint.width memory.name
  | xorNetwork network => network.tally

/-- A network is for several writers. -/
def Several : Engine → Prop
  | replicated _ => True
  | xorNetwork network => 1 < network.ports.writers.length

variable {engine : Engine}

/-- A memory is built wherever its slots get numbers and nothing is replaced yet. -/
theorem exists_construct (opened : engine.ports.frozen = false) (sound : engine.ports.Sound)
    (storable : engine.ports.blueprint.Storable) (several : engine.Several) {bench : Workbench}
    (room : bench.netlist.Numbered engine.tally.2) (untied : bench.netlist.rewiring = ∅) :
    ∃ assembly after, Ends engine.construct bench assembly after ∧
      after.netlist.tally = bench.netlist.tally + engine.tally ∧ after.netlist.rewiring.Direct ∧
        assembly.readData.length = engine.ports.readers.length := by
  have final : Ends (ofRefusal engine.ports.freeze) bench { engine.ports with frozen := true } bench :=
    ends_ofRefusal.mpr ⟨Ports.freeze_of_open opened, rfl⟩
  unfold construct
  refine exists_ends_bind final ?_
  cases engine with
  | replicated memory =>
    let closed : Replicated := { memory with ports := { memory.ports with frozen := true } }
    have built : Costs closed.assemble _ _ := Replicated.costs_assemble storable sound.frozen
    refine built.exists_ends room fun assembly after spends reads => ⟨spends.tally, ?_, reads.1⟩
    rw [spends.rewiring, untied]
    intro net target found
    rw [Netlist.target?_empty] at found
    cases found
  | xorNetwork network =>
    let closed : XorNetwork := { network with ports := { network.ports with frozen := true } }
    have some_writer : closed.ports.writers.isEmpty = false := by
      have : 1 < closed.ports.writers.length := several
      exact List.isEmpty_eq_false_iff.mpr (List.ne_nil_of_length_pos (by omega))
    have verified : Ends (ofRefusal closed.ports.verify) bench () bench :=
      ends_ofRefusal.mpr ⟨sound.frozen.verify, rfl⟩
    show ∃ assembly after, Ends closed.assemble bench assembly after ∧ _
    unfold XorNetwork.assemble
    refine exists_ends_bind verified (exists_ends_bind (ends_report.mpr rfl : Ends _ _ () _) ?_)
    simp only [some_writer, Bool.false_eq_true, if_false]
    exact closed.exists_assembleLanes sound.frozen storable several room untied

end Engine

end BankedMemory.Storage
