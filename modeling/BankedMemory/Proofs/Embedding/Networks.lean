import BankedMemory.Proofs.Construction.Refusals
import BankedMemory.Proofs.Embedding.Replicas

/-!
# Networks with and without labels

A network that gives labels to its banks adds the same cells as one that does not, and the labels besides.
-/

namespace BankedMemory.Storage

open Build

/-- The same network, with labels or without. -/
def XorNetwork.labelled (name? : Option String) (network : XorNetwork) : XorNetwork := { network with name := name? }

namespace Stage

variable {stage : Stage}

theorem follows_moved {c : Cell} (known : ∀ net ∈ c.nets, net.Below stage.small.next) :
    stage.Follows (add c) (add (c.map (Net.relocate stage.place))) Has :=
  stage.follows_add known (Cell.alike_map fun net _ => Netlist.standsFor_relocate net)

theorem follows_gate {kind : Gate} {a a' b b' : Bus} (left : stage.Has a a') (right : stage.Has b b') :
    stage.Follows (add (.gate kind a b)) (add (.gate kind a' b')) Has := by
  obtain ⟨known, rfl⟩ := left
  obtain ⟨known', rfl⟩ := right
  refine stage.follows_moved fun net member => ?_
  exact (List.mem_append.mp member).elim (known net) (known' net)

theorem follows_equal {a a' b b' : Bus} (left : stage.Has a a') (right : stage.Has b b') :
    stage.Follows (add (.equal a b)) (add (.equal a' b')) Has := by
  obtain ⟨known, rfl⟩ := left
  obtain ⟨known', rfl⟩ := right
  refine stage.follows_moved fun net member => ?_
  exact (List.mem_append.mp member).elim (known net) (known' net)

theorem follows_invert {a a' : Bus} (has : stage.Has a a') : stage.Follows (add (.invert a)) (add (.invert a')) Has := by
  obtain ⟨known, rfl⟩ := has
  exact stage.follows_moved known

theorem Has.repeated {bus bus' : Bus} (has : stage.Has bus bus') (count : Nat) :
    stage.Has (bus.repeated count) (bus'.repeated count) := by
  unfold Bus.repeated
  refine ⟨fun net member => ?_, ?_⟩
  · obtain ⟨copy, at_copy, member⟩ := List.mem_flatten.mp member
    rw [List.eq_of_mem_replicate at_copy] at member
    exact has.1 net member
  · rw [has.2, List.map_flatten, List.map_replicate]

theorem has_nil : stage.Has [] [] := ⟨fun _ member => absurd member List.not_mem_nil, rfl⟩

theorem has_getD {buses buses' : List Bus} (related : List.Forall₂ stage.Has buses buses') (k : Nat) :
    stage.Has (buses.getD k []) (buses'.getD k []) := by
  induction related generalizing k with
  | nil => exact has_nil
  | cons head _ ih =>
    cases k with
    | zero => exact head
    | succ k => exact ih k

/-- Lanes of one writer, with masks and placeholders that belong together. -/
structure Lanes (stage : Stage) (network : XorNetwork) (lane lane' : Lane) : Prop where
  writer : lane'.writer = lane.writer
  declared : lane.writer ∈ network.ports.writers
  mask : stage.Has lane.mask lane'.mask
  data : stage.Has lane.data lane'.data

/-- Such lanes with one number. -/
def Sources (stage : Stage) (network : XorNetwork) (source source' : Lane × Nat) : Prop :=
  stage.Lanes network source.1 source'.1 ∧ source'.2 = source.2

/-- The relays that have been collected belong together. -/
structure Collects (stage : Stage) (relays relays' : Relays) : Prop where
  combined : List.Forall₂ stage.Has relays.combined relays'.combined
  banks : List.Forall₂ stage.Banks relays.banks relays'.banks

variable {network : XorNetwork}

theorem lasting_lanes {lane lane' : Lane} : Lasting (Lanes · network lane lane') := fun stage later reaches lanes =>
  { lanes with
    mask := lasting_has stage later reaches lanes.mask
    data := lasting_has stage later reaches lanes.data }

theorem lasting_sources {source source' : Lane × Nat} : Lasting (Sources · network source source') :=
  lasting_lanes.and (lasting_const _)

theorem lasting_collects {relays relays' : Relays} : Lasting (Collects · relays relays') :=
  fun stage later reaches collects =>
    ⟨lasting_forall₂ (fun _ _ => lasting_has) stage later reaches collects.combined,
      lasting_forall₂ (fun _ _ => lasting_banks) stage later reaches collects.banks⟩

theorem lasting_option {bus? bus'? : Option Bus} : Lasting fun stage => Option.Rel stage.Has bus? bus'? := by
  rintro stage later reaches (⟨has⟩ | _)
  · exact .some (lasting_has stage later reaches has)
  · exact .none

end Stage

namespace XorNetwork

variable {network : XorNetwork} {stage : Stage} {name? : Option String}

theorem follows_conflict (hosts : stage.Hosts network.clock network.ports) {writer : Writer}
    (declared : writer ∈ network.ports.writers) {earlier : List Writer}
    (before : ∀ other ∈ earlier, other ∈ network.ports.writers) :
    stage.Follows (network.conflict writer earlier) ((network.labelled name?).conflict writer earlier)
      fun later => Option.Rel later.Has := by
  unfold conflict
  refine stage.follows_foldlM (R := fun _ x y => y = x ∧ x ∈ network.ports.writers) (fun _ _ => Stage.lasting_const _)
    (List.forall₂_same.mpr fun other member => ⟨rfl, before other member⟩) ?_ .none
  rintro later conflict? conflict'? other _ reaches here ⟨rfl, earlier⟩
  have hosts := Stage.lasting_hosts stage later reaches hosts
  refine (later.follows_equal (hosts.addr earlier) (hosts.addr declared)).bind
    fun next sameRow sameRow' reaches same => ?_
  have hosts := Stage.lasting_hosts later next reaches hosts
  have here := Stage.lasting_option later next reaches here
  refine (next.follows_gate (hosts.mask earlier) (same.repeated _)).bind fun last written written' reaches has => ?_
  have here := Stage.lasting_option next last reaches here
  cases here with
  | none => exact last.follows_pure (.some has)
  | some conflict =>
    exact (last.follows_gate conflict has).bind fun final _ _ _ joined => final.follows_pure (.some joined)

theorem follows_masks (hosts : stage.Hosts network.clock network.ports) :
    stage.Follows network.masks (network.labelled name?).masks
    fun later => List.Forall₂ later.Has := by
  have policy : (network.labelled name?).arbitration = network.arbitration := rfl
  unfold masks
  rw [policy]
  cases network.arbitration with
  | none =>
    refine stage.follows_pure ?_
    exact List.forall₂_map_left_iff.mpr (List.forall₂_map_right_iff.mpr
      (List.forall₂_same.mpr fun writer declared => hosts.mask declared))
  | lowestIndex =>
    refine stage.follows_mapM (R := fun _ x y => y = x ∧ x.1 ∈ network.ports.writers)
      (fun _ _ => Stage.lasting_const _) (fun _ _ => Stage.lasting_has)
      (List.forall₂_same.mpr fun entry member => ⟨rfl, List.fst_mem_of_mem_zipIdx member⟩) ?_
    rintro later _ entry reaches ⟨rfl, declared⟩
    have hosts := Stage.lasting_hosts stage later reaches hosts
    have earlier : ∀ other ∈ network.ports.writers.take entry.2, other ∈ network.ports.writers :=
      fun other => List.mem_of_mem_take
    unfold arbitratedMask
    refine (follows_conflict hosts declared earlier).bind fun next conflict? conflict'? reaches conflict => ?_
    have hosts := Stage.lasting_hosts later next reaches hosts
    cases conflict with
    | none => exact next.follows_pure (hosts.mask declared)
    | some has =>
      refine (next.follows_invert has).bind fun last free free' reaches' has' => ?_
      exact last.follows_gate ((Stage.lasting_hosts next last reaches' hosts).mask declared) has'

/-! ### Relays -/

variable {lanes lanes' : List Lane}

theorem lanes_of_parts (network : XorNetwork) {masks masks' places places' : List Bus}
    (masked : List.Forall₂ stage.Has masks masks') (placed : List.Forall₂ stage.Has places places') :
    List.Forall₂ (stage.Lanes network) (lanesOf network.ports.writers masks places)
      (lanesOf network.ports.writers masks' places') := by
  obtain ⟨same_masks, each_mask⟩ := forall₂_iff_getElem?.mp masked
  obtain ⟨same_places, each_place⟩ := forall₂_iff_getElem?.mp placed
  refine forall₂_iff_getElem?.mpr ⟨by simp [lanesOf, same_masks, same_places], fun i lane lane' found found' => ?_⟩
  obtain ⟨at_writer, at_mask, at_data⟩ := getElem?_lanesOf found
  obtain ⟨at_writer', at_mask', at_data'⟩ := getElem?_lanesOf found'
  exact ⟨Option.some.inj (at_writer'.symm.trans at_writer), List.mem_of_getElem? at_writer,
    each_mask i _ _ at_mask at_mask', each_place i _ _ at_data at_data'⟩

theorem follows_addRelay (unnamed : network.name = none) (hosts : stage.Hosts network.clock network.ports)
    {source source' sink sink' : Lane × Nat} (starts : stage.Sources network source source')
    (leads : stage.Sources network sink sink') {init : Bits} {relays relays' : Relays}
    (collects : stage.Collects relays relays') : stage.Follows (network.addRelay init source relays sink)
      ((network.labelled name?).addRelay init source' relays' sink') Stage.Collects := by
  obtain ⟨lane, k⟩ := source
  obtain ⟨⟨_, mask', data'⟩, _⟩ := source'
  obtain ⟨target, i⟩ := sink
  obtain ⟨⟨_, _, _⟩, _⟩ := sink'
  obtain ⟨⟨rfl, declared, masked, placed⟩, number⟩ := starts
  obtain ⟨⟨rfl, declared', _, _⟩, number'⟩ := leads
  cases number
  cases number'
  have wires : stage.Wires ⟨lane.writer.addr, lane.data, lane.mask, network.clock⟩
      ⟨lane.writer.addr, data', mask', network.clock⟩ := by
    refine ⟨rfl, rfl, fun net member => ?_, placed.stands, masked.stands⟩
    rcases List.mem_append.mp member with at_addr | at_clock
    · exact hosts.writer_kept declared (by simp [at_addr])
    · rw [List.mem_singleton.mp at_clock]
      exact hosts.ticks
  have kept : ∀ reads ∈ (network.relayBank init (lane, k) target).readPorts, ∀ net ∈ reads.nets, stage.Keeps net := by
    intro reads at_port net operand
    rw [List.mem_singleton.mp at_port] at operand
    exact hosts.writer_kept declared' (by simp [show net ∈ target.writer.addr by simpa [ReadPort.nets] using operand])
  unfold addRelay
  refine (stage.follows_add (stage.below_memory rfl wires kept) (stage.alike_memory rfl wires kept)).bind
    fun later output output' reaches has => ?_
  rw [unnamed]
  refine later.follows_label.bind fun next _ _ reaches' _ => ?_
  refine next.follows_report.bind fun last _ _ reaches'' _ => ?_
  have has := Stage.lasting_has later last (reaches'.trans reaches'') has
  have collects := Stage.lasting_collects stage last (reaches.trans (reaches'.trans reaches'')) collects
  refine (last.follows_gate (last.has_getD collects.combined i) has).bind
    fun final combined combined' reaches joined => ?_
  have collects := Stage.lasting_collects last final reaches collects
  refine final.follows_pure ⟨forall₂_set collects.combined joined i, ?_⟩
  exact List.rel_append collects.banks (.cons ⟨rfl, Stage.lasting_has last final reaches has⟩ .nil)

theorem follows_addRelays (unnamed : network.name = none) (hosts : stage.Hosts network.clock network.ports)
    (related : List.Forall₂ (stage.Lanes network) lanes lanes') {source source' : Lane × Nat}
    (starts : stage.Sources network source source') {relays relays' : Relays}
    (collects : stage.Collects relays relays') : stage.Follows (network.addRelays lanes relays source)
      ((network.labelled name?).addRelays lanes' relays' source') Stage.Collects := by
  have others : List.Forall₂ (stage.Sources network) (otherLanes lanes source.2) (otherLanes lanes' source'.2) := by
    unfold otherLanes
    rw [starts.2]
    refine List.rel_filter (fun x y pair => ?_) (forall₂_zipIdx related)
    show decide (x.2 ≠ source.2) = true ↔ decide (y.2 ≠ source.2) = true
    rw [pair.2]
  have same : (network.labelled name?).groupBlueprint source'.2 = network.groupBlueprint source.2 := by
    rw [starts.2]
    rfl
  unfold addRelays
  rw [same]
  cases h : otherLanes lanes source.2 with
  | nil =>
    rw [h] at others
    rw [List.forall₂_nil_left_iff.mp others]
    exact stage.follows_pure collects
  | cons first rest =>
    rw [h] at others
    obtain ⟨first', rest', _, _, h'⟩ := List.forall₂_cons_left_iff.mp others
    rw [h'] at others ⊢
    refine stage.follows_same.bind ?_
    rintro later init _ reaches rfl
    have others := Stage.lasting_forall₂ (fun _ _ => Stage.lasting_sources) stage later reaches others
    refine later.follows_foldlM (fun _ _ => Stage.lasting_sources) others ?_
      (Stage.lasting_collects stage later reaches collects)
    rintro next relays relays' sink sink' reaches' collects leads
    have reaches := reaches.trans reaches'
    exact follows_addRelay unnamed (Stage.lasting_hosts stage next reaches hosts)
      (Stage.lasting_sources stage next reaches starts) leads collects

theorem follows_relays (unnamed : network.name = none) (hosts : stage.Hosts network.clock network.ports)
    (related : List.Forall₂ (stage.Lanes network) lanes lanes') :
    stage.Follows (lanes.zipIdx.foldlM (network.addRelays lanes) ⟨network.ports.writers.map Writer.data, []⟩)
      (lanes'.zipIdx.foldlM ((network.labelled name?).addRelays lanes') ⟨network.ports.writers.map Writer.data, []⟩)
      Stage.Collects := by
  refine stage.follows_foldlM (fun _ _ => Stage.lasting_sources) (forall₂_zipIdx related) ?_ ⟨?_, .nil⟩
  · rintro later relays relays' source source' reaches collects starts
    exact follows_addRelays unnamed (Stage.lasting_hosts stage later reaches hosts)
      (Stage.lasting_forall₂ (fun _ _ => Stage.lasting_lanes) stage later reaches related) starts collects
  · exact List.forall₂_map_left_iff.mpr (List.forall₂_map_right_iff.mpr
      (List.forall₂_same.mpr fun writer declared => hosts.data declared))

/-! ### Groups -/

/-- A group takes only a lane whose words are as wide as the shape asks. -/
theorem fitting_of_group {source : Lane × Nat} {group : Replicated} (h : network.group source = .ok group) :
    network.Fitting source.1 := by
  obtain ⟨same_width, same_address⟩ := network.blueprint_groupBlueprint source.2
  unfold XorNetwork.group at h
  obtain ⟨⟨number, ports⟩, declared, _⟩ := except_bind_eq_ok.mp h
  let start := Ports.ofBlueprint (network.groupBlueprint source.2) (some 1)
  have room : start.HasRoom := by
    rintro capacity ⟨⟩
    exact Nat.one_pos
  by_contra misfit
  have unfit : ¬ start.FitsWriter ⟨source.1.writer.addr, source.1.data, source.1.mask, some 1⟩ := by
    rintro ⟨addressed, wide, _, _, enabled⟩
    rw [Nat.div_one] at enabled
    exact misfit ⟨addressed.trans same_address, wide.trans same_width, enabled.trans same_width⟩
  obtain ⟨cause, refused, _⟩ := Ports.declareWriter_misfit (show start.frozen = false from rfl) room unfit
  cases declared.symm.trans refused

/-- A writer of single bits has its enable for a mask. -/
theorem mask_of_single (addr data enable : Bus) : (⟨addr, data, enable, some 1⟩ : Writer).mask = enable := by
  have single : (List.replicate 1 : Net → List Net) = fun net => [net] := rfl
  simp [Writer.mask, single]

/-- A lane as the only writer of a group belongs to a lane that belongs to it. -/
theorem drives_of_lane {lane lane' : Lane} (addr : ∀ net ∈ lane.writer.addr, stage.Keeps net)
    (same : lane'.writer.addr = lane.writer.addr) (data : stage.Stands lane.data lane'.data)
    (mask : stage.Stands lane.mask lane'.mask) :
    stage.Drives ⟨lane.writer.addr, lane.data, lane.mask, some 1⟩ ⟨lane'.writer.addr, lane'.data, lane'.mask, some 1⟩ :=
  ⟨same, addr, data, by rwa [mask_of_single, mask_of_single]⟩

theorem mirrors_of_grouped (hosts : stage.Hosts network.clock network.ports) {source source' : Lane × Nat}
    (starts : stage.Sources network source source') {group group' : Replicated} (unnamed : group.name = none)
    (grouped : network.Grouped source group) (grouped' : (network.labelled name?).Grouped source' group') :
    stage.Mirrors group group' := by
  have blueprint : group'.ports.blueprint = group.ports.blueprint := by
    rw [grouped'.blueprint, grouped.blueprint, starts.2]
    rfl
  have clock : group'.clock = group.clock := grouped'.clock.trans grouped.clock.symm
  have visibility (reader : Reader) : group'.visibility reader = group.visibility reader := by
    unfold Replicated.visibility
    rw [grouped'.writers, grouped.writers]
    rfl
  refine ⟨unnamed, blueprint, ?_, clock, by rw [grouped.clock]; exact hosts.ticks, ?_, ?_, ?_⟩
  · rw [grouped'.writer, grouped.writer, starts.2]
  · rw [grouped.readers, grouped'.readers, starts.2]
    refine List.forall₂_same.mpr fun reader _ => ?_
    unfold Replicated.readPort
    rw [blueprint, clock, visibility]
  · intro reader member net operand
    rw [grouped.readers] at member
    obtain ⟨port, declared, rfl⟩ := List.mem_map.mp member
    have parts : net ∈ port.addr ∨ net = group.clock.net ∨ net = port.enable := by
      simpa [ReadPort.nets, Replicated.readPort, Register.nets, Control.high, groupReader, Reader.observing,
        Reader.ofNets] using operand
    rcases parts with at_addr | rfl | rfl
    · exact hosts.reader_kept declared (List.mem_cons_of_mem _ at_addr)
    · rw [grouped.clock]
      exact hosts.ticks
    · exact hosts.reader_kept declared List.mem_cons_self
  · rw [grouped.writers, grouped'.writers]
    refine .cons (drives_of_lane (fun net member => ?_) (by rw [starts.1.writer]) starts.1.data.stands
      starts.1.mask.stands) .nil
    exact hosts.writer_kept starts.1.declared (by simp [member])

theorem follows_addGroup (unnamed : network.name = none) (sound : network.ports.Sound)
    (hosts : stage.Hosts network.clock network.ports) {source source' : Lane × Nat}
    (starts : stage.Sources network source source') :
    stage.Follows (network.addGroup source) ((network.labelled name?).addGroup source') Stage.Assembles := by
  have grouping : stage.Follows (ofRefusal (network.group source)) (ofRefusal ((network.labelled name?).group source'))
      fun _ group group' => (group.ports.frozen = false ∧ group.ports.Sound ∧ group.name = none) ∧
        network.Grouped source group ∧ (network.labelled name?).Grouped source' group' := by
    refine stage.follows_ofRefusal fun group' declared' => ?_
    have fitting' := fitting_of_group declared'
    have fitting : network.Fitting source.1 := by
      refine ⟨?_, starts.1.data.length.symm.trans fitting'.data, starts.1.mask.length.symm.trans fitting'.mask⟩
      rw [← starts.1.writer]
      exact fitting'.addr
    obtain ⟨group, declared, opened, accepted⟩ := exists_group sound fitting
    refine ⟨group, declared, ⟨opened, accepted, ?_⟩, grouped_of_group declared, grouped_of_group declared'⟩
    rw [name_of_group declared, unnamed]
    rfl
  refine stage.follows_refuseAs (grouping.bind ?_)
  rintro later group group' reaches ⟨⟨opened, accepted, bare⟩, grouped, grouped'⟩
  exact Replicated.follows_build (mirrors_of_grouped (Stage.lasting_hosts stage later reaches hosts)
    (Stage.lasting_sources stage later reaches starts) bare grouped grouped') accepted opened

theorem follows_combineReader {groups groups' : List Assembly} (related : List.Forall₂ stage.Assembles groups groups')
    (k : Nat) : stage.Follows (combineReader groups k) (combineReader groups' k) Stage.Has := by
  have outputs : List.Forall₂ stage.Has (groups.map fun group => group.readData.getD k [])
      (groups'.map fun group => group.readData.getD k []) := by
    rw [List.forall₂_map_left_iff, List.forall₂_map_right_iff]
    exact related.imp fun group group' assembles => stage.has_getD assembles.readData k
  unfold combineReader
  cases h : groups.map fun group => group.readData.getD k [] with
  | nil =>
    rw [h] at outputs
    rw [List.forall₂_nil_left_iff.mp outputs]
    exact stage.follows_pure stage.has_nil
  | cons first rest =>
    rw [h] at outputs
    obtain ⟨first', rest', has, others, h'⟩ := List.forall₂_cons_left_iff.mp outputs
    rw [h']
    refine stage.follows_foldlM (fun _ _ => Stage.lasting_has) others ?_ has
    intro later data data' other other' _ here there
    exact later.follows_gate here there

theorem follows_assembleLanes (unnamed : network.name = none) (sound : network.ports.Sound)
    (hosts : stage.Hosts network.clock network.ports) :
    stage.Follows network.assembleLanes (network.labelled name?).assembleLanes Stage.Assembles := by
  unfold assembleLanes
  refine (follows_masks hosts).bind fun one masks masks' reaches masked => ?_
  have hosts := Stage.lasting_hosts stage one reaches hosts
  have placing : one.Follows (network.ports.writers.mapM fun _ => addPlaceholders network.ports.blueprint.width)
      (network.ports.writers.mapM fun _ => addPlaceholders network.ports.blueprint.width)
      fun later => List.Forall₂ later.Has :=
    one.follows_mapM (R := fun _ _ _ => True) (fun _ _ => Stage.lasting_const _) (fun _ _ => Stage.lasting_has)
      (List.forall₂_same.mpr fun _ _ => trivial) fun later _ _ _ _ => later.follows_addPlaceholders
  refine placing.bind fun two places places' reaches placed => ?_
  have hosts := Stage.lasting_hosts one two reaches hosts
  have masked := Stage.lasting_forall₂ (fun _ _ => Stage.lasting_has) one two reaches masked
  have related := lanes_of_parts network masked placed
  refine (follows_relays unnamed hosts related).bind fun three relays relays' reaches collects => ?_
  have hosts := Stage.lasting_hosts two three reaches hosts
  have related := Stage.lasting_forall₂ (fun _ _ => Stage.lasting_lanes) two three reaches related
  have placed := Stage.lasting_forall₂ (fun _ _ => Stage.lasting_has) two three reaches placed
  have tying : three.Follows ((places.zip relays.combined).forM fun entry => rewireBus entry.1 entry.2)
      ((places'.zip relays'.combined).forM fun entry => rewireBus entry.1 entry.2) fun _ _ _ => True :=
    three.follows_forM (fun _ _ => Stage.lasting_has.and Stage.lasting_has) (forall₂_zip placed collects.combined)
      fun later _ _ _ both => later.follows_rewireBus both.1 both.2
  refine tying.bind fun four _ _ reaches _ => ?_
  have hosts := Stage.lasting_hosts three four reaches hosts
  have related := Stage.lasting_forall₂ (fun _ _ => Stage.lasting_lanes) three four reaches related
  have collects := Stage.lasting_collects three four reaches collects
  have grouping : four.Follows ((lanesOf network.ports.writers masks places).zipIdx.mapM network.addGroup)
      ((lanesOf network.ports.writers masks' places').zipIdx.mapM (network.labelled name?).addGroup)
      fun later => List.Forall₂ later.Assembles :=
    four.follows_mapM (fun _ _ => Stage.lasting_sources) (fun _ _ => Stage.lasting_assembles) (forall₂_zipIdx related)
      fun later _ _ reaches starts =>
        follows_addGroup unnamed sound (Stage.lasting_hosts four later reaches hosts) starts
  refine grouping.bind fun five groups groups' reaches grouped => ?_
  have collects := Stage.lasting_collects four five reaches collects
  have joining : five.Follows ((List.range network.ports.readers.length).mapM (combineReader groups))
      ((List.range network.ports.readers.length).mapM (combineReader groups')) fun later => List.Forall₂ later.Has :=
    five.follows_mapM (R := fun _ k k' => k' = k) (fun _ _ => Stage.lasting_const _) (fun _ _ => Stage.lasting_has)
      (List.forall₂_same.mpr fun _ _ => rfl) fun later k k' reaches same => by
        rw [same]
        exact follows_combineReader
          (Stage.lasting_forall₂ (fun _ _ => Stage.lasting_assembles) five later reaches grouped) k
  refine joining.bind fun six readData readData' reaches joined => ?_
  have grouped := Stage.lasting_forall₂ (fun _ _ => Stage.lasting_assembles) five six reaches grouped
  have collects := Stage.lasting_collects five six reaches collects
  have banks : List.Forall₂ six.Banks (relays.banks ++ groups.flatMap Assembly.banks)
      (relays'.banks ++ groups'.flatMap Assembly.banks) :=
    List.rel_append collects.banks (List.rel_flatMap grouped fun _ _ assembles => assembles.banks)
  have expected : (network.labelled name?).expectedBanks = network.expectedBanks := rfl
  dsimp only
  rw [expected, ← banks.length_eq]
  split
  · exact six.follows_throw
  · refine six.follows_report.bind fun last _ _ reaches _ => ?_
    exact last.follows_pure (Stage.lasting_assembles six last reaches ⟨joined, banks⟩)

/-- The labels make no difference to what a network adds besides. -/
theorem follows_assemble (unnamed : network.name = none) (sound : network.ports.Sound)
    (hosts : stage.Hosts network.clock network.ports) :
    stage.Follows network.assemble (network.labelled name?).assemble Stage.Assembles := by
  have ports : (network.labelled name?).ports = network.ports := rfl
  unfold assemble
  rw [ports]
  refine (stage.follows_checked sound.verify).bind fun one _ _ reaches _ => ?_
  refine one.follows_report.bind fun two _ _ reaches' _ => ?_
  have hosts := Stage.lasting_hosts stage two (reaches.trans reaches') hosts
  split
  · refine two.follows_report.bind fun three _ _ _ _ => ?_
    have unknown : three.Follows
        (network.ports.readers.mapM fun _ => ofFault (Bus.filled network.ports.blueprint.width .unknown))
        (network.ports.readers.mapM fun _ => ofFault (Bus.filled network.ports.blueprint.width .unknown))
        fun later => List.Forall₂ later.Has :=
      three.follows_mapM (R := fun _ _ _ => True) (fun _ _ => Stage.lasting_const _) (fun _ _ => Stage.lasting_has)
        (List.forall₂_same.mpr fun _ _ => trivial) fun later _ _ _ _ => later.follows_ofFault fun bus filled =>
          ⟨bus, filled, later.has_of_keeps (later.keeps_filled filled)⟩
    exact unknown.bind fun last _ _ _ related => last.follows_pure ⟨related, .nil⟩
  · exact follows_assembleLanes unnamed sound hosts

theorem follows_build (unnamed : network.name = none) (sound : network.ports.Sound)
    (opened : network.ports.frozen = false) (hosts : stage.Hosts network.clock network.ports) :
    stage.Follows network.build (network.labelled name?).build Stage.Assembles := by
  have frozen : stage.Follows (ofRefusal network.ports.freeze) (ofRefusal network.ports.freeze)
      fun _ ports ports' => ports = { network.ports with frozen := true } ∧ ports' = ports :=
    stage.follows_ofRefusal fun ports' here =>
      ⟨_, Ports.freeze_of_open opened, rfl, Ports.eq_of_freeze here⟩
  refine frozen.bind ?_
  rintro later ports _ reaches ⟨rfl, rfl⟩
  have hosts := Stage.lasting_hosts stage later reaches hosts
  let closed : XorNetwork := { network with ports := { network.ports with frozen := true } }
  have still : later.Hosts closed.clock closed.ports := ⟨hosts.ticks, hosts.kept⟩
  show later.Follows closed.assemble (closed.labelled name?).assemble Stage.Assembles
  exact follows_assemble unnamed sound.frozen still

end XorNetwork

end BankedMemory.Storage
