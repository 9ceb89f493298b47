import BankedMemory.Proofs.Embedding.Labels
import BankedMemory.Proofs.Replication.Lockstep

/-!
# Networks with one writer

A network with one writer is a memory with one writer that gets its data over placeholders: no relay, no arbitration and
nothing to combine is left.
-/

namespace BankedMemory.Storage

open Build

namespace XorNetwork

variable {network : XorNetwork} {writer : Writer}

/-- The only writer writes with its own mask. -/
theorem masks_of_single (single : network.ports.writers = [writer]) : network.masks = pure [writer.mask] := by
  unfold masks
  rw [single]
  cases network.arbitration with
  | none => rfl
  | lowestIndex => simp [arbitratedMask, conflict]

theorem assembleLanes_of_single (single : network.ports.writers = [writer]) : network.assembleLanes = do
    let placeholders ← addPlaceholders network.ports.blueprint.width
    rewireBus placeholders writer.data
    let group ← network.addGroup (⟨writer, writer.mask, placeholders⟩, 0)
    let readData ← (List.range network.ports.readers.length).mapM (combineReader [group])
    if group.banks.length ≠ network.expectedBanks then
      throw (.refused (.bankCount group.banks.length network.expectedBanks))
    Build.report (.assembledNetwork group.banks.length)
    return ⟨readData, group.banks⟩ := by
  unfold assembleLanes
  rw [masks_of_single single, single]
  simp [addRelays, otherLanes]

/-- One group is combined with nothing. -/
theorem combineReader_of_single (group : Assembly) :
    combineReader [group] = fun k => pure (group.readData.getD k []) := by
  funext k
  simp [combineReader]

theorem map_getD_range (readData : List Bus) :
    (List.range readData.length).map (fun k => readData.getD k []) = readData := by
  refine List.ext_getElem (by simp) fun k inside inside' => ?_
  simp [List.getD_eq_getElem?_getD, inside']

/-- A memory with one writer and a network with one writer of which the same has been declared. -/
structure Counterpart (network : XorNetwork) (memory : Replicated) (writer : Writer) : Prop where
  blueprint : network.ports.blueprint = memory.ports.blueprint
  readers : network.ports.readers = memory.ports.readers
  single : network.ports.writers = [writer]
  only : memory.ports.writers = [writer]
  clock : network.clock = memory.clock
  role : memory.writer = 0

variable {memory : Replicated} {stage : Stage}

/-- The group of the only writer mirrors the memory. -/
theorem Counterpart.mirrors (same : network.Counterpart memory writer) (unnamed : memory.name = none)
    (hosts : stage.Hosts memory.clock memory.ports) {placeholders : Bus} (tied : stage.Stands writer.data placeholders)
    {group : Replicated} (grouped : network.Grouped (⟨writer, writer.mask, placeholders⟩, 0) group) :
    stage.Mirrors memory group := by
  have declared : writer ∈ memory.ports.writers := by simp [same.only]
  have blueprint : group.ports.blueprint = memory.ports.blueprint := grouped.blueprint.trans same.blueprint
  have clock : group.clock = memory.clock := grouped.clock.trans same.clock
  refine ⟨unnamed, blueprint, grouped.writer.trans same.role.symm, clock, hosts.ticks, ?_,
    (Replicated.mirrors_of_hosts hosts none).reads, ?_⟩
  · rw [grouped.readers, same.readers, List.forall₂_map_right_iff]
    refine List.forall₂_same.mpr fun reader _ => ?_
    have visible : group.visibility (groupReader 0 reader) = memory.visibility reader := by
      unfold Replicated.visibility groupReader
      rw [grouped.writers, same.only, observes_observing]
      rfl
    unfold Replicated.readPort
    rw [visible, blueprint, clock]
    rfl
  · rw [same.only, grouped.writers]
    refine .cons ⟨rfl, fun net member => hosts.writer_kept declared (by simp [member]), tied, ?_⟩ .nil
    rw [mask_of_single]
    exact (hosts.mask declared).stands

/-- The group of the only writer can be added in the place of the memory. -/
theorem Counterpart.follows_addGroup (same : network.Counterpart memory writer) (unnamed : memory.name = none)
    (opened : memory.ports.frozen = false) (sound : memory.ports.Sound) (hosts : stage.Hosts memory.clock memory.ports)
    {placeholders : Bus} (tied : stage.Stands writer.data placeholders) :
    stage.Follows memory.build (network.addGroup (⟨writer, writer.mask, placeholders⟩, 0))
      fun later assembly group => later.Assembles assembly group ∧
        group.readData.length = network.ports.readers.length := by
  let source : Lane × Nat := (⟨writer, writer.mask, placeholders⟩, 0)
  have added : stage.Follows memory.build (network.addGroup source) Stage.Assembles :=
    Stage.Follows.refuseAs <| stage.follows_accepted.ahead fun later group reaches declared =>
      Replicated.follows_build (same.mirrors unnamed (Stage.lasting_hosts stage later reaches hosts)
        (Stage.lasting_stands stage later reaches tied) (grouped_of_group declared)) sound opened
  refine added.also fun bench' group after' ended => ?_
  exact ((adds_addGroup source).established ended).replicas.length_eq.symm

theorem Counterpart.follows_assembleLanes (same : network.Counterpart memory writer) (unnamed : memory.name = none)
    (opened : memory.ports.frozen = false) (sound : memory.ports.Sound)
    (hosts : stage.Hosts memory.clock memory.ports) :
    stage.Follows memory.build network.assembleLanes Stage.Assembles := by
  have declared : writer ∈ memory.ports.writers := by simp [same.only]
  rw [assembleLanes_of_single same.single]
  refine stage.follows_placeholders.ahead fun one placeholders reaches ⟨_, foreign⟩ => ?_
  have hosts := Stage.lasting_hosts stage one reaches hosts
  refine (one.follows_tie foreign (hosts.data declared)).ahead fun two _ reaches tied => ?_
  have hosts := Stage.lasting_hosts one two reaches hosts
  rw [← bind_pure memory.build]
  refine (same.follows_addGroup unnamed opened sound hosts tied).bind fun three assembly group _ ⟨assembles, full⟩ => ?_
  rw [combineReader_of_single, List.mapM_pure, pure_bind, ← full, map_getD_range]
  split
  · exact three.follows_throw
  · refine three.follows_reported.ahead fun last _ reaches _ => ?_
    exact last.follows_pure (Stage.lasting_assembles three last reaches assembles)

/-- The memory can be built wherever the network can, and its banks are those of the network. -/
theorem Counterpart.follows_build (same : network.Counterpart memory writer) (unnamed : memory.name = none)
    (opened : memory.ports.frozen = false) (sound : memory.ports.Sound)
    (hosts : stage.Hosts memory.clock memory.ports) :
    stage.Follows memory.build network.build Stage.Assembles := by
  refine stage.follows_accepted.ahead fun one ports reaches frozen => ?_
  cases Ports.eq_of_freeze frozen
  have hosts := Stage.lasting_hosts stage one reaches hosts
  let closed : XorNetwork := { network with ports := { network.ports with frozen := true } }
  have still : closed.Counterpart memory writer :=
    ⟨same.blueprint, same.readers, same.single, same.only, same.clock, same.role⟩
  show one.Follows memory.build closed.assemble Stage.Assembles
  unfold assemble
  refine one.follows_accepted.ahead fun two _ reaches _ => ?_
  have hosts := Stage.lasting_hosts one two reaches hosts
  refine two.follows_reported.ahead fun three _ reaches _ => ?_
  have hosts := Stage.lasting_hosts two three reaches hosts
  rw [still.single, List.isEmpty_cons, if_neg Bool.false_ne_true]
  exact still.follows_assembleLanes unnamed opened sound hosts

end XorNetwork

/-- What reads the same in both states: the data of all readers, and all other nets at their places. -/
def SameReads (place place' : Nat → Nat) (assembly assembly' : Assembly) (netlist netlist' : Netlist)
    (state state' : State) : Prop :=
  List.Forall₂ (fun data data' => ∀ word, netlist.read state data = .ok word ↔ netlist'.read state' data' = .ok word)
      assembly.readData assembly'.readData ∧
    ∀ (bus : Bus) word, netlist.read state (bus.map (Net.relocate place)) = .ok word ↔
      netlist'.read state' (bus.map (Net.relocate place')) = .ok word

/-- Built into copies of one netlist, both memories have banks of the same roles. Whatever else is done alike to both
copies until they are applied, both fail in the same runs, and read the same after all others. -/
def Interchangeable (first second : Build Assembly) (before : Netlist) : Prop :=
  ∀ assembly bench assembly' bench', Ends first (.ofNetlist before) assembly bench →
    Ends second (.ofNetlist before) assembly' bench' →
      assembly.banks.map Bank.role = assembly'.banks.map Bank.role ∧
      ∃ place place', (∀ index < before.next, place index = index ∧ place' index = index) ∧
        ∀ (revisions : List Revision) netlist netlist',
          bench.netlist.reviseAll (revisions.map (Revision.map (Net.relocate place)) ++ [.apply]) = .ok netlist →
          bench'.netlist.reviseAll (revisions.map (Revision.map (Net.relocate place')) ++ [.apply]) = .ok netlist' →
            ∀ actions, Matches (SameReads place place' assembly assembly' netlist netlist')
              (netlist.performFromStart actions) (netlist'.performFromStart actions)

theorem single_writer_interchangeable {writer : Writer} {memory : Replicated} {network : XorNetwork}
    (same : network.Counterpart memory writer) (opened : memory.ports.frozen = false) (sound : memory.ports.Sound)
    {before : Netlist} (reached : before.Reached) (enclosed : before.Enclosed)
    (known : ∀ net ∈ memory.clock.net :: memory.ports.nets, net.Below before.next) :
    Interchangeable memory.build network.build before := by
  let bare : Replicated := { memory with name := none }
  let start := Stage.ofNetlist reached enclosed
  have hosts : start.Hosts memory.clock memory.ports := Stage.hosts_ofNetlist reached enclosed known
  have labelled : start.Follows bare.build memory.build Stage.Assembles :=
    Replicated.follows_build (Replicated.mirrors_of_hosts hosts memory.name) sound opened
  have counterpart : network.Counterpart bare writer :=
    ⟨same.blueprint, same.readers, same.single, same.only, same.clock, same.role⟩
  intro assembly bench assembly' bench' ended ended'
  obtain ⟨common, between, one, done, at_one, at_bench, reaches, assembles⟩ :=
    labelled (.ofNetlist before) (.ofNetlist before) assembly bench rfl rfl ended
  obtain ⟨_, _, two, done', at_two, at_bench', reaches', assembles'⟩ :=
    counterpart.follows_build rfl opened sound hosts (.ofNetlist before) (.ofNetlist before) assembly' bench' rfl rfl
      ended'
  obtain ⟨built, rfl⟩ := Prod.mk.inj (done.symm.trans done')
  cases built
  refine ⟨?_, one.place, two.place, fun index inside => ⟨reaches.places index inside, reaches'.places index inside⟩, ?_⟩
  · rw [assembles.eq.2, assembles'.eq.2, List.map_map, List.map_map]
    rfl
  · intro revisions netlist netlist' revised revised' actions
    rw [at_bench] at revised
    rw [at_bench'] at revised'
    obtain ⟨small, changed, faithful⟩ := one.included.reviseAll_apply revised
    obtain ⟨_, changed', faithful'⟩ := two.included.reviseAll_apply revised'
    rw [← at_one] at changed
    rw [← at_two, changed] at changed'
    cases changed'
    refine ((faithful.behavesAs actions).join (faithful'.behavesAs actions)).mono ?_
    rintro state state' ⟨_, ⟨reads, _⟩, reads', _⟩
    have alike (bus : Bus) (word : Bits) : netlist.read state (bus.map (Net.relocate one.place)) = .ok word ↔
        netlist'.read state' (bus.map (Net.relocate two.place)) = .ok word :=
      (reads bus word).trans (reads' bus word).symm
    refine ⟨?_, alike⟩
    rw [assembles.eq.1, assembles'.eq.1, List.forall₂_map_left_iff, List.forall₂_map_right_iff]
    exact List.forall₂_same.mpr fun bus _ => alike bus

section Twin

/-- A network of the ports of the twin, with labels and with arbitration. -/
def twinNetwork : XorNetwork where
  ports := { Replicated.twin.ports with capacity := none }
  clock := Replicated.twin.clock
  name := some "twin"
  arbitration := .lowestIndex

def twinWriter : Writer := ⟨[.zero], [.one], [.slot 1], none⟩

def builtTwin (build : Build Assembly) : Assembly × Netlist :=
  let (result, bench) := build.run.run (.ofNetlist XorNetwork.pairBoard)
  (result.toOption.getD ⟨[], []⟩, bench.netlist)

def appliedTwin (build : Build Assembly) : Netlist := ((builtTwin build).2.reviseAll [.apply]).toOption.getD .empty

theorem sound_twin : Replicated.twin.ports.Sound := by
  have single : Size.addressWidth 2 = 1 := by decide
  refine ⟨?_, ?_, ?_⟩
  · simp [Replicated.twin, Ports.TakesReader, Blueprint.addressWidth, single]
  · simp [Replicated.twin, Ports.FitsWriter, Ports.Divides, Blueprint.addressWidth, single]
  · simp [Replicated.twin]

theorem twin_interchangeable : ∃ place place' state state',
    (appliedTwin Replicated.twin.build).performFromStart Replicated.twinRun = .ok state ∧
      (appliedTwin twinNetwork.build).performFromStart Replicated.twinRun = .ok state' ∧
      (appliedTwin Replicated.twin.build).read state [.slot 5] = .ok [.one] ∧
      SameReads place place' (builtTwin Replicated.twin.build).1 (builtTwin twinNetwork.build).1
        (appliedTwin Replicated.twin.build) (appliedTwin twinNetwork.build) state state' := by
  have same : twinNetwork.Counterpart Replicated.twin twinWriter := ⟨rfl, rfl, rfl, rfl, rfl, rfl⟩
  have ended : Ends Replicated.twin.build (.ofNetlist XorNetwork.pairBoard) (builtTwin Replicated.twin.build).1 _ :=
    ends_of_isOk (by decide +kernel)
  have ended' : Ends twinNetwork.build (.ofNetlist XorNetwork.pairBoard) (builtTwin twinNetwork.build).1 _ :=
    ends_of_isOk (by decide +kernel)
  obtain ⟨_, place, place', _, agree⟩ := single_writer_interchangeable same rfl sound_twin reached_pairBoard
    enclosed_pairBoard (by decide +kernel) _ _ _ _ ended ended'
  have applied := eq_ok_of_isOk (x := (builtTwin Replicated.twin.build).2.reviseAll [.apply]) (by decide +kernel)
    Netlist.empty
  have applied' := eq_ok_of_isOk (x := (builtTwin twinNetwork.build).2.reviseAll [.apply]) (by decide +kernel)
    Netlist.empty
  have run := eq_ok_of_isOk (x := (appliedTwin Replicated.twin.build).performFromStart Replicated.twinRun)
    (by decide +kernel) (.initial (appliedTwin Replicated.twin.build))
  have run' := eq_ok_of_isOk (x := (appliedTwin twinNetwork.build).performFromStart Replicated.twinRun)
    (by decide +kernel) (.initial (appliedTwin twinNetwork.build))
  have matched := agree [] (appliedTwin Replicated.twin.build) (appliedTwin twinNetwork.build) applied applied'
    Replicated.twinRun
  refine ⟨place, place', _, _, run, run', by decide +kernel, ?_⟩
  rw [run, run'] at matched
  cases matched with
  | ok reads => exact reads

end Twin

end BankedMemory.Storage
