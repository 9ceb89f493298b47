import BankedMemory.Proofs.Construction.Inventory
import BankedMemory.Proofs.Declarations
import BankedMemory.Proofs.Products

/-!
# How builds halt

A build checks what it has built against what the ports call for, and gives each group of a network to a memory of
its own, which checks its ports again. None of these checks ever refuses ports that fit the shape of the memory. A
fault may still end a build, when a netlist or a bus would become too large, but it is the overflow of a product only
if a bank has more bits than sizes can count.
-/

namespace BankedMemory.Storage

open Size

namespace Build

variable {α β σ : Type} {sized : Prop}

/-- Whatever the workbench, the build is not refused. -/
def Unrefused (build : Build α) : Prop := ∀ bench cause, (build.run.run bench).1 ≠ .error (.refused cause)

/-- Whatever the workbench, the build halts on a fault if at all, and never on the overflow of a product as long as
sizes are in order. -/
def Proper (sized : Prop) (build : Build α) : Prop := ∀ bench halt, (build.run.run bench).1 = .error halt →
  ∃ cause, halt = .fault cause ∧ (sized → cause ≠ .multiplicationOverflow)

theorem Proper.unrefused {build : Build α} (h : Proper sized build) : Unrefused build := by
  intro bench cause refused
  obtain ⟨_, fault, _⟩ := h bench _ refused
  cases fault

theorem Proper.ne_overflow {build : Build α} (h : Proper sized build) (holds : sized) (bench : Workbench) :
    (build.run.run bench).1 ≠ .error (.fault .multiplicationOverflow) := by
  intro overflowed
  obtain ⟨_, fault, other⟩ := h bench _ overflowed
  exact other holds (Halt.fault.inj fault).symm

theorem proper_of_ok {build : Build α} (h : ∀ bench, ∃ result, (build.run.run bench).1 = .ok result) :
    Proper sized build := by
  intro bench halt halted
  obtain ⟨result, ended⟩ := h bench
  rw [ended] at halted
  cases halted

theorem proper_pure {given : α} : Proper sized (pure given) := proper_of_ok fun _ => ⟨given, rfl⟩

/-- The second part may count on what the first part has come to. -/
theorem proper_bind {first : Build β} {rest : β → Build α} (h : Proper sized first)
    (h' : ∀ bench middle after, Ends first bench middle after → Proper sized (rest middle)) :
    Proper sized (first >>= rest) := by
  intro bench halt halted
  rw [run_bind] at halted
  rcases ended : first.run.run bench with ⟨early | middle, bench'⟩
  · simp only [ended, Except.error.injEq] at halted
    exact h bench halt (by rw [ended, halted])
  · rw [ended] at halted
    exact h' bench middle bench' ended bench' halt halted

theorem proper_seq {first : Build β} {rest : β → Build α} (h : Proper sized first)
    (h' : ∀ middle, Proper sized (rest middle)) : Proper sized (first >>= rest) :=
  proper_bind h fun _ middle _ _ => h' middle

theorem proper_ofFault {given : Except Fault α} (in_range : sized → InRange given) : Proper sized (ofFault given) := by
  cases given with
  | ok result => exact proper_pure
  | error cause =>
    intro bench halt halted
    have same : (Except.error (.fault cause) : Except Halt α) = .error halt := halted
    cases same
    refine ⟨cause, rfl, fun holds overflowed => in_range holds (congrArg Except.error overflowed)⟩

theorem proper_ofRefusal {given : Except Refusal α} {result : α} (h : given = .ok result) :
    Proper sized (ofRefusal given) := by
  rw [h]
  exact proper_pure

theorem proper_onNetlist {f : Netlist → α × Netlist} : Proper sized (onNetlist f) := proper_of_ok fun _ => ⟨_, rfl⟩

theorem proper_get : Proper sized (get : Build Workbench) := proper_of_ok fun _ => ⟨_, rfl⟩

theorem proper_modify {f : Workbench → Workbench} : Proper sized (modify f : Build Unit) :=
  proper_of_ok fun _ => ⟨_, rfl⟩

theorem proper_report {event : Event} : Proper sized (report event) := proper_modify

theorem proper_add {c : Cell} (in_range : sized → InRange c.check) : Proper sized (add c) :=
  proper_seq proper_get fun _ =>
    proper_seq (proper_ofFault fun holds => Netlist.inRange_checkCell (in_range holds)) fun _ => proper_onNetlist

theorem proper_gate {kind : Gate} {left right : Bus} : Proper sized (add (.gate kind left right)) :=
  proper_add fun _ => inRange_agree

theorem proper_equal {left right : Bus} : Proper sized (add (.equal left right)) := proper_add fun _ => inRange_agree

theorem proper_invert {bus : Bus} : Proper sized (add (.invert bus)) := proper_add fun _ => inRange_ok

theorem proper_addPlaceholders {width : Nat} : Proper sized (addPlaceholders width) :=
  proper_seq proper_get fun _ =>
    proper_seq (proper_ofFault fun _ => Netlist.inRange_checkRoom) fun _ => proper_onNetlist

theorem proper_rewireBus {source target : Bus} : Proper sized (rewireBus source target) :=
  proper_seq proper_get fun _ =>
    proper_seq (proper_ofFault fun _ => Netlist.inRange_rewireBus) fun _ => proper_modify

theorem proper_label {name? : Option String} {bus : Bus} : Proper sized (label name? bus) := by
  cases name? with
  | none => exact proper_pure
  | some name => exact proper_seq (proper_add fun _ => inRange_ok) fun _ => proper_pure

theorem proper_refuseAs {f : Refusal → Refusal} {build : Build α} (h : Proper sized build) :
    Proper sized (refuseAs f build) := by
  intro bench halt halted
  obtain ⟨change, faults, _, unfolded⟩ := run_refuseAs f build bench
  rw [unfolded] at halted
  rcases ended : build.run.run bench with ⟨early | result, bench'⟩
  · obtain ⟨cause, rfl, other⟩ := h bench early (by rw [ended])
    rw [ended, Except.mapError, faults] at halted
    exact ⟨cause, (Except.error.inj halted).symm, other⟩
  · rw [ended] at halted
    cases halted

theorem proper_mapM {f : α → Build β} {l : List α} (each : ∀ x ∈ l, Proper sized (f x)) : Proper sized (l.mapM f) := by
  induction l with
  | nil => exact proper_pure
  | cons x rest ih =>
    rw [List.mapM_cons]
    refine proper_seq (each x List.mem_cons_self) fun y => ?_
    refine proper_seq (ih fun other member => each other (List.mem_cons_of_mem x member)) fun ys => ?_
    exact proper_pure

theorem proper_foldlM {f : σ → α → Build σ} {l : List α} (round : ∀ state, ∀ x ∈ l, Proper sized (f state x))
    (init : σ) : Proper sized (l.foldlM f init) := by
  induction l generalizing init with
  | nil => exact proper_pure
  | cons x rest ih =>
    rw [List.foldlM_cons]
    refine proper_seq (round init x List.mem_cons_self) fun middle => ?_
    exact ih (fun state other member => round state other (List.mem_cons_of_mem x member)) middle

theorem proper_forM {f : α → Build Unit} {l : List α} (each : ∀ x ∈ l, Proper sized (f x)) :
    Proper sized (l.forM f) := by
  induction l with
  | nil => exact proper_pure
  | cons x rest ih =>
    change Proper sized (f x >>= fun _ => rest.forM f)
    refine proper_seq (each x List.mem_cons_self) fun _ => ?_
    exact ih fun other member => each other (List.mem_cons_of_mem x member)

/-- What builds establish of the netlist they leave, they establish of any workbench at all. -/
theorem Adds.established {build : Build α} {post : α → Netlist → Prop} (h : Adds (From 0) build post)
    {bench after : Workbench} {result : α} (ended : Ends build bench result after) : post result after.netlist :=
  (h bench result after (Nat.zero_le _) ended).2

theorem ends_mapM {f : α → Build β} {l : List α} {bench after : Workbench} {results : List β}
    (ended : Ends (l.mapM f) bench results after) :
    List.Forall₂ (fun x y => ∃ bench after, Ends (f x) bench y after) l results := by
  induction l generalizing bench results with
  | nil =>
    obtain ⟨rfl, rfl⟩ := ends_pure.mp ended
    exact .nil
  | cons x rest ih =>
    rw [List.mapM_cons] at ended
    obtain ⟨y, middle, here, ended⟩ := ends_bind.mp ended
    obtain ⟨ys, later, there, ended⟩ := ends_bind.mp ended
    obtain ⟨rfl, rfl⟩ := ends_pure.mp ended
    exact .cons ⟨bench, middle, here⟩ (ih there)

end Build

open Build

namespace Replicated

variable {memory : Replicated} {sized : Prop}

theorem proper_writePort : Proper sized memory.writePort := by
  unfold writePort
  cases memory.ports.writers.head? with
  | some writer => exact proper_pure
  | none => exact proper_seq proper_report fun _ => proper_ofFault fun _ => inRange_idlePort

/-- Only banks have sizes to be multiplied. -/
theorem proper_addBanks (fits : sized → memory.expectedBanks ≠ 0 → memory.ports.blueprint.Sized) (port : WritePort) :
    Proper sized (memory.addBanks port) := by
  unfold addBanks
  by_cases no_reader : memory.ports.readers = []
  · simp only [no_reader, List.isEmpty_nil, if_true]
    exact proper_pure
  simp only [List.isEmpty_eq_false_iff.mpr no_reader, Bool.false_eq_true, if_false]
  have bounded (holds : sized) : memory.ports.blueprint.Sized :=
    fits holds (List.length_eq_zero_iff.not.mpr no_reader)
  refine proper_seq (proper_ofFault fun holds => (bounded holds).inRange_initialWord) fun init => ?_
  refine proper_mapM fun entry _ => ?_
  unfold addBank
  refine proper_bind (proper_ofFault fun _ => inRange_bank) fun bench bank after built => ?_
  obtain ⟨found, _⟩ := ends_ofFault.mp built
  obtain ⟨_, rfl⟩ := bank_eq_ok_iff.mp found
  refine proper_seq (proper_add fun holds => Memory.inRange_check_iff.mpr (bounded holds)) fun output => ?_
  exact proper_seq proper_label fun _ => proper_seq proper_report fun _ => proper_pure

/-- There is a bank for each reader. -/
theorem length_of_addBanks {port : WritePort} {banks : List Bank} {bench after : Workbench}
    (ended : Ends (memory.addBanks port) bench banks after) : banks.length = memory.expectedBanks := by
  obtain ⟨init, _, each⟩ := adds_addBanks.established ended
  simpa [expectedBanks] using each.length_eq.symm

theorem proper_assemble (sound : memory.ports.Sound)
    (fits : sized → memory.expectedBanks ≠ 0 → memory.ports.blueprint.Sized) : Proper sized memory.assemble := by
  unfold assemble
  refine proper_seq (proper_ofRefusal sound.verify) fun _ => ?_
  refine proper_seq proper_writePort fun port => ?_
  refine proper_bind (proper_addBanks fits port) fun bench banks after ended => ?_
  rw [if_neg (not_not.mpr (length_of_addBanks ended))]
  exact proper_seq proper_report fun _ => proper_pure

theorem proper_build (opened : memory.ports.frozen = false) (sound : memory.ports.Sound)
    (fits : sized → memory.expectedBanks ≠ 0 → memory.ports.blueprint.Sized) : Proper sized memory.build := by
  unfold build
  refine proper_bind (proper_ofRefusal (Ports.freeze_of_open opened)) fun bench ports after ended => ?_
  obtain ⟨frozen, _⟩ := ends_ofRefusal.mp ended
  rw [Ports.eq_of_freeze frozen]
  exact @proper_assemble { memory with ports := { memory.ports with frozen := true } } _ sound.frozen fits

end Replicated

namespace XorNetwork

variable {network : XorNetwork} {lanes : List Lane} {sized : Prop}

/-- A lane whose words are as wide as the shape asks. -/
structure Fitting (network : XorNetwork) (lane : Lane) : Prop where
  addr : lane.writer.addr.length = network.ports.blueprint.addressWidth
  data : lane.data.length = network.ports.blueprint.width
  mask : lane.mask.length = network.ports.blueprint.width

theorem blueprint_groupBlueprint (network : XorNetwork) (index : Nat) :
    (network.groupBlueprint index).width = network.ports.blueprint.width ∧
      (network.groupBlueprint index).addressWidth = network.ports.blueprint.addressWidth := by
  unfold groupBlueprint
  split <;> exact ⟨rfl, rfl⟩

theorem declareReaders_of_takes {α : Type} {readers : List α} {f : α → Reader} {ports : Ports}
    (opened : ports.frozen = false) (takes : ∀ reader ∈ readers, ports.TakesReader (f reader)) :
    readers.foldlM (fun ports reader => do
      let (_, ports) ← ports.declareReader (f reader)
      return ports) ports = Except.ok { ports with readers := ports.readers ++ readers.map f } := by
  induction readers generalizing ports with
  | nil => simp [pure, Except.pure]
  | cons reader rest ih =>
    have first := Ports.declareReader_of_takes opened (takes reader List.mem_cons_self)
    have still_open : ({ ports with readers := ports.readers ++ [f reader] } : Ports).frozen = false := opened
    have later := ih still_open fun other member => takes other (List.mem_cons_of_mem reader member)
    simp only [List.append_assoc, List.singleton_append] at later
    rw [List.foldlM_cons, first]
    exact later

/-- The group of a fitting lane takes the lane as its writer, and all readers. -/
theorem exists_group (sound : network.ports.Sound) {source : Lane × Nat} (fitting : network.Fitting source.1) :
    ∃ group, network.group source = .ok group ∧ group.ports.frozen = false ∧ group.ports.Sound := by
  obtain ⟨same_width, same_address⟩ := network.blueprint_groupBlueprint source.2
  let start := Ports.ofBlueprint (network.groupBlueprint source.2) (some 1)
  let writer : Writer := ⟨source.1.writer.addr, source.1.data, source.1.mask, some 1⟩
  have room : start.HasRoom := by
    rintro capacity ⟨⟩
    exact Nat.one_pos
  have fits : start.FitsWriter writer := by
    refine ⟨fitting.addr.trans same_address.symm, fitting.data.trans same_width.symm, Nat.one_pos, one_dvd _, ?_⟩
    rw [Nat.div_one]
    exact fitting.mask.trans same_width.symm
  let written : Ports := { start with writers := [writer] }
  have takes : ∀ reader ∈ network.ports.readers, written.TakesReader (groupReader source.2 reader) := by
    intro reader member
    refine ⟨(sound.readers reader member).1.trans same_address.symm, fun observed among => ?_⟩
    have single : observed ∈ if reader.observes source.2 then [0] else [] := by
      simpa [groupReader, Reader.observing, Reader.ofNets] using among
    have zero : observed = 0 := by
      split at single
      · exact List.mem_singleton.mp single
      · exact absurd single List.not_mem_nil
    rw [zero]
    exact Nat.one_pos
  have declared := Ports.declareWriter_of_fits (show start.frozen = false from rfl) room fits
  have readers := declareReaders_of_takes (show written.frozen = false from rfl) takes
  refine ⟨⟨{ written with readers := network.ports.readers.map (groupReader source.2) }, network.clock,
    network.name.map fun name => s!"{name}.group{source.2}", source.2⟩, ?_, rfl, ?_⟩
  · unfold XorNetwork.group
    exact except_bind_eq_ok.mpr ⟨_, declared, except_bind_eq_ok.mpr ⟨_, readers, rfl⟩⟩
  · refine ⟨fun reader member => ?_, fun other member => ?_, fun capacity limited => ?_⟩
    · obtain ⟨port, declared, rfl⟩ := List.mem_map.mp member
      exact takes port declared
    · rw [List.mem_singleton.mp member]
      exact fits
    · cases limited
      exact Nat.le_refl 1

theorem sized_groupBlueprint (network : XorNetwork) (index : Nat) :
    (network.groupBlueprint index).Sized ↔ network.ports.blueprint.Sized := by
  unfold groupBlueprint
  split <;> rfl

/-- A group has one replica for each reader. -/
theorem Grouped.expectedBanks_eq {source : Lane × Nat} {group : Replicated} (grouped : network.Grouped source group) :
    group.expectedBanks = network.ports.readers.length := by
  rw [Replicated.expectedBanks, grouped.readers, List.length_map]

theorem proper_addGroup (sound : network.ports.Sound) {source : Lane × Nat} (fitting : network.Fitting source.1)
    (fits : sized → network.ports.readers ≠ [] → network.ports.blueprint.Sized) :
    Proper sized (network.addGroup source) := by
  obtain ⟨group, declared, opened, fits_group⟩ := exists_group sound fitting
  refine proper_refuseAs (proper_bind (proper_ofRefusal declared) fun bench other after ended => ?_)
  obtain ⟨same, _⟩ := ends_ofRefusal.mp ended
  obtain rfl : group = other := Except.ok.inj (declared.symm.trans same)
  refine Replicated.proper_build opened fits_group fun holds some_bank => ?_
  have grouped := grouped_of_group declared
  rw [grouped.expectedBanks_eq] at some_bank
  rw [grouped.blueprint, sized_groupBlueprint]
  exact fits holds (List.length_eq_zero_iff.not.mp some_bank)

theorem proper_masks : Proper sized network.masks := by
  unfold masks
  cases network.arbitration with
  | none => exact proper_pure
  | lowestIndex =>
    refine proper_mapM fun entry _ => ?_
    unfold arbitratedMask conflict
    refine proper_seq (proper_foldlM (fun conflict? other _ => ?_) _) fun conflict? => ?_
    · refine proper_seq proper_equal fun sameRow => proper_seq proper_gate fun written => ?_
      cases conflict? with
      | none => exact proper_pure
      | some conflict => exact proper_seq proper_gate fun _ => proper_pure
    · cases conflict? with
      | none => exact proper_pure
      | some conflict => exact proper_seq proper_invert fun _ => proper_gate

theorem length_otherLanes {index : Nat} (inside : index < lanes.length) :
    (otherLanes lanes index).length = lanes.length - 1 := by
  have numbers : (otherLanes lanes index).map Prod.snd =
      (List.range lanes.length).filter fun other => other ≠ index := by
    rw [← map_snd_zipIdx lanes, List.filter_map]
    rfl
  rw [← length_filter_ne inside, ← numbers, List.length_map]

/-- A single lane has no relays. -/
theorem proper_relays (fits : sized → 1 < lanes.length → network.ports.blueprint.Sized) (relays : Relays) :
    Proper sized (lanes.zipIdx.foldlM (network.addRelays lanes) relays) := by
  refine proper_foldlM (fun relays source at_source => ?_) relays
  obtain ⟨inside, _⟩ := List.getElem?_eq_some_iff.mp (List.mem_zipIdx_iff_getElem?.mp at_source)
  have count := length_otherLanes inside
  unfold addRelays
  cases others : otherLanes lanes source.2 with
  | nil => exact proper_pure
  | cons first rest =>
    have several : 1 < lanes.length := by
      simp only [others, List.length_cons] at count
      omega
    have bounded (holds : sized) : (network.groupBlueprint source.2).Sized :=
      (network.sized_groupBlueprint source.2).mpr (fits holds several)
    refine proper_seq (proper_ofFault fun holds => (bounded holds).inRange_initialWord) fun init => ?_
    refine proper_foldlM (fun relays sink _ => ?_) relays
    refine proper_seq (proper_add fun holds => Memory.inRange_check_iff.mpr (bounded holds)) fun output => ?_
    refine proper_seq proper_label fun _ => proper_seq proper_report fun _ => ?_
    exact proper_seq proper_gate fun _ => proper_pure

theorem proper_combineReader (groups : List Assembly) (reader : Nat) : Proper sized (combineReader groups reader) := by
  unfold combineReader
  split
  · exact proper_pure
  · exact proper_foldlM (fun _ _ _ => proper_gate) _

/-- A mask in use is as wide as that of the writer. -/
theorem MaskedBy.length {base index : Nat} {netlist : Netlist} {writer : Writer} {mask : Bus}
    (masked : network.MaskedBy (netlist.Queued base) index writer mask) : mask.length = writer.mask.length := by
  unfold MaskedBy at masked
  cases policy : network.arbitration with
  | none =>
    rw [policy] at masked
    exact congrArg List.length masked
  | lowestIndex =>
    rw [policy] at masked
    rcases masked with ⟨_, same⟩ | ⟨_, _, _, _, _, _, _, _, _, _, put_out, _⟩
    · exact congrArg List.length same
    · rw [put_out, Bus.length_ofSlots]
      rfl

/-- The lanes of sound ports fit, once their masks and placeholders have been added. -/
theorem fitting_lanes (sound : network.ports.Sound) {masks placeholders : List Bus}
    {bench bench' after after' : Workbench}
    (masked : Ends network.masks bench masks after)
    (placed : Ends (network.ports.writers.mapM fun _ => addPlaceholders network.ports.blueprint.width) bench'
      placeholders after') :
    ∀ source ∈ (lanesOf network.ports.writers masks placeholders).zipIdx, network.Fitting source.1 := by
  intro source member
  obtain ⟨at_writer, at_mask, at_data⟩ := getElem?_lanesOf (List.mem_zipIdx_iff_getElem?.mp member)
  have fits := sound.writers _ (List.mem_of_getElem? at_writer)
  refine ⟨fits.1, ?_, ?_⟩
  · obtain ⟨_, _, _, _, ended⟩ := forall₂_mem_right (ends_mapM placed) (List.mem_of_getElem? at_data)
    rw [(ends_addPlaceholders.mp ended).2.1]
    exact Bus.length_ofSlots _ _
  · have entry : network.ports.writers.zipIdx[source.2]? = some (source.1.writer, source.2) := by
      simp [List.getElem?_zipIdx, at_writer]
    have here := (forall₂_iff_getElem?.mp (adds_masks.established masked)).2 source.2 _ _ entry at_mask
    exact here.length.trans fits.length_mask

/-- All banks that the ports call for are there. -/
theorem Stocked.length {Has : Bus → Cell → Prop} {banks : List Bank} (stocked : network.Stocked Has lanes banks)
    (full : lanes.length = network.ports.writers.length) : banks.length = network.expectedBanks := by
  rw [← length_roles, ← stocked.roles full, List.length_map]

/-- There is a lane for each writer. -/
theorem length_lanesOf {masks placeholders : List Bus} {width : Nat} {bench bench' after after' : Workbench}
    (masked : Ends network.masks bench masks after)
    (placed : Ends (network.ports.writers.mapM fun _ => addPlaceholders width) bench' placeholders after') :
    (lanesOf network.ports.writers masks placeholders).length = network.ports.writers.length := by
  have masks_full := (adds_masks.established masked).length_eq
  have places_full := (ends_mapM placed).length_eq
  simp only [List.length_zipIdx] at masks_full
  simp [lanesOf]
  omega

theorem writer_of_lanesOf {writers : List Writer} {masks placeholders : List Bus} :
    ∀ sink ∈ (lanesOf writers masks placeholders).zipIdx, writers[sink.2]? = some sink.1.writer :=
  fun _ member => (getElem?_lanesOf (List.mem_zipIdx_iff_getElem?.mp member)).1

/-- The relays and the groups that have been added for some lanes are all the banks there are to be. -/
theorem length_of_parts (full : lanes.length = network.ports.writers.length)
    (known : ∀ sink ∈ lanes.zipIdx, network.ports.writers[sink.2]? = some sink.1.writer) {relays : Relays}
    {groups : List Assembly} {bench bench' after after' : Workbench}
    (collected : Ends (lanes.zipIdx.foldlM (network.addRelays lanes) ⟨network.ports.writers.map Writer.data, []⟩) bench
      relays after) (grouped : Ends (lanes.zipIdx.mapM network.addGroup) bench' groups after') :
    (relays.banks ++ groups.flatMap Assembly.banks).length = network.expectedBanks := by
  have relayed := ((adds_relays known).established collected).banks
  have stocked : network.Stocked (fun _ _ => True) lanes (relays.banks ++ groups.flatMap Assembly.banks) := by
    refine ⟨relays.banks, groups.map Assembly.banks, by rw [List.flatMap_def], ?_, ?_⟩
    · exact relayed.imp fun _ _ relay => relay.mono fun _ _ _ => trivial
    · rw [List.forall₂_map_right_iff]
      refine (ends_mapM grouped).imp fun source group ended => ?_
      obtain ⟨_, _, ended⟩ := ended
      have populated := (adds_addGroup source).established ended
      exact populated.banks.imp fun _ _ replica => replica.mono fun _ _ _ => trivial
  exact stocked.length full

/-- Banks are called for by several writers, or by one writer and a reader. -/
theorem expectedBanks_ne_zero_iff : network.expectedBanks ≠ 0 ↔
    1 < network.ports.writers.length ∨ network.ports.writers ≠ [] ∧ network.ports.readers ≠ [] := by
  simp only [expectedBanks, ne_eq, Nat.mul_eq_zero, ← List.length_eq_zero_iff]
  omega

theorem proper_assembleLanes (sound : network.ports.Sound) (some_writer : network.ports.writers ≠ [])
    (fits : sized → network.expectedBanks ≠ 0 → network.ports.blueprint.Sized) :
    Proper sized network.assembleLanes := by
  unfold assembleLanes
  refine proper_bind proper_masks fun _ masks _ masked => ?_
  refine proper_bind (proper_mapM fun _ _ => proper_addPlaceholders) fun _ placeholders _ placed => ?_
  have fitting := fitting_lanes sound masked placed
  have full := length_lanesOf masked placed
  have relayed (holds : sized) (several : 1 < (lanesOf network.ports.writers masks placeholders).length) :=
    fits holds (expectedBanks_ne_zero_iff.mpr (Or.inl (full ▸ several)))
  have grouped (holds : sized) (some_reader : network.ports.readers ≠ []) :=
    fits holds (expectedBanks_ne_zero_iff.mpr (Or.inr ⟨some_writer, some_reader⟩))
  refine proper_bind (proper_relays relayed _) fun _ relays _ collected => ?_
  refine proper_seq (proper_forM fun _ _ => proper_rewireBus) fun _ => ?_
  refine proper_bind (proper_mapM fun source member => proper_addGroup sound (fitting source member) grouped)
    fun _ groups _ ended => ?_
  refine proper_seq (proper_mapM fun reader _ => proper_combineReader groups reader) fun readData => ?_
  have count := length_of_parts full writer_of_lanesOf collected ended
  dsimp only
  rw [if_neg (not_not.mpr count)]
  exact proper_seq proper_report fun _ => proper_pure

theorem proper_assemble (sound : network.ports.Sound)
    (fits : sized → network.expectedBanks ≠ 0 → network.ports.blueprint.Sized) : Proper sized network.assemble := by
  unfold assemble
  refine proper_seq (proper_ofRefusal sound.verify) fun _ => proper_seq proper_report fun _ => ?_
  by_cases no_writer : network.ports.writers = []
  · simp only [no_writer, List.isEmpty_nil, if_true]
    refine proper_seq proper_report fun _ => ?_
    exact proper_seq (proper_mapM fun _ _ => proper_ofFault fun _ => inRange_filled) fun _ => proper_pure
  · simp only [List.isEmpty_eq_false_iff.mpr no_writer, Bool.false_eq_true, if_false]
    exact proper_assembleLanes sound no_writer fits

end XorNetwork

namespace Engine

variable {engine : Engine}

/-- Whatever has been declared and wherever it is built, only its size may make a product overflow. -/
theorem proper_assemble (sound : engine.ports.Sound) :
    Proper (engine.ports.blueprint.Sized ∨ engine.expectedBanks = 0) engine.assemble := by
  cases engine with
  | replicated memory => exact Replicated.proper_assemble sound fun holds some_bank => holds.resolve_right some_bank
  | xorNetwork network => exact XorNetwork.proper_assemble sound fun holds some_bank => holds.resolve_right some_bank

/-- Whatever has been declared and wherever it is built, a memory with sound ports is not refused. -/
theorem unrefused_assemble (sound : engine.ports.Sound) : Unrefused engine.assemble :=
  (proper_assemble sound).unrefused

/-- The memory once its declarations have ended. -/
def closed (engine : Engine) : Engine := engine.withPorts { engine.ports with frozen := true }

/-- A build that its ports allow ends the declarations before anything else. -/
theorem build_eq_of_open (opened : engine.ports.frozen = false) (bench : Workbench) : engine.build bench =
    ((engine.closed.assemble.run.run bench).1, engine.closed, (engine.closed.assemble.run.run bench).2) := by
  unfold build
  rw [Ports.freeze_of_open opened]
  rfl

theorem sound_closed (sound : engine.ports.Sound) : engine.closed.ports.Sound := by
  cases engine <;> exact sound.frozen

end Engine

end BankedMemory.Storage
