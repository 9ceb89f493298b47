import BankedMemory.Proofs.Construction.Standing
import BankedMemory.Proofs.Evaluation.Stores
import BankedMemory.Proofs.Network.Collisions

/-!
# The banks of one writer agree

All banks of one writer are written alike and start out with the same rows, whether they are relays or replicas. So in
every state of every run they hold the same rows, for any bits at the ports: unknown addresses and masks and colliding
writes included. What a relay shows and what a reader samples is taken from the one contribution that its writer has
made.
-/

namespace BankedMemory.Storage

/-- The writer whose contribution a bank holds. -/
def Role.source : Role → Nat
  | .relay source _ => source
  | .replica writer _ => writer

namespace XorNetwork

variable (network : XorNetwork)

/-- There is a relay from each writer to each other one, and a replica of each writer for each reader. -/
def HasRole : Role → Prop
  | .relay source sink =>
    source < network.ports.writers.length ∧ sink < network.ports.writers.length ∧ sink ≠ source
  | .replica writer reader => writer < network.ports.writers.length ∧ reader < network.ports.readers.length

/-- The row at an address, or a row of unknown bits if the address selects none. -/
def rowAt (rows : Array Bits) (addr : Bits) : Bits :=
  match network.ports.rowOf addr with
  | some row => rows.getD row []
  | none => Bits.unknowns network.ports.blueprint.width

/-- All banks of a writer hold its contribution, and relays pass it on. -/
structure Coherent (site : Standing network.build) (state : State) (contribution : Nat → Array Bits) : Prop where
  full : ∀ bank ∈ site.assembly.banks, ∀ row < network.ports.blueprint.depth, ∃ word,
    (contribution bank.role.source)[row]? = some word ∧ word.length = network.ports.blueprint.width
  held : ∀ bank ∈ site.assembly.banks, ∃ index memory contents,
    site.netlist.cell? index = some (.memory memory) ∧ site.netlist.outputOf index = bank.output ∧
      state.contentsAt index = some contents ∧ contents.rows = contribution bank.role.source
  rows : ∀ bank ∈ site.assembly.banks, ∀ net ∈ bank.output, ∀ row < network.ports.blueprint.depth,
    site.netlist.readRow state net row = .ok ((contribution bank.role.source).getD row [])
  relayed : ∀ bank ∈ site.assembly.banks, ∀ source sink writer addr, bank.role = .relay source sink →
    network.ports.writers[sink]? = some writer →
    site.netlist.read state (writer.addr.map site.resolve) = .ok addr →
    site.netlist.read state bank.output = .ok (network.rowAt (contribution source) addr)

/-- A reader that samples a row in a cycle has of each writer the row of its contribution, as it was before the cycle
or, if the reader observes the writer, as it is afterwards. -/
def Samples (site : Standing network.build) (state next : State) (before after : Nat → Array Bits) : Prop :=
  ∀ k reader addr row, network.ports.readers[k]? = some reader →
    (network.clock.map site.resolve).isConst = false →
    site.netlist.read state [site.resolve reader.enable] = .ok [.one] →
    site.netlist.read state (reader.addr.map site.resolve) = .ok addr → network.ports.rowOf addr = some row →
    ∀ bank ∈ site.assembly.banks, ∀ writer, bank.role = .replica writer k →
      site.netlist.read next bank.output =
        .ok ((if writer ∈ reader.observed then after writer else before writer).getD row [])

/-- What all banks of one lane have in common. -/
def store (lanes : List Lane) (i : Nat) : Memory :=
  let blueprint := network.groupBlueprint i
  ⟨blueprint.depth, blueprint.width, blueprint.initialWord.toOption.getD [], blueprint.attributes,
    lanes[i]?.toList.map fun lane => ⟨lane.writer.addr, lane.data, lane.mask, network.clock⟩, []⟩

variable {network} {lanes : List Lane}

theorem unread_relayBank {source : Lane × Nat} (member : source ∈ lanes.zipIdx) {init : Bits}
    (word : (network.groupBlueprint source.2).initialWord = .ok init) (sink : Lane) :
    (network.relayBank init source sink).unread = network.store lanes source.2 := by
  simp [Memory.unread, relayBank, store, word, List.mem_zipIdx_iff_getElem?.mp member, Except.toOption]

theorem unread_replicaBank {source : Lane × Nat} (member : source ∈ lanes.zipIdx) {init : Bits}
    (word : (network.groupBlueprint source.2).initialWord = .ok init) (reader : Reader) :
    (network.replicaBank init source reader).unread = network.store lanes source.2 := by
  simp [Memory.unread, replicaBank, store, word, List.mem_zipIdx_iff_getElem?.mp member, Except.toOption]

theorem output_relay {init : Bits} {source : Lane × Nat} {sink : Lane} {f : Net → Net} {rows : Array Bits}
    (sized : ((network.relayBank init source sink).map f).Sized)
    (full : ((network.relayBank init source sink).map f).FullRows rows) (value : Net → Trit) :
    ((network.relayBank init source sink).map f).output value ⟨rows, [none]⟩ =
      network.rowAt rows ((sink.writer.addr.map f).map value) := by
  have selects {row : Nat} : ((network.relayBank init source sink).map f).Selects
      ((sink.writer.addr.map f).map value) row ↔ network.ports.rowOf ((sink.writer.addr.map f).map value) = some row :=
    selects_iff (depth_groupBlueprint source.2)
  refine (List.append_nil _).trans ?_
  unfold rowAt
  cases hit : network.ports.rowOf ((sink.writer.addr.map f).map value) with
  | some row => exact full.portOutput_of_selects sized List.mem_cons_self (selects.mpr hit)
  | none =>
    have miss : ((network.relayBank init source sink).map f).rowOf ((sink.writer.addr.map f).map value) = none := by
      refine Option.eq_none_iff_forall_ne_some.mpr fun row found => ?_
      cases hit.symm.trans (selects.mp (Memory.selects_of_rowOf found))
    rw [← width_groupBlueprint source.2]
    exact Memory.portOutput_of_miss miss rows

/-- A replica whose register samples shows the row as it was or as it is after the cycle. -/
theorem output_replica {init : Bits} {source : Lane × Nat} {reader : Reader} {f : Net → Net} {value : Net → Trit}
    {rows : Array Bits} {row : Nat} (sized : ((network.replicaBank init source reader).map f).Sized)
    (full : ((network.replicaBank init source reader).map f).FullRows rows)
    (clocked : (network.clock.map f).isConst = false) (enabled : value (f reader.enable) = .one)
    (hit : network.ports.rowOf ((reader.addr.map f).map value) = some row) (value' : Net → Trit) (held : Bits) :
    ((network.replicaBank init source reader).map f).output value'
        (((network.replicaBank init source reader).map f).nextContents value ⟨rows, [some held]⟩) =
      (if source.2 ∈ reader.observed then ((network.replicaBank init source reader).map f).nextRows value rows
        else rows).getD row [] := by
  rw [← if_congr Reader.observes_iff rfl rfl]
  have selects : ((network.replicaBank init source reader).map f).Selects ((reader.addr.map f).map value) row :=
    (selects_iff (depth_groupBlueprint source.2)).mpr hit
  rw [Memory.output_nextContents rfl rfl]
  refine (full.nextHeld_of_selects sized List.mem_cons_self clocked ?_ selects held).trans ?_
  · simpa [Register.map, Control.map, Control.high, Control.active] using enabled
  · exact Memory.sampled_alone rfl sized value _ full selects.1

theorem length_rowAt {rows : Array Bits} (full : ∀ row < network.ports.blueprint.depth,
    (rows.getD row []).length = network.ports.blueprint.width) (addr : Bits) :
    (network.rowAt rows addr).length = network.ports.blueprint.width := by
  unfold rowAt
  split
  · rename_i row hit
    exact full row (Ports.rowOf_lt hit)
  · exact List.length_replicate

variable {site : Standing network.build} {state : State} {contribution : Nat → Array Bits}

section Banks

variable (layout : network.Layout site.Has (fun _ _ => True) site.assembly lanes)
include layout

/-- The banks have just the roles that they are to have. -/
theorem exists_bank_iff (role : Role) : (∃ bank ∈ site.assembly.banks, bank.role = role) ↔ network.HasRole role := by
  have inside {source : Lane × Nat} (member : source ∈ lanes.zipIdx) : source.2 < network.ports.writers.length :=
    (List.getElem?_eq_some_iff.mp (layout.writer_of_lane member)).1
  constructor
  · rintro ⟨bank, member, rfl⟩
    rcases layout.banks.mem_cases member with ⟨source, from_source, sink, to_sink, role, _⟩ |
      ⟨source, from_source, entry, to_reader, role, _⟩
    · obtain ⟨at_lanes, different⟩ := List.mem_filter.mp to_sink
      rw [role]
      exact ⟨inside from_source, inside at_lanes, by simpa using different⟩
    · rw [role]
      exact ⟨inside from_source, (List.getElem?_eq_some_iff.mp (List.mem_zipIdx_iff_getElem?.mp to_reader)).1⟩
  · intro present
    cases role with
    | relay i j =>
      obtain ⟨source_inside, sink_inside, different⟩ := present
      obtain ⟨source, from_source⟩ := layout.exists_lane source_inside
      obtain ⟨sink, to_sink⟩ := layout.exists_lane sink_inside
      obtain ⟨bank, member, role, _⟩ := layout.banks.exists_relay from_source to_sink different
      exact ⟨bank, member, role⟩
    | replica i k =>
      obtain ⟨source_inside, reader_inside⟩ := present
      obtain ⟨source, from_source⟩ := layout.exists_lane source_inside
      have to_reader : (network.ports.readers[k], k) ∈ network.ports.readers.zipIdx :=
        List.mem_zipIdx_iff_getElem?.mpr (List.getElem?_eq_getElem reader_inside)
      obtain ⟨bank, member, role, _⟩ := layout.banks.exists_replica from_source to_reader
      exact ⟨bank, member, role⟩

/-- Behind each bank is a memory that is written like all memories of its writer. -/
theorem exists_memory {bank : Bank} (member : bank ∈ site.assembly.banks) :
    ∃ memory, site.Has bank.output (.memory memory) ∧ memory.unread = network.store lanes bank.role.source := by
  rcases layout.banks.mem_cases member with ⟨source, from_source, sink, _, role, init, word, has⟩ |
    ⟨source, from_source, entry, _, role, init, word, has⟩
  · exact ⟨_, has, by rw [unread_relayBank from_source word, role]; rfl⟩
  · exact ⟨_, has, by rw [unread_replicaBank from_source word, role]; rfl⟩

end Banks

/-- The memories of each writer hold its contribution. -/
structure Contributed (site : Standing network.build) (lanes : List Lane) (state : State)
    (contribution : Nat → Array Bits) : Prop where
  aligned : state.Aligned site.netlist
  stores : ∀ i, site.netlist.Stores state ((network.store lanes i).map site.resolve) (contribution i)
  full : ∀ i, (network.store lanes i).Checked → (network.store lanes i).FullRows (contribution i)

theorem contributed_performFromStart (site : Standing network.build) (lanes : List Lane) {actions : List Action}
    (run : site.netlist.performFromStart actions = .ok state) :
    ∃ contribution, Contributed site lanes state contribution := by
  have aligned := (Netlist.performFromStart_keeps (P := fun _ => True) trivial (fun _ _ _ _ _ _ => trivial)
    (fun _ _ _ => trivial) run).1
  have each (i : Nat) : ∃ rows, site.netlist.Stores state ((network.store lanes i).map site.resolve) rows ∧
      ((network.store lanes i).Checked → (network.store lanes i).FullRows rows) := by
    obtain ⟨rows, stores, full⟩ := Netlist.stores_performFromStart run ((network.store lanes i).map site.resolve)
    exact ⟨rows, stores, fun checked => full (checked.map site.resolve)⟩
  choose contribution holds using each
  exact ⟨contribution, aligned, fun i => (holds i).1, fun i => (holds i).2⟩

/-- The contributions after a cycle. -/
def contributedNext (site : Standing network.build) (lanes : List Lane) (state : State)
    (contribution : Nat → Array Bits) (i : Nat) : Array Bits :=
  ((network.store lanes i).map site.resolve).nextRows (site.netlist.valueIn state) (contribution i)

namespace Contributed

variable (h : Contributed site lanes state contribution)
include h

theorem step {next : State} (done : site.netlist.step state = .ok next) :
    Contributed site lanes next (contributedNext site lanes state contribution) where
  aligned := Netlist.aligned_step h.aligned done
  stores i := (h.stores i).step h.aligned done
  full i checked := by
    have full : ((network.store lanes i).map site.resolve).FullRows (contribution i) := h.full i checked
    exact full.next (checked.map site.resolve).sized _

variable (layout : network.Layout site.Has (fun _ _ => True) site.assembly lanes)

include layout in
theorem fullRows {bank : Bank} (member : bank ∈ site.assembly.banks) :
    (network.store lanes bank.role.source).FullRows (contribution bank.role.source) := by
  obtain ⟨memory, has, alike⟩ := exists_memory layout member
  exact h.full _ (alike ▸ (Memory.check_eq_ok_iff.mp has.checked).unread)

include layout in
theorem width_row {bank : Bank} (member : bank ∈ site.assembly.banks) :
    ∀ row < network.ports.blueprint.depth, ((contribution bank.role.source).getD row []).length =
      network.ports.blueprint.width := by
  intro row inside
  rw [← depth_groupBlueprint bank.role.source] at inside
  rw [← width_groupBlueprint bank.role.source]
  exact (h.fullRows layout member).getD inside

/-- What a memory of a writer holds. -/
theorem exists_contents {memory : Memory} {i index : Nat} (alike : memory.unread = network.store lanes i)
    (found : site.netlist.cell? index = some (.memory (memory.map site.resolve))) :
    ∃ contents, state.contentsAt index = some contents ∧ contents.rows = contribution i ∧
      (memory.map site.resolve).Aligned contents := by
  have same : (memory.map site.resolve).unread = (network.store lanes i).map site.resolve := by
    rw [← alike]
    rfl
  obtain ⟨contents, held, rows⟩ := h.stores i index _ found same
  exact ⟨contents, held, rows, h.aligned index _ contents found held⟩

include layout in
/-- A relay shows the contribution of its source at the address of its sink. -/
theorem reads_relay {bank : Bank} (member : bank ∈ site.assembly.banks) {i j : Nat} {writer : Writer} {addr : Bits}
    (role : bank.role = .relay i j) (known : network.ports.writers[j]? = some writer)
    (read : site.netlist.read state (writer.addr.map site.resolve) = .ok addr) :
    site.netlist.read state bank.output = .ok (network.rowAt (contribution i) addr) := by
  have full := h.width_row layout member
  rcases layout.banks.mem_cases member with ⟨source, from_source, sink, to_sink, role', init, word, has⟩ |
    ⟨_, _, _, _, role', _⟩
  · obtain ⟨rfl, rfl⟩ : source.2 = i ∧ sink.2 = j := Role.relay.inj (role'.symm.trans role)
    obtain rfl : sink.1.writer = writer :=
      Option.some.inj ((layout.writer_of_lane (List.mem_filter.mp to_sink).1).symm.trans known)
    have shown := (Netlist.read_eq_ok_iff h.aligned).mp read
    have sized := ((Memory.check_eq_ok_iff.mp has.checked).map site.resolve).sized
    have rows_full := h.fullRows layout member
    rw [role] at full rows_full
    refine has.placed.read_memory h.aligned (site.netlist.valueIn state) (fun net at_source => ?_)
      (fun index found => ?_) ?_
    · have at_addr : net ∈ sink.1.writer.addr.map site.resolve := by
        simpa [Cell.sources, Memory.map, relayBank, ReadPort.map] using at_source
      exact (shown.live net at_addr).carries_valueIn h.aligned
    · obtain ⟨⟨rows, words⟩, held, rfl, aligned⟩ := h.exists_contents (unread_relayBank from_source word sink.1) found
      obtain ⟨word?, rfl, unregistered⟩ := List.map_eq_singleton_iff.mp aligned
      obtain rfl : word? = none := by simpa [ReadPort.map] using unregistered
      refine ⟨_, held, ?_⟩
      refine (output_relay sized rows_full _).trans ?_
      rw [shown.map_valueIn h.aligned]
      rfl
    · exact (length_rowAt full addr).trans (width_groupBlueprint source.2).symm
  · rw [role] at role'
    cases role'

/-- What a replica holds after a cycle in which its register samples. -/
theorem exists_contents_sampled {next : State} (done : site.netlist.step state = .ok next) {source : Lane × Nat}
    {reader : Reader} {init addr : Bits} {row index : Nat}
    (checked : (network.replicaBank init source reader).Checked)
    (alike : (network.replicaBank init source reader).unread = network.store lanes source.2)
    (found : site.netlist.cell? index = some (.memory ((network.replicaBank init source reader).map site.resolve)))
    (clocked : (network.clock.map site.resolve).isConst = false)
    (enabled : site.netlist.read state [site.resolve reader.enable] = .ok [.one])
    (read : site.netlist.read state (reader.addr.map site.resolve) = .ok addr)
    (hit : network.ports.rowOf addr = some row) :
    ∃ contents, next.contentsAt index = some contents ∧
      ((network.replicaBank init source reader).map site.resolve).output (site.netlist.valueIn state) contents =
        (if source.2 ∈ reader.observed then contributedNext site lanes state contribution source.2
          else contribution source.2).getD row [] := by
  obtain ⟨⟨rows, words⟩, held, rfl, aligned⟩ := h.exists_contents alike found
  obtain ⟨word?, rfl, registered⟩ := List.map_eq_singleton_iff.mp aligned
  obtain ⟨old, rfl⟩ := Option.isSome_iff_exists.mp registered
  have enable : site.netlist.valueIn state (site.resolve reader.enable) = .one :=
    List.singleton_inj.mp (((Netlist.read_eq_ok_iff h.aligned).mp enabled).map_valueIn h.aligned)
  have address := ((Netlist.read_eq_ok_iff h.aligned).mp read).map_valueIn h.aligned
  have full : (network.replicaBank init source reader).unread.FullRows (contribution source.2) :=
    alike ▸ h.full _ (alike ▸ checked.unread)
  refine ⟨_, Netlist.step_eq h.aligned done ▸ Netlist.contentsAt_nextState _ found held, ?_⟩
  rw [output_replica (checked.map site.resolve).sized full clocked enable (address ▸ hit)]
  unfold contributedNext
  rw [← alike]
  rfl

include layout in
/-- A replica whose register samples shows the row of one contribution. -/
theorem reads_replica {next : State} (done : site.netlist.step state = .ok next) {bank : Bank}
    (member : bank ∈ site.assembly.banks) {i k row : Nat} {reader : Reader} {addr : Bits}
    (role : bank.role = .replica i k) (known : network.ports.readers[k]? = some reader)
    (clocked : (network.clock.map site.resolve).isConst = false)
    (enabled : site.netlist.read state [site.resolve reader.enable] = .ok [.one])
    (read : site.netlist.read state (reader.addr.map site.resolve) = .ok addr)
    (hit : network.ports.rowOf addr = some row) :
    site.netlist.read next bank.output = .ok ((if i ∈ reader.observed then
      contributedNext site lanes state contribution i else contribution i).getD row []) := by
  have before := h.width_row layout member row (Ports.rowOf_lt hit)
  have after := (h.step done).width_row layout member row (Ports.rowOf_lt hit)
  rw [role] at before after
  rcases layout.banks.mem_cases member with ⟨_, _, _, _, role', _⟩ |
    ⟨source, from_source, entry, to_reader, role', init, word, has⟩
  · rw [role] at role'
    cases role'
  · obtain ⟨rfl, rfl⟩ : source.2 = i ∧ entry.2 = k := Role.replica.inj (role'.symm.trans role)
    obtain rfl : entry.1 = reader :=
      Option.some.inj ((List.mem_zipIdx_iff_getElem?.mp to_reader).symm.trans known)
    have alike := unread_replicaBank from_source word entry.1
    refine has.placed.read_memory (h.step done).aligned (site.netlist.valueIn state) ?_ (fun index found => ?_) ?_
    · simp [Cell.sources, Memory.map, replicaBank, ReadPort.map]
    · exact h.exists_contents_sampled done (Memory.check_eq_ok_iff.mp has.checked) alike found clocked enabled read hit
    · refine Eq.trans ?_ (width_groupBlueprint source.2).symm
      split
      · exact after
      · exact before

include layout in
theorem coherent : network.Coherent site state contribution where
  full bank member row inside := by
    have full := h.fullRows layout member row
    rw [← width_groupBlueprint bank.role.source]
    exact full (by rwa [← depth_groupBlueprint bank.role.source] at inside)
  held bank member := by
    obtain ⟨memory, has, alike⟩ := exists_memory layout member
    obtain ⟨index, output, found, _⟩ := has.placed
    obtain ⟨contents, held, rows, _⟩ := h.exists_contents alike found
    refine ⟨index, _, contents, found, ?_, held, rows⟩
    simp [Netlist.outputOf, found, output]
  rows bank member net at_output row inside := by
    obtain ⟨memory, has, alike⟩ := exists_memory layout member
    obtain ⟨index, output, found, driven⟩ := has.placed
    obtain ⟨contents, held, rows, _⟩ := h.exists_contents alike found
    rw [output] at at_output
    obtain ⟨k, at_place⟩ := List.mem_iff_getElem?.mp at_output
    obtain ⟨k_inside, rfl⟩ := Bus.ofSlots_getElem? at_place
    have row_inside : row < (network.groupBlueprint bank.role.source).depth := by rwa [depth_groupBlueprint]
    obtain ⟨word, at_row, _⟩ := h.fullRows layout member row row_inside
    rw [Netlist.readRow, driven k k_inside]
    simp [held, rows, Positions.get, at_row, bind, Except.bind]
  relayed bank member i j writer addr role known read := h.reads_relay layout member role known read

end Contributed

/-- In every state that a run reaches, all banks of a writer hold the same rows. -/
theorem banks_agree (site : Standing network.build) (some_writer : network.ports.writers ≠ []) {actions : List Action}
    (run : site.netlist.performFromStart actions = .ok state) :
    (∀ role, (∃ bank ∈ site.assembly.banks, bank.role = role) ↔ network.HasRole role) ∧
      ∃ contribution, network.Coherent site state contribution ∧
        ∀ next, site.netlist.step state = .ok next → ∃ after, network.Coherent site next after ∧
          network.Samples site state next contribution after := by
  obtain ⟨lanes, layout⟩ := exists_layout_standing site some_writer
  obtain ⟨contribution, holds⟩ := contributed_performFromStart site lanes run
  refine ⟨exists_bank_iff layout, contribution, holds.coherent layout, fun next done => ?_⟩
  refine ⟨_, (holds.step done).coherent layout, ?_⟩
  intro k reader addr row known clocked enabled read hit bank member writer role
  exact holds.reads_replica layout done member role known clocked enabled read hit

theorem built_pair (bit : Trit) : ((pair .none [[bit]]).build.run.run (.ofNetlist pairBoard)).1.isOk = true := by
  cases bit <;> decide +kernel

theorem applied_pair (bit : Trit) :
    (((pair .none [[bit]]).build.run.run (.ofNetlist pairBoard)).2.netlist.reviseAll [.apply]).isOk = true := by
  cases bit <;> decide +kernel

/-- The pair without arbitration, with a given bit in row 0, applied at once. -/
def standingPair (bit : Trit) : Standing (pair .none [[bit]]).build :=
  .ofRevisions _ pairBoard [.apply] (built_pair bit) List.mem_cons_self (applied_pair bit)

/-- The pair after a cycle in which the first writer may write and the second one writes. -/
def pairAgreed : State :=
  ((standingPair .zero).netlist.performFromStart (pairRun [.unknown, .one, .one])).toOption.getD
    (.initial (standingPair .zero).netlist)

/-- The zero in row 0 becomes unknown in the banks of the first writer, and one in those of the second. -/
theorem pair_banks_agree :
    (standingPair .zero).netlist.performFromStart (pairRun [.unknown, .one, .one]) = .ok pairAgreed ∧
      (∀ role, (∃ bank ∈ (standingPair .zero).assembly.banks, bank.role = role) ↔
        (pair .none [[.zero]]).HasRole role) ∧
      ∃ contribution, (pair .none [[.zero]]).Coherent (standingPair .zero) pairAgreed contribution ∧
        (contribution 0).getD 0 [] = [.unknown] ∧ (contribution 1).getD 0 [] = [.one] ∧
        ∀ next, (standingPair .zero).netlist.step pairAgreed = .ok next →
          ∃ after, (pair .none [[.zero]]).Coherent (standingPair .zero) next after ∧
            (pair .none [[.zero]]).Samples (standingPair .zero) pairAgreed next contribution after := by
  have run : (standingPair .zero).netlist.performFromStart (pairRun [.unknown, .one, .one]) = .ok pairAgreed :=
    eq_ok_of_isOk (by decide +kernel) _
  have first : (standingPair .zero).netlist.readRow pairAgreed (.slot 6) 0 = .ok [.unknown] := by decide +kernel
  have second : (standingPair .zero).netlist.readRow pairAgreed (.slot 8) 0 = .ok [.one] := by decide +kernel
  obtain ⟨roles, contribution, coherent, later⟩ := banks_agree (standingPair .zero) (by simp [pair]) run
  have held (bank : Bank) (member : bank ∈ (standingPair .zero).assembly.banks) (net : Net)
      (shown : net ∈ bank.output) := coherent.rows bank member net shown 0 Nat.two_pos
  refine ⟨run, roles, contribution, coherent, ?_, ?_, later⟩
  · have row := held ⟨.relay 0 1, [.slot 6]⟩ (by decide +kernel) (.slot 6) List.mem_cons_self
    exact Except.ok.inj (row.symm.trans first)
  · have row := held ⟨.relay 1 0, [.slot 8]⟩ (by decide +kernel) (.slot 8) List.mem_cons_self
    exact Except.ok.inj (row.symm.trans second)

end XorNetwork

end BankedMemory.Storage
