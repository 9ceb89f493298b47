import BankedMemory.Proofs.Construction.Accounts
import BankedMemory.Storage.Engine

/-!
# The accounts of all engines

Whatever memory is built, the build accounts for all cells that it adds: the memories among them are the banks of the
assembly, in their order, no operand that an output depends on at once is a placeholder, and in the end no placeholder
is waiting for a replacement.
-/

namespace BankedMemory.Storage

open Build

variable {start : Netlist} {given : Net → Prop} {stock : List Bus} {waiting : List Net} {L : Netlist → Prop}

namespace Ports

variable {ports : Ports} (all : ∀ net ∈ ports.nets, given net) {netlist : Netlist}
include all

theorem supplied_writer {writer : Writer} (member : writer ∈ ports.writers) :
    Supplied start given netlist writer.addr ∧ Supplied start given netlist writer.data ∧
      Supplied start given netlist writer.mask := by
  obtain ⟨i, found⟩ := List.mem_iff_getElem?.mp member
  have given_of (net : Net) (at_writer : net ∈ writer.addr ++ writer.data ++ writer.enable) : given net :=
    all net (writer_nets found at_writer)
  refine ⟨supplied_of_given fun net addr => given_of net ?_, supplied_of_given fun net data => given_of net ?_,
    supplied_of_given fun net mask => given_of net ?_⟩
  · exact List.mem_append_left _ (List.mem_append_left _ addr)
  · exact List.mem_append_left _ (List.mem_append_right _ data)
  · exact List.mem_append_right _ (mem_enable_of_mem_mask mask)

theorem supplied_readers :
    Supplied start given netlist (ports.readers.flatMap fun reader => reader.enable :: reader.addr) :=
  supplied_of_given fun net member => all net (List.mem_append_right _ member)

end Ports

namespace Replicated

variable {memory : Replicated}

/-- All nets that the banks of a memory take as operands, constants apart. -/
def operands (memory : Replicated) : List Net :=
  memory.ports.writers.flatMap (fun writer => writer.addr ++ writer.data ++ writer.mask) ++
    (memory.ports.readers.flatMap fun reader => reader.enable :: reader.addr) ++ [memory.clock.net]

variable (constants : ∀ bit, given (.const bit)) (lasting : Lasting L)

include constants in
/-- The write port of all banks takes nets of the writer, or constants. -/
theorem offered_writePort {netlist : Netlist} {port : WritePort} (written : memory.WrittenBy port)
    (offered : Offered start given netlist memory.operands) : Offered start given netlist port.nets := by
  have clock : Offered start given netlist [memory.clock.net] := (offered_append.mp offered).2
  cases first : memory.ports.writers.head? with
  | some writer =>
    simp only [WrittenBy, first] at written
    subst written
    have member : writer ∈ memory.ports.writers := List.mem_of_mem_head? first
    have operands : Offered start given netlist (writer.addr ++ writer.data ++ writer.mask) := by
      intro net at_writer
      have at_ports : net ∈ memory.ports.writers.flatMap (fun writer => writer.addr ++ writer.data ++ writer.mask) :=
        List.mem_flatMap.mpr ⟨writer, member, at_writer⟩
      exact offered net (List.mem_append_left _ (List.mem_append_left _ at_ports))
    exact offered_append.mpr ⟨operands, clock⟩
  | none =>
    simp only [WrittenBy, first] at written
    obtain ⟨addr, addr_eq, written⟩ := except_bind_eq_ok.mp written
    obtain ⟨data, data_eq, written⟩ := except_bind_eq_ok.mp written
    cases written
    have data : Supplied start given netlist _ := supplied_filled constants data_eq
    have addr : Supplied start given netlist _ := supplied_filled constants addr_eq
    have words := supplied_append.mpr ⟨supplied_append.mpr ⟨addr, data⟩, data⟩
    exact offered_append.mpr ⟨words.offered, clock⟩

omit constants in
theorem offered_operands {netlist : Netlist} (ports : ∀ net ∈ memory.ports.nets, given net)
    (clock : given memory.clock.net) : Offered start given netlist memory.operands := by
  refine offered_append.mpr ⟨offered_append.mpr ⟨fun net member => ?_, (Ports.supplied_readers ports).offered⟩, ?_⟩
  · obtain ⟨writer, at_writer, operand⟩ := List.mem_flatMap.mp member
    have words : Supplied start given netlist writer.addr ∧ _ := Ports.supplied_writer ports at_writer
    exact (supplied_append.mpr ⟨supplied_append.mpr ⟨words.1, words.2.1⟩, words.2.2⟩).offered net operand
  · exact fun net at_clock => Or.inl (List.mem_singleton.mp at_clock ▸ clock)

include lasting in
theorem accounts_addBank {port : WritePort} {init : Bits} {entry : Reader × Nat}
    (member : entry ∈ memory.ports.readers.zipIdx)
    (written : ∀ netlist, L netlist → Offered start given netlist port.nets)
    (offered : ∀ netlist, L netlist → Offered start given netlist memory.operands) :
    Adds (fun netlist => Account start given stock waiting netlist ∧ L netlist) (memory.addBank port init entry)
      fun bank netlist => Account start given (stock ++ [bank.output]) waiting netlist ∧ L netlist ∧
        Supplied start given netlist bank.output := by
  unfold addBank
  refine adds_ofFault_bind fun built bank_eq => ?_
  obtain ⟨_, rfl⟩ := bank_eq_ok_iff.mp bank_eq
  have supports : ∀ netlist, L netlist →
      Supports start given netlist (.memory (memory.replica port init entry.1)) := by
    intro netlist holds
    refine ⟨?_, List.forall_mem_nil _, fun other is_memory => Option.some.inj is_memory ▸ rfl⟩
    have reader : Offered start given netlist (entry.1.addr ++ [memory.clock.net, entry.1.enable]) := by
      intro net operand
      refine offered netlist holds net ?_
      rw [List.mem_append, List.mem_pair] at operand
      have at_reader (h : net ∈ entry.1.enable :: entry.1.addr) : net ∈ memory.operands :=
        List.mem_append_left _ (List.mem_append_right _ (List.mem_flatMap.mpr
          ⟨entry.1, List.fst_mem_of_mem_zipIdx member, h⟩))
      rcases operand with addr | clock | enable
      · exact at_reader (List.mem_cons_of_mem _ addr)
      · exact List.mem_append_right _ (List.mem_singleton.mpr clock)
      · exact at_reader (enable ▸ List.mem_cons_self)
    have both := offered_append.mpr ⟨written netlist holds, reader⟩
    simpa [Cell.nets, Memory.nets, replica, readPort, ReadPort.nets, Register.nets, Control.high] using both
  refine adds_then (adds_cell lasting supports) fun output => ?_
  have kept : Lasting fun netlist => L netlist ∧ Supplied start given netlist output := lasting.and lasting_supplied
  refine adds_then (adds_labelled kept fun _ holds => holds.2) fun _ => ?_
  exact adds_then adds_reported fun _ => adds_pure fun _ holds => holds

include lasting in
theorem accounts_addBanks {port : WritePort}
    (written : ∀ netlist, L netlist → Offered start given netlist port.nets)
    (offered : ∀ netlist, L netlist → Offered start given netlist memory.operands) :
    Adds (fun netlist => Account start given stock waiting netlist ∧ L netlist) (memory.addBanks port)
      fun banks netlist => Account start given (stock ++ banks.map Bank.output) waiting netlist ∧ L netlist ∧
        ∀ bank ∈ banks, Supplied start given netlist bank.output := by
  have nothing (netlist : Netlist) (holds : Account start given stock waiting netlist ∧ L netlist) :
      Account start given (stock ++ ([] : List Bank).map Bank.output) waiting netlist ∧ L netlist ∧
        ∀ bank ∈ ([] : List Bank), Supplied start given netlist bank.output := by
    rw [List.map_nil, List.append_nil]
    exact ⟨holds.1, holds.2, fun _ member => nomatch member⟩
  unfold addBanks
  split
  · exact adds_pure nothing
  · refine adds_ofFault_bind fun init _ => ?_
    refine (adds_results _ memory.ports.readers.zipIdx fun done entry member => ?_).strengthen nothing
    have kept : Lasting fun netlist => L netlist ∧ ∀ bank ∈ done, Supplied start given netlist bank.output :=
      lasting.and (.forall fun _ => .forall fun _ => lasting_supplied)
    refine (accounts_addBank kept member (fun _ holds => written _ holds.1)
      fun _ holds => offered _ holds.1).weaken ?_
    rintro bank netlist ⟨account, ⟨holds, earlier⟩, latest⟩
    rw [List.map_append, List.map_singleton, ← List.append_assoc]
    exact ⟨account, holds, List.forall_mem_append.mpr ⟨earlier, List.forall_mem_singleton.mpr latest⟩⟩

include constants lasting in
theorem accounts_assemble (offered : ∀ netlist, L netlist → Offered start given netlist memory.operands) :
    Adds (fun netlist => Account start given stock waiting netlist ∧ L netlist) memory.assemble
      fun assembly netlist => Account start given (stock ++ assembly.banks.map Bank.output) waiting netlist ∧
        L netlist ∧ ∀ data ∈ assembly.readData, Supplied start given netlist data := by
  unfold assemble
  refine adds_ofRefusal_bind fun _ _ => ?_
  have writes : Adds (fun netlist => Account start given stock waiting netlist ∧ L netlist) memory.writePort
      fun port netlist => Account start given stock waiting netlist ∧ L netlist ∧ memory.WrittenBy port := by
    unfold writePort WrittenBy
    cases memory.ports.writers.head? with
    | some writer => exact adds_pure fun _ holds => ⟨holds.1, holds.2, rfl⟩
    | none =>
      exact adds_then adds_reported fun _ => adds_ofFault fun _ _ idle holds => ⟨holds.1, holds.2, idle⟩
  refine adds_then writes fun port => ?_
  have kept : Lasting fun netlist => L netlist ∧ memory.WrittenBy port := lasting.and (lasting_const _)
  refine adds_then (accounts_addBanks kept
    (fun _ holds => offered_writePort constants holds.2 (offered _ holds.1)) fun _ holds => offered _ holds.1)
    fun banks => ?_
  split
  · exact adds_throw
  · refine adds_then adds_reported fun _ => adds_pure ?_
    rintro netlist ⟨account, ⟨holds, _⟩, supplied⟩
    exact ⟨account, holds, List.forall_mem_map.mpr supplied⟩

include constants lasting in
theorem accounts_build (offered : ∀ netlist, L netlist → Offered start given netlist memory.operands) :
    Adds (fun netlist => Account start given stock waiting netlist ∧ L netlist) memory.build
      fun assembly netlist => Account start given (stock ++ assembly.banks.map Bank.output) waiting netlist ∧
        L netlist ∧ ∀ data ∈ assembly.readData, Supplied start given netlist data := by
  unfold build
  refine adds_ofRefusal_bind fun ports frozen => ?_
  rw [Ports.eq_of_freeze frozen]
  exact accounts_assemble constants lasting offered

end Replicated

namespace XorNetwork

variable {network : XorNetwork}

/-- What a build relies on of the lanes: their masks are there, and their data is a placeholder. -/
def Ready (network : XorNetwork) (start : Netlist) (given : Net → Prop) (lanes : List Lane) (netlist : Netlist) :
    Prop :=
  ∀ lane ∈ lanes, lane.writer ∈ network.ports.writers ∧ Supplied start given netlist lane.mask ∧
    netlist.Blank start.next lane.data

variable (ports : ∀ net ∈ network.ports.nets, given net) (lasting : Lasting L)

theorem supplied_repeated {netlist : Netlist} {bus : Bus} {count : Nat} (supplied : Supplied start given netlist bus) :
    Supplied start given netlist (bus.repeated count) := by
  intro net member
  obtain ⟨copy, at_copy, copied⟩ := List.mem_flatten.mp member
  rw [List.eq_of_mem_replicate at_copy] at copied
  exact supplied net copied

include ports

include lasting in
theorem accounts_conflict {writer : Writer} (member : writer ∈ network.ports.writers) {earlier : List Writer}
    (members : ∀ other ∈ earlier, other ∈ network.ports.writers) :
    Adds (fun netlist => Account start given stock waiting netlist ∧ L netlist) (network.conflict writer earlier)
      fun conflict? netlist => Account start given stock waiting netlist ∧ L netlist ∧
        ∀ conflict ∈ conflict?, Supplied start given netlist conflict := by
  unfold conflict
  refine (adds_rounds (fun _ conflict? netlist => Account start given stock waiting netlist ∧ L netlist ∧
    ∀ conflict ∈ conflict?, Supplied start given netlist conflict) earlier none
    fun done other rest conflict? all => ?_).strengthen fun netlist holds => ⟨holds.1, holds.2, by simp⟩
  have kept : Lasting fun netlist => L netlist ∧ ∀ conflict ∈ conflict?, Supplied start given netlist conflict :=
    lasting.and (.forall fun _ => .forall fun _ => lasting_supplied)
  have at_other : other ∈ network.ports.writers := members other (by simp [all])
  have addresses (netlist : Netlist) : Supplied start given netlist (other.addr ++ writer.addr) :=
    supplied_append.mpr ⟨(Ports.supplied_writer ports at_other).1, (Ports.supplied_writer ports member).1⟩
  refine adds_then (adds_logic kept rfl fun netlist _ => addresses netlist) fun sameRow => ?_
  refine adds_then (adds_logic (kept.and lasting_supplied) rfl fun netlist holds =>
    supplied_append.mpr ⟨(Ports.supplied_writer ports at_other).2.2, supplied_repeated holds.2⟩) fun written => ?_
  cases conflict? with
  | none =>
    refine adds_pure ?_
    rintro netlist ⟨account, ⟨⟨holds, _⟩, _⟩, supplied⟩
    exact ⟨account, holds, by simpa using supplied⟩
  | some conflict =>
    refine adds_then (adds_logic ((kept.and lasting_supplied).and lasting_supplied) rfl fun netlist holds =>
      supplied_append.mpr ⟨holds.1.1.2 conflict rfl, holds.2⟩) fun joined => adds_pure ?_
    rintro netlist ⟨account, ⟨⟨⟨holds, _⟩, _⟩, _⟩, supplied⟩
    exact ⟨account, holds, by simpa using supplied⟩

include lasting in
theorem accounts_arbitratedMask {writer : Writer} (member : writer ∈ network.ports.writers) {earlier : List Writer}
    (members : ∀ other ∈ earlier, other ∈ network.ports.writers) :
    Adds (fun netlist => Account start given stock waiting netlist ∧ L netlist)
      (network.arbitratedMask writer earlier) fun mask netlist =>
        Account start given stock waiting netlist ∧ L netlist ∧ Supplied start given netlist mask := by
  unfold arbitratedMask
  refine adds_then (accounts_conflict ports lasting member members) fun conflict? => ?_
  cases conflict? with
  | none => exact adds_pure fun netlist holds => ⟨holds.1, holds.2.1, (Ports.supplied_writer ports member).2.2⟩
  | some conflict =>
    have kept : Lasting fun netlist => L netlist ∧
        ∀ bus ∈ some conflict, Supplied start given netlist bus :=
      lasting.and (.forall fun _ => .forall fun _ => lasting_supplied)
    refine adds_then (adds_logic kept rfl fun netlist holds => holds.2 conflict rfl) fun free => ?_
    refine (adds_logic (kept.and lasting_supplied) rfl fun netlist holds =>
      supplied_append.mpr ⟨(Ports.supplied_writer ports member).2.2, holds.2⟩).weaken ?_
    rintro mask netlist ⟨account, ⟨⟨holds, _⟩, _⟩, supplied⟩
    exact ⟨account, holds, supplied⟩

include lasting in
theorem accounts_masks : Adds (fun netlist => Account start given stock waiting netlist ∧ L netlist) network.masks
    fun masks netlist => Account start given stock waiting netlist ∧ L netlist ∧
      ∀ mask ∈ masks, Supplied start given netlist mask := by
  unfold masks
  cases network.arbitration with
  | none =>
    refine adds_pure fun netlist holds => ⟨holds.1, holds.2, List.forall_mem_map.mpr fun writer member => ?_⟩
    exact (Ports.supplied_writer ports member).2.2
  | lowestIndex =>
    refine (adds_results (fun masks netlist => Account start given stock waiting netlist ∧ L netlist ∧
      ∀ mask ∈ masks, Supplied start given netlist mask) network.ports.writers.zipIdx
      fun done entry member => ?_).strengthen fun netlist holds => ⟨holds.1, holds.2, by simp⟩
    have kept : Lasting fun netlist => L netlist ∧ ∀ mask ∈ done, Supplied start given netlist mask :=
      lasting.and (.forall fun _ => .forall fun _ => lasting_supplied)
    refine (accounts_arbitratedMask ports kept (List.fst_mem_of_mem_zipIdx member)
      fun other earlier => List.mem_of_mem_take earlier).weaken ?_
    rintro mask netlist ⟨account, ⟨holds, before⟩, latest⟩
    exact ⟨account, holds, List.forall_mem_append.mpr ⟨before, List.forall_mem_singleton.mpr latest⟩⟩

variable (clock : given network.clock.net) {lanes : List Lane}

/-- What is there while relays are passed on: their banks, and for each writer the data combined so far. -/
def Passing (network : XorNetwork) (start : Netlist) (given : Net → Prop) (waiting : List Net) (L : Netlist → Prop)
    (relays : Relays) (netlist : Netlist) : Prop :=
  Account start given (relays.banks.map Bank.output) waiting netlist ∧ L netlist ∧
    relays.combined.length = network.ports.writers.length ∧
      ∀ data ∈ relays.combined, Supplied start given netlist data

include clock lasting in
theorem accounts_addRelay (ready : ∀ netlist, L netlist → network.Ready start given lanes netlist) {init : Bits}
    {source sink : Lane × Nat} (from_source : source ∈ lanes.zipIdx) (to_sink : sink ∈ lanes.zipIdx) {relays : Relays} :
    Adds (network.Passing start given waiting L relays) (network.addRelay init source relays sink)
      (network.Passing start given waiting L) := by
  unfold addRelay
  have kept : Lasting fun netlist => L netlist ∧ relays.combined.length = network.ports.writers.length ∧
      ∀ data ∈ relays.combined, Supplied start given netlist data :=
    lasting.and ((lasting_const _).and (.forall fun _ => .forall fun _ => lasting_supplied))
  have supports : ∀ netlist, (L netlist ∧ relays.combined.length = network.ports.writers.length ∧
      ∀ data ∈ relays.combined, Supplied start given netlist data) →
      Supports start given netlist (.memory (network.relayBank init source sink.1)) := by
    intro netlist holds
    obtain ⟨writer, mask, data⟩ := ready netlist holds.1 source.1 (List.fst_mem_of_mem_zipIdx from_source)
    obtain ⟨sink_writer, _, _⟩ := ready netlist holds.1 sink.1 (List.fst_mem_of_mem_zipIdx to_sink)
    have addr : Supplied start given netlist source.1.writer.addr := (Ports.supplied_writer ports writer).1
    have sink_addr : Supplied start given netlist sink.1.writer.addr := (Ports.supplied_writer ports sink_writer).1
    have clocked : Offered start given netlist [network.clock.net] := fun net member =>
      Or.inl (List.mem_singleton.mp member ▸ clock)
    have words : Offered start given netlist source.1.data := fun net member => Or.inr (Or.inr (data.single member))
    constructor
    · have both := offered_append.mpr ⟨offered_append.mpr ⟨offered_append.mpr ⟨offered_append.mpr
        ⟨addr.offered, words⟩, mask.offered⟩, clocked⟩, sink_addr.offered⟩
      simpa [Cell.nets, Memory.nets, relayBank, ReadPort.nets, WritePort.nets] using both
    · simpa [Cell.sources, relayBank] using sink_addr
    · exact fun memory is_memory => Option.some.inj is_memory ▸ rfl
  refine adds_then (adds_cell kept supports) fun output => ?_
  have kept' := kept.and (lasting_supplied : Lasting fun netlist => Supplied start given netlist output)
  refine adds_then (adds_labelled kept' fun _ holds => holds.2) fun _ => ?_
  refine adds_then adds_reported fun _ => ?_
  refine adds_then (adds_logic kept' rfl fun netlist holds => ?_) fun combined => adds_pure ?_
  · refine supplied_append.mpr ⟨?_, holds.2⟩
    rw [List.getD_eq_getElem?_getD]
    cases found : relays.combined[sink.2]? with
    | none => exact fun _ member => absurd member List.not_mem_nil
    | some data => exact holds.1.2.2 data (List.mem_of_getElem? found)
  · rintro netlist ⟨account, ⟨⟨holds, full, supplied⟩, _⟩, latest⟩
    refine ⟨?_, holds, by rw [List.length_set, full], fun data member => ?_⟩
    · rw [List.map_append]
      exact account
    · rcases List.mem_or_eq_of_mem_set member with earlier | rfl
      · exact supplied data earlier
      · exact latest

include clock lasting in
theorem accounts_relays (ready : ∀ netlist, L netlist → network.Ready start given lanes netlist) :
    Adds (fun netlist => Account start given [] waiting netlist ∧ L netlist)
      (lanes.zipIdx.foldlM (network.addRelays lanes) ⟨network.ports.writers.map Writer.data, []⟩)
      (network.Passing start given waiting L) := by
  refine (adds_rounds (fun _ => network.Passing start given waiting L) lanes.zipIdx _
    fun done source rest relays all => ?_).strengthen fun netlist holds => ?_
  · unfold addRelays
    split
    · exact adds_pure fun _ holds => holds
    · rename_i sinks _
      refine adds_ofFault_bind fun init _ => ?_
      refine adds_rounds (fun _ => network.Passing start given waiting L) (otherLanes lanes source.2) relays
        fun done' sink rest' relays' all' => ?_
      have to_sink : sink ∈ otherLanes lanes source.2 := by simp [all']
      exact accounts_addRelay ports lasting clock ready (by simp [all]) (List.mem_filter.mp to_sink).1
  · refine ⟨holds.1, holds.2, List.length_map _, List.forall_mem_map.mpr fun writer member => ?_⟩
    exact (Ports.supplied_writer ports member).2.1

omit ports in
include lasting in
/-- Once all pairs are tied, no placeholder is waiting. -/
theorem accounts_ties (stock : List Bus) (pairs : List (Bus × Bus))
    (blank : ∀ netlist, L netlist → ∀ pair ∈ pairs, netlist.Blank start.next pair.1)
    (supplied : ∀ netlist, L netlist → ∀ pair ∈ pairs, Supplied start given netlist pair.2) :
    Adds (fun netlist => Account start given stock (pairs.flatMap Prod.fst) netlist ∧ L netlist)
      (pairs.forM fun pair => Build.rewireBus pair.1 pair.2)
      fun _ netlist => Account start given stock [] netlist ∧ L netlist := by
  induction pairs with
  | nil => exact adds_pure fun _ holds => holds
  | cons pair rest ih =>
    rw [List.flatMap_cons]
    refine adds_then (adds_tie lasting (fun netlist holds => blank netlist holds pair List.mem_cons_self)
      fun netlist holds => supplied netlist holds pair List.mem_cons_self) fun _ => ?_
    exact ih (fun netlist holds other member => blank netlist holds other (List.mem_cons_of_mem pair member))
      fun netlist holds other member => supplied netlist holds other (List.mem_cons_of_mem pair member)

include clock lasting in
theorem accounts_addGroup (constants : ∀ bit, given (.const bit))
    (ready : ∀ netlist, L netlist → network.Ready start given lanes netlist) {source : Lane × Nat}
    (member : source ∈ lanes.zipIdx) :
    Adds (fun netlist => Account start given stock waiting netlist ∧ L netlist) (network.addGroup source)
      fun group netlist => Account start given (stock ++ group.banks.map Bank.output) waiting netlist ∧ L netlist ∧
        ∀ data ∈ group.readData, Supplied start given netlist data := by
  unfold addGroup
  refine adds_refuseAs (adds_ofRefusal_bind fun group declared => ?_)
  have grouped := grouped_of_group declared
  refine Replicated.accounts_build constants lasting fun netlist holds => ?_
  obtain ⟨writer, mask, data⟩ := ready netlist holds source.1 (List.fst_mem_of_mem_zipIdx member)
  have addr : Supplied start given netlist source.1.writer.addr := (Ports.supplied_writer ports writer).1
  refine offered_append.mpr ⟨offered_append.mpr ⟨?_, ?_⟩, ?_⟩
  · rw [grouped.writers, List.flatMap_singleton]
    have single : Writer.mask ⟨source.1.writer.addr, source.1.data, source.1.mask, some 1⟩ = source.1.mask := by
      have one : (List.replicate 1 : Net → List Net) = fun net => [net] := rfl
      simp [Writer.mask, one]
    rw [single]
    have waits : Offered start given netlist source.1.data := fun net at_data => Or.inr (Or.inr (data.single at_data))
    exact offered_append.mpr ⟨offered_append.mpr ⟨addr.offered, waits⟩, mask.offered⟩
  · rw [grouped.readers, List.flatMap_map]
    exact (Ports.supplied_readers ports).offered
  · rw [grouped.clock]
    exact fun net at_clock => Or.inl (List.mem_singleton.mp at_clock ▸ clock)

omit ports in
include lasting in
theorem accounts_combineReader {groups : List Assembly} (k : Nat)
    (supplied : ∀ netlist, L netlist → ∀ group ∈ groups, ∀ data ∈ group.readData, Supplied start given netlist data) :
    Adds (fun netlist => Account start given stock waiting netlist ∧ L netlist) (combineReader groups k)
      fun data netlist =>
        Account start given stock waiting netlist ∧ L netlist ∧ Supplied start given netlist data := by
  have each (netlist : Netlist) (holds : L netlist) :
      ∀ data ∈ groups.map fun group => group.readData.getD k [], Supplied start given netlist data := by
    refine List.forall_mem_map.mpr fun group member => ?_
    rw [List.getD_eq_getElem?_getD]
    cases found : group.readData[k]? with
    | none => exact fun _ member => absurd member List.not_mem_nil
    | some data => exact supplied netlist holds group member data (List.mem_of_getElem? found)
  unfold combineReader
  cases all : groups.map fun group => group.readData.getD k [] with
  | nil => exact adds_pure fun netlist holds => ⟨holds.1, holds.2, fun _ member => nomatch member⟩
  | cons first rest =>
    rw [all] at each
    refine (adds_rounds (fun _ data netlist => Account start given stock waiting netlist ∧ L netlist ∧
      Supplied start given netlist data) rest first fun done other later data all => ?_).strengthen
      fun netlist holds => ⟨holds.1, holds.2, each netlist holds.2 first List.mem_cons_self⟩
    refine (adds_logic (lasting.and lasting_supplied) rfl fun netlist holds => ?_).weaken fun joined netlist holds =>
      ⟨holds.1, holds.2.1.1, holds.2.2⟩
    exact supplied_append.mpr ⟨holds.2, each netlist holds.1 other (by simp [all])⟩

omit ports in
theorem flatMap_fst_zip {placeholders combined : List Bus} (full : placeholders.length ≤ combined.length) :
    (placeholders.zip combined).flatMap Prod.fst = placeholders.flatten := by
  rw [List.flatMap_def, List.map_fst_zip full]

omit ports in
include lasting in
/-- All placeholders that the lanes take as their data are waiting. -/
theorem accounts_placeholders {width : Nat} : Adds (fun netlist => Account start given stock [] netlist ∧ L netlist)
    (network.ports.writers.mapM fun _ => Build.addPlaceholders width) fun placeholders netlist =>
      Account start given stock placeholders.flatten netlist ∧ L netlist ∧
        placeholders.length = network.ports.writers.length ∧
          ∀ placeholder ∈ placeholders, netlist.Blank start.next placeholder := by
  have lengths : Adds (fun netlist => Account start given stock [] netlist ∧ L netlist)
      (network.ports.writers.mapM fun _ => Build.addPlaceholders width) fun placeholders _ =>
        placeholders.length = network.ports.writers.length := by
    have each : Adds (fun _ => True) (Build.addPlaceholders width) fun output netlist => netlist.Blank 0 output :=
      adds_addPlaceholders fun _ _ => Nat.zero_le _
    refine ((adds_mapM (lasting_const True) (fun _ _ => lasting_blank) fun _ _ => each).strengthen
      fun _ _ => trivial).weaken fun placeholders _ all => ?_
    exact all.length_eq.symm
  have accounts := adds_results (fun placeholders netlist => Account start given stock placeholders.flatten
    netlist ∧ L netlist ∧ ∀ placeholder ∈ placeholders, netlist.Blank start.next placeholder)
    network.ports.writers (f := fun _ => Build.addPlaceholders width) fun done writer _ => by
      refine (adds_blanks (lasting.and (.forall fun _ => .forall fun _ => lasting_blank))).weaken ?_
      rintro output netlist ⟨account, ⟨holds, earlier⟩, latest⟩
      rw [List.flatten_append, List.flatten_singleton]
      exact ⟨account, holds, List.forall_mem_append.mpr ⟨earlier, List.forall_mem_singleton.mpr latest⟩⟩
  intro bench placeholders after holds ended
  obtain ⟨grows, account, kept, blank⟩ := accounts bench placeholders after
    ⟨holds.1, holds.2, fun _ member => nomatch member⟩ ended
  exact ⟨grows, account, kept, (lengths bench placeholders after holds ended).2, blank⟩

omit ports in
/-- The lanes of writers are ready if their masks are there and their data is a placeholder. -/
theorem ready_lanesOf {masks placeholders : List Bus} {netlist : Netlist}
    (supplied : ∀ mask ∈ masks, Supplied start given netlist mask)
    (blank : ∀ placeholder ∈ placeholders, netlist.Blank start.next placeholder) :
    network.Ready start given (lanesOf network.ports.writers masks placeholders) netlist := by
  intro lane member
  obtain ⟨i, found⟩ := List.mem_iff_getElem?.mp member
  obtain ⟨at_writer, at_mask, at_data⟩ := getElem?_lanesOf found
  exact ⟨List.mem_of_getElem? at_writer, supplied _ (List.mem_of_getElem? at_mask),
    blank _ (List.mem_of_getElem? at_data)⟩

include clock lasting in
theorem accounts_groups (constants : ∀ bit, given (.const bit))
    (ready : ∀ netlist, L netlist → network.Ready start given lanes netlist) :
    Adds (fun netlist => Account start given stock waiting netlist ∧ L netlist)
      (lanes.zipIdx.mapM network.addGroup) fun groups netlist =>
        Account start given (stock ++ (groups.flatMap Assembly.banks).map Bank.output) waiting netlist ∧ L netlist ∧
          ∀ data ∈ groups.flatMap Assembly.readData, Supplied start given netlist data := by
  refine (adds_results (fun groups netlist => Account start given
    (stock ++ (groups.flatMap Assembly.banks).map Bank.output) waiting netlist ∧ L netlist ∧
      ∀ data ∈ groups.flatMap Assembly.readData, Supplied start given netlist data) lanes.zipIdx
    fun groups source member => ?_).strengthen fun netlist holds => ⟨by simpa using holds.1, holds.2, by simp⟩
  refine (accounts_addGroup ports (lasting.and (lasting_supplied_each start given _)) clock constants
    (fun netlist holds => ready netlist holds.1) member).weaken ?_
  rintro group netlist ⟨account, ⟨holds, earlier⟩, latest⟩
  rw [List.flatMap_append, List.flatMap_append, List.flatMap_singleton, List.flatMap_singleton, List.map_append,
    ← List.append_assoc]
  exact ⟨account, holds, List.forall_mem_append.mpr ⟨earlier, latest⟩⟩

omit ports in
include lasting in
theorem accounts_readers {groups : List Assembly} {count : Nat} (supplied : ∀ netlist, L netlist →
    ∀ data ∈ groups.flatMap Assembly.readData, Supplied start given netlist data) :
    Adds (fun netlist => Account start given stock waiting netlist ∧ L netlist)
      ((List.range count).mapM (combineReader groups)) fun readData netlist =>
        Account start given stock waiting netlist ∧ L netlist ∧
          ∀ data ∈ readData, Supplied start given netlist data := by
  refine (adds_results (fun readData netlist => Account start given stock waiting netlist ∧ L netlist ∧
    ∀ data ∈ readData, Supplied start given netlist data) (List.range count)
    fun done k _ => ?_).strengthen fun netlist holds => ⟨holds.1, holds.2, by simp⟩
  have kept := lasting.and (lasting_supplied_each start given done)
  refine (accounts_combineReader kept k fun netlist holds group member data at_group =>
    supplied netlist holds.1 data (List.mem_flatMap.mpr ⟨group, member, at_group⟩)).weaken ?_
  rintro data netlist ⟨account, ⟨holds, earlier⟩, latest⟩
  exact ⟨account, holds, List.forall_mem_append.mpr ⟨earlier, List.forall_mem_singleton.mpr latest⟩⟩

include clock lasting in
theorem accounts_assembleLanes (constants : ∀ bit, given (.const bit)) :
    Adds (fun netlist => Account start given [] [] netlist ∧ L netlist) network.assembleLanes fun assembly netlist =>
      Account start given (assembly.banks.map Bank.output) [] netlist ∧
        ∀ data ∈ assembly.readData, Supplied start given netlist data := by
  unfold assembleLanes
  refine adds_then (accounts_masks ports lasting) fun masks => ?_
  have masked := lasting.and (lasting_supplied_each start given masks)
  refine adds_then (accounts_placeholders masked) fun placeholders => ?_
  have laid := masked.and ((lasting_const (placeholders.length = network.ports.writers.length)).and
    (lasting_blank_each start.next placeholders))
  refine adds_then (accounts_relays ports laid clock fun netlist holds => ready_lanesOf holds.1.2 holds.2.2)
    fun relays => ?_
  have collected := laid.and ((lasting_const (relays.combined.length = network.ports.writers.length)).and
    (lasting_supplied_each start given relays.combined))
  have ties := accounts_ties collected (relays.banks.map Bank.output) (placeholders.zip relays.combined)
    (fun netlist holds pair member => holds.1.2.2 pair.1 (List.of_mem_zip member).1)
    (fun netlist holds pair member => holds.2.2 pair.2 (List.of_mem_zip member).2)
  refine adds_then (ties.strengthen ?_) fun _ => ?_
  · rintro netlist ⟨account, holds⟩
    rw [flatMap_fst_zip (by omega)]
    exact ⟨account, holds⟩
  refine adds_then (accounts_groups ports collected clock constants fun netlist holds =>
    ready_lanesOf holds.1.1.2 holds.1.2.2) fun groups => ?_
  have grouped := collected.and (lasting_supplied_each start given (groups.flatMap Assembly.readData))
  refine adds_then (accounts_readers grouped fun netlist holds => holds.2) fun readData => ?_
  dsimp only
  split
  · exact adds_throw
  · refine adds_then adds_reported fun _ => adds_pure fun netlist holds => ?_
    rw [List.map_append]
    exact ⟨holds.1, holds.2.2⟩

include clock in
theorem accounts_assemble (constants : ∀ bit, given (.const bit)) :
    Adds (fun netlist => netlist = start) network.assemble fun assembly netlist =>
      Account start given (assembly.banks.map Bank.output) [] netlist ∧
        ∀ data ∈ assembly.readData, Supplied start given netlist data := by
  unfold assemble
  refine adds_ofRefusal_bind fun _ _ => adds_then adds_reported fun _ => ?_
  split
  · refine adds_then adds_reported fun _ => ?_
    refine adds_then ((adds_results (fun readData netlist => Account start given [] [] netlist ∧
      ∀ data ∈ readData, Supplied start given netlist data) network.ports.readers fun done reader _ =>
        adds_ofFault fun data netlist filled holds => ?_).strengthen fun netlist same =>
          ⟨account_start same, fun _ member => nomatch member⟩) fun readData => adds_pure fun _ holds => holds
    refine ⟨holds.1, List.forall_mem_append.mpr ⟨holds.2, List.forall_mem_singleton.mpr ?_⟩⟩
    exact supplied_filled constants filled
  · exact (accounts_assembleLanes ports (lasting_const True) clock constants).strengthen fun netlist same =>
      ⟨account_start same, trivial⟩

end XorNetwork

namespace Engine

/-- The clock of all banks. -/
def clock : Engine → Control
  | replicated memory => memory.clock
  | xorNetwork network => network.clock

variable {engine : Engine}

/-- A build accounts for all that it adds. -/
theorem accounts_construct (constants : ∀ bit, given (.const bit)) (ports : ∀ net ∈ engine.ports.nets, given net)
    (clock : given engine.clock.net) :
    Adds (fun netlist => netlist = start) engine.construct fun assembly netlist =>
      Account start given (assembly.banks.map Bank.output) [] netlist ∧
        ∀ data ∈ assembly.readData, Supplied start given netlist data := by
  unfold construct
  refine adds_ofRefusal_bind fun frozen freezes => ?_
  rw [Ports.eq_of_freeze freezes]
  cases engine with
  | replicated memory =>
    refine ((Replicated.accounts_assemble constants (lasting_const True) fun netlist _ =>
      Replicated.offered_operands ports clock).strengthen fun netlist same => ⟨account_start same, trivial⟩).weaken
        fun assembly netlist holds => ⟨holds.1, holds.2.2⟩
  | xorNetwork network => exact XorNetwork.accounts_assemble ports clock constants

end Engine

end BankedMemory.Storage
