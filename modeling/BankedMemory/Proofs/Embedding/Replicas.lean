import BankedMemory.Proofs.Construction.Replicas
import BankedMemory.Proofs.Declarations
import BankedMemory.Proofs.Embedding.Follows
import BankedMemory.Proofs.Network.Ports

/-!
# Memories with one writer side by side

Two memories with one writer whose ports belong together get banks that belong together. The names of the labels make
no difference, and the words that are written may come over placeholders in the larger netlist.
-/

namespace BankedMemory.Storage

open Build

namespace Stage

variable {stage later : Stage}

/-- A write port at the same address and with the same clock, whose data and mask stand for those of the other. -/
structure Wires (stage : Stage) (port port' : WritePort) : Prop where
  addr : port'.addr = port.addr
  clock : port'.clock = port.clock
  kept : ∀ net ∈ port.addr ++ [port.clock.net], stage.Keeps net
  data : stage.Stands port.data port'.data
  mask : stage.Stands port.mask port'.mask

/-- The same role, and an output that belongs to that of the other bank. -/
def Banks (stage : Stage) (bank bank' : Bank) : Prop := bank'.role = bank.role ∧ stage.Has bank.output bank'.output

/-- The data of all readers and all banks belong together. -/
structure Assembles (stage : Stage) (assembly assembly' : Assembly) : Prop where
  readData : List.Forall₂ stage.Has assembly.readData assembly'.readData
  banks : List.Forall₂ stage.Banks assembly.banks assembly'.banks

theorem lasting_wires {port port' : WritePort} : Lasting (Wires · port port') := fun stage later reaches wires =>
  { wires with
    kept := fun net member => lasting_keeps stage later reaches (wires.kept net member)
    data := lasting_stands stage later reaches wires.data
    mask := lasting_stands stage later reaches wires.mask }

theorem lasting_banks {bank bank' : Bank} : Lasting (Banks · bank bank') := (lasting_const _).and lasting_has

theorem lasting_assembles {assembly assembly' : Assembly} : Lasting (Assembles · assembly assembly') :=
  fun stage later reaches assembles =>
    ⟨lasting_forall₂ (fun _ _ => lasting_has) stage later reaches assembles.readData,
      lasting_forall₂ (fun _ _ => lasting_banks) stage later reaches assembles.banks⟩

theorem keeps_const (stage : Stage) (bit : Trit) : stage.Keeps (.const bit) := ⟨trivial, rfl⟩

theorem keeps_filled {bus : Bus} {width : Nat} {bit : Trit} (filled : Bus.filled width (.const bit) = .ok bus) :
    ∀ net ∈ bus, stage.Keeps net := by
  intro net member
  rw [Bus.eq_of_mem_filled filled member]
  exact stage.keeps_const bit

/-- Memories with one write port and the same read ports are alike if their write ports belong together. -/
theorem alike_memory {m : Memory} {port port' : WritePort} (single : m.writePorts = [port])
    (wires : stage.Wires port port') (kept : ∀ reads ∈ m.readPorts, ∀ net ∈ reads.nets, stage.Keeps net) :
    (Cell.memory m).Alike (Netlist.StandsFor stage.place stage.big) (.memory { m with writePorts := [port'] }) := by
  intro f g same
  have operands : ∀ net ∈ port.nets, net ∈ (Cell.memory m).nets := fun net member =>
    List.mem_append_left _ (List.mem_flatMap.mpr ⟨port, by simp [single], member⟩)
  have operands' : ∀ net ∈ port'.nets, net ∈ (Cell.memory { m with writePorts := [port'] }).nets := fun net member =>
    List.mem_append_left _ (List.mem_flatMap.mpr ⟨port', List.mem_singleton_self port', member⟩)
  have unmoved {net : Net} (keeps : stage.Keeps net) : Netlist.StandsFor stage.place stage.big net net :=
    Or.inl keeps.2.symm
  have addr : port.addr.map f = port'.addr.map g := by
    rw [wires.addr]
    refine List.map_congr_left fun net member => ?_
    refine same net (operands net (by simp [WritePort.nets, member])) net (operands' net ?_) ?_
    · simp [WritePort.nets, wires.addr, member]
    · exact unmoved (wires.kept net (List.mem_append_left _ member))
  have clock : port.clock.map f = port'.clock.map g := by
    unfold Control.map
    rw [wires.clock]
    congr 1
    refine same _ (operands _ (by simp [WritePort.nets])) _ (operands' _ (by simp [WritePort.nets, wires.clock])) ?_
    exact unmoved (wires.kept _ (List.mem_append_right _ (List.mem_singleton_self _)))
  have data : port.data.map f = port'.data.map g := wires.data.map_eq fun net member net' member' =>
    same net (operands net (by simp [WritePort.nets, member])) net' (operands' net' (by simp [WritePort.nets, member']))
  have mask : port.mask.map f = port'.mask.map g := wires.mask.map_eq fun net member net' member' =>
    same net (operands net (by simp [WritePort.nets, member])) net' (operands' net' (by simp [WritePort.nets, member']))
  have written : m.writePorts.map (WritePort.map f) = [port'].map (WritePort.map g) := by
    rw [single, List.map_singleton, List.map_singleton, WritePort.map, WritePort.map, addr, data, mask, clock]
  -- the read ports on their own
  have unwritten : ({ m with writePorts := [] } : Memory).map f = ({ m with writePorts := [] } : Memory).map g := by
    refine Memory.map_congr fun net member => ?_
    obtain ⟨reads, at_port, member⟩ := List.mem_flatMap.mp (by simpa [Memory.nets] using member)
    have operand : net ∈ m.readPorts.flatMap ReadPort.nets := List.mem_flatMap.mpr ⟨reads, at_port, member⟩
    exact same net (List.mem_append_right _ operand) net (List.mem_append_right _ operand)
      (unmoved (kept reads at_port net member))
  have read : m.readPorts.map (ReadPort.map f) = m.readPorts.map (ReadPort.map g) :=
    congrArg Memory.readPorts unwritten
  simp only [Cell.map, Memory.map, written, read]

/-- The operands of such a memory have been handed out. -/
theorem below_memory {m : Memory} {port port' : WritePort} (single : m.writePorts = [port])
    (wires : stage.Wires port port') (kept : ∀ reads ∈ m.readPorts, ∀ net ∈ reads.nets, stage.Keeps net) :
    ∀ net ∈ (Cell.memory m).nets, net.Below stage.small.next := by
  have known {bus bus' : Bus} (stands : stage.Stands bus bus') : ∀ net ∈ bus, net.Below stage.small.next := by
    intro net member
    obtain ⟨_, _, here, _⟩ := forall₂_mem_right stands.flip member
    exact here
  intro net member
  rcases List.mem_append.mp member with written | read
  · obtain ⟨other, at_port, member⟩ := List.mem_flatMap.mp written
    rw [single] at at_port
    rw [List.mem_singleton.mp at_port] at member
    simp only [WritePort.nets, List.mem_append] at member
    rcases member with ((at_addr | at_data) | at_mask) | at_clock
    · exact (wires.kept net (List.mem_append_left _ at_addr)).1
    · exact known wires.data net at_data
    · exact known wires.mask net at_mask
    · exact (wires.kept net (List.mem_append_right _ at_clock)).1
  · obtain ⟨reads, at_port, member⟩ := List.mem_flatMap.mp read
    exact (kept reads at_port net member).1

/-- A writer at the same address, whose data and mask stand for those of the other. -/
structure Drives (stage : Stage) (writer writer' : Writer) : Prop where
  addr : writer'.addr = writer.addr
  kept : ∀ net ∈ writer.addr, stage.Keeps net
  data : stage.Stands writer.data writer'.data
  mask : stage.Stands writer.mask writer'.mask

/-- Two memories of one shape, the first without labels, whose banks are read alike and written alike. -/
structure Mirrors (stage : Stage) (memory memory' : Replicated) : Prop where
  unnamed : memory.name = none
  blueprint : memory'.ports.blueprint = memory.ports.blueprint
  role : memory'.writer = memory.writer
  clock : memory'.clock = memory.clock
  ticks : stage.Keeps memory.clock.net
  readers : List.Forall₂ (fun reader reader' => memory'.readPort reader' = memory.readPort reader)
    memory.ports.readers memory'.ports.readers
  reads : ∀ reader ∈ memory.ports.readers, ∀ net ∈ (memory.readPort reader).nets, stage.Keeps net
  writers : List.Forall₂ stage.Drives memory.ports.writers memory'.ports.writers

theorem lasting_drives {writer writer' : Writer} : Lasting (Drives · writer writer') :=
  fun stage later reaches drives =>
    { drives with
      kept := fun net member => lasting_keeps stage later reaches (drives.kept net member)
      data := lasting_stands stage later reaches drives.data
      mask := lasting_stands stage later reaches drives.mask }

theorem lasting_mirrors {memory memory' : Replicated} : Lasting (Mirrors · memory memory') :=
  fun stage later reaches mirrors =>
    { mirrors with
      ticks := lasting_keeps stage later reaches mirrors.ticks
      reads := fun reader member net operand =>
        lasting_keeps stage later reaches (mirrors.reads reader member net operand)
      writers := lasting_forall₂ (fun _ _ => lasting_drives) stage later reaches mirrors.writers }

/-- The clock of a memory and the nets at all its ports are in their places. -/
structure Hosts (stage : Stage) (clock : Control) (ports : Ports) : Prop where
  ticks : stage.Keeps clock.net
  kept : ∀ net ∈ ports.nets, stage.Keeps net

section Hosts

variable {clock : Control} {ports : Ports}

theorem lasting_hosts : Lasting (Hosts · clock ports) := fun stage later reaches hosts =>
  ⟨lasting_keeps stage later reaches hosts.ticks,
    fun net member => lasting_keeps stage later reaches (hosts.kept net member)⟩

variable (hosts : stage.Hosts clock ports)
include hosts

theorem Hosts.reader_kept {reader : Reader} (declared : reader ∈ ports.readers) {net : Net}
    (member : net ∈ reader.enable :: reader.addr) : stage.Keeps net := by
  obtain ⟨k, found⟩ := List.mem_iff_getElem?.mp declared
  exact hosts.kept net (Ports.reader_nets found member)

variable {writer : Writer} (declared : writer ∈ ports.writers)
include declared

theorem Hosts.writer_kept {net : Net} (member : net ∈ writer.addr ++ writer.data ++ writer.enable) :
    stage.Keeps net := by
  obtain ⟨i, found⟩ := List.mem_iff_getElem?.mp declared
  exact hosts.kept net (Ports.writer_nets found member)

theorem Hosts.addr : stage.Has writer.addr writer.addr :=
  has_of_keeps fun net member => hosts.writer_kept declared (by simp [member])

theorem Hosts.data : stage.Has writer.data writer.data :=
  has_of_keeps fun net member => hosts.writer_kept declared (by simp [member])

theorem Hosts.mask : stage.Has writer.mask writer.mask :=
  has_of_keeps fun net member => hosts.writer_kept declared (by simp [Ports.mem_enable_of_mem_mask member])

end Hosts

end Stage

namespace Replicated

variable {memory memory' : Replicated} {stage : Stage}

theorem follows_writePort (mirrors : stage.Mirrors memory memory') :
    stage.Follows memory.writePort memory'.writePort Stage.Wires := by
  unfold writePort
  have writers := mirrors.writers
  cases h : memory.ports.writers with
  | nil =>
    rw [h] at writers
    rw [List.forall₂_nil_left_iff.mp writers]
    refine stage.follows_report.bind fun later _ _ reaches _ => later.follows_ofFault fun port idle => ?_
    have same : memory'.idlePort = memory.idlePort := by
      unfold idlePort
      rw [mirrors.blueprint, mirrors.clock]
    rw [same] at idle
    refine ⟨port, idle, ?_⟩
    obtain ⟨addr, filled_addr, rest⟩ := except_bind_eq_ok.mp idle
    obtain ⟨data, filled_data, rest⟩ := except_bind_eq_ok.mp rest
    cases rest
    have ticks := Stage.lasting_keeps stage later reaches mirrors.ticks
    have data_stands := (later.has_of_keeps (later.keeps_filled filled_data)).stands
    refine ⟨rfl, rfl, fun net member => ?_, data_stands, data_stands⟩
    rcases List.mem_append.mp member with at_addr | at_clock
    · exact later.keeps_filled filled_addr net at_addr
    · rwa [List.mem_singleton.mp at_clock]
  | cons writer rest =>
    rw [h] at writers
    obtain ⟨writer', rest', drives, _, h'⟩ := List.forall₂_cons_left_iff.mp writers
    rw [h']
    refine stage.follows_pure ⟨drives.addr, mirrors.clock, fun net member => ?_, drives.data, drives.mask⟩
    rcases List.mem_append.mp member with at_addr | at_clock
    · exact drives.kept net at_addr
    · rw [List.mem_singleton.mp at_clock]
      exact mirrors.ticks

theorem follows_addBank (mirrors : stage.Mirrors memory memory') {port port' : WritePort}
    (wires : stage.Wires port port') {init : Bits} {entry entry' : Reader × Nat}
    (member : entry.1 ∈ memory.ports.readers) (read : memory'.readPort entry'.1 = memory.readPort entry.1)
    (number : entry'.2 = entry.2) : stage.Follows (memory.addBank port init entry)
      (memory'.addBank port' init entry') Stage.Banks := by
  have built : stage.Follows (ofFault (memory.bank port init entry.1)) (ofFault (memory'.bank port' init entry'.1))
      fun _ bank bank' => bank = memory.replica port init entry.1 ∧
        bank' = { memory.replica port init entry.1 with writePorts := [port'] } := by
    refine stage.follows_ofFault fun bank' found' => ?_
    obtain ⟨fits, rfl⟩ := bank_eq_ok_iff.mp found'
    rw [mirrors.blueprint] at fits
    refine ⟨_, bank_eq_ok_iff.mpr ⟨fits, rfl⟩, rfl, ?_⟩
    unfold replica
    rw [mirrors.blueprint, read]
  have kept : ∀ reads ∈ (memory.replica port init entry.1).readPorts, ∀ net ∈ reads.nets, stage.Keeps net := by
    intro reads at_port net operand
    rw [List.mem_singleton.mp at_port] at operand
    exact mirrors.reads entry.1 member net operand
  unfold addBank
  refine built.bind fun later bank bank' reaches ⟨bank_eq, bank'_eq⟩ => ?_
  subst bank_eq bank'_eq
  have wires := Stage.lasting_wires stage later reaches wires
  have kept : ∀ reads ∈ (memory.replica port init entry.1).readPorts, ∀ net ∈ reads.nets, later.Keeps net :=
    fun reads at_port net operand => Stage.lasting_keeps stage later reaches (kept reads at_port net operand)
  refine (later.follows_add (later.below_memory rfl wires kept) (later.alike_memory rfl wires kept)).bind
    fun next output output' _ has => ?_
  rw [mirrors.unnamed]
  refine next.follows_label.bind fun next' _ _ reaches' _ => ?_
  refine next'.follows_report.bind fun last _ _ reaches'' _ => ?_
  refine last.follows_pure ⟨by rw [mirrors.role, number], ?_⟩
  exact Stage.lasting_has next last (reaches'.trans reaches'') has

theorem follows_addBanks (mirrors : stage.Mirrors memory memory') {port port' : WritePort}
    (wires : stage.Wires port port') : stage.Follows (memory.addBanks port) (memory'.addBanks port')
      fun later => List.Forall₂ later.Banks := by
  have empty : memory'.ports.readers.isEmpty = memory.ports.readers.isEmpty := by
    rw [Bool.eq_iff_iff, List.isEmpty_iff_length_eq_zero, List.isEmpty_iff_length_eq_zero, mirrors.readers.length_eq]
  unfold addBanks
  rw [empty, mirrors.blueprint]
  split
  · exact stage.follows_pure .nil
  · refine stage.follows_same.bind ?_
    rintro later init _ reaches rfl
    refine later.follows_mapM (R := fun _ entry entry' => entry.1 ∈ memory.ports.readers ∧
      memory'.readPort entry'.1 = memory.readPort entry.1 ∧ entry'.2 = entry.2) (fun _ _ => Stage.lasting_const _)
      (fun _ _ => Stage.lasting_banks) ?_ ?_
    · exact forall₂_of_mem (forall₂_zipIdx mirrors.readers) fun _ _ member related =>
        ⟨List.fst_mem_of_mem_zipIdx member, related⟩
    · rintro next entry entry' reaches' ⟨member, read, number⟩
      have reaches := reaches.trans reaches'
      exact follows_addBank (Stage.lasting_mirrors stage next reaches mirrors)
        (Stage.lasting_wires stage next reaches wires) member read number

/-- The banks of memories that mirror each other belong together. -/
theorem follows_assemble (mirrors : stage.Mirrors memory memory') (verified : memory.ports.verify = .ok ()) :
    stage.Follows memory.assemble memory'.assemble Stage.Assembles := by
  have expected : memory'.expectedBanks = memory.expectedBanks := mirrors.readers.length_eq.symm
  unfold assemble
  refine (stage.follows_checked verified).bind fun later _ _ reaches _ => ?_
  have mirrors := Stage.lasting_mirrors stage later reaches mirrors
  refine (follows_writePort mirrors).bind fun next port port' reaches wires => ?_
  have mirrors := Stage.lasting_mirrors later next reaches mirrors
  refine (follows_addBanks mirrors wires).bind fun last banks banks' _ related => ?_
  rw [expected, related.length_eq]
  split
  · exact last.follows_throw
  · refine last.follows_report.bind fun final _ _ reaches _ => ?_
    have related := Stage.lasting_forall₂ (fun _ _ => Stage.lasting_banks) last final reaches related
    refine final.follows_pure ⟨?_, related⟩
    rw [List.forall₂_map_left_iff, List.forall₂_map_right_iff]
    exact related.imp fun _ _ both => both.2

theorem follows_build (mirrors : stage.Mirrors memory memory') (sound : memory.ports.Sound)
    (opened : memory.ports.frozen = false) : stage.Follows memory.build memory'.build Stage.Assembles := by
  unfold build
  have frozen : stage.Follows (ofRefusal memory.ports.freeze) (ofRefusal memory'.ports.freeze)
      fun _ ports ports' => ports = { memory.ports with frozen := true } ∧
        ports' = { memory'.ports with frozen := true } :=
    stage.follows_ofRefusal fun ports' here => ⟨_, Ports.freeze_of_open opened, rfl, Ports.eq_of_freeze here⟩
  refine frozen.bind ?_
  rintro later _ _ reaches ⟨rfl, rfl⟩
  have mirrors := Stage.lasting_mirrors stage later reaches mirrors
  refine follows_assemble ?_ sound.frozen.verify
  exact ⟨mirrors.unnamed, mirrors.blueprint, mirrors.role, mirrors.clock, mirrors.ticks, mirrors.readers, mirrors.reads,
    mirrors.writers⟩

/-- The labels make no difference to what mirrors a memory. -/
theorem mirrors_of_hosts (hosts : stage.Hosts memory.clock memory.ports) (name? : Option String) :
    stage.Mirrors { memory with name := none } { memory with name := name? } where
  unnamed := rfl
  blueprint := rfl
  role := rfl
  clock := rfl
  ticks := hosts.ticks
  readers := List.forall₂_same.mpr fun _ _ => rfl
  reads reader declared net operand := by
    have parts : net ∈ reader.addr ∨ net = memory.clock.net ∨ net = reader.enable := by
      simpa [ReadPort.nets, readPort, Register.nets, Control.high] using operand
    rcases parts with at_addr | rfl | rfl
    · exact hosts.reader_kept declared (List.mem_cons_of_mem _ at_addr)
    · exact hosts.ticks
    · exact hosts.reader_kept declared List.mem_cons_self
  writers := List.forall₂_same.mpr fun writer declared =>
    ⟨rfl, fun net member => hosts.writer_kept declared (by simp [member]), (hosts.data declared).stands,
      (hosts.mask declared).stands⟩

end Replicated

end BankedMemory.Storage
