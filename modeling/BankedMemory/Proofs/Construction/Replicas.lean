import BankedMemory.Proofs.Checks
import BankedMemory.Proofs.Construction.Installation
import BankedMemory.Proofs.Lists
import BankedMemory.Storage.Replicated

/-!
# The banks of a memory with one writer

A build of such a memory adds one bank for each reader. All of them have the same write port and the same initial
rows, and differ in their read ports only.
-/

namespace BankedMemory.Storage

theorem Ports.eq_of_freeze {ports after : Ports} (h : ports.freeze = .ok after) :
    after = { ports with frozen := true } := by
  unfold freeze at h
  obtain ⟨_, _, h⟩ := Build.except_bind_eq_ok.mp h
  exact (Except.ok.inj h).symm

namespace Blueprint

/-- The initial rows side by side: the given ones, and then zeros. -/
def filledRows (blueprint : Blueprint) : Bits :=
  blueprint.rows.flatten ++ List.replicate ((blueprint.depth - blueprint.rows.length) * blueprint.width) .zero

theorem eq_filledRows {blueprint : Blueprint} {init : Bits} (word : blueprint.initialWord = .ok init) :
    init = blueprint.filledRows := by
  unfold initialWord at word
  obtain ⟨rest, product, word⟩ := Build.except_bind_eq_ok.mp word
  obtain ⟨zeros, filled, word⟩ := Build.except_bind_eq_ok.mp word
  obtain ⟨_, rfl⟩ := Size.mul_eq_ok_iff.mp product
  obtain ⟨_, rfl⟩ := Positions.filled_eq_ok_iff.mp filled
  cases word
  rfl

end Blueprint

namespace Replicated

open Build

/-- The port through which all banks are written. -/
def WrittenBy (memory : Replicated) (port : WritePort) : Prop :=
  match memory.ports.writers.head? with
  | some writer => port = ⟨writer.addr, writer.data, writer.mask, memory.clock⟩
  | none => memory.idlePort = .ok port

theorem visibility_eq (memory : Replicated) (reader : Reader) : memory.visibility reader =
    if memory.ports.writers ≠ [] ∧ 0 ∈ reader.observed then .after else .before := by
  simp [visibility, Reader.observes_iff]

/-- The read port of the bank of one reader. -/
def readPort (memory : Replicated) (reader : Reader) : ReadPort :=
  ⟨reader.addr, memory.ports.blueprint.width, some ⟨memory.clock, .high reader.enable,
    Bits.unknowns memory.ports.blueprint.width, [memory.visibility reader]⟩⟩

/-- The bank of one reader. -/
def replica (memory : Replicated) (port : WritePort) (init : Bits) (reader : Reader) : Memory :=
  let blueprint := memory.ports.blueprint
  ⟨blueprint.depth, blueprint.width, init, blueprint.attributes, [port], [memory.readPort reader]⟩

/-- What has been added once the memory is built, with `Has` telling which cells there are. -/
structure Layout (memory : Replicated) (Has : Bus → Cell → Prop) (assembly : Assembly) (port : WritePort)
    (init : Bits) : Prop where
  verified : memory.ports.verify = .ok ()
  written : memory.WrittenBy port
  initial : memory.ports.readers ≠ [] → memory.ports.blueprint.initialWord = .ok init
  replicas : List.Forall₂ (fun reader output => Has output (.memory (memory.replica port init reader)))
    memory.ports.readers assembly.readData
  outputs : assembly.banks.map Bank.output = assembly.readData
  roles : assembly.banks.map Bank.role = (List.range memory.ports.readers.length).map (.replica memory.writer)

variable {memory : Replicated} {base : Nat}

theorem Layout.mono {Has Has' : Bus → Cell → Prop} (weaker : ∀ output c, Has output c → Has' output c)
    {assembly : Assembly} {port : WritePort} {init : Bits} (h : memory.Layout Has assembly port init) :
    memory.Layout Has' assembly port init :=
  { h with replicas := h.replicas.imp fun _ _ => weaker _ _ }

theorem bank_eq_ok_iff {port : WritePort} {init : Bits} {reader : Reader} {built : Memory} :
    memory.bank port init reader = .ok built ↔
      memory.ports.blueprint.width ≤ Bits.maxWidth ∧ built = memory.replica port init reader := by
  unfold bank Register.ofClock Bits.filled Positions.filled
  by_cases fits : memory.ports.blueprint.width ≤ Bits.maxWidth
  · simp only [fits, if_true, bind, Except.bind, pure, Except.pure, Except.ok.injEq, true_and]
    exact eq_comm
  · simp [fits, bind, Except.bind]

theorem adds_addBank {port : WritePort} {init : Bits} (entry : Reader × Nat) :
    Adds (From base) (memory.addBank port init entry) fun bank netlist =>
      bank.role = .replica memory.writer entry.2 ∧
        netlist.Queued base bank.output (.memory (memory.replica port init entry.1)) := by
  unfold addBank
  refine adds_ofFault_bind fun built bank_eq => ?_
  obtain ⟨_, rfl⟩ := bank_eq_ok_iff.mp bank_eq
  refine adds_bind lasting_from (adds_add fun _ low => low) (fun _ => lasting_queued) fun output => ?_
  refine adds_seq lasting_from adds_label fun _ => ?_
  refine adds_seq lasting_from adds_report fun _ => ?_
  exact adds_pure fun _ _ queued => ⟨rfl, queued⟩

/-- The replicas of all readers are numbered in their order. -/
theorem roles_of_zipIdx {banks : List Bank} (each : List.Forall₂ (fun entry (bank : Bank) =>
    bank.role = .replica memory.writer entry.2) memory.ports.readers.zipIdx banks) :
    banks.map Bank.role = (List.range memory.ports.readers.length).map (.replica memory.writer) := by
  rw [List.range_eq_range', ← List.zipIdx_map_snd 0 memory.ports.readers, List.map_map, map_eq_map_iff_forall₂]
  exact each.flip

theorem adds_addBanks {port : WritePort} : Adds (From base) (memory.addBanks port) fun banks netlist =>
    ∃ init, (memory.ports.readers ≠ [] → memory.ports.blueprint.initialWord = .ok init) ∧
      List.Forall₂ (fun entry (bank : Bank) => bank.role = .replica memory.writer entry.2 ∧
        netlist.Queued base bank.output (.memory (memory.replica port init entry.1)))
        memory.ports.readers.zipIdx banks := by
  unfold addBanks
  cases readers : memory.ports.readers with
  | nil => exact adds_pure fun _ _ => ⟨[], fun some_reader => absurd rfl some_reader, .nil⟩
  | cons first rest =>
    simp only [List.isEmpty_cons, Bool.false_eq_true, if_false]
    refine adds_ofFault_bind fun init word => ?_
    refine (adds_mapM lasting_from (fun _ _ => (lasting_const _).and lasting_queued)
      fun entry _ => adds_addBank entry).weaken ?_
    exact fun banks netlist queued => ⟨init, fun _ => word, queued⟩

/-- A build of the memory only adds, and what it has added are the banks. -/
theorem adds_assemble : Adds (From base) memory.assemble fun assembly netlist =>
    ∃ port init, memory.Layout (netlist.Queued base) assembly port init := by
  unfold assemble
  refine adds_ofRefusal_bind fun _ verified => ?_
  have writes : Adds (From base) memory.writePort fun port _ => memory.WrittenBy port := by
    unfold writePort WrittenBy
    cases memory.ports.writers.head? with
    | some writer => exact adds_pure fun _ _ => rfl
    | none => exact adds_seq lasting_from adds_report fun _ => adds_ofFault fun _ _ idle _ => idle
  refine adds_bind lasting_from writes (fun _ => lasting_const _) fun port => ?_
  refine adds_bind lasting_from adds_addBanks (fun banks => ?_) fun banks => ?_
  · exact .exists fun init => (lasting_const _).and (lasting_forall₂ fun _ _ => (lasting_const _).and lasting_queued)
  split
  · exact adds_throw
  · refine adds_seq lasting_from adds_report fun _ => ?_
    refine adds_pure fun netlist _ queued written => ?_
    obtain ⟨init, initial, replicas⟩ := queued
    have placed : List.Forall₂ (fun reader (bank : Bank) =>
        netlist.Queued base bank.output (.memory (memory.replica port init reader))) memory.ports.readers banks :=
      forall₂_of_zipIdx (replicas.imp fun _ _ both => both.2)
    exact ⟨port, init, verified, written, initial, List.forall₂_map_right_iff.mpr placed, rfl,
      roles_of_zipIdx (replicas.imp fun _ _ both => both.1)⟩

/-- The declarations being final changes nothing of what is added. -/
theorem adds_build : Adds (From base) memory.build fun assembly netlist =>
    ∃ port init, memory.Layout (netlist.Queued base) assembly port init := by
  unfold build
  refine adds_ofRefusal_bind fun ports frozen => ?_
  rw [Ports.eq_of_freeze frozen]
  exact adds_assemble.weaken fun _ _ ⟨port, init, layout⟩ =>
    ⟨port, init, layout.verified, layout.written, layout.initial, layout.replicas, layout.outputs, layout.roles⟩

/-- Wherever the memory is installed, its banks are in their places. -/
theorem exists_layout (site : Installation memory.build) :
    ∃ port init, memory.Layout site.Has site.assembly port init := by
  have low : From site.before.next (Workbench.ofNetlist site.before).netlist := Nat.le_refl _
  obtain ⟨grows, port, init, layout⟩ := adds_build _ _ _ low site.built
  exact ⟨port, init, layout.mono fun _ _ queued => site.has_of_queued grows queued⟩

end Replicated

end BankedMemory.Storage
