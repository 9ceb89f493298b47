import BankedMemory.Proofs.Construction.Revisions
import BankedMemory.Proofs.Evaluation.Fitting
import Mathlib.Data.Fintype.Card
import Mathlib.Data.Fintype.EquivFin

/-!
# Netlists without combinational loops

In a closed netlist each operand is a constant or an output bit of an applied cell. If no cell depends on itself
through the outputs that depend on operands at once, every such net carries a bit in every state that fits. So all
that can be asked of a state has an answer: the words on buses, the outputs of cells, and the next clock cycle.
-/

namespace BankedMemory

theorem Cell.sources_subset_nets (c : Cell) : c.sources ⊆ c.nets := by
  cases c with
  | memory m =>
    intro net member
    obtain ⟨port, at_port, at_addr⟩ := List.mem_flatMap.mp member
    refine List.mem_append_right _ (List.mem_flatMap.mpr ⟨port, at_port, ?_⟩)
    split at at_addr
    · exact List.mem_append_left _ at_addr
    · cases at_addr
  | invert a => exact fun _ member => member
  | gate kind a b => exact fun _ member => member
  | equal a b => exact fun _ member => member
  | input name width => exact List.nil_subset _
  | output name bus => exact List.nil_subset _
  | label name bus => exact List.nil_subset _

namespace Netlist

variable {netlist : Netlist} {state : State}

/-- A net with a bit of its own: a constant, or an output bit of an applied cell. -/
def Driven (netlist : Netlist) (net : Net) : Prop := (∃ bit, net = .const bit) ∨ ∃ index, net ∈ netlist.outputOf index

/-- All operands of applied cells are driven. -/
def Closed (netlist : Netlist) : Prop := ∀ index c, netlist.cell? index = some c → ∀ net ∈ c.nets, netlist.Driven net

/-- The output of a cell depends at once on an output bit of another. -/
def Feeds (netlist : Netlist) (source index : Nat) : Prop :=
  ∃ net ∈ netlist.sourcesAt index, net ∈ netlist.outputOf source

/-- No cell depends on itself, be it through other cells. -/
def Acyclic (netlist : Netlist) : Prop := ∀ index, ¬ Relation.TransGen netlist.Feeds index index

theorem mem_outputOf {net : Net} {index : Nat} : net ∈ netlist.outputOf index ↔
    ∃ c k, netlist.cell? index = some c ∧ k < c.outputWidth ∧ net = .slot (index + k) := by
  unfold outputOf
  cases netlist.cell? index with
  | none => simp
  | some c =>
    simp only [Bus.ofSlots, List.mem_map, List.mem_range'_1, Option.some.injEq, ↓existsAndEq, true_and]
    constructor
    · rintro ⟨slot, ⟨low, high⟩, rfl⟩
      exact ⟨slot - index, by omega, by congr 1; omega⟩
    · rintro ⟨k, inside, rfl⟩
      exact ⟨index + k, by omega, rfl⟩

theorem const_not_mem_outputOf {bit : Trit} {index : Nat} : .const bit ∉ netlist.outputOf index := by
  intro member
  obtain ⟨_, _, _, _, same⟩ := mem_outputOf.mp member
  cases same

section Outputs

variable (reached : netlist.Reached) {net : Net} {index : Nat}
include reached

theorem Reached.driver_of_mem_outputOf (member : net ∈ netlist.outputOf index) :
    ∃ offset, netlist.driver net = .ok (.cell index offset) := by
  obtain ⟨c, k, found, inside, rfl⟩ := mem_outputOf.mp member
  exact ⟨k, reached.driver_output found inside⟩

/-- Only one cell puts out a net. -/
theorem Reached.eq_of_mem_outputOf {other : Nat} (first : net ∈ netlist.outputOf index)
    (second : net ∈ netlist.outputOf other) : index = other := by
  obtain ⟨offset, driven⟩ := reached.driver_of_mem_outputOf first
  obtain ⟨offset', driven'⟩ := reached.driver_of_mem_outputOf second
  have same := Except.ok.inj (driven.symm.trans driven')
  exact (Driver.cell.inj same).1

end Outputs

theorem mem_sourcesAt {net : Net} {index : Nat} : net ∈ netlist.sourcesAt index ↔
    ∃ c, netlist.cell? index = some c ∧ net ∈ c.sources := by
  unfold sourcesAt
  cases netlist.cell? index <;> simp

theorem cell_lt {index : Nat} {c : Cell} (found : netlist.cell? index = some c) : index < netlist.slots.size :=
  (Array.getElem?_eq_some_iff.mp (cell?_eq_some_iff.mp found)).1

theorem Feeds.lt {source index : Nat} (feeds : netlist.Feeds source index) : source < netlist.slots.size := by
  obtain ⟨net, _, member⟩ := feeds
  obtain ⟨c, _, found, _⟩ := mem_outputOf.mp member
  exact cell_lt found

/-- A relation between finitely many numbers that never returns to a number comes to an end. -/
theorem wellFounded_of_no_loop {related : Nat → Nat → Prop} {size : Nat} (inside : ∀ a b, related a b → a < size)
    (no_loop : ∀ a, ¬ Relation.TransGen related a a) : WellFounded related := by
  have : IsTrans (Fin size) fun a b => Relation.TransGen related a b := ⟨fun _ _ _ => Relation.TransGen.trans⟩
  have : Std.Irrefl fun a b : Fin size => Relation.TransGen related a b := ⟨fun a => no_loop a⟩
  have finite : WellFounded fun a b : Fin size => Relation.TransGen related a b :=
    Finite.wellFounded_of_trans_of_irrefl _
  have reaches (a : Fin size) : Acc related a := by
    induction a using finite.induction with
    | _ a ih => exact ⟨_, fun b here => ih ⟨b, inside b a here⟩ (.single here)⟩
  exact ⟨fun a => ⟨_, fun b here => reaches ⟨b, inside b a here⟩⟩⟩

/-- A relation that only leads to greater numbers never returns to a number. -/
theorem no_loop_of_lt {related : Nat → Nat → Prop} (smaller : ∀ a b, related a b → a < b) (a : Nat) :
    ¬ Relation.TransGen related a a := by
  have path {a b : Nat} (h : Relation.TransGen related a b) : a < b := by
    induction h with
    | single here => exact smaller _ _ here
    | tail _ here ih => exact ih.trans (smaller _ _ here)
  exact fun loop => Nat.lt_irrefl a (path loop)

theorem Acyclic.wellFounded (acyclic : netlist.Acyclic) : WellFounded netlist.Feeds :=
  wellFounded_of_no_loop (fun _ _ feeds => feeds.lt) acyclic

/-- Each cell depends at once on constants and on smaller slots only. -/
def LooksBack (netlist : Netlist) : Prop :=
  ∀ entry ∈ netlist.cells, ∀ net ∈ entry.2.sources, net.isConst = true ∨ ∃ slot < entry.1, net = .slot slot

/-- A cell that depends on smaller slots only depends on smaller cells. -/
theorem Feeds.lt_index {source index : Nat} (feeds : netlist.Feeds source index)
    (back : ∀ c, netlist.cell? index = some c →
      ∀ net ∈ c.sources, net.isConst = true ∨ ∃ slot < index, net = .slot slot) : source < index := by
  obtain ⟨net, at_source, member⟩ := feeds
  obtain ⟨c, k, _, _, rfl⟩ := mem_outputOf.mp member
  obtain ⟨d, at_index, operand⟩ := mem_sourcesAt.mp at_source
  rcases back d at_index _ operand with constant | ⟨slot, before, same⟩
  · cases constant
  · have place := Net.slot.inj same
    omega

theorem acyclic_of_looksBack (back : netlist.LooksBack) : netlist.Acyclic :=
  no_loop_of_lt fun _ index feeds => feeds.lt_index fun c found => back (index, c) (mem_cells.mpr found)

section Tests

/-- Only applied cells have outputs. -/
theorem driven_iff {net : Net} : netlist.Driven net ↔
    net.isConst = true ∨ ∃ index < netlist.slots.size, net ∈ netlist.outputOf index := by
  unfold Driven
  refine or_congr ?_ ⟨?_, fun ⟨index, _, member⟩ => ⟨index, member⟩⟩
  · cases net <;> simp [Net.isConst, Net.const?]
  · rintro ⟨index, member⟩
    obtain ⟨c, _, found, _⟩ := mem_outputOf.mp member
    exact ⟨index, cell_lt found, member⟩

instance (net : Net) : Decidable (netlist.Driven net) := decidable_of_iff' _ driven_iff

theorem closed_iff : netlist.Closed ↔ ∀ entry ∈ netlist.cells, ∀ net ∈ entry.2.nets, netlist.Driven net :=
  ⟨fun closed entry member => closed entry.1 entry.2 (mem_cells.mp member),
    fun all index c found => all (index, c) (mem_cells.mpr found)⟩

instance : Decidable netlist.Closed := decidable_of_iff' _ closed_iff

theorem inputsAgree_iff : netlist.InputsAgree ↔ ∀ a ∈ netlist.cells, ∀ b ∈ netlist.cells,
    a.2.input?.map Prod.fst = b.2.input?.map Prod.fst → a.2.input? = b.2.input? := by
  constructor
  · rintro agree ⟨i, c⟩ at_c ⟨j, d⟩ at_d same
    cases c <;> cases d <;> simp only [Cell.input?, Option.map_some, Option.map_none, reduceCtorEq] at same ⊢
    cases same
    rw [agree i j _ _ _ (mem_cells.mp at_c) (mem_cells.mp at_d)]
  · intro all i j name v w at_i at_j
    have same := all (i, _) (mem_cells.mpr at_i) (j, _) (mem_cells.mpr at_j) rfl
    exact (Prod.mk.inj (Option.some.inj same)).2

instance : Decidable netlist.InputsAgree := decidable_of_iff' _ inputsAgree_iff

instance : Decidable netlist.LooksBack :=
  inferInstanceAs (Decidable (∀ entry ∈ netlist.cells, ∀ net ∈ entry.2.sources,
    net.isConst = true ∨ ∃ slot < entry.1, net = .slot slot))

end Tests

/-- A memory of two rows of one bit that is fed back: what is stored is the exclusive or of an input and of the bit
read last. The register of the read port breaks the loop. -/
def feedbackRevisions : List Revision :=
  [.edit (.add (.input "clock" 1)), .edit (.add (.input "addr" 1)), .edit (.add (.input "enable" 1)),
    .edit (.add (.input "data" 1)),
    .edit (.add (.memory
      { depth := 2
        width := 1
        init := [.zero, .unknown]
        attributes := []
        writePorts := [⟨[.slot 1], [.slot 5], [.slot 2], .high (.slot 0)⟩]
        readPorts := [⟨[.slot 1], 1, some ⟨.high (.slot 0), .high .one, [.zero], [.after]⟩⟩] })),
    .edit (.add (.gate .xor [.slot 3] [.slot 4])), .edit (.add (.output "q" [.slot 5])), .apply]

def feedback : Netlist := (Netlist.empty.reviseAll feedbackRevisions).toOption.getD .empty

/-- A run in which row 0 is written once. -/
def feedbackRun (data : Trit) : List Action :=
  [.set "addr" [.zero], .set "enable" [.one], .set "data" [data], .step]

theorem reached_feedback : feedback.Reached := ⟨feedbackRevisions, eq_ok_of_isOk (by decide +kernel) _⟩

theorem closed_feedback : feedback.Closed := by decide +kernel

theorem acyclic_feedback : feedback.Acyclic := acyclic_of_looksBack (by decide +kernel)

theorem inputsAgree_feedback : feedback.InputsAgree := by decide +kernel

theorem Closed.source (closed : netlist.Closed) {index : Nat} {source : Net}
    (member : source ∈ netlist.sourcesAt index) : netlist.Driven source := by
  obtain ⟨c, found, operand⟩ := mem_sourcesAt.mp member
  exact closed index c found source (c.sources_subset_nets operand)

/-- A memory needs no other nets in a cycle than its operands. -/
theorem mem_nets_of_neededBy {memory : Memory} {net : Net} (needed : net ∈ netlist.neededBy state memory) :
    net ∈ memory.nets := by
  rcases List.mem_append.mp needed with write | read
  · obtain ⟨port, at_port, write⟩ := List.mem_flatMap.mp write
    exact List.mem_append_left _ (List.mem_flatMap.mpr
      ⟨port, at_port, List.mem_append_left _ (mem_of_neededByWrite write)⟩)
  · obtain ⟨port, at_port, read⟩ := List.mem_flatMap.mp read
    obtain ⟨register, registered, operand⟩ := mem_of_neededByRead read
    refine List.mem_append_right _ (List.mem_flatMap.mpr ⟨port, at_port, ?_⟩)
    simp only [ReadPort.nets, registered, Register.nets, List.mem_append, List.mem_cons] at operand ⊢
    exact operand.elim (fun enable => Or.inr (Or.inr (Or.inl enable))) Or.inl

section Evaluation

variable (reached : netlist.Reached) (closed : netlist.Closed) (acyclic : netlist.Acyclic) (fits : state.Fits netlist)
include reached closed acyclic fits

/-- Every output bit of a cell carries a bit. The induction is on the cells that the cell depends on. -/
theorem live_output {index k : Nat} {c : Cell} (found : netlist.cell? index = some c) (inside : k < c.outputWidth) :
    netlist.Live state (.slot (index + k)) := by
  induction index using acyclic.wellFounded.induction generalizing k c with
  | _ index ih =>
    have live : ∀ source ∈ netlist.sourcesAt index, netlist.Live state source := by
      intro source member
      rcases closed.source member with ⟨bit, rfl⟩ | ⟨other, at_output⟩
      · exact ⟨bit, .const bit⟩
      · obtain ⟨d, j, at_other, inside', rfl⟩ := mem_outputOf.mp at_output
        exact ih other ⟨_, member, at_output⟩ at_other inside'
    have full := fits.length_outputBits found (reached.checked found) (netlist.valueIn state)
    rw [← outputUnder_of_cell found] at full
    exact ⟨_, .cell (netlist.valueIn state) (reached.driver_output found inside)
      (fun source member => (live source member).carries_valueIn fits.aligned)
      (List.getElem?_eq_getElem (full.symm ▸ inside))⟩

theorem live_of_driven {net : Net} (driven : netlist.Driven net) : netlist.Live state net := by
  rcases driven with ⟨bit, rfl⟩ | ⟨index, member⟩
  · exact ⟨bit, .const bit⟩
  · obtain ⟨c, k, found, inside, rfl⟩ := mem_outputOf.mp member
    exact live_output reached closed acyclic fits found inside

theorem read_of_driven {bus : Bus} (driven : ∀ net ∈ bus, netlist.Driven net) :
    netlist.read state bus = .ok (bus.map (netlist.valueIn state)) := by
  refine (read_eq_ok_iff fits.aligned).mpr (shows_map _ fun net member => ?_)
  exact (live_of_driven reached closed acyclic fits (driven net member)).carries_valueIn fits.aligned

/-- A clock cycle succeeds, under the bits that the nets carry before it. -/
theorem step_of_closed : netlist.step state = .ok (netlist.nextState (netlist.valueIn state) state) := by
  obtain ⟨next, done⟩ := (step_succeeds_iff fits.aligned).mpr fun net needed => by
    obtain ⟨index, memory, found, needed⟩ := mem_cycleNeeds.mp needed
    exact live_of_driven reached closed acyclic fits (closed index _ found net (mem_nets_of_neededBy needed))
  rw [done, step_eq fits.aligned done]

end Evaluation

end Netlist

end BankedMemory
