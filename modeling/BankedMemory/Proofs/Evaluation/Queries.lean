import BankedMemory.Proofs.Evaluation.Acyclic

/-!
# Many queries in one evaluation

An evaluation may be asked for one bus after another, and keeps the cells that it has settled. In a closed netlist
without combinational loops every query has an answer, which is the same as if it had come first, and every cell that
gets settled records a word of its width.
-/

namespace BankedMemory

namespace Netlist

/-- The words on buses that are read one after the other in one evaluation, with the marks that this leaves. -/
def readAll (netlist : Netlist) (state : State) : List Bus → Marks → Except Fault (List Bits × Marks)
  | [], marks => .ok ([], marks)
  | bus :: rest, marks => do
    let marks ← netlist.settle state bus marks
    let (words, later) ← netlist.readAll state rest marks
    return (bus.map (marks.value netlist) :: words, later)

/-- The word that a cell puts out. -/
def evaluate (netlist : Netlist) (state : State) (index : Nat) : Except Fault Bits := do
  let marks ← netlist.settleCell state (netlist.slots.size + 1) index (Marks.initial netlist)
  return (marks.outputAt index).toList

variable {netlist : Netlist} {state : State}

/-- What settling a cell records is the output of the cell. -/
theorem settleCell_records (aligned : state.Aligned netlist) {depth index : Nat} {marks after : Marks}
    (sound : marks.Sound netlist state) (done : netlist.settleCell state depth index marks = .ok after)
    (inside : index < marks.size) :
    after.markAt index = .settled (netlist.outputUnder (netlist.valueIn state) state index).toArray := by
  obtain ⟨after_sound, _⟩ := settleCell_sound depth index marks after sound done
  obtain ⟨output, recorded⟩ := exists_settled sound inside done
  obtain ⟨value, carried, output_eq⟩ := after_sound.settled index output recorded
  have agree : ∀ source ∈ netlist.sourcesAt index, value source = netlist.valueIn state source :=
    fun source member => ((carried source member).valueIn_eq aligned).symm
  rw [recorded, output_eq, outputUnder_congr aligned agree]

/-- A cell whose sources carry bits, and do not need the cell itself, can be settled. -/
theorem settleCell_of_live (aligned : state.Aligned netlist) {index : Nat} {marks : Marks}
    (idle : marks.Idle netlist state) (inside : index < netlist.slots.size)
    (live : ∀ source ∈ netlist.sourcesAt index, netlist.Live state source)
    (free : ∀ source ∈ netlist.sourcesAt index, ¬ netlist.Needs source index) :
    ∃ after, netlist.settleCell state (netlist.slots.size + 1) index marks = .ok after := by
  refine settleCell_progress idle.sound (idle.sound.size ▸ inside) (idle.still index)
    (fun source _ => idle.admits source) free fun source member marks admits => ?_
  obtain ⟨bit, carried⟩ := live source member
  exact carried.settleNet_progress aligned _ marks admits

/-- A settled cell has recorded a word of its width. -/
theorem size_of_settled (reached : netlist.Reached) (fits : state.Fits netlist) {marks : Marks}
    (sound : marks.Sound netlist state) {index : Nat} {c : Cell} (found : netlist.cell? index = some c)
    {output : Array Trit} (settled : marks.markAt index = .settled output) : output.size = c.outputWidth := by
  obtain ⟨value, _, rfl⟩ := sound.settled index output settled
  rw [List.size_toArray, outputUnder_of_cell found, fits.length_outputBits found (reached.checked found)]

section Feeding

variable (reached : netlist.Reached) (closed : netlist.Closed)
include reached

theorem mem_outputOf_of_driver {net : Net} (driven : netlist.Driven net) {index offset : Nat}
    (at_net : netlist.driver net = .ok (.cell index offset)) : net ∈ netlist.outputOf index := by
  rcases driven with ⟨bit, rfl⟩ | ⟨other, member⟩
  · cases at_net
  · obtain ⟨c, k, found, inside, rfl⟩ := mem_outputOf.mp member
    have same := (reached.driver_output found inside).symm.trans at_net
    cases same
    exact member

include closed

/-- Nets that depend on each other are driven by cells that feed each other. -/
theorem feeds_of_dependsOn {net other : Net} (path : Relation.TransGen netlist.DependsOn net other)
    {i j k l : Nat} (at_net : netlist.driver net = .ok (.cell i k))
    (at_other : netlist.driver other = .ok (.cell j l)) : Relation.TransGen netlist.Feeds i j := by
  induction path generalizing j l with
  | single depends =>
    obtain ⟨j', l', at_other', member⟩ := depends
    cases at_other.symm.trans at_other'
    exact .single ⟨net, member, mem_outputOf_of_driver reached (closed.source member) at_net⟩
  | @tail middle other path depends ih =>
    obtain ⟨j', l', at_other', member⟩ := depends
    cases at_other.symm.trans at_other'
    -- the middle net depends on something, and so is no constant
    obtain ⟨m, n, at_middle⟩ : ∃ m n, netlist.driver middle = .ok (.cell m n) := by
      cases path with
      | single depends => exact ⟨_, _, depends.choose_spec.choose_spec.1⟩
      | tail _ depends => exact ⟨_, _, depends.choose_spec.choose_spec.1⟩
    exact (ih at_middle).tail ⟨middle, member, mem_outputOf_of_driver reached (closed.source member) at_middle⟩

/-- The sources of a cell do not need the cell itself. -/
theorem Acyclic.source_not_needs (acyclic : netlist.Acyclic) {index : Nat} {c : Cell}
    (found : netlist.cell? index = some c) {source : Net} (member : source ∈ netlist.sourcesAt index) :
    ¬ netlist.Needs source index := by
  rintro ⟨other, offset, path, at_other⟩
  have at_cell := (driver_of_cell found).2
  have loop : Relation.TransGen netlist.DependsOn other (.slot index) :=
    Relation.TransGen.tail' path ⟨index, 0, at_cell, member⟩
  exact acyclic index (feeds_of_dependsOn reached closed loop at_other at_cell)

end Feeding

section Answers

variable (reached : netlist.Reached) (closed : netlist.Closed) (acyclic : netlist.Acyclic) (fits : state.Fits netlist)
include reached closed acyclic fits

theorem evaluate_of_cell {index : Nat} {c : Cell} (found : netlist.cell? index = some c) :
    netlist.evaluate state index = .ok (netlist.outputUnder (netlist.valueIn state) state index) := by
  have idle := Marks.idle_initial netlist state
  have inside := cell_lt found
  obtain ⟨after, done⟩ := settleCell_of_live fits.aligned idle inside
    (fun source member => live_of_driven reached closed acyclic fits (closed.source member))
    (fun source member => acyclic.source_not_needs reached closed found member)
  have recorded := settleCell_records fits.aligned idle.sound done (idle.sound.size ▸ inside)
  simp [evaluate, done, bind, Except.bind, pure, Except.pure, Marks.outputAt, recorded]

/-- All queries of an evaluation have answers, whatever it has settled before. -/
theorem readAll_of_driven {buses : List Bus} (driven : ∀ bus ∈ buses, ∀ net ∈ bus, netlist.Driven net) {marks : Marks}
    (idle : marks.Idle netlist state) :
    ∃ after, netlist.readAll state buses marks = .ok (buses.map (·.map (netlist.valueIn state)), after) ∧
      after.Idle netlist state := by
  induction buses generalizing marks with
  | nil => exact ⟨marks, rfl, idle⟩
  | cons bus rest ih =>
    obtain ⟨middle, settled⟩ := (settle_succeeds_iff fits.aligned idle).mpr fun net member =>
      live_of_driven reached closed acyclic fits (driven bus List.mem_cons_self net member)
    obtain ⟨middle_idle, _, known⟩ := settle_sound idle settled
    have word : bus.map (middle.value netlist) = bus.map (netlist.valueIn state) :=
      List.map_congr_left fun net member => value_eq_valueIn fits.aligned middle_idle (known net member)
    obtain ⟨after, later, after_idle⟩ :=
      ih (fun other member => driven other (List.mem_cons_of_mem bus member)) middle_idle
    refine ⟨after, ?_, after_idle⟩
    simp only [readAll, settled, later, word, bind, Except.bind, pure, Except.pure, List.map_cons]

end Answers

end Netlist

end BankedMemory
