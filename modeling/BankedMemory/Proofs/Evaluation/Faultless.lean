import BankedMemory.Proofs.Evaluation.Queries

/-!
# Runs without faults

A closed netlist without combinational loops answers everything that it is asked in the course of a run, with words of
the right widths, exactly if its inputs of one name are equally wide. Inputs of one name share one word, whose width
is that of the last of them; an input that is wider has output bits that the word does not have.
-/

namespace BankedMemory

namespace Netlist

/-- Whatever a state is asked for, there is an answer of the right width. -/
structure Answers (netlist : Netlist) (state : State) : Prop where
  read : ∀ bus, (∀ net ∈ bus, netlist.Driven net) →
    ∃ word, netlist.read state bus = .ok word ∧ word.length = bus.length
  readOutput : ∀ index name bus, netlist.cell? index = some (.output name bus) →
    ∃ first bus word, netlist.cell? first = some (.output name bus) ∧
      netlist.readOutput state name = .ok word ∧ word.length = bus.length
  evaluate : ∀ index c, netlist.cell? index = some c →
    ∃ word, netlist.evaluate state index = .ok word ∧ word.length = c.outputWidth
  /-- Also in one evaluation, in which every cell that gets settled records a word of its width. -/
  readAll : ∀ buses, (∀ bus ∈ buses, ∀ net ∈ bus, netlist.Driven net) →
    ∃ words marks, netlist.readAll state buses (Marks.initial netlist) = .ok (words, marks) ∧
      words.map List.length = buses.map List.length ∧
      ∀ index c output, netlist.cell? index = some c → Marks.markAt marks index = .settled output →
        output.size = c.outputWidth
  step : ∃ next, netlist.step state = .ok next

variable {netlist : Netlist} {state : State}

/-- Reading a name is reading the bus of the first output of that name. -/
theorem readOutput_eq (state : State) {index : Nat} {name : String} {bus : Bus}
    (found : netlist.cell? index = some (.output name bus)) :
    ∃ first bus, netlist.cell? first = some (.output name bus) ∧
      netlist.readOutput state name = netlist.read state bus := by
  unfold readOutput
  cases search : netlist.cells.findSome? _ with
  | none =>
    have none_named := List.findSome?_eq_none_iff.mp search (index, .output name bus) (mem_cells.mpr found)
    simp at none_named
  | some bus' =>
    obtain ⟨⟨first, c⟩, member, named⟩ := List.exists_of_findSome?_eq_some search
    refine ⟨first, bus', ?_, rfl⟩
    cases c with
    | output other bus'' =>
      simp only [Option.ite_none_right_eq_some, Option.some.injEq] at named
      obtain ⟨rfl, rfl⟩ := named
      exact mem_cells.mp member
    | _ => cases named

section Answers

variable (reached : netlist.Reached) (closed : netlist.Closed) (acyclic : netlist.Acyclic)
include reached closed acyclic

theorem answers_of_fits (fits : state.Fits netlist) : netlist.Answers state where
  read bus driven := ⟨_, read_of_driven reached closed acyclic fits driven, List.length_map _⟩
  readOutput index name bus found := by
    obtain ⟨first, bus', at_first, same⟩ := readOutput_eq state found
    have driven := closed first _ at_first
    exact ⟨first, bus', _, at_first, same.trans (read_of_driven reached closed acyclic fits driven), List.length_map _⟩
  evaluate index c found := by
    refine ⟨_, evaluate_of_cell reached closed acyclic fits found, ?_⟩
    rw [outputUnder_of_cell found]
    exact fits.length_outputBits found (reached.checked found) _
  readAll buses driven := by
    obtain ⟨marks, done, idle⟩ :=
      readAll_of_driven reached closed acyclic fits driven (Marks.idle_initial netlist state)
    refine ⟨_, marks, done, ?_, fun index c output found settled => ?_⟩
    · rw [List.map_map]
      exact List.map_congr_left fun bus _ => List.length_map _
    · exact size_of_settled reached fits idle.sound found settled
  step := ⟨_, step_of_closed reached closed acyclic fits⟩

/-- A run in which inputs are set to words of their widths succeeds, and all its states fit. -/
theorem perform_of_fits (fits : state.Fits netlist) {actions : List Action}
    (suited : ∀ action ∈ actions, action.Fits state) :
    ∃ last, netlist.perform actions state = .ok last ∧ last.Fits netlist := by
  have on_step (state : State) (fits : state.Fits netlist) :
      ∃ next, netlist.step state = .ok next ∧ next.Fits netlist :=
    ⟨_, step_of_closed reached closed acyclic fits, fits.nextState (fun _ _ => reached.checked) _⟩
  -- the fit is all that is followed, by a machine without a state
  obtain ⟨last, performed, _, last_fits⟩ := @perform_follows netlist state Unit (fun state _ => state.Fits netlist)
    (fun _ => True) (fun _ machine => machine) (fun _ _ _ _ _ fits done => fits.setInput done)
    (fun state _ _ fits _ => on_step state fits) actions fits.aligned () fits suited (fun _ _ => trivial)
  exact ⟨last, performed, last_fits⟩

omit reached closed acyclic in
/-- Inputs of one name put out one word. -/
theorem evaluate_input {i j : Nat} {name : String} {v w : Nat} {word other : Bits}
    (at_i : netlist.cell? i = some (.input name v)) (at_j : netlist.cell? j = some (.input name w))
    (aligned : state.Aligned netlist)
    (first : netlist.evaluate state i = .ok word) (second : netlist.evaluate state j = .ok other) : word = other := by
  have put_out {index width : Nat} {word : Bits} (found : netlist.cell? index = some (.input name width))
      (done : netlist.evaluate state index = .ok word) : word = (state.inputs.get? name).getD [] := by
    obtain ⟨after, settled, same⟩ := Storage.Build.except_bind_eq_ok.mp done
    have idle := Marks.idle_initial netlist state
    have recorded := settleCell_records aligned idle.sound settled (idle.sound.size ▸ cell_lt found)
    cases same
    simp [Marks.outputAt, recorded, outputUnder_of_cell found, Cell.outputBits]
  rw [put_out at_i first, put_out at_j second]

/-- All runs answer everything, exactly if inputs of one name are equally wide. -/
theorem answers_iff_inputsAgree {start : State} (started : netlist.start = .ok start) :
    (∀ actions, (∀ action ∈ actions, action.Fits start) →
      ∃ last, netlist.perform actions start = .ok last ∧ netlist.Answers last) ↔ netlist.InputsAgree := by
  rw [start_eq started]
  constructor
  · intro answered i j name v w at_i at_j
    obtain ⟨last, same, answers⟩ := answered [] (by simp)
    cases same
    obtain ⟨word, first, width⟩ := answers.evaluate i _ at_i
    obtain ⟨other, second, width'⟩ := answers.evaluate j _ at_j
    have shared := evaluate_input at_i at_j (State.aligned_initial netlist) first second
    have : v = other.length := shared ▸ width.symm
    exact this.trans width'
  · intro agree actions suited
    have fits := State.fits_initial agree fun _ _ => reached.checked
    obtain ⟨last, performed, last_fits⟩ := perform_of_fits reached closed acyclic fits suited
    exact ⟨last, performed, answers_of_fits reached closed acyclic last_fits⟩

end Answers

theorem feedback_answers : feedback.Reached ∧ feedback.Closed ∧ feedback.Acyclic ∧
    feedback.start = .ok (.initial feedback) ∧ feedback.InputsAgree ∧
    ∀ actions, (∀ action ∈ actions, action.Fits (.initial feedback)) →
      ∃ last, feedback.perform actions (.initial feedback) = .ok last ∧ feedback.Answers last := by
  have started : feedback.start = .ok (.initial feedback) := by decide +kernel
  exact ⟨reached_feedback, closed_feedback, acyclic_feedback, started, inputsAgree_feedback,
    (answers_iff_inputsAgree reached_feedback closed_feedback acyclic_feedback started).mpr inputsAgree_feedback⟩

/-- Two inputs of one name, of which the wider one comes first. -/
def clash : Netlist :=
  (Netlist.empty.reviseAll [.edit (.add (.input "a" 2)), .edit (.add (.input "a" 1)), .apply]).toOption.getD .empty

/-- The second output bit of the wider input is driven, and yet cannot be read: the word is as wide as the narrower
input, and setting it to a word of two bits is refused. -/
theorem clash_faults : clash.Reached ∧ clash.Closed ∧ clash.Acyclic ∧ clash.start = .ok (.initial clash) ∧
    (∀ net ∈ clash.outputOf 0, clash.Driven net) ∧
    clash.read (.initial clash) (clash.outputOf 0) = .error .outOfRange :=
  ⟨⟨[.edit (.add (.input "a" 2)), .edit (.add (.input "a" 1)), .apply], eq_ok_of_isOk (by decide +kernel) _⟩,
    by decide +kernel, acyclic_of_looksBack (by decide +kernel), by decide +kernel, by decide +kernel,
    by decide +kernel⟩

end Netlist

end BankedMemory
