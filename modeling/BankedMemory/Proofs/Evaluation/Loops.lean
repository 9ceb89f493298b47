import BankedMemory.Proofs.Evaluation.Faults

/-!
# Searches and loops

The search for the bits on a bus enters fresh cells, uses settled ones and stops at busy ones. A search without any
bound on its depth is described by a finite tree, and there is such a tree for every search, so that the bound of the
evaluation is never met. In a closed netlist whose inputs agree, the search stops exactly if a cell that depends on
itself lies behind the bus, and it names such a cell.
-/

namespace BankedMemory

namespace Netlist

/-- What a search for some nets, one after the other, ends with. A fresh cell is entered and settled before its net is
looked at again. No depth is counted: a search that went on forever would have no result. -/
inductive Search (netlist : Netlist) (state : State) : List Net → Marks → Except Fault Marks → Prop where
  | done (marks : Marks) : Search netlist state [] marks (.ok marks)
  | constant {net : Net} {rest : List Net} {bit : Trit} {marks : Marks} {result : Except Fault Marks} :
      netlist.driver net = .ok (.const bit) → Search netlist state rest marks result →
      Search netlist state (net :: rest) marks result
  | undriven {net : Net} {rest : List Net} {marks : Marks} {cause : Fault} :
      netlist.driver net = .error cause → Search netlist state (net :: rest) marks (.error cause)
  | settled {net : Net} {rest : List Net} {index offset : Nat} {output : Array Trit} {marks : Marks}
      {result : Except Fault Marks} :
      netlist.driver net = .ok (.cell index offset) → marks.markAt index = .settled output → offset < output.size →
      Search netlist state rest marks result → Search netlist state (net :: rest) marks result
  | lacking {net : Net} {rest : List Net} {index offset : Nat} {output : Array Trit} {marks : Marks} :
      netlist.driver net = .ok (.cell index offset) → marks.markAt index = .settled output → output.size ≤ offset →
      Search netlist state (net :: rest) marks (.error .outOfRange)
  | busy {net : Net} {rest : List Net} {index offset : Nat} {marks : Marks} :
      netlist.driver net = .ok (.cell index offset) → marks.markAt index = .busy →
      Search netlist state (net :: rest) marks (.error (.combinationalLoop index))
  | failed {net : Net} {rest : List Net} {index offset : Nat} {marks : Marks} {cause : Fault} :
      netlist.driver net = .ok (.cell index offset) → marks.markAt index = .fresh →
      Search netlist state (netlist.sourcesAt index) (marks.setIfInBounds index .busy) (.error cause) →
      Search netlist state (net :: rest) marks (.error cause)
  | entered {net : Net} {rest : List Net} {index offset : Nat} {marks middle : Marks} {result : Except Fault Marks} :
      netlist.driver net = .ok (.cell index offset) → marks.markAt index = .fresh →
      Search netlist state (netlist.sourcesAt index) (marks.setIfInBounds index .busy) (.ok middle) →
      Search netlist state (net :: rest)
        (middle.setIfInBounds index (.settled (netlist.outputFrom state middle index).toArray)) result →
      Search netlist state (net :: rest) marks result

variable {netlist : Netlist} {state : State}

theorem settleCell_of_fresh {depth index : Nat} {marks : Marks} (fresh : marks.markAt index = .fresh) :
    netlist.settleCell state (depth + 1) index marks =
      ((netlist.sourcesAt index).foldlM (netlist.settleNet (netlist.settleCell state depth))
        (marks.setIfInBounds index .busy)).map fun middle =>
          middle.setIfInBounds index (.settled (netlist.outputFrom state middle index).toArray) := by
  simp only [settleCell, fresh]
  cases (netlist.sourcesAt index).foldlM (netlist.settleNet (netlist.settleCell state depth))
    (marks.setIfInBounds index .busy) <;> rfl

/-- After its cell is settled, the search for a net goes on to the nets behind it or ends there. -/
theorem search_settled {rest : List Net} {net : Net} {index offset : Nat} {output : Array Trit} {marks : Marks}
    {settle : Nat → Marks → Except Fault Marks} (at_driver : netlist.driver net = .ok (.cell index offset))
    (recorded : marks.markAt index = .settled output)
    (tail : Search netlist state rest marks (rest.foldlM (netlist.settleNet settle) marks)) :
    Search netlist state (net :: rest) marks
      ((if offset < (marks.outputAt index).size then Except.ok marks else .error .outOfRange) >>=
        rest.foldlM (netlist.settleNet settle)) := by
  have shown : marks.outputAt index = output := by simp only [Marks.outputAt, recorded]
  rw [shown]
  by_cases inside : offset < output.size
  · rw [if_pos inside]
    exact .settled at_driver recorded inside tail
  · rw [if_neg inside]
    exact .lacking at_driver recorded (Nat.le_of_not_lt inside)

section Reached

variable (reached : netlist.Reached)
include reached

/-- Settling is a search whose depth is never used up. The induction is on the depth, and at each depth on the nets. -/
theorem search_settleNets {depth : Nat} {nets : List Net} {marks : Marks} (sound : marks.Sound netlist state)
    (deep : netlist.slots.size < depth + marks.busySlots.card) :
    Search netlist state nets marks (nets.foldlM (netlist.settleNet (netlist.settleCell state depth)) marks) := by
  induction depth generalizing nets marks with
  | zero => exact absurd deep (Marks.not_deep_zero sound)
  | succ depth ih =>
    induction nets generalizing marks with
    | nil => exact .done marks
    | cons net rest later =>
      rw [List.foldlM_cons]
      cases at_driver : netlist.driver net with
      | error cause =>
        simp only [settleNet, at_driver, bind, Except.bind]
        exact .undriven at_driver
      | ok driver =>
        cases driver with
        | const bit =>
          simp only [settleNet, at_driver, bind, Except.bind]
          exact .constant at_driver (later sound deep)
        | cell index offset =>
          have here : netlist.settleNet (netlist.settleCell state (depth + 1)) marks net =
              netlist.settleCell state (depth + 1) index marks >>= fun after =>
                if offset < (after.outputAt index).size then Except.ok after else .error .outOfRange := by
            simp only [settleNet, at_driver, bind, Except.bind, pure, Except.pure]
          rw [here, bind_assoc]
          cases mark : marks.markAt index with
          | settled output =>
            have stays : netlist.settleCell state (depth + 1) index marks = .ok marks := by
              simp only [settleCell, mark]
            rw [stays]
            exact search_settled at_driver mark (later sound deep)
          | busy =>
            have stops : netlist.settleCell state (depth + 1) index marks = .error (.combinationalLoop index) := by
              simp only [settleCell, mark]
            rw [stops]
            exact .busy at_driver mark
          | fresh =>
            obtain ⟨c, found⟩ : ∃ c, netlist.cell? index = some c := by
              cases net with
              | const bit => cases at_driver
              | slot slot =>
                obtain ⟨c, found, _⟩ := reached.cell_of_driver at_driver
                exact ⟨c, found⟩
            have inside : index < marks.size := sound.size ▸ cell_lt found
            have entered_sound := mark_busy_sound sound inside
            have below := @ih (netlist.sourcesAt index) (marks.setIfInBounds index .busy) entered_sound (by
              rw [Marks.card_busySlots_set inside mark]
              omega)
            rw [settleCell_of_fresh mark]
            cases walked : (netlist.sourcesAt index).foldlM (netlist.settleNet (netlist.settleCell state depth))
                (marks.setIfInBounds index .busy) with
            | error cause =>
              rw [walked] at below
              exact .failed at_driver mark below
            | ok middle =>
              rw [walked] at below
              obtain ⟨middle_sound, keeps, known⟩ :=
                settleNets_sound (settleCell_sound depth) entered_sound walked
              have inside' := keeps.inside inside
              have kept := keeps.settle inside mark (netlist.outputFrom state middle index).toArray
              refine .entered at_driver mark below ?_
              exact search_settled at_driver (Marks.markAt_set_self _ _ _ inside')
                (later (record_sound middle_sound inside' known) (by rwa [kept.busySlots_eq]))

/-- Every search that starts with no cell busy comes to an end. -/
theorem search_settle {nets : List Net} {marks : Marks} (idle : marks.Idle netlist state) :
    Search netlist state nets marks (netlist.settle state nets marks) :=
  search_settleNets reached idle.sound (by omega)

end Reached

/-- A cell that depends on itself lies behind a net. -/
def LoopsBehind (netlist : Netlist) (net : Net) : Prop :=
  ∃ slot, Relation.TransGen netlist.Feeds slot slot ∧ netlist.Behind slot net

/-- What the evaluation of a bus comes to. -/
structure Verdict (netlist : Netlist) (state : State) (bus : Bus) : Prop where
  /-- The search for its nets comes to an end. -/
  ends : Search netlist state bus (Marks.initial netlist) (netlist.settle state bus (Marks.initial netlist))
  loops_iff : (∃ slot, netlist.read state bus = .error (.combinationalLoop slot)) ↔ ∃ net ∈ bus, netlist.LoopsBehind net
  returns_iff : (∃ word, netlist.read state bus = .ok word) ↔ ¬ ∃ net ∈ bus, netlist.LoopsBehind net
  /-- The cell that a fault names depends on itself, and lies behind the bus. -/
  named : ∀ slot, netlist.read state bus = .error (.combinationalLoop slot) →
    Relation.TransGen netlist.Feeds slot slot ∧ ∃ net ∈ bus, netlist.Behind slot net

/-- Nothing feeds a memory whose read ports all have registers. -/
theorem not_feeds_of_registers {index : Nat} {memory : Memory} (found : netlist.cell? index = some (.memory memory))
    (registered : ∀ port ∈ memory.readPorts, port.register.isSome) (source : Nat) : ¬ netlist.Feeds source index := by
  rintro ⟨net, member, _⟩
  rw [sourcesAt_of_cell found] at member
  obtain ⟨port, at_port, at_addr⟩ := List.mem_flatMap.mp member
  obtain ⟨register, held⟩ := Option.isSome_iff_exists.mp (registered port at_port)
  simp [held] at at_addr

section Closed

variable (reached : netlist.Reached) (closed : netlist.Closed)
include reached

/-- What drives a net with a bit depends on finitely many cells, one behind the other. -/
theorem acc_feeds_of_live {net : Net} (live : netlist.Live state net) {index : Nat}
    (at_output : net ∈ netlist.outputOf index) : Acc netlist.Feeds index := by
  obtain ⟨bit, carried⟩ := live
  have reaches := carried.acc
  induction reaches generalizing index bit with
  | intro net _ ih =>
    obtain ⟨offset, at_driver⟩ := reached.driver_of_mem_outputOf at_output
    constructor
    rintro below ⟨source, member, at_below⟩
    cases carried with
    | const bit => exact absurd at_output const_not_mem_outputOf
    | cell value at_driver' carried shown =>
      obtain ⟨rfl, rfl⟩ : _ = _ ∧ _ = _ := by simpa using at_driver.symm.trans at_driver'
      exact ih source ⟨index, offset, at_driver, member⟩ at_below _ (carried source member)

/-- A net with a bit has no loop behind it. -/
theorem not_loopsBehind_of_live {net : Net} (live : netlist.Live state net) : ¬ netlist.LoopsBehind net := by
  rintro ⟨slot, loop, index, at_output, path⟩
  have reaches : ∀ below, Relation.ReflTransGen netlist.Feeds below index → Acc netlist.Feeds below := by
    intro below path
    induction path using Relation.ReflTransGen.head_induction_on with
    | refl => exact acc_feeds_of_live reached live at_output
    | head feeds _ ih => exact ih.inv feeds
  exact not_rel_self_of_acc (reaches slot path).transGen loop

include closed

/-- A bus that cannot be read in a state that fits has a loop behind one of its nets. -/
theorem read_fault_of_fits (fits : state.Fits netlist) {bus : Bus} (driven : ∀ net ∈ bus, netlist.Driven net)
    {cause : Fault} (fault : netlist.read state bus = .error cause) :
    ∃ slot, cause = .combinationalLoop slot ∧ Relation.TransGen netlist.Feeds slot slot ∧
      ∃ net ∈ bus, netlist.Behind slot net := by
  have idle := Marks.idle_initial netlist state
  have unsettled : netlist.settle state bus (Marks.initial netlist) = .error cause := by
    cases settled : netlist.settle state bus (Marks.initial netlist) with
    | error other =>
      simp only [read, settled, bind, Except.bind] at fault
      exact congrArg Except.error (Except.error.inj fault)
    | ok after => simp [read, settled, bind, Except.bind, pure, Except.pure] at fault
  obtain ⟨net, member, middle, sound, keeps, at_net⟩ := settleNets_fault (settleCell_sound _) idle.sound unsettled
  have pursues := (idle.pursues net).keeps sound keeps
  rcases fault_cases reached closed (driven net member) pursues at_net with ⟨_, unfit⟩ | ⟨slot, named, loop, behind⟩
  · exact absurd fits unfit
  · exact ⟨slot, named, loop, net, member, behind⟩

/-- The evaluation of a bus ends with its word, or with a cell on a loop behind the bus. -/
theorem verdict_of_fits (fits : state.Fits netlist) {bus : Bus} (driven : ∀ net ∈ bus, netlist.Driven net) :
    netlist.Verdict state bus := by
  have clear : ∀ word, netlist.read state bus = .ok word → ¬ ∃ net ∈ bus, netlist.LoopsBehind net := by
    rintro word done ⟨net, member, loops⟩
    have live := ((read_eq_ok_iff fits.aligned).mp done).live net member
    exact not_loopsBehind_of_live reached live loops
  have fault : ∀ cause, netlist.read state bus = .error cause → ∃ slot, cause = .combinationalLoop slot ∧
      Relation.TransGen netlist.Feeds slot slot ∧ ∃ net ∈ bus, netlist.Behind slot net := fun cause =>
    read_fault_of_fits reached closed fits driven
  constructor
  case ends => exact search_settle reached (Marks.idle_initial netlist state)
  case named =>
    intro slot stopped
    obtain ⟨_, same, loop, behind⟩ := fault _ stopped
    cases same
    exact ⟨loop, behind⟩
  case loops_iff =>
    constructor
    · rintro ⟨slot, stopped⟩
      obtain ⟨slot', _, loop, net, member, behind⟩ := fault _ stopped
      exact ⟨net, member, slot', loop, behind⟩
    · intro loops
      cases result : netlist.read state bus with
      | ok word => exact absurd loops (clear word result)
      | error cause =>
        obtain ⟨slot, rfl, _⟩ := fault cause result
        exact ⟨slot, rfl⟩
  case returns_iff =>
    constructor
    · rintro ⟨word, done⟩
      exact clear word done
    · intro no_loop
      cases result : netlist.read state bus with
      | ok word => exact ⟨word, rfl⟩
      | error cause =>
        obtain ⟨slot, _, loop, net, member, behind⟩ := fault cause result
        exact absurd ⟨net, member, slot, loop, behind⟩ no_loop

/-- In every state of a run, evaluation ends, and tells exactly the buses behind which a cell depends on itself. A
memory all of whose read ports have registers is never such a cell. -/
theorem detects_loops (agree : netlist.InputsAgree) {actions : List Action}
    (run : netlist.performFromStart actions = .ok state) :
    (∀ bus, (∀ net ∈ bus, netlist.Driven net) → netlist.Verdict state bus) ∧
      ∀ index memory, netlist.cell? index = some (.memory memory) →
        (∀ port ∈ memory.readPorts, port.register.isSome) → ¬ Relation.TransGen netlist.Feeds index index := by
  have fits := fits_performFromStart agree (fun _ _ => reached.checked) run
  constructor
  · intro bus driven
    exact verdict_of_fits reached closed fits driven
  · intro index memory found registered loop
    obtain ⟨source, _, feeds⟩ := Relation.TransGen.tail'_iff.mp loop
    exact not_feeds_of_registers found registered source feeds

end Closed

/-- A memory of one bit that samples itself. -/
def ringMemory : Memory where
  depth := 1
  width := 1
  init := [.zero]
  attributes := []
  writePorts := [⟨[], [.slot 4], [.const .one], .high (.slot 0)⟩]
  readPorts := [⟨[], 1, some ⟨.high (.slot 0), .high .one, [.zero], [.after]⟩⟩]

/-- An inverter that is fed with its own output, beside a memory that stores the inverse of what was read from it
last. The register of the read port breaks the second loop. -/
def ringRevisions : List Revision :=
  [.edit (.add (.input "clock" 1)), .edit (.addPlaceholders 2), .edit (.add (.invert [.slot 1])),
    .edit (.add (.invert [.slot 2])), .edit (.add (.memory ringMemory)),
    .edit (.rewireBus [.slot 1, .slot 2] [.slot 3, .slot 5]), .apply]

def ring : Netlist := (Netlist.empty.reviseAll ringRevisions).toOption.getD .empty

/-- The loop of the inverter is found, and only there. -/
theorem ring_detects : ring.Reached ∧ ring.Closed ∧ ring.InputsAgree ∧
    ring.performFromStart [] = .ok (.initial ring) ∧ ring.LoopsBehind (.slot 3) ∧ ¬ ring.LoopsBehind (.slot 4) ∧
    ¬ Relation.TransGen ring.Feeds 5 5 := by
  have reached : ring.Reached := ⟨ringRevisions, eq_ok_of_isOk (by decide +kernel) _⟩
  have closed : ring.Closed := by decide +kernel
  have agree : ring.InputsAgree := by decide +kernel
  have start : ring.performFromStart [] = .ok (.initial ring) := by decide +kernel
  obtain ⟨verdict, unlooped⟩ := detects_loops reached closed agree start
  have stopped : ring.read (.initial ring) [.slot 3] = .error (.combinationalLoop 3) := by decide +kernel
  have shown : ring.read (.initial ring) [.slot 4] = .ok [.one] := by decide +kernel
  refine ⟨reached, closed, agree, start, ?_, ?_, ?_⟩
  · obtain ⟨net, member, loops⟩ := (verdict [.slot 3] (by decide +kernel)).loops_iff.mp ⟨3, stopped⟩
    rwa [List.mem_singleton.mp member] at loops
  · intro loops
    exact (verdict [.slot 4] (by decide +kernel)).returns_iff.mp ⟨_, shown⟩ ⟨_, List.mem_singleton_self _, loops⟩
  · exact unlooped 5 ringMemory (by decide +kernel) (by decide +kernel)

end Netlist

end BankedMemory
