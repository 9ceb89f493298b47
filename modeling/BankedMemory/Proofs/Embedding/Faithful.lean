import BankedMemory.Proofs.Embedding.Behaviour

/-!
# Netlists that nothing of weight is added to

What is added to a netlist may be neither a memory nor an input, and may drive none of the nets that were not driven
before: outputs, labels and placeholders. Then both netlists fail in the same runs, and all nets that the smaller one
has read the same, or fail to be read, after all others.
-/

namespace BankedMemory.Netlist

/-- At the new places there is just what there was before. All memories and inputs of the larger netlist are there. -/
structure Faithful (place : Nat → Nat) (small big : Netlist) : Prop where
  cells : ∀ index, big.cell? (place index) = (small.cell? index).map (Cell.map (Net.relocate place))
  drivers : ∀ slot index' offset, big.driver (.slot (place slot)) = .ok (.cell index' offset) ↔
    ∃ index, index' = place index ∧ small.driver (.slot slot) = .ok (.cell index offset)
  memories : ∀ index' m', big.cell? index' = some (.memory m') → ∃ index, place index = index'
  inputs : (State.initial big).inputs = (State.initial small).inputs

/-- The same words are on the inputs, and the same is held by the cells. -/
structure InStep (place : Nat → Nat) (small big : Netlist) (state state' : State) : Prop where
  aligned : state.Aligned small
  aligned' : state'.Aligned big
  inputs : state'.inputs = state.inputs
  contents : ∀ index c, small.cell? index = some c → state'.contentsAt (place index) = state.contentsAt index

variable {place : Nat → Nat} {small big : Netlist} {state state' : State}

theorem InStep.mirrored (inStep : InStep place small big state state') : Mirrored place small state state' :=
  ⟨fun _ _ _ _ => by rw [inStep.inputs], inStep.contents⟩

theorem Faithful.counterparts (faithful : Faithful place small big) : Counterparts place small big where
  cells index c found := by rw [faithful.cells, found, Option.map_some]
  drivers slot index offset driven := (faithful.drivers slot _ offset).mpr ⟨index, rfl, driven⟩

/-- A memory of the larger netlist is the counterpart of one of the smaller. -/
theorem Faithful.memory (faithful : Faithful place small big) {index' : Nat} {m' : Memory}
    (found' : big.cell? index' = some (.memory m')) : ∃ index m, place index = index' ∧
      small.cell? index = some (.memory m) ∧ m' = m.map (Net.relocate place) := by
  obtain ⟨index, rfl⟩ := faithful.memories index' m' found'
  rw [faithful.cells] at found'
  obtain ⟨c, found, moved⟩ := Option.map_eq_some_iff.mp found'
  cases c with
  | memory m => exact ⟨index, m, rfl, found, (Cell.memory.inj moved).symm⟩
  | _ => cases moved

/-- A net and its counterpart carry the same bit, or both carry nothing. -/
theorem Faithful.carries_iff (faithful : Faithful place small big) (inStep : InStep place small big state state')
    {net : Net} {bit : Trit} : big.Carries state' (net.relocate place) bit ↔ small.Carries state net bit := by
  have forward {net : Net} {bit : Trit} (h : small.Carries state net bit) :=
    faithful.counterparts.carries inStep.mirrored inStep.aligned inStep.aligned' h
  refine ⟨fun h => ?_, forward⟩
  generalize same : net.relocate place = net' at h
  induction h generalizing net with
  | const bit =>
    cases net with
    | const other =>
      cases same
      exact .const bit
    | slot slot => cases same
  | @cell slot' index' offset bit value driven' carried shown ih =>
    cases net with
    | const other => cases same
    | slot slot =>
      cases same
      obtain ⟨index, rfl, driven⟩ := (faithful.drivers slot index' offset).mp driven'
      obtain ⟨c', found'⟩ : ∃ c', big.cell? (place index) = some c' := by
        cases found' : big.cell? (place index) with
        | none => simp [outputUnder, found'] at shown
        | some c' => exact ⟨c', rfl⟩
      have counterpart := found'
      rw [faithful.cells] at counterpart
      obtain ⟨c, found, rfl⟩ := Option.map_eq_some_iff.mp counterpart
      rw [sourcesAt_of_cell found', Cell.sources_map] at ih carried
      have sources : ∀ source ∈ c.sources, small.Carries state source (value (source.relocate place)) :=
        fun source member => ih _ (List.mem_map_of_mem member) rfl
      refine .cell (value ∘ Net.relocate place) driven ?_ ?_
      · rwa [sourcesAt_of_cell found]
      · rw [outputUnder_of_cell found', inStep.mirrored.outputBits found] at shown
        rwa [outputUnder_of_cell found]

theorem Faithful.live_iff (faithful : Faithful place small big) (inStep : InStep place small big state state')
    {net : Net} : big.Live state' (net.relocate place) ↔ small.Live state net :=
  exists_congr fun _ => faithful.carries_iff inStep

theorem Faithful.valueIn (faithful : Faithful place small big) (inStep : InStep place small big state state') :
    big.valueIn state' ∘ Net.relocate place = small.valueIn state :=
  funext fun _ => valueIn_congr inStep.aligned' inStep.aligned fun _ => faithful.carries_iff inStep

/-- A bus and its counterpart read the same word, or fail to be read. -/
theorem Faithful.read_iff (faithful : Faithful place small big) (inStep : InStep place small big state state')
    {bus : Bus} {word : Bits} :
    big.read state' (bus.map (Net.relocate place)) = .ok word ↔ small.read state bus = .ok word := by
  rw [read_eq_ok_iff inStep.aligned, read_eq_ok_iff inStep.aligned', Shows, Shows, List.forall₂_map_left_iff]
  exact ⟨fun shown => shown.imp fun _ _ => (faithful.carries_iff inStep).mp,
    fun shown => shown.imp fun _ _ => (faithful.carries_iff inStep).mpr⟩

/-- The netlists start in step, or neither does start. -/
theorem Faithful.start (faithful : Faithful place small big) :
    Matches (InStep place small big) small.start big.start := by
  refine .of_ok_iff ?_ fun start start' started started' => ?_
  · rw [start_succeeds_iff, start_succeeds_iff]
    constructor
    · intro fits index' m' found'
      obtain ⟨index, m, _, found, rfl⟩ := faithful.memory found'
      exact fits index m found
    · intro fits index m found
      exact fits (place index) (m.map (Net.relocate place)) (faithful.counterparts.cells index _ found)
  · rw [start_eq started, start_eq started']
    refine ⟨State.aligned_initial _, State.aligned_initial _, faithful.inputs, fun index c found => ?_⟩
    rw [State.contentsAt_initial, State.contentsAt_initial, found, faithful.counterparts.cells index c found]
    cases c with
    | memory m => exact congrArg some m.initialContents_map
    | _ => rfl

theorem InStep.setInput (inStep : InStep place small big state state') (name : String) (word : Bits) :
    Matches (InStep place small big) (state.setInput name word) (state'.setInput name word) := by
  have known := inStep.inputs
  refine .of_ok_iff ?_ fun next next' done done' => ?_
  · unfold State.setInput
    rw [known]
    cases state.inputs.get? name with
    | none => simp
    | some old => by_cases width : old.length = word.length <;> simp [width]
  · refine ⟨State.aligned_setInput inStep.aligned done, State.aligned_setInput inStep.aligned' done', ?_,
      (inStep.mirrored.setInput done done').contents⟩
    rw [State.inputs_setInput done, State.inputs_setInput done', known]

/-- What a cycle needs is the same, up to the places of nets. -/
theorem Faithful.ready_iff (faithful : Faithful place small big) (inStep : InStep place small big state state') :
    (∀ net ∈ small.cycleNeeds state, small.Live state net) ↔
      ∀ net ∈ big.cycleNeeds state', big.Live state' net := by
  have needs (m : Memory) := neededBy_map (Net.isConst_relocate place) (faithful.valueIn inStep) m
  constructor
  · intro ready net' member
    obtain ⟨index', m', found', needed⟩ := mem_cycleNeeds.mp member
    obtain ⟨index, m, _, found, rfl⟩ := faithful.memory found'
    rw [needs] at needed
    obtain ⟨net, needed_here, rfl⟩ := List.mem_map.mp needed
    exact (faithful.live_iff inStep).mpr (ready net (mem_cycleNeeds.mpr ⟨index, m, found, needed_here⟩))
  · intro ready net member
    obtain ⟨index, m, found, needed⟩ := mem_cycleNeeds.mp member
    refine (faithful.live_iff inStep).mp (ready _ (mem_cycleNeeds.mpr ⟨_, _, faithful.counterparts.cells index _ found, ?_⟩))
    rw [needs]
    exact List.mem_map_of_mem needed

theorem Faithful.step (faithful : Faithful place small big) (inStep : InStep place small big state state') :
    Matches (InStep place small big) (small.step state) (big.step state') := by
  refine .of_ok_iff ?_ fun next next' done done' => ?_
  · rw [step_succeeds_iff inStep.aligned, step_succeeds_iff inStep.aligned', faithful.ready_iff inStep]
  · have mirrored := faithful.counterparts.mirrored_step inStep.mirrored inStep.aligned inStep.aligned' done done'
    refine ⟨aligned_step inStep.aligned done, aligned_step inStep.aligned' done', ?_, mirrored.contents⟩
    rw [step_eq inStep.aligned done, step_eq inStep.aligned' done']
    exact inStep.inputs

/-- Both netlists fail in the same runs, and are in step after all others. -/
theorem Faithful.performFromStart (faithful : Faithful place small big) (actions : List Action) :
    Matches (InStep place small big) (small.performFromStart actions) (big.performFromStart actions) := by
  refine faithful.start.bind fun start start' inStep => ?_
  refine perform_matches (fun state state' action inStep => ?_) actions inStep
  cases action with
  | set name word => exact inStep.setInput name word
  | step => exact faithful.step inStep

end BankedMemory.Netlist
