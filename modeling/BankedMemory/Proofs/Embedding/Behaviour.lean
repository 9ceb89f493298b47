import BankedMemory.Proofs.Evaluation.Fitting
import BankedMemory.Proofs.Construction.Revisions

/-!
# Netlists inside larger netlists

A netlist is embedded in another one if each of its cells has a counterpart there with the same operands, once all
slots have been moved to their new places. The larger netlist may hold anything else in between. What is added never
changes what the counterparts do: they carry the bits and hold the rows that the cells do, in every run of both.
-/

namespace BankedMemory

/-- The net at a place to which its slot has moved. Constants stay. -/
def Net.relocate (place : Nat → Nat) : Net → Net
  | const bit => const bit
  | slot index => slot (place index)

theorem Net.isConst_relocate (place : Nat → Nat) (net : Net) : (net.relocate place).isConst = net.isConst := by
  cases net <;> rfl

namespace Netlist

/-- Each cell has a counterpart with the same operands at their new places, which drives the nets at the new places of
those that the cell drives. -/
structure Counterparts (place : Nat → Nat) (small big : Netlist) : Prop where
  cells : ∀ index c, small.cell? index = some c → big.cell? (place index) = some (c.map (Net.relocate place))
  drivers : ∀ slot index offset, small.driver (.slot slot) = .ok (.cell index offset) →
    big.driver (.slot (place slot)) = .ok (.cell (place index) offset)

/-- Each cell has a counterpart with the same operands at their new places, and with its output bits in order. No two
cells need to keep apart. -/
structure Embedded (place : Nat → Nat) (small big : Netlist) : Prop where
  cells : ∀ index c, small.cell? index = some c → big.cell? (place index) = some (c.map (Net.relocate place))
  outputs : ∀ index c offset, small.cell? index = some c → offset < c.outputWidth →
    place (index + offset) = place index + offset
  /-- Inputs of one name share one word, and are equally wide. -/
  inputs : big.InputsAgree

/-- Whether some input has this name. -/
def hasInput (netlist : Netlist) (name : String) : Bool :=
  netlist.cells.any fun entry => entry.2.input?.any fun input => input.1 = name

/-- Whether an action is one on this netlist: a step of the clock, or the setting of one of its inputs. -/
def concerns (netlist : Netlist) : Action → Bool
  | .set name _ => netlist.hasInput name
  | .step => true

theorem hasInput_iff {netlist : Netlist} {name : String} :
    netlist.hasInput name = true ↔ ∃ index width, netlist.cell? index = some (.input name width) := by
  unfold hasInput
  rw [List.any_eq_true]
  constructor
  · rintro ⟨⟨index, c⟩, member, named⟩
    cases c with
    | input other width =>
      obtain rfl : other = name := by simpa [Cell.input?] using named
      exact ⟨index, width, mem_cells.mp member⟩
    | _ => simp [Cell.input?] at named
  · rintro ⟨index, width, found⟩
    exact ⟨(index, .input name width), mem_cells.mpr found, by simp [Cell.input?]⟩

/-- The words on the inputs of a netlist and what its cells hold are found in a state of the larger one. -/
structure Mirrored (place : Nat → Nat) (small : Netlist) (state state' : State) : Prop where
  inputs : ∀ index name width, small.cell? index = some (.input name width) →
    state'.inputs.get? name = state.inputs.get? name
  contents : ∀ index c, small.cell? index = some c → state'.contentsAt (place index) = state.contentsAt index

variable {place : Nat → Nat} {small big : Netlist} {state state' : State}

/-- Inputs of one name are equally wide in the smaller netlist as well. -/
theorem Embedded.inputs_small (embedded : Embedded place small big) : small.InputsAgree :=
  fun i j name v w at_i at_j =>
    embedded.inputs (place i) (place j) name v w (embedded.cells i _ at_i) (embedded.cells j _ at_j)

theorem Embedded.mirrored_initial (embedded : Embedded place small big) :
    Mirrored place small (State.initial small) (State.initial big) where
  inputs index name width found := by
    rw [State.get?_initial embedded.inputs (embedded.cells index _ found),
      State.get?_initial embedded.inputs_small found]
  contents index c found := by
    rw [State.contentsAt_initial, State.contentsAt_initial, found, embedded.cells index c found]
    cases c with
    | memory m => exact congrArg some m.initialContents_map
    | _ => rfl

/-- A counterpart puts out what its cell does. -/
theorem Mirrored.outputBits (mirrored : Mirrored place small state state') {index : Nat} {c : Cell}
    (found : small.cell? index = some c) (value : Net → Trit) :
    (c.map (Net.relocate place)).outputBits value state'.inputs (state'.contentsAt (place index)) =
      c.outputBits (value ∘ Net.relocate place) state.inputs (state.contentsAt index) := by
  rw [Cell.outputBits_map]
  cases c with
  | memory m =>
    rw [mirrored.contents index _ found]
    rfl
  | input name width => simp [Cell.outputBits, mirrored.inputs index name width found]
  | _ => rfl

/-- In netlists that are reached, whole cells have moved. -/
theorem Embedded.counterparts (embedded : Embedded place small big) (reached : small.Reached)
    (reached' : big.Reached) : Counterparts place small big where
  cells := embedded.cells
  drivers slot index offset driven := by
    obtain ⟨c, found, rfl, inside⟩ := reached.cell_of_driver driven
    have counterpart := embedded.cells index c found
    rcases inside with rfl | inside
    · exact (driver_of_cell counterpart).2
    · rw [embedded.outputs index c offset found inside]
      exact reached'.driver_output counterpart (by rwa [Cell.outputWidth_map])

section Counterparts

variable (counterparts : Counterparts place small big)
include counterparts

variable (mirrored : Mirrored place small state state') (aligned : state.Aligned small) (aligned' : state'.Aligned big)
include mirrored aligned aligned'

/-- The bit on a net is on its counterpart as well. -/
theorem Counterparts.carries {net : Net} {bit : Trit} (h : small.Carries state net bit) :
    big.Carries state' (net.relocate place) bit := by
  induction h with
  | const bit => exact .const bit
  | @cell slot index offset bit value driven carried shown ih =>
    obtain ⟨c, found⟩ : ∃ c, small.cell? index = some c := by
      cases found : small.cell? index with
      | none => simp [outputUnder, found] at shown
      | some c => exact ⟨c, rfl⟩
    have counterpart := counterparts.cells index c found
    rw [sourcesAt_of_cell found] at ih
    have same : ∀ source ∈ c.sources, big.valueIn state' (source.relocate place) = value source :=
      fun source member => (ih source member).valueIn_eq aligned'
    refine .cell (big.valueIn state') (counterparts.drivers slot index offset driven) ?_ ?_
    · rw [sourcesAt_of_cell counterpart, Cell.sources_map]
      intro source' member
      obtain ⟨source, at_cell, rfl⟩ := List.mem_map.mp member
      rw [same source at_cell]
      exact ih source at_cell
    · rw [outputUnder_of_cell counterpart, mirrored.outputBits found, ← outputUnder_of_cell found,
        outputUnder_congr aligned (w := value), shown]
      rwa [sourcesAt_of_cell found]

theorem Counterparts.read {bus : Bus} {word : Bits} (read : small.read state bus = .ok word) :
    big.read state' (bus.map (Net.relocate place)) = .ok word := by
  rw [read_eq_ok_iff aligned] at read
  rw [read_eq_ok_iff aligned', Shows, List.forall₂_map_left_iff]
  exact read.imp fun net bit => counterparts.carries mirrored aligned aligned'

/-- A clock cycle that succeeds does to a memory what it does to its counterpart. -/
theorem Counterparts.mirrored_step {next next' : State} (done : small.step state = .ok next)
    (done' : big.step state' = .ok next') : Mirrored place small next next' := by
  have live := (step_succeeds_iff aligned).mp ⟨next, done⟩
  rw [step_eq aligned done, step_eq aligned' done']
  refine ⟨mirrored.inputs, fun index c found => ?_⟩
  have before := mirrored.contents index c found
  have counterpart := counterparts.cells index c found
  by_cases memory : ∃ m, c = .memory m
  · obtain ⟨m, rfl⟩ := memory
    rw [contentsAt_nextState_eq_map _ found, contentsAt_nextState_eq_map _ counterpart, before]
    have agree : ∀ net ∈ small.neededBy state m,
        (big.valueIn state' ∘ Net.relocate place) net = small.valueIn state net := by
      intro net needed
      have carried := (live net (mem_cycleNeeds.mpr ⟨index, m, found, needed⟩)).carries_valueIn aligned
      exact (counterparts.carries mirrored aligned aligned' carried).valueIn_eq aligned'
    refine congrArg (fun next => (state.contentsAt index).map next) (funext fun contents => ?_)
    rw [Memory.nextContents_map (Net.isConst_relocate place), Memory.nextContents_congr m agree]
  · rw [contentsAt_nextState_of_other, contentsAt_nextState_of_other, before]
    · intro m same
      exact memory ⟨m, Option.some.inj (found.symm.trans same)⟩
    · intro m same
      have moved : c.map (Net.relocate place) = .memory m := Option.some.inj (counterpart.symm.trans same)
      cases c with
      | memory n => exact memory ⟨n, rfl⟩
      | _ => cases moved

end Counterparts

/-- Setting an input that the smaller netlist does not have changes nothing of it. -/
theorem Mirrored.setInput_big (mirrored : Mirrored place small state state') {name : String} {word : Bits}
    {next' : State} (foreign : small.hasInput name = false) (done' : state'.setInput name word = .ok next') :
    Mirrored place small state next' where
  inputs index other width found := by
    have different : other ≠ name := by
      rintro rfl
      rw [hasInput_iff.mpr ⟨index, width, found⟩] at foreign
      cases foreign
    rw [State.inputs_setInput done', Table.get?_put_of_ne different, mirrored.inputs index other width found]
  contents index c found := by
    have before := mirrored.contents index c found
    unfold State.contentsAt at before ⊢
    rwa [State.contents_setInput done']

theorem Mirrored.setInput (mirrored : Mirrored place small state state') {name : String} {word : Bits}
    {next next' : State} (done : state.setInput name word = .ok next) (done' : state'.setInput name word = .ok next') :
    Mirrored place small next next' where
  inputs index other width found := by
    rw [State.inputs_setInput done, State.inputs_setInput done']
    by_cases same : other = name
    · rw [same, Table.get?_put_self, Table.get?_put_self]
    · rw [Table.get?_put_of_ne same, Table.get?_put_of_ne same, mirrored.inputs index other width found]
  contents index c found := by
    have before := mirrored.contents index c found
    unfold State.contentsAt at before ⊢
    rwa [State.contents_setInput done, State.contents_setInput done']

/-- Two runs that succeed stay in step: the smaller netlist takes part in the actions that concern it. -/
theorem Counterparts.mirrored_perform (counterparts : Counterparts place small big) {actions : List Action}
    {last last' : State} (mirrored : Mirrored place small state state')
    (aligned : state.Aligned small) (aligned' : state'.Aligned big)
    (run : small.perform (actions.filter small.concerns) state = .ok last)
    (run' : big.perform actions state' = .ok last') :
    Mirrored place small last last' ∧ last.Aligned small ∧ last'.Aligned big := by
  induction actions generalizing state state' with
  | nil =>
    cases run
    cases run'
    exact ⟨mirrored, aligned, aligned'⟩
  | cons action rest ih =>
    rw [perform_cons] at run'
    obtain ⟨next', done', later'⟩ := Storage.Build.except_bind_eq_ok.mp run'
    cases action with
    | step =>
      rw [List.filter_cons_of_pos rfl, perform_cons] at run
      obtain ⟨next, done, later⟩ := Storage.Build.except_bind_eq_ok.mp run
      exact ih (counterparts.mirrored_step mirrored aligned aligned' done done')
        (aligned_step aligned done) (aligned_step aligned' done') later later'
    | set name word =>
      cases known : small.hasInput name with
      | true =>
        rw [List.filter_cons_of_pos (show small.concerns (.set name word) = true from known), perform_cons] at run
        obtain ⟨next, done, later⟩ := Storage.Build.except_bind_eq_ok.mp run
        exact ih (mirrored.setInput done done') (State.aligned_setInput aligned done)
          (State.aligned_setInput aligned' done') later later'
      | false =>
        rw [List.filter_cons_of_neg (by simp [concerns, known])] at run
        exact ih (mirrored.setInput_big known done') aligned (State.aligned_setInput aligned' done') run later'

/-- What a netlist does is not changed by what is added to it. Any nets of the smaller netlist read the same after
both runs, and its memories hold the same rows. -/
theorem Embedded.agree (embedded : Embedded place small big) (reached : small.Reached) (reached' : big.Reached)
    {actions : List Action} {last last' : State}
    (run : small.performFromStart (actions.filter small.concerns) = .ok last)
    (run' : big.performFromStart actions = .ok last') :
    (∀ bus word, small.read last bus = .ok word → big.read last' (bus.map (Net.relocate place)) = .ok word) ∧
      (∀ index m, small.cell? index = some (.memory m) →
        last'.contentsAt (place index) = last.contentsAt index) ∧
      ∀ net row word, small.readRow last net row = .ok word →
        big.readRow last' (net.relocate place) row = .ok word := by
  obtain ⟨start, started, run⟩ := Storage.Build.except_bind_eq_ok.mp run
  obtain ⟨start', started', run'⟩ := Storage.Build.except_bind_eq_ok.mp run'
  rw [start_eq started] at run
  rw [start_eq started'] at run'
  have counterparts := embedded.counterparts reached reached'
  obtain ⟨mirrored, aligned, aligned'⟩ := counterparts.mirrored_perform embedded.mirrored_initial
    (State.aligned_initial small) (State.aligned_initial big) run run'
  refine ⟨fun bus word => counterparts.read mirrored aligned aligned',
    fun index m => mirrored.contents index (.memory m), fun net row word read => ?_⟩
  unfold readRow at read ⊢
  obtain ⟨driver, driven, read⟩ := Storage.Build.except_bind_eq_ok.mp read
  cases net with
  | const bit =>
    cases driven
    cases read
  | slot slot =>
    cases driver with
    | const bit => cases read
    | cell index offset =>
      obtain ⟨c, found, _, _⟩ := reached.cell_of_driver driven
      refine Storage.Build.except_bind_eq_ok.mpr ⟨_, counterparts.drivers slot index offset driven, ?_⟩
      dsimp only
      rw [mirrored.contents index c found]
      cases held : last.contentsAt index with
      | none =>
        simp only [held] at read
        cases read
      | some contents => simpa only [held] using read

end Netlist

end BankedMemory
