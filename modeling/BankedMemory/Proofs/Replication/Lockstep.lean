import BankedMemory.Proofs.Replication.Tracking

/-!
# One cell in step with all banks

Both netlists start, take inputs and advance the clock together, or fail together, and the banks go on holding the
parts of what the one cell holds. So the readers read the same words after every run.
-/

namespace BankedMemory.Storage.Replicated

variable {memory : Replicated} {site : Installation memory.build} {state state' : State}

theorem cell?_movedSlot {index : Nat} {slot : Slot} (empty : slot.cell? = none) :
    (movedSlot site index slot).cell? = none := by
  have kept : (slot.map (moved site)).cell? = none := by
    cases slot with
    | cell c => cases empty
    | _ => rfl
  unfold movedSlot
  split
  · split
    · exact kept
    · rfl
  · rfl

theorem memory_united_cases {index : Nat} {m : Memory} (found : (united site).cell? index = some (.memory m)) :
    index = wholeStart site ∧ m = wholeCell site ∨
      ∃ n, site.netlist.cell? index = some (.memory n) ∧ bankAt site index = none ∧ m = n.map (moved site) := by
  rcases cell_united_cases found with ⟨here, same⟩ | ⟨d, at_index, other, same⟩
  · exact Or.inl ⟨here, Cell.memory.inj same⟩
  · cases d with
    | memory n => exact Or.inr ⟨n, at_index, other, Cell.memory.inj same⟩
    | _ => cases same

section Layout

variable {port : WritePort} {init : Bits} (layout : memory.Layout site.Has site.assembly port init)
  (accepted : memory.ports.blueprint.Accepted)
include layout accepted

theorem memory_cases {index : Nat} {m : Memory} (found : site.netlist.cell? index = some (.memory m)) :
    bankAt site index = none ∨
      ∃ reader ∈ memory.ports.readers, m = (memory.replica port init reader).map site.resolve := by
  cases bank : bankAt site index with
  | none => exact Or.inl rfl
  | some k =>
    obtain ⟨reader, at_reader, stands⟩ := bank_of_data layout accepted (data_of_bankAt bank)
    have same : m = _ := Cell.memory.inj (Option.some.inj (found.symm.trans stands))
    exact Or.inr ⟨reader, List.mem_of_getElem? at_reader, same⟩

/-- No input is lost or changed. -/
theorem input?_movedSlot {index : Nat} {slot : Slot} (found : site.netlist.slots[index]? = some slot) :
    (movedSlot site index slot).cell?.bind Cell.input? = slot.cell?.bind Cell.input? := by
  cases slot with
  | placeholder => rw [cell?_movedSlot rfl]; rfl
  | continuation start => rw [cell?_movedSlot rfl]; rfl
  | cell c =>
    have driven : site.netlist.driver (.slot index) = .ok (.cell index 0) :=
      Netlist.driver_slot_iff.mpr (Or.inl ⟨c, found, rfl, rfl⟩)
    have at_index : site.netlist.cell? index = some c := Netlist.cell?_eq_some_iff.mpr found
    cases bank : bankAt site index with
    | none =>
      rw [movedSlot_kept driven bank at_index]
      exact Cell.input?_map (moved site) c
    | some k =>
      obtain ⟨reader, _, stands⟩ := bank_of_data layout accepted (data_of_bankAt bank)
      obtain rfl : c = _ := Option.some.inj (at_index.symm.trans stands)
      have free : movedSlot site index (.cell (.memory ((memory.replica port init reader).map site.resolve))) =
          .placeholder := by
        simp [movedSlot, driven, bank]
      rw [free]
      rfl

theorem inputs_united : (State.initial (united site)).inputs = (State.initial site.netlist).inputs := by
  have added : (Slot.ofCell (wholeStart site) (.memory (wholeCell site))).filterMap
      (fun slot => slot.cell?.bind Cell.input?) = [] := by
    rw [List.filterMap_eq_nil_iff]
    intro slot member
    rcases List.mem_cons.mp member with rfl | member
    · rfl
    · rw [List.eq_of_mem_replicate member]
      rfl
  rw [State.inputs_initial, State.inputs_initial]
  refine congrArg (List.foldl _ []) ?_
  simp only [united, Array.toList_append, Array.toList_mapIdx, List.filterMap_append, added, List.append_nil]
  rw [List.mapIdx_eq_zipIdx_map, List.filterMap_map]
  conv_rhs => rw [← List.zipIdx_map_fst 0 site.netlist.slots.toList, List.filterMap_map]
  refine List.filterMap_congr ?_
  rintro ⟨slot, index⟩ member
  have found := List.mk_mem_zipIdx_iff_getElem?.mp member
  rw [Array.getElem?_toList] at found
  exact input?_movedSlot layout accepted found

/-- To begin with, the netlists hold the same. -/
theorem tracks_initial (some_reader : memory.ports.readers ≠ []) :
    Tracks site (State.initial site.netlist) (State.initial (united site)) where
  aligned := State.aligned_initial _
  aligned' := State.aligned_initial _
  inputs := inputs_united layout accepted
  others index m found other := by
    rw [State.contentsAt_initial, State.contentsAt_initial, found, cell_kept other found]
    exact congrArg some m.initialContents_map
  whole := by
    have word := layout.initial some_reader
    refine ⟨(wholeCell site).initialContents, ?_, ?_, fun index k data => ?_⟩
    · rw [State.contentsAt_initial, whole_stands.1]
      rfl
    · rw [wholeCell_eq]
      exact full_initialContents accepted word
    · obtain ⟨reader, found, stands⟩ := bank_of_data layout accepted data
      rw [State.contentsAt_initial, stands, wholeCell_eq, part_initialContents word found,
        Memory.initialContents_map, ← Memory.initialContents_map (f := site.resolve)]
      rfl

/-- In both netlists all memories have rows that can be held, or in neither. -/
theorem start_matches (some_reader : memory.ports.readers ≠ []) :
    Matches (Tracks site) site.netlist.start (united site).start := by
  obtain ⟨first, declared⟩ := List.exists_mem_of_ne_nil _ some_reader
  obtain ⟨k, at_first⟩ := List.mem_iff_getElem?.mp declared
  obtain ⟨bank, _, _, stands, _⟩ := exists_bank layout at_first
  refine .of_ok_iff ?_ fun start start' started started' => ?_
  · rw [Netlist.start_succeeds_iff, Netlist.start_succeeds_iff]
    constructor
    · intro fits index m found
      rcases memory_united_cases found with ⟨_, rfl⟩ | ⟨n, at_index, _, rfl⟩
      · have deep := fits bank _ stands
        exact deep
      · exact fits index n at_index
    · intro fits index m found
      rcases memory_cases layout accepted found with other | ⟨reader, _, rfl⟩
      · have deep := fits index _ (cell_kept other found)
        exact deep
      · have deep := fits (wholeStart site) _ whole_stands.1
        exact deep
  · rw [Netlist.start_eq started, Netlist.start_eq started']
    exact tracks_initial layout accepted some_reader

section Cycle

variable (some_reader : memory.ports.readers ≠ []) (tracks : Tracks site state state')
include some_reader tracks

/-- What the cycle needs carries bits in both netlists, or in neither. -/
theorem Tracks.ready_iff : (∀ net ∈ site.netlist.cycleNeeds state, site.netlist.Live state net) ↔
    ∀ net ∈ (united site).cycleNeeds state', (united site).Live state' net := by
  have needs (m : Memory) := Netlist.neededBy_map isConst_moved (tracks.valueIn_moved layout accepted) m
  constructor
  · intro ready target member
    obtain ⟨index, m, found, needed⟩ := Netlist.mem_cycleNeeds.mp member
    have needed_there : ∃ net ∈ site.netlist.cycleNeeds state, moved site net = target := by
      rcases memory_united_cases found with ⟨_, rfl⟩ | ⟨n, at_index, _, rfl⟩
      · rw [wholeCell, needs] at needed
        obtain ⟨net, needed, moved_eq⟩ := List.mem_map.mp needed
        obtain ⟨reader, declared, needed⟩ := needed_by_replica layout.verified layout.written init some_reader needed
        obtain ⟨k, at_reader⟩ := List.mem_iff_getElem?.mp declared
        obtain ⟨bank, _, _, stands, _⟩ := exists_bank layout at_reader
        exact ⟨net, Netlist.mem_cycleNeeds.mpr ⟨bank, _, stands, needed⟩, moved_eq⟩
      · rw [needs] at needed
        obtain ⟨net, needed, moved_eq⟩ := List.mem_map.mp needed
        exact ⟨net, Netlist.mem_cycleNeeds.mpr ⟨index, n, at_index, needed⟩, moved_eq⟩
    obtain ⟨net, needed_here, rfl⟩ := needed_there
    exact (tracks.live_iff layout accepted).mpr (ready net needed_here)
  · intro ready net member
    obtain ⟨index, m, found, needed⟩ := Netlist.mem_cycleNeeds.mp member
    have reach {m' : Memory} {index' : Nat} (at_index : (united site).cell? index' = some (.memory (m'.map (moved site))))
        (needed : net ∈ site.netlist.neededBy state m') : site.netlist.Live state net := by
      refine (tracks.live_iff layout accepted).mp (ready _ (Netlist.mem_cycleNeeds.mpr ⟨index', _, at_index, ?_⟩))
      rw [needs]
      exact List.mem_map_of_mem needed
    rcases memory_cases layout accepted found with other | ⟨reader, declared, rfl⟩
    · exact reach (cell_kept other found) needed
    -- Without a writer the banks still have a write port, but all that it needs are constants.
    · rcases needed_by_whole layout.verified layout.written (site.resolve_const .zero) declared needed with needed | rfl
      · exact reach whole_stands.1 needed
      · exact ⟨.zero, .const .zero⟩

theorem Tracks.nextState : Tracks site (site.netlist.nextState (site.netlist.valueIn state) state)
    ((united site).nextState ((united site).valueIn state') state') where
  aligned := Netlist.aligned_nextState tracks.aligned _
  aligned' := Netlist.aligned_nextState tracks.aligned' _
  inputs := tracks.inputs
  others index m found other := by
    rw [Netlist.contentsAt_nextState_eq_map _ found, Netlist.contentsAt_nextState_eq_map _ (cell_kept other found),
      tracks.others index m found other, ← tracks.valueIn_moved layout accepted]
    exact congrArg (fun next => (state.contentsAt index).map next)
      (funext fun contents => m.nextContents_map isConst_moved contents)
  whole := by
    obtain ⟨contents, at_whole, full, parts⟩ := tracks.whole
    have aligned := tracks.aligned' _ _ _ whole_stands.1 at_whole
    obtain ⟨first, declared⟩ := List.exists_mem_of_ne_nil _ some_reader
    obtain ⟨k, at_first⟩ := List.mem_iff_getElem?.mp declared
    obtain ⟨output, _, has⟩ := forall₂_left layout.replicas at_first
    have sized : (wholeCell site).Sized := by
      rw [wholeCell_eq]
      exact sized_whole has.checked layout.verified layout.written
    refine ⟨_, Netlist.contentsAt_nextState _ whole_stands.1 at_whole, full.nextContents sized _, ?_⟩
    intro index k data
    obtain ⟨reader, found, stands⟩ := bank_of_data layout accepted data
    have grounded : (united site).valueIn state' (.const .zero) = .zero :=
      (Netlist.Carries.const .zero).valueIn_eq tracks.aligned'
    have constant : (moved site ∘ site.resolve) (.const .zero) = .const .zero := by
      rw [Function.comp_apply, site.resolve_const, moved_const]
    rw [wholeCell_eq] at aligned ⊢
    rw [Netlist.contentsAt_nextState _ stands (parts index k data),
      part_nextContents constant grounded layout.verified layout.written aligned found, ← Memory.map_map,
      Memory.nextContents_map isConst_moved, tracks.valueIn_moved layout accepted]

theorem Tracks.step : Matches (Tracks site) (site.netlist.step state) ((united site).step state') := by
  refine .of_ok_iff ?_ fun next next' done done' => ?_
  · rw [Netlist.step_succeeds_iff tracks.aligned, Netlist.step_succeeds_iff tracks.aligned',
      tracks.ready_iff layout accepted some_reader]
  · rw [Netlist.step_eq tracks.aligned done, Netlist.step_eq tracks.aligned' done']
    exact tracks.nextState layout accepted some_reader

end Cycle

end Layout

theorem Tracks.setInput (tracks : Tracks site state state') (name : String) (word : Bits) :
    Matches (Tracks site) (state.setInput name word) (state'.setInput name word) := by
  have known := tracks.inputs
  refine .of_ok_iff ?_ fun next next' done done' => ?_
  · unfold State.setInput
    rw [known]
    cases state.inputs.get? name with
    | none => simp
    | some old => by_cases width : old.length = word.length <;> simp [width]
  · have same (index : Nat) : next.contentsAt index = state.contentsAt index := by
      rw [State.contentsAt, State.contentsAt, State.contents_setInput done]
    have same' (index : Nat) : next'.contentsAt index = state'.contentsAt index := by
      rw [State.contentsAt, State.contentsAt, State.contents_setInput done']
    refine ⟨State.aligned_setInput tracks.aligned done, State.aligned_setInput tracks.aligned' done', ?_, ?_, ?_⟩
    · rw [State.inputs_setInput done, State.inputs_setInput done', known]
    · intro index m found other
      rw [same, same', tracks.others index m found other]
    · simpa only [same, same'] using tracks.whole

/-- The data of a reader is the same in both netlists. -/
theorem Tracks.reads {port : WritePort} {init : Bits} (layout : memory.Layout site.Has site.assembly port init)
    (accepted : memory.ports.blueprint.Accepted) (tracks : Tracks site state state') {k : Nat} {reader : Reader}
    (found : memory.ports.readers[k]? = some reader) {output : Bus} (data : site.assembly.readData[k]? = some output) :
    ∃ word : Bits, word.length = memory.ports.blueprint.width ∧ site.netlist.read state output = .ok word ∧
      (united site).read state' (Bus.ofSlots (wholeStart site + k * memory.ports.blueprint.width)
        memory.ports.blueprint.width) = .ok word := by
  obtain ⟨index, at_index, output_eq, _, driven⟩ := exists_bank layout found
  obtain ⟨word, shared⟩ := tracks.data_word layout accepted at_index
  obtain rfl : output = site.netlist.outputOf index := Option.some.inj (data.symm.trans at_index)
  refine ⟨word, shared.wide, ?_, ?_⟩
  · rw [output_eq, Netlist.read_eq_ok_iff tracks.aligned, Netlist.shows_iff]
    refine ⟨shared.wide.trans (Bus.length_ofSlots _ _).symm, fun offset net bit at_bus at_word => ?_⟩
    obtain ⟨inside, rfl⟩ := Bus.ofSlots_getElem? at_bus
    refine .cell (site.netlist.valueIn state) (driven offset inside) ?_ (by rwa [shared.in_bank])
    rw [shared.no_sources]
    exact fun _ member => absurd member List.not_mem_nil
  · rw [Netlist.read_eq_ok_iff tracks.aligned', Netlist.shows_iff]
    refine ⟨shared.wide.trans (Bus.length_ofSlots _ _).symm, fun offset net bit at_bus at_word => ?_⟩
    obtain ⟨inside, rfl⟩ := Bus.ofSlots_getElem? at_bus
    have driven' := driver_wholeNet site found inside
    rw [wholeNet, ← Nat.add_assoc] at driven'
    refine .cell ((united site).valueIn state') driven' ?_ ((shared.in_whole _ offset inside).trans at_word)
    rw [sourcesAt_whole]
    exact fun _ member => absurd member List.not_mem_nil

/-- A memory with one writer cannot be told from one cell with a read port for each reader. Both fail in the same
runs, and after all other runs every reader reads the same word. -/
theorem reads_united (site : Installation memory.build) (accepted : memory.ports.blueprint.Accepted)
    (actions : List Action) {k : Nat} {output : Bus} (data : site.assembly.readData[k]? = some output) :
    ∃ output', Positions.slice ((united site).outputOf (wholeStart site)) (some (k * memory.ports.blueprint.width))
        (some ((k + 1) * memory.ports.blueprint.width)) = .ok output' ∧
      Matches (fun last last' => ∃ word : Bits, word.length = memory.ports.blueprint.width ∧
          site.netlist.read last output = .ok word ∧ (united site).read last' output' = .ok word)
        (site.netlist.performFromStart actions) ((united site).performFromStart actions) := by
  obtain ⟨port, init, layout⟩ := exists_layout site
  obtain ⟨reader, found, _⟩ := forall₂_right layout.replicas data
  obtain ⟨inside, _⟩ := List.getElem?_eq_some_iff.mp found
  have some_reader : memory.ports.readers ≠ [] := List.ne_nil_of_length_pos (Nat.zero_lt_of_lt inside)
  refine ⟨_, slice_whole inside, ?_⟩
  have started := start_matches layout accepted some_reader
  have performed : Matches (Tracks site) (site.netlist.performFromStart actions)
      ((united site).performFromStart actions) := by
    refine started.bind fun start start' tracks => Netlist.perform_matches ?_ actions tracks
    intro state state' action tracks
    cases action with
    | set name word => exact tracks.setInput name word
    | step => exact tracks.step layout accepted some_reader
  exact performed.mono fun last last' tracks => tracks.reads layout accepted found data

/-- A writer and two readers of one bit in two rows, of which the second reader observes the writer. -/
def twin : Replicated where
  ports :=
    { blueprint := ⟨1, 2, [[.zero], [.unknown]], []⟩
      readers := [⟨[.zero], .slot 2, []⟩, ⟨[.zero], .slot 3, [0]⟩]
      writers := [⟨[.zero], [.one], [.slot 1], none⟩]
      frozen := false
      capacity := some 1 }
  clock := .high (.slot 0)
  name := none
  writer := 0

/-- The banks of the twin beside its inputs. -/
def twinSite : Installation twin.build :=
  .atOnce _ ((Netlist.empty.push (.input "clock" 1)).2.push (.input "enable" 3)).2 (by decide +kernel) rfl
    (fun bit => by cases bit <;> decide +kernel) (by decide +kernel)

/-- A run in which both readers read what is written. -/
def twinRun : List Action := [.set "enable" [.one, .one, .one], .step]

/-- The banks of the twin after this run. -/
def twinEnd : State := (twinSite.netlist.performFromStart twinRun).toOption.getD (.initial twinSite.netlist)

/-- The second reader reads the one that is written, from its bank as well as from the one cell. -/
theorem twin_reads_united :
    twin.ports.blueprint.Accepted ∧ twinSite.assembly.readData[1]? = some [.slot 5] ∧
      ∃ last last' output', twinSite.netlist.performFromStart twinRun = .ok last ∧
        (united twinSite).performFromStart twinRun = .ok last' ∧
        Positions.slice ((united twinSite).outputOf (wholeStart twinSite)) (some (1 * 1)) (some ((1 + 1) * 1)) =
          .ok output' ∧
        twinSite.netlist.read last [.slot 5] = .ok [.one] ∧ (united twinSite).read last' output' = .ok [.one] := by
  have accepted : twin.ports.blueprint.Accepted := ⟨by decide, by decide, by decide, by decide⟩
  have data : twinSite.assembly.readData[1]? = some [.slot 5] := by decide +kernel
  have performed : twinSite.netlist.performFromStart twinRun = .ok twinEnd :=
    eq_ok_of_isOk (by decide +kernel) (State.initial twinSite.netlist)
  have shown : twinSite.netlist.read twinEnd [.slot 5] = .ok [.one] := by decide +kernel
  obtain ⟨output', sliced, alike⟩ := reads_united twinSite accepted twinRun data
  rw [performed] at alike
  obtain ⟨last', performed', word, _, bank, cell⟩ := alike.exists_of_ok
  obtain rfl := Except.ok.inj (bank.symm.trans shown)
  exact ⟨accepted, data, twinEnd, last', output', performed, performed', sliced, shown, cell⟩

end BankedMemory.Storage.Replicated
