import BankedMemory.Proofs.Replication.United

/-!
# Nets that carry the same

As long as the banks hold the parts of what the one cell holds, each net carries what the net that it was moved to
carries.
-/

namespace BankedMemory.Storage.Replicated

variable {memory : Replicated} {site : Installation memory.build} {state state' : State}

/-- The netlists hold the same: each bank the part of the whole memory that belongs to its reader. -/
structure Tracks (site : Installation memory.build) (state state' : State) : Prop where
  aligned : state.Aligned site.netlist
  aligned' : state'.Aligned (united site)
  inputs : state'.inputs = state.inputs
  others : ∀ index m, site.netlist.cell? index = some (.memory m) → bankAt site index = none →
    state'.contentsAt index = state.contentsAt index
  whole : ∃ contents, state'.contentsAt (wholeStart site) = some contents ∧ (wholeCell site).Full contents ∧
    ∀ index k, site.assembly.readData[k]? = some (site.netlist.outputOf index) →
      state.contentsAt index = some (contents.part k)

/-- The cell at a slot shows a word from its register, and the whole memory shows it at the place of a reader. -/
structure SharesWord (site : Installation memory.build) (state state' : State) (index k : Nat) (word : Bits) : Prop where
  declared : ∃ reader, memory.ports.readers[k]? = some reader
  wide : word.length = memory.ports.blueprint.width
  no_sources : site.netlist.sourcesAt index = []
  in_bank : ∀ value, site.netlist.outputUnder value state index = word
  in_whole : ∀ value, ∀ offset < memory.ports.blueprint.width,
    ((united site).outputUnder value state' (wholeStart site))[k * memory.ports.blueprint.width + offset]? =
      word[offset]?

theorem wholeCell_eq : wholeCell site = memory.whole.map (moved site ∘ site.resolve) := Memory.map_map _ _

theorem sourcesAt_whole : (united site).sourcesAt (wholeStart site) = [] := by
  rw [Netlist.sourcesAt_of_cell whole_stands.1, wholeCell_eq]
  simp [Cell.sources, Memory.map, whole, wholePort, ReadPort.map]

/-- The whole memory drives the data of each reader. -/
theorem driver_wholeNet (site : Installation memory.build) {k : Nat} {reader : Reader}
    (found : memory.ports.readers[k]? = some reader) {offset : Nat}
    (inside : offset < memory.ports.blueprint.width) : (united site).driver (wholeNet site k offset) =
      .ok (.cell (wholeStart site) (k * memory.ports.blueprint.width + offset)) := by
  apply whole_stands.2
  rw [outputWidth_wholeCell, outputWidth_whole]
  obtain ⟨within, _⟩ := List.getElem?_eq_some_iff.mp found
  calc k * memory.ports.blueprint.width + offset
      < (k + 1) * memory.ports.blueprint.width := by
        rw [Nat.succ_mul]
        omega
    _ ≤ memory.ports.readers.length * memory.ports.blueprint.width := Nat.mul_le_mul_right _ within

/-- A cell that stayed puts out what it did, under values of the nets that its operands were moved to. -/
theorem Tracks.outputUnder_kept (tracks : Tracks site state state') {index : Nat} {c : Cell}
    (other : bankAt site index = none) (found : site.netlist.cell? index = some c) (value : Net → Trit) :
    (united site).outputUnder value state' index = site.netlist.outputUnder (value ∘ moved site) state index := by
  rw [Netlist.outputUnder_of_cell (cell_kept other found), Netlist.outputUnder_of_cell found, Cell.outputBits_map,
    tracks.inputs]
  exact Cell.outputBits_congr _ fun m is_memory => tracks.others index m (is_memory ▸ found) other

section Nets

variable {port : WritePort} {init : Bits} (layout : memory.Layout site.Has site.assembly port init)
  (accepted : memory.ports.blueprint.Accepted) (tracks : Tracks site state state')
include layout accepted tracks

/-- A bank shows the word of its reader, and the whole memory has it at its place. -/
theorem Tracks.data_word {index k : Nat}
    (data : site.assembly.readData[k]? = some (site.netlist.outputOf index)) :
    ∃ word, SharesWord site state state' index k word := by
  obtain ⟨reader, found, at_index⟩ := bank_of_data layout accepted data
  obtain ⟨contents, at_whole, full, parts⟩ := tracks.whole
  have at_bank := parts index k data
  have aligned' := tracks.aligned' _ _ _ whole_stands.1 at_whole
  rw [wholeCell_eq] at aligned' full
  obtain ⟨word, held⟩ := exists_held aligned' found
  refine ⟨word, ⟨reader, found⟩, full.held word (List.mem_of_getElem? held), ?_, fun value => ?_,
    fun value offset inside => ?_⟩
  · rw [Netlist.sourcesAt_of_cell at_index]
    simp [Cell.sources, Memory.map, replica, readPort, ReadPort.map]
  · rw [Netlist.outputUnder_of_cell at_index, at_bank]
    exact output_part held
  · rw [Netlist.outputUnder_of_cell whole_stands.1, at_whole, wholeCell_eq]
    exact output_whole aligned' full held inside

/-- What a net carries, the net that it was moved to carries as well. -/
theorem Tracks.carries_moved {net : Net} {bit : Trit} (carried : site.netlist.Carries state net bit) :
    (united site).Carries state' (moved site net) bit := by
  induction carried with
  | const bit => exact .const bit
  | @cell slot index offset bit value driven carried shown ih =>
    cases bank : bankAt site index with
    | some k =>
      obtain ⟨word, shared⟩ := tracks.data_word layout accepted (data_of_bankAt bank)
      obtain ⟨reader, found⟩ := shared.declared
      -- The word of a bank is in its register, so that the bit has no sources on either side.
      rw [shared.in_bank value] at shown
      have inside : offset < memory.ports.blueprint.width := by
        obtain ⟨inside, _⟩ := List.getElem?_eq_some_iff.mp shown
        exact shared.wide ▸ inside
      rw [moved_of_bank driven bank, if_pos inside]
      refine .cell value (driver_wholeNet site found inside) ?_ ((shared.in_whole value offset inside).trans shown)
      rw [sourcesAt_whole]
      exact fun _ member => absurd member List.not_mem_nil
    | none =>
      rw [moved_of_other driven bank]
      cases found : site.netlist.cell? index with
      | none => simp [Netlist.outputUnder, found] at shown
      | some c =>
        have sources := Netlist.sourcesAt_of_cell found
        refine .cell ((united site).valueIn state') (driver_kept driven bank found) ?_ ?_
        · rw [Netlist.sourcesAt_of_cell (cell_kept bank found), Cell.sources_map, ← sources]
          intro source member
          obtain ⟨original, at_sources, rfl⟩ := List.mem_map.mp member
          exact Netlist.Live.carries_valueIn tracks.aligned' ⟨_, ih original at_sources⟩
        · rw [tracks.outputUnder_kept bank found, ← shown]
          refine congrArg (·[offset]?) (Netlist.outputUnder_congr tracks.aligned fun source member => ?_)
          exact (ih source member).valueIn_eq tracks.aligned'

/-- What the net carries that a net was moved to, the net has carried before. -/
theorem Tracks.carries_of_moved {target : Net} {bit : Trit} (carried : (united site).Carries state' target bit) :
    ∀ net, moved site net = target → site.netlist.Carries state net bit := by
  -- Several nets may be moved to one place, and the sources are known as moved nets only.
  induction carried with
  | const bit =>
    intro net same
    cases net with
    | const other =>
      cases same
      exact .const bit
    | slot index =>
      have kind : (moved site (.slot index)).isConst = false := isConst_moved _
      rw [same] at kind
      cases kind
  | @cell target index offset bit value driven carried shown ih =>
    intro net same
    cases net with
    | const other => cases same
    | slot slot =>
      rw [← same] at driven
      rcases driver_moved_cases driven with ⟨start, place, k, origin, bank, inside, target_eq⟩ |
        ⟨_, origin, other, c, found⟩
      · obtain ⟨word, shared⟩ := tracks.data_word layout accepted (data_of_bankAt bank)
        obtain ⟨reader, found⟩ := shared.declared
        obtain ⟨rfl, rfl⟩ : wholeStart site = index ∧ k * memory.ports.blueprint.width + place = offset := by
          simpa [target_eq, driver_wholeNet site found inside] using driven
        rw [shared.in_whole value place inside, ← shared.in_bank value] at shown
        refine .cell value origin ?_ shown
        rw [shared.no_sources]
        exact fun _ member => absurd member List.not_mem_nil
      · refine .cell (value ∘ moved site) origin ?_ ?_
        · intro source member
          refine ih (moved site source) ?_ source rfl
          rw [Netlist.sourcesAt_of_cell (cell_kept other found), Cell.sources_map,
            ← Netlist.sourcesAt_of_cell found]
          exact List.mem_map_of_mem member
        · rw [← tracks.outputUnder_kept other found]
          exact shown

theorem Tracks.carries_iff {net : Net} {bit : Trit} :
    (united site).Carries state' (moved site net) bit ↔ site.netlist.Carries state net bit :=
  ⟨fun carried => tracks.carries_of_moved layout accepted carried net rfl, tracks.carries_moved layout accepted⟩

theorem Tracks.live_iff {net : Net} : (united site).Live state' (moved site net) ↔ site.netlist.Live state net :=
  exists_congr fun _ => tracks.carries_iff layout accepted

theorem Tracks.valueIn_moved : (united site).valueIn state' ∘ moved site = site.netlist.valueIn state :=
  funext fun _ => Netlist.valueIn_congr tracks.aligned' tracks.aligned fun _ => tracks.carries_iff layout accepted

end Nets

end BankedMemory.Storage.Replicated
