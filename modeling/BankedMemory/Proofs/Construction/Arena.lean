import BankedMemory.Proofs.Construction.Ledger

/-!
# The arena in order

Whatever calls a netlist has seen, its slots are placeholders and blocks of cells side by side. Going from one block
to the next therefore meets each cell once, every net that was handed out is a place of its own for good, and a cell
is found again under the output that its addition has handed out.
-/

namespace BankedMemory

/-- Slots from the number `index` on that are placeholders and whole blocks of cells, side by side. -/
inductive Tiled : (index : Nat) → List Slot → Prop where
  | nil (index : Nat) : Tiled index []
  | placeholder {index : Nat} {rest : List Slot} (tail : Tiled (index + 1) rest) : Tiled index (.placeholder :: rest)
  | cell {index : Nat} {rest : List Slot} (c : Cell) (tail : Tiled (index + max c.outputWidth 1) rest) :
      Tiled index (Slot.ofCell index c ++ rest)

/-- The cells that are met by going through some slots, from a cell on to the first slot behind its block. -/
def cellsFrom : (index : Nat) → List Slot → List (Nat × Cell)
  | _, [] => []
  | index, .cell c :: rest => (index, c) :: cellsFrom (index + max c.outputWidth 1) (rest.drop (c.outputWidth - 1))
  | index, .placeholder :: rest => cellsFrom (index + 1) rest
  | index, .continuation _ :: rest => cellsFrom (index + 1) rest
termination_by _ slots => slots.length
decreasing_by all_goals simp only [List.length_cons, List.length_drop]; omega

section Lists

variable {index : Nat} {slots others : List Slot}

theorem Tiled.append (first : Tiled index slots) (second : Tiled (index + slots.length) others) :
    Tiled index (slots ++ others) := by
  induction first with
  | nil index => exact second
  | placeholder tail ih =>
    refine .placeholder (ih ?_)
    rwa [List.length_cons, Nat.add_comm _ 1, ← Nat.add_assoc] at second
  | cell c tail ih =>
    rw [List.append_assoc]
    refine .cell c (ih ?_)
    rwa [List.length_append, Slot.length_ofCell, ← Nat.add_assoc] at second

theorem tiled_slots (change : Edit) (index : Nat) : Tiled index (change.slots index) := by
  cases change with
  | add c =>
    have block : Tiled index (Slot.ofCell index c ++ []) := .cell c (.nil _)
    rwa [List.append_nil] at block
  | addPlaceholders width =>
    induction width generalizing index with
    | zero => exact .nil index
    | succ width ih => exact .placeholder (ih (index + 1))
  | rewire source target => exact .nil index
  | rewireBus source target => exact .nil index

theorem Tiled.map (tiled : Tiled index slots) (f : Net → Net) : Tiled index (slots.map (Slot.map f)) := by
  induction tiled with
  | nil index => exact .nil index
  | placeholder tail ih => exact .placeholder ih
  | cell c tail ih =>
    rw [List.map_append, Slot.map_ofCell]
    exact .cell (c.map f) (by rwa [Cell.outputWidth_map])

/-- No cell starts inside a block, so that going over blocks leaves nothing out. -/
theorem Tiled.cellsFrom_eq (tiled : Tiled index slots) : cellsFrom index slots = cellsIn index slots := by
  induction tiled with
  | nil index => rw [cellsFrom, cellsIn, List.zipIdx_nil, List.filterMap_nil]
  | placeholder tail ih =>
    rw [cellsFrom, ih, cellsIn, cellsIn, List.zipIdx_cons, List.filterMap_cons_none rfl]
  | @cell index rest c tail ih =>
    rw [cellsIn_append, cellsIn_ofCell, Slot.length_ofCell, ← ih, Slot.ofCell, List.cons_append, cellsFrom,
      List.drop_left' List.length_replicate, List.singleton_append]

end Lists

namespace Netlist

variable (netlist : Netlist)

/-- The applied slots are in order, and so are the ways to go through their cells. -/
structure Arranged : Prop where
  tiled : Tiled 0 netlist.slots.toList
  walked : cellsFrom 0 netlist.slots.toList = netlist.cells
  listed : ∀ index c, (index, c) ∈ netlist.cells ↔ netlist.slots[index]? = some (.cell c)
  ascending : netlist.cells.Pairwise (·.1 < ·.1)
  found : ∀ index c, (index, c) ∈ netlist.cells → ∀ k < c.outputWidth,
    netlist.driver (.slot (index + k)) = .ok (.cell index k)
  checked : ∀ index c, (index, c) ∈ netlist.cells → c.check = .ok ()

variable {netlist}

theorem ascending_cells : netlist.cells.Pairwise (·.1 < ·.1) := by
  have slots := netlist.slots_cells_sublist
  rw [List.zipIdx_map_snd] at slots
  exact List.pairwise_map.mp (List.Pairwise.sublist slots List.pairwise_lt_range')

theorem slots_apply {after : Netlist} (h : netlist.apply = .ok after) :
    after.slots = netlist.arena.map (Slot.map netlist.rewiring.resolve) := by
  obtain ⟨_, rfl⟩ := apply_eq_ok_iff.mp h
  rfl

theorem arena_apply {after : Netlist} (h : netlist.apply = .ok after) :
    after.arena = netlist.arena.map (Slot.map netlist.rewiring.resolve) := by
  obtain ⟨_, rfl⟩ := apply_eq_ok_iff.mp h
  exact Array.append_empty

theorem arranged (reached : netlist.Reached) (tiled : Tiled 0 netlist.slots.toList) : netlist.Arranged where
  tiled
  walked := tiled.cellsFrom_eq
  listed _ _ := mem_cells.trans cell?_eq_some_iff
  ascending := ascending_cells
  found _ _ member _ inside := reached.driver_output (mem_cells.mp member) inside
  checked _ _ member := reached.checked (mem_cells.mp member)

end Netlist

namespace Ledger

variable (ledger : Ledger)

/-- The nets handed out are different slots that there are, none of them that of a cell without output. -/
structure Distinct : Prop where
  visible : ∀ entry ∈ ledger.entries, ∀ net ∈ entry.nets, ∃ index, net = .slot index ∧ index < ledger.netlist.next ∧
    ∀ c, ledger.netlist.arena[index]? = some (.cell c) → 0 < c.outputWidth
  disjoint : ledger.entries.Pairwise fun first second => first.nets.Disjoint second.nets

/-- What every call keeps. -/
structure Sound : Prop extends Distinct ledger where
  applied : Tiled 0 ledger.netlist.slots.toList
  all : Tiled 0 ledger.netlist.arena.toList

variable {ledger} {after : Ledger} {calls : List Revision}

theorem sound_empty : empty.Sound where
  visible _ member := nomatch member
  disjoint := .nil
  applied := .nil 0
  all := .nil 0

/-- A net that an edit hands out is a new slot, and that of a cell without output is handed out by none. -/
theorem visible_issued {netlist after : Netlist} {change : Edit} (edited : netlist.edit change = .ok after) {net : Net}
    (member : net ∈ Bus.ofSlots netlist.next change.width) :
    ∃ index, net = .slot index ∧ netlist.next ≤ index ∧ index < after.next ∧
      ∀ c, after.arena[index]? = some (.cell c) → 0 < c.outputWidth := by
  obtain ⟨k, at_place⟩ := List.mem_iff_getElem?.mp member
  obtain ⟨inside, rfl⟩ := Bus.ofSlots_getElem? at_place
  have room := change.width_le_extent
  refine ⟨netlist.next + k, rfl, by omega, by rw [Netlist.next_edit edited]; omega, fun c found => ?_⟩
  rcases Netlist.getElem?_arena_edit edited found with ⟨earlier, _⟩ | ⟨_, latest⟩
  · omega
  · rw [Nat.add_sub_cancel_left] at latest
    cases change with
    | add d =>
      obtain ⟨_, rfl⟩ := Slot.ofCell_eq_cell_iff.mp latest
      exact Nat.zero_lt_of_lt inside
    | addPlaceholders width => exact absurd (List.eq_of_mem_replicate (List.mem_of_getElem? latest)) Slot.noConfusion
    | rewire source target => cases latest
    | rewireBus source target => cases latest

theorem Sound.edit (sound : ledger.Sound) {change : Edit} (edited : ledger.netlist.edit change = .ok after.netlist)
    (entered : after.entries = ledger.entries ++ [ledger.netlist.entry change]) : after.Sound where
  applied := by
    rw [Netlist.slots_edit edited]
    exact sound.applied
  all := by
    rw [Netlist.arena_edit edited]
    refine sound.all.append ?_
    rw [Nat.zero_add, Array.length_toList, Netlist.size_arena]
    exact tiled_slots change _
  visible entry member net at_net := by
    rw [entered] at member
    rcases List.mem_append.mp member with earlier | latest
    · obtain ⟨index, rfl, inside, wide⟩ := sound.visible entry earlier net at_net
      have longer := Netlist.edit_extends edited
      exact ⟨index, rfl, Nat.lt_of_lt_of_le inside longer.next_le,
        fun c found => wide c (longer.arena index inside ▸ found)⟩
    · obtain rfl := List.mem_singleton.mp latest
      obtain ⟨index, rfl, _, inside, wide⟩ := visible_issued edited at_net
      exact ⟨index, rfl, inside, wide⟩
  disjoint := by
    rw [entered]
    refine List.pairwise_append.mpr ⟨sound.disjoint, List.pairwise_singleton _ _, ?_⟩
    intro first earlier second latest
    obtain rfl := List.mem_singleton.mp latest
    intro net at_first at_second
    obtain ⟨index, rfl, inside, _⟩ := sound.visible first earlier net at_first
    obtain ⟨_, same, beyond, _⟩ := visible_issued edited at_second
    cases same
    omega

theorem Sound.apply (sound : ledger.Sound) (applied : ledger.netlist.apply = .ok after.netlist)
    (entered : after.entries = ledger.entries) : after.Sound where
  applied := by
    rw [Netlist.slots_apply applied, Array.toList_map]
    exact sound.all.map _
  all := by
    rw [Netlist.arena_apply applied, Array.toList_map]
    exact sound.all.map _
  visible entry member net at_net := by
    rw [entered] at member
    obtain ⟨index, rfl, inside, wide⟩ := sound.visible entry member net at_net
    refine ⟨index, rfl, ?_, fun c found => ?_⟩
    · rwa [← Netlist.size_arena, Netlist.arena_apply applied, Array.size_map, Netlist.size_arena]
    · rw [Netlist.arena_apply applied, Array.getElem?_map, Option.map_eq_some_iff] at found
      obtain ⟨slot, found, mapped⟩ := found
      cases slot with
      | cell d =>
        cases mapped
        rw [Cell.outputWidth_map]
        exact wide d found
      | placeholder => cases mapped
      | continuation start => cases mapped
  disjoint := by
    rw [entered]
    exact sound.disjoint

theorem sound_of_callAll (h : empty.callAll calls = .ok after) : after.Sound := by
  refine callAll_keeps (fun before revision after called sound => ?_) h sound_empty
  obtain ⟨revised, entered⟩ := call_eq_ok_iff.mp called
  cases revision with
  | edit change => exact sound.edit revised entered
  | apply => exact sound.apply revised (entered.trans (List.append_nil _))

/-- From the next apply on, a cell that is added stands where its output is what the addition has handed out. -/
theorem kept_output {c : Cell} {output : Bus} {netlist : Netlist} {final : Ledger}
    (added : ledger.netlist.add c = .ok (output, netlist)) {entries : List Entry}
    (later : (⟨netlist, entries⟩ : Ledger).callAll calls = .ok final) (applied : .apply ∈ calls) :
    ∃ index, final.netlist.cell? index = some (c.map (netlist.resolvedAll calls)) ∧
      final.netlist.outputOf index = output := by
  have issued : ledger.netlist.issue (.add c) = .ok (output, netlist) := added
  obtain ⟨edited, rfl⟩ := Netlist.issue_eq_ok_iff.mp issued
  have queued : netlist.arena[ledger.netlist.next]? = some (.cell c) := by
    rw [← Array.getElem?_toList, Netlist.arena_edit edited, List.getElem?_append_right (by simp [Netlist.size_arena])]
    simp [Netlist.size_arena, Edit.slots, Slot.ofCell]
  have placed := Netlist.slots_reviseAll (reviseAll_of_callAll later) applied queued
  have found : final.netlist.cell? ledger.netlist.next = some (c.map (netlist.resolvedAll calls)) :=
    Netlist.cell?_eq_some_iff.mpr placed
  refine ⟨ledger.netlist.next, found, ?_⟩
  rw [Netlist.outputOf, found]
  simp [Edit.width, Cell.outputWidth_map]

/-- After any calls, of which refused additions change nothing, the arena is in order, the nets handed out are all
different, and every further addition hands out the output that its cell has from the next apply on, whatever comes
later. -/
theorem arranged_attemptAll (h : empty.attemptAll calls = .ok ledger) :
    ledger.netlist.Arranged ∧ ledger.Distinct ∧
      ∀ c output netlist, ledger.netlist.add c = .ok (output, netlist) → ∀ later final,
        (⟨netlist, ledger.entries ++ [⟨.add c, output⟩]⟩ : Ledger).attemptAll later = .ok final → .apply ∈ later →
          ∃ index, final.netlist.cell? index =
              some (c.map (netlist.resolvedAll (later.filter fun call => !call.refused))) ∧
            final.netlist.outputOf index = output := by
  rw [attemptAll_eq] at h
  have sound := sound_of_callAll h
  have reached : ledger.netlist.Reached := ⟨_, reviseAll_of_callAll h⟩
  refine ⟨Netlist.arranged reached sound.applied, sound.toDistinct, ?_⟩
  intro c output netlist added later final followed applied
  rw [attemptAll_eq] at followed
  exact kept_output added followed (List.mem_filter.mpr ⟨applied, rfl⟩)

/-- A placeholder, a refused gate, and two cells of which one puts nothing out. -/
def mixedCalls : List Revision :=
  [.edit (.addPlaceholders 1), .edit (.add (.input "a" 2)), .edit (.add (.gate .xor [.slot 0] [])),
    .edit (.add (.output "q" [.slot 0, .slot 2])), .edit (.rewire (.slot 0) (.slot 1)), .apply]

def mixed : Ledger := (empty.attemptAll mixedCalls).toOption.getD empty

/-- The output of a further cell, and the netlist with this cell. -/
def mixedAddition : Bus × Netlist := (mixed.netlist.add (.invert [.slot 2])).toOption.getD ([], .empty)

def mixedGrown : Ledger := ⟨mixedAddition.2, mixed.entries ++ [⟨.add (.invert [.slot 2]), mixedAddition.1⟩]⟩

theorem mixed_arranged : mixed.netlist.Arranged ∧ mixed.Distinct ∧
    ∃ final index c, mixedGrown.attemptAll [.edit (.rewire (.slot 2) (.slot 1)), .apply] = .ok final ∧
      final.netlist.cell? index = some c ∧ final.netlist.outputOf index = mixedAddition.1 := by
  have called : empty.attemptAll mixedCalls = .ok mixed := eq_ok_of_isOk (by decide +kernel) empty
  have added : mixed.netlist.add (.invert [.slot 2]) = .ok mixedAddition :=
    eq_ok_of_isOk (by decide +kernel) ([], Netlist.empty)
  have followed : (mixedGrown.attemptAll [.edit (.rewire (.slot 2) (.slot 1)), .apply]).isOk = true := by
    decide +kernel
  obtain ⟨arranged, distinct, kept⟩ := arranged_attemptAll called
  obtain ⟨index, found, same⟩ := kept _ _ _ added _ _ (eq_ok_of_isOk followed empty) (by simp)
  exact ⟨arranged, distinct, _, index, _, eq_ok_of_isOk followed empty, found, same⟩

end Ledger

end BankedMemory
