import BankedMemory.Proofs.Construction.Standing

/-!
# What an edit does

Every edit puts some slots at the end of the arena and then queues some replacements. What becomes of the arena, of
its cells and of the replacements is told by these two lists, whatever the edit is.
-/

namespace BankedMemory

namespace Edit

/-- The slots that an edit puts behind the first `index` ones. -/
def slots (index : Nat) : Edit → List Slot
  | add c => Slot.ofCell index c
  | addPlaceholders width => List.replicate width .placeholder
  | rewire _ _ => []
  | rewireBus _ _ => []

/-- The number of slots that an edit takes. -/
def extent : Edit → Nat
  | add c => max c.outputWidth 1
  | addPlaceholders width => width
  | _ => 0

/-- The number of nets that an edit hands out. -/
def width : Edit → Nat
  | add c => c.outputWidth
  | addPlaceholders width => width
  | _ => 0

/-- The cells that an edit adds, when its first slot has the number `index`. -/
def cells (index : Nat) : Edit → List (Nat × Cell)
  | add c => [(index, c)]
  | _ => []

/-- The placeholders that an edit adds, when its first slot has the number `index`. -/
def placeholders (index : Nat) : Edit → Bus
  | addPlaceholders width => Bus.ofSlots index width
  | _ => []

/-- The replacements that an edit asks for. -/
def replacements : Edit → List (Net × Net)
  | rewire source target => [(source, target)]
  | rewireBus source target => (source.zip target).filter fun pair => pair.1 ≠ pair.2
  | _ => []

/-- The nets that an edit replaces. -/
def replaced (change : Edit) : List Net := change.replacements.map Prod.fst

end Edit

section Lists

variable {index : Nat}

theorem Slot.length_ofCell (index : Nat) (c : Cell) : (Slot.ofCell index c).length = max c.outputWidth 1 := by
  simp only [Slot.ofCell, List.length_cons, List.length_replicate]
  omega

theorem Edit.length_slots (index : Nat) (change : Edit) : (change.slots index).length = change.extent := by
  cases change with
  | add c => exact Slot.length_ofCell index c
  | addPlaceholders width => exact List.length_replicate
  | rewire source target => rfl
  | rewireBus source target => rfl

theorem Edit.width_le_extent (change : Edit) : change.width ≤ change.extent := by
  cases change with
  | add c => exact Nat.le_max_left _ _
  | _ => exact Nat.le_refl _

/-- The cells among some slots of which the first has the number `index`. -/
def cellsIn (index : Nat) (slots : List Slot) : List (Nat × Cell) :=
  (slots.zipIdx index).filterMap fun entry => entry.1.cell?.map (entry.2, ·)

theorem cellsIn_append (index : Nat) (slots more : List Slot) :
    cellsIn index (slots ++ more) = cellsIn index slots ++ cellsIn (index + slots.length) more := by
  rw [cellsIn, List.zipIdx_append, List.filterMap_append, cellsIn, cellsIn]

theorem cellsIn_cons (index : Nat) (slot : Slot) (rest : List Slot) :
    cellsIn index (slot :: rest) = (slot.cell?.map (index, ·)).toList ++ cellsIn (index + 1) rest := by
  rw [cellsIn, List.zipIdx_cons, List.filterMap_cons]
  cases slot.cell? <;> rfl

theorem mem_cellsIn {slots : List Slot} {k : Nat} {c : Cell} :
    (k, c) ∈ cellsIn index slots ↔ index ≤ k ∧ slots[k - index]? = some (.cell c) := by
  rw [cellsIn, List.mem_filterMap]
  constructor
  · rintro ⟨⟨slot, place⟩, member, found⟩
    obtain ⟨d, is_cell, same⟩ := Option.map_eq_some_iff.mp found
    cases same
    obtain ⟨low, at_place⟩ := List.mk_mem_zipIdx_iff_le_and_getElem?_sub.mp member
    cases slot with
    | cell d =>
      cases is_cell
      exact ⟨low, at_place⟩
    | placeholder => cases is_cell
    | continuation start => cases is_cell
  · rintro ⟨low, found⟩
    exact ⟨(.cell c, k), List.mk_mem_zipIdx_iff_le_and_getElem?_sub.mpr ⟨low, found⟩, rfl⟩

theorem cellsIn_replicate {slot : Slot} (no_cell : slot.cell? = none) (index count : Nat) :
    cellsIn index (List.replicate count slot) = [] := by
  refine List.filterMap_eq_nil_iff.mpr fun entry member => ?_
  rw [List.eq_of_mem_replicate (List.fst_mem_of_mem_zipIdx member), no_cell]
  rfl

theorem cellsIn_ofCell (index : Nat) (c : Cell) : cellsIn index (Slot.ofCell index c) = [(index, c)] := by
  rw [Slot.ofCell, cellsIn_cons, cellsIn_replicate rfl]
  rfl

theorem cellsIn_map (f : Net → Net) (index : Nat) (slots : List Slot) :
    cellsIn index (slots.map (Slot.map f)) = (cellsIn index slots).map fun entry => (entry.1, entry.2.map f) := by
  induction slots generalizing index with
  | nil => rfl
  | cons slot rest ih =>
    rw [List.map_cons, cellsIn_cons, cellsIn_cons, ih, List.map_append]
    cases slot <;> rfl

theorem Edit.cellsIn_slots (index : Nat) (change : Edit) : cellsIn index (change.slots index) = change.cells index := by
  cases change with
  | add c => exact cellsIn_ofCell index c
  | addPlaceholders width => exact cellsIn_replicate rfl index width
  | rewire source target => rfl
  | rewireBus source target => rfl

/-- A placeholder among the new slots was asked for. -/
theorem Edit.mem_placeholders {change : Edit} {k : Nat} (found : (change.slots index)[k]? = some .placeholder) :
    .slot (index + k) ∈ change.placeholders index := by
  cases change with
  | add c =>
    cases k with
    | zero => simp [slots, Slot.ofCell] at found
    | succ k => simp [slots, Slot.ofCell, List.getElem?_replicate] at found
  | addPlaceholders width =>
    obtain ⟨inside, _⟩ := List.getElem?_eq_some_iff.mp found
    rw [slots, List.length_replicate] at inside
    exact List.mem_map.mpr ⟨index + k, List.mem_range'_1.mpr (by omega), rfl⟩
  | rewire source target => cases found
  | rewireBus source target => cases found

end Lists

namespace Netlist

variable {netlist after : Netlist} {change : Edit} {pairs : List (Net × Net)}

/-- Whether an edit is in order, apart from what it replaces. -/
def permit (netlist : Netlist) : Edit → Except Fault Unit
  | .add c => netlist.checkCell c
  | .addPlaceholders width => netlist.checkRoom width
  | .rewire _ _ => .ok ()
  | .rewireBus source target => Size.agree source.length target.length

/-- Queues some replacements, one after the other. -/
def rewireAll (netlist : Netlist) (pairs : List (Net × Net)) : Except Fault Netlist :=
  pairs.foldlM (fun netlist pair => netlist.rewire pair.1 pair.2) netlist

theorem rewireAll_cons (netlist : Netlist) (pair : Net × Net) (rest : List (Net × Net)) :
    netlist.rewireAll (pair :: rest) = netlist.rewire pair.1 pair.2 >>= fun after => after.rewireAll rest := by
  rw [rewireAll, List.foldlM_cons]
  rfl

theorem rewireBus_eq (netlist : Netlist) (source target : Bus) : netlist.rewireBus source target =
    Size.agree source.length target.length >>= fun _ =>
      netlist.rewireAll ((source.zip target).filter fun pair => pair.1 ≠ pair.2) := by
  unfold rewireBus
  refine congrArg (Size.agree source.length target.length >>= ·) (funext fun _ => ?_)
  generalize source.zip target = pairs
  induction pairs generalizing netlist with
  | nil => rfl
  | cons pair rest ih =>
    rw [List.foldlM_cons, List.filter_cons]
    by_cases same : pair.1 = pair.2
    · simpa [same, bind, Except.bind] using ih netlist
    · simp only [same, if_false, ne_eq, not_false_eq_true, decide_true, if_true, rewireAll_cons]
      exact congrArg (netlist.rewire pair.1 pair.2 >>= ·) (funext ih)

/-- Every edit puts slots at the end of the queue and then queues its replacements. -/
theorem edit_eq (netlist : Netlist) (change : Edit) : netlist.edit change =
    netlist.permit change >>= fun _ => (netlist.enqueue (change.slots netlist.next)).rewireAll change.replacements := by
  have unchanged : netlist.enqueue [] = netlist := by simp [enqueue]
  cases change with
  | add c =>
    simp only [edit, add, permit]
    cases netlist.checkCell c <;> rfl
  | addPlaceholders width =>
    simp only [edit, addPlaceholders, permit]
    cases netlist.checkRoom width <;> rfl
  | rewire source target =>
    simp only [edit, permit, Edit.slots, Edit.replacements, unchanged, rewireAll_cons]
    cases netlist.rewire source target <;> rfl
  | rewireBus source target => rw [edit, rewireBus_eq, permit, Edit.slots, Edit.replacements, unchanged]

theorem permit_congr {other : Netlist} (same : netlist.next = other.next) (change : Edit) :
    netlist.permit change = other.permit change := by
  have numbers (width : Nat) : netlist.Numbered width ↔ other.Numbered width := by
    rw [Numbered, Numbered, same]
  cases change with
  | add c => simp only [permit, checkCell, checkOutput, numbers, same]
  | addPlaceholders width => simp only [permit, checkRoom, numbers, same]
  | _ => rfl

section Replacements

variable {net target : Net}

theorem arena_rewireAll (h : netlist.rewireAll pairs = .ok after) : after.arena = netlist.arena := by
  induction pairs generalizing netlist with
  | nil =>
    cases h
    rfl
  | cons pair rest ih =>
    rw [rewireAll_cons] at h
    obtain ⟨middle, first, later⟩ := Storage.Build.except_bind_eq_ok.mp h
    obtain ⟨_, rfl⟩ := rewire_eq_ok_iff.mp first
    exact (ih later :)

/-- A net is replaced afterwards if it was so before or is replaced now. -/
theorem target?_rewireAll (h : netlist.rewireAll pairs = .ok after) : after.rewiring.target? net = some target ↔
    netlist.rewiring.target? net = some target ∨ (net, target) ∈ pairs := by
  induction pairs generalizing netlist with
  | nil =>
    cases h
    simp
  | cons pair rest ih =>
    rw [rewireAll_cons] at h
    obtain ⟨middle, first, later⟩ := Storage.Build.except_bind_eq_ok.mp h
    obtain ⟨free, rfl⟩ := rewire_eq_ok_iff.mp first
    rw [ih later, Rewiring.target?_insert, List.mem_cons, ← or_assoc]
    refine or_congr_left ?_
    split
    · rename_i here
      rw [← here, free]
      obtain ⟨source, replacement⟩ := pair
      simp [eq_comm]
    · rename_i other
      refine (or_iff_left fun same => other ?_).symm
      rw [← same]

/-- What is replaced after an edit was so before or is replaced by it. -/
theorem target?_edit (h : netlist.edit change = .ok after) : after.rewiring.target? net = some target ↔
    netlist.rewiring.target? net = some target ∨ (net, target) ∈ change.replacements := by
  rw [edit_eq] at h
  obtain ⟨_, _, done⟩ := Storage.Build.except_bind_eq_ok.mp h
  exact (target?_rewireAll done :)

/-- What is not replaced after an edit was not replaced before, and not by the edit. -/
theorem kept_edit (h : netlist.edit change = .ok after) (kept : after.rewiring.target? net = none) :
    netlist.rewiring.target? net = none ∧ net ∉ change.replaced := by
  have never (target : Net) : ¬ (netlist.rewiring.target? net = some target ∨ (net, target) ∈ change.replacements) := by
    intro replaced
    rw [(target?_edit h).mpr replaced] at kept
    cases kept
  constructor
  · exact Option.eq_none_iff_forall_ne_some.mpr fun target earlier => never target (Or.inl earlier)
  · intro replaced
    obtain ⟨⟨_, target⟩, pair, rfl⟩ := List.mem_map.mp replaced
    exact never target (Or.inr pair)

theorem target?_edit_of_kept (h : netlist.edit change = .ok after) (kept : net ∉ change.replaced) :
    after.rewiring.target? net = netlist.rewiring.target? net := by
  refine Option.ext fun target => (target?_edit h).trans (or_iff_left fun member => kept ?_)
  exact List.mem_map.mpr ⟨_, member, rfl⟩

end Replacements

/-- The slots of an edit come behind those that there are. -/
theorem arena_edit (h : netlist.edit change = .ok after) :
    after.arena.toList = netlist.arena.toList ++ change.slots netlist.next := by
  rw [edit_eq] at h
  obtain ⟨_, _, done⟩ := Storage.Build.except_bind_eq_ok.mp h
  rw [arena_rewireAll done, arena_enqueue, Array.toList_append]

theorem next_edit (h : netlist.edit change = .ok after) : after.next = netlist.next + change.extent := by
  have longer := congrArg List.length (arena_edit h)
  rwa [List.length_append, Edit.length_slots, Array.length_toList, Array.length_toList, size_arena,
    size_arena] at longer

/-- A slot after an edit is an old one or one of the edit's. -/
theorem getElem?_arena_edit (h : netlist.edit change = .ok after) {index : Nat} {slot : Slot}
    (found : after.arena[index]? = some slot) : index < netlist.next ∧ netlist.arena[index]? = some slot ∨
      netlist.next ≤ index ∧ (change.slots netlist.next)[index - netlist.next]? = some slot := by
  by_cases inside : index < netlist.next
  · exact Or.inl ⟨inside, by rwa [(edit_extends h).arena index inside] at found⟩
  · refine Or.inr ⟨Nat.le_of_not_lt inside, ?_⟩
    have size : netlist.arena.toList.length = netlist.next := by rw [Array.length_toList, size_arena]
    rwa [← Array.getElem?_toList, arena_edit h, List.getElem?_append_right (by omega), size] at found

/-- A placeholder was there before the edit, or the edit has asked for it. -/
theorem placeholder_edit (h : netlist.edit change = .ok after) {index : Nat}
    (found : after.arena[index]? = some .placeholder) :
    netlist.arena[index]? = some .placeholder ∨ .slot index ∈ change.placeholders netlist.next := by
  rcases getElem?_arena_edit h found with ⟨_, earlier⟩ | ⟨beyond, latest⟩
  · exact Or.inl earlier
  · have asked := Edit.mem_placeholders latest
    rw [Nat.add_sub_cancel' beyond] at asked
    exact Or.inr asked

/-- The cells in the arena from a slot on. -/
def added (netlist : Netlist) (base : Nat) : List (Nat × Cell) := cellsIn base (netlist.arena.toList.drop base)

theorem mem_added {base index : Nat} {c : Cell} :
    (index, c) ∈ netlist.added base ↔ base ≤ index ∧ netlist.arena[index]? = some (.cell c) := by
  rw [added, mem_cellsIn]
  refine and_congr_right fun low => ?_
  rw [List.getElem?_drop, Nat.add_sub_cancel' low, Array.getElem?_toList]

theorem added_edit {base : Nat} (low : base ≤ netlist.next) (h : netlist.edit change = .ok after) :
    after.added base = netlist.added base ++ change.cells netlist.next := by
  have inside : base ≤ netlist.arena.toList.length := by rwa [Array.length_toList, size_arena]
  have behind : base + (netlist.arena.toList.length - base) = netlist.next := by
    rw [Nat.add_sub_cancel' inside, Array.length_toList, size_arena]
  rw [added, arena_edit h, List.drop_append_of_le_length inside, cellsIn_append, List.length_drop, behind,
    Edit.cellsIn_slots, added]

end Netlist

end BankedMemory
