import BankedMemory.Netlist.Basic

/-!
# How a netlist grows before it is applied

Applied and queued slots together are the arena of a netlist. Adding cells and placeholders lengthens the arena and
changes none of its slots; the replacements queued by a build concern placeholders only. A cell that was queued stays
in its place in every longer arena.
-/

namespace BankedMemory.Netlist

/-- All slots, applied or queued. -/
def arena (netlist : Netlist) : Array Slot := netlist.slots ++ netlist.queued

/-- The arena has only become longer. -/
structure Extends (before after : Netlist) : Prop where
  next_le : before.next ≤ after.next
  arena : ∀ index < before.next, after.arena[index]? = before.arena[index]?

/-- The arena has become longer, and only placeholders have been replaced. -/
structure Grows (before after : Netlist) : Prop extends Extends before after where
  rewired : ∀ net target, before.rewiring.target? net = some target → after.rewiring.target? net = some target
  placeholders : ∀ net, after.rewiring.target? net = before.rewiring.target? net ∨
    ∃ index, net = .slot index ∧ after.arena[index]? = some .placeholder

/-- A cell whose operands fit together stands in the arena, not before a given slot, and puts out a given bus. -/
def Queued (base : Nat) (netlist : Netlist) (output : Bus) (c : Cell) : Prop :=
  c.check = .ok () ∧ ∃ index, base ≤ index ∧ output = Bus.ofSlots index c.outputWidth ∧
    ∀ k slot, (Slot.ofCell index c)[k]? = some slot → netlist.arena[index + k]? = some slot

/-- All nets of a bus are placeholders from a given slot on. -/
def Blank (base : Nat) (netlist : Netlist) (bus : Bus) : Prop :=
  ∀ net ∈ bus, ∃ index, base ≤ index ∧ net = .slot index ∧ netlist.arena[index]? = some .placeholder

variable {netlist before middle after : Netlist}

theorem size_arena (netlist : Netlist) : netlist.arena.size = netlist.next := by
  simp [arena, next]

theorem lt_next_of_arena {index : Nat} {slot : Slot} (h : netlist.arena[index]? = some slot) :
    index < netlist.next := by
  obtain ⟨inside, _⟩ := Array.getElem?_eq_some_iff.mp h
  rwa [size_arena] at inside

theorem Extends.refl (netlist : Netlist) : Extends netlist netlist := ⟨Nat.le_refl _, fun _ _ => rfl⟩

theorem Extends.trans (first : Extends before middle) (second : Extends middle after) : Extends before after where
  next_le := Nat.le_trans first.next_le second.next_le
  arena index inside :=
    (second.arena index (Nat.lt_of_lt_of_le inside first.next_le)).trans (first.arena index inside)

theorem Extends.slot (h : Extends before after) {index : Nat} {slot : Slot}
    (found : before.arena[index]? = some slot) : after.arena[index]? = some slot :=
  (h.arena index (lt_next_of_arena found)).trans found

theorem Grows.refl (netlist : Netlist) : Grows netlist netlist where
  toExtends := .refl netlist
  rewired _ _ h := h
  placeholders _ := Or.inl rfl

theorem Grows.trans (first : Grows before middle) (second : Grows middle after) : Grows before after where
  toExtends := first.toExtends.trans second.toExtends
  rewired net target h := second.rewired net target (first.rewired net target h)
  placeholders net := by
    rcases second.placeholders net with same | placed
    · rcases first.placeholders net with same' | ⟨index, rfl, found⟩
      · exact Or.inl (same.trans same')
      · exact Or.inr ⟨index, rfl, second.toExtends.slot found⟩
    · exact Or.inr placed

theorem Queued.extends {base : Nat} {output : Bus} {c : Cell} (h : Queued base before output c)
    (longer : Extends before after) : Queued base after output c := by
  obtain ⟨checked, index, low, output_eq, slots⟩ := h
  exact ⟨checked, index, low, output_eq, fun k slot found => longer.slot (slots k slot found)⟩

theorem Blank.extends {base : Nat} {bus : Bus} (h : Blank base before bus) (longer : Extends before after) :
    Blank base after bus := by
  intro net member
  obtain ⟨index, low, net_eq, found⟩ := h net member
  exact ⟨index, low, net_eq, longer.slot found⟩

theorem arena_enqueue (netlist : Netlist) (slots : List Slot) :
    (netlist.enqueue slots).arena = netlist.arena ++ slots.toArray := by
  apply Array.toList_inj.mp
  simp [arena, enqueue]

theorem next_enqueue (netlist : Netlist) (slots : List Slot) :
    (netlist.enqueue slots).next = netlist.next + slots.length := by
  rw [← size_arena, arena_enqueue, Array.size_append, size_arena, List.size_toArray]

theorem arena_enqueue_left (netlist : Netlist) (slots : List Slot) {index : Nat} (inside : index < netlist.next) :
    (netlist.enqueue slots).arena[index]? = netlist.arena[index]? := by
  rw [arena_enqueue, Array.getElem?_append_left (by rwa [size_arena])]

theorem arena_enqueue_right (netlist : Netlist) (slots : List Slot) (k : Nat) :
    (netlist.enqueue slots).arena[netlist.next + k]? = slots[k]? := by
  rw [arena_enqueue, Array.getElem?_append_right (by rw [size_arena]; omega), size_arena]
  simp

theorem grows_enqueue (netlist : Netlist) (slots : List Slot) : Grows netlist (netlist.enqueue slots) where
  next_le := by
    rw [next_enqueue]
    omega
  arena _ inside := arena_enqueue_left netlist slots inside
  rewired _ _ h := h
  placeholders _ := Or.inl rfl

theorem grows_push (netlist : Netlist) (c : Cell) : Grows netlist (netlist.push c).2 :=
  grows_enqueue netlist _

theorem grows_pushPlaceholders (netlist : Netlist) (width : Nat) :
    Grows netlist (netlist.pushPlaceholders width).2 :=
  grows_enqueue netlist _

theorem queued_push {base : Nat} (netlist : Netlist) {c : Cell} (checked : c.check = .ok ())
    (low : base ≤ netlist.next) : Queued base (netlist.push c).2 (netlist.push c).1 c := by
  refine ⟨checked, netlist.next, low, rfl, fun k slot found => ?_⟩
  show (netlist.enqueue _).arena[netlist.next + k]? = some slot
  rw [arena_enqueue_right, found]

theorem blank_pushPlaceholders {base : Nat} (netlist : Netlist) (width : Nat) (low : base ≤ netlist.next) :
    Blank base (netlist.pushPlaceholders width).2 (netlist.pushPlaceholders width).1 := by
  intro net member
  obtain ⟨k, inside, rfl⟩ : ∃ k, k < width ∧ net = .slot (netlist.next + k) := by
    simp only [pushPlaceholders, Bus.ofSlots, List.mem_map, List.mem_range'_1] at member
    obtain ⟨index, ⟨low, high⟩, rfl⟩ := member
    exact ⟨index - netlist.next, by omega, by congr 1; omega⟩
  refine ⟨netlist.next + k, by omega, rfl, ?_⟩
  show (netlist.enqueue _).arena[netlist.next + k]? = some .placeholder
  rw [arena_enqueue_right, List.getElem?_replicate_of_lt inside]

end BankedMemory.Netlist
