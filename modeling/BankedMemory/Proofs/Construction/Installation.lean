import BankedMemory.Proofs.Construction.Additions
import BankedMemory.Proofs.Construction.Placement
import BankedMemory.Proofs.Evaluation.Runs
import BankedMemory.Proofs.Evaluation.Widths
import BankedMemory.Storage.Assembly

/-!
# Installations

An installation is a memory built into some netlist, together with all that its user adds before and after the build
until the netlist is applied. The user may connect anything to anything, but queues no replacement of a constant or
of a net that the build created. Whatever the build has queued is then in its place.
-/

namespace BankedMemory

/-- What a user may do to a netlist that has not been applied yet. -/
inductive Edit where
  | add (c : Cell)
  | addPlaceholders (width : Nat)
  | rewire (source target : Net)
  | rewireBus (source target : Bus)

namespace Netlist

variable {netlist after : Netlist}

def edit (netlist : Netlist) : Edit → Except Fault Netlist
  | .add c => return (← netlist.add c).2
  | .addPlaceholders width => return (← netlist.addPlaceholders width).2
  | .rewire source target => netlist.rewire source target
  | .rewireBus source target => netlist.rewireBus source target

def editAll (netlist : Netlist) (edits : List Edit) : Except Fault Netlist := edits.foldlM edit netlist

theorem Rewires.extends {pairs : List (Net × Net)} (h : Rewires pairs netlist after) : Extends netlist after where
  next_le := Nat.le_of_eq h.next.symm
  arena index _ := by rw [h.arena]

theorem edit_add_eq_ok_iff {c : Cell} : netlist.edit (.add c) = .ok after ↔
    (c.check = .ok () ∧ netlist.Numbered c.outputWidth) ∧ after = (netlist.push c).2 := by
  rw [← checkCell_eq_ok_iff, edit, add]
  cases netlist.checkCell c with
  | error cause => exact ⟨nofun, nofun⟩
  | ok fit => exact ⟨fun done => ⟨rfl, (Except.ok.inj done).symm⟩, fun done => congrArg _ done.2.symm⟩

theorem edit_addPlaceholders_eq_ok_iff {width : Nat} : netlist.edit (.addPlaceholders width) = .ok after ↔
    netlist.Numbered width ∧ after = (netlist.pushPlaceholders width).2 := by
  rw [← checkRoom_eq_ok_iff, edit, addPlaceholders]
  cases netlist.checkRoom width with
  | error cause => exact ⟨nofun, nofun⟩
  | ok room => exact ⟨fun done => ⟨rfl, (Except.ok.inj done).symm⟩, fun done => congrArg _ done.2.symm⟩

/-- An edit queues a cell whose operands fit together, or placeholders, or the replacement of some nets. -/
theorem edit_cases {change : Edit} (h : netlist.edit change = .ok after) :
    (∃ c, c.check = .ok () ∧ after = (netlist.push c).2) ∨
      (∃ width, netlist.Numbered width ∧ after = (netlist.pushPlaceholders width).2) ∨
      ∃ pairs, Rewires pairs netlist after := by
  cases change with
  | add c =>
    obtain ⟨⟨fit, _⟩, same⟩ := edit_add_eq_ok_iff.mp h
    exact Or.inl ⟨c, fit, same⟩
  | addPlaceholders width => exact Or.inr (Or.inl ⟨width, edit_addPlaceholders_eq_ok_iff.mp h⟩)
  | rewire source target => exact Or.inr (Or.inr ⟨_, rewires_rewire h⟩)
  | rewireBus source target => exact Or.inr (Or.inr ⟨_, (rewireBus_eq_ok h).2⟩)

theorem edit_extends {change : Edit} (h : netlist.edit change = .ok after) : Extends netlist after := by
  rcases edit_cases h with ⟨c, _, rfl⟩ | ⟨width, _, rfl⟩ | ⟨pairs, rewires⟩
  · exact (grows_push netlist c).toExtends
  · exact (grows_pushPlaceholders netlist width).toExtends
  · exact rewires.extends

theorem editAll_extends {edits : List Edit} (h : netlist.editAll edits = .ok after) : Extends netlist after := by
  unfold editAll at h
  induction edits generalizing netlist with
  | nil =>
    cases h
    exact .refl _
  | cons change rest ih =>
    rw [List.foldlM_cons] at h
    cases first : netlist.edit change with
    | error cause => simp [first, bind, Except.bind] at h
    | ok middle =>
      simp only [first, bind, Except.bind] at h
      exact (edit_extends first).trans (ih h)

end Netlist

theorem eq_ok_of_isOk {ε α : Type} {x : Except ε α} (h : x.isOk = true) (default : α) :
    x = .ok (x.toOption.getD default) := by
  cases x with
  | error cause => cases h
  | ok result => rfl

namespace Storage

/-- A memory built into a netlist that is then applied. -/
structure Installation (build : Build Assembly) where
  before : Netlist
  assembly : Assembly
  bench : Workbench
  built : build.Ends (.ofNetlist before) assembly bench
  edits : List Edit
  edited : Netlist
  edited_eq : bench.netlist.editAll edits = .ok edited
  netlist : Netlist
  applied : edited.apply = .ok netlist
  /-- No constant is replaced. -/
  constants_kept : ∀ bit, edited.rewiring.target? (.const bit) = none
  /-- Nothing that the build creates is replaced beforehand. -/
  created_fresh : ∀ index, before.next ≤ index → index < bench.netlist.next →
    before.rewiring.target? (.slot index) = none
  /-- Nothing that the build created is replaced afterwards, except by the build itself. -/
  created_kept : ∀ index, before.next ≤ index → index < bench.netlist.next →
    edited.rewiring.target? (.slot index) = bench.netlist.rewiring.target? (.slot index)

namespace Installation

/-- A memory that is built into a netlist without replacements, and applied at once. -/
def atOnce (build : Build Assembly) (before : Netlist)
    (built : (build.run.run (.ofNetlist before)).1.isOk = true) (unchanged : before.rewiring = ∅)
    (constants_kept : ∀ bit, (build.run.run (.ofNetlist before)).2.netlist.rewiring.target? (.const bit) = none)
    (applied : (build.run.run (.ofNetlist before)).2.netlist.apply.isOk = true) : Installation build where
  before
  assembly := (build.run.run (.ofNetlist before)).1.toOption.getD ⟨[], []⟩
  bench := (build.run.run (.ofNetlist before)).2
  built := Prod.ext (eq_ok_of_isOk built _) rfl
  edits := []
  edited := (build.run.run (.ofNetlist before)).2.netlist
  edited_eq := rfl
  netlist := (build.run.run (.ofNetlist before)).2.netlist.apply.toOption.getD .empty
  applied := eq_ok_of_isOk applied _
  constants_kept
  created_fresh index _ _ := by
    rw [unchanged]
    simp [Rewiring.target?]
  created_kept _ _ _ := rfl

variable {build : Build Assembly} (site : Installation build)

/-- The net that drives a net of the user or of the build once the netlist is applied. -/
def resolve (net : Net) : Net := site.edited.rewiring.resolve net

/-- The bits on the nets of the user and of the build, in a state of the applied netlist. -/
def value (state : State) (net : Net) : Trit := site.netlist.valueIn state (site.resolve net)

/-- A bus of the user or of the build shows a word. -/
def Shows (state : State) (bus : Bus) (word : Bits) : Prop :=
  site.netlist.Shows state (bus.map site.resolve) word

/-- A cell of the build is in its place, and its output stands for itself. Its operands lead along chains that end. -/
structure Has (output : Bus) (c : Cell) : Prop where
  checked : c.check = .ok ()
  placed : site.netlist.Placed output (c.map site.resolve)
  fixed : output.map site.resolve = output
  ends : ∀ net ∈ c.nets, site.edited.rewiring.isEndless net = false

/-- A net of the source that leads along a chain that ends stands for the net at its place in the target. -/
def Tied (source target : Bus) : Prop :=
  source.length = target.length ∧ ∀ pair ∈ source.zip target,
    site.edited.rewiring.isEndless pair.1 = false → site.resolve pair.1 = site.resolve pair.2

theorem extends_edited : site.bench.netlist.Extends site.edited := Netlist.editAll_extends site.edited_eq

theorem slots_netlist {index : Nat} {slot : Slot} (h : site.bench.netlist.arena[index]? = some slot) :
    site.netlist.slots[index]? = some (slot.map site.resolve) := by
  obtain ⟨_, netlist_eq⟩ := Netlist.apply_eq_ok_iff.mp site.applied
  have found := site.extends_edited.slot h
  rw [netlist_eq]
  simp only [Array.getElem?_map, found, Option.map_some]
  rfl

theorem resolve_const (bit : Trit) : site.resolve (.const bit) = .const bit :=
  Rewiring.resolve_of_target?_eq_none (site.constants_kept bit)

/-- A net that the build created, and not as a placeholder, stands for itself. -/
theorem resolve_created (grows : site.before.Grows site.bench.netlist) {index : Nat} {slot : Slot}
    (low : site.before.next ≤ index) (found : site.bench.netlist.arena[index]? = some slot)
    (solid : slot ≠ .placeholder) : site.resolve (.slot index) = .slot index := by
  have high := Netlist.lt_next_of_arena found
  apply Rewiring.resolve_of_target?_eq_none
  rw [site.created_kept index low high]
  rcases grows.placeholders (.slot index) with same | ⟨other, same, blank⟩
  · rw [same, site.created_fresh index low high]
  · cases same
    rw [found] at blank
    exact absurd (Option.some.inj blank) solid

theorem has_of_queued (grows : site.before.Grows site.bench.netlist) {output : Bus} {c : Cell}
    (h : Netlist.Queued site.before.next site.bench.netlist output c) : site.Has output c := by
  obtain ⟨checked, index, low, rfl, slots⟩ := h
  obtain ⟨none_endless, _⟩ := Netlist.apply_eq_ok_iff.mp site.applied
  refine ⟨checked, ?_, ?_, fun net operand => none_endless net ?_⟩
  · exact Netlist.placed_of_map fun k slot found => site.slots_netlist (slots k slot found)
  · conv_rhs => rw [← List.map_id (Bus.ofSlots index c.outputWidth)]
    apply List.map_congr_left
    intro net member
    obtain ⟨i, at_place⟩ := List.mem_iff_getElem?.mp member
    obtain ⟨inside, rfl⟩ := Bus.ofSlots_getElem? at_place
    cases i with
    | zero => exact site.resolve_created grows low (slots 0 _ (Slot.ofCell_head index c)) Slot.noConfusion
    | succ i =>
      exact site.resolve_created grows (by omega) (slots (i + 1) _ (Slot.ofCell_tail inside)) Slot.noConfusion
  · have found := site.extends_edited.slot (slots 0 _ (Slot.ofCell_head index c))
    exact List.mem_flatMap.mpr ⟨.cell c, Array.mem_toList_iff.mpr (Array.mem_of_getElem? found), operand⟩

theorem tied_of_build {source target : Bus}
    (h : Build.Tied site.before.next site.bench.netlist source target) : site.Tied source target := by
  obtain ⟨same, blank, each⟩ := h
  refine ⟨same, fun pair member ends => ?_⟩
  rcases each pair member with same_net | replaced
  · rw [same_net]
  · apply Rewiring.resolve_eq_of_target? ends
    obtain ⟨index, low, net_eq, found⟩ := blank pair.1 (List.of_mem_zip member).1
    rw [net_eq] at replaced ⊢
    rwa [site.created_kept index low (Netlist.lt_next_of_arena found)]

variable {site} {state : State}

theorem Shows.length {bus : Bus} {word : Bits} (h : site.Shows state bus word) : word.length = bus.length := by
  have := Netlist.Shows.length h
  rwa [List.length_map] at this

/-- A bus all of whose nets carry bits shows the word of these bits. -/
theorem shows_of_live (aligned : state.Aligned site.netlist) {bus : Bus}
    (live : ∀ net ∈ bus, site.netlist.Live state (site.resolve net)) :
    site.Shows state bus (bus.map (site.value state)) := by
  have shown : site.netlist.Shows state (bus.map site.resolve)
      ((bus.map site.resolve).map (site.netlist.valueIn state)) := by
    apply Netlist.shows_map
    intro net member
    obtain ⟨original, at_bus, rfl⟩ := List.mem_map.mp member
    exact (live original at_bus).carries_valueIn aligned
  rwa [List.map_map] at shown

/-- Placeholders that are operands of a cell of the build stand for what they are tied to. -/
theorem Tied.map_resolve {source target : Bus} (h : site.Tied source target) {output : Bus} {c : Cell}
    (cell : site.Has output c) (operands : ∀ net ∈ source, net ∈ c.nets) :
    source.map site.resolve = target.map site.resolve := by
  obtain ⟨same, each⟩ := h
  apply List.ext_getElem?
  intro i
  rw [List.getElem?_map, List.getElem?_map]
  by_cases inside : i < source.length
  · have inside' : i < target.length := same ▸ inside
    rw [List.getElem?_eq_getElem inside, List.getElem?_eq_getElem inside', Option.map_some, Option.map_some]
    have member : (source[i], target[i]) ∈ source.zip target := List.mem_of_getElem?
      (List.getElem?_zip_eq_some.mpr ⟨List.getElem?_eq_getElem inside, List.getElem?_eq_getElem inside'⟩)
    rw [each _ member (cell.ends _ (operands _ (List.getElem_mem inside)))]
  · have outside' : target.length ≤ i := same ▸ Nat.le_of_not_lt inside
    rw [List.getElem?_eq_none (Nat.le_of_not_lt inside), List.getElem?_eq_none outside']

/-- A cell with the same output as a cell of the build is that cell. -/
theorem Has.cell_eq {output : Bus} {c other : Cell} (h : site.Has output c) (wide : 0 < c.outputWidth) {index : Nat}
    (found : site.netlist.cell? index = some other) (same : site.netlist.outputOf index = output) :
    other = c.map site.resolve := by
  obtain ⟨place, output_eq, placed, _⟩ := h.placed
  rw [Cell.outputWidth_map] at output_eq
  have first : output[0]? = some (.slot place) := by
    rw [output_eq]
    simp [Bus.ofSlots, wide]
  have first' : (site.netlist.outputOf index)[0]? = some (.slot place) := by rw [same, first]
  simp only [Netlist.outputOf, found] at first'
  obtain ⟨_, slot_eq⟩ := Bus.ofSlots_getElem? first'
  have here : index = place := by
    have := Net.slot.inj slot_eq
    omega
  rw [here] at found
  exact Option.some.inj (found.symm.trans placed)

theorem Has.shows_invert (aligned : state.Aligned site.netlist) {output a : Bus} {wa : Bits}
    (h : site.Has output (.invert a)) (ha : site.Shows state a wa) : site.Shows state output wa.invert := by
  unfold Shows
  rw [h.fixed]
  exact h.placed.shows_invert aligned ha

theorem Has.shows_gate (aligned : state.Aligned site.netlist) {kind : Gate} {output a b : Bus} {wa wb : Bits}
    (h : site.Has output (.gate kind a b)) (ha : site.Shows state a wa) (hb : site.Shows state b wb) :
    site.Shows state output (List.zipWith kind.apply wa wb) := by
  have same : a.length = b.length := Size.agree_eq_ok_iff.mp h.checked
  unfold Shows
  rw [h.fixed]
  exact h.placed.shows_gate aligned (by simpa using same) ha hb

theorem Has.shows_equal (aligned : state.Aligned site.netlist) {output a b : Bus} {wa wb : Bits}
    (h : site.Has output (.equal a b)) (ha : site.Shows state a wa) (hb : site.Shows state b wb) :
    site.Shows state output [Bits.same wa wb] := by
  unfold Shows
  rw [h.fixed]
  exact h.placed.shows_equal aligned ha hb

end Installation

end Storage

end BankedMemory
