import BankedMemory.Proofs.Construction.Network
import BankedMemory.Proofs.Construction.Revisions
import BankedMemory.Proofs.Evaluation.Renaming

/-!
# Memories that stand in a netlist

A memory stands in a netlist once this has been applied, whatever its user does before and afterwards. Any nets may be
replaced, those of the build included. This exchanges operands only: every cell of the build stays at its slots, and
one function tells what has become of the operands of all of them.
-/

namespace BankedMemory

theorem Slot.map_map (f g : Net → Net) (slot : Slot) : (slot.map f).map g = slot.map (g ∘ f) := by
  cases slot with
  | cell c => simp only [Slot.map, Cell.map_map]
  | placeholder => rfl
  | continuation start => rfl

theorem Slot.map_id (slot : Slot) : slot.map id = slot := by
  cases slot with
  | cell c => simp only [Slot.map, Cell.map_id]
  | placeholder => rfl
  | continuation start => rfl

namespace Netlist

variable {netlist after : Netlist} {revision : Revision} {revisions : List Revision}

/-- Edits are queued, and leave the applied slots alone. -/
theorem slots_edit {change : Edit} (h : netlist.edit change = .ok after) : after.slots = netlist.slots := by
  rcases edit_cases h with ⟨c, _, rfl⟩ | ⟨width, _, rfl⟩ | ⟨pairs, rewires⟩
  · rfl
  · rfl
  · exact rewires.slots

/-- Applying leaves no slot in the queue. -/
theorem size_slots_apply (h : netlist.apply = .ok after) : after.slots.size = netlist.next := by
  obtain ⟨_, rfl⟩ := apply_eq_ok_iff.mp h
  rw [Array.size_map, size_arena]

theorem next_revise_le (h : netlist.revise revision = .ok after) : netlist.next ≤ after.next := by
  cases revision with
  | edit change => exact (edit_extends h).next_le
  | apply =>
    rw [← size_slots_apply h]
    exact Nat.le_add_right _ _

theorem size_slots_revise_le (h : netlist.revise revision = .ok after) : netlist.slots.size ≤ after.slots.size := by
  cases revision with
  | edit change => rw [slots_edit h]
  | apply =>
    rw [size_slots_apply h]
    exact Nat.le_add_right _ _

/-- All slots that there are before some revisions are applied by them, if any of them applies the netlist. -/
theorem next_le_size_slots (h : netlist.reviseAll revisions = .ok after) (applied : .apply ∈ revisions) :
    netlist.next ≤ after.slots.size := by
  induction revisions generalizing netlist with
  | nil => cases applied
  | cons revision rest ih =>
    obtain ⟨middle, first, later⟩ := reviseAll_cons_eq_ok.mp h
    rcases List.mem_cons.mp applied with rfl | applied
    · rw [← size_slots_apply first]
      exact reviseAll_keeps (P := fun netlist => middle.slots.size ≤ netlist.slots.size)
        (fun _ _ _ done here => Nat.le_trans here (size_slots_revise_le done)) later (Nat.le_refl _)
    · exact Nat.le_trans (next_revise_le first) (ih later applied)

/-- What a revision makes of the operands that there are. -/
def resolved (netlist : Netlist) : Revision → Net → Net
  | .edit _ => id
  | .apply => netlist.rewiring.resolve

/-- What some revisions make of the operands that there are, one after the other. -/
def resolvedAll (netlist : Netlist) : List Revision → Net → Net
  | [], net => net
  | revision :: rest, net =>
    match netlist.revise revision with
    | .ok after => after.resolvedAll rest (netlist.resolved revision net)
    | .error _ => net

theorem resolvedAll_cons {rest : List Revision} (h : netlist.revise revision = .ok after) :
    netlist.resolvedAll (revision :: rest) = after.resolvedAll rest ∘ netlist.resolved revision := by
  funext net
  simp [resolvedAll, h]

/-- A slot keeps its place, and its operands are resolved. -/
theorem arena_revise (h : netlist.revise revision = .ok after) {index : Nat} {slot : Slot}
    (found : netlist.arena[index]? = some slot) :
    after.arena[index]? = some (slot.map (netlist.resolved revision)) := by
  cases revision with
  | edit change =>
    rw [(edit_extends h).slot found]
    exact congrArg some slot.map_id.symm
  | apply =>
    obtain ⟨_, rfl⟩ := apply_eq_ok_iff.mp h
    refine getElem?_append_of_some ?_ _
    rw [Array.getElem?_map, found]
    rfl

theorem arena_reviseAll (h : netlist.reviseAll revisions = .ok after) {index : Nat} {slot : Slot}
    (found : netlist.arena[index]? = some slot) :
    after.arena[index]? = some (slot.map (netlist.resolvedAll revisions)) := by
  induction revisions generalizing netlist slot with
  | nil =>
    cases h
    rw [found]
    exact congrArg some slot.map_id.symm
  | cons revision rest ih =>
    obtain ⟨middle, first, later⟩ := reviseAll_cons_eq_ok.mp h
    rw [ih later (arena_revise first found), Slot.map_map, resolvedAll_cons first]

/-- Once some revisions have applied it, a slot is in its place, and its operands are resolved. -/
theorem slots_reviseAll (h : netlist.reviseAll revisions = .ok after) (applied : .apply ∈ revisions) {index : Nat}
    {slot : Slot} (found : netlist.arena[index]? = some slot) :
    after.slots[index]? = some (slot.map (netlist.resolvedAll revisions)) := by
  have inside := Nat.lt_of_lt_of_le (lt_next_of_arena found) (next_le_size_slots h applied)
  have moved := arena_reviseAll h found
  rwa [arena, Array.getElem?_append_left inside] at moved

end Netlist

namespace Storage

/-- A build that ends well. -/
theorem ends_of_isOk {build : Build Assembly} {before : Netlist}
    (built : (build.run.run (.ofNetlist before)).1.isOk = true) :
    build.Ends (.ofNetlist before) ((build.run.run (.ofNetlist before)).1.toOption.getD ⟨[], []⟩)
      (build.run.run (.ofNetlist before)).2 :=
  Prod.ext (eq_ok_of_isOk built _) rfl

/-- A memory built into a netlist, which is then revised in any way and thereby applied. -/
structure Standing (build : Build Assembly) where
  before : Netlist
  assembly : Assembly
  bench : Workbench
  built : build.Ends (.ofNetlist before) assembly bench
  revisions : List Revision
  applied : .apply ∈ revisions
  netlist : Netlist
  netlist_eq : bench.netlist.reviseAll revisions = .ok netlist

namespace Standing

/-- A memory that is built into a netlist, followed by some revisions. -/
def ofRevisions (build : Build Assembly) (before : Netlist) (revisions : List Revision)
    (built : (build.run.run (.ofNetlist before)).1.isOk = true) (applied : .apply ∈ revisions)
    (revised : ((build.run.run (.ofNetlist before)).2.netlist.reviseAll revisions).isOk = true) : Standing build where
  before
  assembly := (build.run.run (.ofNetlist before)).1.toOption.getD ⟨[], []⟩
  bench := (build.run.run (.ofNetlist before)).2
  built := ends_of_isOk built
  revisions
  applied
  netlist := ((build.run.run (.ofNetlist before)).2.netlist.reviseAll revisions).toOption.getD .empty
  netlist_eq := eq_ok_of_isOk revised _

variable {build : Build Assembly} (site : Standing build)

/-- What has become of an operand of the build. -/
def resolve : Net → Net := site.bench.netlist.resolvedAll site.revisions

/-- A cell of the build is in its place, with its operands resolved. -/
structure Has (output : Bus) (c : Cell) : Prop where
  checked : c.check = .ok ()
  placed : site.netlist.Placed output (c.map site.resolve)

/-- What was queued at a slot stands there, with its operands resolved. -/
theorem cell_of_arena {index : Nat} {c : Cell} (found : site.bench.netlist.arena[index]? = some (.cell c)) :
    site.netlist.cell? index = some (c.map site.resolve) :=
  Netlist.cell?_eq_some_iff.mpr (Netlist.slots_reviseAll site.netlist_eq site.applied found)

theorem outputOf_of_arena {index : Nat} {c : Cell} (found : site.bench.netlist.arena[index]? = some (.cell c)) :
    site.netlist.outputOf index = Bus.ofSlots index c.outputWidth := by
  simp only [Netlist.outputOf, site.cell_of_arena found, Cell.outputWidth_map]

theorem has_of_queued {base : Nat} {output : Bus} {c : Cell} (h : site.bench.netlist.Queued base output c) :
    site.Has output c := by
  obtain ⟨checked, index, _, rfl, slots⟩ := h
  exact ⟨checked, Netlist.placed_of_map fun k slot found =>
    Netlist.slots_reviseAll site.netlist_eq site.applied (slots k slot found)⟩

end Standing

/-- Wherever a network with a writer stands, all its cells are in their places. -/
theorem XorNetwork.exists_layout_standing {network : XorNetwork} (site : Standing network.build)
    (some_writer : network.ports.writers ≠ []) :
    ∃ lanes, network.Layout site.Has (fun _ _ => True) site.assembly lanes := by
  have low : Build.From 0 (Workbench.ofNetlist site.before).netlist := Nat.zero_le _
  obtain ⟨_, lanes, layout⟩ := adds_build some_writer _ _ _ low site.built
  exact ⟨lanes, layout.mono (fun _ _ queued => site.has_of_queued queued) fun _ _ _ => trivial⟩

end Storage

end BankedMemory
