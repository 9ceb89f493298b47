import BankedMemory.Proofs.Construction.Edits

/-!
# What becomes of operands

Revisions exchange the operands of the cells that there are. An operand that nothing replaces stays what it is, and one
that is replaced becomes what its replacement becomes. No operand is left that was replaced before the netlist was
applied.
-/

namespace BankedMemory.Netlist

section Operands

variable {slots : Array Slot} {net : Net}

theorem mem_operandsOf : net ∈ operandsOf slots ↔ ∃ c, .cell c ∈ slots ∧ net ∈ c.nets := by
  unfold operandsOf
  rw [List.mem_flatMap]
  constructor
  · rintro ⟨slot, member, operand⟩
    cases slot with
    | cell c => exact ⟨c, Array.mem_toList_iff.mp member, operand⟩
    | placeholder => cases operand
    | continuation start => cases operand
  · rintro ⟨c, member, operand⟩
    exact ⟨.cell c, Array.mem_toList_iff.mpr member, operand⟩

theorem mem_operandsOf_map {f : Net → Net} :
    net ∈ operandsOf (slots.map (Slot.map f)) ↔ ∃ operand ∈ operandsOf slots, f operand = net := by
  simp only [mem_operandsOf, Array.mem_map]
  constructor
  · rintro ⟨c, ⟨slot, member, mapped⟩, operand⟩
    cases slot with
    | cell d =>
      cases mapped
      rw [Cell.nets_map] at operand
      obtain ⟨original, at_cell, rfl⟩ := List.mem_map.mp operand
      exact ⟨original, ⟨d, member, at_cell⟩, rfl⟩
    | placeholder => cases mapped
    | continuation start => cases mapped
  · rintro ⟨original, ⟨c, member, operand⟩, rfl⟩
    refine ⟨c.map f, ⟨.cell c, member, rfl⟩, ?_⟩
    rw [Cell.nets_map]
    exact List.mem_map_of_mem operand

/-- Only what becomes of the operands matters. -/
theorem map_slots_congr {f g : Net → Net} (same : ∀ net ∈ operandsOf slots, f net = g net) :
    slots.map (Slot.map f) = slots.map (Slot.map g) := by
  refine Array.map_congr_left fun slot member => ?_
  cases slot with
  | cell c =>
    exact congrArg Slot.cell (Cell.map_congr fun net operand => same net (mem_operandsOf.mpr ⟨c, member, operand⟩))
  | placeholder => rfl
  | continuation start => rfl

/-- Without replacements all operands stay. -/
theorem map_resolve_empty (slots : Array Slot) : slots.map (Slot.map (Rewiring.resolve ∅)) = slots := by
  have unchanged : Rewiring.resolve ∅ = id :=
    funext fun net => Rewiring.resolve_of_target?_eq_none (target?_empty net)
  have same : Slot.map id = id := funext Slot.map_id
  rw [unchanged, same, Array.map_id]

end Operands

variable {netlist middle after : Netlist} {revisions : List Revision} {edits : List Edit} {net target : Net}
  {index : Nat} {c : Cell}

/-- A net that nothing replaces stays what it is. -/
theorem resolvedAll_of_kept (revised : netlist.reviseAll revisions = .ok after)
    (kept : netlist.rewiring.target? net = none) (never : ∀ change, .edit change ∈ revisions → net ∉ change.replaced) :
    netlist.resolvedAll revisions net = net := by
  induction revisions generalizing netlist with
  | nil => rfl
  | cons revision rest ih =>
    obtain ⟨middle, first, later⟩ := reviseAll_cons_eq_ok.mp revised
    have still : middle.rewiring.target? net = none ∧ netlist.resolved revision net = net := by
      cases revision with
      | edit change => exact ⟨(target?_edit_of_kept first (never change List.mem_cons_self)).trans kept, rfl⟩
      | apply =>
        obtain ⟨_, rfl⟩ := apply_eq_ok_iff.mp first
        exact ⟨target?_empty net, Rewiring.resolve_of_target?_eq_none kept⟩
    have tail := ih later still.1 fun change member => never change (List.mem_cons_of_mem revision member)
    rw [resolvedAll_cons first, Function.comp_apply, still.2, tail]

/-- An operand that is replaced becomes what its replacement becomes. -/
theorem resolvedAll_of_replaced (revised : netlist.reviseAll revisions = .ok after) (applied : .apply ∈ revisions)
    (found : netlist.arena[index]? = some (.cell c)) (operand : net ∈ c.nets)
    (replaced : netlist.rewiring.target? net = some target) :
    netlist.resolvedAll revisions net = netlist.resolvedAll revisions target := by
  induction revisions generalizing netlist with
  | nil => cases applied
  | cons revision rest ih =>
    obtain ⟨middle, first, later⟩ := reviseAll_cons_eq_ok.mp revised
    rw [resolvedAll_cons first]
    cases revision with
    | edit change =>
      have applied_later : .apply ∈ rest := (List.mem_cons.mp applied).resolve_left nofun
      exact ih later applied_later ((edit_extends first).slot found) ((target?_edit first).mpr (Or.inl replaced))
    | apply =>
      have ends := (apply_eq_ok_iff.mp first).1 net (mem_operandsOf.mpr ⟨c, Array.mem_of_getElem? found, operand⟩)
      exact congrArg (middle.resolvedAll rest) (Rewiring.resolve_eq_of_target? ends replaced)

/-- Edits revoke no replacement. -/
theorem target?_editAll (edited : netlist.editAll edits = .ok after)
    (replaced : netlist.rewiring.target? net = some target) : after.rewiring.target? net = some target := by
  induction edits generalizing netlist with
  | nil =>
    cases edited
    exact replaced
  | cons change rest ih =>
    obtain ⟨middle, first, later⟩ := Storage.Build.except_bind_eq_ok.mp edited
    exact ih later ((target?_edit first).mpr (Or.inl replaced))

/-- No operand of an applied cell is a net that was replaced before. -/
theorem target?_of_operand (edited : netlist.editAll edits = .ok middle) (applied : middle.apply = .ok after)
    (found : after.cell? index = some c) (operand : net ∈ c.nets) : netlist.rewiring.target? net = none := by
  obtain ⟨ends, rfl⟩ := apply_eq_ok_iff.mp applied
  have at_slot := cell?_eq_some_iff.mp found
  obtain ⟨original, at_arena, rfl⟩ := mem_operandsOf_map.mp
    (mem_operandsOf.mpr ⟨c, Array.mem_of_getElem? at_slot, operand⟩)
  have last := Rewiring.target?_resolve (ends original at_arena)
  cases replaced : netlist.rewiring.target? (middle.rewiring.resolve original) with
  | none => rfl
  | some target => exact absurd ((target?_editAll edited replaced).symm.trans last) (Option.some_ne_none target)

end BankedMemory.Netlist
