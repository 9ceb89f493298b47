import BankedMemory.Proofs.Construction.Endings
import BankedMemory.Proofs.Construction.Resolution
import Mathlib.Logic.Relation

/-!
# Where operands are redirected

An operand follows its chain of replacements to the end. It has none exactly if the chain runs into a cycle: a chain
that is followed for longer than there are replaced nets has met some net twice. A netlist with such an operand is
refused, and the refusal names a net on the cycle. In any other netlist every operand of every cell, wherever it stands
in the cell, becomes the end of its chain, while all else in the cells stays.
-/

namespace BankedMemory

namespace Rewiring

open Relation

/-- One net is replaced by another. -/
def Link (rewiring : Rewiring) (net target : Net) : Prop := rewiring.target? net = some target

/-- Replacements lead from a net back to itself. -/
def OnCycle (rewiring : Rewiring) (net : Net) : Prop := TransGen rewiring.Link net net

/-- The chain from a net runs into a cycle. -/
def Circles (rewiring : Rewiring) (net : Net) : Prop := ∃ met, ReflTransGen rewiring.Link net met ∧ rewiring.OnCycle met

variable {rewiring : Rewiring} {net target met : Net}

/-- What a net on a cycle is replaced by is on the cycle too. -/
theorem OnCycle.link (cycle : rewiring.OnCycle net) (link : rewiring.Link net target) : rewiring.OnCycle target := by
  obtain ⟨next, first, rest⟩ := TransGen.head'_iff.mp cycle
  obtain rfl : next = target := Option.some.inj (first.symm.trans link)
  exact TransGen.tail' rest link

theorem OnCycle.reaches (cycle : rewiring.OnCycle net) (reaches : ReflTransGen rewiring.Link net met) :
    rewiring.OnCycle met := by
  induction reaches with
  | refl => exact cycle
  | tail _ link ih => exact ih.link link

theorem Circles.link (circles : rewiring.Circles net) (link : rewiring.Link net target) :
    rewiring.Circles target := by
  obtain ⟨met, reaches, cycle⟩ := circles
  rcases ReflTransGen.cases_head reaches with rfl | ⟨next, first, rest⟩
  · exact ⟨target, .refl, cycle.link link⟩
  · obtain rfl : next = target := Option.some.inj (first.symm.trans link)
    exact ⟨met, rest, cycle⟩

/-- A chain with an end runs into no cycle. -/
theorem Leads.not_circles {last : Net} (leads : rewiring.Leads net last) : ¬ rewiring.Circles net := by
  induction leads with
  | @done net kept =>
    rintro ⟨met, reaches, cycle⟩
    have stuck (target : Net) : ¬ rewiring.Link net target := fun link => by
      rw [Link, kept] at link
      cases link
    rcases ReflTransGen.cases_head reaches with rfl | ⟨next, first, _⟩
    · obtain ⟨next, first, _⟩ := TransGen.head'_iff.mp cycle
      exact stuck next first
    · exact stuck next first
  | link replaced _ ih => exact fun circles => ih (circles.link replaced)

theorem reaches_walk (steps : Nat) (net : Net) : ReflTransGen rewiring.Link net (rewiring.walk steps net) := by
  induction steps generalizing net with
  | zero => exact .refl
  | succ steps ih =>
    cases replaced : rewiring.target? net with
    | none => rw [walk_of_kept _ replaced]
    | some target =>
      rw [walk_succ _ replaced]
      exact .head replaced (ih target)

/-- Until the search is given up, all nets of an endless chain are replaced. -/
theorem replaced_of_isEndless (endless : rewiring.isEndless net = true) {steps : Nat} (few : steps ≤ rewiring.size) :
    ∃ target, rewiring.Link (rewiring.walk steps net) target := by
  cases replaced : rewiring.target? (rewiring.walk steps net) with
  | some target => exact ⟨target, replaced⟩
  | none =>
    obtain ⟨more, split⟩ := Nat.exists_eq_add_of_le few
    rw [isEndless, resolve, split, walk_add, walk_of_kept _ replaced, replaced] at endless
    cases endless

/-- The search follows more links than there are replaced nets, so it meets some net twice. -/
theorem exists_met_twice (endless : rewiring.isEndless net = true) :
    ∃ i j, i < j ∧ j ≤ rewiring.size ∧ rewiring.walk i net = rewiring.walk j net := by
  by_contra none
  have apart (i j : Nat) (before : i < j) (inside : j < rewiring.size + 1) :
      rewiring.walk i net ≠ rewiring.walk j net :=
    fun same => none ⟨i, j, before, Nat.le_of_lt_succ inside, same⟩
  have replaced (steps : Nat) (inside : steps < rewiring.size + 1) :
      rewiring.target? (rewiring.walk steps net) ≠ Option.none := by
    obtain ⟨target, link⟩ := replaced_of_isEndless endless (Nat.le_of_lt_succ inside)
    exact Option.ne_none_iff_exists'.mpr ⟨target, link⟩
  exact absurd (steps_le_size apart replaced) (Nat.not_succ_le_self _)

/-- The net at which the search is given up is on the cycle. -/
theorem onCycle_cycleNet (endless : rewiring.isEndless net = true) : rewiring.OnCycle (rewiring.cycleNet net) := by
  obtain ⟨i, j, before, inside, same⟩ := exists_met_twice endless
  obtain ⟨target, link⟩ := replaced_of_isEndless endless (Nat.le_of_lt (Nat.lt_of_lt_of_le before inside))
  -- one turn: the first link of it, and then on to the net that is met again
  have around : rewiring.walk (j - i - 1) target = rewiring.walk i net := by
    rw [same, ← Nat.add_sub_cancel' (Nat.le_of_lt before), walk_add, ← walk_succ _ link]
    congr 1
    omega
  have cycle : rewiring.OnCycle (rewiring.walk i net) :=
    TransGen.head' link (around ▸ reaches_walk (j - i - 1) target)
  have further : rewiring.cycleNet net = rewiring.walk (rewiring.size + 1 - i) (rewiring.walk i net) := by
    rw [cycleNet, ← walk_add, Nat.add_sub_cancel' (by omega)]
  exact further ▸ cycle.reaches (reaches_walk _ _)

/-- A chain is endless exactly if it runs into a cycle. -/
theorem isEndless_iff_circles : rewiring.isEndless net = true ↔ rewiring.Circles net := by
  constructor
  · exact fun endless => ⟨_, reaches_walk _ net, onCycle_cycleNet endless⟩
  · intro circles
    by_contra ends
    obtain ⟨last, leads⟩ := isEndless_eq_false_iff.mp (Bool.not_eq_true _ ▸ ends)
    exact leads.not_circles circles

end Rewiring

section Rewired

variable {R : Net → Net → Prop} {f : Net → Net}

/-- The net of a control is exchanged, its active level stays. -/
structure Control.Rewired (R : Net → Net → Prop) (before after : Control) : Prop where
  net : R before.net after.net
  activeLow : after.activeLow = before.activeLow

/-- All nets of a write port are exchanged. -/
structure WritePort.Rewired (R : Net → Net → Prop) (before after : WritePort) : Prop where
  addr : List.Forall₂ R before.addr after.addr
  data : List.Forall₂ R before.data after.data
  mask : List.Forall₂ R before.mask after.mask
  clock : before.clock.Rewired R after.clock

structure Register.Rewired (R : Net → Net → Prop) (before after : Register) : Prop where
  clock : before.clock.Rewired R after.clock
  enable : before.enable.Rewired R after.enable
  init : after.init = before.init
  visibility : after.visibility = before.visibility

structure ReadPort.Rewired (R : Net → Net → Prop) (before after : ReadPort) : Prop where
  addr : List.Forall₂ R before.addr after.addr
  width : after.width = before.width
  register : Option.Rel (Register.Rewired R) before.register after.register

structure Memory.Rewired (R : Net → Net → Prop) (before after : Memory) : Prop where
  depth : after.depth = before.depth
  width : after.width = before.width
  init : after.init = before.init
  attributes : after.attributes = before.attributes
  writePorts : List.Forall₂ (WritePort.Rewired R) before.writePorts after.writePorts
  readPorts : List.Forall₂ (ReadPort.Rewired R) before.readPorts after.readPorts

/-- All operands of a cell are exchanged, and nothing else. -/
inductive Cell.Rewired (R : Net → Net → Prop) : Cell → Cell → Prop where
  | invert {a a' : Bus} (first : List.Forall₂ R a a') : Rewired R (.invert a) (.invert a')
  | gate {a b a' b' : Bus} (kind : Gate) (first : List.Forall₂ R a a') (second : List.Forall₂ R b b') :
    Rewired R (.gate kind a b) (.gate kind a' b')
  | equal {a b a' b' : Bus} (first : List.Forall₂ R a a') (second : List.Forall₂ R b b') :
    Rewired R (.equal a b) (.equal a' b')
  | memory {m m' : Memory} (rewired : m.Rewired R m') : Rewired R (.memory m) (.memory m')
  | input (name : String) (width : Nat) : Rewired R (.input name width) (.input name width)
  | output {bus bus' : Bus} (name : String) (shown : List.Forall₂ R bus bus') :
    Rewired R (.output name bus) (.output name bus')
  | label {bus bus' : Bus} (name : String) (shown : List.Forall₂ R bus bus') :
    Rewired R (.label name bus) (.label name bus')

/-- The operands of the cell at a slot are exchanged, and nothing else. -/
inductive Slot.Rewired (R : Net → Net → Prop) : Slot → Slot → Prop where
  | placeholder : Rewired R .placeholder .placeholder
  | continuation (start : Nat) : Rewired R (.continuation start) (.continuation start)
  | cell {c c' : Cell} (rewired : c.Rewired R c') : Rewired R (.cell c) (.cell c')

theorem Bus.rewired_map {bus : Bus} (each : ∀ net ∈ bus, R net (f net)) : List.Forall₂ R bus (bus.map f) :=
  List.forall₂_map_right_iff.mpr (List.forall₂_same.mpr each)

theorem Control.rewired_map {control : Control} (at_net : R control.net (f control.net)) :
    control.Rewired R (control.map f) := ⟨at_net, rfl⟩

theorem WritePort.rewired_map {port : WritePort} (each : ∀ net ∈ port.nets, R net (f net)) :
    port.Rewired R (port.map f) := by
  simp only [WritePort.nets, List.forall_mem_append, List.forall_mem_singleton] at each
  obtain ⟨⟨⟨addr, data⟩, mask⟩, clock⟩ := each
  exact ⟨Bus.rewired_map addr, Bus.rewired_map data, Bus.rewired_map mask, Control.rewired_map clock⟩

theorem Register.rewired_map {register : Register} (each : ∀ net ∈ register.nets, R net (f net)) :
    register.Rewired R (register.map f) where
  clock := Control.rewired_map (each _ (by simp [Register.nets]))
  enable := Control.rewired_map (each _ (by simp [Register.nets]))
  init := rfl
  visibility := rfl

theorem ReadPort.rewired_map {port : ReadPort} (each : ∀ net ∈ port.nets, R net (f net)) :
    port.Rewired R (port.map f) := by
  obtain ⟨addr, width, register⟩ := port
  refine ⟨Bus.rewired_map fun net operand => each net (List.mem_append_left _ operand), rfl, ?_⟩
  cases register with
  | none => exact .none
  | some register => exact .some (Register.rewired_map fun net operand => each net (List.mem_append_right _ operand))

theorem Memory.rewired_map {memory : Memory} (each : ∀ net ∈ memory.nets, R net (f net)) :
    memory.Rewired R (memory.map f) := by
  have writes (port : WritePort) (member : port ∈ memory.writePorts) : port.Rewired R (port.map f) :=
    WritePort.rewired_map fun net operand =>
      each net (List.mem_append_left _ (List.mem_flatMap.mpr ⟨port, member, operand⟩))
  have reads (port : ReadPort) (member : port ∈ memory.readPorts) : port.Rewired R (port.map f) :=
    ReadPort.rewired_map fun net operand =>
      each net (List.mem_append_right _ (List.mem_flatMap.mpr ⟨port, member, operand⟩))
  exact ⟨rfl, rfl, rfl, rfl, List.forall₂_map_right_iff.mpr (List.forall₂_same.mpr writes),
    List.forall₂_map_right_iff.mpr (List.forall₂_same.mpr reads)⟩

/-- Exchanging nets reaches all operands of a cell. -/
theorem Cell.rewired_map {c : Cell} (each : ∀ net ∈ c.nets, R net (f net)) : c.Rewired R (c.map f) := by
  cases c with
  | invert a => exact .invert (Bus.rewired_map each)
  | gate kind a b =>
    obtain ⟨first, second⟩ := List.forall_mem_append.mp each
    exact .gate kind (Bus.rewired_map first) (Bus.rewired_map second)
  | equal a b =>
    obtain ⟨first, second⟩ := List.forall_mem_append.mp each
    exact .equal (Bus.rewired_map first) (Bus.rewired_map second)
  | memory m => exact .memory (Memory.rewired_map each)
  | input name width => exact .input name width
  | output name bus => exact .output name (Bus.rewired_map each)
  | label name bus => exact .label name (Bus.rewired_map each)

end Rewired

namespace Netlist

variable {netlist after : Netlist}

/-- A netlist after all replacements have taken effect. -/
structure Redirected (netlist after : Netlist) : Prop where
  /-- Each operand has become the end of its chain. -/
  slots : ∀ index : Nat, Option.Rel (Slot.Rewired netlist.rewiring.Leads) netlist.arena[index]? after.slots[index]?
  operands : ∀ net ∈ operandsOf after.slots, netlist.rewiring.target? net = none
  queued : after.queued = #[]
  rewiring : after.rewiring = ∅
  again : after.apply = .ok after

/-- Where nothing is pending, there is nothing to apply. -/
theorem apply_of_settled (queued : netlist.queued = #[]) (rewiring : netlist.rewiring = ∅) :
    netlist.apply = .ok netlist := by
  refine apply_eq_ok_iff.mpr ⟨fun net _ => ?_, ?_⟩
  · rw [rewiring]
    exact Rewiring.isEndless_eq_false_iff.mpr ⟨net, .done (target?_empty net)⟩
  · rw [rewiring, map_resolve_empty, arena, queued, Array.append_empty, ← queued, ← rewiring]

theorem apply_eq_error {cause : Fault} (refused : netlist.apply = .error cause) :
    ∃ operand ∈ operandsOf netlist.arena, netlist.rewiring.isEndless operand = true ∧
      cause = .replacementCycle (netlist.rewiring.cycleNet operand) := by
  unfold apply at refused
  dsimp only at refused
  rw [← arena] at refused
  cases found : (operandsOf netlist.arena).find? netlist.rewiring.isEndless with
  | none =>
    rw [found] at refused
    cases refused
  | some operand =>
    rw [found] at refused
    exact ⟨operand, List.mem_of_find?_eq_some found, List.find?_some found, (Except.error.inj refused).symm⟩

theorem redirected_of_apply (applied : netlist.apply = .ok after) : netlist.Redirected after := by
  obtain ⟨ends, rfl⟩ := apply_eq_ok_iff.mp applied
  refine ⟨fun index => ?_, fun net operand => ?_, rfl, rfl, apply_of_settled rfl rfl⟩
  · dsimp only
    rw [Array.getElem?_map]
    cases found : netlist.arena[index]? with
    | none => exact .none
    | some slot =>
      refine .some ?_
      cases slot with
      | placeholder => exact .placeholder
      | continuation start => exact .continuation start
      | cell c =>
        refine .cell (Cell.rewired_map fun net operand => ?_)
        have at_arena := mem_operandsOf.mpr ⟨c, Array.mem_of_getElem? found, operand⟩
        exact Rewiring.leads_iff.mpr ⟨ends net at_arena, rfl⟩
  · obtain ⟨original, at_arena, rfl⟩ := mem_operandsOf_map.mp operand
    exact Rewiring.target?_resolve (ends original at_arena)

/-- A netlist is refused exactly if the chain of some operand runs into a cycle; otherwise all operands are redirected
to the ends of their chains. -/
theorem apply_redirects (netlist : Netlist) :
    (∃ operand ∈ operandsOf netlist.arena, netlist.rewiring.Circles operand) ∧
      (∃ operand ∈ operandsOf netlist.arena, ∃ net,
        Relation.ReflTransGen netlist.rewiring.Link operand net ∧ netlist.rewiring.OnCycle net ∧
          netlist.apply = .error (.replacementCycle net)) ∨
    (∀ operand ∈ operandsOf netlist.arena, ¬ netlist.rewiring.Circles operand) ∧
      ∃ after, netlist.apply = .ok after ∧ netlist.Redirected after := by
  cases applied : netlist.apply with
  | error cause =>
    obtain ⟨operand, at_arena, endless, rfl⟩ := apply_eq_error applied
    exact Or.inl ⟨⟨operand, at_arena, Rewiring.isEndless_iff_circles.mp endless⟩, operand, at_arena, _,
      Rewiring.reaches_walk _ operand, Rewiring.onCycle_cycleNet endless, rfl⟩
  | ok after =>
    have ends := (apply_eq_ok_iff.mp applied).1
    refine Or.inr ⟨fun operand at_arena circles => ?_, after, rfl, redirected_of_apply applied⟩
    have endless := Rewiring.isEndless_iff_circles.mpr circles
    rw [ends operand at_arena] at endless
    cases endless

/-- A chain with as many links as there are replacements. -/
example : ((Netlist.empty.reviseAll [.edit (.addPlaceholders 2), .edit (.add (.input "a" 1)),
    .edit (.add (.invert [.slot 0])), .edit (.rewire (.slot 0) (.slot 1)), .edit (.rewire (.slot 1) (.slot 2)),
    .apply]).toOption.bind fun netlist => netlist.cell? 3) = some (.invert [.slot 2]) := by decide +kernel

end Netlist

end BankedMemory
