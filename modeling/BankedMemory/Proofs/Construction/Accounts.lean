import BankedMemory.Proofs.Construction.Edits
import BankedMemory.Proofs.Evaluation.Acyclic
import BankedMemory.Proofs.Network.Ports

/-!
# Accounts of what a build adds

An account tells of all cells that a build has added what their operands are: nets that the build was given, or nets
that it has made before. It lists the outputs of the memories among them in order, and the placeholders that are still
waiting for a replacement. Every step of a build keeps the account.
-/

namespace BankedMemory

namespace Netlist

/-- An output bit of a cell that was put into the arena from a given slot on. -/
def Made (base : Nat) (netlist : Netlist) (net : Net) : Prop :=
  ∃ index c k slot, base ≤ index ∧ netlist.arena[index]? = some (.cell c) ∧ k < c.outputWidth ∧
    net = .slot (index + k) ∧ netlist.arena[index + k]? = some slot ∧ slot ≠ .placeholder

/-- A net that was handed out, from a given slot on: an output bit, or a placeholder. -/
def Issued (base : Nat) (netlist : Netlist) (net : Net) : Prop := netlist.Made base net ∨ netlist.Blank base [net]

variable {base : Nat} {before after netlist : Netlist} {net : Net} {bus : Bus}

theorem Made.extends (made : before.Made base net) (longer : before.Extends after) : after.Made base net := by
  obtain ⟨index, c, k, slot, low, found, inside, rfl, at_place, solid⟩ := made
  exact ⟨index, c, k, slot, low, longer.slot found, inside, rfl, longer.slot at_place, solid⟩

theorem Issued.extends (issued : before.Issued base net) (longer : before.Extends after) : after.Issued base net :=
  issued.imp (fun made => made.extends longer) fun blank => blank.extends longer

theorem Made.lt (made : netlist.Made base net) : ∃ slot < netlist.next, net = .slot slot := by
  obtain ⟨index, c, k, slot, _, _, _, rfl, at_place, _⟩ := made
  exact ⟨_, lt_next_of_arena at_place, rfl⟩

theorem Blank.single (blank : netlist.Blank base bus) (member : net ∈ bus) : netlist.Blank base [net] :=
  fun _ at_net => List.mem_singleton.mp at_net ▸ blank net member

/-- What is put out by a cell is no placeholder. -/
theorem Made.not_blank (made : netlist.Made base net) : ¬ netlist.Blank base [net] := by
  intro blank
  obtain ⟨index, c, k, slot, _, _, _, rfl, at_place, solid⟩ := made
  obtain ⟨other, _, same, found⟩ := blank _ List.mem_cons_self
  cases same
  rw [at_place] at found
  exact solid (Option.some.inj found)

/-- The output of a cell is made. -/
theorem made_output {c : Cell} {index : Nat} (low : base ≤ index)
    (slots : ∀ k slot, (Slot.ofCell index c)[k]? = some slot → netlist.arena[index + k]? = some slot)
    (member : net ∈ Bus.ofSlots index c.outputWidth) : netlist.Made base net := by
  obtain ⟨k, at_place⟩ := List.mem_iff_getElem?.mp member
  obtain ⟨inside, rfl⟩ := Bus.ofSlots_getElem? at_place
  have first := slots 0 _ (Slot.ofCell_head index c)
  cases k with
  | zero => exact ⟨index, c, 0, _, low, first, inside, rfl, first, Slot.noConfusion⟩
  | succ k =>
    exact ⟨index, c, k + 1, _, low, first, inside, rfl, slots (k + 1) _ (Slot.ofCell_tail inside), Slot.noConfusion⟩

end Netlist

/-- The memories among some cells. -/
def memoriesIn (cells : List (Nat × Cell)) : List (Nat × Memory) :=
  cells.filterMap fun entry => entry.2.memory?.map (entry.1, ·)

theorem memoriesIn_append (cells more : List (Nat × Cell)) :
    memoriesIn (cells ++ more) = memoriesIn cells ++ memoriesIn more := List.filterMap_append

theorem memoriesIn_map (f : Net → Net) (cells : List (Nat × Cell)) :
    memoriesIn (cells.map fun entry => (entry.1, entry.2.map f)) =
      (memoriesIn cells).map fun entry => (entry.1, entry.2.map f) := by
  induction cells with
  | nil => rfl
  | cons entry rest ih =>
    obtain ⟨index, c⟩ := entry
    cases c with
    | memory m => exact congrArg (_ :: ·) ih
    | _ => exact ih

theorem mem_memoriesIn {cells : List (Nat × Cell)} {index : Nat} {m : Memory} :
    (index, m) ∈ memoriesIn cells ↔ (index, .memory m) ∈ cells := by
  rw [memoriesIn, List.mem_filterMap]
  constructor
  · rintro ⟨⟨place, c⟩, member, found⟩
    obtain ⟨other, is_memory, same⟩ := Option.map_eq_some_iff.mp found
    cases same
    cases c <;> cases is_memory
    exact member
  · intro member
    exact ⟨_, member, rfl⟩

namespace Storage

open Build

/-- The nets that a build may use: those that it was given, and those that it has made. -/
def Supplied (start : Netlist) (given : Net → Prop) (netlist : Netlist) (bus : Bus) : Prop :=
  ∀ net ∈ bus, given net ∨ netlist.Made start.next net

/-- The same with its placeholders. -/
def Offered (start : Netlist) (given : Net → Prop) (netlist : Netlist) (bus : Bus) : Prop :=
  ∀ net ∈ bus, given net ∨ netlist.Issued start.next net

/-- The operands of a cell are there, and those that its output depends on at once are no placeholders. A memory has to
be a bank. -/
structure Supports (start : Netlist) (given : Net → Prop) (netlist : Netlist) (c : Cell) : Prop where
  operands : Offered start given netlist c.nets
  sources : Supplied start given netlist c.sources
  bank : ∀ memory, c.memory? = some memory → memory.isBank = true

/-- The outputs of the memories among some cells. -/
def outputsIn (cells : List (Nat × Cell)) : List Bus :=
  (memoriesIn cells).map fun entry => Bus.ofSlots entry.1 entry.2.outputWidth

/-- What a build has added so far, from the netlist that it found. -/
structure Account (start : Netlist) (given : Net → Prop) (stock : List Bus) (waiting : List Net) (netlist : Netlist) :
    Prop where
  edited : ∃ edits, start.editAll edits = .ok netlist
  operands : ∀ index c, (index, c) ∈ netlist.added start.next → Offered start given netlist c.nets
  sources : ∀ index c, (index, c) ∈ netlist.added start.next → ∀ net ∈ c.sources,
    given net ∨ ∃ slot < index, net = .slot slot ∧ netlist.Made start.next net
  /-- Only placeholders of the build get replaced, by nets that are there. -/
  replaced : ∀ net target, netlist.rewiring.target? net = some target →
    start.rewiring.target? net = some target ∨
      netlist.Blank start.next [net] ∧ (given target ∨ netlist.Made start.next target)
  /-- Placeholders that are not replaced are still waiting, unless some have been given to the build. -/
  unreplaced : (∀ index, given (.slot index) → index < start.next) → ∀ net, netlist.Blank start.next [net] →
    netlist.rewiring.target? net = none → net ∈ waiting
  stock : outputsIn (netlist.added start.next) = stock
  banks : ∀ index memory, (index, .memory memory) ∈ netlist.added start.next → memory.isBank = true

variable {start : Netlist} {given : Net → Prop} {stock : List Bus} {waiting : List Net} {netlist : Netlist} {bus : Bus}

theorem lasting_supplied : Lasting fun netlist => Supplied start given netlist bus :=
  fun _ _ grows h net member => (h net member).imp_right fun made => made.extends grows.toExtends

theorem lasting_supplied_each (start : Netlist) (given : Net → Prop) (buses : List Bus) :
    Lasting fun netlist => ∀ bus ∈ buses, Supplied start given netlist bus :=
  .forall fun _ => .forall fun _ => lasting_supplied

theorem lasting_blank_each (base : Nat) (buses : List Bus) :
    Lasting fun netlist => ∀ bus ∈ buses, netlist.Blank base bus :=
  .forall fun _ => .forall fun _ => lasting_blank

theorem Supplied.offered (h : Supplied start given netlist bus) : Offered start given netlist bus :=
  fun net member => (h net member).imp_right Or.inl

theorem supplied_of_given (h : ∀ net ∈ bus, given net) : Supplied start given netlist bus :=
  fun net member => Or.inl (h net member)

theorem supplied_append {other : Bus} : Supplied start given netlist (bus ++ other) ↔
    Supplied start given netlist bus ∧ Supplied start given netlist other := List.forall_mem_append

theorem offered_append {other : Bus} : Offered start given netlist (bus ++ other) ↔
    Offered start given netlist bus ∧ Offered start given netlist other := List.forall_mem_append

theorem supplied_filled (constants : ∀ bit, given (.const bit)) {width : Nat} {bit : Trit}
    (filled : Bus.filled width (.const bit) = .ok bus) : Supplied start given netlist bus :=
  supplied_of_given fun _ member => Bus.eq_of_mem_filled filled member ▸ constants bit

/-- A cell of which all operands are supplied is supported, unless it is a memory. -/
theorem supports_of_supplied {c : Cell} (h : Supplied start given netlist c.nets) (no_memory : c.memory? = none) :
    Supports start given netlist c := by
  refine ⟨h.offered, fun net source => h net (c.sources_subset_nets source), fun memory is_memory => ?_⟩
  rw [no_memory] at is_memory
  cases is_memory

/-- At first a build has added nothing. -/
theorem account_start (same : netlist = start) : Account start given [] [] netlist := by
  subst same
  have nothing : netlist.added netlist.next = [] := by
    rw [Netlist.added, ← netlist.size_arena, ← Array.length_toList, List.drop_length]
    rfl
  constructor
  · exact ⟨[], rfl⟩
  · rw [nothing]
    exact fun _ _ member => absurd member List.not_mem_nil
  · rw [nothing]
    exact fun _ _ member => absurd member List.not_mem_nil
  · exact fun _ _ replaced => Or.inl replaced
  · intro _ net blank
    obtain ⟨index, low, _, found⟩ := blank net List.mem_cons_self
    have inside := Netlist.lt_next_of_arena found
    omega
  · rw [nothing]
    rfl
  · rw [nothing]
    exact fun _ _ member => absurd member List.not_mem_nil

theorem Account.low (account : Account start given stock waiting netlist) : start.next ≤ netlist.next := by
  obtain ⟨edits, edited⟩ := account.edited
  exact (Netlist.editAll_extends edited).next_le

section Steps

variable {after : Netlist} {change : Edit}

/-- The account goes on with an edit whose operands are there, and which replaces placeholders of the build only. -/
theorem Account.edit (account : Account start given stock waiting netlist) (edited : netlist.edit change = .ok after)
    (supports : ∀ index c, (index, c) ∈ change.cells netlist.next → Supports start given netlist c)
    (fresh : ∀ pair ∈ change.replacements,
      netlist.Blank start.next [pair.1] ∧ Supplied start given netlist [pair.2]) :
    Account start given (stock ++ outputsIn (change.cells netlist.next))
      ((waiting ++ change.placeholders netlist.next).filter fun net => net ∉ change.replaced) after := by
  have longer := Netlist.edit_extends edited
  have added := Netlist.added_edit account.low edited
  constructor
  · obtain ⟨edits, done⟩ := account.edited
    refine ⟨edits ++ [change], ?_⟩
    rw [Netlist.editAll, List.foldlM_append]
    exact Build.except_bind_eq_ok.mpr ⟨netlist, done, Build.except_bind_eq_ok.mpr ⟨after, edited, rfl⟩⟩
  · intro index c member net operand
    rw [added, List.mem_append] at member
    have offered : given net ∨ netlist.Issued start.next net := by
      rcases member with earlier | latest
      · exact account.operands index c earlier net operand
      · exact (supports index c latest).operands net operand
    exact offered.imp_right fun issued => issued.extends longer
  · intro index c member net source
    rw [added, List.mem_append] at member
    rcases member with earlier | latest
    · refine (account.sources index c earlier net source).imp_right ?_
      rintro ⟨slot, before, same, made⟩
      exact ⟨slot, before, same, made.extends longer⟩
    · refine ((supports index c latest).sources net source).imp_right fun made => ?_
      obtain ⟨slot, inside, same⟩ := made.lt
      obtain rfl : index = netlist.next := by
        cases change with
        | add d => exact congrArg Prod.fst (List.mem_singleton.mp latest)
        | _ => cases latest
      exact ⟨slot, inside, same, made.extends longer⟩
  · intro net target replaced
    rcases (Netlist.target?_edit edited).mp replaced with earlier | latest
    · refine (account.replaced net target earlier).imp_right ?_
      rintro ⟨blank, supplied⟩
      exact ⟨blank.extends longer, supplied.imp_right fun made => made.extends longer⟩
    · obtain ⟨blank, supplied⟩ := fresh _ latest
      have there := (supplied target List.mem_cons_self).imp_right fun made => made.extends longer
      exact Or.inr ⟨blank.extends longer, there⟩
  · intro old net blank kept
    obtain ⟨index, low, rfl, found⟩ := blank net List.mem_cons_self
    obtain ⟨kept_before, kept_now⟩ := Netlist.kept_edit edited kept
    refine List.mem_filter.mpr ⟨List.mem_append.mpr ?_, decide_eq_true kept_now⟩
    refine (Netlist.placeholder_edit edited found).imp_left fun earlier => account.unreplaced old _ ?_ kept_before
    exact fun other member => ⟨index, low, List.mem_singleton.mp member, earlier⟩
  · rw [added, outputsIn, memoriesIn_append, List.map_append, ← outputsIn, account.stock, ← outputsIn]
  · intro index memory member
    rw [added, List.mem_append] at member
    rcases member with earlier | latest
    · exact account.banks index memory earlier
    · exact (supports index _ latest).bank memory rfl

theorem Account.mono {fewer : List Net} (account : Account start given stock waiting netlist)
    (subset : (∀ index, given (.slot index) → index < start.next) → waiting ⊆ fewer) :
    Account start given stock fewer netlist :=
  { account with unreplaced := fun old net blank kept => subset old (account.unreplaced old net blank kept) }

end Steps

section Rules

variable {L : Netlist → Prop}

theorem adds_cell (lasting : Lasting L) {c : Cell} (supports : ∀ netlist, L netlist → Supports start given netlist c) :
    Adds (fun netlist => Account start given stock waiting netlist ∧ L netlist) (add c) fun output netlist =>
      Account start given (stock ++ (c.memory?.map fun _ => output).toList) waiting netlist ∧ L netlist ∧
        Supplied start given netlist output := by
  rintro bench output after ⟨account, holds⟩ ended
  obtain ⟨checked, rfl, rfl⟩ := ends_add.mp ended
  have grows := Netlist.grows_push bench.netlist c
  have edited : bench.netlist.edit (.add c) = .ok (bench.netlist.push c).2 :=
    Netlist.edit_add_eq_ok_iff.mpr ⟨checked, rfl⟩
  have entered := account.edit edited
    (fun index d member => by
      obtain ⟨_, rfl⟩ := Prod.mk.inj (List.mem_singleton.mp member)
      exact supports _ holds)
    (fun _ member => absurd member List.not_mem_nil)
  refine ⟨grows, ?_, lasting _ _ grows holds, fun net member => Or.inr ?_⟩
  · have none_waits : (waiting ++ (Edit.add c).placeholders bench.netlist.next).filter
        (fun net => net ∉ (Edit.add c).replaced) = waiting := by
      simp [Edit.placeholders, Edit.replaced, Edit.replacements]
    rw [none_waits] at entered
    cases c with
    | memory m => exact entered
    | _ => exact entered
  · refine Netlist.made_output account.low (fun k slot found => ?_) member
    exact (Netlist.arena_enqueue_right bench.netlist _ k).trans found

/-- Gates, comparisons and labels are supported by operands that are there. -/
theorem adds_logic (lasting : Lasting L) {c : Cell} (no_memory : c.memory? = none)
    (supplied : ∀ netlist, L netlist → Supplied start given netlist c.nets) :
    Adds (fun netlist => Account start given stock waiting netlist ∧ L netlist) (add c) fun output netlist =>
      Account start given stock waiting netlist ∧ L netlist ∧ Supplied start given netlist output := by
  have added : Adds (fun netlist => Account start given stock waiting netlist ∧ L netlist) (add c) _ :=
    adds_cell lasting fun netlist holds => supports_of_supplied (supplied netlist holds) no_memory
  simpa only [no_memory, Option.map_none, Option.toList_none, List.append_nil] using added

theorem adds_labelled (lasting : Lasting L) {name? : Option String} {bus : Bus}
    (supplied : ∀ netlist, L netlist → Supplied start given netlist bus) :
    Adds (fun netlist => Account start given stock waiting netlist ∧ L netlist) (label name? bus)
      fun _ netlist => Account start given stock waiting netlist ∧ L netlist := by
  cases name? with
  | none => exact adds_pure fun _ holds => holds
  | some name =>
    refine adds_then (adds_logic lasting rfl supplied) fun _ => adds_pure fun _ holds => ?_
    exact ⟨holds.1, holds.2.1⟩

theorem adds_blanks (lasting : Lasting L) {width : Nat} :
    Adds (fun netlist => Account start given stock waiting netlist ∧ L netlist) (addPlaceholders width)
      fun output netlist => Account start given stock (waiting ++ output) netlist ∧ L netlist ∧
        netlist.Blank start.next output := by
  rintro bench output after ⟨account, holds⟩ ended
  obtain ⟨room, rfl, rfl⟩ := ends_addPlaceholders.mp ended
  have grows := Netlist.grows_pushPlaceholders bench.netlist width
  have edited : bench.netlist.edit (.addPlaceholders width) = .ok (bench.netlist.pushPlaceholders width).2 :=
    Netlist.edit_addPlaceholders_eq_ok_iff.mpr ⟨room, rfl⟩
  have entered := account.edit edited (fun _ _ member => absurd member List.not_mem_nil)
    (fun _ member => absurd member List.not_mem_nil)
  refine ⟨grows, ?_, lasting _ _ grows holds, Netlist.blank_pushPlaceholders _ width account.low⟩
  have all_wait : (waiting ++ (Edit.addPlaceholders width).placeholders bench.netlist.next).filter
      (fun net => net ∉ (Edit.addPlaceholders width).replaced) = waiting ++ Bus.ofSlots bench.netlist.next width := by
    simp [Edit.placeholders, Edit.replaced, Edit.replacements]
  have stocked : stock ++ outputsIn ((Edit.addPlaceholders width).cells bench.netlist.next) = stock :=
    List.append_nil stock
  rw [all_wait, stocked] at entered
  exact entered

/-- A placeholder is no net that is there, so that tying it to one is no empty replacement. -/
theorem replaced_of_supplied {source target : Bus} {net : Net} (same : source.length = target.length)
    (blank : netlist.Blank start.next source) (supplied : Supplied start given netlist target)
    (old : ∀ index, given (.slot index) → index < start.next) (member : net ∈ source) :
    net ∈ (Edit.rewireBus source target).replaced := by
  obtain ⟨i, found⟩ := List.mem_iff_getElem?.mp member
  obtain ⟨inside, _⟩ := List.getElem?_eq_some_iff.mp found
  have partner := List.getElem?_eq_getElem (same ▸ inside)
  have pair : (net, target[i]) ∈ source.zip target :=
    List.mem_of_getElem? (List.getElem?_zip_eq_some.mpr ⟨found, partner⟩)
  have different : net ≠ target[i] := by
    intro itself
    rcases supplied target[i] (List.getElem_mem _) with is_given | made
    · obtain ⟨index, low, net_eq, _⟩ := blank net member
      rw [← itself, net_eq] at is_given
      exact absurd (old index is_given) (Nat.not_lt.mpr low)
    · exact made.not_blank (itself ▸ blank.single member)
  exact List.mem_map.mpr ⟨_, List.mem_filter.mpr ⟨pair, decide_eq_true different⟩, rfl⟩

/-- Tying placeholders to nets that are there ends their waiting. -/
theorem adds_tie (lasting : Lasting L) {source target : Bus}
    (blank : ∀ netlist, L netlist → netlist.Blank start.next source)
    (supplied : ∀ netlist, L netlist → Supplied start given netlist target) :
    Adds (fun netlist => Account start given stock (source ++ waiting) netlist ∧ L netlist)
      (Build.rewireBus source target) fun _ netlist => Account start given stock waiting netlist ∧ L netlist := by
  rintro bench result after ⟨account, holds⟩ ended
  obtain ⟨netlist, rewired, rfl⟩ := ends_rewireBus.mp ended
  obtain ⟨same, rewires⟩ := Netlist.rewireBus_eq_ok rewired
  have grows := rewires.grows (blank _ holds)
  have edited : bench.netlist.edit (.rewireBus source target) = .ok netlist := rewired
  have entered := account.edit edited (fun _ _ member => absurd member List.not_mem_nil) fun pair member => by
    have at_place := List.of_mem_zip (List.mem_filter.mp member).1
    constructor
    · intro net at_pair
      obtain rfl := List.mem_singleton.mp at_pair
      exact blank _ holds _ at_place.1
    · intro net at_pair
      obtain rfl := List.mem_singleton.mp at_pair
      exact supplied _ holds _ at_place.2
  refine ⟨grows, ?_, lasting _ _ grows holds⟩
  have stocked : stock ++ outputsIn ((Edit.rewireBus source target).cells bench.netlist.next) = stock :=
    List.append_nil stock
  rw [stocked] at entered
  refine entered.mono fun old net member => ?_
  obtain ⟨waits, unreplaced⟩ := List.mem_filter.mp member
  rcases List.mem_append.mp ((List.append_nil (source ++ waiting)) ▸ waits) with at_source | still
  · have replaced := replaced_of_supplied same (blank _ holds) (supplied _ holds) old at_source
    exact absurd replaced (of_decide_eq_true unreplaced)
  · exact still

end Rules

end Storage

end BankedMemory
