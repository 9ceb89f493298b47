import BankedMemory.Proofs.Construction.Endings
import BankedMemory.Proofs.Construction.Ledger
import BankedMemory.Proofs.Construction.Resolution

/-!
# The moment of applying

Applying a netlist early carries out a part of the replacements before the rest is known. Unless a later edit names a
net that was replaced by then, this makes no difference in the end: the replacements of the early parts and those of
the last part, one after the other, do what all of them do together.
-/

namespace BankedMemory

def Revision.isApply : Revision → Bool
  | apply => true
  | edit _ => false

/-- The nets that an edit names as operands, as replaced nets or as replacements. -/
def Edit.mentioned : Edit → List Net
  | add c => c.nets
  | change => change.replacements.flatMap fun pair => [pair.1, pair.2]

namespace Netlist

variable {netlist after : Netlist} {change : Edit}

/-- Some operand leads along a chain without end, so that the netlist cannot be applied. -/
def Doomed (netlist : Netlist) : Prop :=
  ∃ net ∈ operandsOf netlist.arena, netlist.rewiring.isEndless net = true

theorem apply_of_not_doomed (fine : ¬ netlist.Doomed) :
    netlist.apply = .ok ⟨netlist.arena.map (Slot.map netlist.rewiring.resolve), #[], ∅⟩ := by
  refine apply_eq_ok_iff.mpr ⟨fun net operand => ?_, rfl⟩
  rw [← Bool.not_eq_true]
  exact fun endless => fine ⟨net, operand, endless⟩

theorem Doomed.apply (doomed : netlist.Doomed) : ∃ cause, netlist.apply = .error cause := by
  obtain ⟨net, operand, endless⟩ := doomed
  cases applied : netlist.apply with
  | error cause => exact ⟨cause, rfl⟩
  | ok after =>
    rw [(apply_eq_ok_iff.mp applied).1 net operand] at endless
    cases endless

/-- No edit mends an endless chain. -/
theorem Doomed.edit (doomed : netlist.Doomed) (h : netlist.edit change = .ok after) : after.Doomed := by
  obtain ⟨net, operand, endless⟩ := doomed
  refine ⟨net, ?_, ?_⟩
  · obtain ⟨c, member, at_cell⟩ := mem_operandsOf.mp operand
    obtain ⟨index, found⟩ := Array.mem_iff_getElem?.mp member
    exact mem_operandsOf.mpr ⟨c, Array.mem_of_getElem? ((edit_extends h).slot found), at_cell⟩
  · rw [← Bool.not_eq_false, Rewiring.isEndless_eq_false_iff]
    rintro ⟨last, leads⟩
    obtain ⟨middle, ended⟩ := leads.exists_of_subset fun _ _ replaced => (target?_edit h).mpr (Or.inl replaced)
    rw [Rewiring.isEndless_eq_false_iff.mpr ⟨middle, ended⟩] at endless
    cases endless

/-- No edit behind an apply names a net that has been replaced before this. -/
def Apart (netlist : Netlist) (revisions : List Revision) : Prop :=
  ∀ first later, revisions = first ++ .apply :: later → ∀ change, .edit change ∈ later → ∀ net ∈ change.mentioned,
    netlist.rewiring.target? net = none ∧ ∀ earlier, .edit earlier ∈ first → net ∉ earlier.replaced

theorem Apart.edit {rest : List Revision} (apart : netlist.Apart (.edit change :: rest))
    (h : netlist.edit change = .ok after) : after.Apart rest := by
  rintro first later rfl other member net mentioned
  obtain ⟨free, unreplaced⟩ := apart (.edit change :: first) later rfl other member net mentioned
  refine ⟨?_, fun earlier at_first => unreplaced earlier (List.mem_cons_of_mem _ at_first)⟩
  rw [target?_edit_of_kept h (unreplaced change List.mem_cons_self), free]

theorem Apart.apply {rest : List Revision} (apart : netlist.Apart (.apply :: rest)) :
    netlist.Apart rest ∧ ∀ change, .edit change ∈ rest → ∀ net ∈ change.mentioned,
      netlist.rewiring.target? net = none := by
  constructor
  · rintro first later rfl change member net mentioned
    obtain ⟨free, unreplaced⟩ := apart (.apply :: first) later rfl change member net mentioned
    exact ⟨free, fun earlier at_first => unreplaced earlier (List.mem_cons_of_mem _ at_first)⟩
  · intro change member net mentioned
    exact (apart [] rest rfl change member net mentioned).1

/-- A netlist in which the replacements of the past have been carried out, and another in which they are still
queued along with all later ones. -/
structure Ahead (past : Rewiring) (early late : Netlist) : Prop where
  arena : early.arena = late.arena.map (Slot.map past.resolve)
  ends : ∀ net ∈ operandsOf late.arena, past.isEndless net = false
  follows : Rewiring.Follows late.rewiring past early.rewiring

theorem ahead_refl (netlist : Netlist) : Ahead ∅ netlist netlist where
  arena := (map_resolve_empty netlist.arena).symm
  ends net _ := Rewiring.isEndless_eq_false_iff.mpr ⟨net, .done (target?_empty net)⟩
  follows := ⟨fun net => by rw [target?_empty, Option.none_or], fun _ _ _ => ⟨target?_empty _, target?_empty _⟩⟩

namespace Ahead

variable {past : Rewiring} {early late : Netlist}

theorem next (ahead : Ahead past early late) : early.next = late.next := by
  rw [← size_arena, ← size_arena, ahead.arena, Array.size_map]

theorem enqueue (ahead : Ahead past early late) {slots : List Slot}
    (untouched : ∀ c, .cell c ∈ slots → ∀ net ∈ c.nets, past.target? net = none) :
    Ahead past (early.enqueue slots) (late.enqueue slots) where
  arena := by
    have kept : slots.toArray.map (Slot.map past.resolve) = slots.toArray := by
      rw [List.map_toArray]
      refine congrArg List.toArray ((List.map_congr_left fun slot member => ?_).trans (List.map_id slots))
      cases slot with
      | cell c =>
        refine congrArg Slot.cell ((Cell.map_congr fun net operand => ?_).trans c.map_id)
        exact Rewiring.resolve_of_target?_eq_none (untouched c member net operand)
      | placeholder => rfl
      | continuation start => rfl
    rw [arena_enqueue, arena_enqueue, Array.map_append, ahead.arena, kept]
  ends net operand := by
    obtain ⟨c, member, at_cell⟩ := mem_operandsOf.mp operand
    rw [arena_enqueue, Array.mem_append] at member
    rcases member with earlier | new
    · exact ahead.ends net (mem_operandsOf.mpr ⟨c, earlier, at_cell⟩)
    · exact Rewiring.isEndless_eq_false_iff.mpr ⟨net, .done (untouched c (List.mem_toArray.mp new) net at_cell)⟩
  follows := ahead.follows

theorem rewire (ahead : Ahead past early late) {source target : Net} (free : past.target? source = none)
    (fresh : past.target? target = none) :
    (∃ early' late', early.rewire source target = .ok early' ∧ late.rewire source target = .ok late' ∧
      Ahead past early' late') ∨
      ∃ cause, early.rewire source target = .error cause ∧ late.rewire source target = .error cause := by
  have same : late.rewiring.target? source = early.rewiring.target? source := by
    rw [ahead.follows.target?, free, Option.none_or]
  unfold Netlist.rewire
  rw [same]
  cases early.rewiring.target? source with
  | some previous => exact Or.inr ⟨_, rfl, rfl⟩
  | none =>
    refine Or.inl ⟨_, _, rfl, rfl, ahead.arena, ahead.ends, fun net => ?_, fun net other replaced => ?_⟩
    · rw [Rewiring.target?_insert, Rewiring.target?_insert, ahead.follows.target?]
      split
      · rename_i here
        rw [← here, free, Option.none_or]
      · rfl
    · rw [Rewiring.target?_insert] at replaced
      split at replaced
      · rename_i here
        cases replaced
        exact ⟨here ▸ free, fresh⟩
      · exact ahead.follows.fresh net other replaced

theorem rewireAll (ahead : Ahead past early late) {pairs : List (Net × Net)}
    (free : ∀ pair ∈ pairs, past.target? pair.1 = none ∧ past.target? pair.2 = none) :
    (∃ early' late', early.rewireAll pairs = .ok early' ∧ late.rewireAll pairs = .ok late' ∧
      Ahead past early' late') ∨
      ∃ cause, early.rewireAll pairs = .error cause ∧ late.rewireAll pairs = .error cause := by
  induction pairs generalizing early late with
  | nil => exact Or.inl ⟨early, late, rfl, rfl, ahead⟩
  | cons pair rest ih =>
    rw [List.forall_mem_cons] at free
    rw [rewireAll_cons, rewireAll_cons]
    rcases ahead.rewire free.1.1 free.1.2 with ⟨early', late', at_early, at_late, next⟩ | ⟨cause, at_early, at_late⟩
    · rw [at_early, at_late]
      exact ih next free.2
    · rw [at_early, at_late]
      exact Or.inr ⟨cause, rfl, rfl⟩

/-- An edit that names nothing that the past has replaced does the same to both. -/
theorem edit (ahead : Ahead past early late) {change : Edit}
    (untouched : ∀ net ∈ change.mentioned, past.target? net = none) :
    (∃ early' late', early.edit change = .ok early' ∧ late.edit change = .ok late' ∧ Ahead past early' late') ∨
      ∃ cause, early.edit change = .error cause ∧ late.edit change = .error cause := by
  have slots : ∀ c, .cell c ∈ change.slots late.next → ∀ net ∈ c.nets, past.target? net = none := by
    intro c member net operand
    cases change with
    | add d =>
      obtain ⟨k, found⟩ := List.mem_iff_getElem?.mp member
      obtain ⟨_, rfl⟩ := Slot.ofCell_eq_cell_iff.mp found
      exact untouched net operand
    | addPlaceholders width => simp [Edit.slots] at member
    | rewire source target => cases member
    | rewireBus source target => cases member
  have pairs : ∀ pair ∈ change.replacements, past.target? pair.1 = none ∧ past.target? pair.2 = none := by
    intro pair member
    have named (net : Net) (at_pair : net ∈ [pair.1, pair.2]) : past.target? net = none := by
      refine untouched net ?_
      cases change with
      | add c => cases member
      | _ => exact List.mem_flatMap.mpr ⟨pair, member, at_pair⟩
    exact ⟨named _ (by simp), named _ (by simp)⟩
  rw [edit_eq, edit_eq, permit_congr ahead.next, ahead.next]
  cases late.permit change with
  | error cause => exact Or.inr ⟨cause, rfl, rfl⟩
  | ok fine => exact (ahead.enqueue slots).rewireAll pairs

theorem doomed_iff (ahead : Ahead past early late) : early.Doomed ↔ late.Doomed := by
  unfold Doomed
  rw [ahead.arena]
  constructor
  · rintro ⟨net, operand, endless⟩
    obtain ⟨original, at_late, rfl⟩ := mem_operandsOf_map.mp operand
    exact ⟨original, at_late, by rw [ahead.follows.isEndless (ahead.ends original at_late), endless]⟩
  · rintro ⟨net, operand, endless⟩
    refine ⟨past.resolve net, mem_operandsOf_map.mpr ⟨net, operand, rfl⟩, ?_⟩
    rw [← ahead.follows.isEndless (ahead.ends net operand), endless]

/-- What is left to be carried out gives what carrying out everything gives. -/
theorem map_arena (ahead : Ahead past early late) (fine : ¬ late.Doomed) :
    early.arena.map (Slot.map early.rewiring.resolve) = late.arena.map (Slot.map late.rewiring.resolve) := by
  have twice : Slot.map early.rewiring.resolve ∘ Slot.map past.resolve =
      Slot.map (early.rewiring.resolve ∘ past.resolve) := funext fun slot => slot.map_map _ _
  rw [ahead.arena, Array.map_map, twice]
  refine map_slots_congr fun net operand => (ahead.follows.resolve ?_).symm
  rw [← Bool.not_eq_true]
  exact fun endless => fine ⟨net, operand, endless⟩

/-- Applying both brings them together. -/
theorem apply_eq (ahead : Ahead past early late) (fine : ¬ late.Doomed) : early.apply = late.apply := by
  rw [apply_of_not_doomed fine, apply_of_not_doomed (mt ahead.doomed_iff.mp fine), ahead.map_arena fine]

/-- Applying one of them makes all replacements up to now a part of the past. -/
theorem apply (ahead : Ahead past early late) (fine : ¬ late.Doomed) :
    ∃ early', early.apply = .ok early' ∧ Ahead late.rewiring early' late := by
  refine ⟨_, apply_of_not_doomed (mt ahead.doomed_iff.mp fine), ?_, fun net operand => ?_, ?_⟩
  · rw [← ahead.map_arena fine]
    exact Array.append_empty
  · rw [← Bool.not_eq_true]
    exact fun endless => fine ⟨net, operand, endless⟩
  · refine ⟨fun net => ?_, fun net target replaced => ?_⟩
    · rw [target?_empty, Option.or_none]
    · rw [target?_empty] at replaced
      cases replaced

end Ahead

end Netlist

namespace Ledger

variable {early late ledger : Ledger} {rest : List Revision}

/-- Calls up to the first fault, with what has been handed out by then. -/
def run (ledger : Ledger) : List Revision → Ledger × Option Fault
  | [] => (ledger, none)
  | revision :: rest =>
    match ledger.call revision with
    | .ok after => after.run rest
    | .error cause => (ledger, some cause)

section Steps

variable {change : Edit} {after : Netlist} {cause : Fault}

theorem run_edit_of_ok (edited : ledger.netlist.edit change = .ok after) : ledger.run (.edit change :: rest) =
    run ⟨after, ledger.entries ++ [ledger.netlist.entry change]⟩ rest := by
  simp [run, call_edit, edited, Except.map]

theorem run_edit_of_error (failed : ledger.netlist.edit change = .error cause) :
    ledger.run (.edit change :: rest) = (ledger, some cause) := by
  simp [run, call_edit, failed, Except.map]

theorem run_apply_of_ok (applied : ledger.netlist.apply = .ok after) :
    ledger.run (.apply :: rest) = run ⟨after, ledger.entries⟩ rest := by
  simp [run, call_apply, applied, Except.map]

theorem run_apply_of_error (failed : ledger.netlist.apply = .error cause) :
    ledger.run (.apply :: rest) = (ledger, some cause) := by
  simp [run, call_apply, failed, Except.map]

end Steps

/-- Nothing that has been handed out is taken back. -/
theorem entries_run (ledger : Ledger) (revisions : List Revision) :
    ledger.entries <+: (ledger.run revisions).1.entries := by
  induction revisions generalizing ledger with
  | nil => exact List.prefix_rfl
  | cons revision rest ih =>
    rw [run]
    cases called : ledger.call revision with
    | error cause => exact List.prefix_rfl
    | ok after =>
      have longer : ledger.entries <+: after.entries := ⟨_, (call_eq_ok_iff.mp called).2.symm⟩
      exact longer.trans (ih after)

/-- Some edits and an apply, where an operand leads along an endless chain from the beginning, end in a fault. -/
theorem run_of_doomed (doomed : ledger.netlist.Doomed) {edits : List Revision} (no_apply : .apply ∉ edits) :
    (ledger.run (edits ++ [.apply])).2 ≠ none := by
  induction edits generalizing ledger with
  | nil =>
    obtain ⟨cause, failed⟩ := doomed.apply
    rw [List.nil_append, run_apply_of_error failed]
    exact Option.some_ne_none cause
  | cons revision rest ih =>
    rw [List.mem_cons, not_or] at no_apply
    rw [List.cons_append]
    cases revision with
    | apply => exact absurd rfl no_apply.1
    | edit change =>
      cases edited : ledger.netlist.edit change with
      | error cause =>
        rw [run_edit_of_error edited]
        exact Option.some_ne_none cause
      | ok after =>
        rw [run_edit_of_ok edited]
        exact ih (doomed.edit edited) no_apply.2

/-- Two runs hand out the same as long as both go on, fail in the same cases and otherwise end alike. -/
structure Agrees (early late : Ledger × Option Fault) : Prop where
  entries : early.1.entries <+: late.1.entries
  faults : early.2 = none ↔ late.2 = none
  ledger : late.2 = none → early.1 = late.1

theorem Agrees.of_fault {early late : Ledger × Option Fault} (entries : early.1.entries <+: late.1.entries)
    (at_early : early.2 ≠ none) (at_late : late.2 ≠ none) : Agrees early late :=
  ⟨entries, iff_of_false at_early at_late, fun fine => absurd fine at_late⟩

theorem agrees_of_ahead {past : Rewiring} (ahead : Netlist.Ahead past early.netlist late.netlist)
    (entries : early.entries = late.entries) (apart : late.netlist.Apart rest)
    (untouched : ∀ change, .edit change ∈ rest → ∀ net ∈ change.mentioned, past.target? net = none) :
    Agrees (early.run (rest ++ [.apply])) (late.run ((rest.filter fun revision => !revision.isApply) ++ [.apply])) := by
  have entered : early.entries <+: late.entries := by rw [entries]
  induction rest generalizing past early late with
  | nil =>
    rw [List.filter_nil, List.nil_append]
    by_cases doomed : late.netlist.Doomed
    · obtain ⟨cause, at_late⟩ := doomed.apply
      obtain ⟨_, at_early⟩ := (ahead.doomed_iff.mpr doomed).apply
      rw [run_apply_of_error at_early, run_apply_of_error at_late]
      exact .of_fault entered (Option.some_ne_none _) (Option.some_ne_none _)
    · have at_late := Netlist.apply_of_not_doomed doomed
      rw [run_apply_of_ok ((ahead.apply_eq doomed).trans at_late), run_apply_of_ok at_late, entries]
      exact ⟨List.prefix_rfl, Iff.rfl, fun _ => rfl⟩
  | cons revision rest ih =>
    rw [List.cons_append]
    cases revision with
    | edit change =>
      rw [List.filter_cons_of_pos rfl, List.cons_append]
      rcases ahead.edit (untouched change List.mem_cons_self) with
        ⟨early', late', at_early, at_late, next⟩ | ⟨cause, at_early, at_late⟩
      · rw [run_edit_of_ok at_early, run_edit_of_ok at_late, entries, Netlist.entry, ahead.next, ← Netlist.entry]
        exact ih next rfl (apart.edit at_late) (fun other member => untouched other (List.mem_cons_of_mem _ member))
          List.prefix_rfl
      · rw [run_edit_of_error at_early, run_edit_of_error at_late]
        exact .of_fault entered (Option.some_ne_none _) (Option.some_ne_none _)
    | apply =>
      rw [List.filter_cons_of_neg (by decide)]
      by_cases doomed : late.netlist.Doomed
      · -- The other run goes on for a while, but whatever it hands out, its apply fails in the end.
        obtain ⟨cause, at_early⟩ := (ahead.doomed_iff.mpr doomed).apply
        rw [run_apply_of_error at_early]
        refine .of_fault (entered.trans (entries_run late _)) (Option.some_ne_none _) (run_of_doomed doomed ?_)
        intro member
        simpa [Revision.isApply] using (List.mem_filter.mp member).2
      · obtain ⟨early', at_early, next⟩ := ahead.apply doomed
        rw [run_apply_of_ok at_early]
        exact ih next entries apart.apply.1 apart.apply.2 entered

/-- Calls with some applies among them and the same calls with a last apply only hand out the same nets, fail in the
same cases, and otherwise end with the same arena. -/
theorem run_apply_early {start : Ledger} {revisions : List Revision} (apart : start.netlist.Apart revisions) :
    Agrees (start.run (revisions ++ [.apply]))
      (start.run ((revisions.filter fun revision => !revision.isApply) ++ [.apply])) :=
  agrees_of_ahead (Netlist.ahead_refl start.netlist) rfl apart fun _ _ _ _ => Netlist.target?_empty _

/-- A placeholder is replaced by another one, which is replaced in its turn after an apply. -/
def chainedCalls : List Revision :=
  [.edit (.addPlaceholders 2), .edit (.add (.input "a" 1)), .edit (.add (.invert [.slot 0])),
    .edit (.rewire (.slot 0) (.slot 1)), .apply, .edit (.rewireBus [.slot 1] [.slot 2]),
    .edit (.add (.output "q" [.slot 3]))]

theorem apart_chainedCalls : Netlist.empty.Apart chainedCalls := by
  intro first later split
  obtain ⟨rfl, rfl⟩ : first = chainedCalls.take 4 ∧ later = chainedCalls.drop 5 := by
    simpa [chainedCalls, List.cons_eq_append_iff] using split
  simp [chainedCalls, Edit.mentioned, Edit.replaced, Edit.replacements, Cell.nets, Netlist.empty, Netlist.target?_empty]

theorem chained_agrees : (empty.run (chainedCalls ++ [.apply])).2 = none ∧
    Agrees (empty.run (chainedCalls ++ [.apply]))
      (empty.run ((chainedCalls.filter fun revision => !revision.isApply) ++ [.apply])) :=
  ⟨by decide +kernel, run_apply_early apart_chainedCalls⟩

end Ledger

end BankedMemory
