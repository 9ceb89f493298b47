import BankedMemory.Proofs.Construction.Edits

/-!
# What calls hand out

Each edit of a netlist hands out nets: the output of the cell that it adds, or the placeholders. These are the numbers
of the next slots. A ledger records the edits with the nets that they have handed out, in their order.
-/

namespace BankedMemory

/-- An edit with the nets that it has handed out. -/
structure Entry where
  change : Edit
  nets : Bus

namespace Netlist

variable {netlist after : Netlist} {change : Edit}

/-- What an edit of a netlist enters. -/
def entry (netlist : Netlist) (change : Edit) : Entry := ⟨change, Bus.ofSlots netlist.next change.width⟩

/-- An edit with the nets that it hands out. -/
def issue (netlist : Netlist) : Edit → Except Fault (Bus × Netlist)
  | .add c => netlist.add c
  | .addPlaceholders width => netlist.addPlaceholders width
  | .rewire source target => return ([], ← netlist.rewire source target)
  | .rewireBus source target => return ([], ← netlist.rewireBus source target)

/-- An edit hands out the numbers of the next slots. -/
theorem issue_eq : netlist.issue change =
    (netlist.edit change).map fun after => (Bus.ofSlots netlist.next change.width, after) := by
  cases change with
  | add c =>
    simp only [issue, edit, add]
    cases netlist.checkCell c <;> rfl
  | addPlaceholders width =>
    simp only [issue, edit, addPlaceholders]
    cases netlist.checkRoom width <;> rfl
  | rewire source target =>
    simp only [issue, edit]
    cases netlist.rewire source target <;> rfl
  | rewireBus source target =>
    simp only [issue, edit]
    cases netlist.rewireBus source target <;> rfl

/-- There are numbers for all that an edit hands out. -/
theorem numbered_of_edit (edited : netlist.edit change = .ok after) : netlist.Numbered change.width := by
  cases change with
  | add c => exact (edit_add_eq_ok_iff.mp edited).1.2
  | addPlaceholders width => exact (edit_addPlaceholders_eq_ok_iff.mp edited).1
  | rewire source target => exact Or.inl rfl
  | rewireBus source target => exact Or.inl rfl

theorem issue_eq_ok_iff {nets : Bus} : netlist.issue change = .ok (nets, after) ↔
    netlist.edit change = .ok after ∧ nets = Bus.ofSlots netlist.next change.width := by
  rw [issue_eq]
  cases netlist.edit change <;> simp [Except.map, eq_comm, and_comm]

end Netlist

/-- A netlist together with what its edits have handed out. -/
structure Ledger where
  netlist : Netlist
  entries : List Entry

/-- A call that adds a cell whose operands do not fit together. -/
def Revision.refused : Revision → Bool
  | edit (.add c) => !c.check.isOk
  | _ => false

namespace Ledger

def empty : Ledger := ⟨.empty, []⟩

/-- A revision of the netlist; an edit is entered with the nets that it hands out. -/
def call (ledger : Ledger) : Revision → Except Fault Ledger
  | .edit change => do
    let (nets, netlist) ← ledger.netlist.issue change
    return ⟨netlist, ledger.entries ++ [⟨change, nets⟩]⟩
  | .apply => return { ledger with netlist := ← ledger.netlist.apply }

/-- A call that may be a refused addition, which leaves everything as it was. -/
def attempt (ledger : Ledger) (revision : Revision) : Except Fault Ledger :=
  if revision.refused then .ok ledger else ledger.call revision

def callAll (ledger : Ledger) (revisions : List Revision) : Except Fault Ledger := revisions.foldlM call ledger

def attemptAll (ledger : Ledger) (revisions : List Revision) : Except Fault Ledger := revisions.foldlM attempt ledger

variable {ledger after : Ledger} {revision : Revision} {revisions : List Revision}

theorem call_edit (change : Edit) : ledger.call (.edit change) = (ledger.netlist.edit change).map fun netlist =>
    ⟨netlist, ledger.entries ++ [ledger.netlist.entry change]⟩ := by
  simp only [call, Netlist.issue_eq]
  cases ledger.netlist.edit change <;> rfl

theorem call_apply : ledger.call .apply = ledger.netlist.apply.map fun netlist => ⟨netlist, ledger.entries⟩ := by
  simp only [call]
  cases ledger.netlist.apply <;> rfl

theorem call_eq_ok_iff : ledger.call revision = .ok after ↔ ledger.netlist.revise revision = .ok after.netlist ∧
    after.entries = ledger.entries ++ match revision with
      | .edit change => [ledger.netlist.entry change]
      | .apply => [] := by
  obtain ⟨netlist, entries⟩ := after
  cases revision with
  | edit change =>
    rw [call_edit, Netlist.revise]
    cases ledger.netlist.edit change <;> simp [Except.map, eq_comm]
  | apply =>
    rw [call_apply, Netlist.revise, List.append_nil]
    cases ledger.netlist.apply <;> simp [Except.map, eq_comm]

theorem callAll_cons_iff : ledger.callAll (revision :: revisions) = .ok after ↔
    ∃ middle, ledger.call revision = .ok middle ∧ middle.callAll revisions = .ok after := by
  unfold callAll
  rw [List.foldlM_cons, Storage.Build.except_bind_eq_ok]

/-- Refused additions may be left out. -/
theorem attemptAll_eq :
    ledger.attemptAll revisions = ledger.callAll (revisions.filter fun revision => !revision.refused) := by
  unfold attemptAll callAll
  induction revisions generalizing ledger with
  | nil => rfl
  | cons revision rest ih =>
    rw [List.foldlM_cons, attempt, List.filter_cons]
    cases revision.refused with
    | true => exact ih
    | false =>
      rw [Bool.not_false, if_pos rfl, List.foldlM_cons]
      cases ledger.call revision with
      | error cause => rfl
      | ok middle => exact ih

theorem reviseAll_of_callAll (h : ledger.callAll revisions = .ok after) :
    ledger.netlist.reviseAll revisions = .ok after.netlist := by
  unfold Netlist.reviseAll
  induction revisions generalizing ledger with
  | nil =>
    cases h
    rfl
  | cons revision rest ih =>
    obtain ⟨middle, first, later⟩ := callAll_cons_iff.mp h
    rw [List.foldlM_cons, (call_eq_ok_iff.mp first).1]
    exact ih later

/-- What each call keeps, any number of them keeps. -/
theorem callAll_keeps {P : Ledger → Prop}
    (kept : ∀ before revision after, before.call revision = .ok after → P before → P after)
    (h : ledger.callAll revisions = .ok after) (here : P ledger) : P after := by
  induction revisions generalizing ledger with
  | nil =>
    cases h
    exact here
  | cons revision rest ih =>
    obtain ⟨middle, first, later⟩ := callAll_cons_iff.mp h
    exact ih later (kept ledger revision middle first here)

/-- Whatever calls there were, the number of a net that is handed out leaves room for the three constants. -/
theorem numbered_of_callAll (h : empty.callAll revisions = .ok after) :
    ∀ entry ∈ after.entries, ∀ net ∈ entry.nets, ∃ index, net = .slot index ∧ index < Netlist.maxNets := by
  refine callAll_keeps (P := fun ledger => ∀ entry ∈ ledger.entries, ∀ net ∈ entry.nets,
    ∃ index, net = .slot index ∧ index < Netlist.maxNets) (fun before revision after called small => ?_) h nofun
  obtain ⟨revised, entered⟩ := call_eq_ok_iff.mp called
  intro entry member net at_net
  rw [entered] at member
  cases revision with
  | apply => exact small entry (by rwa [List.append_nil] at member) net at_net
  | edit change =>
    rcases List.mem_append.mp member with earlier | latest
    · exact small entry earlier net at_net
    · obtain rfl := List.mem_singleton.mp latest
      obtain ⟨k, at_place⟩ := List.mem_iff_getElem?.mp at_net
      obtain ⟨inside, rfl⟩ := Bus.ofSlots_getElem? at_place
      have room : before.netlist.Numbered change.width := Netlist.numbered_of_edit revised
      refine ⟨before.netlist.next + k, rfl, ?_⟩
      rw [Netlist.Numbered] at room
      omega

end Ledger

end BankedMemory
