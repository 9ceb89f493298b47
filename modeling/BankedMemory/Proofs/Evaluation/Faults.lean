import BankedMemory.Proofs.Evaluation.Faultless

/-!
# Faults of an evaluation

In a closed netlist, settling finds a driver for each net, in whatever state. It comes back to a busy cell only where
that cell depends on itself. Without combinational loops one fault is left: that a cell does not put out the bit it is
asked for, as an input does whose word is too short.
-/

namespace BankedMemory

namespace Netlist

variable {netlist : Netlist} {state : State}

/-- A fault at one of some nets, after the nets before it have been settled. -/
theorem settleNets_fault {settle : Nat → Marks → Except Fault Marks} (soundly : netlist.SettlesSoundly state settle)
    {nets : List Net} {marks : Marks} {cause : Fault} (sound : marks.Sound netlist state)
    (h : nets.foldlM (netlist.settleNet settle) marks = .error cause) :
    ∃ net ∈ nets, ∃ middle : Marks, middle.Sound netlist state ∧ marks.Keeps middle ∧
      netlist.settleNet settle middle net = .error cause := by
  induction nets generalizing marks with
  | nil => cases h
  | cons net rest ih =>
    cases first : netlist.settleNet settle marks net with
    | error other =>
      rw [List.foldlM_cons, first] at h
      cases h
      exact ⟨net, List.mem_cons_self, marks, sound, .refl marks, first⟩
    | ok middle =>
      have alone : [net].foldlM (netlist.settleNet settle) marks = .ok middle := by
        rw [List.foldlM_cons, first]
        rfl
      obtain ⟨sound', keeps, _⟩ := settleNets_sound soundly sound alone
      rw [List.foldlM_cons, first] at h
      obtain ⟨other, member, later, later_sound, later_keeps, fault⟩ := ih sound' h
      exact ⟨other, List.mem_cons_of_mem net member, later, later_sound, keeps.trans later_keeps, fault⟩

/-- A fault at a net comes from its cell, or the cell lacks the bit asked for. -/
theorem settleNet_fault {settle : Nat → Marks → Except Fault Marks} {marks : Marks} {net : Net} {index offset : Nat}
    {cause : Fault} (driven : netlist.driver net = .ok (.cell index offset))
    (h : netlist.settleNet settle marks net = .error cause) : settle index marks = .error cause ∨
      cause = .outOfRange ∧ ∃ after, settle index marks = .ok after ∧ (after.outputAt index).size ≤ offset := by
  unfold settleNet at h
  rw [driven] at h
  cases settled : settle index marks with
  | error other =>
    simp only [settled, bind, Except.bind] at h
    exact Or.inl h
  | ok after =>
    simp only [settled, bind, Except.bind] at h
    split at h
    · cases h
    · rename_i short
      cases h
      exact Or.inr ⟨rfl, after, rfl, Nat.le_of_not_lt short⟩

/-- In a state that fits, no cell lacks a bit. -/
theorem lacks_no_bit (reached : netlist.Reached) (fits : state.Fits netlist) {depth index offset : Nat} {c : Cell}
    {marks after : Marks} (found : netlist.cell? index = some c) (inside : offset < c.outputWidth)
    (sound : marks.Sound netlist state) (done : netlist.settleCell state depth index marks = .ok after) :
    offset < (after.outputAt index).size := by
  obtain ⟨after_sound, _⟩ := settleCell_sound depth index marks after sound done
  obtain ⟨output, recorded⟩ := exists_settled sound (sound.size ▸ cell_lt found) done
  have full := size_of_settled reached fits after_sound found recorded
  simp only [Marks.outputAt, recorded]
  omega

/-- The cell at a slot drives a net, or the cell that does depends on it. -/
def Behind (netlist : Netlist) (slot : Nat) (net : Net) : Prop :=
  ∃ index, net ∈ netlist.outputOf index ∧ Relation.ReflTransGen netlist.Feeds slot index

end Netlist

/-- The search has come to a net on behalf of all busy cells, and may go on to a depth that is enough for all cells
that are not busy. -/
structure Marks.Pursues (netlist : Netlist) (state : State) (depth : Nat) (marks : Marks) (net : Net) : Prop where
  sound : marks.Sound netlist state
  awaited : ∀ busy, marks.markAt busy = .busy → ∀ index, net ∈ netlist.outputOf index →
    Relation.TransGen netlist.Feeds index busy
  deep : netlist.slots.size < depth + marks.busySlots.card

namespace Marks

variable {netlist : Netlist} {state : State} {marks after : Marks} {depth : Nat} {net : Net}

theorem Pursues.keeps (h : marks.Pursues netlist state depth net) (sound : after.Sound netlist state)
    (keeps : marks.Keeps after) : after.Pursues netlist state depth net where
  sound := sound
  awaited busy at_busy := h.awaited busy ((keeps.busy busy).mp at_busy)
  deep := by
    rw [keeps.busySlots_eq]
    exact h.deep

/-- From a fresh cell the search goes on to its sources, and the cell is busy meanwhile. -/
theorem Pursues.enter {index : Nat} {source : Net} (h : marks.Pursues netlist state (depth + 1) net)
    (inside : index < marks.size) (fresh : marks.markAt index = .fresh) (at_output : net ∈ netlist.outputOf index)
    (member : source ∈ netlist.sourcesAt index) :
    Marks.Pursues netlist state depth (marks.setIfInBounds index .busy) source where
  sound := Netlist.mark_busy_sound h.sound inside
  awaited busy at_busy below at_below := by
    have feeds : netlist.Feeds below index := ⟨source, member, at_below⟩
    rw [markAt_set _ _ _ _ inside] at at_busy
    by_cases same : busy = index
    · subst same
      exact .single feeds
    · rw [if_neg same] at at_busy
      exact .head feeds (h.awaited busy at_busy index at_output)
  deep := by
    have := h.deep
    rw [card_busySlots_set inside fresh]
    omega

/-- With no cell busy, the search for any net may start from the top. -/
theorem Idle.pursues (idle : marks.Idle netlist state) (net : Net) :
    marks.Pursues netlist state (netlist.slots.size + 1) net where
  sound := idle.sound
  awaited busy at_busy := absurd at_busy (idle.still busy)
  deep := by omega

/-- The depth is never used up, since no more cells are busy than there are slots. -/
theorem not_deep_zero (sound : marks.Sound netlist state) :
    ¬ netlist.slots.size < 0 + marks.busySlots.card := by
  have few := marks.card_busySlots_le
  have size := sound.size
  omega

end Marks

namespace Netlist

variable {netlist : Netlist} {state : State}

section Closed

variable (reached : netlist.Reached) (closed : netlist.Closed)
include reached closed

/-- A search in a closed netlist fails where it comes back to a busy cell, which then depends on itself, or else in a
state that does not fit. The induction is on the depth, and each net is pursued for all busy cells. -/
theorem fault_cases {depth : Nat} {net : Net} {marks : Marks} {cause : Fault} (driven : netlist.Driven net)
    (pursues : marks.Pursues netlist state depth net)
    (fault : netlist.settleNet (netlist.settleCell state depth) marks net = .error cause) :
    (cause = .outOfRange ∧ ¬ state.Fits netlist) ∨
      ∃ slot, cause = .combinationalLoop slot ∧ Relation.TransGen netlist.Feeds slot slot ∧ netlist.Behind slot net := by
  induction depth generalizing net marks with
  | zero => exact absurd pursues.deep (Marks.not_deep_zero pursues.sound)
  | succ depth ih =>
    rcases driven with ⟨bit, rfl⟩ | ⟨index, at_output⟩
    · cases fault
    obtain ⟨c, offset, found, in_output, rfl⟩ := mem_outputOf.mp at_output
    rcases settleNet_fault (reached.driver_output found in_output) fault with in_cell | ⟨rfl, after, done, short⟩
    · cases mark : marks.markAt index with
      | settled output => simp [settleCell, mark] at in_cell
      | busy =>
        simp only [settleCell, mark] at in_cell
        cases in_cell
        exact .inr ⟨index, rfl, pursues.awaited index mark index at_output, index, at_output, .refl⟩
      | fresh =>
        simp only [settleCell, mark] at in_cell
        cases walked : (netlist.sourcesAt index).foldlM (netlist.settleNet (netlist.settleCell state depth))
            (marks.setIfInBounds index .busy) with
        | ok middle => simp [walked, bind, Except.bind, pure, Except.pure] at in_cell
        | error other =>
          simp only [walked, bind, Except.bind] at in_cell
          obtain rfl : other = cause := Except.error.inj in_cell
          have inside : index < marks.size := pursues.sound.size ▸ cell_lt found
          obtain ⟨source, member, middle, sound, keeps, at_source⟩ :=
            settleNets_fault (settleCell_sound depth) (mark_busy_sound pursues.sound inside) walked
          have entered := (pursues.enter inside mark at_output member).keeps sound keeps
          rcases ih (closed.source member) entered at_source with short | ⟨slot, named, loop, below, at_below, path⟩
          · exact .inl short
          · exact .inr ⟨slot, named, loop, index, at_output, path.tail ⟨source, member, at_below⟩⟩
    · refine .inl ⟨rfl, fun fits => ?_⟩
      have enough := lacks_no_bit reached fits found in_output pursues.sound done
      omega

variable (acyclic : netlist.Acyclic)
include acyclic

theorem fault_of_driven {net : Net} (driven : netlist.Driven net) {depth : Nat} {marks : Marks} {cause : Fault}
    (pursues : marks.Pursues netlist state depth net)
    (h : netlist.settleNet (netlist.settleCell state depth) marks net = .error cause) : cause = .outOfRange := by
  rcases fault_cases reached closed driven pursues h with ⟨short, _⟩ | ⟨slot, _, loop, _⟩
  · exact short
  · exact absurd loop (acyclic slot)

end Closed

/-- Whatever a state is asked for, no answer fails except where an output bit is missing. -/
structure Answerable (netlist : Netlist) (state : State) : Prop where
  read : ∀ bus, (∀ net ∈ bus, netlist.Driven net) → ∀ cause, netlist.read state bus = .error cause →
    cause = .outOfRange
  readOutput : ∀ index name bus, netlist.cell? index = some (.output name bus) →
    ∀ cause, netlist.readOutput state name = .error cause → cause = .outOfRange
  step : ∀ cause, netlist.step state = .error cause → cause = .outOfRange

/-- An action on marks that leaves no cell busy, and fails only where an output bit is missing. -/
structure Mild (netlist : Netlist) (state : State) (action : Marks → Except Fault Marks) : Prop where
  outcome : ∀ marks after, marks.Idle netlist state → action marks = .ok after → after.Idle netlist state
  fault : ∀ marks cause, marks.Idle netlist state → action marks = .error cause → cause = .outOfRange

theorem mild_pure : netlist.Mild state .ok where
  outcome _ _ idle h := by
    cases h
    exact idle
  fault _ _ _ h := by cases h

theorem Mild.seq {first : Marks → Except Fault Marks} {second : Marks → Marks → Except Fault Marks}
    (h : netlist.Mild state first) (h' : ∀ middle, netlist.Mild state (second middle)) :
    netlist.Mild state fun marks => first marks >>= fun middle => second middle middle where
  outcome marks after idle done := by
    obtain ⟨middle, done, done'⟩ := Storage.Build.except_bind_eq_ok.mp done
    exact (h' middle).outcome middle after (h.outcome marks middle idle done) done'
  fault marks cause idle failed := by
    cases done : first marks with
    | error other =>
      simp only [done, bind, Except.bind] at failed
      exact h.fault marks cause idle (done.trans failed)
    | ok middle =>
      simp only [done, bind, Except.bind] at failed
      exact (h' middle).fault middle cause (h.outcome marks middle idle done) failed

theorem mild_foldlM {α : Type} {action : Marks → α → Except Fault Marks} {l : List α}
    (each : ∀ x ∈ l, netlist.Mild state fun marks => action marks x) :
    netlist.Mild state fun marks => l.foldlM action marks := by
  induction l with
  | nil => exact mild_pure
  | cons x rest ih =>
    have tail := ih fun y member => each y (List.mem_cons_of_mem x member)
    simp only [List.foldlM_cons]
    exact (each x List.mem_cons_self).seq fun _ => tail

theorem mild_ite {condition : Prop} [Decidable condition] {first second : Marks → Except Fault Marks}
    (h : condition → netlist.Mild state first) (h' : ¬ condition → netlist.Mild state second) :
    netlist.Mild state fun marks => if condition then first marks else second marks := by
  split
  · exact h ‹_›
  · exact h' ‹_›

section Closed

variable (state : State) (reached : netlist.Reached) (closed : netlist.Closed) (acyclic : netlist.Acyclic)
include reached closed acyclic

theorem mild_settle {nets : List Net} (driven : ∀ net ∈ nets, netlist.Driven net) :
    netlist.Mild state (netlist.settle state nets) where
  outcome _ _ idle h := (settle_sound idle h).1
  fault marks cause idle h := by
    obtain ⟨net, member, middle, sound, keeps, fault⟩ := settleNets_fault (settleCell_sound _) idle.sound h
    exact fault_of_driven reached closed acyclic (driven net member) ((idle.pursues net).keeps sound keeps) fault

theorem mild_writePort (memory : Memory) {port : WritePort} (driven : ∀ net ∈ port.nets, netlist.Driven net) :
    netlist.Mild state fun marks => netlist.settleWritePort state memory marks port := by
  have operand (net : Net) (member : net ∈ port.addr ++ port.data ++ port.mask) : netlist.Driven net :=
    driven net (List.mem_append_left _ member)
  have mask := mild_settle state reached closed acyclic fun net (member : net ∈ port.mask) =>
    operand net (List.mem_append_right _ member)
  have addr := mild_settle state reached closed acyclic fun net (member : net ∈ port.addr) =>
    operand net (List.mem_append_left _ (List.mem_append_left _ member))
  have data := mild_settle state reached closed acyclic fun net (member : net ∈ port.data) =>
    operand net (List.mem_append_left _ (List.mem_append_right _ member))
  refine mild_ite (fun _ => mild_pure) fun _ => ?_
  exact mask.seq fun _ => addr.seq fun middle => mild_ite (fun _ => data) fun _ => mild_pure

theorem mild_readPort {port : ReadPort} (driven : ∀ net ∈ port.nets, netlist.Driven net) :
    netlist.Mild state fun marks => netlist.settleReadPort state marks port := by
  have addr := mild_settle state reached closed acyclic fun net (member : net ∈ port.addr) =>
    driven net (List.mem_append_left _ member)
  unfold settleReadPort
  cases registered : port.register with
  | none => exact mild_pure
  | some register =>
    have enable := mild_settle state reached closed acyclic
      fun net (member : net ∈ [register.enable.net]) => driven net <| by
        rw [List.mem_singleton.mp member]
        simp [ReadPort.nets, registered, Register.nets]
    refine mild_ite (fun _ => mild_pure) fun _ => ?_
    exact enable.seq fun middle => mild_ite (fun _ => addr) fun _ => mild_pure

theorem mild_memory {memory : Memory} (driven : ∀ net ∈ memory.nets, netlist.Driven net) :
    netlist.Mild state fun marks => netlist.settleMemory state marks memory := by
  have writes := mild_foldlM (l := memory.writePorts) fun port member =>
    mild_writePort state reached closed acyclic memory fun net operand =>
      driven net (List.mem_append_left _ (List.mem_flatMap.mpr ⟨port, member, operand⟩))
  have reads := mild_foldlM (l := memory.readPorts) fun port member =>
    mild_readPort state reached closed acyclic fun net operand =>
      driven net (List.mem_append_right _ (List.mem_flatMap.mpr ⟨port, member, operand⟩))
  exact writes.seq fun _ => reads

theorem read_fault {bus : Bus} (driven : ∀ net ∈ bus, netlist.Driven net) {cause : Fault}
    (h : netlist.read state bus = .error cause) : cause = .outOfRange := by
  unfold read at h
  cases settled : netlist.settle state bus (Marks.initial netlist) with
  | error other =>
    simp only [settled, bind, Except.bind] at h
    cases h
    exact (mild_settle state reached closed acyclic driven).fault _ _ (Marks.idle_initial netlist state) settled
  | ok after => simp [settled, bind, Except.bind, pure, Except.pure] at h

theorem step_fault {cause : Fault} (h : netlist.step state = .error cause) : cause = .outOfRange := by
  unfold step at h
  cases settled : netlist.settleCycle state with
  | error other =>
    simp only [settled, bind, Except.bind] at h
    cases h
    have cycle := mild_foldlM (l := netlist.memories) fun entry member =>
      mild_memory state reached closed acyclic fun net operand =>
        closed entry.1 _ (mem_memories.mp member) net operand
    exact cycle.fault _ _ (Marks.idle_initial netlist state) settled
  | ok after => simp [settled, bind, Except.bind, pure, Except.pure] at h

/-- Whatever a state of such a netlist is asked for, it meets neither a net without a driver nor a loop. -/
theorem answerable : netlist.Answerable state where
  read bus driven cause h := read_fault state reached closed acyclic driven h
  readOutput index name bus found cause h := by
    obtain ⟨first, bus', at_first, same⟩ := readOutput_eq state found
    exact read_fault state reached closed acyclic (closed first _ at_first) (same ▸ h)
  step cause h := step_fault state reached closed acyclic h

end Closed

end Netlist

end BankedMemory
