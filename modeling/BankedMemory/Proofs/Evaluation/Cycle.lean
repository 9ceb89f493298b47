import BankedMemory.Proofs.Evaluation.Settling
import BankedMemory.Simulation.Cycle

/-!
# What a clock cycle needs and does

A cycle succeeds exactly if the nets that the memories need carry bits, and its result is the next state under the
bits that all nets carry before it. So all writes and samples of one cycle happen at the same time, whatever the
order in which the memories are settled. The alignment of held words with registers is kept.
-/

namespace BankedMemory

namespace Netlist

variable {netlist : Netlist} {state : State}

/-- The nets that a write port needs in a cycle: its data only if the write has an effect. -/
def neededByWrite (netlist : Netlist) (state : State) (memory : Memory) (port : WritePort) : List Net :=
  if port.clock.isConst then []
  else port.mask ++ port.addr ++
    if (memory.strobe (netlist.valueIn state) port).isSome then port.data else []

/-- The nets that a read port needs in a cycle: its address only if its register samples. -/
def neededByRead (netlist : Netlist) (state : State) (port : ReadPort) : List Net :=
  match port.register with
  | none => []
  | some register =>
    if register.clock.isConst then []
    else [register.enable.net] ++
      if register.enable.active (netlist.valueIn state register.enable.net) = .one then port.addr else []

def neededBy (netlist : Netlist) (state : State) (memory : Memory) : List Net :=
  memory.writePorts.flatMap (netlist.neededByWrite state memory) ++
    memory.readPorts.flatMap (netlist.neededByRead state)

/-- The nets that a cycle needs. -/
def cycleNeeds (netlist : Netlist) (state : State) : List Net :=
  netlist.memories.flatMap fun entry => netlist.neededBy state entry.2

/-- A write port needs no other nets than its operands. -/
theorem mem_of_neededByWrite {memory : Memory} {port : WritePort} {net : Net}
    (needed : net ∈ netlist.neededByWrite state memory port) : net ∈ port.addr ++ port.data ++ port.mask := by
  unfold neededByWrite at needed
  split at needed
  · cases needed
  · rcases List.mem_append.mp needed with control | data
    · rcases List.mem_append.mp control with mask | addr
      · exact List.mem_append_right _ mask
      · exact List.mem_append_left _ (List.mem_append_left _ addr)
    · split at data
      · exact List.mem_append_left _ (List.mem_append_right _ data)
      · cases data

/-- A read port needs no other nets than its enable and its address, and only if it has a register. -/
theorem mem_of_neededByRead {port : ReadPort} {net : Net} (needed : net ∈ netlist.neededByRead state port) :
    ∃ register, port.register = some register ∧ net ∈ register.enable.net :: port.addr := by
  unfold neededByRead at needed
  cases registered : port.register with
  | none => simp [registered] at needed
  | some register =>
    refine ⟨register, rfl, ?_⟩
    simp only [registered] at needed
    split at needed
    · cases needed
    · rcases List.mem_append.mp needed with enable | addr
      · exact List.mem_singleton.mp enable ▸ List.mem_cons_self
      · split at addr
        · exact List.mem_cons_of_mem _ addr
        · cases addr

theorem mem_cycleNeeds {net : Net} : net ∈ netlist.cycleNeeds state ↔
    ∃ index memory, netlist.cell? index = some (.memory memory) ∧ net ∈ netlist.neededBy state memory := by
  unfold cycleNeeds
  rw [List.mem_flatMap]
  constructor
  · rintro ⟨⟨index, memory⟩, member, needed⟩
    exact ⟨index, memory, mem_memories.mp member, needed⟩
  · rintro ⟨index, memory, found, needed⟩
    exact ⟨(index, memory), mem_memories.mpr found, needed⟩

/-- An action on marks that settles some nets, and fails only if one of them carries nothing. -/
structure SettlesAll (netlist : Netlist) (state : State) (action : Marks → Except Fault Marks)
    (needed : List Net) : Prop where
  progress : ∀ marks, marks.Idle netlist state → (∀ net ∈ needed, netlist.Live state net) →
    ∃ after, action marks = .ok after
  outcome : ∀ marks after, marks.Idle netlist state → action marks = .ok after →
    after.Idle netlist state ∧ marks.Keeps after ∧ ∀ net ∈ needed, after.Known netlist net

theorem settlesAll_pure : netlist.SettlesAll state .ok [] where
  progress marks _ _ := ⟨marks, rfl⟩
  outcome _ _ idle h := by
    cases h
    exact ⟨idle, .refl _, by simp⟩

theorem settlesAll_settle (aligned : state.Aligned netlist) (nets : List Net) :
    netlist.SettlesAll state (netlist.settle state nets) nets where
  progress _ idle live := (settle_succeeds_iff aligned idle).mpr live
  outcome _ _ idle h := settle_sound idle h

/-- The second action may depend on the marks, as long as they know what the first one settles. -/
theorem SettlesAll.seq {first : Marks → Except Fault Marks} {needed rest : List Net}
    (h : netlist.SettlesAll state first needed) (second : Marks → Marks → Except Fault Marks)
    (then_ : ∀ middle : Marks, middle.Idle netlist state → (∀ net ∈ needed, middle.Known netlist net) →
      netlist.SettlesAll state (second middle) rest) :
    netlist.SettlesAll state (fun marks => first marks >>= fun middle => second middle middle)
      (needed ++ rest) where
  progress marks idle live := by
    obtain ⟨middle, done⟩ := h.progress marks idle fun net member => live net (List.mem_append_left _ member)
    obtain ⟨idle', _, known⟩ := h.outcome marks middle idle done
    obtain ⟨after, done'⟩ := (then_ middle idle' known).progress middle idle'
      fun net member => live net (List.mem_append_right _ member)
    exact ⟨after, by simp only [done, bind, Except.bind]; exact done'⟩
  outcome marks after idle h' := by
    cases done : first marks with
    | error cause => simp [done, bind, Except.bind] at h'
    | ok middle =>
      simp only [done, bind, Except.bind] at h'
      obtain ⟨idle', keeps, known⟩ := h.outcome marks middle idle done
      obtain ⟨idle'', keeps', known'⟩ := (then_ middle idle' known).outcome middle after idle' h'
      refine ⟨idle'', keeps.trans keeps', fun net member => ?_⟩
      rcases List.mem_append.mp member with member | member
      · exact (known net member).mono keeps'
      · exact known' net member

theorem settlesAll_foldlM {α : Type} {action : Marks → α → Except Fault Marks} {needed : α → List Net}
    {l : List α} (each : ∀ x ∈ l, netlist.SettlesAll state (fun marks => action marks x) (needed x)) :
    netlist.SettlesAll state (fun marks => l.foldlM action marks) (l.flatMap needed) := by
  induction l with
  | nil => exact settlesAll_pure
  | cons x rest ih =>
    have tail := ih fun y member => each y (List.mem_cons_of_mem x member)
    simp only [List.foldlM_cons, List.flatMap_cons]
    exact (each x List.mem_cons_self).seq (fun _ marks => rest.foldlM action marks) fun _ _ _ => tail

/-- Known nets have the bits recorded that the evaluation gives. -/
theorem value_eq_valueIn (aligned : state.Aligned netlist) {marks : Marks} (idle : marks.Idle netlist state)
    {net : Net} (known : marks.Known netlist net) : marks.value netlist net = netlist.valueIn state net :=
  ((idle.sound.carries known).valueIn_eq aligned).symm

theorem strobe_congr {memory : Memory} {port : WritePort} {v w : Net → Trit}
    (mask : ∀ net ∈ port.mask, v net = w net) (addr : ∀ net ∈ port.addr, v net = w net) :
    memory.strobe v port = memory.strobe w port := by
  have same_mask : port.mask.map v = port.mask.map w := List.map_congr_left mask
  have same_addr : port.addr.map v = port.addr.map w := List.map_congr_left addr
  unfold Memory.strobe
  rw [same_mask, same_addr]

theorem settle_append (nets others : List Net) (marks : Marks) :
    netlist.settle state (nets ++ others) marks =
      netlist.settle state nets marks >>= netlist.settle state others := by
  unfold settle
  rw [List.foldlM_append]

theorem settlesAll_writePort (aligned : state.Aligned netlist) (memory : Memory) (port : WritePort) :
    netlist.SettlesAll state (fun marks => netlist.settleWritePort state memory marks port)
      (netlist.neededByWrite state memory port) := by
  unfold settleWritePort neededByWrite
  cases constant : port.clock.isConst with
  | true => exact settlesAll_pure
  | false =>
    simp only [Bool.false_eq_true, if_false]
    have joined : (fun marks => netlist.settle state port.mask marks >>= fun marks =>
        netlist.settle state port.addr marks >>= fun marks =>
          if (memory.strobe (marks.value netlist) port).isSome then netlist.settle state port.data marks
          else pure marks) = fun marks => netlist.settle state (port.mask ++ port.addr) marks >>= fun middle =>
          if (memory.strobe (middle.value netlist) port).isSome then netlist.settle state port.data middle
          else pure middle := by
      funext marks
      rw [settle_append, bind_assoc]
    rw [joined]
    apply (settlesAll_settle aligned (port.mask ++ port.addr)).seq
      (fun middle marks => if (memory.strobe (middle.value netlist) port).isSome
        then netlist.settle state port.data marks else pure marks)
    intro middle idle known
    have agree := fun net member => value_eq_valueIn aligned idle (known net member)
    rw [strobe_congr (fun net member => agree net (List.mem_append_left _ member))
      (fun net member => agree net (List.mem_append_right _ member))]
    split
    · exact settlesAll_settle aligned port.data
    · exact settlesAll_pure

theorem settlesAll_readPort (aligned : state.Aligned netlist) (port : ReadPort) :
    netlist.SettlesAll state (fun marks => netlist.settleReadPort state marks port)
      (netlist.neededByRead state port) := by
  unfold settleReadPort neededByRead
  cases port.register with
  | none => exact settlesAll_pure
  | some register =>
    cases constant : register.clock.isConst with
    | true =>
      simp only [constant, if_true]
      exact settlesAll_pure
    | false =>
      simp only [constant, Bool.false_eq_true, if_false]
      apply (settlesAll_settle aligned [register.enable.net]).seq
        (fun middle marks =>
          if register.enable.active (middle.value netlist register.enable.net) = .one
          then netlist.settle state port.addr marks else pure marks)
      intro middle idle known
      rw [value_eq_valueIn aligned idle (known _ List.mem_cons_self)]
      split
      · exact settlesAll_settle aligned port.addr
      · exact settlesAll_pure

theorem settlesAll_memory (aligned : state.Aligned netlist) (memory : Memory) :
    netlist.SettlesAll state (fun marks => netlist.settleMemory state marks memory)
      (netlist.neededBy state memory) :=
  (settlesAll_foldlM fun port _ => settlesAll_writePort aligned memory port).seq
    (fun _ marks => memory.readPorts.foldlM (netlist.settleReadPort state) marks)
    fun _ _ _ => settlesAll_foldlM fun port _ => settlesAll_readPort aligned port

theorem settlesAll_cycle (aligned : state.Aligned netlist) :
    netlist.SettlesAll state
      (fun marks => netlist.memories.foldlM (fun marks entry => netlist.settleMemory state marks entry.2) marks)
      (netlist.cycleNeeds state) :=
  settlesAll_foldlM fun entry _ => settlesAll_memory aligned entry.2

end Netlist

/-- What a write port does depends only on the nets that it needs. -/
theorem Memory.rowWrite_congr {netlist : Netlist} {state : State} (memory : Memory) {port : WritePort}
    {v : Net → Trit} (agree : ∀ net ∈ netlist.neededByWrite state memory port,
      v net = netlist.valueIn state net) :
    memory.rowWrite v port = memory.rowWrite (netlist.valueIn state) port := by
  unfold rowWrite
  unfold Netlist.neededByWrite at agree
  cases constant : port.clock.isConst with
  | true => rfl
  | false =>
    simp only [constant, Bool.false_eq_true, if_false, List.mem_append] at agree ⊢
    rw [Netlist.strobe_congr (fun net member => agree net (Or.inl (Or.inl member)))
      (fun net member => agree net (Or.inl (Or.inr member)))]
    cases hit : memory.strobe (netlist.valueIn state) port with
    | none => rfl
    | some strobe =>
      have same : port.data.map v = port.data.map (netlist.valueIn state) :=
        List.map_congr_left fun net member => agree net (Or.inr (by simpa [hit] using member))
      simp only [Option.map_some, same]

theorem Memory.nextHeld_congr {netlist : Netlist} {state : State} (memory : Memory) {port : ReadPort}
    {register : Register} (registered : port.register = some register) {v : Net → Trit}
    (writes : memory.rowWrites v = memory.rowWrites (netlist.valueIn state))
    (agree : ∀ net ∈ netlist.neededByRead state port, v net = netlist.valueIn state net)
    (rows : Array Bits) (held : Bits) :
    memory.nextHeld v rows port register held =
      memory.nextHeld (netlist.valueIn state) rows port register held := by
  unfold nextHeld
  unfold Netlist.neededByRead at agree
  cases constant : register.clock.isConst with
  | true => rfl
  | false =>
    simp only [registered, constant, Bool.false_eq_true, if_false, List.mem_append] at agree ⊢
    rw [agree _ (Or.inl List.mem_cons_self)]
    cases enabled : register.enable.active (netlist.valueIn state register.enable.net) with
    | zero => rfl
    | unknown => rfl
    | one =>
      have same : port.addr.map v = port.addr.map (netlist.valueIn state) :=
        List.map_congr_left fun net member => agree net (Or.inr (by simpa [enabled] using member))
      simp only [same, writes]

theorem Memory.nextContents_congr {netlist : Netlist} {state : State} (memory : Memory) {v : Net → Trit}
    (agree : ∀ net ∈ netlist.neededBy state memory, v net = netlist.valueIn state net) (contents : Contents) :
    memory.nextContents v contents = memory.nextContents (netlist.valueIn state) contents := by
  have writes : memory.rowWrites v = memory.rowWrites (netlist.valueIn state) :=
    List.map_congr_left fun port member => memory.rowWrite_congr fun net needed =>
      agree net (List.mem_append_left _ (List.mem_flatMap.mpr ⟨port, member, needed⟩))
  unfold nextContents
  dsimp only
  rw [writes]
  congr 1
  apply List.map_congr_left
  rintro ⟨port, held⟩ member
  have needs : ∀ net ∈ netlist.neededByRead state port, v net = netlist.valueIn state net :=
    fun net needed => agree net (List.mem_append_right _
      (List.mem_flatMap.mpr ⟨port, (List.of_mem_zip member).1, needed⟩))
  cases registered : port.register with
  | none => rfl
  | some register =>
    cases held with
    | none => rfl
    | some word => simp only [memory.nextHeld_congr registered writes needs]

namespace Netlist

variable {netlist : Netlist} {state : State}

/-- A cycle succeeds exactly if the nets that it needs carry bits. -/
theorem step_succeeds_iff (aligned : state.Aligned netlist) :
    (∃ next, netlist.step state = .ok next) ↔ ∀ net ∈ netlist.cycleNeeds state, netlist.Live state net := by
  have idle := Marks.idle_initial netlist state
  have all := settlesAll_cycle aligned
  unfold step settleCycle
  constructor
  · rintro ⟨next, h⟩ net member
    cases settled : netlist.memories.foldlM (fun marks entry => netlist.settleMemory state marks entry.2)
        (Marks.initial netlist) with
    | error cause => simp [settled, bind, Except.bind] at h
    | ok after =>
      obtain ⟨idle', _, known⟩ := all.outcome _ after idle settled
      exact ⟨_, idle'.sound.carries (known net member)⟩
  · intro live
    obtain ⟨after, settled⟩ := all.progress _ idle live
    exact ⟨netlist.nextState (after.value netlist) state, by simp only [settled]; rfl⟩

/-- The state after a cycle is the next state under the bits that all nets carry before it. -/
theorem step_eq (aligned : state.Aligned netlist) {next : State} (h : netlist.step state = .ok next) :
    next = netlist.nextState (netlist.valueIn state) state := by
  have idle := Marks.idle_initial netlist state
  unfold step settleCycle at h
  cases settled : netlist.memories.foldlM (fun marks entry => netlist.settleMemory state marks entry.2)
      (Marks.initial netlist) with
  | error cause => simp [settled, bind, Except.bind] at h
  | ok after =>
    simp only [settled, bind, Except.bind, pure, Except.pure] at h
    cases h
    obtain ⟨idle', _, known⟩ := (settlesAll_cycle aligned).outcome _ after idle settled
    have same : netlist.nextAt (after.value netlist) = netlist.nextAt (netlist.valueIn state) := by
      funext index contents
      unfold nextAt
      split
      · rename_i memory contents found
        have member : (index, memory) ∈ netlist.memories := mem_memories.mpr found
        rw [memory.nextContents_congr fun net needed => value_eq_valueIn aligned idle'
          (known net (List.mem_flatMap.mpr ⟨_, member, needed⟩))]
      · rfl
    unfold nextState
    rw [same]

/-- What a memory holds after a cycle, if it holds anything. -/
theorem contentsAt_nextState_eq_map {index : Nat} {memory : Memory} (value : Net → Trit)
    (found : netlist.cell? index = some (.memory memory)) :
    (netlist.nextState value state).contentsAt index = (state.contentsAt index).map (memory.nextContents value) := by
  unfold State.contentsAt
  rw [getElem?_nextState]
  rcases state.contents[index]? with _ | (_ | contents)
  · rfl
  · simp [nextAt]
  · simp [nextAt, found]

theorem contentsAt_nextState {index : Nat} {memory : Memory} {contents : Contents} (value : Net → Trit)
    (found : netlist.cell? index = some (.memory memory)) (held : state.contentsAt index = some contents) :
    (netlist.nextState value state).contentsAt index = some (memory.nextContents value contents) := by
  rw [contentsAt_nextState_eq_map value found, held]
  rfl

/-- A slot without a memory keeps what it holds. -/
theorem contentsAt_nextState_of_other {index : Nat} (value : Net → Trit)
    (other : ∀ memory, netlist.cell? index ≠ some (.memory memory)) :
    (netlist.nextState value state).contentsAt index = state.contentsAt index := by
  have stays : netlist.nextAt value index = id := by
    funext contents
    unfold nextAt
    split
    · rename_i memory _ found
      exact absurd found (other memory)
    · rfl
  unfold State.contentsAt
  rw [getElem?_nextState, stays, Option.map_id_fun, id]

end Netlist

theorem Memory.aligned_initialContents (memory : Memory) : memory.Aligned memory.initialContents := by
  simp [Aligned, initialContents]

theorem Memory.Aligned.nextContents {memory : Memory} {contents : Contents} (h : memory.Aligned contents)
    (value : Net → Trit) : memory.Aligned (memory.nextContents value contents) := by
  unfold Aligned at h ⊢
  have same_length : contents.held.length = memory.readPorts.length := by
    simpa using congrArg List.length h
  rw [← h]
  unfold Memory.nextContents
  dsimp only
  rw [List.map_map]
  conv_rhs => rw [← List.map_snd_zip (Nat.le_of_eq same_length), List.map_map]
  apply List.map_congr_left
  rintro ⟨port, held⟩ _
  cases registered : port.register <;> cases held <;> simp [registered]

/-- A memory none of whose ports is ever clocked. -/
structure Memory.Frozen (memory : Memory) : Prop where
  writes : ∀ port ∈ memory.writePorts, port.clock.isConst = true
  reads : ∀ port ∈ memory.readPorts, ∀ register, port.register = some register → register.clock.isConst = true

theorem Memory.Frozen.rowWrites {memory : Memory} (frozen : memory.Frozen) (value : Net → Trit) :
    (memory.rowWrites value).filterMap id = [] := by
  rw [Memory.rowWrites, List.filterMap_map, List.filterMap_eq_nil_iff]
  intro port member
  simp [Memory.rowWrite, frozen.writes port member]

/-- A frozen memory keeps all that it holds. -/
theorem Memory.Frozen.nextContents {memory : Memory} (frozen : memory.Frozen) {contents : Contents}
    (aligned : memory.Aligned contents) (value : Net → Trit) : memory.nextContents value contents = contents := by
  have same_length : contents.held.length = memory.readPorts.length := by
    simpa using congrArg List.length aligned
  have rows : commit contents.rows [] = contents.rows := by
    apply Array.ext_getElem?
    intro row
    simp [getElem?_commit, commitRow_nil]
  unfold Memory.nextContents
  dsimp only
  rw [frozen.rowWrites, rows]
  refine congrArg (Contents.mk contents.rows) ?_
  conv_rhs => rw [← List.map_snd_zip (Nat.le_of_eq same_length)]
  apply List.map_congr_left
  rintro ⟨port, held⟩ member
  cases registered : port.register with
  | none => rfl
  | some register =>
    cases held with
    | none => rfl
    | some word => simp [nextHeld, frozen.reads port (List.of_mem_zip member).1 register registered]

/-- A frozen memory needs nothing in a cycle. -/
theorem Memory.Frozen.neededBy {memory : Memory} (frozen : memory.Frozen) (netlist : Netlist) (state : State) :
    netlist.neededBy state memory = [] := by
  unfold Netlist.neededBy
  rw [List.append_eq_nil_iff, List.flatMap_eq_nil_iff, List.flatMap_eq_nil_iff]
  constructor
  · intro port member
    simp [Netlist.neededByWrite, frozen.writes port member]
  · intro port member
    unfold Netlist.neededByRead
    cases registered : port.register with
    | none => rfl
    | some register => simp [frozen.reads port member register registered]

theorem State.contentsAt_initial (netlist : Netlist) (index : Nat) :
    (State.initial netlist).contentsAt index =
      (netlist.cell? index).bind fun c => c.memory?.map Memory.initialContents := by
  unfold State.contentsAt State.initial Netlist.cell?
  cases found : netlist.slots[index]? with
  | none => simp [found]
  | some slot => simp [found]

theorem State.aligned_initial (netlist : Netlist) : (State.initial netlist).Aligned netlist := by
  intro index memory contents found held
  rw [State.contentsAt_initial, found] at held
  cases held
  exact memory.aligned_initialContents

namespace Netlist

variable {netlist : Netlist} {state : State}

theorem start_eq {start : State} (h : netlist.start = .ok start) : start = State.initial netlist := by
  unfold Netlist.start at h
  split at h
  · exact (Except.ok.inj h).symm
  · cases h

theorem start_succeeds_iff : (∃ start, netlist.start = .ok start) ↔
    ∀ index m, netlist.cell? index = some (.memory m) → m.depth ≤ Contents.maxRows := by
  unfold start
  constructor
  · rintro ⟨start, h⟩ index m found
    split at h
    · rename_i fits
      simpa using List.all_eq_true.mp fits (index, m) (mem_memories.mpr found)
    · cases h
  · intro fits
    refine ⟨State.initial netlist, if_pos (List.all_eq_true.mpr ?_)⟩
    rintro ⟨index, m⟩ member
    simpa using fits index m (mem_memories.mp member)

theorem contentsAt_of_nextState {value : Net → Trit} {index : Nat} {contents : Contents}
    (h : (netlist.nextState value state).contentsAt index = some contents) :
    ∃ before, state.contentsAt index = some before := by
  unfold State.contentsAt at h ⊢
  rw [getElem?_nextState] at h
  rcases at_index : state.contents[index]? with _ | (_ | before)
  · simp [at_index] at h
  · simp [at_index, nextAt] at h
  · exact ⟨before, by simp⟩

theorem aligned_nextState (aligned : state.Aligned netlist) (value : Net → Trit) :
    (netlist.nextState value state).Aligned netlist := by
  intro index memory contents found held
  obtain ⟨before, held_before⟩ := contentsAt_of_nextState held
  rw [contentsAt_nextState value found held_before] at held
  cases held
  exact (aligned index memory before found held_before).nextContents value

theorem aligned_step (aligned : state.Aligned netlist) {next : State} (h : netlist.step state = .ok next) :
    next.Aligned netlist := by
  rw [step_eq aligned h]
  exact aligned_nextState aligned _

end Netlist

namespace State

variable {netlist : Netlist} {state : State}

/-- Setting an input changes nothing that a memory holds. -/
theorem contents_setInput {name : String} {word : Bits} {next : State}
    (h : state.setInput name word = .ok next) : next.contents = state.contents := by
  unfold setInput at h
  split at h
  · cases h
  · split at h
    · cases h
      rfl
    · cases h

theorem inputs_setInput {name : String} {word : Bits} {next : State} (h : state.setInput name word = .ok next) :
    next.inputs = state.inputs.put name word := by
  unfold setInput at h
  split at h
  · cases h
  · split at h
    · cases h
      rfl
    · cases h

theorem aligned_setInput (aligned : state.Aligned netlist) {name : String} {word : Bits} {next : State}
    (h : state.setInput name word = .ok next) : next.Aligned netlist := by
  intro index memory contents found held
  apply aligned index memory contents found
  unfold contentsAt at held ⊢
  rwa [contents_setInput h] at held

end State

namespace Netlist

variable {netlist : Netlist} {state : State} {memory : Memory} {contents : Contents}

/-- All cells that are this memory hold the same. -/
def Holds (netlist : Netlist) (state : State) (memory : Memory) (contents : Contents) : Prop :=
  ∀ index, netlist.cell? index = some (.memory memory) → state.contentsAt index = some contents

theorem holds_initial (netlist : Netlist) (memory : Memory) :
    netlist.Holds (State.initial netlist) memory memory.initialContents := by
  intro index found
  rw [State.contentsAt_initial, found]
  rfl

theorem Holds.nextState (h : netlist.Holds state memory contents) (value : Net → Trit) :
    netlist.Holds (netlist.nextState value state) memory (memory.nextContents value contents) :=
  fun index found => contentsAt_nextState value found (h index found)

theorem Holds.nextState_of_frozen (h : netlist.Holds state memory contents) (frozen : memory.Frozen)
    (aligned : memory.Aligned contents) (value : Net → Trit) :
    netlist.Holds (netlist.nextState value state) memory contents := by
  have next := h.nextState value
  rwa [frozen.nextContents aligned] at next

theorem Holds.setInput (h : netlist.Holds state memory contents) {name : String} {word : Bits} {next : State}
    (done : state.setInput name word = .ok next) : netlist.Holds next memory contents := by
  intro index found
  have before := h index found
  unfold State.contentsAt at before ⊢
  rwa [State.contents_setInput done]

/-- Settling a memory succeeds only if the nets that it needs carry bits. -/
theorem live_of_settleMemory (aligned : state.Aligned netlist) {marks : Marks}
    (h : netlist.settleMemory state (Marks.initial netlist) memory = .ok marks) :
    ∀ net ∈ netlist.neededBy state memory, netlist.Live state net := by
  intro net needed
  obtain ⟨idle, _, known⟩ := (settlesAll_memory aligned memory).outcome _ _ (Marks.idle_initial netlist state) h
  exact ⟨_, idle.sound.carries (known net needed)⟩

end Netlist

end BankedMemory
