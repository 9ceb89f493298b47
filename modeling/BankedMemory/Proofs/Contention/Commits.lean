import BankedMemory.Proofs.Construction.Revisions
import BankedMemory.Proofs.Contention.Reordering

/-!
# What a cycle commits

Each bit of each row is decided by the ports that write it or may write it, in whatever order they are listed. Without
such a port the bit stays. A single port that is sure to write puts its data bit there; one that may write leaves the
bit known only if the data bit agrees with it. Where several ports meet, the bit becomes unknown.
-/

namespace BankedMemory

namespace WritePort

/-- The bit of the mask at a place. -/
def maskBit (port : WritePort) (value : Net → Trit) (place : Nat) : Trit := Bits.bitAt (port.mask.map value) place

/-- The bit of the data at a place. -/
def dataBit (port : WritePort) (value : Net → Trit) (place : Nat) : Trit := Bits.bitAt (port.data.map value) place

/-- What a port that is clocked and addresses a row offers at a place of it. -/
def bitOffer (port : WritePort) (value : Net → Trit) (place : Nat) : BitOffer :=
  ⟨port.maskBit value place, port.dataBit value place⟩

end WritePort

namespace Memory

variable {memory : Memory} {value : Net → Trit} {row place : Nat} {port : WritePort}

/-- Whether a port writes a bit of a row, or may write it: it is clocked, its address selects the row, and the mask does
not rule the bit out. -/
def WritesBit (memory : Memory) (value : Net → Trit) (row place : Nat) (port : WritePort) : Prop :=
  port.clock.isConst = false ∧ memory.Selects (port.addr.map value) row ∧ port.maskBit value place ≠ .zero

instance (port : WritePort) : Decidable (memory.WritesBit value row place port) := by
  unfold WritesBit
  infer_instance

/-- The ports that write a bit of a row, or may write it. -/
def writersOf (memory : Memory) (value : Net → Trit) (row place : Nat) : List WritePort :=
  memory.writePorts.filter (memory.WritesBit value row place)

/-- The bit at a place of a row. -/
def bitOf (rows : Array Bits) (row place : Nat) : Trit := (rows.getD row []).bitAt place

/-- What becomes of a bit in a cycle. -/
structure CommitsBit (memory : Memory) (value : Net → Trit) (row place : Nat) (old new : Trit) : Prop where
  untouched : memory.writersOf value row place = [] → new = old
  certain : ∀ port, memory.writersOf value row place = [port] → port.maskBit value place = .one →
    new = port.dataBit value place
  doubtful : ∀ port, memory.writersOf value row place = [port] → port.maskBit value place = .unknown →
    new = if old = port.dataBit value place then old else .unknown
  contested : 2 ≤ (memory.writersOf value row place).length → new = .unknown

/-- What becomes of all rows in a cycle. -/
structure Commits (memory : Memory) (value : Net → Trit) (before after : Array Bits) : Prop where
  full_before : memory.FullRows before
  full_after : memory.FullRows after
  bits : ∀ row < memory.depth, ∀ place < memory.width,
    memory.CommitsBit value row place (bitOf before row place) (bitOf after row place)
  stays : ∀ row : Nat, (∀ place < memory.width, memory.writersOf value row place = []) → after[row]? = before[row]?

theorem mem_writersOf : port ∈ memory.writersOf value row place ↔
    port ∈ memory.writePorts ∧ memory.WritesBit value row place port := by
  rw [writersOf, List.mem_filter, decide_eq_true_iff]

section Offers

variable (sized : memory.Sized) (inside : place < memory.width)
include sized inside

/-- The row that is found at an address of a memory with a place is the one that the address selects. -/
theorem rowOf_eq_some_iff_at {addr : Bits} : memory.rowOf addr = some row ↔ memory.Selects addr row :=
  rowOf_eq_some_iff (sized.countable (Nat.zero_lt_of_lt inside))

/-- A port offers its bits at a place that it writes. -/
theorem WritesBit.bitOffer_offer (writes : memory.WritesBit value row place port) :
    (memory.offer value row port).bitOffer place = port.bitOffer value place := by
  unfold offer
  rw [if_pos ⟨writes.1, (rowOf_eq_some_iff_at sized inside).mpr writes.2.1⟩]
  rfl

/-- The active offers are those of the ports that write the bit. -/
theorem active_bitOffer_offer :
    ((memory.offer value row port).bitOffer place).active = true ↔ memory.WritesBit value row place port := by
  unfold BitOffer.active RowWrite.bitOffer offer WritesBit
  dsimp only
  rw [decide_eq_true_iff, ← rowOf_eq_some_iff_at sized inside]
  split
  · rename_i addressed
    rw [← and_assoc, and_iff_right addressed]
    rfl
  · rename_i elsewhere
    rw [Bits.bitAt_zeros inside]
    constructor
    · intro other
      exact absurd rfl other
    · rintro ⟨clocked, hit, _⟩
      exact absurd ⟨clocked, hit⟩ elsewhere

theorem active_offers :
    ((memory.writePorts.map (memory.offer value row)).map (·.bitOffer place)).filter BitOffer.active =
      (memory.writersOf value row place).map (·.bitOffer value place) := by
  rw [List.map_map, List.filter_map, writersOf]
  have same : memory.writePorts.filter (BitOffer.active ∘ (·.bitOffer place) ∘ memory.offer value row) =
      memory.writePorts.filter (memory.WritesBit value row place) := by
    refine List.filter_congr fun port _ => ?_
    rw [Bool.eq_iff_iff, decide_eq_true_iff]
    exact active_bitOffer_offer sized inside
  rw [same]
  exact List.map_congr_left fun port member => (mem_writersOf.mp member).2.bitOffer_offer sized inside

end Offers

/-- Contending for a bit follows the law of a cycle. -/
theorem commitsBit_contend (old : Trit) : memory.CommitsBit value row place old
    (Trit.contend old ((memory.writersOf value row place).map (·.bitOffer value place))) where
  untouched none := by rw [none]; rfl
  certain port alone sure := by rw [alone, List.map_singleton, Trit.contend, WritePort.bitOffer, sure]; rfl
  doubtful port alone unsure := by rw [alone, List.map_singleton, Trit.contend, WritePort.bitOffer, unsure]; rfl
  contested several := Trit.contend_of_two (by rwa [List.length_map])

/-- The law leaves no choice: it determines what becomes of a bit. -/
theorem CommitsBit.unique {old new new' : Trit} (h : memory.CommitsBit value row place old new)
    (h' : memory.CommitsBit value row place old new') : new = new' := by
  match writers : memory.writersOf value row place with
  | [] => rw [h.untouched writers, h'.untouched writers]
  | [port] =>
    have member : port ∈ memory.writersOf value row place := by rw [writers]; exact List.mem_singleton_self port
    obtain ⟨_, _, _, active⟩ := mem_writersOf.mp member
    cases bit : port.maskBit value place with
    | zero => exact absurd bit active
    | one => rw [h.certain port writers bit, h'.certain port writers bit]
    | unknown => rw [h.doubtful port writers bit, h'.doubtful port writers bit]
  | _ :: _ :: _ =>
    have several : 2 ≤ (memory.writersOf value row place).length := by rw [writers]; simp
    rw [h.contested several, h'.contested several]

theorem FullRows.bitOf_next {rows : Array Bits} (full : memory.FullRows rows) (sized : memory.Sized)
    (inside : row < memory.depth) (within : place < memory.width) :
    bitOf (memory.nextRows value rows) row place = Trit.contend (bitOf rows row place)
      (((memory.writePorts.map (memory.offer value row)).map (·.bitOffer place)).filter BitOffer.active) := by
  unfold bitOf
  rw [full.getD_next sized value inside]
  exact bitAt_commitRow (full.getD inside) (sized.fits_offers value row) within

theorem FullRows.commitsBit {rows : Array Bits} (full : memory.FullRows rows) (sized : memory.Sized)
    (inside : row < memory.depth) (within : place < memory.width) :
    memory.CommitsBit value row place (bitOf rows row place) (bitOf (memory.nextRows value rows) row place) := by
  rw [full.bitOf_next sized inside within, active_offers sized within]
  exact commitsBit_contend _

/-- A cycle follows the law on all bits of all rows. -/
theorem FullRows.commits {rows : Array Bits} (full : memory.FullRows rows) (sized : memory.Sized) :
    memory.Commits value rows (memory.nextRows value rows) where
  full_before := full
  full_after := full.next sized value
  bits _ inside _ within := full.commitsBit sized inside within
  stays row none := by
    by_cases inside : row < memory.depth
    · obtain ⟨word, found, wide⟩ := full row inside
      obtain ⟨word', found', wide'⟩ := full.next sized value row inside
      rw [found, found', Bits.eq_of_bitAt (wide'.trans wide.symm) fun place within => ?_]
      rw [wide'] at within
      have law : memory.CommitsBit value row place _ _ := full.commitsBit sized inside within
      simpa [bitOf, Array.getD_eq_getD_getElem?, found, found'] using law.untouched (none place within)
    · rw [nextRows, getElem?_commit, no_writes_outside value (Nat.le_of_not_lt inside)]
      simp [commitRow_nil]

end Memory

namespace Netlist

variable {netlist : Netlist} {state next : State} {actions : List Action}

theorem Reached.checkedMemory (reached : netlist.Reached) {index : Nat} {memory : Memory}
    (found : netlist.cell? index = some (.memory memory)) : memory.Checked :=
  Memory.check_eq_ok_iff.mp (reached.checked found)

theorem aligned_performFromStart (run : netlist.performFromStart actions = .ok state) : state.Aligned netlist :=
  (performFromStart_keeps (P := fun _ => True) trivial (fun _ _ _ _ _ _ => trivial) (fun _ _ _ => trivial) run).1

/-- In every state of a run a memory holds all its rows. -/
theorem full_performFromStart (reached : netlist.Reached) (run : netlist.performFromStart actions = .ok state)
    {index : Nat} {memory : Memory} (found : netlist.cell? index = some (.memory memory)) :
    ∃ contents, state.contentsAt index = some contents ∧ memory.FullRows contents.rows := by
  obtain ⟨rows, stores, full⟩ := stores_performFromStart run memory.unread
  obtain ⟨contents, held, rfl⟩ := stores index memory found rfl
  exact ⟨contents, held, full (reached.checkedMemory found).unread⟩

/-- Each cycle of a run commits in every memory what its write ports write, and does so in any order of the ports. -/
theorem step_commits (reached : netlist.Reached) (run : netlist.performFromStart actions = .ok state)
    (done : netlist.step state = .ok next) :
    (∀ index memory, netlist.cell? index = some (.memory memory) →
      ∃ before after, state.contentsAt index = some before ∧ next.contentsAt index = some after ∧
        memory.Commits (netlist.valueIn state) before.rows after.rows) ∧
    ∀ other, netlist.Reordered other → ∃ next', other.step state = .ok next' ∧
      ∀ index, (next'.contentsAt index).map Contents.rows = (next.contentsAt index).map Contents.rows := by
  have aligned := aligned_performFromStart run
  refine ⟨fun index memory found => ?_, fun other reordered => ?_⟩
  · obtain ⟨before, held, full⟩ := full_performFromStart reached run found
    refine ⟨before, memory.nextContents (netlist.valueIn state) before, held, ?_, ?_⟩
    · rw [step_eq aligned done]
      exact contentsAt_nextState _ found held
    · exact full.commits (reached.checkedMemory found).sized
  · refine reordered.step aligned done (fun index memory found => (reached.checkedMemory found).sized) ?_
    intro index memory contents found held
    obtain ⟨contents', held', full⟩ := full_performFromStart reached run found
    rw [Option.some.inj (held.symm.trans held')]
    exact full

/-- A memory with nothing but its clock beside it. -/
def aloneRevisions (memory : Memory) : List Revision :=
  [.edit (.add (.input "clock" 1)), .edit (.add (.memory memory)), .apply]

def alone (memory : Memory) : Netlist := (Netlist.empty.reviseAll (aloneRevisions memory)).toOption.getD .empty

/-- The state after the first cycle. -/
def afterCycle (netlist : Netlist) : State := (netlist.step (.initial netlist)).toOption.getD (.initial netlist)

theorem step_eq_afterCycle (succeeds : (netlist.step (.initial netlist)).isOk = true) :
    netlist.step (.initial netlist) = .ok netlist.afterCycle := eq_ok_of_isOk succeeds _

/-- Two ports that write to row 0: the first of them is sure to write to places 0 and 3 and may write to places 1 and 4,
and the second one is sure to write to place 3. -/
def sharingPorts : List WritePort :=
  [⟨[.zero], [.one, .one, .zero, .one, .one], [.one, .const .unknown, .zero, .one, .const .unknown], .high (.slot 0)⟩,
    ⟨[.zero], [.zero, .zero, .zero, .one, .zero], [.zero, .zero, .zero, .one, .zero], .high (.slot 0)⟩]

/-- Two rows of known bits, and a port that reads them. -/
def sharedMemory (writePorts : List WritePort) : Memory where
  depth := 2
  width := 5
  init := [.zero, .zero, .one, .zero, .one] ++ Bits.ones 5
  attributes := []
  writePorts
  readPorts := [⟨[.zero], 5, none⟩]

def shared : Netlist := alone (sharedMemory sharingPorts)

theorem reordered_shared : shared.Reordered (alone (sharedMemory sharingPorts.reverse)) := by
  have slots : shared.slots = #[.cell (.input "clock" 1), .cell (.memory (sharedMemory sharingPorts)),
      .continuation 1, .continuation 1, .continuation 1, .continuation 1] := by decide +kernel
  have slots' : (alone (sharedMemory sharingPorts.reverse)).slots = #[.cell (.input "clock" 1),
      .cell (.memory (sharedMemory sharingPorts.reverse)),
      .continuation 1, .continuation 1, .continuation 1, .continuation 1] := by decide +kernel
  intro index
  rw [slots, slots']
  match index with
  | 1 => exact .some (.memory ⟨rfl, rfl, (List.reverse_perm sharingPorts).symm, rfl⟩)
  | 0 | 2 | 3 | 4 | 5 => exact .some (.same _)
  | _ + 6 => exact .none

/-- Of the known bits of row 0, the first becomes what is written there, the second and the fourth become unknown, the
third is not written, and the fifth agrees with what may be written. Row 1 stays, and the order of the ports does not
matter. -/
theorem shared_commit : shared.Reached ∧ shared.performFromStart [] = .ok (.initial shared) ∧
    shared.step (.initial shared) = .ok shared.afterCycle ∧
    shared.cell? 1 = some (.memory (sharedMemory sharingPorts)) ∧
    (∃ before after, (State.initial shared).contentsAt 1 = some before ∧ shared.afterCycle.contentsAt 1 = some after ∧
      (sharedMemory sharingPorts).Commits (shared.valueIn (.initial shared)) before.rows after.rows ∧
      before.rows = #[[.zero, .zero, .one, .zero, .one], Bits.ones 5] ∧
      after.rows = #[[.one, .unknown, .one, .unknown, .one], Bits.ones 5]) ∧
    ∃ next, (alone (sharedMemory sharingPorts.reverse)).step (.initial shared) = .ok next ∧
      ∀ index, (next.contentsAt index).map Contents.rows = (shared.afterCycle.contentsAt index).map Contents.rows := by
  have reached : shared.Reached := ⟨aloneRevisions (sharedMemory sharingPorts), eq_ok_of_isOk (by decide +kernel) .empty⟩
  have started : shared.performFromStart [] = .ok (.initial shared) := by decide +kernel
  have done : shared.step (.initial shared) = .ok shared.afterCycle := step_eq_afterCycle (by decide +kernel)
  have found : shared.cell? 1 = some (.memory (sharedMemory sharingPorts)) := by decide +kernel
  have rows : (State.initial shared).contentsAt 1 =
      some ⟨#[[.zero, .zero, .one, .zero, .one], Bits.ones 5], [none]⟩ := by decide +kernel
  have rows' : shared.afterCycle.contentsAt 1 =
      some ⟨#[[.one, .unknown, .one, .unknown, .one], Bits.ones 5], [none]⟩ := by decide +kernel
  obtain ⟨law, others⟩ := step_commits reached started done
  obtain ⟨before, after, held, held', commits⟩ := law 1 _ found
  refine ⟨reached, started, done, found, ⟨before, after, held, held', commits, ?_, ?_⟩, others _ reordered_shared⟩
  · rw [Option.some.inj (held.symm.trans rows)]
  · rw [Option.some.inj (held'.symm.trans rows')]

end Netlist

end BankedMemory
