import BankedMemory.Memory.Contents

/-!
# A clock cycle of a memory

Writes are committed port by port. A bit that more than one port writes becomes unknown, and so does one whose
mask bit is unknown, unless the data agrees with the row. A register samples the row as it was before the cycle,
and looks at each write to it in the way it is set up for that write port.
-/

namespace BankedMemory

/-- A write to one row. -/
structure RowWrite where
  row : Nat
  mask : Bits
  data : Bits
deriving DecidableEq

namespace Memory

/-- The row and mask of a write, if it has any effect. -/
def strobe (memory : Memory) (value : Net → Trit) (port : WritePort) : Option (Nat × Bits) :=
  let mask := port.mask.map value
  match memory.rowOf (port.addr.map value) with
  | some row => if Bits.isZero mask then none else some (row, mask)
  | none => none

/-- What a write port does in a cycle. -/
def rowWrite (memory : Memory) (value : Net → Trit) (port : WritePort) : Option RowWrite :=
  if port.clock.isConst then none
  else (memory.strobe value port).map fun strobe => ⟨strobe.1, strobe.2, port.data.map value⟩

/-- What all write ports do in a cycle, in their order. -/
def rowWrites (memory : Memory) (value : Net → Trit) : List (Option RowWrite) :=
  memory.writePorts.map (memory.rowWrite value)

/-- How a write to the row being read shows in the word that a register samples. -/
def observe (word : Bits) (visibility : Visibility) (write : RowWrite) : Bits :=
  match visibility with
  | .after => word.update write.mask write.data
  | .before => word
  | .undefined => word.update write.mask (Bits.unknowns word.length)

/-- The word that a register samples from a row. -/
def sampled (writes : List (Option RowWrite)) (visibility : List Visibility) (row : Nat) (word : Bits) : Bits :=
  (writes.zip visibility).foldl (fun word entry =>
    match entry.1 with
    | some write => if write.row = row then observe word entry.2 write else word
    | none => word) word

/-- What the register of a read port holds after a cycle. -/
def nextHeld (memory : Memory) (value : Net → Trit) (rows : Array Bits) (port : ReadPort) (register : Register)
    (held : Bits) : Bits :=
  if register.clock.isConst then held
  else match register.enable.active (value register.enable.net) with
    | .zero => held
    | .unknown => Bits.unknowns port.width
    | .one =>
      match memory.rowOf (port.addr.map value) with
      | none => Bits.unknowns port.width
      | some row => sampled (memory.rowWrites value) register.visibility row (rows.getD row [])

/-- A row with the bits of it that have been written so far in a cycle. -/
structure Written where
  word : Bits
  mask : Bits

/-- Commits one write to a row. -/
def Written.commit (written : Written) (write : RowWrite) : Written :=
  let collision := List.zipWith Trit.and written.mask write.mask
  ⟨(written.word.update write.mask write.data).update collision (Bits.unknowns written.word.length),
    List.zipWith Trit.or written.mask write.mask⟩

/-- A row after all writes to it in a cycle. -/
def commitRow (word : Bits) (writes : List RowWrite) : Bits :=
  (writes.foldl Written.commit ⟨word, Bits.zeros word.length⟩).word

/-- The rows after all writes of a cycle. Each row that is written takes all writes to it at once. -/
def commit (rows : Array Bits) (writes : List RowWrite) : Array Bits :=
  Positions.modifyAll (fun row word => commitRow word (writes.filter (·.row = row))) rows
    (writes.map RowWrite.row).eraseDups

/-- The contents of a memory after a cycle. -/
def nextContents (memory : Memory) (value : Net → Trit) (contents : Contents) : Contents :=
  let held := (memory.readPorts.zip contents.held).map fun entry =>
    match entry.1.register, entry.2 with
    | some register, some held => some (memory.nextHeld value contents.rows entry.1 register held)
    | _, held => held
  ⟨commit contents.rows ((memory.rowWrites value).filterMap id), held⟩

theorem commitRow_nil (word : Bits) : commitRow word [] = word := rfl

/-- Each row takes the writes to it, in their order. -/
theorem getElem?_commit (rows : Array Bits) (writes : List RowWrite) (row : Nat) :
    (commit rows writes)[row]? = rows[row]?.map fun word => commitRow word (writes.filter (·.row = row)) := by
  unfold commit
  rw [Positions.getElem?_modifyAll _ _ (Positions.nodup_eraseDups _)]
  split
  · rfl
  · rename_i untouched
    have none : writes.filter (·.row = row) = [] := by
      rw [List.filter_eq_nil_iff]
      intro write member same
      apply untouched
      rw [List.mem_eraseDups]
      exact List.mem_map.mpr ⟨write, member, by simpa using same⟩
    simp [none, commitRow_nil]

end Memory

end BankedMemory
