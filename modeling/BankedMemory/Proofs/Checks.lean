import BankedMemory.Proofs.Evaluation.Widths

/-!
# What the check of a cell says

A cell that passes its check has operands of matching widths, and each initial word of a memory has the width of its
place. The check looks at widths and at which clocks are equal, so it is passed again after any exchange of operands.
-/

namespace BankedMemory

/-- A check followed by something else. -/
theorem check_bind_eq_ok_iff {α ε : Type} {check : Except ε Unit} {rest : Unit → Except ε α} {result : α} :
    (check >>= rest) = .ok result ↔ check = .ok () ∧ rest () = .ok result := by
  cases check <;> simp [bind, Except.bind]

theorem forM_eq_ok_iff {α ε : Type} {f : α → Except ε Unit} {l : List α} :
    l.forM f = .ok () ↔ ∀ x ∈ l, f x = .ok () := by
  refine ⟨Storage.Build.forM_eq_ok, fun each => ?_⟩
  induction l with
  | nil => rfl
  | cons x rest ih =>
    have later := ih fun other member => each other (List.mem_cons_of_mem x member)
    exact check_bind_eq_ok_iff.mpr ⟨each x List.mem_cons_self, later⟩

theorem Size.mul_eq_ok_iff {a b product : Nat} : Size.mul a b = .ok product ↔ a * b < Size.bound ∧ product = a * b := by
  unfold Size.mul
  by_cases fits : a * b < Size.bound <;> simp [fits, eq_comm]

namespace Memory

variable {memory : Memory} {port : ReadPort} {register : Register}

/-- What the check of a register of a read port looks at: its widths, and the clocks of the write ports that it looks
before or behind. -/
structure RegisterFits (memory : Memory) (port : ReadPort) (register : Register) : Prop where
  init : register.init.length = port.width
  visibility : register.visibility.length = memory.writePorts.length
  clocks : ∀ pair ∈ register.visibility.zip memory.writePorts, pair.1 ≠ .undefined → pair.2.clock = register.clock

/-- What the check of a memory looks at. -/
structure Checked (memory : Memory) : Prop where
  bounded : memory.depth * memory.width < Size.bound
  init : memory.init.length = memory.depth * memory.width
  writes : ∀ port ∈ memory.writePorts, port.data.length = memory.width ∧ port.mask.length = memory.width
  reads : ∀ port ∈ memory.readPorts, port.width = memory.width
  registers : ∀ port ∈ memory.readPorts, ∀ register, port.register = some register →
    memory.RegisterFits port register
  output : memory.outputWidth < Size.bound

theorem checkClock_eq_ok_iff {visibility : Visibility} {writer : WritePort} :
    checkClock register visibility writer = .ok () ↔ (visibility ≠ .undefined → writer.clock = register.clock) := by
  unfold checkClock
  by_cases known : visibility = .undefined <;> by_cases same : writer.clock = register.clock <;> simp [known, same]

theorem checkReadPort_eq_ok_iff : memory.checkReadPort port = .ok () ↔ port.width = memory.width ∧
    ∀ register, port.register = some register → memory.RegisterFits port register := by
  unfold checkReadPort
  rw [check_bind_eq_ok_iff, Size.agree_eq_ok_iff]
  refine and_congr_right fun _ => ?_
  cases port.register with
  | none => simp [pure, Except.pure]
  | some register =>
    simp only [check_bind_eq_ok_iff, Size.agree_eq_ok_iff, forM_eq_ok_iff, checkClock_eq_ok_iff, Option.some.injEq,
      forall_eq']
    exact ⟨fun ⟨init, seen, clocks⟩ => ⟨init, seen, clocks⟩, fun fits => ⟨fits.init, fits.visibility, fits.clocks⟩⟩

theorem check_eq_ok_iff : memory.check = .ok () ↔ memory.Checked := by
  have writer (port : WritePort) : memory.checkWritePort port = .ok () ↔
      port.data.length = memory.width ∧ port.mask.length = memory.width := by
    unfold checkWritePort
    rw [check_bind_eq_ok_iff, Size.agree_eq_ok_iff, Size.agree_eq_ok_iff]
  have output : memory.checkOutput = .ok () ↔ memory.outputWidth < Size.bound := by
    unfold checkOutput
    by_cases fits : memory.outputWidth < Size.bound <;> simp [fits]
  unfold check
  rw [Storage.Build.except_bind_eq_ok]
  simp only [Size.mul_eq_ok_iff, check_bind_eq_ok_iff, Size.agree_eq_ok_iff, forM_eq_ok_iff, writer,
    checkReadPort_eq_ok_iff, output]
  constructor
  · rintro ⟨_, ⟨bounded, rfl⟩, init, writes, reads, output⟩
    exact ⟨bounded, init, writes, fun port member => (reads port member).1,
      fun port member => (reads port member).2, output⟩
  · intro checked
    exact ⟨_, ⟨checked.bounded, rfl⟩, checked.init, checked.writes,
      fun port member => ⟨checked.reads port member, checked.registers port member⟩, checked.output⟩

theorem Checked.map (checked : memory.Checked) (f : Net → Net) : (memory.map f).Checked where
  bounded := checked.bounded
  init := checked.init
  writes target member := by
    obtain ⟨port, at_port, rfl⟩ := List.mem_map.mp member
    simpa [WritePort.map, Memory.map] using checked.writes port at_port
  reads target member := by
    obtain ⟨port, at_port, rfl⟩ := List.mem_map.mp member
    exact checked.reads port at_port
  registers target member register registered := by
    obtain ⟨port, at_port, rfl⟩ := List.mem_map.mp member
    obtain ⟨original, at_original, rfl⟩ := Option.map_eq_some_iff.mp registered
    have fits := checked.registers port at_port original at_original
    refine ⟨fits.init, by simpa [Memory.map, Register.map] using fits.visibility, fun pair at_pair known => ?_⟩
    -- the clocks of both ports are exchanged alike
    obtain ⟨⟨seen, writer⟩, at_place, rfl⟩ : ∃ entry ∈ original.visibility.zip memory.writePorts,
        Prod.map id (WritePort.map f) entry = pair := by
      have zipped : (original.map f).visibility.zip (memory.map f).writePorts =
          (original.visibility.zip memory.writePorts).map (Prod.map id (WritePort.map f)) := List.zip_map_right ..
      rw [zipped] at at_pair
      exact List.mem_map.mp at_pair
    exact congrArg (Control.map f) (fits.clocks _ at_place known)
  output := by
    have same : (memory.map f).outputWidth = memory.outputWidth := Cell.outputWidth_map f (.memory memory)
    rw [same]
    exact checked.output

theorem Checked.sized (checked : memory.Checked) : memory.Sized :=
  ⟨checked.bounded, fun port member => (checked.writes port member).symm, checked.reads⟩

theorem sized_of_check (checked : memory.check = .ok ()) : memory.Sized := (check_eq_ok_iff.mp checked).sized

/-- Rows follow one another in the word that they are cut from. -/
theorem getElem?_splitRows {width count : Nat} {word : Bits} {row : Nat} (inside : row < count) :
    (splitRows width count word)[row]? = some ((word.drop (row * width)).take width) := by
  induction count generalizing word row with
  | zero => omega
  | succ count ih =>
    unfold splitRows
    cases row with
    | zero => simp
    | succ row =>
      rw [List.getElem?_cons_succ, ih (Nat.lt_of_succ_lt_succ inside), List.drop_drop, Nat.succ_mul, Nat.add_comm]

theorem exists_splitRow {width count : Nat} {word : Bits} (wide : word.length = count * width) {row : Nat}
    (inside : row < count) : ∃ bits, (splitRows width count word)[row]? = some bits ∧ bits.length = width := by
  have stop : (row + 1) * width ≤ count * width := Nat.mul_le_mul_right width inside
  refine ⟨_, getElem?_splitRows inside, ?_⟩
  rw [List.length_take, List.length_drop, wide]
  rw [Nat.succ_mul] at stop
  omega

/-- A memory starts out with all its rows, and with a word in each register. -/
theorem Checked.full_initialContents (checked : memory.Checked) : memory.Full memory.initialContents where
  rows row inside := by
    obtain ⟨bits, found, wide⟩ := exists_splitRow checked.init inside
    exact ⟨bits, by simpa [initialContents, initialRows] using found, wide⟩
  held word member := by
    obtain ⟨port, at_port, held⟩ := List.mem_map.mp member
    obtain ⟨register, registered, rfl⟩ := Option.map_eq_some_iff.mp held
    exact (checked.registers port at_port register registered).init.trans (checked.reads port at_port)

end Memory

/-- The check is passed again after any exchange of operands. -/
theorem Cell.check_map (f : Net → Net) {c : Cell} (checked : c.check = .ok ()) : (c.map f).check = .ok () := by
  cases c with
  | memory m => exact Memory.check_eq_ok_iff.mpr ((Memory.check_eq_ok_iff.mp checked).map f)
  | gate kind a b => simpa [Cell.map, Cell.check] using checked
  | equal a b => simpa [Cell.map, Cell.check] using checked
  | invert a => rfl
  | input name width => rfl
  | output name bus => rfl
  | label name bus => rfl

end BankedMemory
