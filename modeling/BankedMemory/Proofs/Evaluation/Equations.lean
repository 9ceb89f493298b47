import BankedMemory.Proofs.Evaluation.Queries

/-!
# A netlist as a system of equations

Each cell of a netlist states an equation for its output bits, in terms of the bits on its operands and of what the
state holds: a gate by its table, and a read port by the row whose number its address denotes. A closed netlist
without combinational loops has exactly one solution in every state of a run. Whatever an evaluation is asked for, and
in whatever order, it answers with the bits of the solution, and a clock cycle is taken under these bits, so that all
writes and samples of the cycle happen at once.
-/

namespace BankedMemory

/-- The bits on nets, given those of the slots. -/
def Net.under (bits : Nat → Trit) : Net → Trit
  | .const bit => bit
  | .slot index => bits index

/-- A bit is determined by when it is zero and when it is one. -/
theorem Trit.eq_iff {a b : Trit} : a = b ↔ (a = .zero ↔ b = .zero) ∧ (a = .one ↔ b = .one) := by
  cases a <;> cases b <;> decide

theorem Trit.eq_not_iff {a b : Trit} : b = a.not ↔ (b = .zero ↔ a = .one) ∧ (b = .one ↔ a = .zero) := by
  rw [eq_iff, not_eq_zero_iff, not_eq_one_iff]

/-- The tables of the gates: what they yield for two bits. -/
def Gate.Yields (a b bit : Trit) : Gate → Prop
  | and => (bit = .zero ↔ a = .zero ∨ b = .zero) ∧ (bit = .one ↔ a = .one ∧ b = .one)
  | or => (bit = .zero ↔ a = .zero ∧ b = .zero) ∧ (bit = .one ↔ a = .one ∨ b = .one)
  | xor =>
    (bit = .zero ↔ a = .zero ∧ b = .zero ∨ a = .one ∧ b = .one) ∧
    (bit = .one ↔ a = .zero ∧ b = .one ∨ a = .one ∧ b = .zero)

theorem Gate.yields_iff {kind : Gate} {a b bit : Trit} : kind.Yields a b bit ↔ bit = kind.apply a b := by
  rw [Trit.eq_iff]
  cases kind with
  | and => rw [apply, Trit.and_eq_zero_iff, Trit.and_eq_one_iff, Yields]
  | or => rw [apply, Trit.or_eq_zero_iff, Trit.or_eq_one_iff, Yields]
  | xor => rw [apply, Trit.xor_eq_zero_iff, Trit.xor_eq_one_iff, Yields]

/-- The comparison is zero exactly if one pair of bits surely differs. -/
theorem Bits.same_eq_zero_iff {a b : Bits} : Bits.same a b = .zero ↔ ∃ pair ∈ a.zip b, pair.1.same pair.2 = .zero := by
  unfold Bits.same
  rw [← List.map_uncurry_zip_eq_zipWith, List.foldr_map]
  simp only [Function.uncurry_def]
  induction a.zip b with
  | nil => simp
  | cons pair rest ih => simp only [List.foldr_cons, Trit.and_eq_zero_iff, ih, List.mem_cons, exists_eq_or_imp]

/-- The comparison is one exactly if all bits are known and equal. -/
theorem Bits.same_eq_one_iff {a b : Bits} : Bits.same a b = .one ↔ ∀ pair ∈ a.zip b, pair.1.same pair.2 = .one := by
  unfold Bits.same
  rw [← List.map_uncurry_zip_eq_zipWith, List.foldr_map]
  simp only [Function.uncurry_def]
  induction a.zip b with
  | nil => simp
  | cons pair rest ih => simp only [List.foldr_cons, Trit.and_eq_one_iff, ih, List.mem_cons, forall_eq_or_imp]

/-- The two conditions determine the comparison of the bits that two buses carry. -/
theorem Bits.same_map_eq_iff {a b : Bus} {value : Net → Trit} {bit : Trit} :
    Bits.same (a.map value) (b.map value) = bit ↔
      (bit = .zero ↔ ∃ pair ∈ a.zip b,
        value pair.1 = .zero ∧ value pair.2 = .one ∨ value pair.1 = .one ∧ value pair.2 = .zero) ∧
      (bit = .one ↔ ∀ pair ∈ a.zip b, value pair.1 = value pair.2 ∧ value pair.1 ≠ .unknown) := by
  rw [eq_comm, Trit.eq_iff, Bits.same_eq_zero_iff, Bits.same_eq_one_iff, List.zip_map, List.forall_mem_map]
  simp only [List.mem_map, exists_exists_and_eq_and, Prod.map, Trit.same_eq_zero_iff, Trit.same_eq_one_iff]

namespace Memory

/-- Bit `k` at read port `p`: that of the register, or of the row at the address, or unknown if there is no such
row. -/
def ShowsAt (memory : Memory) (value : Net → Trit) (contents : Contents) (p : Nat) (port : ReadPort) (k : Nat)
    (bit : Trit) : Prop :=
  match port.register with
  | some _ => ∃ word, contents.held[p]? = some (some word) ∧ word[k]? = some bit
  | none =>
    (∀ row, memory.Selects (port.addr.map value) row →
      ∃ word, contents.rows[row]? = some word ∧ word[k]? = some bit) ∧
    ((∀ row, ¬ memory.Selects (port.addr.map value) row) → bit = .unknown)

variable {memory : Memory} {contents : Contents}

theorem getElem?_output (sized : memory.Sized) (aligned : memory.Aligned contents) (full : memory.Full contents)
    (value : Net → Trit) {p k : Nat} {port : ReadPort} (found : memory.readPorts[p]? = some port)
    (inside : k < memory.width) {bit : Trit} :
    (memory.output value contents)[p * memory.width + k]? = some bit ↔ memory.ShowsAt value contents p port k bit := by
  obtain ⟨held, at_held, same⟩ := aligned.held found
  have both : (memory.readPorts.zip contents.held)[p]? = some (port, held) :=
    List.getElem?_zip_eq_some.mpr ⟨found, at_held⟩
  have word : (memory.portWords value contents)[p]? = some (memory.portOutput value contents.rows port held) := by
    rw [portWords, List.getElem?_map, both, Option.map_some]
  rw [output_eq_flatten, getElem?_flatten_of_length (length_portWords sized full value) inside, word, Option.bind_some]
  unfold ShowsAt
  cases registered : port.register with
  | some register =>
    rw [registered] at same
    obtain ⟨word, rfl⟩ := Option.isSome_iff_exists.mp same
    simp [at_held, portOutput]
  | none =>
    rw [registered] at same
    obtain rfl : held = none := by simpa using same
    have countable := sized.countable (Nat.zero_lt_of_lt inside)
    cases hit : memory.rowOf (port.addr.map value) with
    | none =>
      have wide := sized.reads port (List.mem_of_getElem? found)
      have unselected (row : Nat) : ¬ memory.Selects (port.addr.map value) row := by
        rw [← rowOf_eq_some_iff countable, hit]
        exact Option.some_ne_none row ∘ Eq.symm
      simp [portOutput_of_miss hit, Bits.unknowns, wide, inside, eq_comm, unselected]
    | some row =>
      have selected (other : Nat) : memory.Selects (port.addr.map value) other ↔ row = other := by
        rw [← rowOf_eq_some_iff countable, hit, Option.some.injEq]
      obtain ⟨word, at_row, _⟩ := full.rows row (rowOf_lt hit)
      simp [portOutput_of_hit hit, Array.getD_eq_getD_getElem?, at_row, selected]

/-- All read ports show their bits exactly if the output word is made up of them. -/
theorem showsAt_iff_output (sized : memory.Sized) (aligned : memory.Aligned contents) (full : memory.Full contents)
    (value : Net → Trit) {out : Nat → Trit} :
    (∀ (p : Nat) port, memory.readPorts[p]? = some port → ∀ k < memory.width,
      memory.ShowsAt value contents p port k (out (p * memory.width + k))) ↔
    ∀ j < memory.outputWidth, (memory.output value contents)[j]? = some (out j) := by
  rw [outputWidth_eq_mul sized]
  constructor
  · intro each j inside
    have wide : 0 < memory.width := Nat.pos_of_mul_pos_left (Nat.zero_lt_of_lt inside)
    have at_place : j / memory.width < memory.readPorts.length := Nat.div_lt_of_lt_mul (by rwa [Nat.mul_comm])
    have at_port : memory.readPorts[j / memory.width]? = some memory.readPorts[j / memory.width] :=
      List.getElem?_eq_getElem at_place
    have within := Nat.mod_lt j wide
    have bit := (getElem?_output sized aligned full value at_port within).mpr (each _ _ at_port _ within)
    rwa [Nat.div_add_mod'] at bit
  · intro each p port at_port k within
    refine (getElem?_output sized aligned full value at_port within).mp (each _ ?_)
    obtain ⟨at_place, _⟩ := List.getElem?_eq_some_iff.mp at_port
    calc p * memory.width + k < p * memory.width + memory.width := by omega
      _ = (p + 1) * memory.width := (Nat.succ_mul ..).symm
      _ ≤ memory.readPorts.length * memory.width := Nat.mul_le_mul_right _ at_place

end Memory

namespace Cell

/-- The equation of a cell for its output bits. -/
def Equation (value : Net → Trit) (inputs : Table Bits) (contents : Option Contents) (out : Nat → Trit) : Cell → Prop
  | invert a => ∀ (k : Nat) net, a[k]? = some net →
      (out k = .zero ↔ value net = .one) ∧ (out k = .one ↔ value net = .zero)
  | gate kind a b => ∀ (k : Nat) left right, a[k]? = some left → b[k]? = some right →
      kind.Yields (value left) (value right) (out k)
  | equal a b =>
      (out 0 = .zero ↔ ∃ pair ∈ a.zip b,
        value pair.1 = .zero ∧ value pair.2 = .one ∨ value pair.1 = .one ∧ value pair.2 = .zero) ∧
      (out 0 = .one ↔ ∀ pair ∈ a.zip b, value pair.1 = value pair.2 ∧ value pair.1 ≠ .unknown)
  | memory m => ∃ held, contents = some held ∧ ∀ (p : Nat) port, m.readPorts[p]? = some port →
      ∀ k < m.width, m.ShowsAt value held p port k (out (p * m.width + k))
  | input name width => ∃ word, inputs.get? name = some word ∧ ∀ k < width, word[k]? = some (out k)
  | output _ _ => True
  | label _ _ => True

end Cell

/-- The output bits of a cell satisfy its equation exactly if they are those of its output word. -/
theorem State.Fits.equation_iff {netlist : Netlist} {state : State} (fits : state.Fits netlist) {index : Nat} {c : Cell}
    (found : netlist.cell? index = some c) (checked : c.check = .ok ()) {value : Net → Trit} {out : Nat → Trit} :
    c.Equation value state.inputs (state.contentsAt index) out ↔ ∀ k < c.outputWidth,
      (c.outputBits value state.inputs (state.contentsAt index))[k]? = some (out k) := by
  cases c with
  | invert a =>
    refine forall_congr' fun k => ?_
    simp only [← Trit.eq_not_iff]
    by_cases inside : k < a.length
    · simp [Cell.outputWidth, Cell.outputBits, Bits.invert, inside, eq_comm]
    · simp [Cell.outputWidth, inside]
  | gate kind a b =>
    have same : a.length = b.length := Size.agree_eq_ok_iff.mp checked
    refine forall_congr' fun k => ?_
    simp only [Gate.yields_iff]
    by_cases inside : k < a.length
    · have inside' : k < b.length := same ▸ inside
      simp [Cell.outputWidth, Cell.outputBits, inside, inside', eq_comm]
    · simp [Cell.outputWidth, inside]
  | equal a b =>
    simp only [Cell.Equation, ← Bits.same_map_eq_iff]
    simp [Cell.outputWidth, Cell.outputBits]
  | memory m =>
    obtain ⟨contents, held, aligned, full⟩ := fits.memories index m found
    simp only [Cell.Equation, held, Option.some.injEq, ↓existsAndEq, true_and]
    exact Memory.showsAt_iff_output (Memory.sized_of_check checked) aligned full value
  | input name width =>
    obtain ⟨word, held, wide⟩ := fits.inputs index name width found
    simp [Cell.Equation, held, Cell.outputWidth, Cell.outputBits]
  | output name bus => simp [Cell.Equation, Cell.outputWidth]
  | label name bus => simp [Cell.Equation, Cell.outputWidth]

namespace Netlist

variable {netlist : Netlist} {state : State}

/-- The bits of the slots satisfy the equations of all cells. -/
def Solves (netlist : Netlist) (state : State) (bits : Nat → Trit) : Prop :=
  ∀ index c, netlist.cell? index = some c →
    c.Equation (Net.under bits) state.inputs (state.contentsAt index) fun k => bits (index + k)

theorem under_valueIn (aligned : state.Aligned netlist) :
    Net.under (fun slot => netlist.valueIn state (.slot slot)) = netlist.valueIn state := by
  funext net
  cases net with
  | const bit => exact ((Carries.const bit).valueIn_eq aligned).symm
  | slot slot => rfl

/-- All queries, alone or after others in one evaluation, and the next clock cycle go by given bits of the nets. -/
structure GoesBy (netlist : Netlist) (state : State) (value : Net → Trit) : Prop where
  read : ∀ bus, (∀ net ∈ bus, netlist.Driven net) → netlist.read state bus = .ok (bus.map value)
  readAll : ∀ buses, (∀ bus ∈ buses, ∀ net ∈ bus, netlist.Driven net) → ∃ marks,
    netlist.readAll state buses (Marks.initial netlist) = .ok (buses.map (·.map value), marks)
  step : ∃ next, netlist.step state = .ok next ∧ next.inputs = state.inputs ∧
    ∀ index m, netlist.cell? index = some (.memory m) → ∃ contents, state.contentsAt index = some contents ∧
      next.contentsAt index = some (m.nextContents value contents)

section Solution

variable (reached : netlist.Reached) (fits : state.Fits netlist)
include reached fits

/-- Each solution agrees with the bits that nets carry. The induction is on how the bit of a net follows from the
state. -/
theorem Solves.of_carries {bits : Nat → Trit} (solves : netlist.Solves state bits) {net : Net} {bit : Trit}
    (carried : netlist.Carries state net bit) : net.under bits = bit := by
  induction carried with
  | const bit => rfl
  | @cell slot index offset bit value driven carried shown ih =>
    obtain ⟨c, found, rfl, _⟩ := reached.cell_of_driver driven
    have checked := reached.checked found
    have same := outputUnder_congr fits.aligned ih
    rw [← same, outputUnder_of_cell found] at shown
    obtain ⟨inside, _⟩ := List.getElem?_eq_some_iff.mp shown
    rw [fits.length_outputBits found checked] at inside
    have solved := (fits.equation_iff found checked).mp (solves index c found) offset inside
    exact Option.some.inj (solved.symm.trans shown)

variable (closed : netlist.Closed) (acyclic : netlist.Acyclic)
include closed acyclic

theorem solves_valueIn : netlist.Solves state fun slot => netlist.valueIn state (.slot slot) := by
  intro index c found
  rw [under_valueIn fits.aligned, fits.equation_iff found (reached.checked found)]
  intro k inside
  cases (live_output reached closed acyclic fits found inside).carries_valueIn fits.aligned with
  | cell value driven carried shown =>
    cases (reached.driver_output found inside).symm.trans driven
    have agree : ∀ source ∈ netlist.sourcesAt index, value source = netlist.valueIn state source :=
      fun source member => ((carried source member).valueIn_eq fits.aligned).symm
    rwa [outputUnder_congr fits.aligned agree, outputUnder_of_cell found] at shown

theorem goesBy_valueIn : netlist.GoesBy state (netlist.valueIn state) where
  read bus driven := read_of_driven reached closed acyclic fits driven
  readAll buses driven := by
    obtain ⟨marks, done, _⟩ := readAll_of_driven reached closed acyclic fits driven (Marks.idle_initial netlist state)
    exact ⟨marks, done⟩
  step := by
    refine ⟨_, step_of_closed reached closed acyclic fits, rfl, fun index m found => ?_⟩
    obtain ⟨contents, held, _⟩ := fits.memories index m found
    exact ⟨contents, held, contentsAt_nextState _ found held⟩

end Solution

/-- In every state of a run the equations have exactly one solution, and everything goes by it. -/
theorem one_solution (reached : netlist.Reached) (closed : netlist.Closed) (acyclic : netlist.Acyclic)
    (agree : netlist.InputsAgree) {actions : List Action} (run : netlist.performFromStart actions = .ok state) :
    ∃ bits, netlist.Solves state bits ∧ netlist.GoesBy state (Net.under bits) ∧
      ∀ others, netlist.Solves state others →
        ∀ index, ∀ net ∈ netlist.outputOf index, net.under others = net.under bits := by
  have fits := fits_performFromStart agree (fun _ _ => reached.checked) run
  have value_eq := under_valueIn fits.aligned
  have goesBy := goesBy_valueIn reached fits closed acyclic
  rw [← value_eq] at goesBy
  refine ⟨_, solves_valueIn reached fits closed acyclic, goesBy, fun others solves index net member => ?_⟩
  have live := live_of_driven reached closed acyclic fits (Or.inr ⟨index, member⟩)
  rw [solves.of_carries reached fits (live.carries_valueIn fits.aligned), value_eq]

/-- The feedback after a one is stored. -/
def fedBack : State := (feedback.performFromStart (feedbackRun .one)).toOption.getD (.initial feedback)

/-- The register shows the one that is stored, and the exclusive or of it with the input is zero. -/
theorem feedback_one_solution :
    (feedback.Reached ∧ feedback.Closed ∧ feedback.Acyclic ∧ feedback.InputsAgree) ∧
    feedback.performFromStart (feedbackRun .one) = .ok fedBack ∧
    ∃ bits, feedback.Solves fedBack bits ∧ feedback.GoesBy fedBack (Net.under bits) ∧
      (∀ others, feedback.Solves fedBack others →
        ∀ index, ∀ net ∈ feedback.outputOf index, net.under others = net.under bits) ∧
      feedback.read fedBack [.slot 4, .slot 5] = .ok [.one, .zero] ∧ bits 4 = .one ∧ bits 5 = .zero := by
  have performed : feedback.performFromStart (feedbackRun .one) = .ok fedBack :=
    eq_ok_of_isOk (by decide +kernel) (State.initial feedback)
  obtain ⟨bits, solves, goesBy, unique⟩ :=
    one_solution reached_feedback closed_feedback acyclic_feedback inputsAgree_feedback performed
  have driven : ∀ net ∈ [Net.slot 4, .slot 5], feedback.Driven net := by
    rintro net (_ | ⟨_, _ | ⟨_, ⟨⟩⟩⟩)
    · exact .inr ⟨4, by decide +kernel⟩
    · exact .inr ⟨5, by decide +kernel⟩
  have read : feedback.read fedBack [.slot 4, .slot 5] = .ok [.one, .zero] := by decide +kernel
  obtain ⟨four, rest⟩ := List.cons.inj (Except.ok.inj ((goesBy.read _ driven).symm.trans read))
  exact ⟨⟨reached_feedback, closed_feedback, acyclic_feedback, inputsAgree_feedback⟩, performed, bits, solves,
    goesBy, unique, read, four, (List.cons.inj rest).1⟩

end Netlist

end BankedMemory
