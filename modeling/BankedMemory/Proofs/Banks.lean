import BankedMemory.Memory.Cycle
import BankedMemory.Proofs.Selection
import BankedMemory.Storage.Blueprint

/-!
# One bank bit by bit

A bank has one write port and one read port. Here its rows are given by a function from rows and places to bits, and
a clock cycle is described by what it does to these bits: for any masks, addresses and data, known or not. The bits
that a bank starts with are those of its blueprint.
-/

namespace BankedMemory

open Bits

namespace Memory

variable {memory : Memory} {value : Net → Trit} {port : WritePort} {depth width : Nat} {mask data : Nat → Trit}
  {cell : Nat → Nat → Trit}

/-- The bits of the rows after a write to one row, if any. -/
def written (row? : Option Nat) (mask data : Nat → Trit) (cell : Nat → Nat → Trit) (row place : Nat) : Trit :=
  if row? = some row then (mask place).select (cell row place) (data place) else cell row place

/-- The bits in the register of a read port after a cycle. -/
def latched (enable : Trit) (row? : Option Nat) (held : Nat → Trit) (sample : Nat → Nat → Trit) : Nat → Trit :=
  match enable, row? with
  | .zero, _ => held
  | .one, some row => sample row
  | .one, none => fun _ => .unknown
  | .unknown, _ => fun _ => .unknown

/-- A read port without a register shows the row at its address at once. -/
theorem portOutput_of_hit {value : Net → Trit} {port : ReadPort} {row : Nat}
    (hit : memory.rowOf (port.addr.map value) = some row) (rows : Array Bits) :
    memory.portOutput value rows port none = rows.getD row [] := by
  simp only [portOutput, hit]

theorem portOutput_of_miss {value : Net → Trit} {port : ReadPort}
    (miss : memory.rowOf (port.addr.map value) = none) (rows : Array Bits) :
    memory.portOutput value rows port none = Bits.unknowns port.width := by
  simp only [portOutput, miss]

theorem commitRow_single (f : Nat → Trit) (row : Nat) :
    commitRow (tabulate width f) [⟨row, tabulate width mask, tabulate width data⟩] =
      tabulate width fun place => (mask place).select (f place) (data place) := by
  simp only [commitRow, List.foldl_cons, List.foldl_nil, Written.commit, length_tabulate, zeros_eq_tabulate,
    unknowns_eq_tabulate, zipWith_tabulate, update_tabulate]
  apply tabulate_congr
  intro place _
  cases mask place <;> rfl

theorem written_of_ne {row? : Option Nat} {row : Nat} (other : row? ≠ some row) :
    written row? mask data cell row = cell row := by
  funext place
  exact if_neg other

theorem written_of_zero {row? : Option Nat} (idle : ∀ place < width, mask place = .zero) (row : Nat) {place : Nat}
    (inside : place < width) : written row? mask data cell row place = cell row place := by
  unfold written
  split
  · rw [idle place inside, Trit.select_zero]
  · rfl

/-- A word of rows and zeros falls into these rows and rows of zeros. -/
theorem splitRows_flatten (rows : List Bits) (wide : ∀ row ∈ rows, row.length = width) (count : Nat)
    (fit : rows.length ≤ count) :
    splitRows width count (rows.flatten ++ List.replicate ((count - rows.length) * width) .zero) =
      (List.range count).map fun row => tabulate width fun place => (rows.getD row []).getD place .zero := by
  induction count generalizing rows with
  | zero => rfl
  | succ count ih =>
    rw [List.range_succ_eq_map, List.map_cons, List.map_map]
    unfold splitRows
    cases rows with
    | nil =>
      have rest := ih [] (by simp) (by simp)
      have longer : (count + 1) * width = width + count * width := by
        rw [Nat.add_mul, Nat.one_mul, Nat.add_comm]
      simp only [List.flatten_nil, List.nil_append, List.length_nil, Nat.sub_zero] at rest ⊢
      rw [longer, List.replicate_add, List.take_left' (by simp), List.drop_left' (by simp), rest]
      congr 1
      exact zeros_eq_tabulate width
    | cons row rows =>
      have here : row.length = width := wide row List.mem_cons_self
      have rest := ih rows (fun other member => wide other (List.mem_cons_of_mem row member))
        (Nat.le_of_succ_le_succ fit)
      simp only [List.flatten_cons, List.length_cons, Nat.add_sub_add_right, List.append_assoc]
      rw [List.take_left' here, List.drop_left' here, rest]
      congr 1
      subst here
      exact (tabulate_getD row .zero).symm

variable (masked : port.mask.map value = tabulate width mask)
include masked

/-- What a write port does, for a mask given bit by bit. -/
theorem rowWrite_cases (memory : Memory) (clocked : port.clock.isConst = false) :
    (memory.rowWrite value port = none ∧
      (memory.rowOf (port.addr.map value) = none ∨ ∀ place < width, mask place = .zero)) ∨
    ∃ row, memory.rowOf (port.addr.map value) = some row ∧
      memory.rowWrite value port = some ⟨row, tabulate width mask, port.data.map value⟩ := by
  unfold rowWrite strobe
  rw [clocked, masked]
  cases hit : memory.rowOf (port.addr.map value) with
  | none => exact Or.inl ⟨rfl, Or.inl rfl⟩
  | some row =>
    by_cases idle : (tabulate width mask).isZero = true
    · exact Or.inl ⟨by simp [idle], Or.inr (isZero_tabulate_iff.mp idle)⟩
    · exact Or.inr ⟨row, rfl, by simp [idle]⟩

variable (offered : port.data.map value = tabulate width data)
include offered

theorem commit_rowWrite (memory : Memory) (depth : Nat) (cell : Nat → Nat → Trit) (clocked : port.clock.isConst = false) :
    commit (table depth width cell) (memory.rowWrite value port).toList =
      table depth width (written (memory.rowOf (port.addr.map value)) mask data cell) := by
  apply Array.ext_getElem?
  intro row
  rw [getElem?_commit]
  by_cases inside : row < depth
  · rw [getElem?_table inside, getElem?_table inside, Option.map_some]
    congr 1
    rcases rowWrite_cases masked memory clocked with ⟨no_write, missed | idle⟩ | ⟨target, hit, write⟩
    · rw [no_write, missed, written_of_ne (Option.some_ne_none row).symm]
      rfl
    · rw [no_write]
      exact tabulate_congr fun place inside => (written_of_zero idle row inside).symm
    · rw [write, hit, offered]
      by_cases same : target = row
      · subst same
        simp only [Option.toList_some, decide_true, List.filter_cons_of_pos, List.filter_nil, commitRow_single]
        exact tabulate_congr fun place _ => by simp [written]
      · have other : some target ≠ some row := fun e => same (Option.some.inj e)
        rw [written_of_ne other]
        simp [same, commitRow_nil]
  · rw [getElem?_table_of_le (Nat.le_of_not_lt inside), getElem?_table_of_le (Nat.le_of_not_lt inside)]
    rfl

/-- A port that looks behind a write samples the row as written, and one that looks before it the row as it was. -/
theorem sampled_rowWrite (clocked : port.clock.isConst = false) (seen : Bool) (row : Nat) :
    sampled [memory.rowWrite value port] [if seen then .after else .before] row (tabulate width (cell row)) =
      tabulate width fun place =>
        if seen then written (memory.rowOf (port.addr.map value)) mask data cell row place else cell row place := by
  rcases rowWrite_cases masked memory clocked with ⟨no_write, missed | idle⟩ | ⟨target, hit, write⟩
  · simp [sampled, no_write, missed, written]
  · rw [no_write]
    apply tabulate_congr
    intro place inside
    rw [written_of_zero idle row inside, ite_self]
  · rw [write, hit, offered]
    by_cases same : target = row
    · subst same
      cases seen with
      | false => simp [sampled, observe]
      | true => simp [sampled, observe, update_tabulate, written]
    · simp [sampled, same, written]

/-- A bank whose read port shows its row at once. -/
theorem nextContents_relay (memory : Memory) (depth : Nat) (cell : Nat → Nat → Trit)
    (clocked : port.clock.isConst = false) (writes : memory.writePorts = [port])
    {reader : ReadPort} (reads : memory.readPorts = [reader]) :
    memory.nextContents value ⟨table depth width cell, [none]⟩ =
      ⟨table depth width (written (memory.rowOf (port.addr.map value)) mask data cell), [none]⟩ := by
  have rows := commit_rowWrite masked offered memory depth cell clocked
  unfold nextContents rowWrites
  rw [writes, reads]
  cases hit : memory.rowWrite value port <;> rw [hit] at rows <;>
    simpa [hit] using rows

/-- The register of a bank samples the row before or after the write. -/
theorem nextHeld_replica (memory : Memory) (cell : Nat → Nat → Trit) (clocked : port.clock.isConst = false)
    (writes : memory.writePorts = [port]) (full : memory.depth = depth) (held : Nat → Trit) (addr : Bus) (enable : Net)
    (init : Bits) (seen : Bool) :
    memory.nextHeld value (table depth width cell)
        ⟨addr, width, some ⟨port.clock, .high enable, init, [if seen then .after else .before]⟩⟩
        ⟨port.clock, .high enable, init, [if seen then .after else .before]⟩ (tabulate width held) =
      tabulate width (latched (value enable) (memory.rowOf (addr.map value)) held fun row place =>
        if seen then written (memory.rowOf (port.addr.map value)) mask data cell row place else cell row place) := by
  unfold nextHeld rowWrites
  simp only [clocked, Bool.false_eq_true, if_false, writes, List.map_cons, List.map_nil, Control.high,
    Control.active]
  cases value enable with
  | zero => rfl
  | unknown => exact unknowns_eq_tabulate width
  | one =>
    cases hit : memory.rowOf (addr.map value) with
    | none => exact unknowns_eq_tabulate width
    | some row =>
      have inside : row < depth := full ▸ rowOf_lt hit
      simp only [getD_table inside, sampled_rowWrite masked offered clocked]
      rfl

/-- A bank whose read port has a register. -/
theorem nextContents_replica (memory : Memory) (cell : Nat → Nat → Trit) (clocked : port.clock.isConst = false)
    (writes : memory.writePorts = [port])
    {addr : Bus} {enable : Net} {init : Bits} {seen : Bool} (full : memory.depth = depth) (held : Nat → Trit)
    (reads : memory.readPorts =
      [⟨addr, width, some ⟨port.clock, .high enable, init, [if seen then .after else .before]⟩⟩]) :
    memory.nextContents value ⟨table depth width cell, [some (tabulate width held)]⟩ =
      ⟨table depth width (written (memory.rowOf (port.addr.map value)) mask data cell),
        [some (tabulate width (latched (value enable) (memory.rowOf (addr.map value)) held fun row place =>
          if seen then written (memory.rowOf (port.addr.map value)) mask data cell row place
          else cell row place))]⟩ := by
  have rows := commit_rowWrite masked offered memory depth cell clocked
  have held_next := nextHeld_replica masked offered memory cell clocked writes full held addr enable init seen
  unfold nextContents
  rw [reads]
  simp only [List.zip_cons_cons, List.zip_nil_right, List.map_cons, List.map_nil, held_next]
  unfold rowWrites
  rw [writes]
  cases hit : memory.rowWrite value port <;> rw [hit] at rows <;>
    simpa [hit] using rows

end Memory

namespace Storage.Blueprint

/-- A shape that is not empty, with initial rows that fit. -/
structure Accepted (blueprint : Blueprint) : Prop where
  width_pos : 0 < blueprint.width
  depth_pos : 0 < blueprint.depth
  fit : blueprint.rows.length ≤ blueprint.depth
  wide : ∀ row ∈ blueprint.rows, row.length = blueprint.width

/-- The bit at a place of a row to begin with. -/
def initialBit (blueprint : Blueprint) (row place : Nat) : Trit := (blueprint.rows.getD row []).getD place .zero

variable {blueprint : Blueprint}

theorem accepted_ofShape {width depth : Nat} (h : ofShape width depth = .ok blueprint) : blueprint.Accepted := by
  unfold ofShape at h
  split at h
  · cases h
  · rename_i width_ne
    split at h
    · cases h
    · rename_i depth_ne
      cases h
      exact ⟨Nat.pos_of_ne_zero width_ne, Nat.pos_of_ne_zero depth_ne, Nat.zero_le _, by simp⟩

theorem Accepted.withRows {rows : List Bits} {after : Blueprint} (h : blueprint.Accepted)
    (given : blueprint.withRows rows = .ok after) : after.Accepted := by
  unfold Blueprint.withRows at given
  split at given
  · cases given
  · rename_i few
    cases found : blueprint.misfit? rows with
    | some entry => simp [found] at given
    | none =>
      simp only [found] at given
      cases given
      refine ⟨h.width_pos, h.depth_pos, Nat.le_of_not_lt few, fun row member => ?_⟩
      obtain ⟨index, at_index⟩ := List.mem_iff_getElem?.mp member
      have entry : (row, index) ∈ rows.zipIdx := List.mem_zipIdx_iff_getElem?.mpr at_index
      simpa using List.find?_eq_none.mp found (row, index) entry

theorem Accepted.zeroed (h : blueprint.Accepted) : blueprint.zeroed.Accepted :=
  ⟨h.width_pos, h.depth_pos, Nat.zero_le _, by simp [Blueprint.zeroed]⟩

theorem initialBit_known (known : ∀ row ∈ blueprint.rows, Trit.unknown ∉ row) (row place : Nat) :
    blueprint.initialBit row place ≠ .unknown := by
  have bit_eq : blueprint.initialBit row place = ((blueprint.rows[row]?.getD [])[place]?).getD .zero := by
    simp [initialBit, List.getD_eq_getElem?_getD]
  rw [bit_eq]
  cases given : blueprint.rows[row]? with
  | none => simp
  | some word =>
    cases at_place : word[place]? with
    | none => simp [at_place]
    | some bit =>
      have member := List.mem_of_getElem? at_place
      have known_word := known word (List.mem_of_getElem? given)
      simp only [Option.getD_some, at_place]
      rintro rfl
      exact known_word member

theorem initialBit_zeroed (row place : Nat) : blueprint.zeroed.initialBit row place = .zero := by
  simp [initialBit, Blueprint.zeroed]

/-- The rows cut from the initial word have the initial bits. -/
theorem Accepted.splitRows_initialWord (h : blueprint.Accepted) {init : Bits}
    (word : blueprint.initialWord = .ok init) :
    (Memory.splitRows blueprint.width blueprint.depth init).toArray =
      table blueprint.depth blueprint.width blueprint.initialBit := by
  unfold initialWord Size.mul Bits.filled Positions.filled at word
  split at word
  · simp only [bind, Except.bind] at word
    split at word
    · cases word
    · rename_i rest filled
      split at filled
      · cases filled
        cases word
        exact congrArg List.toArray (Memory.splitRows_flatten blueprint.rows h.wide blueprint.depth h.fit)
      · cases filled
  · cases word

end Storage.Blueprint

end BankedMemory
