import BankedMemory.Proofs.Census.Replicas

/-!
# Rows and their addresses

A memory starts out with the rows of its blueprint: side by side in one word, and cut from it again row by row. A row is
selected by its number, written as a word, and by no other word of the width of an address. Here it is said for which
shapes the initial word can be formed at all, where each row stands in it, and what each address selects.
-/

namespace BankedMemory

/-- An address can number all rows exactly if it is as wide as an address should be. -/
theorem Size.forall_lt_two_pow_iff {count width : Nat} :
    (∀ index < count, index < 2 ^ width) ↔ addressWidth count ≤ width := by
  rw [addressWidth_le_iff]
  constructor
  · intro each
    by_contra more
    exact Nat.lt_irrefl _ (each (2 ^ width) (Nat.not_le.mp more))
  · intro enough index inside
    exact Nat.lt_of_lt_of_le inside enough

namespace Memory

variable {memory : Memory} {row : Nat}

/-- What the words of one width select in a memory: each row is selected by its number, which is a word of this width,
and all other words select nothing. -/
structure Addressed (memory : Memory) (width : Nat) : Prop where
  least : ∀ other, (∀ row < memory.depth, row < 2 ^ other) ↔ width ≤ other
  selects : ∀ row < memory.depth, ∃ addr, Bits.encode row width = .ok addr ∧ addr.length = width ∧
    ∀ other, memory.rowOf addr = some other ↔ other = row
  distinct : ∀ row < memory.depth, ∀ other < memory.depth,
    Bits.encode row width = Bits.encode other width → row = other
  misses : ∀ addr, addr.length = width → (memory.rowOf addr = none ↔
    .unknown ∈ addr ∨ ∃ number, addr.toNat? = some number ∧ memory.depth ≤ number)

theorem addressed (countable : memory.depth ≤ Size.bound) : memory.Addressed (Size.addressWidth memory.depth) := by
  have narrow : Size.addressWidth memory.depth ≤ 64 := Size.addressWidth_le countable
  have numbered {row : Nat} (inside : row < memory.depth) : row < 2 ^ Size.addressWidth memory.depth :=
    Size.forall_lt_two_pow_iff.mpr (Nat.le_refl _) row inside
  have small {row : Nat} (inside : row < memory.depth) : row < 2 ^ Bits.numberWidth :=
    Nat.lt_of_lt_of_le (numbered inside) (Nat.pow_le_pow_right (by decide) (Nat.le_trans narrow (by decide)))
  have selects {row : Nat} (inside : row < memory.depth) : ∃ addr,
      Bits.encode row (Size.addressWidth memory.depth) = .ok addr ∧
        addr.length = Size.addressWidth memory.depth ∧ ∀ other, memory.rowOf addr = some other ↔ other = row := by
    refine ⟨_, (Bits.encode_eq_ok_iff (small inside)).mpr ⟨numbered inside, Nat.le_trans narrow (by decide), rfl⟩,
      Bits.length_ofNat _ _, fun other => ?_⟩
    have selected : memory.Selects (Bits.ofNat (Size.addressWidth memory.depth) row) row :=
      ⟨inside, Bits.denotes_ofNat (numbered inside)⟩
    rw [rowOf_eq_some_iff (Nat.le_trans countable (by decide))]
    exact ⟨fun other_selected => other_selected.unique selected, fun same => same ▸ selected⟩
  constructor
  case least => exact fun _ => Size.forall_lt_two_pow_iff
  case selects => exact fun _ => selects
  case distinct =>
    intro row inside other inside' same
    obtain ⟨addr, made, _, only⟩ := selects inside
    obtain ⟨addr', made', _, only'⟩ := selects inside'
    obtain rfl : addr = addr' := Except.ok.inj (made.symm.trans (same.trans made'))
    exact (only' row).mp ((only row).mpr rfl)
  case misses =>
    intro addr wide
    rw [rowOf_eq_none_iff, Bits.toNat?_eq_none_iff]
    refine or_congr_left ⟨fun unread => ?_, .inl⟩
    rcases unread with unknown | ⟨place, above, found⟩
    · exact unknown
    · -- an address has no place that numbers have not
      obtain ⟨inside, _⟩ := List.getElem?_eq_some_iff.mp found
      have : Bits.numberWidth = 128 := rfl
      omega

theorem getElem?_initialContents (inside : row < memory.depth) :
    memory.initialContents.rows[row]? = some ((memory.init.drop (row * memory.width)).take memory.width) := by
  simpa [initialContents, initialRows] using getElem?_splitRows inside

/-- No bound of a row in the initial word is beyond what sizes can count. -/
theorem initialRow_eq_ok (full : memory.init.length = memory.depth * memory.width)
    (countable : memory.depth < Size.bound) (sized : memory.depth * memory.width < Size.bound)
    (inside : row < memory.depth) :
    memory.initialRow row = .ok ((memory.init.drop (row * memory.width)).take memory.width) := by
  have before : row * memory.width ≤ (row + 1) * memory.width := Nat.mul_le_mul_right _ (Nat.le_succ row)
  have within : (row + 1) * memory.width ≤ memory.depth * memory.width := Nat.mul_le_mul_right _ inside
  have start : Size.mul row memory.width = .ok (row * memory.width) :=
    if_pos (Nat.lt_of_le_of_lt (Nat.le_trans before within) sized)
  have next : Size.add row 1 = .ok (row + 1) := if_pos (Nat.lt_of_le_of_lt inside countable)
  have stop : Size.mul (row + 1) memory.width = .ok ((row + 1) * memory.width) :=
    if_pos (Nat.lt_of_le_of_lt within sized)
  simp only [initialRow, start, next, stop, bind, Except.bind]
  refine Positions.slice_eq_ok_iff.mpr ⟨before, full ▸ within, ?_⟩
  rw [← Nat.sub_mul, Nat.add_sub_cancel_left, Nat.one_mul]

end Memory

namespace Storage.Blueprint

variable {blueprint : Blueprint}

/-- The bits of a row to begin with are those of the given row, or zeros. -/
theorem Accepted.tabulate_initialBit (accepted : blueprint.Accepted) (row : Nat) :
    Bits.tabulate blueprint.width (blueprint.initialBit row) =
      blueprint.rows.getD row (Bits.zeros blueprint.width) := by
  cases given : blueprint.rows[row]? with
  | none =>
    have no_bit : blueprint.initialBit row = fun _ => .zero := by
      funext place
      simp [initialBit, List.getD_eq_getElem?_getD, given]
    rw [no_bit, ← Bits.zeros_eq_tabulate, List.getD_eq_getElem?_getD, given, Option.getD_none]
  | some word =>
    have wide := accepted.wide word (List.mem_of_getElem? given)
    have bits : blueprint.initialBit row = fun place => word.getD place .zero := by
      funext place
      simp [initialBit, List.getD_eq_getElem?_getD, given]
    rw [bits, ← wide, Bits.tabulate_getD, List.getD_eq_getElem?_getD, given, Option.getD_some]

/-- A memory of the shape of a blueprint and with its initial word starts with the given rows, and with zeros after
them. -/
theorem Accepted.starts (accepted : blueprint.Accepted) (sized : blueprint.Sized) {memory : Memory}
    (deep : memory.depth = blueprint.depth) (broad : memory.width = blueprint.width)
    (word : blueprint.initialWord = .ok memory.init) {row : Nat} (inside : row < blueprint.depth) :
    memory.initialRow row = .ok (blueprint.rows.getD row (Bits.zeros blueprint.width)) ∧
      memory.initialContents.rows[row]? = some (blueprint.rows.getD row (Bits.zeros blueprint.width)) := by
  have full : memory.init.length = memory.depth * memory.width := by
    rw [eq_filledRows word, deep, broad, accepted.length_filledRows]
  have countable : memory.depth < Size.bound :=
    deep ▸ Nat.lt_of_le_of_lt (Nat.le_mul_of_pos_right _ accepted.width_pos) sized
  have held : memory.initialContents.rows[row]? =
      some (blueprint.rows.getD row (Bits.zeros blueprint.width)) := by
    have table := accepted.splitRows_initialWord word
    rw [← deep, ← broad] at table
    rw [← accepted.tabulate_initialBit, ← broad]
    exact (congrArg (·[row]?) table).trans (Bits.getElem?_table (deep ▸ inside))
  have cut : memory.initialContents.rows[row]? = some ((memory.init.drop (row * memory.width)).take memory.width) :=
    Memory.getElem?_initialContents (deep ▸ inside)
  rw [Memory.initialRow_eq_ok full countable (by rw [deep, broad]; exact sized) (deep ▸ inside)]
  exact ⟨congrArg Except.ok (Option.some.inj (cut.symm.trans held)), held⟩

/-- What a blueprint makes of a shape and the first rows of it. -/
structure StartsWith (blueprint : Blueprint) (width depth : Nat) (rows : List Bits) : Prop where
  room : depth * width ≤ Bits.maxWidth → ∃ init, blueprint.initialWord = .ok init
  crowded : Bits.maxWidth < (depth - rows.length) * width → blueprint.initialWord = .error .tooLarge
  full : ∀ init, blueprint.initialWord = .ok init → init.length = depth * width
  starts : ∀ memory : Memory, memory.depth = depth → memory.width = width →
    blueprint.initialWord = .ok memory.init → ∀ row < depth,
      memory.initialRow row = .ok (rows.getD row (Bits.zeros width)) ∧
        memory.initialContents.rows[row]? = some (rows.getD row (Bits.zeros width))

theorem Accepted.startsWith (accepted : blueprint.Accepted) (sized : blueprint.Sized) :
    blueprint.StartsWith blueprint.width blueprint.depth blueprint.rows where
  room within := ⟨blueprint.filledRows, initialWord_of_le (Nat.le_trans blueprint.missing_le within)⟩
  crowded large := initialWord_of_lt (Nat.lt_of_le_of_lt blueprint.missing_le sized) large
  full init word := by rw [eq_filledRows word, accepted.length_filledRows]
  starts memory deep broad word row inside := accepted.starts sized deep broad word inside

/-- Whatever shape and rows are accepted, as long as sizes can count the bits: the initial word is there if a word has
room for it, the rows are in their places, and each row has an address of its own, of the least width. -/
theorem rows_addressed {width depth : Nat} {rows : List Bits} {start : Blueprint}
    (shape : ofShape width depth = .ok start) (given : start.withRows rows = .ok blueprint)
    (sized : depth * width < Size.bound) (attributes : Table String) :
    StartsWith { blueprint with attributes } width depth rows ∧ (depth = 1 → blueprint.addressWidth = 0) ∧
      ∀ memory : Memory, memory.depth = depth → memory.Addressed blueprint.addressWidth := by
  have accepted := (accepted_ofShape shape).withRows given
  obtain ⟨_, _, rfl⟩ := ofShape_eq_ok_iff.mp shape
  obtain rfl := eq_of_withRows given
  refine ⟨?_, fun single => ?_, fun memory deep => ?_⟩
  · have same : ({ width, depth, rows, attributes } : Blueprint).Accepted :=
      ⟨accepted.width_pos, accepted.depth_pos, accepted.fit, accepted.wide⟩
    exact same.startsWith sized
  · subst single
    rfl
  · have countable : memory.depth ≤ Size.bound :=
      deep ▸ Nat.le_of_lt (Nat.lt_of_le_of_lt (Nat.le_mul_of_pos_right _ accepted.width_pos) sized)
    exact deep ▸ Memory.addressed countable

/-- Three rows of two bits, of which one is given. -/
def threeRows : Blueprint := ⟨2, 3, [[.unknown, .one]], []⟩

/-- The bank of a reader of this memory, with a port that never writes. -/
def threeBank : Memory :=
  (Replicated.ofBlueprint threeRows (.high (.slot 0)) none).replica
    ⟨[.zero, .zero], [.zero, .zero], [.zero, .zero], .high (.slot 0)⟩ threeRows.filledRows
    (.ofNets [.slot 1, .slot 2] .one)

/-- The first row is given and the last one is zero; the fourth address is one too many. -/
theorem three_rows_addressed : ofShape 2 3 = .ok ⟨2, 3, [], []⟩ ∧
    withRows ⟨2, 3, [], []⟩ [[.unknown, .one]] = .ok threeRows ∧ 3 * 2 < Size.bound ∧
    threeRows.initialWord = .ok threeBank.init ∧ threeRows.addressWidth = 2 ∧
    threeBank.initialRow 0 = .ok [.unknown, .one] ∧ threeBank.initialRow 2 = .ok [.zero, .zero] ∧
    (∃ addr, Bits.encode 2 2 = .ok addr ∧ ∀ other, threeBank.rowOf addr = some other ↔ other = 2) ∧
    threeBank.rowOf [.one, .one] = none ∧ threeBank.rowOf [.unknown, .zero] = none := by
  have shape : ofShape 2 3 = .ok ⟨2, 3, [], []⟩ := rfl
  have given : withRows ⟨2, 3, [], []⟩ [[.unknown, .one]] = .ok threeRows := rfl
  have sized : 3 * 2 < Size.bound := by decide
  have word : threeRows.initialWord = .ok threeBank.init := by decide +kernel
  obtain ⟨holds, _, addresses⟩ := rows_addressed shape given sized []
  have starts := holds.starts threeBank rfl rfl word
  have addressed := addresses threeBank rfl
  obtain ⟨addr, made, _, only⟩ := addressed.selects 2 (by decide)
  refine ⟨shape, given, sized, word, rfl, (starts 0 (by decide)).1, (starts 2 (by decide)).1, ⟨addr, made, only⟩, ?_, ?_⟩
  · exact (addressed.misses [.one, .one] rfl).mpr (.inr ⟨3, rfl, Nat.le_refl 3⟩)
  · exact (addressed.misses [.unknown, .zero] rfl).mpr (.inl List.mem_cons_self)

/-- As many rows of one bit as no word has bits. -/
def deepShape : Blueprint := ⟨1, 2 ^ 63, [], []⟩

/-- The shape is accepted, and sizes can count its bits, but it has no initial word. -/
theorem deep_wordless : ofShape 1 (2 ^ 63) = .ok deepShape ∧ deepShape.withRows [] = .ok deepShape ∧
    2 ^ 63 * 1 < Size.bound ∧ deepShape.initialWord = .error .tooLarge ∧
    ¬ ∃ init, deepShape.initialWord = .ok init ∧ init.length = 2 ^ 63 * 1 := by
  have wordless : deepShape.initialWord = .error .tooLarge := initialWord_of_lt (by decide) (by decide)
  refine ⟨rfl, rfl, by decide, wordless, ?_⟩
  rintro ⟨init, word, _⟩
  cases wordless.symm.trans word

end Storage.Blueprint

end BankedMemory
