import BankedMemory.Proofs.Census.Acceptance
import Mathlib.Data.Nat.Choose.Basic
import Mathlib.Tactic.Ring

/-!
# Netlists by options, counted

What a netlist by options has of each kind of cell is a function of the numbers of writers and readers and of whether
writers are arbitrated. The number of its slots tells whether there are numbers for all its nets.
-/

namespace BankedMemory

namespace Netlist

/-- Counting on from a table adds to its counts. -/
theorem get?_foldl_put (entries : List (Nat × Cell)) (table : Table Nat) (kind : String) :
    (entries.foldl (fun counts entry =>
      counts.put entry.2.className ((counts.get? entry.2.className).getD 0 + 1)) table).get? kind =
      if (entries.map fun entry => entry.2.className).count kind = 0 then table.get? kind
      else some ((table.get? kind).getD 0 + (entries.map fun entry => entry.2.className).count kind) := by
  induction entries generalizing table with
  | nil => simp
  | cons entry rest ih =>
    rw [List.foldl_cons, ih, List.map_cons, List.count_cons]
    by_cases same : entry.2.className = kind
    · subst same
      simp only [Table.get?_put_self, BEq.rfl, if_true]
      split <;> simp <;> omega
    · simp [Table.get?_put_of_ne (Ne.symm same), same]

/-- The census has the number of cells of each kind that there is. -/
theorem get?_census (netlist : Netlist) (kind : String) : netlist.census.get? kind =
    if (netlist.cells.map fun entry => entry.2.className).count kind = 0 then none
    else some ((netlist.cells.map fun entry => entry.2.className).count kind) := by
  rw [census, get?_foldl_put]
  simp [Table.get?]

end Netlist

namespace CommandLine.Options

open Storage Storage.Build

variable {options : Options}

/-- How many cells of each kind the netlist has. -/
def kindCount (writers readers : Nat) (arbitrated : Bool) (kind : String) : Nat :=
  if kind = "input" then 1 + 3 * writers + 2 * readers
  else if kind = "output" then readers
  else if kind = "memory" ∨ kind = "name" then
    if writers ≤ 1 then readers else writers * (writers - 1 + readers)
  else if kind = "xor" then if writers ≤ 1 then 0 else (writers - 1) * (writers + readers)
  else if 2 ≤ writers ∧ arbitrated then
    if kind = "eq" then writers * (writers - 1) / 2
    else if kind = "and" then writers * (writers - 1) / 2 + (writers - 1)
    else if kind = "or" then (writers - 1) * (writers - 2) / 2
    else if kind = "not" then writers - 1
    else 0
  else 0

theorem count_cell (kind other : String) (width : Nat) :
    (Tally.cell other width).1.count kind = if kind = other then 1 else 0 :=
  Multiset.count_singleton kind other

/-- A kind is one of those that builds use, or none of them. -/
theorem kind_cases (kind : String) : kind = "input" ∨ kind = "output" ∨ kind = "memory" ∨ kind = "name" ∨
    kind = "xor" ∨ kind = "eq" ∨ kind = "and" ∨ kind = "or" ∨ kind = "not" ∨
    ∀ other ∈ ["input", "output", "memory", "name", "xor", "eq", "and", "or", "not"], kind ≠ other := by
  by_cases used : kind ∈ ["input", "output", "memory", "name", "xor", "eq", "and", "or", "not"]
  · simp only [List.mem_cons, List.not_mem_nil, or_false] at used
    tauto
  · have unused : ∀ other ∈ ["input", "output", "memory", "name", "xor", "eq", "and", "or", "not"], kind ≠ other := by
      rintro _ member rfl
      exact used member
    tauto

theorem count_arbitrationTally (width writers : Nat) (kind : String) :
    (XorNetwork.arbitrationTally width writers).1.count kind =
      writers * (writers - 1) / 2 * ((if kind = "eq" then 1 else 0) + (if kind = "and" then 1 else 0)) +
        (writers - 1) * (writers - 2) / 2 * (if kind = "or" then 1 else 0) +
          (writers - 1) * ((if kind = "not" then 1 else 0) + (if kind = "and" then 1 else 0)) := by
  simp only [XorNetwork.arbitrationTally, Prod.fst_add, Prod.smul_fst, Multiset.count_add, Multiset.count_nsmul,
    count_cell, Nat.choose_two_right, Nat.sub_sub]

/-- The tally of a netlist by options has these counts. -/
theorem count_tally (options : Options) (kind : String) :
    options.tally.1.count kind = kindCount options.writers options.readers options.lowestIndexWins kind := by
  have label : Tally.label (some "mem") = Tally.cell "name" 0 := rfl
  unfold tally memoryTally kindCount
  by_cases few : options.writers ≤ 1
  · have alone : ¬ 2 ≤ options.writers := by omega
    simp only [if_pos few, alone, false_and, if_false, writerTally, readerTally, bankTally, label, Prod.fst_add,
      Prod.smul_fst, Multiset.count_add, Multiset.count_nsmul, count_cell]
    rcases kind_cases kind with rfl | rfl | rfl | rfl | rfl | rfl | rfl | rfl | rfl | unused
    case inl =>
      simp
      omega
    all_goals simp_all
  · have several : 2 ≤ options.writers := by omega
    have masks : (if options.lowestIndexWins then XorNetwork.arbitrationTally options.width options.writers
        else 0 : Tally).1.count kind = if options.lowestIndexWins then
          (XorNetwork.arbitrationTally options.width options.writers).1.count kind else 0 := by
      split <;> rfl
    simp only [if_neg few, several, true_and, writerTally, readerTally, bankTally, XorNetwork.relayTally, label,
      Prod.fst_add, Prod.smul_fst, Multiset.count_add, Multiset.count_nsmul, count_cell, masks, count_arbitrationTally,
      Tally.placeholders, Multiset.count_zero]
    rcases kind_cases kind with rfl | rfl | rfl | rfl | rfl | rfl | rfl | rfl | rfl | unused
    all_goals simp
    case inr.inr.inr.inr.inr.inr.inr.inr.inr => simp_all
    all_goals ring

/-- The number of slots: for the clock, the inputs of the writers, those of the readers, the banks with their labels,
the gates, the comparisons, the outputs, and the placeholders for what several writers write. -/
def slotCount (options : Options) : Nat :=
  let count := kindCount options.writers options.readers options.lowestIndexWins
  let address := max (Size.addressWidth options.depth) 1
  1 + options.writers * (address + options.width + max options.enableWidth 1) + options.readers * (address + 1) +
    count "memory" * (options.width + 1) +
    (count "xor" + count "and" + count "or" + count "not") * options.width + count "eq" + options.readers +
    if options.writers ≤ 1 then 0 else options.writers * options.width

/-- The tally of a netlist by options has so many slots. -/
theorem slots_tally (positive : 0 < options.width) : options.tally.2 = options.slotCount := by
  have wide : max options.width 1 = options.width := Nat.max_eq_left positive
  have label : Tally.label (some "mem") = Tally.cell "name" 0 := rfl
  have cell (kind : String) (width : Nat) : (Tally.cell kind width).2 = max width 1 := rfl
  have address : options.blueprint.addressWidth = Size.addressWidth options.depth := rfl
  unfold tally memoryTally slotCount kindCount
  by_cases few : options.writers ≤ 1
  · have alone : ¬ 2 ≤ options.writers := by omega
    simp only [if_pos few, alone, writerTally, readerTally, bankTally, label, Prod.snd_add, Prod.smul_snd,
      Nat.nsmul_eq_mul, cell, address, wide]
    simp
    ring
  · have several : 2 ≤ options.writers := by omega
    cases options.lowestIndexWins
    · simp [if_neg few, several, writerTally, readerTally, bankTally, XorNetwork.relayTally, label, cell, address, wide,
        Tally.placeholders]
      ring
    · simp [if_neg few, several, writerTally, readerTally, bankTally, XorNetwork.relayTally, label, cell, address, wide,
        Tally.placeholders, XorNetwork.arbitrationTally, Nat.choose_two_right, Nat.sub_sub]
      ring

/-- The slots of the netlist have numbers, and the words and buses in it are within their limits. -/
structure Fits (options : Options) : Prop where
  slots : options.slotCount ≤ Netlist.maxNets
  word : options.depth * options.width ≤ Bits.maxWidth
  bus : options.width ≤ Bus.maxWidth

theorem Fits.numbered (fits : options.Fits) (positive : 0 < options.width) :
    Netlist.empty.Numbered options.tally.2 := by
  have none_yet : Netlist.empty.next = 0 := rfl
  rw [Netlist.Numbered, slots_tally positive, none_yet, Nat.zero_add]
  exact Or.inr fits.slots

/-- What becomes of options: whether there is a netlist, and what it has. -/
structure Outcome (options : Options) : Prop where
  accepted_iff : (∃ netlist, options.netlist.1 = .ok netlist) ↔ options.Acceptable
  /-- There is no fault, and all refusals are those of a configuration. -/
  refused : ∀ error, options.netlist.1 = .error error → error = .zeroGranularity ∨
    ∃ cause, error = .halted (.refused cause) ∧ cause.kind = .configuration
  counts : ∀ netlist, options.netlist.1 = .ok netlist → ∀ kind,
    let count := kindCount options.writers options.readers options.lowestIndexWins kind
    netlist.census.get? kind = if count = 0 then none else some count
  slots : ∀ netlist, options.netlist.1 = .ok netlist → netlist.slots.size = options.slotCount

/-- Acceptable options that fit have a netlist with these counts. -/
theorem exists_netlist (fits : options.Fits) (acceptable : options.Acceptable) : ∃ netlist,
    options.netlist.1 = .ok netlist ∧ netlist.slots.size = options.slotCount ∧ ∀ kind,
      (netlist.cells.map fun entry => entry.2.className).count kind =
        kindCount options.writers options.readers options.lowestIndexWins kind := by
  have storable : options.blueprint.Storable := by
    refine ⟨⟨acceptable.1, acceptable.2.1, Nat.zero_le _, ?_⟩, fits.word, fits.bus⟩
    exact fun _ member => absurd member List.not_mem_nil
  obtain ⟨netlist, after, ended, size, kinds⟩ :=
    exists_construct acceptable storable (fits.numbered acceptable.1) options.warnings
  have granted : options.granularity ≠ some 0 := fun zero => absurd (acceptable.2.2 0 zero).1 (Nat.lt_irrefl 0)
  refine ⟨netlist, ?_, size.trans (slots_tally acceptable.1), fun kind => ?_⟩
  · unfold Options.netlist
    rw [if_neg granted, ended]
  · rw [← count_tally, ← kinds, Multiset.coe_count]

/-- Other options are refused, and nothing that is added before lacks numbers. -/
theorem exists_refusal (fits : options.Fits) (unacceptable : ¬ options.Acceptable) :
    ∃ error, options.netlist.1 = .error error ∧
    (error = .zeroGranularity ∨ ∃ cause, error = .halted (.refused cause) ∧ cause.kind = .configuration) := by
  unfold Options.netlist
  by_cases zero : options.granularity = some 0
  · exact ⟨.zeroGranularity, by rw [if_pos zero], Or.inl rfl⟩
  · have halts : options.construct.Stops ⟨.empty, options.warnings⟩ _ :=
      refuses_construct unacceptable zero fits.numbered
    obtain ⟨_, after, stopped, cause, rfl, kind⟩ := halts
    exact ⟨.halted (.refused cause), by rw [if_neg zero, stopped], Or.inr ⟨cause, rfl, kind⟩⟩

/-- Options are accepted just if they are acceptable, are refused otherwise, and the counts of the netlist depend on
the numbers of writers and readers and on the arbitration only. -/
theorem outcome_of_fits (fits : options.Fits) : options.Outcome := by
  by_cases acceptable : options.Acceptable
  · obtain ⟨netlist, ended, size, counts⟩ := exists_netlist fits acceptable
    have only (other : Netlist) (ended' : options.netlist.1 = .ok other) : other = netlist :=
      Except.ok.inj (ended'.symm.trans ended)
    constructor
    case accepted_iff => exact ⟨fun _ => acceptable, fun _ => ⟨netlist, ended⟩⟩
    case refused =>
      intro error stopped
      rw [ended] at stopped
      cases stopped
    case counts =>
      intro other ended' kind
      rw [only other ended', Netlist.get?_census, counts]
    case slots =>
      intro other ended'
      rw [only other ended', size]
  · obtain ⟨error, stopped, known⟩ := exists_refusal fits acceptable
    have never (netlist : Netlist) : options.netlist.1 ≠ .ok netlist := by
      rw [stopped]
      exact fun same => nomatch same
    constructor
    case accepted_iff => exact ⟨fun ⟨netlist, ended⟩ => absurd ended (never netlist), fun h => absurd h acceptable⟩
    case refused =>
      intro error' stopped'
      rwa [Except.error.inj (stopped'.symm.trans stopped)]
    case counts => exact fun netlist ended => absurd ended (never netlist)
    case slots => exact fun netlist ended => absurd ended (never netlist)

/-- Three writers with an order among them, and two readers. -/
def trio : Options where
  writers := 3
  readers := 2
  depth := 4
  width := 2
  granularity := some 1
  transparent := false
  lowestIndexWins := true

theorem trio_outcome : trio.Fits ∧ ∃ netlist, trio.netlist.1 = .ok netlist ∧ netlist.slots.size = 108 ∧
    ["and", "eq", "input", "memory", "name", "not", "or", "output", "xor"].map netlist.census.get? =
      [some 5, some 3, some 14, some 12, some 12, some 2, some 1, some 2, some 10] := by
  have fits : trio.Fits := ⟨by decide +kernel, by decide +kernel, by decide +kernel⟩
  have acceptable : trio.Acceptable := by
    refine ⟨by decide, by decide, ?_⟩
    rintro _ ⟨⟩
    exact ⟨Nat.one_pos, Or.inr (one_dvd _)⟩
  have outcome := outcome_of_fits fits
  obtain ⟨netlist, ended⟩ := outcome.accepted_iff.mpr acceptable
  refine ⟨fits, netlist, ended, (outcome.slots netlist ended).trans (by decide +kernel), ?_⟩
  simp only [List.map_cons, List.map_nil, outcome.counts netlist ended]
  decide +kernel

end CommandLine.Options

end BankedMemory
