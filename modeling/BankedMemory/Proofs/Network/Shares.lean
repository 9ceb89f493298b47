import BankedMemory.Proofs.Banks
import BankedMemory.Storage.Ports

/-!
# Shares

A network keeps each bit of a memory as a sum of shares, one for each writer. In a cycle every writer exchanges its
own share at the row that it writes for its data combined with the shares of all others. A reader sums up the shares
as they were, or as they become for the writers that it observes. This machine knows nothing of cells and nets; it is
given the words at the ports.
-/

namespace BankedMemory.Storage

open Finset

/-- The words at the ports of a memory in a clock cycle. -/
structure Traffic where
  /-- The address at each writer. -/
  addr : Nat → Bits
  /-- Whether a writer writes to a place of its row. -/
  mask : Nat → Nat → Trit
  data : Nat → Nat → Trit
  /-- Whether each reader reads. -/
  enable : Nat → Trit
  /-- The address at each reader. -/
  readAddr : Nat → Bits

/-- The net that enables a place of the row, if there is one. -/
def Writer.enableAt (writer : Writer) (place : Nat) : Option Net :=
  match writer.granularity with
  | none => writer.enable[0]?
  | some granularity => writer.enable[place / granularity]?

namespace Ports

/-- The row whose number an address denotes, if there is such a row. -/
def rowOf (ports : Ports) (addr : Bits) : Option Nat :=
  (List.range ports.blueprint.depth).find? fun row => addr.Denotes row

theorem rowOf_eq_some_iff {ports : Ports} {addr : Bits} {row : Nat} :
    ports.rowOf addr = some row ↔ row < ports.blueprint.depth ∧ addr.Denotes row := by
  rw [rowOf, List.find?_range_eq_some, decide_eq_true_iff, List.mem_range]
  constructor
  · rintro ⟨denotes, inside, _⟩
    exact ⟨inside, denotes⟩
  · rintro ⟨inside, denotes⟩
    refine ⟨denotes, inside, fun other before => ?_⟩
    simpa using fun denotes' : addr.Denotes other => Nat.ne_of_lt before (denotes'.unique denotes)

theorem rowOf_lt {ports : Ports} {addr : Bits} {row : Nat} (h : ports.rowOf addr = some row) :
    row < ports.blueprint.depth := (rowOf_eq_some_iff.mp h).1

/-- The words at the ports under given values of nets. A writer that does not exist writes nothing. -/
def traffic (ports : Ports) (value : Net → Trit) : Traffic where
  addr i := ports.writers[i]?.elim [] fun writer => writer.addr.map value
  mask i place := (ports.writers[i]?.bind fun writer => writer.enableAt place).elim .zero value
  data i place := (ports.writers[i]?.bind fun writer => writer.data[place]?).elim .unknown value
  enable k := ports.readers[k]?.elim .zero fun reader => value reader.enable
  readAddr k := ports.readers[k]?.elim [] fun reader => reader.addr.map value

/-- Whether a reader observes a writer. -/
def observes (ports : Ports) (k i : Nat) : Bool := ports.readers[k]?.any fun reader => i ∈ reader.observed

end Ports

/-- The shares of all bits, and the data of all readers. -/
structure Shares where
  /-- The share of a writer in a bit of a row. -/
  share : Nat → Nat → Nat → Trit
  data : Nat → Nat → Trit

namespace Shares

variable (ports : Ports)

/-- To begin with, the first writer has the initial rows, and the others have nothing. -/
def initial : Shares where
  share i row place := if i = 0 then ports.blueprint.initialBit row place else .zero
  data _ _ := .unknown

variable (traffic : Traffic) (s : Shares)

/-- What a relay shows of the share of a writer at the row of another one. -/
def relayed (row? : Option Nat) (i place : Nat) : Trit := row?.elim .unknown fun row => s.share i row place

/-- What a writer offers to a bit of a row: its data combined with the shares of all others. -/
def offer (i row place : Nat) : Trit :=
  traffic.data i place + ∑ j ∈ (range ports.writers.length).erase i, s.share j row place

/-- What reaches the banks of a writer by way of the relays. -/
def offered (i place : Nat) : Trit :=
  traffic.data i place + ∑ j ∈ (range ports.writers.length).erase i, s.relayed (ports.rowOf (traffic.addr i)) j place

/-- The share of a writer after a cycle. -/
def exchange (i row place : Nat) : Trit :=
  if ports.rowOf (traffic.addr i) = some row then
    (traffic.mask i place).select (s.share i row place) (s.offer ports traffic i row place)
  else s.share i row place

/-- What a reader sums up at a bit of a row. -/
def sampled (k row place : Nat) : Trit :=
  ∑ i ∈ range ports.writers.length,
    if ports.observes k i then s.exchange ports traffic i row place else s.share i row place

def advance : Shares where
  share := s.exchange ports traffic
  data k := Memory.latched (traffic.enable k) (ports.rowOf (traffic.readAddr k)) (s.data k)
    (s.sampled ports traffic k)

/-- The bit that the shares sum up to. -/
def total (row place : Nat) : Trit := ∑ i ∈ range ports.writers.length, s.share i row place

/-- The relays bring what the writer offers to the row that it writes. -/
theorem written_offered (i : Nat) : Memory.written (ports.rowOf (traffic.addr i)) (traffic.mask i)
    (s.offered ports traffic i) (s.share i) = s.exchange ports traffic i := by
  funext row place
  unfold Memory.written exchange
  by_cases hit : ports.rowOf (traffic.addr i) = some row
  · simp only [hit, if_true, offered, offer, relayed, Option.elim_some]
  · simp only [hit, if_false]

theorem sum_unknown {n : Nat} (positive : 0 < n) : ∑ _i ∈ range n, Trit.unknown = .unknown := by
  rw [Trit.sum_eq_unknown_iff]
  exact ⟨0, by simpa using positive, rfl⟩

theorem latched_congr {enable : Trit} {row? : Option Nat} {held other : Nat → Trit}
    {sample sample' : Nat → Nat → Trit} {place : Nat} (same : held place = other place)
    (same_sample : ∀ row, row? = some row → sample row place = sample' row place) :
    Memory.latched enable row? held sample place = Memory.latched enable row? other sample' place := by
  cases enable with
  | zero => exact same
  | unknown => rfl
  | one =>
    cases row? with
    | some row => exact same_sample row rfl
    | none => rfl

/-- The registers of the replicas of a reader change alike, and so does their sum. -/
theorem sum_latched {n : Nat} (positive : 0 < n) (enable : Trit) (row? : Option Nat) (held : Nat → Nat → Trit)
    (sample : Nat → Nat → Nat → Trit) (place : Nat) :
    ∑ i ∈ range n, Memory.latched enable row? (held i) (sample i) place =
      Memory.latched enable row? (fun place => ∑ i ∈ range n, held i place)
        (fun row place => ∑ i ∈ range n, sample i row place) place := by
  cases enable with
  | zero => rfl
  | unknown => exact sum_unknown positive
  | one =>
    cases row? with
    | some row => rfl
    | none => exact sum_unknown positive

end Shares

end BankedMemory.Storage
