import BankedMemory.Proofs.Network.Following
import Mathlib.Algebra.BigOperators.Group.Finset.Piecewise
import Mathlib.Algebra.Ring.Parity

/-!
# What collisions leave behind

Without arbitration, writers that meet at a bit leave there the exclusive or of what they write, combined with the
old bit if their number is even. A reader that observes only some of them samples what these alone would leave.
-/

namespace BankedMemory.Storage

open Finset

namespace Shares

theorem nsmul_eq_of_add_self {a : Trit} (cancels : a + a = 0) (n : Nat) : n • a = if Even n then 0 else a := by
  induction n with
  | zero => simp
  | succ n ih =>
    rw [succ_nsmul, ih]
    by_cases even : Even n
    · simp [even, Nat.even_add_one]
    · simp [even, Nat.even_add_one, cancels]

/-- If some of the shares of a bit are exchanged for offers, all shares sum up to the data of these writers, combined
with the old bit if their number is even. -/
theorem sum_exchanged {n : Nat} {shares data : Nat → Trit} {writers : Finset Nat} (inside : writers ⊆ range n)
    (known : ∀ i ∈ range n, shares i ≠ .unknown) :
    (∑ i ∈ range n, if i ∈ writers then data i + ∑ j ∈ (range n).erase i, shares j else shares i) =
      ∑ i ∈ writers, data i + if Even writers.card then ∑ i ∈ range n, shares i else 0 := by
  have total_known : ∑ i ∈ range n, shares i ≠ .unknown := by
    rw [Ne, Trit.sum_eq_unknown_iff]
    rintro ⟨i, member, unknown⟩
    exact known i member unknown
  have others (i : Nat) (member : i ∈ range n) :
      ∑ j ∈ (range n).erase i, shares j = shares i + ∑ j ∈ range n, shares j := by
    rw [← add_sum_erase _ _ member, ← add_assoc, Trit.add_self (known i member), zero_add]
  calc (∑ i ∈ range n, if i ∈ writers then data i + ∑ j ∈ (range n).erase i, shares j else shares i)
      = ∑ i ∈ range n, (shares i + if i ∈ writers then data i + ∑ j ∈ range n, shares j else 0) := by
        refine sum_congr rfl fun i member => ?_
        split
        · rw [others i member, add_left_comm]
        · rw [add_zero]
    _ = ∑ i ∈ range n, shares i + ∑ i ∈ writers, (data i + ∑ j ∈ range n, shares j) := by
        rw [sum_add_distrib, sum_ite_mem, inter_eq_right.mpr inside]
    _ = ∑ i ∈ writers, data i + (∑ i ∈ range n, shares i + writers.card • ∑ j ∈ range n, shares j) := by
        rw [sum_add_distrib, sum_const, add_left_comm]
    _ = ∑ i ∈ writers, data i + if Even writers.card then ∑ i ∈ range n, shares i else 0 := by
        rw [nsmul_eq_of_add_self (Trit.add_self total_known)]
        split
        · rw [add_zero]
        · rw [Trit.add_self total_known]

end Shares

namespace Traffic

/-- A writer writes to a place of a row. -/
def Hits (traffic : Traffic) (ports : Ports) (row place i : Nat) : Prop :=
  ports.rowOf (traffic.addr i) = some row ∧ traffic.mask i place = .one

instance (traffic : Traffic) (ports : Ports) (row place i : Nat) : Decidable (traffic.Hits ports row place i) :=
  inferInstanceAs (Decidable (_ ∧ _))

/-- The writers that write to a place of a row. -/
def contenders (traffic : Traffic) (ports : Ports) (row place : Nat) : Finset Nat :=
  (range ports.writers.length).filter (traffic.Hits ports row place)

theorem mem_contenders {traffic : Traffic} {ports : Ports} {row place i : Nat} :
    i ∈ traffic.contenders ports row place ↔ i < ports.writers.length ∧ traffic.Hits ports row place i := by
  rw [contenders, mem_filter, mem_range]

theorem contenders_subset (traffic : Traffic) (ports : Ports) (row place : Nat) :
    traffic.contenders ports row place ⊆ range ports.writers.length := filter_subset _ _

/-- What writers leave at a place: the sum of their data, and the old bit if their number is even. -/
def merged (traffic : Traffic) (writers : Finset Nat) (place : Nat) (old : Trit) : Trit :=
  ∑ i ∈ writers, traffic.data i place + if Even writers.card then old else 0

/-- Every writer surely writes to a place or surely does not, and a writer that writes to any place has a known
address. -/
structure Decided (ports : Ports) (traffic : Traffic) : Prop where
  enabled : ∀ i < ports.writers.length, ∀ place < ports.blueprint.width, traffic.mask i place ≠ .unknown
  addressed : ∀ i < ports.writers.length, (∃ place < ports.blueprint.width, traffic.mask i place = .one) →
    .unknown ∉ traffic.addr i

/-- A writer that writes to any place has known data, too. -/
structure Orderly (ports : Ports) (traffic : Traffic) : Prop extends traffic.Decided ports where
  known : ∀ i < ports.writers.length, (∃ place < ports.blueprint.width, traffic.mask i place = .one) →
    ∀ place < ports.blueprint.width, traffic.data i place ≠ .unknown

instance (ports : Ports) : DecidablePred (Decided ports) := fun traffic =>
  decidable_of_iff ((∀ i < ports.writers.length, ∀ place < ports.blueprint.width, traffic.mask i place ≠ .unknown) ∧
      ∀ i < ports.writers.length, (∃ place < ports.blueprint.width, traffic.mask i place = .one) →
        .unknown ∉ traffic.addr i)
    ⟨fun h => ⟨h.1, h.2⟩, fun h => ⟨h.enabled, h.addressed⟩⟩

instance (ports : Ports) : DecidablePred (Orderly ports) := fun traffic =>
  decidable_of_iff (traffic.Decided ports ∧
      ∀ i < ports.writers.length, (∃ place < ports.blueprint.width, traffic.mask i place = .one) →
        ∀ place < ports.blueprint.width, traffic.data i place ≠ .unknown)
    ⟨fun h => ⟨h.1, h.2⟩, fun h => ⟨h.toDecided, h.known⟩⟩

end Traffic

/-- One memory with the bits of all rows and the data of all readers. -/
structure Store where
  bit : Nat → Nat → Trit
  data : Nat → Nat → Trit

namespace Store

/-- To begin with, nothing is known of the data. -/
def initial (ports : Ports) : Store := ⟨ports.blueprint.initialBit, fun _ _ => .unknown⟩

/-- A cycle that leaves some bits behind, and in which each reader sees some bits. -/
def cycle (ports : Ports) (traffic : Traffic) (store : Store) (left : Nat → Nat → Trit)
    (seen : Nat → Nat → Nat → Trit) : Store where
  bit := left
  data k := Memory.latched (traffic.enable k) (ports.rowOf (traffic.readAddr k)) (store.data k) (seen k)

/-- A cycle in which the data of all writers to a bit is merged, and a reader sees what the writers that it observes
would leave. -/
def merge (ports : Ports) (traffic : Traffic) (store : Store) : Store :=
  store.cycle ports traffic
    (fun row place => traffic.merged (traffic.contenders ports row place) place (store.bit row place))
    (fun k row place => traffic.merged ((traffic.contenders ports row place).filter fun i => ports.observes k i) place
      (store.bit row place))

/-- The store after some cycles, each of which is a step of the given kind. -/
def run (step : Ports → Traffic → Store → Store) (ports : Ports) (history : List Traffic) : Store :=
  history.foldl (fun store traffic => step ports traffic store) (initial ports)

end Store

namespace Shares

/-- All shares are known and sum up to a store, whose data is that of the readers. -/
structure Agrees (ports : Ports) (s : Shares) (store : Store) : Prop where
  known : ∀ i < ports.writers.length, ∀ row < ports.blueprint.depth, ∀ place < ports.blueprint.width,
    s.share i row place ≠ .unknown
  total : ∀ row < ports.blueprint.depth, ∀ place < ports.blueprint.width, s.total ports row place = store.bit row place
  data : ∀ k, ∀ place < ports.blueprint.width, s.data k place = store.data k place

variable {ports : Ports} {s : Shares} {store : Store} {traffic : Traffic} {row place : Nat}

theorem exchange_eq {i : Nat} (inside : i < ports.writers.length) (enabled : traffic.mask i place ≠ .unknown) :
    s.exchange ports traffic i row place = if i ∈ traffic.contenders ports row place then
      traffic.data i place + ∑ j ∈ (range ports.writers.length).erase i, s.share j row place
    else s.share i row place := by
  unfold exchange offer
  by_cases here : ports.rowOf (traffic.addr i) = some row
  · cases mask : traffic.mask i place with
    | unknown => exact absurd mask enabled
    | zero => simp [Traffic.mem_contenders, Traffic.Hits, here, mask, Trit.select]
    | one => simp [Traffic.mem_contenders, Traffic.Hits, here, mask, inside, Trit.select]
  · simp [Traffic.mem_contenders, Traffic.Hits, here]

/-- Shares of which some have been exchanged sum up to what their writers leave behind. -/
theorem sum_seen (known : ∀ i < ports.writers.length, s.share i row place ≠ .unknown)
    (enabled : ∀ i < ports.writers.length, traffic.mask i place ≠ .unknown) (seen : Nat → Bool) :
    (∑ i ∈ range ports.writers.length,
      if seen i then s.exchange ports traffic i row place else s.share i row place) =
      traffic.merged ((traffic.contenders ports row place).filter fun i => seen i) place (s.total ports row place) := by
  have inside : ((traffic.contenders ports row place).filter fun i => seen i) ⊆ range ports.writers.length :=
    (filter_subset _ _).trans (traffic.contenders_subset ports row place)
  unfold Traffic.merged total
  rw [← sum_exchanged inside fun i member => known i (mem_range.mp member)]
  refine sum_congr rfl fun i member => ?_
  rw [exchange_eq (mem_range.mp member) (enabled i (mem_range.mp member))]
  by_cases observed : seen i <;> by_cases hits : i ∈ traffic.contenders ports row place <;> simp [observed, hits]

/-- A cycle merges, if all masks are known, and the data of all writers that write. -/
theorem Agrees.advance (h : s.Agrees ports store)
    (enabled : ∀ i < ports.writers.length, ∀ place < ports.blueprint.width, traffic.mask i place ≠ .unknown)
    (offered : ∀ row, ∀ place < ports.blueprint.width, ∀ i ∈ traffic.contenders ports row place,
      traffic.data i place ≠ .unknown) :
    (s.advance ports traffic).Agrees ports (store.merge ports traffic) where
  known i inside row row_inside place place_inside := by
    show s.exchange ports traffic i row place ≠ .unknown
    rw [exchange_eq inside (enabled i inside place place_inside)]
    split
    · rename_i hits
      rw [Ne, Trit.add_eq_unknown_iff, Trit.sum_eq_unknown_iff]
      rintro (data | ⟨j, member, share⟩)
      · exact offered row place place_inside i hits data
      · exact h.known j (mem_range.mp (mem_of_mem_erase member)) row row_inside place place_inside share
    · exact h.known i inside row row_inside place place_inside
  total row row_inside place place_inside := by
    have sum := sum_seen (fun i inside => h.known i inside row row_inside place place_inside)
      (fun i inside => enabled i inside place place_inside) fun _ => true
    simp only [if_true, filter_true] at sum
    show ∑ i ∈ range ports.writers.length, s.exchange ports traffic i row place = _
    rw [sum, h.total row row_inside place place_inside]
    rfl
  data k place place_inside := by
    refine latched_congr (h.data k place place_inside) fun row hit => ?_
    have row_inside := Ports.rowOf_lt hit
    unfold sampled
    rw [sum_seen (fun i inside => h.known i inside row row_inside place place_inside)
      (fun i inside => enabled i inside place place_inside), h.total row row_inside place place_inside]

/-- The initial shares are known if the initial rows are. -/
theorem agrees_initial (some_writer : ports.writers ≠ [])
    (known_rows : ∀ row ∈ ports.blueprint.rows, Trit.unknown ∉ row) :
    (initial ports).Agrees ports (.initial ports) where
  known i _ row _ place _ := by
    show (if i = 0 then ports.blueprint.initialBit row place else .zero) ≠ .unknown
    split
    · exact Blueprint.initialBit_known known_rows row place
    · exact Trit.noConfusion
  total row _ place _ := by
    have first : 0 ∈ range ports.writers.length := mem_range.mpr (List.length_pos_iff.mpr some_writer)
    exact (sum_ite_eq' _ _ _).trans (if_pos first)
  data _ _ _ := rfl

end Shares

namespace XorNetwork

variable {network : XorNetwork} {site : Installation network.build} {lanes : List Lane}

/-- Without arbitration the masks of the lanes are those of the writers. -/
theorem shows_mask (unresolved : network.arbitration = .none)
    (layout : network.Layout site.Has site.Tied site.assembly lanes) (state : State)
    (aligned : state.Aligned site.netlist)
    (live : ∀ net ∈ network.ports.nets, site.netlist.Live state (site.resolve net)) :
    ∀ source ∈ lanes.zipIdx, site.Shows state source.1.mask
      (Bits.tabulate network.ports.blueprint.width ((network.trafficIn site state).mask source.2)) := by
  intro source member
  have mask_eq : source.1.mask = source.1.writer.mask := by
    simpa [MaskedBy, unresolved] using layout.masked source member
  rw [mask_eq]
  exact shows_writer_mask layout aligned live (layout.writer_of_lane member)

/-- Without arbitration the readers read, after every run, what one memory gives in which collisions merge. -/
theorem reads_merged (site : Installation network.build) (unresolved : network.arbitration = .none)
    (some_writer : network.ports.writers ≠ []) (accepted : network.ports.blueprint.Accepted)
    (known_rows : ∀ row ∈ network.ports.blueprint.rows, Trit.unknown ∉ row) {actions : List Action} {start : State}
    (run : network.Run site actions start (Traffic.Orderly network.ports)) :
    ∃ last, site.netlist.perform actions start = .ok last ∧
      site.Reads network.ports last (Store.run Store.merge network.ports (network.history site actions start)).data := by
  obtain ⟨lanes, layout⟩ := exists_layout site some_writer
  have keeps (s : Shares) (store : Store) (state : State) (agrees : s.Agrees network.ports store)
      (orderly : (network.trafficIn site state).Orderly network.ports) :
      (s.advance network.ports (network.trafficIn site state)).Agrees network.ports
        (store.merge network.ports (network.trafficIn site state)) := by
    refine agrees.advance orderly.enabled fun row place place_inside i hits => ?_
    obtain ⟨inside, _, written⟩ := Traffic.mem_contenders.mp hits
    exact orderly.known i inside ⟨place, place_inside, written⟩ place place_inside
  obtain ⟨last, s, performed, reads, agrees⟩ := perform_agrees (Shares.Agrees network.ports)
    (Store.merge network.ports) Traffic.mask _ layout some_writer accepted (shows_mask unresolved layout) keeps
    _ (Shares.agrees_initial some_writer known_rows) run
  exact ⟨last, performed, reads.congr fun k _ => agrees.data k⟩

/-- Two writers and a reader of one bit in two rows. The writers write a one into row 0, and three inputs enable the
ports. -/
def pair (arbitration : Arbitration) (rows : List Bits) : XorNetwork where
  ports :=
    { blueprint := ⟨1, 2, rows, []⟩
      readers := [⟨[.zero], .slot 3, [0]⟩]
      writers := [⟨[.zero], [.one], [.slot 1], none⟩, ⟨[.zero], [.one], [.slot 2], some 1⟩]
      frozen := false
      capacity := none }
  clock := .high (.slot 0)
  name := none
  arbitration

/-- The pair has one reader of one bit. -/
theorem reads_pair {arbitration : Arbitration} {rows : List Bits} {site : Installation (pair arbitration rows).build}
    {state : State} {data : Nat → Nat → Trit} {bit : Trit}
    (reads : site.Reads (pair arbitration rows).ports state data) (read : data 0 0 = bit) :
    site.Reads (pair arbitration rows).ports state fun _ _ => bit := by
  refine reads.congr fun k inside place within => ?_
  obtain rfl : k = 0 := Nat.lt_one_iff.mp inside
  obtain rfl : place = 0 := Nat.lt_one_iff.mp within
  exact read

/-- A netlist with the inputs of the pair. -/
def pairBoard : Netlist := ((Netlist.empty.push (.input "clock" 1)).2.push (.input "enable" 3)).2

theorem rewiring_pairBoard : pairBoard.rewiring = ∅ := rfl

/-- A run in which the ports are enabled as given, cycle by cycle. -/
def pairCycles (cycles : List Bits) : List Action := cycles.flatMap fun enables => [.set "enable" enables, .step]

/-- A run in which some ports are enabled for one cycle, and the reader alone for another one. -/
def pairRun (enables : Bits) : List Action := pairCycles [enables, [.zero, .zero, .one]]

/-- The pair without arbitration, with a given bit in row 0. -/
def mergingPairFrom (bit : Trit) : Installation (pair .none [[bit]]).build :=
  .atOnce _ pairBoard (by cases bit <;> decide +kernel) rewiring_pairBoard
    (fun other => by cases bit <;> cases other <;> decide +kernel) (by cases bit <;> decide +kernel)

def mergingPair : Installation (pair .none [[.zero]]).build := mergingPairFrom .zero

/-- Both writers offer a one. Where they meet at a zero they leave it, and where the first of them has written before
they leave its one: in either case the exclusive or of what they offer and of the bit before. -/
theorem pair_reads_merged :
    ((pair .none [[.zero]]).Run mergingPair (pairRun [.one, .one, .zero]) (.initial mergingPair.netlist)
        (Traffic.Orderly (pair .none [[.zero]]).ports) ∧
      ∃ last, mergingPair.netlist.perform (pairRun [.one, .one, .zero]) (.initial mergingPair.netlist) = .ok last ∧
        mergingPair.Reads (pair .none [[.zero]]).ports last fun _ _ => .zero) ∧
    ((pair .none [[.zero]]).Run mergingPair (pairCycles [[.one, .zero, .zero], [.one, .one, .zero], [.zero, .zero, .one]])
        (.initial mergingPair.netlist) (Traffic.Orderly (pair .none [[.zero]]).ports) ∧
      ∃ last, mergingPair.netlist.perform (pairCycles [[.one, .zero, .zero], [.one, .one, .zero], [.zero, .zero, .one]])
          (.initial mergingPair.netlist) = .ok last ∧
        mergingPair.Reads (pair .none [[.zero]]).ports last fun _ _ => .one) := by
  have reads {actions : List Action} (run : (pair .none [[.zero]]).Run mergingPair actions
      (.initial mergingPair.netlist) (Traffic.Orderly (pair .none [[.zero]]).ports)) :=
    reads_merged mergingPair rfl (by simp [pair]) ⟨by decide, by decide, by decide, by decide⟩ (by decide) run
  have meeting : (pair .none [[.zero]]).Run mergingPair (pairRun [.one, .one, .zero]) (.initial mergingPair.netlist)
      (Traffic.Orderly (pair .none [[.zero]]).ports) := by decide +kernel
  have rewriting : (pair .none [[.zero]]).Run mergingPair
      (pairCycles [[.one, .zero, .zero], [.one, .one, .zero], [.zero, .zero, .one]]) (.initial mergingPair.netlist)
      (Traffic.Orderly (pair .none [[.zero]]).ports) := by decide +kernel
  obtain ⟨last, performed, stored⟩ := reads meeting
  obtain ⟨last', performed', stored'⟩ := reads rewriting
  exact ⟨⟨meeting, last, performed, reads_pair stored (by decide +kernel)⟩,
    rewriting, last', performed', reads_pair stored' (by decide +kernel)⟩

end XorNetwork

end BankedMemory.Storage
