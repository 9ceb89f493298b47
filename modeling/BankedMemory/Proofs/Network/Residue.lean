import BankedMemory.Proofs.Network.Arbitration

/-!
# What is left of unknown bits

Exclusive or cancels a share only if it is known. A writer that overwrites a bit clears its own share of it, but the
shares of the other writers go into what it stores: if one of these is unknown, the bit stays unknown, and now there
are two writers with an unknown share of it, so that no later write can clear it. For cycles in which no two writers
write the same bit, this is all that sets the network apart from a memory that is simply overwritten.
-/

namespace BankedMemory.Storage

open Finset

namespace Traffic

variable {traffic : Traffic} {ports : Ports} {row place : Nat}

/-- No bit is written by two writers. -/
structure Apart (ports : Ports) (traffic : Traffic) : Prop extends traffic.Decided ports where
  alone : ∀ row < ports.blueprint.depth, ∀ place < ports.blueprint.width,
    (traffic.contenders ports row place).card ≤ 1

instance (ports : Ports) : DecidablePred (Apart ports) := fun traffic =>
  decidable_of_iff (traffic.Decided ports ∧ ∀ row < ports.blueprint.depth, ∀ place < ports.blueprint.width,
      (traffic.contenders ports row place).card ≤ 1)
    ⟨fun h => ⟨h.1, h.2⟩, fun h => ⟨h.toDecided, h.alone⟩⟩

/-- Where no bit is written by two writers, the first one is the only one. -/
theorem contenders_of_apart (apart : traffic.Apart ports) (row : Nat) (inside : place < ports.blueprint.width) :
    traffic.contenders ports row place = (traffic.winner ports row place).toFinset := by
  ext i
  rw [Option.mem_toFinset, Option.mem_def, winner_eq_some_iff]
  constructor
  · intro contends
    obtain ⟨hi, hits⟩ := mem_contenders.mp contends
    refine ⟨hi, hits, fun j before hits' => ?_⟩
    have contends' : j ∈ traffic.contenders ports row place :=
      mem_contenders.mpr ⟨Nat.lt_trans before hi, hits'⟩
    have same := card_le_one.mp (apart.alone row (Ports.rowOf_lt hits.1) place inside) i contends j contends'
    omega
  · rintro ⟨hi, hits, -⟩
    exact mem_contenders.mpr ⟨hi, hits⟩

end Traffic

/-- Where unknown bits have been left. -/
structure Residue where
  /-- The writers whose share of a bit is unknown. -/
  holders : Nat → Nat → Finset Nat
  /-- Whether a bit in the data of a reader is unknown because some share was. -/
  stained : Nat → Nat → Bool

namespace Residue

/-- The writers with an unknown share of a bit after a writer has overwritten it: none if no other share is unknown and
neither is the data. -/
def rewritten (holders : Finset Nat) (i : Nat) (bit : Trit) : Finset Nat :=
  if bit ≠ .unknown ∧ holders.erase i = ∅ then ∅ else insert i holders

theorem rewritten_eq_empty_iff {holders : Finset Nat} {i : Nat} {bit : Trit} :
    rewritten holders i bit = ∅ ↔ bit ≠ .unknown ∧ holders.erase i = ∅ := by
  unfold rewritten
  split
  · rename_i clean
    exact iff_of_true rfl clean
  · rename_i unclean
    exact iff_of_false (insert_ne_empty _ _) unclean

theorem mem_rewritten_iff {holders : Finset Nat} {i j : Nat} {bit : Trit} :
    j ∈ rewritten holders i bit ↔ if j = i then bit = .unknown ∨ holders.erase i ≠ ∅ else j ∈ holders := by
  unfold rewritten
  by_cases clean : bit ≠ .unknown ∧ holders.erase i = ∅
  · have other : j ≠ i → j ∉ holders := fun differ member => by
      have := mem_erase.mpr ⟨differ, member⟩
      rw [clean.2] at this
      exact notMem_empty _ this
    rw [if_pos clean]
    by_cases same : j = i <;> simp_all
  · rw [if_neg clean, mem_insert]
    by_cases same : j = i
    · simpa [same, or_iff_not_imp_left] using clean
    · simp [same]

variable (ports : Ports) (traffic : Traffic) (residue : Residue)

/-- To begin with, the first writer has all unknown bits. -/
def initial : Residue where
  holders row place := if ports.blueprint.initialBit row place = .unknown then {0} else ∅
  stained _ _ := false

/-- The writers with an unknown share of a bit, as a reader sees them. -/
def seen (sees : Nat → Bool) (row place : Nat) : Finset Nat :=
  (traffic.winner ports row place).elim (residue.holders row place) fun i =>
    if sees i then rewritten (residue.holders row place) i (traffic.data i place) else residue.holders row place

/-- Whether a bit of a reader is stained after a cycle: if it was sampled where there is residue. -/
def latched (enable : Trit) (row? : Option Nat) (stained : Bool) (sample : Nat → Bool) : Bool :=
  match enable, row? with
  | .zero, _ => stained
  | .one, some row => sample row
  | .one, none => false
  | .unknown, _ => false

def advance : Residue where
  holders := residue.seen ports traffic fun _ => true
  stained k place := latched (traffic.enable k) (ports.rowOf (traffic.readAddr k)) (residue.stained k place)
    fun row => residue.seen ports traffic (ports.observes k) row place ≠ ∅

/-- What is left after some cycles. -/
def run (history : List Traffic) : Residue :=
  history.foldl (fun residue traffic => residue.advance ports traffic) (initial ports)

/-- The data of the readers, as far as it is not stained. -/
def obscure (store : Store) (k place : Nat) : Trit :=
  bif residue.stained k place then .unknown else store.data k place

variable {residue : Residue} {store : Store} {k place : Nat}

theorem obscure_of_stained (h : residue.stained k place = true) : residue.obscure store k place = .unknown := by
  rw [obscure, h]
  rfl

theorem obscure_of_clean (h : residue.stained k place = false) :
    residue.obscure store k place = store.data k place := by
  rw [obscure, h]
  rfl

end Residue

namespace Shares

/-- A writer that exchanges its share leaves its data, if all other shares are known. -/
theorem sum_rewritten {n i : Nat} {shares : Nat → Trit} (inside : i < n) (bit : Trit) :
    (∑ j ∈ range n, if j = i then bit + ∑ j ∈ (range n).erase i, shares j else shares j) =
      if ∑ j ∈ (range n).erase i, shares j = .unknown then .unknown else bit := by
  have others : (∑ j ∈ (range n).erase i, if j = i then bit + ∑ j ∈ (range n).erase i, shares j else shares j) =
      ∑ j ∈ (range n).erase i, shares j :=
    sum_congr rfl fun j other => if_neg (ne_of_mem_erase other)
  rw [← add_sum_erase _ _ (mem_range.mpr inside), if_pos rfl, others, add_assoc]
  split
  · rename_i unknown
    rw [unknown, Trit.add_unknown, Trit.add_unknown]
  · rename_i known
    rw [Trit.add_self known, add_zero]

variable {ports : Ports} {s : Shares} {store : Store} {residue : Residue} {traffic : Traffic} {row place : Nat}

/-- The holders of a bit have unknown shares, and without a holder the shares sum up to the bit of the store. -/
structure Leaves (ports : Ports) (s : Shares) (store : Store) (residue : Residue) : Prop where
  holders : ∀ row < ports.blueprint.depth, ∀ place < ports.blueprint.width, ∀ i,
    i ∈ residue.holders row place ↔ i < ports.writers.length ∧ s.share i row place = .unknown
  total : ∀ row < ports.blueprint.depth, ∀ place < ports.blueprint.width, residue.holders row place = ∅ →
    s.total ports row place = store.bit row place
  data : ∀ k, ∀ place < ports.blueprint.width, s.data k place = residue.obscure store k place

/-- To begin with, only the first writer may have unknown shares. -/
theorem leaves_initial (some_writer : ports.writers ≠ []) :
    (initial ports).Leaves ports (.initial ports) (.initial ports) where
  holders row _ place _ i := by
    have first : 0 < ports.writers.length := List.length_pos_iff.mpr some_writer
    simp only [Residue.initial, initial]
    by_cases unknown : ports.blueprint.initialBit row place = .unknown
    · by_cases same : i = 0 <;> simp [unknown, same, first]
    · by_cases same : i = 0 <;> simp [unknown, same]
  total row _ place _ _ := by
    have first : 0 ∈ range ports.writers.length := mem_range.mpr (List.length_pos_iff.mpr some_writer)
    exact (sum_ite_eq' _ _ _).trans (if_pos first)
  data _ _ _ := rfl

namespace Leaves

variable (h : s.Leaves ports store residue) (row_inside : row < ports.blueprint.depth)
  (place_inside : place < ports.blueprint.width)
include h row_inside place_inside

theorem sum_erase_eq_unknown_iff (i : Nat) :
    ∑ j ∈ (range ports.writers.length).erase i, s.share j row place = .unknown ↔
      (residue.holders row place).erase i ≠ ∅ := by
  rw [Trit.sum_eq_unknown_iff, ← nonempty_iff_ne_empty]
  refine exists_congr fun j => ?_
  rw [mem_erase, mem_erase, mem_range, h.holders row row_inside place place_inside j, and_assoc]

theorem total_eq : s.total ports row place =
    if residue.holders row place = ∅ then store.bit row place else .unknown := by
  split
  · rename_i none
    exact h.total row row_inside place place_inside none
  · rename_i some_holder
    obtain ⟨i, member⟩ := nonempty_iff_ne_empty.mpr some_holder
    obtain ⟨inside, unknown⟩ := (h.holders row row_inside place place_inside i).mp member
    exact (Trit.sum_eq_unknown_iff _ _).mpr ⟨i, mem_range.mpr inside, unknown⟩

variable {mask : Nat → Nat → Trit} (enabled : ∀ i < ports.writers.length, mask i place ≠ .unknown)
  (single : Traffic.contenders { traffic with mask } ports row place = (traffic.winner ports row place).toFinset)
include enabled single

omit h row_inside place_inside in
theorem exchange_single {i : Nat} (inside : i < ports.writers.length) :
    s.exchange ports { traffic with mask } i row place = if traffic.winner ports row place = some i then
      traffic.data i place + ∑ j ∈ (range ports.writers.length).erase i, s.share j row place
    else s.share i row place := by
  rw [exchange_eq inside (enabled i inside), single]
  simp only [Option.mem_toFinset, Option.mem_def]

/-- After the cycle a writer leaves residue exactly if its share is unknown. -/
theorem mem_seen_iff (i : Nat) : i ∈ residue.seen ports traffic (fun _ => true) row place ↔
    i < ports.writers.length ∧ s.exchange ports { traffic with mask } i row place = .unknown := by
  have before := h.holders row row_inside place place_inside i
  by_cases inside : i < ports.writers.length
  · rw [exchange_single enabled single inside]
    cases won : traffic.winner ports row place with
    | none => simpa [Residue.seen, won] using before
    | some w =>
      simp only [Residue.seen, won, Option.elim_some, if_true, Residue.mem_rewritten_iff, inside, true_and,
        Option.some.injEq]
      by_cases same : i = w
      · subst same
        rw [if_pos rfl, if_pos rfl, Trit.add_eq_unknown_iff, h.sum_erase_eq_unknown_iff row_inside place_inside i]
      · simpa [same, Ne.symm same, inside] using before
  · have none : i ∉ residue.holders row place := fun member => inside (before.mp member).1
    simp only [inside, false_and, iff_false]
    unfold Residue.seen
    cases won : traffic.winner ports row place with
    | none => exact none
    | some w =>
      have other : i ≠ w := fun same => inside (same ▸ (Traffic.winner_eq_some_iff.mp won).1)
      simp only [Option.elim_some, if_true, Residue.mem_rewritten_iff, other, if_false]
      exact none

/-- The shares that a reader sees sum up to what it sees of the store, unless it sees some residue. -/
theorem sum_seen_single (sees : Nat → Bool) :
    (∑ i ∈ range ports.writers.length,
      if sees i then s.exchange ports { traffic with mask } i row place else s.share i row place) =
      if residue.seen ports traffic sees row place = ∅ then
        (traffic.winner ports row place).elim (store.bit row place) fun i =>
          if sees i then traffic.data i place else store.bit row place
      else .unknown := by
  have exchanged : (∑ i ∈ range ports.writers.length,
      if sees i then s.exchange ports { traffic with mask } i row place else s.share i row place) =
      ∑ i ∈ range ports.writers.length, if sees i ∧ traffic.winner ports row place = some i then
        traffic.data i place + ∑ j ∈ (range ports.writers.length).erase i, s.share j row place
      else s.share i row place := by
    refine sum_congr rfl fun i member => ?_
    rw [exchange_single enabled single (mem_range.mp member), ← ite_and]
  rw [exchanged]
  cases won : traffic.winner ports row place with
  | none =>
    simp only [Residue.seen, won, reduceCtorEq, and_false, if_false, Option.elim_none]
    exact h.total_eq row_inside place_inside
  | some w =>
    obtain ⟨inside, -⟩ := Traffic.winner_eq_some_iff.mp won
    simp only [Residue.seen, won, Option.some.injEq, Option.elim_some]
    by_cases seen : sees w = true
    · have rewrites : (∑ i ∈ range ports.writers.length, if sees i = true ∧ w = i then
          traffic.data i place + ∑ j ∈ (range ports.writers.length).erase i, s.share j row place
        else s.share i row place) = ∑ i ∈ range ports.writers.length, if i = w then
          traffic.data w place + ∑ j ∈ (range ports.writers.length).erase w, s.share j row place
        else s.share i row place := by
        refine sum_congr rfl fun i _ => ?_
        by_cases same : i = w
        · subst same
          simp only [seen, and_self, if_true]
        · simp only [same, Ne.symm same, and_false, if_false]
      have others := h.sum_erase_eq_unknown_iff row_inside place_inside w
      rw [rewrites, sum_rewritten inside]
      simp only [seen, if_true, others, Residue.rewritten_eq_empty_iff]
      by_cases alone : (residue.holders row place).erase w = ∅
      · by_cases unknown : traffic.data w place = .unknown <;> simp [alone, unknown]
      · simp [alone]
    · have untouched (i : Nat) : ¬ (sees i = true ∧ w = i) := by
        rintro ⟨sees_i, rfl⟩
        exact seen sees_i
      simp only [untouched, if_false, seen, Bool.false_eq_true]
      exact h.total_eq row_inside place_inside

end Leaves

/-- A cycle in which no bit is written by two writers overwrites, and leaves residue. -/
theorem Leaves.advance (h : s.Leaves ports store residue) {mask : Nat → Nat → Trit}
    (enabled : ∀ i < ports.writers.length, ∀ place < ports.blueprint.width, mask i place ≠ .unknown)
    (single : ∀ row, ∀ place < ports.blueprint.width,
      Traffic.contenders { traffic with mask } ports row place = (traffic.winner ports row place).toFinset) :
    (s.advance ports { traffic with mask }).Leaves ports (store.overwrite ports traffic)
      (residue.advance ports traffic) where
  holders row row_inside place place_inside i :=
    h.mem_seen_iff row_inside place_inside (fun i inside => enabled i inside place place_inside)
      (single row place place_inside) i
  total row row_inside place place_inside clean := by
    have clean : residue.seen ports traffic (fun _ => true) row place = ∅ := clean
    have sum := h.sum_seen_single row_inside place_inside (fun i inside => enabled i inside place place_inside)
      (single row place place_inside) fun _ => true
    simp only [clean, if_true] at sum
    exact sum
  data k place place_inside := by
    show Memory.latched (traffic.enable k) (ports.rowOf (traffic.readAddr k)) (s.data k)
      (s.sampled ports { traffic with mask } k) place =
        bif Residue.latched (traffic.enable k) (ports.rowOf (traffic.readAddr k)) (residue.stained k place)
          fun row => residue.seen ports traffic (ports.observes k) row place ≠ ∅
        then .unknown else Memory.latched (traffic.enable k) (ports.rowOf (traffic.readAddr k)) (store.data k)
          (fun row place => (traffic.winner ports row place).elim (store.bit row place) fun i =>
            if ports.observes k i then traffic.data i place else store.bit row place) place
    cases traffic.enable k with
    | zero => exact h.data k place place_inside
    | unknown => rfl
    | one =>
      cases hit : ports.rowOf (traffic.readAddr k) with
      | none => rfl
      | some row =>
        have sum := h.sum_seen_single (Ports.rowOf_lt hit) place_inside
          (fun i inside => enabled i inside place place_inside) (single row place place_inside) (ports.observes k)
        refine Eq.trans sum ?_
        by_cases clean : residue.seen ports traffic (ports.observes k) row place = ∅ <;>
          simp [clean, Memory.latched, Residue.latched]

end Shares

namespace Traffic

variable {traffic : Traffic} {ports : Ports}

/-- What a lane may use as its mask: the mask of its writer, or what arbitration leaves of it. -/
def Masks (masks : Traffic → Nat → Nat → Trit) : Prop := masks = mask ∨ masks = arbitrated

/-- Where no bit is written by two writers, arbitration makes no difference. -/
theorem Masks.single {masks : Traffic → Nat → Nat → Trit} (either : Masks masks) (apart : traffic.Apart ports)
    (wide : ∀ i < ports.writers.length, (traffic.addr i).length = ports.blueprint.addressWidth) :
    (∀ i < ports.writers.length, ∀ place < ports.blueprint.width, masks traffic i place ≠ .unknown) ∧
    ∀ row, ∀ place < ports.blueprint.width,
      contenders { traffic with mask := masks traffic } ports row place = (traffic.winner ports row place).toFinset := by
  rcases either with rfl | rfl
  · exact ⟨apart.enabled, fun row place inside => contenders_of_apart apart row inside⟩
  · refine ⟨fun i hi place inside => ?_, fun row place inside =>
      contenders_arbitrated apart.toDecided wide inside row⟩
    rw [arbitrated_eq apart.toDecided wide inside hi]
    split <;> exact Trit.noConfusion

end Traffic

namespace XorNetwork

variable {network : XorNetwork} {site : Installation network.build} {lanes : List Lane}

theorem exists_masks (layout : network.Layout site.Has site.Tied site.assembly lanes) :
    ∃ masks, Traffic.Masks masks ∧ ∀ state, state.Aligned site.netlist →
      (∀ net ∈ network.ports.nets, site.netlist.Live state (site.resolve net)) →
      ∀ source ∈ lanes.zipIdx, site.Shows state source.1.mask
        (Bits.tabulate network.ports.blueprint.width (masks (network.trafficIn site state) source.2)) := by
  cases arbitration : network.arbitration with
  | none => exact ⟨_, Or.inl rfl, shows_mask arbitration layout⟩
  | lowestIndex => exact ⟨_, Or.inr rfl, shows_arbitrated arbitration layout⟩

/-- The readers read, after every run in which no bit is written by two writers in one cycle, what one memory gives that
is overwritten, except for the bits that are stained. So they read exactly this if every stained bit is unknown in that
memory, too. -/
theorem reads_obscured (site : Installation network.build) (some_writer : network.ports.writers ≠ [])
    (accepted : network.ports.blueprint.Accepted) {actions : List Action} {start : State}
    (run : network.Run site actions start (Traffic.Apart network.ports)) :
    ∃ last, site.netlist.perform actions start = .ok last ∧
      site.Reads network.ports last ((Residue.run network.ports (network.history site actions start)).obscure
        (Store.run Store.overwrite network.ports (network.history site actions start))) ∧
      (site.Reads network.ports last
          (Store.run Store.overwrite network.ports (network.history site actions start)).data ↔
        ∀ k < network.ports.readers.length, ∀ place < network.ports.blueprint.width,
          (Residue.run network.ports (network.history site actions start)).stained k place = true →
            (Store.run Store.overwrite network.ports (network.history site actions start)).data k place = .unknown) := by
  obtain ⟨lanes, layout⟩ := exists_layout site some_writer
  obtain ⟨masks, either, masked⟩ := exists_masks layout
  have keeps (s : Shares) (machine : Store × Residue) (state : State)
      (leaves : s.Leaves network.ports machine.1 machine.2)
      (apart : (network.trafficIn site state).Apart network.ports) :
      (s.advance network.ports (network.maskedTraffic site state (masks (network.trafficIn site state)))).Leaves
        network.ports (machine.1.overwrite network.ports (network.trafficIn site state))
        (machine.2.advance network.ports (network.trafficIn site state)) := by
    obtain ⟨enabled, single⟩ := either.single apart (Ports.length_addr layout.verified)
    exact leaves.advance enabled single
  obtain ⟨last, s, performed, reads, leaves⟩ := perform_agrees
    (fun s machine => s.Leaves network.ports machine.1 machine.2)
    (fun traffic machine => (machine.1.overwrite network.ports traffic, machine.2.advance network.ports traffic))
    masks _ layout some_writer accepted masked keeps (.initial network.ports, .initial network.ports)
    (Shares.leaves_initial some_writer) run
  rw [foldl_pair (fun store traffic => Store.overwrite network.ports traffic store)
    (fun residue traffic => Residue.advance network.ports traffic residue)] at leaves
  have obscured := reads.congr fun k _ => leaves.data k
  refine ⟨last, performed, obscured, fun overwritten k k_inside place inside stained => ?_,
    fun harmless => obscured.congr fun k k_inside place inside => ?_⟩
  · exact (overwritten.unique obscured k k_inside place inside).trans (Residue.obscure_of_stained stained)
  · cases stained : (Residue.run network.ports (network.history site actions start)).stained k place with
    | false => exact Residue.obscure_of_clean stained
    | true => exact (Residue.obscure_of_stained stained).trans (harmless k k_inside place inside stained).symm

def unknownPair : Installation (pair .none [[.unknown]]).build := mergingPairFrom .unknown

/-- Each writer writes a one into the row that starts out unknown. The first one holds this row and overwrites it; what
the second one writes stays unknown. -/
theorem pair_reads_obscured :
    ((pair .none [[.unknown]]).Run unknownPair (pairRun [.one, .zero, .one]) (.initial unknownPair.netlist)
        (Traffic.Apart (pair .none [[.unknown]]).ports) ∧
      ∃ last, unknownPair.netlist.perform (pairRun [.one, .zero, .one]) (.initial unknownPair.netlist) = .ok last ∧
        unknownPair.Reads (pair .none [[.unknown]]).ports last fun _ _ => .one) ∧
    ((pair .none [[.unknown]]).Run unknownPair (pairRun [.zero, .one, .one]) (.initial unknownPair.netlist)
        (Traffic.Apart (pair .none [[.unknown]]).ports) ∧
      ∃ last, unknownPair.netlist.perform (pairRun [.zero, .one, .one]) (.initial unknownPair.netlist) = .ok last ∧
        unknownPair.Reads (pair .none [[.unknown]]).ports last fun _ _ => .unknown) := by
  have reads {actions : List Action} (run : (pair .none [[.unknown]]).Run unknownPair actions
      (.initial unknownPair.netlist) (Traffic.Apart (pair .none [[.unknown]]).ports)) :=
    reads_obscured unknownPair (by simp [pair]) ⟨by decide, by decide, by decide, by decide⟩ run
  have clean : (pair .none [[.unknown]]).Run unknownPair (pairRun [.one, .zero, .one]) (.initial unknownPair.netlist)
      (Traffic.Apart (pair .none [[.unknown]]).ports) := by decide +kernel
  have stained : (pair .none [[.unknown]]).Run unknownPair (pairRun [.zero, .one, .one])
      (.initial unknownPair.netlist) (Traffic.Apart (pair .none [[.unknown]]).ports) := by decide +kernel
  obtain ⟨last, performed, obscured, -⟩ := reads clean
  obtain ⟨last', performed', obscured', -⟩ := reads stained
  exact ⟨⟨clean, last, performed, reads_pair obscured (by decide +kernel)⟩,
    stained, last', performed', reads_pair obscured' (by decide +kernel)⟩

/-- The second writer alone writes a one into a row that starts out unknown, and does not make it known. -/
theorem pair_stays_unknown :
    (pair .none [[.unknown]]).Run unknownPair (pairRun [.zero, .one, .one]) (.initial unknownPair.netlist)
        (Traffic.Apart (pair .none [[.unknown]]).ports) ∧
      ∀ last, unknownPair.netlist.perform (pairRun [.zero, .one, .one]) (.initial unknownPair.netlist) = .ok last →
        unknownPair.Reads (pair .none [[.unknown]]).ports last (fun _ _ => .unknown) ∧
        ¬ unknownPair.Reads (pair .none [[.unknown]]).ports last
          (Store.run Store.overwrite (pair .none [[.unknown]]).ports ((pair .none [[.unknown]]).history unknownPair
            (pairRun [.zero, .one, .one]) (.initial unknownPair.netlist))).data := by
  refine ⟨by decide +kernel, fun last performed => ?_⟩
  obtain rfl := Except.ok.inj (performed.symm.trans (eq_ok_of_isOk (by decide +kernel) (.initial unknownPair.netlist)))
  exact ⟨by decide +kernel, by decide +kernel⟩

end XorNetwork

end BankedMemory.Storage
