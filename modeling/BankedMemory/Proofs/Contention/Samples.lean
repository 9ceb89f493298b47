import BankedMemory.Proofs.Contention.Commits

/-!
# What a register samples of the row it reads

A register looks at the write ports of its memory one after the other, and keeps no account of the bits written so far.
It ends up with a known bit if some port whose write it sees puts that bit there for certain, or if the bit was there
before, and if no later port gets in the way. A port gets in the way of a bit if it may write there and the register
sees nothing known of it, or another bit. So a register that sees all writes holds the row as it is after the cycle,
unless it makes out a bit on which several ports meet, which the row does not show; and where it is to see nothing known
of a port, it still makes out a bit that a later port puts there.
-/

namespace BankedMemory

namespace Memory

variable {memory : Memory} {value : Net → Trit} {row place : Nat} {port : WritePort} {seen : Visibility}
  {visibility : List Visibility} {bit : Trit} {rows : Array Bits}

/-- The port at an index puts a bit there for certain, and the write is seen. -/
def Gives (memory : Memory) (value : Net → Trit) (row place : Nat) (visibility : List Visibility) (j : Nat)
    (bit : Trit) : Prop :=
  ∃ port, memory.writePorts[j]? = some port ∧ visibility[j]? = some .after ∧
    memory.WritesBit value row place port ∧ port.maskBit value place = .one ∧ port.dataBit value place = bit

/-- No port from an index on gets in the way of a bit. -/
def KeepsFrom (memory : Memory) (value : Net → Trit) (row place : Nat) (visibility : List Visibility) (start : Nat)
    (bit : Trit) : Prop :=
  ∀ (j : Nat) port seen, start ≤ j → memory.writePorts[j]? = some port → visibility[j]? = some seen →
    memory.WritesBit value row place port → seen = .before ∨ seen = .after ∧ port.dataBit value place = bit

/-- A port puts a bit there for certain, and no later one gets in its way. -/
def LastGives (memory : Memory) (value : Net → Trit) (row place : Nat) (visibility : List Visibility) (j : Nat)
    (bit : Trit) : Prop :=
  memory.Gives value row place visibility j bit ∧ memory.KeepsFrom value row place visibility (j + 1) bit

/-- A register makes out a bit: the row has it and no port gets in its way, or a port puts it there last. -/
def MakesOut (memory : Memory) (value : Net → Trit) (row place : Nat) (visibility : List Visibility)
    (old bit : Trit) : Prop :=
  old = bit ∧ memory.KeepsFrom value row place visibility 0 bit ∨
    ∃ j, memory.LastGives value row place visibility j bit

/-- The register of a read port samples a row in a cycle. -/
def Samples (memory : Memory) (value : Net → Trit) (p : Nat) (register : Register) (row : Nat) : Prop :=
  ∃ port, memory.readPorts[p]? = some port ∧ port.register = some register ∧ register.clock.isConst = false ∧
    register.enable.active (value register.enable.net) = .one ∧ memory.Selects (port.addr.map value) row

/-- What the write ports offer to a bit, as a register sees it. -/
def shownOffers (memory : Memory) (value : Net → Trit) (row place : Nat) (visibility : List Visibility) :
    List BitOffer :=
  ((memory.writePorts.map (memory.offer value row)).zip visibility).map fun entry =>
    entry.2.shown (entry.1.bitOffer place)

theorem getElem?_shownOffers {j : Nat} {shown : BitOffer} :
    (memory.shownOffers value row place visibility)[j]? = some shown ↔
      ∃ port seen, memory.writePorts[j]? = some port ∧ visibility[j]? = some seen ∧
        seen.shown ((memory.offer value row port).bitOffer place) = shown := by
  unfold shownOffers
  rw [List.getElem?_map, Option.map_eq_some_iff]
  constructor
  · rintro ⟨⟨write, seen⟩, both, rfl⟩
    obtain ⟨at_write, at_seen⟩ := List.getElem?_zip_eq_some.mp both
    rw [List.getElem?_map, Option.map_eq_some_iff] at at_write
    obtain ⟨port, at_port, rfl⟩ := at_write
    exact ⟨port, seen, at_port, at_seen, rfl⟩
  · rintro ⟨port, seen, at_port, at_seen, rfl⟩
    refine ⟨(memory.offer value row port, seen), List.getElem?_zip_eq_some.mpr ⟨?_, at_seen⟩, rfl⟩
    rw [List.getElem?_map, at_port, Option.map_some]

/-- A port that does not write a bit offers nothing there. -/
theorem mask_of_not_writesBit (sized : memory.Sized) (inside : place < memory.width)
    (idle : ¬ memory.WritesBit value row place port) :
    ((memory.offer value row port).bitOffer place).mask = .zero := by
  rw [← active_bitOffer_offer sized inside] at idle
  simpa [BitOffer.active] using idle

theorem shown_mask_of_zero {offer : BitOffer} (idle : offer.mask = .zero) (seen : Visibility) :
    (seen.shown offer).mask = .zero := by
  cases seen with
  | before => rfl
  | after => exact idle
  | undefined => exact idle

/-- A port leaves a bit alone if it does not write there, if the write is not seen, or if it is seen to put the same
bit there. -/
theorem keeps_shown_iff (sized : memory.Sized) (inside : place < memory.width) (known : bit ≠ .unknown) :
    (seen.shown ((memory.offer value row port).bitOffer place)).Keeps bit ↔
      (memory.WritesBit value row place port → seen = .before ∨ seen = .after ∧ port.dataBit value place = bit) := by
  by_cases writes : memory.WritesBit value row place port
  · have active := writes.2.2
    rw [writes.bitOffer_offer sized inside]
    cases seen with
    | before => simp [Visibility.shown, BitOffer.Keeps]
    | after => simp [Visibility.shown, BitOffer.Keeps, WritePort.bitOffer, writes, active]
    | undefined => simp [Visibility.shown, BitOffer.Keeps, WritePort.bitOffer, writes, active, known.symm]
  · have idle := shown_mask_of_zero (mask_of_not_writesBit sized inside writes) seen
    exact ⟨fun _ writes' => absurd writes' writes, fun _ => Or.inl idle⟩

theorem shown_eq_certain_iff (sized : memory.Sized) (inside : place < memory.width) (known : bit ≠ .unknown) :
    seen.shown ((memory.offer value row port).bitOffer place) = ⟨.one, bit⟩ ↔
      seen = .after ∧ memory.WritesBit value row place port ∧ port.maskBit value place = .one ∧
        port.dataBit value place = bit := by
  by_cases writes : memory.WritesBit value row place port
  · rw [writes.bitOffer_offer sized inside]
    cases seen with
    | before => simp [Visibility.shown]
    | after => simp [Visibility.shown, WritePort.bitOffer, writes]
    | undefined => simp [Visibility.shown, known.symm]
  · have idle := shown_mask_of_zero (mask_of_not_writesBit sized inside writes) seen
    constructor
    · intro certain
      rw [certain] at idle
      cases idle
    · rintro ⟨_, writes', _⟩
      exact absurd writes' writes

theorem keepFrom_shownOffers (sized : memory.Sized) (inside : place < memory.width) (known : bit ≠ .unknown)
    {start : Nat} :
    Trit.KeepFrom start (memory.shownOffers value row place visibility) bit ↔
      memory.KeepsFrom value row place visibility start bit := by
  constructor
  · intro keep j port seen behind at_port at_seen
    refine (keeps_shown_iff sized inside known).mp (keep j _ behind ?_)
    exact getElem?_shownOffers.mpr ⟨port, seen, at_port, at_seen, rfl⟩
  · intro keeps j offer behind found
    obtain ⟨port, seen, at_port, at_seen, rfl⟩ := getElem?_shownOffers.mp found
    exact (keeps_shown_iff sized inside known).mpr (keeps j port seen behind at_port at_seen)

theorem certain_shownOffers_iff (sized : memory.Sized) (inside : place < memory.width) (known : bit ≠ .unknown)
    {j : Nat} :
    (memory.shownOffers value row place visibility)[j]? = some ⟨.one, bit⟩ ↔
      memory.Gives value row place visibility j bit := by
  rw [getElem?_shownOffers]
  constructor
  · rintro ⟨port, seen, at_port, at_seen, certain⟩
    obtain ⟨rfl, gives⟩ := (shown_eq_certain_iff sized inside known).mp certain
    exact ⟨port, at_port, at_seen, gives⟩
  · rintro ⟨port, at_port, at_seen, gives⟩
    exact ⟨port, .after, at_port, at_seen, (shown_eq_certain_iff sized inside known).mpr ⟨rfl, gives⟩⟩

/-- A register that samples a row takes each bit of it through all offers. -/
theorem bitAt_sampled (sized : memory.Sized) (full : memory.FullRows rows) (inside : row < memory.depth) :
    (sampled (memory.rowWrites value) visibility row (rows.getD row [])).bitAt place =
      Trit.overlay (bitOf rows row place) (memory.shownOffers value row place visibility) := by
  have wide := full.getD inside
  rw [sampled_rowWrites sized value visibility row wide]
  exact bitAt_observeAll wide
    (fun entry member => sized.fits_offers value row entry.1 (List.of_mem_zip member).1) place

/-- The known bits that a register samples are those that it makes out. -/
theorem bitAt_sampled_eq_iff (sized : memory.Sized) (full : memory.FullRows rows) (inside : row < memory.depth)
    (within : place < memory.width) (known : bit ≠ .unknown) :
    (sampled (memory.rowWrites value) visibility row (rows.getD row [])).bitAt place = bit ↔
      memory.MakesOut value row place visibility (bitOf rows row place) bit := by
  rw [bitAt_sampled sized full inside, Trit.overlay_eq_iff known, keepFrom_shownOffers sized within known]
  simp only [keepFrom_shownOffers sized within known, certain_shownOffers_iff sized within known]
  rfl

theorem bitAt_sampled_eq_unknown_iff (sized : memory.Sized) (full : memory.FullRows rows)
    (inside : row < memory.depth) (within : place < memory.width) :
    (sampled (memory.rowWrites value) visibility row (rows.getD row [])).bitAt place = .unknown ↔
      ∀ bit, bit ≠ .unknown → ¬ memory.MakesOut value row place visibility (bitOf rows row place) bit := by
  constructor
  · intro unknown bit known makesOut
    rw [← bitAt_sampled_eq_iff sized full inside within known, unknown] at makesOut
    exact known makesOut.symm
  · intro none
    by_contra known
    exact none _ known ((bitAt_sampled_eq_iff sized full inside within known).mp rfl)

theorem shownOffers_of_transparent (transparent : ∀ seen ∈ visibility, seen = .after)
    (ordered : memory.writePorts.length = visibility.length) : memory.shownOffers value row place visibility =
      (memory.writePorts.map (memory.offer value row)).map (·.bitOffer place) := by
  have listed : ((memory.writePorts.map (memory.offer value row)).zip visibility).map Prod.fst =
      memory.writePorts.map (memory.offer value row) :=
    List.map_fst_zip (by rw [List.length_map, ordered])
  rw [← listed, List.map_map]
  refine List.map_congr_left fun entry member => ?_
  rw [transparent entry.2 (List.of_mem_zip member).2]
  rfl

/-- Where no two ports meet, a register that sees all writes samples the bit that is committed. -/
theorem bitAt_sampled_of_uncontested (sized : memory.Sized) (full : memory.FullRows rows)
    (inside : row < memory.depth) (within : place < memory.width)
    (transparent : ∀ seen ∈ visibility, seen = .after) (ordered : memory.writePorts.length = visibility.length)
    (few : (memory.writersOf value row place).length ≤ 1) :
    (sampled (memory.rowWrites value) visibility row (rows.getD row [])).bitAt place =
      bitOf (memory.nextRows value rows) row place := by
  rw [bitAt_sampled sized full inside, shownOffers_of_transparent transparent ordered,
    full.bitOf_next sized inside within]
  apply Trit.overlay_eq_contend
  rwa [active_offers sized within, List.length_map]

/-- A register that sees all writes samples the row as it is after the cycle, unless it makes out a bit on which
several ports meet. -/
theorem sampled_eq_next_iff (sized : memory.Sized) (full : memory.FullRows rows) (inside : row < memory.depth)
    (transparent : ∀ seen ∈ visibility, seen = .after) (ordered : memory.writePorts.length = visibility.length) :
    sampled (memory.rowWrites value) visibility row (rows.getD row []) = (memory.nextRows value rows).getD row [] ↔
      ∀ place < memory.width, 2 ≤ (memory.writersOf value row place).length → ∀ bit, bit ≠ .unknown →
        ¬ memory.MakesOut value row place visibility (bitOf rows row place) bit := by
  have contested (place : Nat) (within : place < memory.width)
      (several : 2 ≤ (memory.writersOf value row place).length) :
      bitOf (memory.nextRows value rows) row place = .unknown :=
    (full.commitsBit sized inside within).contested several
  constructor
  · -- the row shows no known bit where ports meet, so the register may not make one out
    intro same place within several
    rw [← bitAt_sampled_eq_unknown_iff sized full inside within, same]
    exact contested place within several
  · intro unknown
    have wide : (sampled (memory.rowWrites value) visibility row (rows.getD row [])).length = memory.width :=
      length_sampled (fun _ member => sized.fits value member) visibility row (full.getD inside)
    refine Bits.eq_of_bitAt (wide.trans ((full.next sized value).getD inside).symm) fun place within => ?_
    rw [wide] at within
    by_cases few : (memory.writersOf value row place).length ≤ 1
    · exact bitAt_sampled_of_uncontested sized full inside within transparent ordered few
    · have several : 2 ≤ (memory.writersOf value row place).length := by omega
      rw [(bitAt_sampled_eq_unknown_iff sized full inside within).mpr (unknown place within several)]
      exact (contested place within several).symm

/-- A bit written by a port of which the register sees nothing known is sampled as unknown, unless a later port puts a
known bit there. -/
theorem bitAt_sampled_of_undefined (sized : memory.Sized) (full : memory.FullRows rows) (inside : row < memory.depth)
    (within : place < memory.width) {k : Nat} (at_port : memory.writePorts[k]? = some port)
    (undefined : visibility[k]? = some .undefined) (writes : memory.WritesBit value row place port) :
    (sampled (memory.rowWrites value) visibility row (rows.getD row [])).bitAt place = .unknown ↔
      ∀ j > k, ∀ bit, bit ≠ .unknown → ¬ memory.LastGives value row place visibility j bit := by
  have blocked {start : Nat} {bit : Trit} (before : start ≤ k) :
      ¬ memory.KeepsFrom value row place visibility start bit := by
    intro keeps
    rcases keeps k port .undefined before at_port undefined writes with absent | ⟨absent, _⟩
    · cases absent
    · cases absent
  rw [bitAt_sampled_eq_unknown_iff sized full inside within]
  constructor
  · intro none j _ bit known gives
    exact none bit known (Or.inr ⟨j, gives⟩)
  · rintro none bit known (⟨_, keeps⟩ | ⟨j, gives, keeps⟩)
    · exact blocked (Nat.zero_le k) keeps
    · -- a port up to `k` would have the one at `k` in its way, and that one is not seen itself
      have ⟨_, _, seen, _⟩ := gives
      have other : j ≠ k := by
        rintro rfl
        cases seen.symm.trans undefined
      have behind : ¬ j + 1 ≤ k := fun before => blocked before keeps
      exact none j (by omega) bit known ⟨gives, keeps⟩

/-- What a register holds after a cycle in which it samples a row. -/
theorem Samples.held_next {contents : Contents} {p : Nat} {register : Register}
    (samples : memory.Samples value p register row) (sized : memory.Sized) (aligned : memory.Aligned contents)
    (full : memory.FullRows contents.rows) :
    (memory.nextContents value contents).held[p]? =
      some (some (sampled (memory.rowWrites value) register.visibility row (contents.rows.getD row []))) := by
  obtain ⟨port, at_port, registered, clocked, enabled, selects⟩ := samples
  obtain ⟨held, at_held, both⟩ := aligned.held at_port
  rw [registered] at both
  obtain ⟨word, rfl⟩ := Option.isSome_iff_exists.mp both
  unfold nextContents
  dsimp only
  have entry : (memory.readPorts.zip contents.held)[p]? = some (port, some word) :=
    List.getElem?_zip_eq_some.mpr ⟨at_port, at_held⟩
  rw [List.getElem?_map, entry, Option.map_some]
  simp only [registered,
    full.nextHeld_of_selects sized (List.mem_of_getElem? at_port) clocked enabled selects]

end Memory

namespace Netlist

variable {netlist : Netlist} {state next : State} {actions : List Action} {memory : Memory} {index p row : Nat}
  {register : Register}

/-- What a memory holds after a cycle in which a register of it samples a row. -/
theorem step_samples (reached : netlist.Reached) (run : netlist.performFromStart actions = .ok state)
    (done : netlist.step state = .ok next) (found : netlist.cell? index = some (.memory memory))
    (samples : memory.Samples (netlist.valueIn state) p register row) :
    ∃ before after, state.contentsAt index = some before ∧ next.contentsAt index = some after ∧
      memory.FullRows before.rows ∧ after.rows = memory.nextRows (netlist.valueIn state) before.rows ∧
      after.held[p]? = some (some (Memory.sampled (memory.rowWrites (netlist.valueIn state)) register.visibility row
        (before.rows.getD row []))) := by
  have aligned := aligned_performFromStart run
  obtain ⟨before, held, full⟩ := full_performFromStart reached run found
  refine ⟨before, memory.nextContents (netlist.valueIn state) before, held, ?_, full, rfl, ?_⟩
  · rw [step_eq aligned done]
    exact contentsAt_nextState _ found held
  · exact samples.held_next (reached.checkedMemory found).sized (aligned index memory before found held) full

theorem readRow_of_full (found : netlist.cell? index = some (.memory memory)) {contents : Contents}
    (held : state.contentsAt index = some contents) (full : memory.FullRows contents.rows)
    (inside : row < memory.depth) : netlist.readRow state (.slot index) row = .ok (contents.rows.getD row []) := by
  obtain ⟨word, at_row, _⟩ := full row inside
  unfold readRow
  rw [(driver_of_cell found).2]
  simp [held, Positions.get, at_row, Array.getD_eq_getD_getElem?, bind, Except.bind]

/-- A port that writes a bit to a memory of a single row. -/
def contender (data : Trit) : WritePort := ⟨[], [.const data], [.const .one], .high (.slot 0)⟩

def contestRegister (seen : List Visibility) : Register := ⟨.high (.slot 0), .high .one, [.unknown], seen⟩

/-- A memory of one row of one bit, with a clocked read port and one that is not. -/
def contestMemory (writePorts : List WritePort) (seen : List Visibility) : Memory where
  depth := 1
  width := 1
  init := [.unknown]
  attributes := []
  writePorts
  readPorts := [⟨[], 1, some (contestRegister seen)⟩, ⟨[], 1, none⟩]

def contest (writePorts : List WritePort) (seen : List Visibility) : Netlist := alone (contestMemory writePorts seen)

/-- Both ports write the bit, and differ in what they write. -/
def contenders : List WritePort := [contender .zero, contender .one]

/-- The clocked read port of a contest samples the row in each cycle. -/
theorem samples_contest {writePorts : List WritePort} {seen : List Visibility} {value : Net → Trit}
    (one : value (.const .one) = .one) :
    (contestMemory writePorts seen).Samples value 0 (contestRegister seen) 0 :=
  ⟨_, rfl, rfl, rfl, one, Nat.one_pos, Bits.denotes_nil_iff.mpr rfl⟩

/-- A register that sees all writes holds the row as it is after the cycle, unless it makes out a bit on which several
ports meet. -/
theorem transparent_read_iff (reached : netlist.Reached) (run : netlist.performFromStart actions = .ok state)
    (done : netlist.step state = .ok next) (found : netlist.cell? index = some (.memory memory))
    (samples : memory.Samples (netlist.valueIn state) p register row)
    (transparent : ∀ seen ∈ register.visibility, seen = .after) :
    ∃ before after word new, state.contentsAt index = some before ∧ next.contentsAt index = some after ∧
      after.held[p]? = some (some word) ∧ netlist.readRow next (.slot index) row = .ok new ∧
      (word = new ↔ ∀ place < memory.width, 2 ≤ (memory.writersOf (netlist.valueIn state) row place).length →
        ∀ bit, bit ≠ .unknown → ¬ memory.MakesOut (netlist.valueIn state) row place register.visibility
          (Memory.bitOf before.rows row place) bit) := by
  have checked := reached.checkedMemory found
  obtain ⟨before, after, held, held', full, rows, sampled⟩ := step_samples reached run done found samples
  obtain ⟨port, at_port, registered, _, _, inside, _⟩ := samples
  have fits := checked.registers port (List.mem_of_getElem? at_port) register registered
  have full' : memory.FullRows after.rows := rows ▸ full.next checked.sized _
  refine ⟨before, after, _, _, held, held', sampled, readRow_of_full found held' full' inside, ?_⟩
  rw [rows]
  exact Memory.sampled_eq_next_iff checked.sized full inside transparent fits.visibility.symm

/-- A contest that the clocked read port sees. -/
def rivals : Netlist := contest contenders [.after, .after]

theorem reached_rivals : rivals.Reached :=
  ⟨aloneRevisions (contestMemory contenders [.after, .after]), eq_ok_of_isOk (by decide +kernel) .empty⟩

theorem started_rivals : rivals.performFromStart [] = .ok (.initial rivals) := by decide +kernel

theorem done_rivals : rivals.step (.initial rivals) = .ok rivals.afterCycle :=
  step_eq_afterCycle (by decide +kernel)

theorem found_rivals : rivals.cell? 1 = some (.memory (contestMemory contenders [.after, .after])) := by
  decide +kernel

theorem contentsAt_rivals :
    rivals.afterCycle.contentsAt 1 = some ⟨#[[.unknown]], [some [.one], none]⟩ := by decide +kernel

theorem samples_rivals : (contestMemory contenders [.after, .after]).Samples (rivals.valueIn (.initial rivals)) 0
    (contestRegister [.after, .after]) 0 := samples_contest (by decide +kernel)

theorem rivals_read : rivals.Reached ∧ rivals.performFromStart [] = .ok (.initial rivals) ∧
    rivals.step (.initial rivals) = .ok rivals.afterCycle ∧
    rivals.cell? 1 = some (.memory (contestMemory contenders [.after, .after])) ∧
    (contestMemory contenders [.after, .after]).Samples (rivals.valueIn (.initial rivals)) 0
      (contestRegister [.after, .after]) 0 ∧
    (∀ seen ∈ (contestRegister [.after, .after]).visibility, seen = .after) ∧
    ∃ before after word new, (State.initial rivals).contentsAt 1 = some before ∧
      rivals.afterCycle.contentsAt 1 = some after ∧ after.held[0]? = some (some word) ∧
      rivals.readRow rivals.afterCycle (.slot 1) 0 = .ok new ∧
      (word = new ↔ ∀ place < 1,
        2 ≤ ((contestMemory contenders [.after, .after]).writersOf (rivals.valueIn (.initial rivals)) 0 place).length →
        ∀ bit, bit ≠ .unknown → ¬ (contestMemory contenders [.after, .after]).MakesOut
          (rivals.valueIn (.initial rivals)) 0 place [.after, .after] (Memory.bitOf before.rows 0 place) bit) := by
  have transparent : ∀ seen ∈ (contestRegister [.after, .after]).visibility, seen = .after := by decide
  exact ⟨reached_rivals, started_rivals, done_rivals, found_rivals, samples_rivals, transparent,
    transparent_read_iff reached_rivals started_rivals done_rivals found_rivals samples_rivals transparent⟩

/-- The register holds what the last port writes, and the row an unknown bit. -/
theorem rivals_disagree : rivals.Reached ∧ rivals.performFromStart [] = .ok (.initial rivals) ∧
    rivals.step (.initial rivals) = .ok rivals.afterCycle ∧
    rivals.cell? 1 = some (.memory (contestMemory contenders [.after, .after])) ∧
    (contestMemory contenders [.after, .after]).Samples (rivals.valueIn (.initial rivals)) 0
      (contestRegister [.after, .after]) 0 ∧
    (∀ seen ∈ (contestRegister [.after, .after]).visibility, seen = .after) ∧
    (∃ after, rivals.afterCycle.contentsAt 1 = some after ∧ after.held[0]? = some (some [.one])) ∧
    rivals.readRow rivals.afterCycle (.slot 1) 0 = .ok [.unknown] := by
  have row : rivals.readRow rivals.afterCycle (.slot 1) 0 = .ok [.unknown] := by decide +kernel
  exact ⟨reached_rivals, started_rivals, done_rivals, found_rivals, samples_rivals, by decide,
    ⟨_, contentsAt_rivals, rfl⟩, row⟩

/-- After a cycle a register holds nothing known of a bit that was written by a port of which it sees nothing known,
unless a later port put a known bit there. -/
theorem undefined_read_iff (reached : netlist.Reached) (run : netlist.performFromStart actions = .ok state)
    (done : netlist.step state = .ok next) (found : netlist.cell? index = some (.memory memory))
    (samples : memory.Samples (netlist.valueIn state) p register row) {k place : Nat} {writer : WritePort}
    (at_writer : memory.writePorts[k]? = some writer) (undefined : register.visibility[k]? = some .undefined)
    (within : place < memory.width) (writes : memory.WritesBit (netlist.valueIn state) row place writer) :
    ∃ after word, next.contentsAt index = some after ∧ after.held[p]? = some (some word) ∧
      (word.bitAt place = .unknown ↔ ∀ j > k, ∀ bit, bit ≠ .unknown →
        ¬ memory.LastGives (netlist.valueIn state) row place register.visibility j bit) := by
  have checked := reached.checkedMemory found
  obtain ⟨before, after, _, held', full, _, sampled⟩ := step_samples reached run done found samples
  have inside := writes.2.1.1
  exact ⟨after, _, held', sampled,
    Memory.bitAt_sampled_of_undefined checked.sized full inside within at_writer undefined writes⟩

/-- A contest of which the clocked read port sees nothing known of the first port. -/
def blurred : Netlist := contest contenders [.undefined, .after]

theorem reached_blurred : blurred.Reached :=
  ⟨aloneRevisions (contestMemory contenders [.undefined, .after]), eq_ok_of_isOk (by decide +kernel) .empty⟩

theorem started_blurred : blurred.performFromStart [] = .ok (.initial blurred) := by decide +kernel

theorem done_blurred : blurred.step (.initial blurred) = .ok blurred.afterCycle :=
  step_eq_afterCycle (by decide +kernel)

theorem found_blurred : blurred.cell? 1 = some (.memory (contestMemory contenders [.undefined, .after])) := by
  decide +kernel

theorem samples_blurred : (contestMemory contenders [.undefined, .after]).Samples
    (blurred.valueIn (.initial blurred)) 0 (contestRegister [.undefined, .after]) 0 :=
  samples_contest (by decide +kernel)

theorem writes_blurred : (contestMemory contenders [.undefined, .after]).WritesBit
    (blurred.valueIn (.initial blurred)) 0 0 (contender .zero) := by decide +kernel

theorem blurred_read : blurred.Reached ∧ blurred.performFromStart [] = .ok (.initial blurred) ∧
    blurred.step (.initial blurred) = .ok blurred.afterCycle ∧
    blurred.cell? 1 = some (.memory (contestMemory contenders [.undefined, .after])) ∧
    (contestMemory contenders [.undefined, .after]).Samples (blurred.valueIn (.initial blurred)) 0
      (contestRegister [.undefined, .after]) 0 ∧
    (contestMemory contenders [.undefined, .after]).WritesBit (blurred.valueIn (.initial blurred)) 0 0
      (contender .zero) ∧
    ∃ after word, blurred.afterCycle.contentsAt 1 = some after ∧ after.held[0]? = some (some word) ∧
      (word.bitAt 0 = .unknown ↔ ∀ j > 0, ∀ bit, bit ≠ .unknown →
        ¬ (contestMemory contenders [.undefined, .after]).LastGives (blurred.valueIn (.initial blurred)) 0 0
          [.undefined, .after] j bit) := by
  exact ⟨reached_blurred, started_blurred, done_blurred, found_blurred, samples_blurred, writes_blurred,
    undefined_read_iff reached_blurred started_blurred done_blurred found_blurred samples_blurred rfl rfl Nat.one_pos
      writes_blurred⟩

/-- The register makes out the bit that the second port writes. -/
theorem blurred_shows : blurred.Reached ∧ blurred.performFromStart [] = .ok (.initial blurred) ∧
    blurred.step (.initial blurred) = .ok blurred.afterCycle ∧
    blurred.cell? 1 = some (.memory (contestMemory contenders [.undefined, .after])) ∧
    (contestMemory contenders [.undefined, .after]).Samples (blurred.valueIn (.initial blurred)) 0
      (contestRegister [.undefined, .after]) 0 ∧
    (contestMemory contenders [.undefined, .after]).WritesBit (blurred.valueIn (.initial blurred)) 0 0
      (contender .zero) ∧
    (contender .zero).maskBit (blurred.valueIn (.initial blurred)) 0 = .one ∧
    ∃ after, blurred.afterCycle.contentsAt 1 = some after ∧ after.held[0]? = some (some [.one]) := by
  have after : blurred.afterCycle.contentsAt 1 = some ⟨#[[.unknown]], [some [.one], none]⟩ := by decide +kernel
  exact ⟨reached_blurred, started_blurred, done_blurred, found_blurred, samples_blurred, writes_blurred,
    by decide +kernel, _, after, rfl⟩

end Netlist

end BankedMemory
