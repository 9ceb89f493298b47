import BankedMemory.Proofs.Census.Networks
import BankedMemory.Proofs.Construction.Lifecycle
import BankedMemory.Proofs.Embedding.SingleWriter

/-!
# Memories of too many bits

A shape is accepted whatever the product of its depth and width is, and the product is formed only when the first bank
is built. By then the declarations have ended. So the number of bits decides what becomes of a build: a memory whose
bits cannot be counted is declared, but never built.
-/

namespace BankedMemory

/-- The fault that comes of a memory with more bits than sizes can count, of which some are not given. These may just be
countable, but there is no room for them. -/
def Size.oversized (missing : Nat) : Fault :=
  if Bits.maxWidth < missing ∧ missing < Size.bound then .tooLarge else .multiplicationOverflow

open Storage Storage.Build Size

theorem Memory.check_of_large {memory : Memory} (large : ¬ memory.depth * memory.width < Size.bound) :
    memory.check = .error .multiplicationOverflow :=
  not_not.mp (Memory.inRange_check_iff.not.mpr large)

namespace Storage

namespace Blueprint

variable {blueprint : Blueprint}

/-- The fault comes of the initial word, or else of the check of a bank. -/
theorem initialWord_cases (blueprint : Blueprint) : blueprint.initialWord = .error (oversized blueprint.missing) ∨
    oversized blueprint.missing = .multiplicationOverflow ∧ ∃ init, blueprint.initialWord = .ok init := by
  by_cases countable : blueprint.missing < Size.bound
  · by_cases room : blueprint.missing ≤ Bits.maxWidth
    · right
      exact ⟨if_neg fun outside => Nat.not_lt.mpr room outside.1, _, initialWord_of_le room⟩
    · left
      rw [oversized, if_pos ⟨Nat.not_le.mp room, countable⟩, initialWord_of_lt countable (Nat.not_le.mp room)]
  · left
    rw [oversized, if_neg fun both => countable both.2]
    exact not_not.mp (inRange_initialWord_iff.not.mpr countable)

/-- A build halts that forms the initial word of an oversized memory and goes on to add a bank of it. -/
theorem stops_initialWord {α : Type} {rest : Bits → Build α} {bench : Workbench}
    (h : ∀ init, Stops (rest init) bench (· = .fault .multiplicationOverflow)) :
    Stops (ofFault blueprint.initialWord >>= rest) bench (· = .fault (oversized blueprint.missing)) := by
  rcases blueprint.initialWord_cases with failed | ⟨overflow, init, made⟩
  · exact stops_bind_left (stops_ofFault failed rfl)
  · rw [overflow]
    exact stops_bind_right (ends_ofFault.mpr ⟨made, rfl⟩) (h init)

end Blueprint

namespace Replicated

variable {memory : Replicated} {bench after : Workbench}

/-- A memory of banks that is built has bits that can be counted. -/
theorem sized_of_ends {assembly : Assembly} (some_bank : memory.expectedBanks ≠ 0)
    (ended : Ends memory.assemble bench assembly after) : memory.ports.blueprint.Sized := by
  unfold assemble at ended
  obtain ⟨_, _, _, ended⟩ := ends_bind.mp ended
  obtain ⟨port, _, _, ended⟩ := ends_bind.mp ended
  obtain ⟨banks, _, added, _⟩ := ends_bind.mp ended
  unfold addBanks at added
  have some_reader : memory.ports.readers ≠ [] := List.length_eq_zero_iff.not.mp some_bank
  simp only [List.isEmpty_eq_false_iff.mpr some_reader, Bool.false_eq_true, if_false] at added
  obtain ⟨init, _, _, added⟩ := ends_bind.mp added
  have each := ends_mapM added
  cases readers : memory.ports.readers with
  | nil => exact absurd readers some_reader
  | cons reader others =>
    rw [readers, List.zipIdx_cons] at each
    obtain ⟨_, _, ⟨_, _, first⟩, _⟩ := List.forall₂_cons_left_iff.mp each
    unfold addBank at first
    obtain ⟨bank, _, built, first⟩ := ends_bind.mp first
    obtain ⟨output, _, placed, _⟩ := ends_bind.mp first
    obtain ⟨found, _⟩ := ends_ofFault.mp built
    obtain ⟨_, rfl⟩ := bank_eq_ok_iff.mp found
    exact (Memory.check_eq_ok_iff.mp (ends_add.mp placed).1.1).bounded

theorem sized_of_build {assembly : Assembly} (some_bank : memory.expectedBanks ≠ 0)
    (ended : Ends memory.build bench assembly after) : memory.ports.blueprint.Sized := by
  obtain ⟨ports, _, closed, ended⟩ := ends_bind.mp ended
  obtain rfl := Ports.eq_of_freeze (ends_ofRefusal.mp closed).1
  exact sized_of_ends some_bank ended

variable (large : ¬ memory.ports.blueprint.Sized) (row : memory.ports.blueprint.width ≤ Bus.maxWidth)
include large row

theorem stops_addBanks (port : WritePort) (some_bank : memory.expectedBanks ≠ 0) :
    Stops (memory.addBanks port) bench (· = .fault (oversized memory.ports.blueprint.missing)) := by
  unfold addBanks
  cases readers : memory.ports.readers with
  | nil => exact absurd (congrArg List.length readers) some_bank
  | cons reader others =>
    refine Blueprint.stops_initialWord fun init => ?_
    rw [List.zipIdx_cons, List.mapM_cons]
    refine stops_bind_left ?_
    have built := bank_eq_ok_iff.mpr ⟨Nat.le_trans row (by decide), (rfl : memory.replica port init reader = _)⟩
    refine stops_bind_right (ends_ofFault.mpr ⟨built, rfl⟩) (stops_bind_left ?_)
    exact stops_add (Memory.check_of_large large) rfl

theorem stops_assemble (sound : memory.ports.Sound) (some_bank : memory.expectedBanks ≠ 0)
    (address : memory.ports.blueprint.addressWidth ≤ Bus.maxWidth) :
    Stops memory.assemble bench (· = .fault (oversized memory.ports.blueprint.missing)) := by
  obtain ⟨port, between, ended, _⟩ := costs_writePort sound address row bench (Or.inl rfl)
  unfold assemble
  refine stops_bind_right (ends_ofRefusal.mpr ⟨sound.verify, rfl⟩) (stops_bind_right ended (stops_bind_left ?_))
  exact stops_addBanks large row port some_bank

theorem stops_build (opened : memory.ports.frozen = false) (sound : memory.ports.Sound)
    (some_bank : memory.expectedBanks ≠ 0) (address : memory.ports.blueprint.addressWidth ≤ Bus.maxWidth) :
    Stops memory.build bench (· = .fault (oversized memory.ports.blueprint.missing)) := by
  unfold build
  refine stops_bind_right (ends_ofRefusal.mpr ⟨Ports.freeze_of_open opened, rfl⟩) ?_
  exact @stops_assemble { memory with ports := { memory.ports with frozen := true } } _ large row sound.frozen some_bank
    address

end Replicated

namespace XorNetwork

variable {network : XorNetwork} {lanes : List Lane} {bench after : Workbench}

/-- Of several lanes the first one has a relay to another lane. -/
theorem exists_first_relay (several : 1 < lanes.length) : ∃ lane others sink sinks,
    lanes.zipIdx = (lane, 0) :: others ∧ otherLanes lanes 0 = sink :: sinks := by
  obtain ⟨sink, sinks, relayed⟩ := List.exists_cons_of_length_pos
    (show 0 < (otherLanes lanes 0).length by rw [length_otherLanes] <;> omega)
  cases lanes with
  | nil => cases several
  | cons lane rest => exact ⟨lane, _, sink, sinks, List.zipIdx_cons, relayed⟩

theorem sized_of_relays {relays result : Relays} (several : 1 < lanes.length)
    (ended : Ends (lanes.zipIdx.foldlM (network.addRelays lanes) relays) bench result after) :
    network.ports.blueprint.Sized := by
  obtain ⟨lane, others, sink, sinks, numbered, relayed⟩ := exists_first_relay several
  rw [numbered, List.foldlM_cons] at ended
  obtain ⟨_, _, first, _⟩ := ends_bind.mp ended
  unfold addRelays at first
  simp only [relayed] at first
  obtain ⟨init, _, _, first⟩ := ends_bind.mp first
  rw [List.foldlM_cons] at first
  obtain ⟨_, _, first, _⟩ := ends_bind.mp first
  obtain ⟨_, _, placed, _⟩ := ends_bind.mp first
  exact (Memory.check_eq_ok_iff.mp (ends_add.mp placed).1.1).bounded

theorem writers_of_expectedBanks (some_bank : network.expectedBanks ≠ 0) : network.ports.writers ≠ [] := by
  intro no_writer
  rw [expectedBanks, no_writer] at some_bank
  exact some_bank (Nat.zero_mul _)

/-- A network of banks that is built has bits that can be counted. -/
theorem sized_of_ends {assembly : Assembly} (some_bank : network.expectedBanks ≠ 0)
    (ended : Ends network.assemble bench assembly after) : network.ports.blueprint.Sized := by
  have some_writer := writers_of_expectedBanks some_bank
  unfold assemble at ended
  obtain ⟨_, _, _, ended⟩ := ends_bind.mp ended
  obtain ⟨_, _, _, ended⟩ := ends_bind.mp ended
  simp only [List.isEmpty_eq_false_iff.mpr some_writer, Bool.false_eq_true, if_false] at ended
  unfold assembleLanes at ended
  obtain ⟨masks, _, masked, ended⟩ := ends_bind.mp ended
  obtain ⟨placeholders, _, placed, ended⟩ := ends_bind.mp ended
  obtain ⟨relays, _, collected, ended⟩ := ends_bind.mp ended
  obtain ⟨_, _, _, ended⟩ := ends_bind.mp ended
  obtain ⟨groups, _, grouped, _⟩ := ends_bind.mp ended
  have full := length_lanesOf masked placed
  rcases expectedBanks_ne_zero_iff.mp some_bank with several | ⟨_, some_reader⟩
  · exact sized_of_relays (full ▸ several) collected
  · have each := ends_mapM grouped
    obtain ⟨lane, rest, lanes⟩ := List.exists_cons_of_length_pos (full ▸ List.length_pos_iff.mpr some_writer)
    change List.Forall₂ _ (lanesOf network.ports.writers masks placeholders).zipIdx groups at each
    rw [lanes, List.zipIdx_cons] at each
    obtain ⟨_, _, ⟨_, _, added⟩, _⟩ := List.forall₂_cons_left_iff.mp each
    obtain ⟨group, _, declared, built⟩ := ends_bind.mp (ends_refuseAs.mp added)
    have of_group := grouped_of_group (ends_ofRefusal.mp declared).1
    have some_replica : group.expectedBanks ≠ 0 := by
      rw [of_group.expectedBanks_eq]
      exact List.length_eq_zero_iff.not.mpr some_reader
    have sized := Replicated.sized_of_build some_replica built
    rwa [of_group.blueprint, sized_groupBlueprint] at sized

section Large

variable (large : ¬ network.ports.blueprint.Sized)
include large

theorem stops_relays (several : 1 < lanes.length) (relays : Relays) :
    Stops (lanes.zipIdx.foldlM (network.addRelays lanes) relays) bench
      (· = .fault (oversized network.ports.blueprint.missing)) := by
  obtain ⟨lane, others, sink, sinks, numbered, relayed⟩ := exists_first_relay several
  rw [numbered, List.foldlM_cons]
  refine stops_bind_left ?_
  unfold addRelays
  simp only [relayed]
  refine Blueprint.stops_initialWord fun init => ?_
  rw [List.foldlM_cons]
  exact stops_bind_left (stops_bind_left (stops_add (Memory.check_of_large large) rfl))

/-- The initial rows of a network are those of its first group. -/
theorem stops_addGroup (sound : network.ports.Sound) {lane : Lane} (fitting : network.Fitting lane)
    (some_reader : network.ports.readers ≠ []) (row : network.ports.blueprint.width ≤ Bus.maxWidth)
    (address : network.ports.blueprint.addressWidth ≤ Bus.maxWidth) :
    Stops (network.addGroup (lane, 0)) bench (· = .fault (oversized network.ports.blueprint.missing)) := by
  obtain ⟨group, declared, opened, fits⟩ :=
    exists_group sound (show network.Fitting ((lane, 0) : Lane × Nat).1 from fitting)
  have grouped := grouped_of_group declared
  have same : group.ports.blueprint = network.ports.blueprint := grouped.blueprint
  have some_replica : group.expectedBanks ≠ 0 := by
    rw [grouped.expectedBanks_eq]
    exact List.length_eq_zero_iff.not.mpr some_reader
  unfold addGroup
  refine stops_refuseAs (stops_bind_right (ends_ofRefusal.mpr ⟨declared, rfl⟩) ?_)
  rw [← same] at large row address ⊢
  exact Replicated.stops_build large row opened fits some_replica address

/-- Before its first bank a network only adds masks and placeholders, and ties those of a single writer. -/
theorem stops_assembleLanes (sound : network.ports.Sound) (some_bank : network.expectedBanks ≠ 0)
    (row : network.ports.blueprint.width ≤ Bus.maxWidth)
    (address : network.ports.blueprint.addressWidth ≤ Bus.maxWidth)
    (room : bench.netlist.Numbered network.lanesTally.2) (untied : bench.netlist.rewiring = ∅) :
    Stops network.assembleLanes bench (· = .fault (oversized network.ports.blueprint.missing)) := by
  by_cases several : 1 < network.ports.writers.length
  · obtain ⟨masks, placeholders, _, _, masked, placed, _⟩ := exists_lanes sound room
    unfold assembleLanes
    refine stops_bind_right masked (stops_bind_right placed (stops_bind_left ?_))
    exact stops_relays large (length_lanesOf masked placed ▸ several) _
  · obtain ⟨some_writer, some_reader⟩ := (expectedBanks_ne_zero_iff.mp some_bank).resolve_left several
    obtain ⟨writer, only⟩ : ∃ writer, network.ports.writers = [writer] := by
      refine List.length_eq_one_iff.mp ?_
      have positive := List.length_pos_iff.mpr some_writer
      omega
    have fits := sound.writers writer (by simp [only])
    have enough : bench.netlist.Numbered network.ports.blueprint.width := by
      refine room.mono ?_
      simp [lanesTally, only, Tally.placeholders]
    obtain ⟨placeholders, after, placed, spends, wide⟩ :=
      costs_addPlaceholders network.ports.blueprint.width bench enough
    have free (net : Net) : after.netlist.rewiring.target? net = none := by
      rw [spends.rewiring, untied]
      exact Netlist.target?_empty net
    have distinct : placeholders.Nodup := by
      rw [(ends_addPlaceholders.mp placed).2.1]
      exact Bus.nodup_ofSlots _ _
    obtain ⟨tied, rewired, _⟩ :=
      Netlist.exists_rewireBus (wide.trans fits.2.1.symm) distinct fun net _ => free net
    have ties : Ends (Build.rewireBus placeholders writer.data) after () { after with netlist := tied } :=
      ends_rewireBus.mpr ⟨tied, rewired, rfl⟩
    rw [assembleLanes_of_single only]
    refine stops_bind_right placed (stops_bind_right ties (stops_bind_left ?_))
    exact stops_addGroup large sound ⟨fits.1, wide, fits.length_mask⟩ some_reader row address

theorem stops_assemble (sound : network.ports.Sound) (some_bank : network.expectedBanks ≠ 0)
    (row : network.ports.blueprint.width ≤ Bus.maxWidth)
    (address : network.ports.blueprint.addressWidth ≤ Bus.maxWidth)
    (room : bench.netlist.Numbered network.lanesTally.2) (untied : bench.netlist.rewiring = ∅) :
    Stops network.assemble bench (· = .fault (oversized network.ports.blueprint.missing)) := by
  have some_writer : network.ports.writers ≠ [] := writers_of_expectedBanks some_bank
  unfold assemble
  refine stops_bind_right (ends_ofRefusal.mpr ⟨sound.verify, rfl⟩) ?_
  refine stops_bind_right (ends_report.mpr rfl : Ends _ _ () _) ?_
  simp only [List.isEmpty_eq_false_iff.mpr some_writer, Bool.false_eq_true, if_false]
  exact stops_assembleLanes large sound some_bank row address room untied

end Large

end XorNetwork

namespace Engine

variable {engine : Engine} {bench after : Workbench}

/-- The slots that a build takes before its first bank. -/
def preparation : Engine → Nat
  | replicated _ => 0
  | xorNetwork network => network.lanesTally.2

theorem sized_of_ends {assembly : Assembly} (some_bank : engine.expectedBanks ≠ 0)
    (ended : Ends engine.assemble bench assembly after) : engine.ports.blueprint.Sized := by
  cases engine with
  | replicated memory => exact Replicated.sized_of_ends some_bank ended
  | xorNetwork network => exact XorNetwork.sized_of_ends some_bank ended

theorem stops_assemble (sound : engine.ports.Sound) (large : ¬ engine.ports.blueprint.Sized)
    (some_bank : engine.expectedBanks ≠ 0) (row : engine.ports.blueprint.width ≤ Bus.maxWidth)
    (address : engine.ports.blueprint.addressWidth ≤ Bus.maxWidth)
    (room : bench.netlist.Numbered engine.preparation) (untied : bench.netlist.rewiring = ∅) :
    Stops engine.assemble bench (· = .fault (oversized engine.ports.blueprint.missing)) := by
  cases engine with
  | replicated memory => exact Replicated.stops_assemble large row sound some_bank address
  | xorNetwork network => exact XorNetwork.stops_assemble large sound some_bank row address room untied

/-- What the number of bits of a memory makes of a build, if the memory has banks. -/
structure BuildsBySize (engine : Engine) (width depth given : Nat) : Prop where
  /-- Bits that can be counted leave no product to overflow. -/
  counts : depth * width < Size.bound ∨ engine.expectedBanks = 0 → ∀ bench,
    (engine.build bench).1 ≠ .error (.fault .multiplicationOverflow)
  /-- More bits are never refused and never built, and the declarations end all the same. -/
  fails : Size.bound ≤ depth * width → engine.expectedBanks ≠ 0 → ∀ bench, ∃ cause after, engine.build bench =
    (.error (.fault cause), engine.closed, after)
  /-- It is a product that overflows, unless something else has been too large before, or what is added before the
  first bank lacks numbers. -/
  overflows : Size.bound ≤ depth * width → engine.expectedBanks ≠ 0 → width ≤ Bus.maxWidth → ∀ bench,
    bench.netlist.rewiring = ∅ → bench.netlist.Numbered engine.preparation → ∃ after,
      engine.build bench = (.error (.fault (Size.oversized ((depth - given) * width))), engine.closed, after)

/-- The end of the declarations changes neither the shape nor the number of banks. -/
theorem closed_same (engine : Engine) : engine.closed.ports.blueprint = engine.ports.blueprint ∧
    engine.closed.expectedBanks = engine.expectedBanks ∧ engine.closed.preparation = engine.preparation := by
  cases engine <;> exact ⟨rfl, rfl, rfl⟩

theorem buildsBySize_of_open (opened : engine.ports.frozen = false) (sound : engine.ports.Sound)
    (deep : engine.ports.blueprint.depth < Size.bound) : engine.BuildsBySize engine.ports.blueprint.width
      engine.ports.blueprint.depth engine.ports.blueprint.rows.length := by
  have sound_after := sound_closed sound
  obtain ⟨blueprint, banks, preparation⟩ := engine.closed_same
  constructor
  case counts =>
    intro few bench
    rw [build_eq_of_open opened]
    refine (proper_assemble sound_after).ne_overflow ?_ bench
    rw [blueprint, banks]
    exact few
  case fails =>
    intro many some_bank bench
    rw [build_eq_of_open opened]
    rcases ended : engine.closed.assemble.run.run bench with ⟨(cause | cause) | assembly, after⟩
    · exact ⟨cause, after, rfl⟩
    · exact absurd (by rw [ended]) (unrefused_assemble sound_after bench cause)
    · have sized := sized_of_ends (banks ▸ some_bank) ended
      rw [blueprint] at sized
      exact absurd sized (Nat.not_lt.mpr many)
  case overflows =>
    intro many some_bank row bench untied room
    have large : ¬ engine.closed.ports.blueprint.Sized := by
      rw [blueprint]
      exact Nat.not_lt.mpr many
    have address : engine.closed.ports.blueprint.addressWidth ≤ Bus.maxWidth := by
      rw [blueprint]
      exact Nat.le_trans (Size.addressWidth_le (Nat.le_of_lt deep)) (by decide)
    obtain ⟨_, after, stopped, rfl⟩ := stops_assemble sound_after large (banks ▸ some_bank) (blueprint ▸ row) address
      (preparation ▸ room) untied
    rw [build_eq_of_open opened, stopped, blueprint]
    exact ⟨after, rfl⟩

end Engine

/-- Whatever shape and rows are accepted and whatever is declared, the number of bits decides what becomes of a
build. -/
theorem Draft.builds_by_size {width depth : Nat} {rows : List Bits} {start blueprint : Blueprint}
    (shape : Blueprint.ofShape width depth = .ok start) (filled : start.withRows rows = .ok blueprint)
    (deep : depth < Size.bound) (attributes : Table String) (plan : Plan) (calls : List Call) {engine : Engine}
    (declared : (plan.draft { blueprint with attributes }).after calls = .within engine)
    (opened : engine.ports.frozen = false) : engine.BuildsBySize width depth rows.length := by
  have sound := sound_of_plan plan { blueprint with attributes }
  have sound_engine : engine.ports.Sound := by
    have after := sound_after sound calls
    rwa [declared] at after
  have same : engine.ports.blueprint = { blueprint with attributes } := by
    have kept := (shape_after sound calls).1
    rw [declared] at kept
    exact kept.trans (by cases plan <;> rfl)
  obtain ⟨_, _, rfl⟩ := Blueprint.ofShape_eq_ok_iff.mp shape
  obtain rfl := Blueprint.eq_of_withRows filled
  have builds := Engine.buildsBySize_of_open opened sound_engine (by rwa [same])
  rwa [same] at builds

namespace Engine

/-- The shape of a memory of two to the 64th bits, all of them zero. -/
def vastShape : Blueprint := ⟨2, 2 ^ 63, [], []⟩

def vastPlan : Plan := .replicated (.high (.slot 0)) none

/-- A workbench with a clock. -/
def clocked : Workbench := .ofNetlist (Netlist.empty.push (.input "clk" 1)).2

/-- One reader is declared. -/
def vastCalls : List Call := [⟨.reader (.ofNets (List.replicate 63 .zero) .one), clocked⟩]

/-- The memory that comes of the calls. -/
def vast : Engine :=
  .replicated ⟨⟨vastShape, [.ofNets (List.replicate 63 .zero) .one], [], false, some 1⟩, .high (.slot 0), none, 0⟩

theorem vast_builds_by_size : Blueprint.ofShape 2 (2 ^ 63) = .ok vastShape ∧ vastShape.withRows [] = .ok vastShape ∧
    2 ^ 63 < Size.bound ∧ (vastPlan.draft vastShape).after vastCalls = .within vast ∧ vast.ports.frozen = false ∧
      vast.BuildsBySize 2 (2 ^ 63) 0 := by
  have shape : Blueprint.ofShape 2 (2 ^ 63) = .ok vastShape := rfl
  have filled : vastShape.withRows [] = .ok vastShape := rfl
  have deep : 2 ^ 63 < Size.bound := by decide
  have declared : (vastPlan.draft vastShape).after vastCalls = .within vast := rfl
  exact ⟨shape, filled, deep, declared, rfl, Draft.builds_by_size shape filled deep [] vastPlan vastCalls declared rfl⟩

/-- The shape is accepted and the reader is declared, but a product overflows in the build, and the declarations have
ended then. -/
theorem vast_overflows : Blueprint.ofShape 2 (2 ^ 63) = .ok vastShape ∧ vastShape.withRows [] = .ok vastShape ∧
    2 < Size.bound ∧ 2 ^ 63 < Size.bound ∧ (vastPlan.draft vastShape).after vastCalls = .within vast ∧
      vast.ports.frozen = false ∧ ¬ (2 ^ 63 - 0) * 2 < Size.bound ∧ ¬ 2 ^ 63 * 2 < Size.bound ∧
        vast.closed.ports.frozen = true ∧
          ∃ after, vast.build clocked = (.error (.fault .multiplicationOverflow), vast.closed, after) := by
  refine ⟨rfl, rfl, by decide, by decide, rfl, rfl, by decide, by decide, rfl, ?_⟩
  exact ⟨_, rfl⟩

end Engine

end Storage

end BankedMemory
