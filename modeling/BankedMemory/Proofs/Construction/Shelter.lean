import BankedMemory.Proofs.Construction.Inventory
import BankedMemory.Proofs.Construction.Resolution

/-!
# What read data depends on

The data of a reader comes from the registers of its banks, joined by exclusive ors. At once it depends on these cells
of the build and on nothing else, whatever the ports of the memory are connected to. Since all read data is joined from
equally many replicas, and what stands behind it from fewer, no read data depends on read data.
-/

namespace BankedMemory

namespace Netlist

variable {netlist : Netlist} {net : Net} {c : Cell}

/-- All output bits of a queued cell are made. -/
theorem Queued.made {base : Nat} {output : Bus} (queued : netlist.Queued base output c) (member : net ∈ output) :
    netlist.Made base net := by
  obtain ⟨_, index, low, rfl, slots⟩ := queued
  exact made_output low slots member

end Netlist

namespace Storage

open Build

namespace Standing

variable {build : Build Assembly} (site : Standing build)

/-- A slot that the build has added. -/
def Created (index : Nat) : Prop := site.before.next ≤ index ∧ index < site.bench.netlist.next

instance : DecidablePred site.Created :=
  fun index => inferInstanceAs (Decidable (site.before.next ≤ index ∧ index < site.bench.netlist.next))

/-- Apart from the build, only nets outside of it are replaced. -/
structure Undisturbed : Prop where
  before : ∀ net target, site.before.rewiring.target? net = some target → ∃ index < site.before.next, net = .slot index
  after : ∀ change, .edit change ∈ site.revisions → ∀ net ∈ change.replaced,
    ∃ index, net = .slot index ∧ ¬ site.Created index

/-- What stands behind read data: exclusive ors and replicas. -/
def Serves (output : Bus) (c : Cell) : Prop :=
  (∃ a b, c = .gate .xor a b) ∨ ∃ bank ∈ site.assembly.banks, bank.role.isRelay = false ∧ bank.output = output

/-- A constant, or an output bit of an exclusive or or a replica that the build has added. -/
def Inner (net : Net) : Prop :=
  (∃ bit, net = .const bit) ∨ ∃ index c, site.Created index ∧ net ∈ site.netlist.outputOf index ∧
    site.netlist.cell? index = some c ∧ site.Serves (site.netlist.outputOf index) c

/-- What stands at a slot of the build is a cell of the build. -/
theorem exists_added {index : Nat} {c : Cell} (created : site.Created index)
    (found : site.netlist.cell? index = some c) :
    ∃ d, c = d.map site.resolve ∧ (index, d) ∈ site.bench.netlist.added site.before.next := by
  obtain ⟨slot, at_arena⟩ : ∃ slot, site.bench.netlist.arena[index]? = some slot :=
    ⟨_, Array.getElem?_eq_getElem (Netlist.size_arena _ ▸ created.2)⟩
  have at_slot := Netlist.slots_reviseAll site.netlist_eq site.applied at_arena
  have same := Option.some.inj (at_slot.symm.trans (Netlist.cell?_eq_some_iff.mp found))
  cases slot with
  | cell d =>
    cases same
    exact ⟨d, rfl, Netlist.mem_added.mpr ⟨created.1, at_arena⟩⟩
  | placeholder => cases same
  | continuation start => cases same

/-- A cell of the build in its place, with what its sources have become. -/
structure Owns (index : Nat) (output : Bus) (c : Cell) : Prop where
  created : site.Created index
  placed : site.bench.netlist.arena[index]? = some (.cell c)
  output : site.netlist.outputOf index = output
  sources : site.netlist.sourcesAt index = c.sources.map site.resolve

theorem exists_owner {output : Bus} {c : Cell} (queued : site.bench.netlist.Queued site.before.next output c) :
    ∃ index, site.Owns index output c := by
  obtain ⟨_, index, low, rfl, slots⟩ := queued
  have placed : site.bench.netlist.arena[index]? = some (.cell c) := slots 0 _ (Slot.ofCell_head index c)
  have found := site.cell_of_arena placed
  refine ⟨index, ⟨low, Netlist.lt_next_of_arena placed⟩, placed, ?_, ?_⟩
  · exact site.outputOf_of_arena placed
  · rw [Netlist.sourcesAt_of_cell found, Cell.sources_map]

section Owners

variable {site} (reached : site.netlist.Reached) {index : Nat} {output : Bus} {c : Cell} {net : Net}
  (owns : site.Owns index output c) (member : net ∈ output)
include reached owns member

theorem Owns.eq_of_mem_outputOf {other : Nat} (at_output : net ∈ site.netlist.outputOf other) : index = other := by
  rw [← owns.output] at member
  exact reached.eq_of_mem_outputOf member at_output

/-- Cells with a common output bit are one cell. -/
theorem Owns.cell_eq {other : Nat} {bus : Bus} {d : Cell} (owns' : site.Owns other bus d) (member' : net ∈ bus) :
    c = d := by
  obtain rfl : index = other := owns.eq_of_mem_outputOf reached member (owns'.output ▸ member')
  exact Slot.cell.inj (Option.some.inj (owns.placed.symm.trans owns'.placed))

/-- An output bit depends at once on what the sources of its cell have become. -/
theorem Owns.exists_source {other : Net} (depends : site.netlist.DependsOn other net) :
    ∃ source ∈ c.sources, site.resolve source = other := by
  obtain ⟨place, _, at_place, at_source⟩ := depends
  obtain ⟨offset, at_driver⟩ := reached.driver_of_mem_outputOf (owns.output ▸ member)
  have same := Except.ok.inj (at_driver.symm.trans at_place)
  obtain rfl : index = place := (Driver.cell.inj same).1
  rw [owns.sources] at at_source
  exact List.mem_map.mp at_source

end Owners

/-- An output bit of the build is an output bit in the netlist. -/
theorem created_of_made {net : Net} (made : site.bench.netlist.Made site.before.next net) :
    ∃ index, site.Created index ∧ net ∈ site.netlist.outputOf index := by
  obtain ⟨index, c, k, _, low, found, inside, rfl, _, _⟩ := made
  refine ⟨index, ⟨low, Netlist.lt_next_of_arena found⟩, ?_⟩
  refine Netlist.mem_outputOf.mpr ⟨_, k, site.cell_of_arena found, ?_, rfl⟩
  rwa [Cell.outputWidth_map]

end Standing

namespace Engine

variable {engine : Engine} (site : Standing engine.construct)

/-- A build is given constants, its clock, and the nets at its ports. -/
def Given (engine : Engine) (net : Net) : Prop :=
  (∃ bit, net = .const bit) ∨ net ∈ engine.clock.net :: engine.ports.nets

/-- What the build has added, told by what it was given. -/
theorem account_given : Account site.before engine.Given (site.assembly.banks.map Bank.output) []
    site.bench.netlist := by
  have constants (bit : Trit) : engine.Given (.const bit) := Or.inl ⟨bit, rfl⟩
  have ports : ∀ net ∈ engine.ports.nets, engine.Given net := fun net member => Or.inr (List.mem_cons_of_mem _ member)
  have clock : engine.Given engine.clock.net := Or.inr List.mem_cons_self
  exact (accounts_construct constants ports clock _ _ _ rfl site.built).2.1

section Resolving

variable (undisturbed : site.Undisturbed)
include undisturbed

/-- Only placeholders and nets outside of the build become other nets. -/
theorem resolve_of_kept {net : Net} (solid : ¬ site.bench.netlist.Blank site.before.next [net])
    (inside : ∀ index, net = .slot index → site.Created index) : site.resolve net = net := by
  refine Netlist.resolvedAll_of_kept site.netlist_eq ?_ ?_
  · rw [rewired_standing site net solid]
    cases replaced : site.before.rewiring.target? net with
    | none => rfl
    | some target =>
      obtain ⟨index, before, rfl⟩ := undisturbed.before net target replaced
      have created := inside index rfl
      exact absurd created.1 (Nat.not_le_of_lt before)
  · intro change member replaced
    obtain ⟨index, rfl, outside⟩ := undisturbed.after change member net replaced
    exact outside (inside index rfl)

theorem resolve_const (bit : Trit) : site.resolve (.const bit) = .const bit := by
  refine resolve_of_kept site undisturbed ?_ nofun
  intro blank
  obtain ⟨_, _, same, _⟩ := blank _ List.mem_cons_self
  cases same

theorem resolve_made {net : Net} (made : site.bench.netlist.Made site.before.next net) : site.resolve net = net := by
  refine resolve_of_kept site undisturbed made.not_blank ?_
  rintro slot rfl
  obtain ⟨index, c, k, _, low, _, _, same, found, _⟩ := made
  cases same
  exact ⟨Nat.le_add_right_of_le low, Netlist.lt_next_of_arena found⟩

end Resolving

/-- A net of which the bit comes from registers of the build alone. -/
structure Sheltered (net : Net) : Prop where
  kept : site.resolve net = net
  driven : site.netlist.Driven net
  inner : ∀ other, Relation.ReflTransGen site.netlist.DependsOn other net → site.Inner other
  grounded : ∀ index, net ∈ site.netlist.outputOf index → Acc site.netlist.Feeds index

section Reading

variable (reached : site.netlist.Reached) (undisturbed : site.Undisturbed)

include undisturbed in
theorem sheltered_const (bit : Trit) : Sheltered site (.const bit) := by
  constructor
  · exact resolve_const site undisturbed bit
  · exact Or.inl ⟨bit, rfl⟩
  · intro other path
    rcases Relation.ReflTransGen.cases_tail path with same | ⟨source, _, index, offset, driven, _⟩
    · exact Or.inl ⟨bit, same.symm⟩
    · cases driven
  · exact fun index member => absurd member Netlist.const_not_mem_outputOf

include reached undisturbed

/-- The output of a cell that serves is sheltered if the nets are that it depends on. -/
theorem sheltered_output {output : Bus} {c : Cell} {net : Net}
    (queued : site.bench.netlist.Queued site.before.next output c) (serves : site.Serves output c)
    (sources : ∀ source ∈ c.sources, Sheltered site source) (member : net ∈ output) : Sheltered site net := by
  obtain ⟨index, owns⟩ := site.exists_owner queued
  have at_output : net ∈ site.netlist.outputOf index := owns.output ▸ member
  constructor
  · exact resolve_made site undisturbed (queued.made member)
  · exact Or.inr ⟨index, at_output⟩
  · intro other path
    rcases Relation.ReflTransGen.cases_tail path with rfl | ⟨_, before, depends⟩
    · have serves_map : site.Serves (site.netlist.outputOf index) (c.map site.resolve) := by
        rw [owns.output]
        refine serves.imp_left ?_
        rintro ⟨a, b, rfl⟩
        exact ⟨_, _, rfl⟩
      exact Or.inr ⟨index, _, owns.created, at_output, site.cell_of_arena owns.placed, serves_map⟩
    · obtain ⟨source, at_source, rfl⟩ := owns.exists_source reached member depends
      rw [(sources source at_source).kept] at before
      exact (sources source at_source).inner other before
  · intro place at_place
    obtain rfl : index = place := owns.eq_of_mem_outputOf reached member at_place
    refine ⟨_, fun feeder feeds => ?_⟩
    obtain ⟨operand, at_operand, fed⟩ := feeds
    rw [owns.sources] at at_operand
    obtain ⟨source, at_source, rfl⟩ := List.mem_map.mp at_operand
    rw [(sources source at_source).kept] at fed
    exact (sources source at_source).grounded feeder fed

end Reading

/-- An output bit of a replica, or of the exclusive or of so many further replicas. -/
inductive Tier : Nat → Net → Prop where
  | replica {output : Bus} {memory : Memory} {net : Net}
      (queued : site.bench.netlist.Queued site.before.next output (.memory memory))
      (clocked : (Cell.memory memory).sources = []) (serves : site.Serves output (.memory memory))
      (member : net ∈ output) : Tier 0 net
  | join {output a b : Bus} {count : Nat} {net : Net}
      (queued : site.bench.netlist.Queued site.before.next output (.gate .xor a b))
      (first : ∀ net ∈ a, Tier count net) (second : ∀ net ∈ b, Tier 0 net) (member : net ∈ output) :
      Tier (count + 1) net

section Tiers

variable {site} {count : Nat} {net : Net}

theorem tier_chain {start output : Bus} {buses : List Bus}
    (chain : Chain (site.bench.netlist.Queued site.before.next) .xor start buses output)
    (first : ∀ net ∈ start, Tier site count net) (others : ∀ bus ∈ buses, ∀ net ∈ bus, Tier site 0 net) :
    ∀ net ∈ output, Tier site (count + buses.length) net := by
  induction buses generalizing start count with
  | nil =>
    obtain rfl : output = start := chain
    exact first
  | cons bus rest ih =>
    obtain ⟨middle, joined, later⟩ := chain
    have joins (net : Net) (member : net ∈ middle) : Tier site (count + 1) net :=
      .join joined first (others bus List.mem_cons_self) member
    have tiers := ih later joins fun other member => others other (List.mem_cons_of_mem bus member)
    rwa [List.length_cons, Nat.add_comm rest.length, ← Nat.add_assoc]

variable (reached : site.netlist.Reached)
include reached

theorem Tier.sheltered (undisturbed : site.Undisturbed) (tier : Tier site count net) : Sheltered site net := by
  induction tier with
  | replica queued clocked serves member =>
    refine sheltered_output site reached undisturbed queued serves ?_ member
    rw [clocked]
    exact List.forall_mem_nil _
  | join queued _ _ member first second =>
    refine sheltered_output site reached undisturbed queued (Or.inl ⟨_, _, rfl⟩) ?_ member
    exact List.forall_mem_append.mpr ⟨first, second⟩

/-- A net is of one tier only. -/
theorem Tier.unique {other : Nat} (tier : Tier site count net) (tier' : Tier site other net) : count = other := by
  induction tier generalizing other with
  | replica queued _ _ member =>
    obtain ⟨_, owns⟩ := site.exists_owner queued
    cases tier' with
    | replica => rfl
    | join queued' _ _ member' =>
      obtain ⟨_, owns'⟩ := site.exists_owner queued'
      exact nomatch owns.cell_eq reached member owns' member'
  | @join _ a _ _ _ queued _ _ member ih _ =>
    obtain ⟨_, owns⟩ := site.exists_owner queued
    cases tier' with
    | replica queued' _ _ member' =>
      obtain ⟨_, owns'⟩ := site.exists_owner queued'
      exact nomatch owns.cell_eq reached member owns' member'
    | join queued' first' _ member' =>
      obtain ⟨_, owns'⟩ := site.exists_owner queued'
      cases owns.cell_eq reached member owns' member'
      obtain ⟨bit, at_bit⟩ : ∃ bit, bit ∈ a := by
        obtain ⟨_, _, _, rfl, _⟩ := queued
        obtain ⟨k, at_place⟩ := List.mem_iff_getElem?.mp member
        exact List.exists_mem_of_length_pos (Nat.zero_lt_of_lt (Bus.ofSlots_getElem? at_place).1)
      rw [ih bit at_bit (first' bit at_bit)]

/-- A net depends on nets of lower tiers only. -/
theorem Tier.descends (undisturbed : site.Undisturbed) {other : Net} (tier : Tier site count net)
    (path : Relation.TransGen site.netlist.DependsOn other net) : ∃ lower < count, Tier site lower other := by
  induction tier with
  | replica queued clocked _ member =>
    obtain ⟨_, owns⟩ := site.exists_owner queued
    obtain ⟨_, _, depends⟩ := Relation.TransGen.tail'_iff.mp path
    obtain ⟨source, at_source, _⟩ := owns.exists_source reached member depends
    rw [clocked] at at_source
    cases at_source
  | @join _ a b count _ queued first second member ih ih' =>
    obtain ⟨_, owns⟩ := site.exists_owner queued
    obtain ⟨_, before, depends⟩ := Relation.TransGen.tail'_iff.mp path
    obtain ⟨source, at_source, rfl⟩ := owns.exists_source reached member depends
    have operand : ∃ lower < count + 1, Tier site lower source ∧
        (Relation.TransGen site.netlist.DependsOn other source → ∃ lower < count + 1, Tier site lower other) := by
      rcases List.mem_append.mp at_source with at_first | at_second
      · refine ⟨count, Nat.lt_succ_self count, first source at_first, fun below => ?_⟩
        obtain ⟨lower, less, tier⟩ := ih source at_first below
        exact ⟨lower, Nat.lt_succ_of_lt less, tier⟩
      · refine ⟨0, Nat.succ_pos count, second source at_second, fun below => ?_⟩
        obtain ⟨lower, less, tier⟩ := ih' source at_second below
        exact absurd less (Nat.not_lt_zero lower)
    obtain ⟨lower, less, tier, below⟩ := operand
    rw [(tier.sheltered reached undisturbed).kept] at before
    rcases Relation.reflTransGen_iff_eq_or_transGen.mp before with rfl | further
    · exact ⟨lower, less, tier⟩
    · exact below further

end Tiers

/-- Each memory of the build is listed. -/
theorem exists_bank {output : Bus} {memory : Memory}
    (queued : site.bench.netlist.Queued site.before.next output (.memory memory)) :
    ∃ bank ∈ site.assembly.banks, bank.output = output := by
  obtain ⟨_, index, low, rfl, slots⟩ := queued
  have added := Netlist.mem_added.mpr ⟨low, slots 0 _ (Slot.ofCell_head index _)⟩
  have listed : Bus.ofSlots index memory.outputWidth ∈ outputsIn (site.bench.netlist.added site.before.next) :=
    List.mem_map.mpr ⟨_, mem_memoriesIn.mpr added, rfl⟩
  rw [(account_standing site).stock] at listed
  exact List.mem_map.mp listed

theorem tier_replicated {memory : Replicated} (site : Standing (replicated memory).construct) :
    ∀ data ∈ site.assembly.readData, ∀ net ∈ data, Tier site 0 net := by
  intro data member net at_net
  have low : From site.before.next (Workbench.ofNetlist site.before).netlist := Nat.le_refl _
  obtain ⟨_, port, init, layout⟩ := Replicated.adds_build _ _ _ low site.built
  obtain ⟨reader, _, queued⟩ := forall₂_mem_right layout.replicas member
  obtain ⟨bank, at_bank, output⟩ := exists_bank site queued
  have role : bank.role.isRelay = false := by
    have at_role := List.mem_map_of_mem (f := Bank.role) at_bank
    rw [layout.roles] at at_role
    obtain ⟨k, _, same⟩ := List.mem_map.mp at_role
    rw [← same]
    rfl
  exact .replica queued rfl (Or.inr ⟨bank, at_bank, role, output⟩) at_net

theorem tier_xorNetwork {network : XorNetwork} (site : Standing (xorNetwork network).construct)
    (reached : site.netlist.Reached) (some_writer : network.ports.writers ≠ []) :
    ∀ data ∈ site.assembly.readData, ∀ net ∈ data, Tier site (network.ports.writers.length - 1) net := by
  intro data member
  have low : From site.before.next (Workbench.ofNetlist site.before).netlist := Nat.le_refl _
  obtain ⟨_, lanes, layout⟩ := XorNetwork.adds_build some_writer _ _ _ low site.built
  obtain ⟨reader, _, outputs, stored, joined⟩ := forall₂_mem_right layout.readData member
  have each : ∀ output ∈ outputs, ∀ net ∈ output, Tier site 0 net := by
    intro output at_output net at_net
    obtain ⟨source, _, init, _, queued⟩ := forall₂_mem_right stored at_output
    obtain ⟨bank, at_bank, same⟩ := exists_bank site queued
    have role : bank.role.isRelay = false := by
      rcases layout.banks.mem_cases at_bank with ⟨_, _, sink, _, relay⟩ | ⟨_, _, _, _, role, _⟩
      · -- A relay shows its row at once, and a replica does not.
        obtain ⟨_, _, _, queued'⟩ := relay
        obtain ⟨_, owns⟩ := site.exists_owner queued
        obtain ⟨_, owns'⟩ := site.exists_owner queued'
        have alike := Cell.memory.inj (owns.cell_eq reached at_net owns' (same ▸ at_net))
        have registers := congrArg (fun memory => memory.readPorts.map ReadPort.register) alike
        cases registers
      · rw [role]
        rfl
    exact .replica queued rfl (Or.inr ⟨bank, at_bank, role, same⟩) at_net
  have full : outputs.length = network.ports.writers.length := by
    rw [← stored.length_eq, List.length_zipIdx, layout.length_lanes]
  cases outputs with
  | nil =>
    obtain rfl : data = [] := joined
    exact fun _ at_net => nomatch at_net
  | cons first rest =>
    have tiers := tier_chain joined (each first List.mem_cons_self)
      fun bus at_bus => each bus (List.mem_cons_of_mem first at_bus)
    rwa [← full, List.length_cons, Nat.add_sub_cancel, ← Nat.zero_add rest.length]

/-- Read data is constant, or all of it is of one tier. -/
theorem tier_readData (reached : site.netlist.Reached) : ∃ count, ∀ data ∈ site.assembly.readData, ∀ net ∈ data,
    (∃ bit, net = .const bit) ∨ Tier site count net := by
  cases engine with
  | replicated memory => exact ⟨0, fun data member net at_net => Or.inr (tier_replicated site data member net at_net)⟩
  | xorNetwork network =>
    by_cases no_writer : network.ports.writers = []
    · obtain ⟨_, none_built⟩ := XorNetwork.adds_nothing no_writer _ _ _ trivial site.built
      exact ⟨0, fun data member net at_net => Or.inl (none_built.2 data member net at_net)⟩
    · exact ⟨_, fun data member net at_net => Or.inr (tier_xorNetwork site reached no_writer data member net at_net)⟩

section ReadData

variable (reached : site.netlist.Reached) (undisturbed : site.Undisturbed)
include reached undisturbed

theorem sheltered_readData : ∀ data ∈ site.assembly.readData, ∀ net ∈ data, Sheltered site net := by
  intro data member net at_net
  obtain ⟨count, tiers⟩ := tier_readData site reached
  rcases tiers data member net at_net with ⟨bit, rfl⟩ | tier
  · exact sheltered_const site undisturbed bit
  · exact tier.sheltered reached undisturbed

/-- Read data depends on no read data. -/
theorem readData_apart {data data' : Bus} {net other : Net} (member : data ∈ site.assembly.readData)
    (at_net : net ∈ data) (member' : data' ∈ site.assembly.readData) (at_other : other ∈ data')
    (not_const : other.isConst = false) : ¬ Relation.TransGen site.netlist.DependsOn other net := by
  intro path
  obtain ⟨count, tiers⟩ := tier_readData site reached
  rcases tiers data member net at_net with ⟨bit, rfl⟩ | tier
  · obtain ⟨_, _, index, offset, driven, _⟩ := Relation.TransGen.tail'_iff.mp path
    cases driven
  · obtain ⟨lower, less, tier'⟩ := tier.descends reached undisturbed path
    rcases tiers data' member' other at_other with ⟨bit, rfl⟩ | tier''
    · cases not_const
    · have same := tier'.unique reached tier''
      omega

end ReadData

end Engine

end Storage

end BankedMemory
