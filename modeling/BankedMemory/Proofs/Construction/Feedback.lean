import BankedMemory.Proofs.Construction.Shelter
import BankedMemory.Proofs.Evaluation.Faults

/-!
# Feedback through a built memory

The ports of a built memory may be fed with whatever logic computes from the data of the readers. Each loop through the
memory passes a register, so the netlist is closed and has no combinational loops if this holds of the logic around the
memory.
-/

namespace BankedMemory.Storage

open Build

namespace Standing

variable {build : Build Assembly} (site : Standing build)

/-- A net that logic around the memory may depend on: a constant, an output bit of other logic, or read data. -/
def Exposed (net : Net) : Prop :=
  (∃ bit, net = .const bit) ∨ (∃ index, ¬ site.Created index ∧ net ∈ site.netlist.outputOf index) ∨
    ∃ data ∈ site.assembly.readData, net ∈ data

theorem exposed_iff {net : Net} : site.Exposed net ↔ net.isConst = true ∨
    (∃ index < site.netlist.slots.size, ¬ site.Created index ∧ net ∈ site.netlist.outputOf index) ∨
      ∃ data ∈ site.assembly.readData, net ∈ data := by
  have constant : (∃ bit, net = .const bit) ↔ net.isConst = true := by cases net <;> simp [Net.isConst, Net.const?]
  refine or_congr constant (or_congr_left ⟨?_, ?_⟩)
  · rintro ⟨index, outside, member⟩
    obtain ⟨c, _, found, _⟩ := Netlist.mem_outputOf.mp member
    exact ⟨index, Netlist.cell_lt found, outside, member⟩
  · rintro ⟨index, _, outside, member⟩
    exact ⟨index, outside, member⟩

instance (net : Net) : Decidable (site.Exposed net) := decidable_of_iff' _ site.exposed_iff

end Standing

namespace Engine

variable {engine : Engine} (site : Standing engine.construct)

/-- The logic around a built memory is closed and has no loops of its own, with read data as its sources. -/
structure Surrounded : Prop where
  ports : ∀ net ∈ engine.clock.net :: engine.ports.nets, site.Exposed (site.resolve net)
  closed : ∀ index c, ¬ site.Created index → site.netlist.cell? index = some c →
    ∀ net ∈ c.nets, site.netlist.Driven net
  sources : ∀ index c, ¬ site.Created index → site.netlist.cell? index = some c →
    ∀ net ∈ c.sources, site.Exposed net
  acyclic : ∀ index, ¬ Relation.TransGen
    (fun source sink => ¬ site.Created source ∧ ¬ site.Created sink ∧ site.netlist.Feeds source sink) index index

section Closing

variable {site} (reached : site.netlist.Reached) (undisturbed : site.Undisturbed) (surrounded : Surrounded site)
include reached undisturbed

/-- The cells that put out an exposed net come to rest if those of other logic do. -/
theorem acc_of_exposed {net : Net} (exposed : site.Exposed net) {index : Nat}
    (outside : ¬ site.Created index → Acc site.netlist.Feeds index) (member : net ∈ site.netlist.outputOf index) :
    Acc site.netlist.Feeds index := by
  rcases exposed with ⟨bit, rfl⟩ | ⟨other, not_created, at_other⟩ | ⟨data, at_data, at_net⟩
  · exact absurd member Netlist.const_not_mem_outputOf
  · obtain rfl : index = other := reached.eq_of_mem_outputOf member at_other
    exact outside not_created
  · exact (sheltered_readData site reached undisturbed data at_data net at_net).grounded index member

theorem driven_of_exposed {net : Net} (exposed : site.Exposed net) : site.netlist.Driven net := by
  rcases exposed with constant | ⟨index, _, member⟩ | ⟨data, at_data, at_net⟩
  · exact Or.inl constant
  · exact Or.inr ⟨index, member⟩
  · exact (sheltered_readData site reached undisturbed data at_data net at_net).driven

include surrounded

omit reached in
theorem exposed_of_given {net : Net} (given : engine.Given net) : site.Exposed (site.resolve net) := by
  rcases given with ⟨bit, rfl⟩ | port
  · exact Or.inl ⟨bit, resolve_const site undisturbed bit⟩
  · exact surrounded.ports net port

/-- The cells around the memory depend on one another without loops, and else on read data only. -/
theorem acc_outside {index : Nat} (outside : ¬ site.Created index) : Acc site.netlist.Feeds index := by
  have finite := Netlist.wellFounded_of_no_loop (fun _ _ related => related.2.2.lt) surrounded.acyclic
  induction index using finite.induction with
  | _ index ih =>
    refine ⟨_, fun source feeds => ?_⟩
    obtain ⟨net, at_source, at_output⟩ := feeds
    obtain ⟨c, found, operand⟩ := Netlist.mem_sourcesAt.mp at_source
    refine acc_of_exposed reached undisturbed (surrounded.sources index c outside found net operand) ?_ at_output
    exact fun not_created => ih source ⟨not_created, outside, net, at_source, at_output⟩ not_created

/-- No cell depends on itself: those of the build depend on what they were given, and else on earlier ones. -/
theorem acc_feeds (index : Nat) : Acc site.netlist.Feeds index := by
  induction index using Nat.strong_induction_on with
  | _ index ih =>
    by_cases created : site.Created index
    · refine ⟨_, fun feeder feeds => ?_⟩
      obtain ⟨net, at_source, at_output⟩ := feeds
      obtain ⟨c, found, operand⟩ := Netlist.mem_sourcesAt.mp at_source
      obtain ⟨d, rfl, added⟩ := site.exists_added created found
      rw [Cell.sources_map] at operand
      obtain ⟨source, at_cell, rfl⟩ := List.mem_map.mp operand
      rcases (account_given site).sources index d added source at_cell with given | ⟨slot, before, rfl, made⟩
      · have exposed := exposed_of_given undisturbed surrounded given
        exact acc_of_exposed reached undisturbed exposed (acc_outside reached undisturbed surrounded) at_output
      · rw [resolve_made site undisturbed made] at at_output
        obtain ⟨_, k, _, _, same⟩ := Netlist.mem_outputOf.mp at_output
        have place := Net.slot.inj same
        exact ih feeder (by omega)
    · exact acc_outside reached undisturbed surrounded created

theorem acyclic_surrounded : site.netlist.Acyclic :=
  fun index loop => Netlist.not_rel_self_of_acc (acc_feeds reached undisturbed surrounded index).transGen loop

/-- What the build was given or has made is driven. -/
theorem driven_of_supplied {net : Net} (supplied : engine.Given net ∨ site.bench.netlist.Made site.before.next net) :
    site.netlist.Driven (site.resolve net) := by
  rcases supplied with given | made
  · exact driven_of_exposed reached undisturbed (exposed_of_given undisturbed surrounded given)
  · obtain ⟨index, _, member⟩ := site.created_of_made made
    rw [resolve_made site undisturbed made]
    exact Or.inr ⟨index, member⟩

/-- The operands of the build are driven: each placeholder among them is replaced. -/
theorem closed_surrounded (issued : ∀ index, engine.Given (.slot index) → index < site.before.next) :
    site.netlist.Closed := by
  intro index c found net member
  by_cases created : site.Created index
  · obtain ⟨d, rfl, added⟩ := site.exists_added created found
    rw [Cell.nets_map] at member
    obtain ⟨operand, at_cell, rfl⟩ := List.mem_map.mp member
    have account := account_given site
    rcases account.operands index d added operand at_cell with given | made | blank
    · exact driven_of_supplied reached undisturbed surrounded (Or.inl given)
    · exact driven_of_supplied reached undisturbed surrounded (Or.inr made)
    · cases replaced : site.bench.netlist.rewiring.target? operand with
      | none => exact nomatch account.unreplaced issued operand blank replaced
      | some target =>
        have same : site.resolve operand = site.resolve target := Netlist.resolvedAll_of_replaced site.netlist_eq
          site.applied (Netlist.mem_added.mp added).2 at_cell replaced
        rcases account.replaced operand target replaced with earlier | ⟨_, supplied⟩
        · obtain ⟨slot, before, rfl⟩ := undisturbed.before operand target earlier
          obtain ⟨_, low, same, _⟩ := blank _ List.mem_cons_self
          cases same
          omega
        · rw [same]
          exact driven_of_supplied reached undisturbed surrounded supplied
  · exact surrounded.closed index c created found net member

end Closing

/-- Reading is decoupled from the ports of a built memory, so that feedback through it closes no combinational loop. -/
structure Decoupled : Prop where
  /-- Applied cells refer to no placeholder of the build, whatever is queued between the build and the application. -/
  replaced : ∀ edits edited applied, site.bench.netlist.editAll edits = .ok edited → edited.apply = .ok applied →
    ∀ index c, applied.cell? index = some c → ∀ net ∈ c.nets, ¬ site.bench.netlist.Blank site.before.next [net]
  /-- Read data depends at once on exclusive ors and replicas of the build only. -/
  inner : site.Undisturbed → ∀ data ∈ site.assembly.readData, ∀ net ∈ data, ∀ other,
    Relation.ReflTransGen site.netlist.DependsOn other net → site.Inner other
  /-- It depends on no net of a declared port. -/
  declared : site.Undisturbed → ∀ data ∈ site.assembly.readData, ∀ net ∈ data,
    ∀ port ∈ engine.clock.net :: engine.ports.nets, port.isConst = false →
      ¬ Relation.ReflTransGen site.netlist.DependsOn port net
  /-- Nor does it depend on what a port is connected to, be it other logic or read data. -/
  connected : site.Undisturbed → ∀ data ∈ site.assembly.readData, ∀ net ∈ data,
    ∀ port ∈ engine.clock.net :: engine.ports.nets, (site.resolve port).isConst = false →
      site.Exposed (site.resolve port) → ¬ Relation.TransGen site.netlist.DependsOn (site.resolve port) net
  /-- The whole netlist is closed and without loops if the logic around the memory is, and then no evaluation meets a
  net without a driver or a loop. -/
  surrounded : site.Undisturbed → Surrounded site →
    site.netlist.Closed ∧ site.netlist.Acyclic ∧ ∀ state, site.netlist.Answerable state

theorem not_inner_of_lt {slot : Nat} (before : slot < site.before.next) : ¬ site.Inner (.slot slot) := by
  rintro (⟨_, same⟩ | ⟨index, c, created, member, _⟩)
  · cases same
  · obtain ⟨_, _, _, _, same⟩ := Netlist.mem_outputOf.mp member
    have place := Net.slot.inj same
    have low := created.1
    omega

theorem not_inner_of_outside (reached : site.netlist.Reached) {net : Net} {index : Nat} (outside : ¬ site.Created index)
    (output : net ∈ site.netlist.outputOf index) : ¬ site.Inner net := by
  rintro (⟨bit, rfl⟩ | ⟨other, c, created, member, _⟩)
  · exact Netlist.const_not_mem_outputOf output
  · obtain rfl : index = other := reached.eq_of_mem_outputOf output member
    exact outside created

theorem reached_standing (reached : site.before.Reached) : site.netlist.Reached := by
  obtain ⟨edits, edited⟩ := (account_given site).edited
  exact (reached.editAll edited).reviseAll site.netlist_eq

/-- A memory may be built into any netlist, from ports that are nets of this netlist. -/
theorem decoupled (reached : site.before.Reached)
    (known : ∀ net ∈ engine.clock.net :: engine.ports.nets,
      net.isConst = true ∨ ∃ index < site.before.next, net = .slot index) : Decoupled site := by
  have whole := reached_standing site reached
  have issued : ∀ index, engine.Given (.slot index) → index < site.before.next := by
    rintro index (⟨_, same⟩ | port)
    · cases same
    · rcases known _ port with constant | ⟨slot, before, same⟩
      · cases constant
      · cases same
        exact before
  have inner (undisturbed : site.Undisturbed) {data : Bus} (at_data : data ∈ site.assembly.readData) {net : Net}
      (at_net : net ∈ data) {other : Net} (path : Relation.ReflTransGen site.netlist.DependsOn other net) :
      site.Inner other := (sheltered_readData site whole undisturbed data at_data net at_net).inner other path
  constructor
  · intro edits edited applied done ended index c found net operand blank
    have kept := Netlist.target?_of_operand done ended found operand
    exact nomatch (account_given site).unreplaced issued net blank kept
  · intro undisturbed data at_data net at_net other path
    exact inner undisturbed at_data at_net path
  · intro undisturbed data at_data net at_net port at_port not_const path
    rcases known port at_port with constant | ⟨slot, before, rfl⟩
    · rw [not_const] at constant
      cases constant
    · exact not_inner_of_lt site before (inner undisturbed at_data at_net path)
  · intro undisturbed data at_data net at_net port _ not_const exposed path
    rcases exposed with ⟨bit, constant⟩ | ⟨index, outside, output⟩ | ⟨data', at_data', at_port⟩
    · rw [constant] at not_const
      cases not_const
    · exact not_inner_of_outside site whole outside output (inner undisturbed at_data at_net path.to_reflTransGen)
    · exact readData_apart site whole undisturbed at_data at_net at_data' at_port not_const path
  · intro undisturbed surrounded
    have closed := closed_surrounded whole undisturbed surrounded issued
    have acyclic := acyclic_surrounded whole undisturbed surrounded
    exact ⟨closed, acyclic, fun state => Netlist.answerable state whole closed acyclic⟩

section Loops

def loopRevisions : List Revision :=
  [.edit (.add (.input "clock" 1)), .edit (.add (.input "enable" 3)), .edit (.addPlaceholders 2)]

/-- A netlist with placeholders for the data and an address of a memory. -/
def loopBoard : Netlist := (Netlist.empty.reviseAll loopRevisions).toOption.getD .empty

/-- Two writers of the same data, one of them at the address of the reader. -/
def loopNetwork : XorNetwork where
  ports :=
    { blueprint := ⟨1, 2, [], []⟩
      readers := [⟨[.slot 5], .slot 3, []⟩]
      writers := [⟨[.slot 5], [.slot 4], [.slot 1], some 1⟩, ⟨[.zero], [.slot 4], [.slot 2], some 1⟩]
      frozen := false
      capacity := none }
  clock := .high (.slot 0)
  name := none
  arbitration := .lowestIndex

theorem built_loopNetwork : ((xorNetwork loopNetwork).construct.run.run (.ofNetlist loopBoard)).1.isOk = true := by
  decide +kernel

/-- The bit that is read is the next address, and its inverse is the next data. -/
def loopEdits : List Edit := [.add (.invert [.slot 18]), .rewire (.slot 4) (.slot 19), .rewire (.slot 5) (.slot 18)]

def loopSite : Standing (xorNetwork loopNetwork).construct :=
  .ofRevisions _ loopBoard (loopEdits.map .edit ++ [.apply]) built_loopNetwork (by simp) (by decide +kernel)

theorem reached_loopBoard : loopSite.before.Reached := ⟨loopRevisions, eq_ok_of_isOk (by decide +kernel) .empty⟩

theorem known_loopSite : ∀ net ∈ (xorNetwork loopNetwork).clock.net :: (xorNetwork loopNetwork).ports.nets,
    net.isConst = true ∨ ∃ index < loopSite.before.next, net = .slot index := by
  decide +kernel

theorem undisturbed_loopSite : loopSite.Undisturbed where
  before net target replaced := by
    rw [show loopSite.before.rewiring = ∅ from rfl, Netlist.target?_empty] at replaced
    cases replaced
  after change member net replaced := by
    have revised : ∀ change ∈ loopEdits, ∀ net ∈ change.replaced, ∃ index ∈ [4, 5], net = .slot index := by decide
    have outside : ∀ index ∈ [4, 5], ¬ loopSite.Created index := by decide +kernel
    have among : change ∈ loopEdits := by simpa [loopSite, Standing.ofRevisions] using member
    obtain ⟨index, at_index, same⟩ := revised change among net replaced
    exact ⟨index, same, outside index at_index⟩

theorem surrounded_loopSite : Surrounded loopSite where
  ports := by decide +kernel
  closed index c outside found := by
    have closed : ∀ entry ∈ loopSite.netlist.cells, ¬ loopSite.Created entry.1 →
        ∀ net ∈ entry.2.nets, loopSite.netlist.Driven net := by decide +kernel
    exact closed (index, c) (Netlist.mem_cells.mpr found) outside
  sources index c outside found := by
    have exposed : ∀ entry ∈ loopSite.netlist.cells, ¬ loopSite.Created entry.1 →
        ∀ net ∈ entry.2.sources, loopSite.Exposed net := by decide +kernel
    exact exposed (index, c) (Netlist.mem_cells.mpr found) outside
  acyclic := by
    have back : ∀ entry ∈ loopSite.netlist.cells, ¬ loopSite.Created entry.1 →
        ∀ net ∈ entry.2.sources, net.isConst = true ∨ ∃ slot < entry.1, net = .slot slot := by decide +kernel
    refine Netlist.no_loop_of_lt fun source index related => related.2.2.lt_index fun c found => ?_
    exact back (index, c) (Netlist.mem_cells.mpr found) related.2.1

theorem loop_decoupled : loopSite.before.Reached ∧ loopSite.Undisturbed ∧ Surrounded loopSite ∧
    (∀ net ∈ (xorNetwork loopNetwork).clock.net :: (xorNetwork loopNetwork).ports.nets,
      net.isConst = true ∨ ∃ index < loopSite.before.next, net = .slot index) ∧ Decoupled loopSite :=
  ⟨reached_loopBoard, undisturbed_loopSite, surrounded_loopSite, known_loopSite,
    decoupled loopSite reached_loopBoard known_loopSite⟩

end Loops

end Engine

end BankedMemory.Storage
