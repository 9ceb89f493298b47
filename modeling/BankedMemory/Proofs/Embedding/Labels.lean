import BankedMemory.Proofs.Construction.Bookkeeping
import BankedMemory.Proofs.Embedding.Applied
import BankedMemory.Proofs.Embedding.Networks
import BankedMemory.Proofs.Network.Collisions

/-!
# What is added changes nothing

Cells keep doing what they do in a larger netlist, wherever their slots are in it. In particular it makes no difference
in which order they were added, or whether the banks of a memory have got labels.
-/

namespace BankedMemory

namespace Netlist

variable {place : Nat → Nat} {small big : Netlist}

/-- After any run of the larger netlist, all nets of the smaller one read what they read after its own part of the run,
and its memories hold the same rows. -/
def Retains (place : Nat → Nat) (small big : Netlist) : Prop :=
  ∀ (actions : List Action) (last last' : State), small.performFromStart (actions.filter small.concerns) = .ok last →
    big.performFromStart actions = .ok last' →
      (∀ bus word, small.read last bus = .ok word → big.read last' (bus.map (Net.relocate place)) = .ok word) ∧
      (∀ index m, small.cell? index = some (.memory m) →
        last'.contentsAt (place index) = last.contentsAt index) ∧
      ∀ net row word, small.readRow last net row = .ok word → big.readRow last' (net.relocate place) row = .ok word

/-- Both netlists fail in the same runs. After all others, all nets of the smaller one read the same in the larger one or
fail to be read, and its memories hold the same. -/
def BehavesAs (place : Nat → Nat) (small big : Netlist) : Prop :=
  ∀ actions, Matches (fun state state' =>
      (∀ bus word, big.read state' (bus.map (Net.relocate place)) = .ok word ↔ small.read state bus = .ok word) ∧
      ∀ index m, small.cell? index = some (.memory m) → state'.contentsAt (place index) = state.contentsAt index)
    (small.performFromStart actions) (big.performFromStart actions)

theorem Embedded.retains (embedded : Embedded place small big) (reached : small.Reached) (reached' : big.Reached) :
    Retains place small big :=
  fun _ _ _ run run' => embedded.agree reached reached' run run'

theorem Faithful.behavesAs (faithful : Faithful place small big) : BehavesAs place small big := fun actions =>
  (faithful.performFromStart actions).mono fun _ _ inStep =>
    ⟨fun _ _ => faithful.read_iff inStep, fun index m => inStep.contents index (.memory m)⟩

/-- What is done to both netlists until they are applied leaves the larger one a faithful copy of the smaller. -/
theorem Included.reviseAll_apply {big' : Netlist} (included : Included place small big) {revisions : List Revision}
    (done : big.reviseAll (revisions.map (Revision.map (Net.relocate place)) ++ [.apply]) = .ok big') :
    ∃ small', small.reviseAll (revisions ++ [.apply]) = .ok small' ∧ Faithful place small' big' := by
  have split {netlist after : Netlist} {changes : List Revision} : netlist.reviseAll (changes ++ [.apply]) = .ok after ↔
      ∃ middle, netlist.reviseAll changes = .ok middle ∧ middle.apply = .ok after := by
    unfold Netlist.reviseAll
    rw [List.foldlM_append, Storage.Build.except_bind_eq_ok]
    refine exists_congr fun middle => and_congr_right fun _ => ?_
    rw [List.foldlM_cons, Storage.Build.except_bind_eq_ok]
    simp [Netlist.revise, pure, Except.pure]
  obtain ⟨middle', changed', applied'⟩ := split.mp done
  obtain ⟨middle, changed, included⟩ := included.reviseAll changed'
  obtain ⟨small', applied, included⟩ := included.apply applied'
  refine ⟨small', split.mpr ⟨middle, changed, applied⟩, included.faithful ?_ ?_ ?_⟩
  · rw [(apply_eq_ok_iff.mp applied).2]
  · rw [(apply_eq_ok_iff.mp applied').2]
  · rw [(apply_eq_ok_iff.mp applied').2]

end Netlist

namespace Storage

open Build

/-- A bank at its new place. -/
def Bank.relocate (place : Nat → Nat) (bank : Bank) : Bank := ⟨bank.role, bank.output.map (Net.relocate place)⟩

theorem Stage.Assembles.eq {stage : Stage} {assembly assembly' : Assembly}
    (assembles : stage.Assembles assembly assembly') :
    assembly'.readData = assembly.readData.map (List.map (Net.relocate stage.place)) ∧
      assembly'.banks = assembly.banks.map (Bank.relocate stage.place) := by
  have data := assembles.readData.imp fun _ _ has => has.2.symm
  have banks := assembles.banks.imp fun bank bank' related => show bank.relocate stage.place = bank' by
    obtain ⟨role, output⟩ := bank'
    exact congrArg₂ Bank.mk related.1.symm related.2.2.symm
  rw [← List.forall₂_map_left_iff, List.forall₂_eq_eq_eq] at data banks
  exact ⟨data.symm, banks.symm⟩

/-- A netlist to build two memories into. -/
def Stage.ofNetlist {before : Netlist} (reached : before.Reached) (enclosed : before.Enclosed) : Stage :=
  ⟨id, before, before, reached.included, enclosed⟩

theorem Stage.hosts_ofNetlist {before : Netlist} (reached : before.Reached) (enclosed : before.Enclosed)
    {clock : Control} {ports : Ports} (known : ∀ net ∈ clock.net :: ports.nets, net.Below before.next) :
    (ofNetlist reached enclosed).Hosts clock ports := by
  have keeps {net : Net} (known : net.Below before.next) : (ofNetlist reached enclosed).Keeps net :=
    ⟨known, congrFun Net.relocate_id net⟩
  exact ⟨keeps (known _ List.mem_cons_self), fun net member => keeps (known net (List.mem_cons_of_mem _ member))⟩

namespace Engine

/-- The same memory, with labels or without. -/
def labelled (name? : Option String) : Engine → Engine
  | replicated memory => replicated { memory with name := name? }
  | xorNetwork network => xorNetwork (network.labelled name?)

/-- A memory that has not been built yet, whose ports fit its shape and are nets of the netlist it is built into. -/
structure Fits (engine : Engine) (before : Netlist) : Prop where
  opened : engine.ports.frozen = false
  sound : engine.ports.Sound
  known : ∀ net ∈ engine.clock.net :: engine.ports.nets, net.Below before.next

/-- If the memory can be built with labels into a netlist, it can be built without. All nets besides the labels, those of
the banks and of the data included, then have counterparts that read the same, whatever else is done to both netlists
before they are applied. -/
def LabelsInert (engine : Engine) (name : String) (before : Netlist) : Prop :=
  ∀ assembly' bench', Ends (engine.labelled (some name)).construct (.ofNetlist before) assembly' bench' →
    ∃ assembly bench place, Ends (engine.labelled none).construct (.ofNetlist before) assembly bench ∧
      (∀ index < before.next, place index = index) ∧
      assembly'.readData = assembly.readData.map (List.map (Net.relocate place)) ∧
      assembly'.banks = assembly.banks.map (Bank.relocate place) ∧
      ∀ revisions netlist',
        bench'.netlist.reviseAll (revisions.map (Revision.map (Net.relocate place)) ++ [.apply]) = .ok netlist' →
          ∃ netlist, bench.netlist.reviseAll (revisions ++ [.apply]) = .ok netlist ∧ netlist.BehavesAs place netlist'

variable {engine : Engine} {before : Netlist} {stage : Stage} {name? : Option String}

theorem follows_construct (hosts : stage.Hosts engine.clock engine.ports) (opened : engine.ports.frozen = false)
    (sound : engine.ports.Sound) :
    stage.Follows (engine.labelled none).construct (engine.labelled name?).construct Stage.Assembles := by
  cases engine with
  | replicated memory => exact Replicated.follows_build (Replicated.mirrors_of_hosts hosts name?) sound opened
  | xorNetwork network =>
    show stage.Follows (network.labelled none).build ((network.labelled none).labelled name?).build Stage.Assembles
    exact XorNetwork.follows_build rfl sound opened hosts

theorem labelsInert (reached : before.Reached) (enclosed : before.Enclosed) (fits : engine.Fits before)
    (name : String) : engine.LabelsInert name before := by
  intro assembly' bench' ended
  obtain ⟨assembly, bench, later, done, there, there', reaches, assembles⟩ :=
    follows_construct (Stage.hosts_ofNetlist reached enclosed fits.known) fits.opened fits.sound
      (.ofNetlist before) (.ofNetlist before) assembly' bench' rfl rfl ended
  refine ⟨assembly, bench, later.place, done, reaches.places, assembles.eq.1, assembles.eq.2,
    fun revisions netlist' revised => ?_⟩
  rw [there'] at revised
  rw [there]
  obtain ⟨netlist, revised, faithful⟩ := later.included.reviseAll_apply revised
  exact ⟨netlist, revised, faithful.behavesAs⟩

end Engine

/-- Adding cells never changes what existing cells do. In which order cells are added and at which slots they are makes
no difference, and neither do the labels of the banks of a memory. -/
theorem additions_inert :
    (∀ (place : Nat → Nat) (small big : Netlist), small.Reached → big.Reached → Netlist.Embedded place small big →
      Netlist.Retains place small big) ∧
    ∀ (engine : Engine) (name : String) (before : Netlist), before.Reached → before.Enclosed → engine.Fits before →
      engine.LabelsInert name before :=
  ⟨fun _ _ _ reached reached' embedded => embedded.retains reached reached',
    fun _ name _ reached enclosed fits => Engine.labelsInert reached enclosed fits name⟩

section Abroad

open Netlist

/-- The feedback netlist with its cells in another order, among cells that it does not have. -/
def abroadRevisions : List Revision :=
  [.edit (.add (.gate .xor [.slot 1] [.slot 8])), .edit (.add (.input "data" 1)), .edit (.add (.input "noise" 2)),
    .edit (.add (.label "noise" [.slot 2, .slot 3])), .edit (.add (.input "clock" 1)), .edit (.add (.input "addr" 1)),
    .edit (.add (.input "enable" 1)),
    .edit (.add (.memory
      { depth := 2
        width := 1
        init := [.zero, .unknown]
        attributes := []
        writePorts := [⟨[.slot 6], [.slot 0], [.slot 7], .high (.slot 5)⟩]
        readPorts := [⟨[.slot 6], 1, some ⟨.high (.slot 5), .high .one, [.zero], [.after]⟩⟩] })),
    .edit (.add (.output "q" [.slot 0])), .edit (.add (.invert [.slot 2])), .apply]

def abroad : Netlist := (Netlist.empty.reviseAll abroadRevisions).toOption.getD .empty

/-- Where the cells of the feedback netlist have gone. -/
def abroadPlace (index : Nat) : Nat := [5, 6, 7, 1, 8, 0, 9].getD index (index + 10)

def abroadRun : List Action := .set "noise" [.one, .unknown] :: feedbackRun .one

theorem reached_abroad : abroad.Reached := ⟨abroadRevisions, eq_ok_of_isOk (by decide +kernel) _⟩

theorem embedded_abroad : Embedded abroadPlace feedback abroad where
  cells index c found := by
    have each : ∀ entry ∈ feedback.cells,
        abroad.cell? (abroadPlace entry.1) = some (entry.2.map (Net.relocate abroadPlace)) := by decide +kernel
    exact each (index, c) (mem_cells.mpr found)
  outputs index c offset found inside := by
    have each : ∀ entry ∈ feedback.cells, ∀ offset < entry.2.outputWidth,
        abroadPlace (entry.1 + offset) = abroadPlace entry.1 + offset := by decide +kernel
    exact each (index, c) (mem_cells.mpr found) offset inside
  inputs := by decide +kernel

def boardRevisions : List Revision := [.edit (.add (.input "clock" 1)), .edit (.add (.input "enable" 3))]

theorem reached_pairBoard : XorNetwork.pairBoard.Reached := ⟨boardRevisions, rfl⟩

theorem enclosed_pairBoard : XorNetwork.pairBoard.Enclosed := by
  -- inputs name no nets
  have known : Netlist.empty.Knows boardRevisions := by
    refine ⟨?_, fun _ _ => ⟨?_, fun _ _ => trivial⟩⟩
    · rintro _ ⟨⟩ net ⟨⟩
    · rintro _ ⟨⟩ net ⟨⟩
  exact enclosed_of_knows known rfl

theorem fits_pairBoard : (Engine.xorNetwork (XorNetwork.pair .none [[.one]])).Fits XorNetwork.pairBoard where
  opened := rfl
  sound := by
    have single : Size.addressWidth 2 = 1 := by decide
    refine ⟨?_, ?_, ?_⟩
    · simp [XorNetwork.pair, Engine.ports, Ports.TakesReader, Blueprint.addressWidth, single]
    · simp [XorNetwork.pair, Engine.ports, Ports.FitsWriter, Ports.Divides, Blueprint.addressWidth, single]
    · simp [XorNetwork.pair, Engine.ports]
  known := by decide +kernel

/-- The pair of writers, with labels or without. -/
def labelledPair (name? : Option String) : Build Assembly :=
  ((Engine.xorNetwork (XorNetwork.pair .none [[.one]])).labelled name?).construct

def labelledBench : Workbench := ((labelledPair (some "pair")).run.run (.ofNetlist XorNetwork.pairBoard)).2

/-- The netlist that the pair with labels is a part of. -/
def pairNetlist : Netlist := (labelledBench.netlist.reviseAll [.apply]).toOption.getD .empty

theorem abroad_additions_inert :
    (∃ last last', feedback.performFromStart (abroadRun.filter feedback.concerns) = .ok last ∧
      abroad.performFromStart abroadRun = .ok last' ∧ feedback.read last [.slot 5, .slot 4] = .ok [.zero, .one] ∧
      abroad.read last' [.slot 0, .slot 8] = .ok [.zero, .one]) ∧
    ∃ assembly', Ends (labelledPair (some "pair")) (.ofNetlist XorNetwork.pairBoard) assembly' labelledBench ∧
      ∃ assembly bench place, Ends (labelledPair none) (.ofNetlist XorNetwork.pairBoard) assembly bench ∧
        assembly'.readData = assembly.readData.map (List.map (Net.relocate place)) ∧
        labelledBench.netlist.reviseAll [.apply] = .ok pairNetlist ∧
        ∃ netlist state', bench.netlist.reviseAll [.apply] = .ok netlist ∧ netlist.BehavesAs place pairNetlist ∧
          pairNetlist.performFromStart (XorNetwork.pairRun [.one, .one, .one]) = .ok state' := by
  obtain ⟨retains, labels⟩ := additions_inert
  constructor
  · have run := eq_ok_of_isOk (x := feedback.performFromStart (abroadRun.filter feedback.concerns)) (by decide +kernel)
      (.initial feedback)
    have run' := eq_ok_of_isOk (x := abroad.performFromStart abroadRun) (by decide +kernel) (.initial abroad)
    obtain ⟨reads, -⟩ := retains abroadPlace feedback abroad reached_feedback reached_abroad embedded_abroad abroadRun
      _ _ run run'
    refine ⟨_, _, run, run', ?_, reads [.slot 5, .slot 4] [.zero, .one] ?_⟩ <;> decide +kernel
  · have ended : Ends (labelledPair (some "pair")) (.ofNetlist XorNetwork.pairBoard) _ labelledBench :=
      ends_of_isOk (by decide +kernel)
    obtain ⟨assembly, bench, place, done, _, data, _, revised⟩ :=
      labels _ "pair" _ reached_pairBoard enclosed_pairBoard fits_pairBoard _ _ ended
    have applied : labelledBench.netlist.reviseAll [.apply] = .ok pairNetlist :=
      eq_ok_of_isOk (x := labelledBench.netlist.reviseAll [.apply]) (by decide +kernel) Netlist.empty
    obtain ⟨netlist, applied', behaves⟩ := revised [] pairNetlist applied
    have run := eq_ok_of_isOk (x := pairNetlist.performFromStart (XorNetwork.pairRun [.one, .one, .one]))
      (by decide +kernel) (.initial pairNetlist)
    exact ⟨_, ended, assembly, bench, place, done, data, applied, netlist, _, applied', behaves, run⟩

end Abroad

end Storage

end BankedMemory
