import BankedMemory.Netlist.Census
import BankedMemory.Storage.Engine

/-!
# Memories by options

The command line describes a memory by a few numbers and builds it with an input for every port net and an output
for the data of every reader.
-/

namespace BankedMemory.CommandLine

open Storage

structure Options where
  writers : Nat
  readers : Nat
  depth : Nat
  width : Nat
  /-- The number of data bits under one enable bit; all of them without a granularity. -/
  granularity : Option Nat
  /-- Whether readers observe the writes of the same cycle. -/
  transparent : Bool
  /-- Whether the first of several writers to one row wins. -/
  lowestIndexWins : Bool
deriving DecidableEq

/-- Why there is no netlist for some options. -/
inductive OptionsError where
  | zeroGranularity
  | halted (halt : Halt)
deriving DecidableEq

namespace OptionsError

def message : OptionsError → String
  | zeroGranularity => Refusal.zeroGranularity.description
  | halted (.fault cause) => cause.message
  | halted (.refused cause) => cause.message

end OptionsError

namespace Options

def standard : Options where
  writers := 2
  readers := 2
  depth := 16
  width := 8
  granularity := none
  transparent := false
  lowestIndexWins := false

/-- Arbitration has nothing to do among fewer than two writers. -/
def warnings (options : Options) : Array Event :=
  if options.lowestIndexWins ∧ options.writers ≤ 1 then #[.needlessArbitration options.writers] else #[]

def arbitration (options : Options) : Arbitration := if options.lowestIndexWins then .lowestIndex else .none

/-- One writer needs no network. -/
def engine (options : Options) (blueprint : Blueprint) (clock : Control) : Engine :=
  if options.writers ≤ 1 then .replicated (Replicated.ofBlueprint blueprint clock (some "mem"))
  else .xorNetwork (XorNetwork.ofBlueprint blueprint clock (some "mem") options.arbitration)

/-- The number of enable bits of a writer. -/
def enableWidth (options : Options) : Nat :=
  match options.granularity with
  | none => 1
  | some granularity => options.width / granularity

/-- Declares a writer with inputs for its nets. -/
def addWriter (options : Options) (engine : Engine) (index : Nat) : Build Engine := do
  let blueprint := engine.ports.blueprint
  let addr ← Build.add (.input s!"waddr{index}" blueprint.addressWidth)
  let data ← Build.add (.input s!"wdata{index}" blueprint.width)
  let enable ← Build.add (.input s!"we{index}" options.enableWidth)
  let (_, engine) ← Build.ofRefusal (engine.declareWriter ⟨addr, data, enable, options.granularity⟩)
  return engine

/-- Declares a reader with inputs for its nets. -/
def addReader (options : Options) (engine : Engine) (index : Nat) : Build Engine := do
  let addr ← Build.add (.input s!"raddr{index}" engine.ports.blueprint.addressWidth)
  let enable ← Build.ofFault (Bus.single (← Build.add (.input s!"re{index}" 1)))
  let observed := if options.transparent then List.range options.writers else []
  let (_, engine) ← Build.ofRefusal (engine.declareReader ((Reader.ofNets addr enable).observing observed))
  return engine

/-- Builds the memory with its inputs and outputs, and lets it take effect. -/
def construct (options : Options) : Build Netlist := do
  let blueprint ← Build.ofRefusal (Blueprint.ofShape options.width options.depth)
  let clock ← Build.ofFault (Bus.single (← Build.add (.input "clk" 1)))
  let engine ← (List.range options.writers).foldlM options.addWriter (options.engine blueprint (.high clock))
  let engine ← (List.range options.readers).foldlM options.addReader engine
  let assembly ← engine.construct
  assembly.readData.zipIdx.forM fun entry => do
    let _ ← Build.add (.output s!"rdata{entry.2}" entry.1)
  let netlist ← Build.ofFault (← get).netlist.apply
  Build.report (.finished assembly.banks.length)
  return netlist

/-- The netlist of a memory, and what was reported on the way. -/
def netlist (options : Options) : Except OptionsError Netlist × Array Event :=
  if options.granularity = some 0 then (.error .zeroGranularity, #[])
  else
    let (result, bench) := options.construct.run.run ⟨.empty, options.warnings⟩
    match result with
    | .ok netlist => (.ok netlist, bench.events)
    | .error halt => (.error (.halted halt), bench.events)

end Options

/-- A count, aligned to the right. -/
def column (count : Nat) : String :=
  let digits := toString count
  String.ofList (List.replicate (7 - digits.length) ' ') ++ digits

/-- The counts of all kinds of cells, as comments of netlist text. -/
def censusText (netlist : Netlist) : String :=
  "; cell counts:\n" ++ String.join (netlist.census.map fun entry => s!"; {column entry.2} {entry.1}\n")

end BankedMemory.CommandLine
