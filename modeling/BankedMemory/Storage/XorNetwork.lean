import BankedMemory.Storage.Replicated

/-!
# Many writers, many readers

The row that a memory holds is the exclusive or of the rows of one group of banks for each writer. A writer puts
into its own group its data combined with the rows of all other groups at its address, which cancels what they
contribute. To have those rows in the same cycle, each writer also writes a relay bank for every other writer,
which is read at the address of that writer. A group consists of one replica for each reader, and a reader combines
the data of its replicas. The initial rows are in the group of the first writer.

Without arbitration, writers that meet at one row leave there the exclusive or of what they write, combined with
the old row if their number is even. With arbitration, the first of them wins bit by bit.
-/

namespace BankedMemory.Storage

/-- What happens when writers write the same bit of a row in one cycle. -/
inductive Arbitration where
  | none
  | lowestIndex
deriving DecidableEq

structure XorNetwork where
  ports : Ports
  clock : Control
  /-- What the labels of the banks begin with, if they get labels. -/
  name : Option String
  arbitration : Arbitration
deriving DecidableEq

/-- A writer with the mask it writes with and the placeholders for the data it writes. -/
structure Lane where
  writer : Writer
  mask : Bus
  data : Bus
deriving DecidableEq

/-- The data of each writer combined with the relays so far, and the banks of these relays. -/
structure Relays where
  combined : List Bus
  banks : List Bank
deriving DecidableEq

namespace XorNetwork

def ofBlueprint (blueprint : Blueprint) (clock : Control) (name : Option String) (arbitration : Arbitration) :
    XorNetwork :=
  ⟨Ports.ofBlueprint blueprint .none, clock, name, arbitration⟩

def expectedBanks (network : XorNetwork) : Nat :=
  let writers := network.ports.writers.length
  writers * (writers - 1 + network.ports.readers.length)

/-- The blueprint of the banks that one writer writes. -/
def groupBlueprint (network : XorNetwork) (writer : Nat) : Blueprint :=
  if writer = 0 then network.ports.blueprint else network.ports.blueprint.zeroed

/-- The bits that earlier writers write to the row of a writer, if there are earlier writers. -/
def conflict (network : XorNetwork) (writer : Writer) (earlier : List Writer) : Build (Option Bus) :=
  earlier.foldlM (fun conflict? other => do
    let sameRow ← Build.add (.equal other.addr writer.addr)
    let written ← Build.add (.gate .and other.mask (sameRow.repeated network.ports.blueprint.width))
    match conflict? with
    | .none => return some written
    | some conflict => return some (← Build.add (.gate .or conflict written))) .none

/-- The mask of a writer without the bits that earlier writers write to its row. -/
def arbitratedMask (network : XorNetwork) (writer : Writer) (earlier : List Writer) : Build Bus := do
  match ← network.conflict writer earlier with
  | .none => return writer.mask
  | some conflict =>
    let free ← Build.add (.invert conflict)
    Build.add (.gate .and writer.mask free)

/-- The masks that the writers write with. -/
def masks (network : XorNetwork) : Build (List Bus) :=
  let writers := network.ports.writers
  match network.arbitration with
  | .none => return writers.map Writer.mask
  | .lowestIndex => writers.zipIdx.mapM fun entry => network.arbitratedMask entry.1 (writers.take entry.2)

/-- The lanes but for one of them, with their numbers. -/
def otherLanes (lanes : List Lane) (index : Nat) : List (Lane × Nat) :=
  lanes.zipIdx.filter fun other => other.2 ≠ index

/-- The bank that passes what one writer has written on to the address of another. -/
def relayBank (network : XorNetwork) (init : Bits) (source : Lane × Nat) (sink : Lane) : Memory :=
  let blueprint := network.groupBlueprint source.2
  ⟨blueprint.depth, blueprint.width, init, blueprint.attributes,
    [⟨source.1.writer.addr, source.1.data, source.1.mask, network.clock⟩],
    [⟨sink.writer.addr, blueprint.width, .none⟩]⟩

/-- Adds a relay bank and combines its data with that of the writer it leads to. -/
def addRelay (network : XorNetwork) (init : Bits) (source : Lane × Nat) (relays : Relays) (sink : Lane × Nat) :
    Build Relays := do
  let output ← Build.add (.memory (network.relayBank init source sink.1))
  Build.label (network.name.map fun name => s!"{name}.relay{source.2}_{sink.2}") output
  Build.report (.relay source.2 sink.2)
  let combined ← Build.add (.gate .xor (relays.combined.getD sink.2 []) output)
  return ⟨relays.combined.set sink.2 combined, relays.banks ++ [⟨.relay source.2 sink.2, output⟩]⟩

/-- Adds the relay banks that lead from one writer to all others. -/
def addRelays (network : XorNetwork) (lanes : List Lane) (relays : Relays) (source : Lane × Nat) :
    Build Relays := do
  match otherLanes lanes source.2 with
  | [] => return relays
  | sinks =>
    let init ← Build.ofFault (network.groupBlueprint source.2).initialWord
    sinks.foldlM (network.addRelay init source) relays

/-- The group of one writer: a memory with this writer alone, which writes single bits. -/
def group (network : XorNetwork) (entry : Lane × Nat) : Except Refusal Replicated := do
  let (lane, index) := entry
  let name := network.name.map fun name => s!"{name}.group{index}"
  let group := { Replicated.ofBlueprint (network.groupBlueprint index) network.clock name with writer := index }
  let (writer, ports) ← group.ports.declareWriter ⟨lane.writer.addr, lane.data, lane.mask, some 1⟩
  let ports ← network.ports.readers.foldlM (fun ports reader => do
    let observed := if reader.observes index then [writer] else []
    let (_, ports) ← ports.declareReader ((Reader.ofNets reader.addr reader.enable).observing observed)
    return ports) ports
  return { group with ports }

/-- Adds the group of one writer. -/
def addGroup (network : XorNetwork) (entry : Lane × Nat) : Build Assembly :=
  Build.refuseAs .fanOut do
    let group ← Build.ofRefusal (network.group entry)
    group.build

/-- Combines the data that one reader has in all groups. -/
def combineReader (groups : List Assembly) (reader : Nat) : Build Bus := do
  match groups.map fun group => group.readData.getD reader [] with
  | [] => return []
  | first :: rest => rest.foldlM (fun data other => Build.add (.gate .xor data other)) first

/-- Adds the network of a memory that has writers. -/
def assembleLanes (network : XorNetwork) : Build Assembly := do
  let width := network.ports.blueprint.width
  let writers := network.ports.writers
  let masks ← network.masks
  let placeholders ← writers.mapM fun _ => Build.addPlaceholders width
  let lanes := (writers.zip (masks.zip placeholders)).map fun entry => Lane.mk entry.1 entry.2.1 entry.2.2
  let relays ← lanes.zipIdx.foldlM (network.addRelays lanes) ⟨writers.map Writer.data, []⟩
  (placeholders.zip relays.combined).forM fun entry => Build.rewireBus entry.1 entry.2
  let groups ← lanes.zipIdx.mapM network.addGroup
  let readData ← (List.range network.ports.readers.length).mapM (combineReader groups)
  let banks := relays.banks ++ groups.flatMap Assembly.banks
  if banks.length ≠ network.expectedBanks then
    throw (.refused (.bankCount banks.length network.expectedBanks))
  Build.report (.assembledNetwork banks.length)
  return ⟨readData, banks⟩

/-- Adds the network, once the ports are final. Without a writer nothing is known of the data. -/
def assemble (network : XorNetwork) : Build Assembly := do
  Build.ofRefusal network.ports.verify
  let blueprint := network.ports.blueprint
  let readers := network.ports.readers
  Build.report (.assembling blueprint.depth blueprint.width network.ports.writers.length readers.length)
  if network.ports.writers.isEmpty then
    Build.report .nothingWritten
    let readData ← readers.mapM fun _ => Build.ofFault (Bus.filled blueprint.width .unknown)
    return ⟨readData, []⟩
  else network.assembleLanes

/-- Ends the declarations and adds the network. -/
def build (network : XorNetwork) : Build Assembly := do
  let ports ← Build.ofRefusal network.ports.freeze
  { network with ports }.assemble

end XorNetwork

end BankedMemory.Storage
