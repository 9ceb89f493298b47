import BankedMemory.Netlist.Basic

/-!
# Counting cells
-/

namespace BankedMemory.Netlist

/-- How many cells of each kind a netlist has; a kind without cells is missing. -/
def census (netlist : Netlist) : Table Nat :=
  netlist.cells.foldl (fun counts entry =>
    counts.put entry.2.className ((counts.get? entry.2.className).getD 0 + 1)) []

/-- The slots of the memories that are banks, in order. -/
def banks (netlist : Netlist) : List Nat :=
  (netlist.memories.filter fun entry => entry.2.isBank).map (·.1)

end BankedMemory.Netlist
