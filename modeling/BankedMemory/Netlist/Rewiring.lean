import BankedMemory.Net
import Std.Data.TreeMap

/-!
# Rewirings

A rewiring replaces nets by other nets. A target may itself be replaced, so a net leads along a chain to the first
net that is not replaced, unless the chain runs into a cycle.
-/

namespace BankedMemory

/-- The replaced nets with their targets. -/
abbrev Rewiring := Std.TreeMap Net Net

namespace Rewiring

def target? (rewiring : Rewiring) (net : Net) : Option Net := rewiring[net]?

/-- The net that lies at most `steps` replacements down the chain from `net`. -/
def walk (rewiring : Rewiring) : (steps : Nat) → Net → Net
  | 0, net => net
  | steps + 1, net =>
    match rewiring.target? net with
    | some target => walk rewiring steps target
    | none => net

/-- The last net of the chain. A chain without a cycle has no more links than there are replaced nets. -/
def resolve (rewiring : Rewiring) (net : Net) : Net := rewiring.walk rewiring.size net

/-- Whether the chain from `net` never ends. -/
def isEndless (rewiring : Rewiring) (net : Net) : Bool := (rewiring.target? (rewiring.resolve net)).isSome

/-- The net that an endless chain has come to when its search is given up. -/
def cycleNet (rewiring : Rewiring) (net : Net) : Net := rewiring.walk (rewiring.size + 1) net

theorem resolve_of_target?_eq_none {rewiring : Rewiring} {net : Net} (h : rewiring.target? net = none) :
    rewiring.resolve net = net := by
  unfold resolve
  cases rewiring.size with
  | zero => rfl
  | succ n => simp [walk, h]

theorem target?_resolve {rewiring : Rewiring} {net : Net} (h : rewiring.isEndless net = false) :
    rewiring.target? (rewiring.resolve net) = none := by
  simpa [isEndless] using h

end Rewiring

end BankedMemory
