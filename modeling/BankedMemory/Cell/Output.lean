import BankedMemory.Cell.Basic
import BankedMemory.Memory.Contents

/-!
# Outputs of cells

The output of a cell as a function of the values of nets, and the nets that it depends on at once.
-/

namespace BankedMemory

namespace Cell

/-- The output of a cell, given the values of nets, the input words and what the cell holds if it is a memory. -/
def outputBits (value : Net → Trit) (inputs : Table Bits) (contents : Option Contents) : Cell → Bits
  | invert a => Bits.invert (a.map value)
  | gate kind a b => List.zipWith kind.apply (a.map value) (b.map value)
  | equal a b => [Bits.same (a.map value) (b.map value)]
  | memory m => (contents.map (m.output value)).getD []
  | input name _ => (inputs.get? name).getD []
  | output _ _ => []
  | label _ _ => []

/-- The nets on whose present values the output of a cell depends. A read port with a register shows what the
register holds. -/
def sources : Cell → List Net
  | invert a => a
  | gate _ a b => a ++ b
  | equal a b => a ++ b
  | memory m => m.readPorts.flatMap fun port => if port.register.isNone then port.addr else []
  | _ => []

end Cell

end BankedMemory
