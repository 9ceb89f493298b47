import BankedMemory.Bits
import BankedMemory.Size
import BankedMemory.Storage.Refusal
import BankedMemory.Table

/-!
# Blueprints

The shape, the initial rows and the attributes of a memory to be built. Rows past the given ones start out zero.
-/

namespace BankedMemory.Storage

structure Blueprint where
  width : Nat
  depth : Nat
  /-- The given initial rows, from row 0 on. -/
  rows : List Bits
  /-- Metadata that every bank carries along. -/
  attributes : Table String
deriving DecidableEq

namespace Blueprint

/-- A memory of a given shape that starts out zero. -/
def ofShape (width depth : Nat) : Except Refusal Blueprint :=
  if width = 0 then .error .zeroWidth
  else if depth = 0 then .error .zeroDepth
  else .ok ⟨width, depth, [], []⟩

/-- The first of the given rows that is not as wide as a row, with its number. -/
def misfit? (blueprint : Blueprint) (rows : List Bits) : Option (Bits × Nat) :=
  rows.zipIdx.find? fun entry => entry.1.length ≠ blueprint.width

/-- Gives the initial contents of the first rows. -/
def withRows (blueprint : Blueprint) (rows : List Bits) : Except Refusal Blueprint :=
  if blueprint.depth < rows.length then .error (.tooManyRows rows.length blueprint.depth)
  else match blueprint.misfit? rows with
    | some (row, index) => .error (.rowWidth index row.length blueprint.width)
    | none => .ok { blueprint with rows }

def withAttribute (blueprint : Blueprint) (name value : String) : Blueprint :=
  { blueprint with attributes := blueprint.attributes.put name value }

/-- The same shape and attributes, with all rows zero. -/
def zeroed (blueprint : Blueprint) : Blueprint := { blueprint with rows := [] }

/-- The width of an address. -/
def addressWidth (blueprint : Blueprint) : Nat := Size.addressWidth blueprint.depth

/-- All initial rows side by side, row 0 in the low bits. -/
def initialWord (blueprint : Blueprint) : Except Fault Bits := do
  let rest ← Size.mul (blueprint.depth - blueprint.rows.length) blueprint.width
  return blueprint.rows.flatten ++ (← Bits.filled rest .zero)

end Blueprint

end BankedMemory.Storage
