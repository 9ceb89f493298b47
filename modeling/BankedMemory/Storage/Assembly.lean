import BankedMemory.Bus

/-!
# Assemblies

What a built memory consists of: the data of each reader, and the banks behind them.
-/

namespace BankedMemory.Storage

/-- What a bank is for. -/
inductive Role where
  /-- Holds what one writer has contributed, for one reader. -/
  | replica (writer reader : Nat)
  /-- Passes what one writer has contributed on to the data of another writer. -/
  | relay (source sink : Nat)
deriving DecidableEq

structure Bank where
  role : Role
  /-- The data of the bank's read port. -/
  output : Bus
deriving DecidableEq

structure Assembly where
  /-- The data of each reader. -/
  readData : List Bus
  banks : List Bank
deriving DecidableEq

namespace Role

def isRelay : Role → Bool
  | relay _ _ => true
  | replica _ _ => false

end Role

namespace Assembly

/-- The data of one reader. -/
def dataOf (assembly : Assembly) (reader : Nat) : Except Fault Bus := Positions.get assembly.readData reader

/-- The banks whose role satisfies a condition. -/
def banksWith (assembly : Assembly) (condition : Role → Bool) : List Bank :=
  assembly.banks.filter fun bank => condition bank.role

end Assembly

end BankedMemory.Storage
