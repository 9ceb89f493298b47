import BankedMemory.Netlist.Basic
import BankedMemory.Proofs.Checks
import BankedMemory.Storage.Replicated

/-!
# Products of sizes

Two products of sizes are formed for a bank: that of its depth and width when it is checked, and before that the
number of initial bits that have not been given. Work is in range if it does not end with the overflow of a product,
whatever else it comes to.
-/

namespace BankedMemory

namespace Size

variable {α β σ : Type}

/-- No product has overflowed. -/
def InRange (work : Except Fault α) : Prop := work ≠ .error .multiplicationOverflow

theorem inRange_ok {result : α} : InRange (.ok result) := by
  intro overflowed
  cases overflowed

theorem inRange_error {cause : Fault} (other : cause ≠ .multiplicationOverflow) :
    InRange (.error cause : Except Fault α) := by
  intro overflowed
  exact other (Except.error.inj overflowed)

theorem inRange_bind {first : Except Fault β} {rest : β → Except Fault α} (h : InRange first)
    (h' : ∀ middle, first = .ok middle → InRange (rest middle)) : InRange (first >>= rest) := by
  cases first with
  | ok middle => exact h' middle rfl
  | error cause => exact fun overflowed => h (congrArg Except.error (Except.error.inj overflowed))

theorem inRange_foldlM {f : σ → α → Except Fault σ} {l : List α} (round : ∀ state, ∀ x ∈ l, InRange (f state x))
    (init : σ) : InRange (l.foldlM f init) := by
  induction l generalizing init with
  | nil => exact inRange_ok
  | cons x rest ih =>
    rw [List.foldlM_cons]
    refine inRange_bind (round init x List.mem_cons_self) fun middle _ => ?_
    exact ih (fun state other member => round state other (List.mem_cons_of_mem x member)) middle

theorem inRange_forM {f : α → Except Fault Unit} {l : List α} (each : ∀ x ∈ l, InRange (f x)) :
    InRange (l.forM f) := by
  induction l with
  | nil => exact inRange_ok
  | cons x rest ih =>
    have later := ih fun other member => each other (List.mem_cons_of_mem x member)
    exact inRange_bind (each x List.mem_cons_self) fun _ _ => later

theorem inRange_mul_iff {a b : Nat} : InRange (mul a b) ↔ a * b < bound := by
  unfold InRange mul
  by_cases fits : a * b < bound <;> simp [fits]

theorem inRange_agree {left right : Nat} : InRange (agree left right) := by
  unfold agree
  split
  · exact inRange_ok
  · exact inRange_error nofun

theorem inRange_filled {limit count : Nat} {x : α} : InRange (Positions.filled limit count x) := by
  unfold Positions.filled
  split
  · exact inRange_ok
  · exact inRange_error nofun

end Size

open Size

/-- The check of a memory overflows just if the number of its bits does. -/
theorem Memory.inRange_check_iff {memory : Memory} :
    InRange memory.check ↔ memory.depth * memory.width < Size.bound := by
  unfold check
  constructor
  · intro in_range
    by_contra large
    exact in_range (by rw [Size.mul, if_neg large]; rfl)
  · intro bounded
    refine inRange_bind (inRange_mul_iff.mpr bounded) fun size _ => inRange_bind inRange_agree fun _ _ => ?_
    have writer (port : WritePort) : InRange (memory.checkWritePort port) :=
      inRange_bind inRange_agree fun _ _ => inRange_agree
    have clock (register : Register) (pair : Visibility × WritePort) :
        InRange (checkClock register pair.1 pair.2) := by
      unfold checkClock
      split
      · exact inRange_error nofun
      · exact inRange_ok
    have reader (port : ReadPort) : InRange (memory.checkReadPort port) := by
      refine inRange_bind inRange_agree fun _ _ => ?_
      cases port.register with
      | none => exact inRange_ok
      | some register =>
        refine inRange_bind inRange_agree fun _ _ => inRange_bind inRange_agree fun _ _ => ?_
        exact inRange_forM fun pair _ => clock register pair
    have output : InRange memory.checkOutput := by
      unfold checkOutput
      split
      · exact inRange_ok
      · exact inRange_error nofun
    refine inRange_bind (inRange_forM fun port _ => writer port) fun _ _ => ?_
    exact inRange_bind (inRange_forM fun port _ => reader port) fun _ _ => output

namespace Netlist

variable {netlist : Netlist}

theorem inRange_checkCell {c : Cell} (in_range : InRange c.check) : InRange (netlist.checkCell c) := by
  refine inRange_bind in_range fun _ _ => ?_
  rw [checkOutput]
  split
  · exact inRange_ok
  · refine inRange_error ?_
    split <;> decide

theorem inRange_checkRoom {width : Nat} : InRange (netlist.checkRoom width) := by
  rw [checkRoom]
  split
  · exact inRange_ok
  · refine inRange_error ?_
    split <;> decide

theorem inRange_rewireBus {source target : Bus} : InRange (netlist.rewireBus source target) := by
  refine inRange_bind inRange_agree fun _ _ => inRange_foldlM (fun netlist pair _ => ?_) netlist
  split
  · exact inRange_ok
  · unfold rewire
    split
    · exact inRange_error nofun
    · exact inRange_ok

end Netlist

namespace Storage

namespace Blueprint

variable {blueprint : Blueprint}

/-- The rows have fewer bits than sizes can count. -/
def Sized (blueprint : Blueprint) : Prop := blueprint.depth * blueprint.width < Size.bound

/-- The number of bits of the rows that start out zero. -/
def missing (blueprint : Blueprint) : Nat := (blueprint.depth - blueprint.rows.length) * blueprint.width

/-- The initial word overflows just if the number of bits that have not been given does. -/
theorem inRange_initialWord_iff : InRange blueprint.initialWord ↔ blueprint.missing < Size.bound := by
  unfold initialWord missing
  constructor
  · intro in_range
    by_contra large
    exact in_range (by rw [Size.mul, if_neg large]; rfl)
  · intro bounded
    exact inRange_bind (inRange_mul_iff.mpr bounded) fun _ _ => inRange_bind inRange_filled fun _ _ => inRange_ok

theorem missing_le (blueprint : Blueprint) : blueprint.missing ≤ blueprint.depth * blueprint.width :=
  Nat.mul_le_mul_right _ (Nat.sub_le _ _)

theorem Sized.inRange_initialWord (sized : blueprint.Sized) : InRange blueprint.initialWord :=
  inRange_initialWord_iff.mpr (Nat.lt_of_le_of_lt blueprint.missing_le sized)

end Blueprint

namespace Replicated

variable {memory : Replicated}

theorem inRange_idlePort : InRange memory.idlePort :=
  inRange_bind inRange_filled fun _ _ => inRange_bind inRange_filled fun _ _ => inRange_ok

theorem inRange_bank {port : WritePort} {init : Bits} {reader : Reader} : InRange (memory.bank port init reader) :=
  inRange_bind (inRange_bind inRange_filled fun _ _ => inRange_ok) fun _ _ => inRange_ok

end Replicated

end Storage

end BankedMemory
