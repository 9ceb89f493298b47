import BankedMemory.Net
import BankedMemory.Text.Quoted

/-!
# Faults

A fault ends the work that runs into it: a caller broke a rule that no answer can express, or the circuit has no
value to give. Each cause is a constructor, and `Fault.message` is the only place that words them.
-/

namespace BankedMemory

inductive Fault where
  | outOfRange
  | multiplicationOverflow
  | additionOverflow
  | tooLarge
  | netTooLarge
  | slotTooLarge
  | notANumeral
  | valueTooWide (value width : Nat)
  | notSingle
  | widths (left right : Nat)
  | clocks (write read : Control)
  | placeholder (slot : Nat)
  | notApplied (slot : Nat)
  | alreadyReplaced (net target : Net)
  | replacementCycle (net : Net)
  | combinationalLoop (slot : Nat)
  | inputWidth (name : String) (expected given : Nat)
  | noInput (name : String)
  | noOutput (name : String)
  | notAMemory (net : Net)
deriving DecidableEq

namespace Fault

/-- Two things that had to be equal, and were not. -/
def mismatch (subject left right : String) : String :=
  s!"assertion `left == right` failed{subject}\n  left: {left}\n right: {right}"

def message : Fault → String
  | outOfRange => "index out of range"
  | multiplicationOverflow => "attempt to multiply with overflow"
  | additionOverflow => "attempt to add with overflow"
  | tooLarge => "capacity overflow"
  | netTooLarge => "cell index too large"
  | slotTooLarge => "cell index too large: TryFromIntError(())"
  | notANumeral => "called `Result::unwrap()` on an `Err` value: ()"
  | valueTooWide value width => s!"value 0x{Text.hexadecimal value} does not fit into {width} bits"
  | notSingle => "value must be a single net"
  | widths left right => mismatch "" (toString left) (toString right)
  | clocks write read => mismatch "" write.description read.description
  | placeholder slot => s!"net %{slot} is an undriven placeholder"
  | notApplied slot => s!"net %{slot} refers to a cell that has not been applied yet"
  | alreadyReplaced net target => s!"net {net.text} is already replaced with {target.text}"
  | replacementCycle net => s!"net replacement cycle through {net.text}"
  | combinationalLoop slot => s!"combinational loop through cell %{slot}"
  | inputWidth name expected given =>
    mismatch (": width mismatch for input " ++ Text.quote name) (toString expected) (toString given)
  | noInput name => "no input named " ++ Text.quote name
  | noOutput name => "no output named " ++ Text.quote name
  | notAMemory net => s!"net {net.text} is not driven by a memory"

end Fault

end BankedMemory
