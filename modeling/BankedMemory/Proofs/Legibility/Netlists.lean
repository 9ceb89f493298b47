import BankedMemory.Proofs.Legibility.Memories
import BankedMemory.Proofs.Lists

/-!
# Netlists can be read

The text of a netlist is a list of blocks, one for each applied cell, that can be read one after the other. It
therefore tells the cells with their places, up to what text leaves open in a single cell.
-/

namespace BankedMemory

namespace Reading

/-- Two operands. -/
def operands (f : Bus → Bus → Cell) : Reading Cell := do
  let a ← bus
  literal " "
  return f a (← bus)

/-- A name and an operand. -/
def named (f : String → Bus → Cell) : Reading Cell := do
  let name ← quoted
  literal " "
  return f name (← bus)

/-- What stands behind the name of the kind of a cell with a known output width. -/
def cellOf (width : Nat) : (className : String) → Reading Cell
  | "not" => do return .invert (← bus)
  | "and" => operands (.gate .and)
  | "or" => operands (.gate .or)
  | "xor" => operands (.gate .xor)
  | "eq" => operands .equal
  | "memory" => do return .memory (← memory)
  | "input" => do return .input (← quoted) width
  | "output" => named .output
  | "name" => named .label
  | _ => failure

def body (width : Nat) : Reading Cell := do
  let className ← letters (· ≠ ' ')
  literal " "
  cellOf width (String.ofList className)

def cell : Reading (Nat × Cell) := do
  literal "%"
  let index ← number
  literal ":"
  let width ← number
  literal " = "
  let c ← body width
  literal "\n"
  return (index, c)

end Reading

namespace Netlist

open Reading

variable {netlist : Netlist} {rest : List Char}

theorem Reached.takes_operands (reached : netlist.Reached) (f : Bus → Bus → Cell) (a b : Bus) (spaced : Spaced rest) :
    Takes (operands f) ((netlist.busText a).toList ++ (" ".toList ++ (netlist.busText b).toList)) (f a b) rest := by
  unfold operands
  exact (reached.takes_bus a (.blank _)).bind (Takes.after (reached.takes_bus b spaced).return)

theorem Reached.takes_named (reached : netlist.Reached) (f : String → Bus → Cell) (name : String) (bus : Bus)
    (spaced : Spaced rest) :
    Takes (named f) ((Text.quote name).toList ++ (" ".toList ++ (netlist.busText bus).toList)) (f name bus) rest := by
  unfold named
  exact (takes_quoted name).bind (Takes.after (reached.takes_bus bus spaced).return)

/-- The text of a cell is the name of its kind and what this kind shows. -/
theorem Reached.takes_cellOf (reached : netlist.Reached) {c : Cell} (checked : c.check = .ok ())
    (spaced : Spaced rest) : ∃ shown, (netlist.bodyText c).toList = c.className.toList ++ (" ".toList ++ shown) ∧
      Takes (cellOf c.outputWidth c.className) shown c.plain rest := by
  cases c with
  | invert a =>
    refine ⟨(netlist.busText a).toList, ?_, (reached.takes_bus a spaced).return⟩
    simp only [bodyText, String.toList_append, List.append_assoc]
  | gate kind a b =>
    refine ⟨(netlist.busText a).toList ++ (" ".toList ++ (netlist.busText b).toList), ?_, ?_⟩
    · simp only [bodyText, String.toList_append, List.append_assoc]
    · cases kind <;> exact reached.takes_operands _ a b spaced
  | equal a b =>
    refine ⟨(netlist.busText a).toList ++ (" ".toList ++ (netlist.busText b).toList), ?_,
      reached.takes_operands _ a b spaced⟩
    simp only [bodyText, String.toList_append, List.append_assoc]
  | memory m =>
    obtain ⟨block, text, read⟩ := reached.takes_memory (Memory.check_eq_ok_iff.mp checked)
    exact ⟨block, text, (read rest).return⟩
  | input name width =>
    refine ⟨(Text.quote name).toList, ?_, (takes_quoted name).return⟩
    simp only [bodyText, String.toList_append, List.append_assoc]
  | output name bus =>
    refine ⟨(Text.quote name).toList ++ (" ".toList ++ (netlist.busText bus).toList), ?_,
      reached.takes_named _ name bus spaced⟩
    simp only [bodyText, String.toList_append, List.append_assoc]
  | label name bus =>
    refine ⟨(Text.quote name).toList ++ (" ".toList ++ (netlist.busText bus).toList), ?_,
      reached.takes_named _ name bus spaced⟩
    simp only [bodyText, String.toList_append, List.append_assoc]

theorem className_letters (c : Cell) : c.className.toList ≠ [] ∧ ∀ letter ∈ c.className.toList, letter ≠ ' ' := by
  cases c with
  | gate kind a b => cases kind <;> simp [Cell.className, Gate.name]
  | _ => simp [Cell.className]

theorem Reached.takes_body (reached : netlist.Reached) {c : Cell} (checked : c.check = .ok ()) (spaced : Spaced rest) :
    Takes (body c.outputWidth) (netlist.bodyText c).toList c.plain rest := by
  obtain ⟨shown, text, read⟩ := reached.takes_cellOf checked spaced
  obtain ⟨some_letter, no_blank⟩ := className_letters c
  have name_read : Takes (letters (· ≠ ' ')) c.className.toList c.className.toList (" ".toList ++ shown ++ rest) :=
    takes_letters (fun letter member => decide_eq_true (no_blank letter member)) some_letter (by simp)
  rw [text]
  unfold body
  refine name_read.bind (Takes.after ?_)
  rwa [String.ofList_toList]

/-- The text of a cell tells where the cell starts, and the cell. -/
theorem Reached.takes_cell (reached : netlist.Reached) {index : Nat} {c : Cell} (checked : c.check = .ok ()) :
    Takes cell (netlist.cellText index c).toList (index, c.plain) rest := by
  have text : netlist.cellText index c = "%" ++ toString index ++ ":" ++ toString c.outputWidth ++ " = " ++
      netlist.bodyText c ++ "\n" := rfl
  rw [text]
  simp only [String.toList_append, List.append_assoc]
  unfold cell
  exact Takes.after ((takes_number (by simp)).bind (Takes.after ((takes_number (by simp)).bind (Takes.after
    ((reached.takes_body checked (.line _)).bind (takes_literal "\n").return)))))

/-- The text of a netlist gives back its cells in their plain form. -/
theorem Reached.takes_text (reached : netlist.Reached) :
    Takes (many cell) netlist.text.toList (netlist.cells.map fun entry => (entry.1, entry.2.plain)) [] := by
  have text : netlist.text.toList = netlist.cells.flatMap fun entry => (netlist.cellText entry.1 entry.2).toList := by
    rw [Netlist.text, String.toList_join, List.flatMap_map]
  rw [text]
  exact takes_lines (fun entry member _ => reached.takes_cell (reached.checked (mem_cells.mp member))) rfl rfl

end Netlist

end BankedMemory
