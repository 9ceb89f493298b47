import BankedMemory.Netlist.Basic
import BankedMemory.Text.Quoted

/-!
# Netlist text

One line for each cell, a block of lines for a memory. A bus is written in chunks, the most significant first: the
constants that stand side by side, the output bits of a cell that follow each other, and each net that has no
driver yet by itself.
-/

namespace BankedMemory

/-- A part of a bus that is written as one piece, least significant net first. -/
inductive Chunk where
  | word (bits : Bits)
  /-- Output bits of the cell at slot `index`, from bit `offset` on. -/
  | run (index offset width : Nat)
  /-- A slot without a driver. -/
  | loose (slot : Nat)
deriving DecidableEq

namespace Chunk

/-- The nets of a chunk. -/
def nets : Chunk → Bus
  | word bits => Bus.ofBits bits
  | run index offset width => Bus.ofSlots (index + offset) width
  | loose slot => [.slot slot]

/-- Puts a chunk before others, as one with the first of them where both are constants, or output bits of one cell
without a gap. -/
def join : Chunk → List Chunk → List Chunk
  | word bits, word next :: rest => word (bits ++ next) :: rest
  | run index offset width, run index' offset' width' :: rest =>
    if index = index' ∧ offset' = offset + width then run index offset (width + width') :: rest
    else run index offset width :: run index' offset' width' :: rest
  | chunk, rest => chunk :: rest

end Chunk

namespace Netlist

/-- What drives a net, if the netlist has it. -/
def driver? (netlist : Netlist) (net : Net) : Option Driver := (netlist.driver net).toOption

/-- The output width of the cell at a slot. -/
def widthAt (netlist : Netlist) (index : Nat) : Nat :=
  match netlist.cell? index with
  | some c => c.outputWidth
  | none => 0

/-- The chunk of a single net. -/
def chunkOf (netlist : Netlist) : Net → Chunk
  | .const bit => .word [bit]
  | .slot slot =>
    match netlist.driver? (.slot slot) with
    | some (.cell index offset) => .run index offset 1
    | _ => .loose slot

/-- The chunks of a bus, least significant first. -/
def chunks (netlist : Netlist) (bus : Bus) : List Chunk :=
  bus.foldr (fun net rest => (netlist.chunkOf net).join rest) []

/-- A run leaves out its offset if it is the whole output of its cell, and its width if that is one. -/
def chunkText (netlist : Netlist) : Chunk → String
  | .word bits => bits.text
  | .loose slot => s!"%_{slot}"
  | .run index offset width =>
    let whole := offset = 0 ∧ width = netlist.widthAt index
    s!"%{index}" ++ (if whole then "" else s!"+{offset}") ++ (if width = 1 then "" else s!":{width}")

def busText (netlist : Netlist) (bus : Bus) : String :=
  match (netlist.chunks bus).reverse with
  | [] => "[]"
  | [chunk] => netlist.chunkText chunk
  | chunks => "[" ++ String.join (chunks.map fun chunk => " " ++ netlist.chunkText chunk) ++ " ]"

/-- A single net; the output of a cell with one output bit needs no offset. -/
def netText (netlist : Netlist) (net : Net) : String :=
  match netlist.chunkOf net with
  | .run index offset _ => if netlist.widthAt index = 1 then s!"%{index}" else s!"%{index}+{offset}"
  | chunk => netlist.chunkText chunk

/-- A named control; a mark stands before a net that is active at zero. -/
def controlText (netlist : Netlist) (name : String) (control : Control) : String :=
  s!" {name}=" ++ (if control.activeLow then "!" else "") ++ netlist.netText control.net

/-- The mask is left out where every bit is written. -/
def writePortText (netlist : Netlist) (port : WritePort) : String :=
  "    write addr=" ++ netlist.busText port.addr ++ " data=" ++ netlist.busText port.data ++
    (if port.mask.all (· = Net.one) then "" else " mask=" ++ netlist.busText port.mask) ++
    netlist.controlText "clk" port.clock ++ "\n"

/-- The enable is left out where it is always active, the initial word where it is unknown throughout. -/
def registerText (netlist : Netlist) (register : Register) : String :=
  netlist.controlText "clk" register.clock ++
    (if register.hasEnable then netlist.controlText "en" register.enable else "") ++
    (if register.hasInit then " init=" ++ register.init.text else "") ++
    " [" ++ " ".intercalate (register.visibility.map Visibility.text) ++ "]"

def readPortText (netlist : Netlist) (port : ReadPort) : String :=
  "    read addr=" ++ netlist.busText port.addr ++ s!" width=#{port.width}" ++
    (match port.register with
      | some register => netlist.registerText register
      | none => "") ++ "\n"

/-- The initial rows that text shows: those up to the last one that is neither all zero nor all unknown. Rows
without bits need no search. -/
def shownRows (memory : Memory) : List Bits :=
  if memory.width = 0 then []
  else (memory.initialRows.reverse.dropWhile fun row => row.isZero || row.isUnknown).reverse

def memoryText (netlist : Netlist) (memory : Memory) : String :=
  s!"memory depth=#{memory.depth} width=#{memory.width} \x7b\n" ++
    String.join ((shownRows memory).map fun row => "    init " ++ row.text ++ "\n") ++
    String.join (memory.writePorts.map netlist.writePortText) ++
    String.join (memory.readPorts.map netlist.readPortText) ++
    String.join (memory.attributes.map fun entry =>
      "    attr " ++ Text.quote entry.1 ++ " = " ++ Text.quote entry.2 ++ "\n") ++ "\x7d"

/-- What stands to the right of the equals sign of a cell. -/
def bodyText (netlist : Netlist) (c : Cell) : String :=
  match c with
  | .invert a => c.className ++ " " ++ netlist.busText a
  | .gate _ a b => c.className ++ " " ++ netlist.busText a ++ " " ++ netlist.busText b
  | .equal a b => c.className ++ " " ++ netlist.busText a ++ " " ++ netlist.busText b
  | .memory m => netlist.memoryText m
  | .input name _ => c.className ++ " " ++ Text.quote name
  | .output name bus => c.className ++ " " ++ Text.quote name ++ " " ++ netlist.busText bus
  | .label name bus => c.className ++ " " ++ Text.quote name ++ " " ++ netlist.busText bus

def cellText (netlist : Netlist) (index : Nat) (c : Cell) : String :=
  s!"%{index}:{c.outputWidth} = " ++ netlist.bodyText c ++ "\n"

/-- The text of all applied cells. -/
def text (netlist : Netlist) : String :=
  String.join (netlist.cells.map fun entry => netlist.cellText entry.1 entry.2)

/-- Rows without bits are all zero, so that leaving out their search changes nothing. -/
theorem shownRows_eq (memory : Memory) :
    shownRows memory =
      (memory.initialRows.reverse.dropWhile fun row => row.isZero || row.isUnknown).reverse := by
  unfold shownRows
  split
  · rename_i none
    simp [Memory.initialRows, none, Memory.splitRows_zero, Bits.isZero]
  · rfl

end Netlist

end BankedMemory
