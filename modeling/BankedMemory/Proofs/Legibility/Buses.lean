import BankedMemory.Netlist.Text
import BankedMemory.Proofs.Construction.Revisions
import BankedMemory.Proofs.Legibility.Reading

/-!
# Buses can be read

The chunks of a bus hold its nets in order, and each chunk tells its nets by itself: a run leaves out its offset only
where the offset is zero, and its width only where the width is one, so that the cells of the netlist are not needed
to read it.
-/

namespace BankedMemory

namespace Reading

def constants : Reading Bus := do
  return Bus.ofBits (← word)

/-- Output bits of a cell. -/
def outputs : Reading Bus := do
  literal "%"
  let index ← number
  let offset ← marked "+" 0
  let width ← marked ":" 1
  return Bus.ofSlots (index + offset) width

/-- A net without a driver. -/
def undriven : Reading Bus := do
  literal "%_"
  return [.slot (← number)]

def chunk : Reading Bus := constants <|> outputs <|> undriven

def bracketed : Reading Bus := do
  literal "["
  let chunks ← many do
    literal " "
    chunk
  let _ ← optional (literal " ")
  literal "]"
  return chunks.reverse.flatten

def bus : Reading Bus := chunk <|> bracketed

def net : Reading Net := do
  match ← chunk with
  | [net] => return net
  | _ => failure

def activeLow : Reading Control := do
  literal "!"
  return .low (← net)

def control (name : String) : Reading Control := do
  literal s!" {name}="
  Control.high <$> net <|> activeLow

/-- Buses and nets stand before a blank or the end of a line. -/
inductive Spaced : List Char → Prop where
  | blank (rest : List Char) : Spaced (' ' :: rest)
  | line (rest : List Char) : Spaced ('\n' :: rest)

variable {rest : List Char}

theorem Spaced.append (spaced : Spaced rest) (later : List Char) : Spaced (rest ++ later) := by
  cases spaced with
  | blank rest => exact .blank _
  | line rest => exact .line _

theorem Spaced.not_digit (spaced : Spaced rest) : ∀ c ∈ rest.head?, c.isDigit = false := by
  cases spaced <;> simp

theorem Spaced.not_trit (spaced : Spaced rest) : ∀ c ∈ rest.head?, isTrit c = false := by
  cases spaced <;> simp [isTrit, Trit.ofChar?]

/-- A number stands before a mark, or before what may follow the whole chunk. -/
theorem not_digit_of_marked {mark : String} {n : Nat} {hidden : Prop} [Decidable hidden]
    (no_digit : ∀ c ∈ mark.toList.head?, c.isDigit = false) (some_mark : mark.toList ≠ [])
    (ends : ∀ c ∈ rest.head?, c.isDigit = false) :
    ∀ c ∈ ((if hidden then "" else mark ++ toString n).toList ++ rest).head?, c.isDigit = false := by
  split
  · exact ends
  · rw [String.toList_append, List.append_assoc, List.head?_append_of_ne_nil _ some_mark]
    exact no_digit

/-- The number, offset and width of a run of output bits. -/
theorem takes_outputs {index offset width : Nat} {whole single : Prop} [Decidable whole] [Decidable single]
    (from_start : whole → offset = 0) (one : single → width = 1) (spaced : Spaced rest) :
    Takes outputs ("%".toList ++ ((toString index).toList ++ ((if whole then "" else "+" ++ toString offset).toList ++
      (if single then "" else ":" ++ toString width).toList))) (Bus.ofSlots (index + offset) width) rest := by
  have width_read : Takes (marked ":" 1) (if single then "" else ":" ++ toString width).toList width rest :=
    takes_marked one (fun _ => by cases spaced <;> rfl) spaced.not_digit
  have before_width : ∀ c ∈ ((if single then "" else ":" ++ toString width).toList ++ rest).head?,
      c.isDigit = false := not_digit_of_marked (by simp) (by simp) spaced.not_digit
  have no_offset : literal "+" ((if single then "" else ":" ++ toString width).toList ++ rest) = none := by
    split
    · cases spaced <;> rfl
    · rw [String.toList_append]
      rfl
  have offset_read : Takes (marked "+" 0) (if whole then "" else "+" ++ toString offset).toList offset
      ((if single then "" else ":" ++ toString width).toList ++ rest) :=
    takes_marked from_start (fun _ => no_offset) before_width
  have index_read : Takes number (toString index).toList index
      ((if whole then "" else "+" ++ toString offset).toList ++
        (if single then "" else ":" ++ toString width).toList ++ rest) := by
    rw [List.append_assoc]
    exact takes_number (not_digit_of_marked (by simp) (by simp) before_width)
  unfold outputs
  exact Takes.after (index_read.bind (offset_read.bind width_read.return))

theorem constants_percent (s : List Char) : constants ('%' :: s) = none := rfl

theorem chunk_bracket (s : List Char) : chunk ('[' :: s) = none := rfl

theorem high_mark (s : List Char) : (Control.high <$> net) ('!' :: s) = none := rfl

theorem takes_undriven {slot : Nat} (spaced : Spaced rest) :
    Takes undriven ("%_".toList ++ (toString slot).toList) [.slot slot] rest := by
  unfold undriven
  exact Takes.after (takes_number spaced.not_digit).return

end Reading

namespace Netlist

variable {netlist : Netlist} {rest : List Char}

open Reading

theorem takes_chunk {c : Chunk} (some_bit : c ≠ .word []) (spaced : Spaced rest) :
    Takes chunk (netlist.chunkText c).toList c.nets rest := by
  cases c with
  | word bits =>
    have bits_read : Takes word bits.text.toList bits rest :=
      takes_word (fun empty => some_bit (congrArg Chunk.word empty)) spaced.not_trit
    exact bits_read.return.left
  | run index offset width =>
    have text : netlist.chunkText (.run index offset width) = "%" ++ toString index ++
        (if offset = 0 ∧ width = netlist.widthAt index then "" else "+" ++ toString offset) ++
        (if width = 1 then "" else ":" ++ toString width) := rfl
    rw [text, String.toList_append, String.toList_append, String.toList_append, List.append_assoc, List.append_assoc]
    exact Takes.right (constants_percent _) (takes_outputs And.left id spaced).left
  | loose slot =>
    have text : netlist.chunkText (.loose slot) = "%_" ++ toString slot := rfl
    rw [text, String.toList_append]
    exact Takes.right (constants_percent _) ((takes_undriven spaced).right rfl)

theorem driver?_eq_some_iff {net : Net} {driver : Driver} :
    netlist.driver? net = some driver ↔ netlist.driver net = .ok driver := by
  cases found : netlist.driver net <;> simp [driver?, found, Except.toOption]

/-- A slot is shown as a bit of the cell that it belongs to, or as a net without a driver. -/
theorem Reached.chunkOf_slot (reached : netlist.Reached) (slot : Nat) :
    netlist.chunkOf (.slot slot) = .loose slot ∨ ∃ index offset c, netlist.cell? index = some c ∧
      slot = index + offset ∧ (offset = 0 ∨ offset < c.outputWidth) ∧
      netlist.chunkOf (.slot slot) = .run index offset 1 := by
  simp only [chunkOf, driver?]
  cases driven : netlist.driver (.slot slot) with
  | error cause => exact .inl rfl
  | ok driver =>
    cases driver with
    | const bit => exact .inl rfl
    | cell index offset =>
      obtain ⟨c, found, place, inside⟩ := reached.cell_of_driver driven
      exact .inr ⟨index, offset, c, found, place, inside, rfl⟩

theorem Reached.nets_chunkOf (reached : netlist.Reached) (net : Net) : (netlist.chunkOf net).nets = [net] := by
  cases net with
  | const bit => rfl
  | slot slot =>
    rcases reached.chunkOf_slot slot with loose | ⟨index, offset, _, _, rfl, _, run⟩
    · rw [loose]
      rfl
    · rw [run]
      rfl

theorem nets_join (c : Chunk) (others : List Chunk) :
    (c.join others).flatMap Chunk.nets = c.nets ++ others.flatMap Chunk.nets := by
  unfold Chunk.join
  split
  · simp [Chunk.nets, Bus.ofBits]
  · rename_i index offset width index' offset' width' rest
    split
    · rename_i adjacent
      obtain ⟨rfl, rfl⟩ := adjacent
      simp only [List.flatMap_cons, Chunk.nets, Bus.ofSlots]
      rw [← List.append_assoc, ← List.map_append, ← Nat.add_assoc, List.range'_append_1]
    · rfl
  · rfl

theorem join_ne_word_nil {c : Chunk} {others : List Chunk} (here : c ≠ .word []) (there : ∀ d ∈ others, d ≠ .word []) :
    ∀ d ∈ c.join others, d ≠ .word [] := by
  unfold Chunk.join
  split
  · simp_all
  · split <;> simp_all
  · simp_all

theorem chunkOf_ne_word_nil (net : Net) : netlist.chunkOf net ≠ .word [] := by
  cases net with
  | const bit => simp [chunkOf]
  | slot slot =>
    simp only [chunkOf]
    split <;> simp

theorem chunks_ne_word_nil (bus : Bus) : ∀ c ∈ netlist.chunks bus, c ≠ .word [] := by
  induction bus with
  | nil => simp [chunks]
  | cons net bus ih => exact join_ne_word_nil (chunkOf_ne_word_nil net) ih

/-- The chunks of a bus hold its nets, in their order. -/
theorem Reached.nets_chunks (reached : netlist.Reached) (bus : Bus) :
    (netlist.chunks bus).flatMap Chunk.nets = bus := by
  induction bus with
  | nil => rfl
  | cons net bus ih =>
    show ((netlist.chunkOf net).join (netlist.chunks bus)).flatMap Chunk.nets = net :: bus
    rw [nets_join, reached.nets_chunkOf, ih, List.singleton_append]

theorem toList_bracketed (shown : List Chunk) :
    ("[" ++ String.join (shown.map fun c => " " ++ netlist.chunkText c) ++ " ]").toList =
      "[".toList ++ ((shown.flatMap fun c => (" " ++ netlist.chunkText c).toList) ++ (" ".toList ++ "]".toList)) := by
  rw [String.toList_append, String.toList_append, String.toList_join, List.flatMap_map, List.append_assoc]
  rfl

theorem takes_bracketed {shown : List Chunk} (some_bits : ∀ c ∈ shown, c ≠ .word []) :
    Takes bracketed
      ("[".toList ++ ((shown.flatMap fun c => (" " ++ netlist.chunkText c).toList) ++ (" ".toList ++ "]".toList)))
      (shown.map Chunk.nets).reverse.flatten rest := by
  have each : ∀ c ∈ shown, ∀ rest, Spaced rest → Takes (do literal " "; chunk)
      (" " ++ netlist.chunkText c).toList c.nets rest := by
    intro c member rest spaced
    rw [String.toList_append]
    exact Takes.after (takes_chunk (some_bits c member) spaced)
  have start : ∀ c ∈ shown, (" " ++ netlist.chunkText c).toList ≠ [] ∧
      ∀ rest, Spaced ((" " ++ netlist.chunkText c).toList ++ rest) := by
    intro c _
    rw [String.toList_append]
    exact ⟨by simp, fun rest => .blank _⟩
  have chunks_read : Takes (many do literal " "; chunk)
      (shown.flatMap fun c => (" " ++ netlist.chunkText c).toList) (shown.map Chunk.nets)
      (" ".toList ++ "]".toList ++ rest) :=
    takes_many Spaced each start (.blank _) rfl
  unfold bracketed
  exact Takes.after (chunks_read.bind ((takes_literal " ").given.bind (takes_literal "]").return))

theorem takes_empty : Takes bracketed "[]".toList [] rest := by
  have none_read : Takes (many do literal " "; chunk) [] [] ("]".toList ++ rest) := takes_nothing rfl
  unfold bracketed
  exact Takes.after (none_read.bind ((takes_missing rfl).bind (takes_literal "]").return))

/-- A bus is read from its text, if a blank or the end of a line follows. -/
theorem Reached.takes_bus (reached : netlist.Reached) (bus : Bus) (spaced : Spaced rest) :
    Takes Reading.bus (netlist.busText bus).toList bus rest := by
  obtain ⟨shown, chunked⟩ : ∃ shown : List Chunk, netlist.chunks bus = shown.reverse :=
    ⟨_, (List.reverse_reverse _).symm⟩
  have nets := reached.nets_chunks bus
  have some_bits : ∀ c ∈ shown, c ≠ .word [] := by
    intro c member
    exact chunks_ne_word_nil bus c (by rwa [chunked, List.mem_reverse])
  rw [chunked] at nets
  unfold busText
  rw [chunked, List.reverse_reverse, ← nets]
  match shown with
  | [] =>
    show Takes Reading.bus "[]".toList [] rest
    exact Takes.right (chunk_bracket _) takes_empty
  | [c] =>
    rw [List.reverse_singleton, List.flatMap_singleton]
    exact (takes_chunk (some_bits c List.mem_cons_self) spaced).left
  | c :: d :: others =>
    have value : (c :: d :: others).reverse.flatMap Chunk.nets =
        ((c :: d :: others).map Chunk.nets).reverse.flatten := by
      rw [List.flatMap, List.map_reverse]
    rw [toList_bracketed, value]
    exact Takes.right (chunk_bracket _) (takes_bracketed some_bits)

/-- The output of a cell with one bit stands without its offset, which is zero. -/
theorem Reached.takes_net (reached : netlist.Reached) (net : Net) (spaced : Spaced rest) :
    Takes Reading.net (netlist.netText net).toList net rest := by
  suffices read : Takes chunk (netlist.netText net).toList [net] rest from read.last takes_pure
  cases net with
  | const bit =>
    have read : Takes chunk (netlist.chunkText (.word [bit])).toList [.const bit] rest := takes_chunk (by simp) spaced
    exact read
  | slot slot =>
    rcases reached.chunkOf_slot slot with loose | ⟨index, offset, c, found, rfl, inside, run⟩
    · have text : netlist.netText (.slot slot) = netlist.chunkText (.loose slot) := by simp only [netText, loose]
      rw [text]
      exact takes_chunk (c := .loose slot) (by simp) spaced
    · have text : netlist.netText (.slot (index + offset)) =
          if c.outputWidth = 1 then "%" ++ toString index else "%" ++ toString index ++ "+" ++ toString offset := by
        simp only [netText, run, widthAt, found]
        rfl
      have parts : (netlist.netText (.slot (index + offset))).toList = "%".toList ++ ((toString index).toList ++
          ((if c.outputWidth = 1 then "" else "+" ++ toString offset).toList ++
            (if True then "" else ":" ++ toString 1).toList)) := by
        rw [text]
        split <;> simp
      rw [parts]
      refine Takes.right (constants_percent _) (Takes.left ?_)
      exact takes_outputs (fun single => by omega) (fun _ => rfl) spaced

theorem Reached.takes_control (reached : netlist.Reached) (name : String) (given : Control) (spaced : Spaced rest) :
    Takes (Reading.control name) (netlist.controlText name given).toList given rest := by
  have text : netlist.controlText name given =
      s!" {name}=" ++ ((if given.activeLow then "!" else "") ++ netlist.netText given.net) :=
    String.append_assoc ..
  rw [text, String.toList_append (s := s!" {name}="), String.toList_append (t := netlist.netText given.net)]
  unfold Reading.control
  refine Takes.after ?_
  obtain ⟨net, low⟩ := given
  have read := reached.takes_net net spaced
  cases low with
  | false => exact (read.map Control.high).left
  | true =>
    have low_read : Takes activeLow ("!".toList ++ (netlist.netText net).toList) (.low net) rest :=
      Takes.after read.return
    show Takes _ ("!".toList ++ (netlist.netText net).toList) _ rest
    exact Takes.right (high_mark _) low_read

end Netlist

end BankedMemory
