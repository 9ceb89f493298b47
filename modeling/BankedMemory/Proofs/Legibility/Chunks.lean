import BankedMemory.Proofs.Legibility.Buses

/-!
# The chunks of a bus

Chunks are cut off the front of a bus in rounds, each of which takes the longest one that starts there. Every round
takes at least one net, so that the rounds come to an end, and what they cut off are the chunks that netlist text
shows. No two neighbours among them could have been one chunk.
-/

namespace BankedMemory

/-- Two chunks, the second behind the first, that do not make one chunk: they are not both constants, and the second
does not go on with the output bits of the first. -/
def Chunk.Apart : Chunk → Chunk → Prop
  | word _, word _ => False
  | run index offset width, run index' offset' _ => ¬ (index = index' ∧ offset' = offset + width)
  | _, _ => True

/-- The constants that a bus starts with. -/
def Bus.leadingBits : Bus → Bits
  | .const bit :: rest => bit :: leadingBits rest
  | _ => []

namespace Netlist

/-- Whether a net is an output bit of an applied cell. Slots that are not applied are not looked up. -/
def isOutput (netlist : Netlist) : Net → Except Fault Bool
  | .const _ => .ok false
  | .slot slot => do
    if slot < netlist.slots.size then return !(← netlist.isPlaceholder (.slot slot)) else return false

/-- How many nets at the front of a bus are the output bits of one cell, one after the other from a bit on. -/
def runWidth (netlist : Netlist) (index : Nat) : (offset : Nat) → Bus → Except Fault Nat
  | _, [] => .ok 0
  | offset, net :: rest => do
    if !(← netlist.isOutput net) then return 0
    if (← netlist.driver net) = .cell index offset then return (← netlist.runWidth index (offset + 1) rest) + 1
    else return 0

/-- The chunk that is cut off the front of a bus in one round, and how many nets it takes. There is none if the net in
front is driven by nothing that text can name. -/
def round (netlist : Netlist) (net : Net) (rest : Bus) : Except Fault (Option (Chunk × Nat)) :=
  match net with
  | .const _ =>
    let bits := Bus.leadingBits (net :: rest)
    .ok (some (.word bits, bits.length))
  | .slot slot => do
    if !(← netlist.isOutput (.slot slot)) then return some (.loose slot, 1)
    match ← netlist.driver (.slot slot) with
    | .const _ => return none
    | .cell index offset =>
      if (netlist.cell? index).isNone then return none
      let width ← netlist.runWidth index offset (.slot slot :: rest)
      return some (.run index offset width, width)

/-- The rounds that cut up a whole bus. They go on behind the nets of each chunk; rounds that went on forever, or
failed, would not cut up the bus. -/
inductive Rounds (netlist : Netlist) : Bus → List Chunk → Prop where
  | done : Rounds netlist [] []
  | next {net : Net} {rest : Bus} {chunk : Chunk} {width : Nat} {later : List Chunk} :
      netlist.round net rest = .ok (some (chunk, width)) → Rounds netlist ((net :: rest).drop width) later →
      Rounds netlist (net :: rest) (chunk :: later)

variable {netlist : Netlist}

/-- The nets that have a driver are the output bits of applied cells. -/
theorem isOutput_slot (slot : Nat) : netlist.isOutput (.slot slot) = .ok (netlist.driver? (.slot slot)).isSome := by
  cases found : netlist.slots[slot]? with
  | none =>
    have outside : ¬ slot < netlist.slots.size := Nat.not_lt.mpr (Array.getElem?_eq_none_iff.mp found)
    have missing : netlist.slot slot = .error (.notApplied slot) := by simp only [Netlist.slot, found]
    simp [isOutput, outside, driver?, driver, missing, bind, Except.bind, pure, Except.pure, Except.toOption]
  | some place =>
    have inside : slot < netlist.slots.size := (Array.getElem?_eq_some_iff.mp found).1
    have there : netlist.slot slot = .ok place := by simp only [Netlist.slot, found]
    cases place <;>
      simp [isOutput, inside, isPlaceholder, driver?, driver, there, bind, Except.bind, pure, Except.pure,
        Except.toOption]

theorem runWidth_stops {index offset : Nat} {net : Net} (rest : Bus)
    (other : netlist.driver? net ≠ some (.cell index offset)) :
    netlist.runWidth index offset (net :: rest) = .ok 0 := by
  cases net with
  | const bit => rfl
  | slot slot =>
    cases driven : netlist.driver? (.slot slot) with
    | none => simp [runWidth, isOutput_slot, driven, bind, Except.bind, pure, Except.pure]
    | some driver =>
      have found := driver?_eq_some_iff.mp driven
      have differs : driver ≠ .cell index offset := fun same => other (driven.trans (congrArg some same))
      simp [runWidth, isOutput_slot, driven, found, differs, bind, Except.bind, pure, Except.pure]

/-- A run goes on with a net if the next output bit of its cell drives it. -/
theorem runWidth_goes_on {slot index offset width : Nat} {rest : Bus}
    (driven : netlist.driver? (.slot slot) = some (.cell index offset))
    (later : netlist.runWidth index (offset + 1) rest = .ok width) :
    netlist.runWidth index offset (.slot slot :: rest) = .ok (width + 1) := by
  have found := driver?_eq_some_iff.mp driven
  simp [runWidth, isOutput_slot, driven, found, later, bind, Except.bind, pure, Except.pure]

/-- The width of a run can always be told: a net is asked for its driver only if it has one. -/
theorem exists_runWidth (index offset : Nat) (bus : Bus) : ∃ width, netlist.runWidth index offset bus = .ok width := by
  induction bus generalizing offset with
  | nil => exact ⟨0, rfl⟩
  | cons net rest ih =>
    by_cases driven : netlist.driver? net = some (.cell index offset)
    · cases net with
      | const bit => cases driven
      | slot slot =>
        obtain ⟨width, later⟩ := ih (offset + 1)
        exact ⟨width + 1, runWidth_goes_on driven later⟩
    · exact ⟨0, runWidth_stops rest driven⟩

theorem round_loose {slot : Nat} (rest : Bus) (undriven : netlist.driver? (.slot slot) = none) :
    netlist.round (.slot slot) rest = .ok (some (.loose slot, 1)) := by
  simp [round, isOutput_slot, undriven, bind, Except.bind, pure, Except.pure]

theorem round_run {slot index offset width : Nat} {c : Cell} {rest : Bus} (found : netlist.cell? index = some c)
    (driven : netlist.driver? (.slot slot) = some (.cell index offset))
    (later : netlist.runWidth index (offset + 1) rest = .ok width) :
    netlist.round (.slot slot) rest = .ok (some (.run index offset (width + 1), width + 1)) := by
  have at_driver := driver?_eq_some_iff.mp driven
  simp [round, isOutput_slot, driven, at_driver, found, runWidth_goes_on driven later, bind, Except.bind, pure,
    Except.pure]

/-- A net is a constant, a slot without a driver, or an output bit of an applied cell. -/
theorem Reached.round_cases (reached : netlist.Reached) (net : Net) :
    (∃ bit, net = .const bit) ∨ (∃ slot, net = .slot slot ∧ netlist.driver? net = none) ∨
      ∃ slot index offset c, net = .slot slot ∧ netlist.cell? index = some c ∧
        netlist.driver? net = some (.cell index offset) := by
  cases net with
  | const bit => exact .inl ⟨bit, rfl⟩
  | slot slot =>
    cases driven : netlist.driver? (.slot slot) with
    | none => exact .inr (.inl ⟨slot, rfl, rfl⟩)
    | some driver =>
      cases driver with
      | const bit => exact absurd (driver?_eq_some_iff.mp driven) (driver_slot_ne_const slot bit)
      | cell index offset =>
        obtain ⟨c, found, _⟩ := reached.cell_of_driver (driver?_eq_some_iff.mp driven)
        exact .inr (.inr ⟨slot, index, offset, c, rfl, found, rfl⟩)

section Join

variable {rest : Bus} {later : List Chunk}

/-- A chunk of one net is cut off in front of all that was cut off behind it. -/
theorem Rounds.behind {net : Net} {chunk : Chunk} (first : netlist.round net rest = .ok (some (chunk, 1)))
    (rounds : netlist.Rounds rest later) : netlist.Rounds (net :: rest) (chunk :: later) := .next first rounds

theorem Reached.rounds_word (reached : netlist.Reached) (bit : Trit) (rounds : netlist.Rounds rest later) :
    netlist.Rounds (.const bit :: rest) ((Chunk.word [bit]).join later) := by
  cases rounds with
  | done => exact .next rfl .done
  | @next next rest chunk width later first tail =>
    rcases reached.round_cases next with ⟨bit', rfl⟩ | ⟨slot, rfl, undriven⟩ |
      ⟨slot, index, offset, c, rfl, found, driven⟩
    · cases first
      exact .next rfl tail
    · rw [round_loose rest undriven] at first
      cases first
      exact .behind rfl (.next (round_loose rest undriven) tail)
    · obtain ⟨more, run⟩ := netlist.exists_runWidth index (offset + 1) rest
      rw [round_run found driven run] at first
      cases first
      exact .behind rfl (.next (round_run found driven run) tail)

theorem Reached.rounds_run (reached : netlist.Reached) {slot index offset : Nat} {c : Cell}
    (found : netlist.cell? index = some c) (driven : netlist.driver? (.slot slot) = some (.cell index offset))
    (rounds : netlist.Rounds rest later) :
    netlist.Rounds (.slot slot :: rest) ((Chunk.run index offset 1).join later) := by
  cases rounds with
  | done => exact .next (round_run found driven rfl) .done
  | @next next rest chunk width later first tail =>
    rcases reached.round_cases next with ⟨bit, rfl⟩ | ⟨slot', rfl, undriven⟩ |
      ⟨slot', index', offset', c', rfl, found', driven'⟩
    · cases first
      exact .behind (round_run found driven rfl) (.next rfl tail)
    · have ends : netlist.runWidth index (offset + 1) (.slot slot' :: rest) = .ok 0 :=
        runWidth_stops rest (by rw [undriven]; exact nofun)
      rw [round_loose rest undriven] at first
      cases first
      exact .behind (round_run found driven ends) (.next (round_loose rest undriven) tail)
    · obtain ⟨more, run⟩ := netlist.exists_runWidth index' (offset' + 1) rest
      have first' := round_run found' driven' run
      rw [first'] at first
      cases first
      by_cases adjacent : index = index' ∧ offset' = offset + 1
      · obtain ⟨rfl, rfl⟩ := adjacent
        rw [Chunk.join, if_pos ⟨rfl, rfl⟩, Nat.add_comm 1]
        exact .next (round_run found driven (runWidth_goes_on driven' run)) tail
      · have ends : netlist.runWidth index (offset + 1) (.slot slot' :: rest) = .ok 0 := by
          apply runWidth_stops
          intro same
          obtain ⟨rfl, rfl⟩ := Driver.cell.inj (Option.some.inj (driven'.symm.trans same))
          exact adjacent ⟨rfl, rfl⟩
        rw [Chunk.join, if_neg adjacent]
        exact .behind (round_run found driven ends) (.next first' tail)

/-- A net in front of a bus that is cut up is a chunk of its own, or goes into the first chunk. -/
theorem Reached.rounds_join (reached : netlist.Reached) (net : Net) (rounds : netlist.Rounds rest later) :
    netlist.Rounds (net :: rest) ((netlist.chunkOf net).join later) := by
  rcases reached.round_cases net with ⟨bit, rfl⟩ | ⟨slot, rfl, undriven⟩ | ⟨slot, index, offset, c, rfl, found, driven⟩
  · exact reached.rounds_word bit rounds
  · simp only [chunkOf, undriven]
    exact .behind (round_loose rest undriven) rounds
  · simp only [chunkOf, driven]
    exact reached.rounds_run found driven rounds

end Join

/-- The rounds come to an end, and cut off the chunks that netlist text shows. -/
theorem Reached.rounds_chunks (reached : netlist.Reached) (bus : Bus) : netlist.Rounds bus (netlist.chunks bus) := by
  induction bus with
  | nil => exact .done
  | cons net rest ih => exact reached.rounds_join net ih

/-- A chunk that is put in front of others stands apart from the first of them, or makes one chunk with it. That chunk
starts where the one in front does and ends where the first one ended. -/
theorem join_cases (chunk first : Chunk) (later : List Chunk) :
    chunk.Apart first ∧ chunk.join (first :: later) = chunk :: first :: later ∨
      ∃ merged, chunk.join (first :: later) = merged :: later ∧ (∀ next, first.Apart next → merged.Apart next) ∧
        ∀ index offset width, merged = .run index offset width → ∃ width', chunk = .run index offset width' := by
  cases chunk with
  | loose slot => exact .inl ⟨trivial, rfl⟩
  | word bits =>
    cases first with
    | run index offset width => exact .inl ⟨trivial, rfl⟩
    | loose slot => exact .inl ⟨trivial, rfl⟩
    | word next =>
      refine .inr ⟨.word (bits ++ next), rfl, ?_, nofun⟩
      intro other apart
      cases other <;> exact apart
  | run index offset width =>
    cases first with
    | word next => exact .inl ⟨trivial, rfl⟩
    | loose slot => exact .inl ⟨trivial, rfl⟩
    | run index' offset' width' =>
      by_cases adjacent : index = index' ∧ offset' = offset + width
      · refine .inr ⟨.run index offset (width + width'), if_pos adjacent, ?_, ?_⟩
        · intro other apart
          obtain ⟨rfl, rfl⟩ := adjacent
          cases other with
          | run index' offset' _ =>
            intro goes_on
            exact apart ⟨goes_on.1, by omega⟩
          | word bits => trivial
          | loose slot => trivial
        · rintro _ _ _ ⟨⟩
          exact ⟨width, rfl⟩
      · exact .inl ⟨adjacent, if_neg adjacent⟩

theorem isChain_join {chunk : Chunk} {later : List Chunk} (chain : later.IsChain Chunk.Apart) :
    (chunk.join later).IsChain Chunk.Apart := by
  cases later with
  | nil => cases chunk <;> exact .singleton _
  | cons first later =>
    rcases join_cases chunk first later with ⟨apart, joined⟩ | ⟨merged, joined, ends, _⟩
    · rw [joined]
      exact List.isChain_cons_cons.mpr ⟨apart, chain⟩
    · rw [joined]
      cases later with
      | nil => exact .singleton merged
      | cons next later =>
        obtain ⟨apart, rest⟩ := List.isChain_cons_cons.mp chain
        exact List.isChain_cons_cons.mpr ⟨ends next apart, rest⟩

/-- No two neighbours make one chunk. -/
theorem isChain_chunks (bus : Bus) : (netlist.chunks bus).IsChain Chunk.Apart := by
  induction bus with
  | nil => exact .nil
  | cons net rest ih => exact isChain_join ih

/-- A run among joined chunks starts in the cell of a run that was there before. -/
theorem mem_join_run {chunk : Chunk} {later : List Chunk} {index offset width : Nat}
    (member : .run index offset width ∈ chunk.join later) :
    (∃ width', chunk = .run index offset width') ∨ .run index offset width ∈ later := by
  cases later with
  | nil =>
    have alone : chunk.join [] = [chunk] := by cases chunk <;> rfl
    rw [alone] at member
    exact .inl ⟨width, (List.mem_singleton.mp member).symm⟩
  | cons first later =>
    rcases join_cases chunk first later with ⟨_, joined⟩ | ⟨merged, joined, _, starts⟩
    · rw [joined] at member
      rcases List.mem_cons.mp member with here | behind
      · exact .inl ⟨width, here.symm⟩
      · exact .inr behind
    · rw [joined] at member
      rcases List.mem_cons.mp member with here | behind
      · exact .inl (starts index offset width here.symm)
      · exact .inr (List.mem_cons_of_mem first behind)

/-- A run consists of output bits of an applied cell. -/
theorem Reached.cell_of_run (reached : netlist.Reached) {bus : Bus} {index offset width : Nat}
    (member : .run index offset width ∈ netlist.chunks bus) : ∃ c, netlist.cell? index = some c := by
  induction bus with
  | nil => cases member
  | cons net rest ih =>
    have joined : .run index offset width ∈ (netlist.chunkOf net).join (netlist.chunks rest) := member
    rcases mem_join_run joined with ⟨width', here⟩ | behind
    · rcases reached.round_cases net with ⟨bit, rfl⟩ | ⟨slot, rfl, undriven⟩ |
        ⟨slot, index', _, c, rfl, found, driven⟩
      · cases here
      · simp [chunkOf, undriven] at here
      · simp only [chunkOf, driven, Chunk.run.injEq] at here
        exact ⟨c, here.1 ▸ found⟩
    · exact ih behind

theorem plus_not_mem_toString (n : Nat) : '+' ∉ (toString n).toList := by
  intro member
  have digits : (toString n).toList = Nat.toDigits 10 n := Nat.toList_repr
  rw [digits] at member
  have digit := Nat.isDigit_of_mem_toDigits (by decide) (by decide) member
  cases digit

/-- The text of a run leaves out the offset only of a whole output. -/
theorem plus_not_mem_chunkText {index offset width : Nat} :
    '+' ∉ (netlist.chunkText (.run index offset width)).toList ↔ offset = 0 ∧ width = netlist.widthAt index := by
  have text : netlist.chunkText (.run index offset width) = "%" ++ toString index ++
      (if offset = 0 ∧ width = netlist.widthAt index then "" else "+" ++ toString offset) ++
      (if width = 1 then "" else ":" ++ toString width) := rfl
  have index_free := plus_not_mem_toString index
  have width_free : '+' ∉ (if width = 1 then "" else ":" ++ toString width).toList := by
    split
    · exact List.not_mem_nil
    · rw [String.toList_append, List.mem_append]
      exact not_or.mpr ⟨by decide, plus_not_mem_toString width⟩
  rw [text, String.toList_append, String.toList_append, String.toList_append]
  simp only [List.mem_append, index_free, width_free, or_false]
  split
  · rename_i whole
    exact iff_of_true (by decide) whole
  · rename_i part
    refine iff_of_false (not_not_intro (.inr ?_)) part
    rw [String.toList_append]
    exact List.mem_append_left _ (by decide)

/-- Netlist text of a bus, whatever its nets are: its chunks are cut off in finitely many rounds, the text is read back
as the bus before a blank or the end of a line, a run leaves out its offset exactly if it is the whole output of its
cell, and no two neighbours make one chunk. -/
theorem chunks_tell (reached : netlist.Reached) (bus : Bus) :
    netlist.Rounds bus (netlist.chunks bus) ∧
      (∀ rest, Reading.Spaced rest → Reading.Takes Reading.bus (netlist.busText bus).toList bus rest) ∧
      (∀ index offset width, .run index offset width ∈ netlist.chunks bus → ∃ c, netlist.cell? index = some c ∧
        ('+' ∉ (netlist.chunkText (.run index offset width)).toList ↔ offset = 0 ∧ width = c.outputWidth)) ∧
      (netlist.chunks bus).IsChain Chunk.Apart := by
  refine ⟨reached.rounds_chunks bus, fun rest spaced => reached.takes_bus bus spaced, ?_, isChain_chunks bus⟩
  intro index offset width member
  obtain ⟨c, found⟩ := reached.cell_of_run member
  have wide : netlist.widthAt index = c.outputWidth := by simp only [widthAt, found]
  exact ⟨c, found, wide ▸ plus_not_mem_chunkText⟩

/-- An input, a placeholder that stays, and the inverse of one bit. -/
def scrapRevisions : List Revision :=
  [.edit (.add (.input "a" 3)), .edit (.addPlaceholders 1), .edit (.add (.invert [.slot 1])), .apply]

def scraps : Netlist := (Netlist.empty.reviseAll scrapRevisions).toOption.getD .empty

/-- A bus of bits in rising and falling order, constants, a placeholder and a slot that is not applied. -/
def scrapBus : Bus :=
  [.slot 0, .slot 1, .slot 2, .slot 2, .slot 1, .const .unknown, .const .one, .slot 3, .slot 4, .slot 9]

/-- The bits that come again make chunks of their own, and the whole outputs stand without an offset. -/
theorem scraps_tell : scraps.Reached ∧ scraps.busText scrapBus = "[ %_9 %4 %_3 1X %0+1 %0+2 %0:3 ]" ∧
    scraps.Rounds scrapBus [.run 0 0 3, .run 0 2 1, .run 0 1 1, .word [.unknown, .one], .loose 3, .run 4 0 1, .loose 9] ∧
    Reading.Takes Reading.bus (scraps.busText scrapBus).toList scrapBus ['\n'] := by
  have reached : scraps.Reached := ⟨scrapRevisions, eq_ok_of_isOk (by decide +kernel) _⟩
  have cut : scraps.chunks scrapBus =
      [.run 0 0 3, .run 0 2 1, .run 0 1 1, .word [.unknown, .one], .loose 3, .run 4 0 1, .loose 9] := by
    decide +kernel
  obtain ⟨rounds, reads, _, _⟩ := chunks_tell reached scrapBus
  exact ⟨reached, by decide +kernel, cut ▸ rounds, reads _ (.line [])⟩

end Netlist

end BankedMemory
