import BankedMemory.Proofs.Banks
import BankedMemory.Proofs.Construction.Builds

/-!
# Words as wide as a row

In a clock cycle every row and every register of a memory keeps its width, as long as the write ports offer words that
are as wide as a row.
-/

namespace BankedMemory

theorem Size.agree_eq_ok_iff {left right : Nat} : Size.agree left right = .ok () ↔ left = right := by
  unfold Size.agree
  by_cases same : left = right <;> simp [same]

/-- Addresses are just wide enough to number all rows. -/
theorem Size.addressWidth_le_iff {count width : Nat} : addressWidth count ≤ width ↔ count ≤ 2 ^ width := by
  unfold addressWidth
  split
  · rename_i few
    exact iff_of_true (Nat.zero_le width) (Nat.le_trans few Nat.one_le_two_pow)
  · rename_i several
    have greatest : count - 1 ≠ 0 := by omega
    rw [Nat.succ_le_iff, Nat.log2_lt greatest]
    omega

/-- A write of a word as wide as a row. -/
def RowWrite.Fits (width : Nat) (write : RowWrite) : Prop := write.mask.length = width ∧ write.data.length = width

namespace Memory

variable {width : Nat}

theorem length_commitRow {word : Bits} (wide : word.length = width) {writes : List RowWrite}
    (fits : ∀ write ∈ writes, write.Fits width) : (commitRow word writes).length = width := by
  have both (written : Written) (here : written.word.length = width ∧ written.mask.length = width) :
      (writes.foldl Written.commit written).word.length = width ∧
        (writes.foldl Written.commit written).mask.length = width := by
    induction writes generalizing written with
    | nil => exact here
    | cons write rest ih =>
      obtain ⟨mask_wide, data_wide⟩ := fits write List.mem_cons_self
      refine ih (fun other member => fits other (List.mem_cons_of_mem write member)) _ ⟨?_, ?_⟩
      · simp [Written.commit, Bits.length_update, Bits.unknowns, here.1, here.2, mask_wide, data_wide]
      · simp [Written.commit, here.2, mask_wide]
  exact (both _ ⟨wide, by simp [Bits.zeros, wide]⟩).1

theorem length_observe {word : Bits} (wide : word.length = width) (visibility : Visibility) {write : RowWrite}
    (fits : write.Fits width) : (observe word visibility write).length = width := by
  unfold observe
  cases visibility <;> simp [Bits.length_update, Bits.unknowns, wide, fits.1, fits.2]

theorem length_sampled {writes : List (Option RowWrite)} (fits : ∀ write, some write ∈ writes → write.Fits width)
    (visibility : List Visibility) (row : Nat) {word : Bits} (wide : word.length = width) :
    (sampled writes visibility row word).length = width := by
  unfold sampled
  have inside : ∀ entry ∈ writes.zip visibility, entry.1 ∈ writes := fun _ member => (List.of_mem_zip member).1
  generalize writes.zip visibility = entries at inside ⊢
  induction entries generalizing word with
  | nil => exact wide
  | cons entry rest ih =>
    rw [List.foldl_cons]
    refine ih ?_ fun other member => inside other (List.mem_cons_of_mem entry member)
    have at_writes := inside entry List.mem_cons_self
    obtain ⟨write?, seen⟩ := entry
    cases write? with
    | none => exact wide
    | some write =>
      dsimp only
      split
      · exact length_observe wide seen (fits write at_writes)
      · exact wide

/-- All rows that a memory is to have are there, and all its words are as wide as a row. -/
structure Full (memory : Memory) (contents : Contents) : Prop where
  rows : ∀ row < memory.depth, ∃ word, contents.rows[row]? = some word ∧ word.length = memory.width
  held : ∀ word, some word ∈ contents.held → word.length = memory.width

/-- Bits that can be counted, and ports that read and write words as wide as a row. -/
structure Sized (memory : Memory) : Prop where
  bounded : memory.depth * memory.width < Size.bound
  writes : ∀ port ∈ memory.writePorts, port.mask.length = memory.width ∧ port.data.length = memory.width
  reads : ∀ port ∈ memory.readPorts, port.width = memory.width

variable {memory : Memory} {contents : Contents}

/-- There are no more rows of bits than there are numbers that words are read as. -/
theorem Sized.countable (sized : memory.Sized) (wide : 0 < memory.width) : memory.depth ≤ 2 ^ Bits.numberWidth :=
  Nat.le_trans (Nat.le_mul_of_pos_right _ wide) (Nat.le_trans (Nat.le_of_lt sized.bounded) (by decide))

theorem Sized.fits (sized : memory.Sized) (value : Net → Trit) {write : RowWrite}
    (member : some write ∈ memory.rowWrites value) : write.Fits memory.width := by
  obtain ⟨port, at_port, does⟩ := List.mem_map.mp member
  unfold rowWrite at does
  split at does
  · cases does
  · obtain ⟨⟨row, mask⟩, strobed, rfl⟩ := Option.map_eq_some_iff.mp does
    have mask_eq : mask = port.mask.map value := by
      unfold strobe at strobed
      dsimp only at strobed
      split at strobed
      · split at strobed
        · cases strobed
        · exact (Prod.mk.inj (Option.some.inj strobed)).2.symm
      · cases strobed
    simpa [RowWrite.Fits, mask_eq] using sized.writes port at_port

/-- The word in a register keeps its width. -/
theorem Full.length_nextHeld (full : memory.Full contents) (sized : memory.Sized) (value : Net → Trit) {port : ReadPort}
    (member : port ∈ memory.readPorts) (register : Register) {held : Bits} (wide : held.length = memory.width) :
    (memory.nextHeld value contents.rows port register held).length = memory.width := by
  have port_wide := sized.reads port member
  unfold nextHeld
  split
  · exact wide
  · split
    · exact wide
    · simp [Bits.unknowns, port_wide]
    · split
      · simp [Bits.unknowns, port_wide]
      · rename_i row hit
        obtain ⟨there, found, row_wide⟩ := full.rows row (rowOf_lt hit)
        refine length_sampled (fun write at_write => sized.fits value at_write) _ _ ?_
        simp [Array.getD_eq_getD_getElem?, found, row_wide]

theorem Full.nextContents (full : memory.Full contents) (sized : memory.Sized) (value : Net → Trit) :
    memory.Full (memory.nextContents value contents) where
  rows row inside := by
    obtain ⟨word, found, wide⟩ := full.rows row inside
    unfold Memory.nextContents
    rw [getElem?_commit, found]
    refine ⟨_, rfl, length_commitRow wide fun write member => sized.fits value ?_⟩
    obtain ⟨write?, at_write, same⟩ := List.mem_filterMap.mp (List.mem_filter.mp member).1
    exact same ▸ at_write
  held word member := by
    obtain ⟨⟨port, held⟩, at_entry, next⟩ := List.mem_map.mp member
    obtain ⟨at_port, at_held⟩ := List.of_mem_zip at_entry
    cases registered : port.register with
    | none =>
      simp only [registered] at next
      exact full.held word (next ▸ at_held)
    | some register =>
      cases held with
      | none => simp [registered] at next
      | some old =>
        simp only [registered, Option.some.injEq] at next
        rw [← next]
        exact full.length_nextHeld sized value at_port register (full.held old at_held)

end Memory

end BankedMemory
