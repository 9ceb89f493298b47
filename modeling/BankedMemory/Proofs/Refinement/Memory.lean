import BankedMemory.Proofs.Evaluation.Fitting
import BankedMemory.Proofs.Evaluation.Offers
import BankedMemory.Proofs.Refinement.Order

/-!
# Memories of which one knows more

A memory whose contents and operands know less shows less, and knows less after a clock cycle. For this each write
port has to have a known address, or nothing to write: otherwise a write of the memory that knows more is missed by
the one that knows less. A write may vanish once its mask is known to be zero; it counts here as a write of no bits.
-/

namespace BankedMemory

/-- Each row and each register lies below the one at its place. -/
structure Contents.Below (low high : Contents) : Prop where
  rows : ∀ row : Nat, Option.Rel Bits.Below low.rows[row]? high.rows[row]?
  held : List.Forall₂ (Option.Rel Bits.Below) low.held high.held

/-- A write of which less is known. -/
structure RowWrite.Below (low high : RowWrite) : Prop where
  mask : low.mask.Below high.mask
  data : low.data.Below high.data

/-- The word of a row that both memories have. -/
theorem Contents.Below.getD_row {low high : Contents} (h : low.Below high) (row : Nat) :
    Bits.Below (low.rows.getD row []) (high.rows.getD row []) := by
  rw [Array.getD_eq_getD_getElem?, Array.getD_eq_getD_getElem?]
  have rows := h.rows row
  generalize low.rows[row]? = word at rows ⊢
  generalize high.rows[row]? = word' at rows ⊢
  cases rows with
  | none => exact .refl _
  | some below => exact below

namespace Memory

variable {memory : Memory} {contents low high : Contents} {value value' : Net → Trit}

/-- A write port whose address is known, or that writes nothing, provided that it is clocked. -/
def Decided (value : Net → Trit) (port : WritePort) : Prop :=
  port.clock.isConst = false → .unknown ∉ port.addr.map value ∨ Bits.isZero (port.mask.map value) = true

section Offers

variable (below : ∀ net ∈ memory.nets, (value net).Below (value' net))
include below

theorem map_below_of_port {port : WritePort} (member : port ∈ memory.writePorts) {bus : Bus}
    (inside : bus ⊆ port.nets) : Bits.Below (bus.map value) (bus.map value') :=
  .map fun net at_bus => below net
    (List.mem_append_left _ (List.mem_flatMap.mpr ⟨port, member, inside at_bus⟩))

variable (sized : memory.Sized)
include sized

/-- What a decided port offers is offered, with more known, by the memory that knows more. -/
theorem offer_below {port : WritePort} (member : port ∈ memory.writePorts) (decided : Decided value port) (row : Nat) :
    (memory.offer value row port).Below (memory.offer value' row port) where
  mask := by
    have addr : Bits.Below (port.addr.map value) (port.addr.map value') :=
      map_below_of_port below member fun net here => by simp [WritePort.nets, here]
    have mask : Bits.Below (port.mask.map value) (port.mask.map value') :=
      map_below_of_port below member fun net here => by simp [WritePort.nets, here]
    unfold offer
    dsimp only
    cases clocked : port.clock.isConst with
    | true => exact .refl _
    | false =>
      rcases decided clocked with known | idle
      · rw [← addr.eq_of_known known]
        split
        · exact mask
        · exact .refl _
      · -- a mask of zeros is one of zeros in both memories, wherever it is offered
        have zeros : port.mask.map value = Bits.zeros memory.width := by
          rw [Bits.isZero_iff.mp idle, List.length_map, (sized.writes port member).1]
        rw [zeros] at mask ⊢
        rw [mask.eq_zeros, ite_self, ite_self]
        exact .refl _
  data := map_below_of_port below member fun net here => by simp [WritePort.nets, here]

theorem offers_below (decided : ∀ port ∈ memory.writePorts, Decided value port) (row : Nat) :
    List.Forall₂ RowWrite.Below (memory.writePorts.map (memory.offer value row))
      (memory.writePorts.map (memory.offer value' row)) := by
  rw [List.forall₂_map_left_iff, List.forall₂_map_right_iff]
  exact List.forall₂_same.mpr fun port member => offer_below below sized member (decided port member) row

end Offers

theorem commitRow_below {word word' : Bits} (h : word.Below word') {writes writes' : List RowWrite}
    (offered : List.Forall₂ RowWrite.Below writes writes') :
    (commitRow word writes).Below (commitRow word' writes') := by
  have both (written written' : Written) (words : written.word.Below written'.word)
      (masks : written.mask.Below written'.mask) :
      (writes.foldl Written.commit written).word.Below (writes'.foldl Written.commit written').word := by
    induction offered generalizing written written' with
    | nil => exact words
    | cons first _ ih =>
      refine ih _ _ ?_ (masks.zipWith Trit.Below.or first.mask)
      have unknowns : Bits.Below (Bits.unknowns written.word.length) (Bits.unknowns written'.word.length) := by
        rw [words.length_eq]
        exact .refl _
      exact (words.update first.mask first.data).update (masks.zipWith Trit.Below.and first.mask) unknowns
  refine both _ _ h ?_
  rw [h.length_eq]
  exact .refl _

theorem observe_below {word word' : Bits} (h : word.Below word') (seen : Visibility) {write write' : RowWrite}
    (offered : write.Below write') : (observe word seen write).Below (observe word' seen write') := by
  cases seen with
  | after => exact h.update offered.mask offered.data
  | before => exact h
  | undefined =>
    have unknowns : Bits.Below (Bits.unknowns word.length) (Bits.unknowns word'.length) := by
      rw [h.length_eq]
      exact .refl _
    exact h.update offered.mask unknowns

theorem observeAll_below {word word' : Bits} (h : word.Below word') {writes writes' : List RowWrite}
    (offered : List.Forall₂ RowWrite.Below writes writes') (visibility : List Visibility) :
    Bits.Below ((writes.zip visibility).foldl (fun word entry => observe word entry.2 entry.1) word)
      ((writes'.zip visibility).foldl (fun word entry => observe word entry.2 entry.1) word') := by
  induction offered generalizing visibility word word' with
  | nil => exact h
  | cons first _ ih =>
    cases visibility with
    | nil => exact h
    | cons seen others => exact ih (observe_below h seen first) others

/-- Held words side by side with the ports that they belong to. -/
theorem zip_held_below (held : List.Forall₂ (Option.Rel Bits.Below) low.held high.held) (ports : List ReadPort) :
    List.Forall₂ (fun entry entry' : ReadPort × Option Bits => entry.1 = entry'.1 ∧ entry.1 ∈ ports ∧
      entry'.2 ∈ high.held ∧ Option.Rel Bits.Below entry.2 entry'.2) (ports.zip low.held) (ports.zip high.held) := by
  obtain ⟨same, related⟩ := forall₂_iff_getElem?.mp held
  refine forall₂_iff_getElem?.mpr ⟨by simp [same], ?_⟩
  rintro i ⟨port, word⟩ ⟨port', word'⟩ at_low at_high
  obtain ⟨at_port, at_word⟩ := List.getElem?_zip_eq_some.mp at_low
  obtain ⟨at_port', at_word'⟩ := List.getElem?_zip_eq_some.mp at_high
  exact ⟨Option.some.inj (at_port.symm.trans at_port'), List.mem_of_getElem? at_port, List.mem_of_getElem? at_word',
    related i word word' at_word at_word'⟩

/-- A memory that knows less shows less. -/
theorem output_below (sized : memory.Sized) (full : memory.Full high) (h : low.Below high)
    (below : ∀ net ∈ (Cell.memory memory).sources, (value net).Below (value' net)) (aligned : memory.Aligned low) :
    (memory.output value low).Below (memory.output value' high) := by
  rw [output_eq_flatten, output_eq_flatten]
  apply List.rel_flatten
  unfold portWords
  rw [List.forall₂_map_left_iff, List.forall₂_map_right_iff]
  refine forall₂_of_mem (zip_held_below h.held memory.readPorts) ?_
  rintro ⟨port, held⟩ ⟨_, held'⟩ at_entry ⟨rfl, member, at_high, related⟩
  have wide := length_portOutput sized full value' member at_high
  cases related with
  | some words => exact words
  | none =>
    have bare : port.register = none := by
      obtain ⟨p, at_place⟩ := List.mem_iff_getElem?.mp at_entry
      obtain ⟨at_port, at_held⟩ := List.getElem?_zip_eq_some.mp at_place
      obtain ⟨held, at_held', same⟩ := aligned.held at_port
      cases at_held.symm.trans at_held'
      simpa using same.symm
    have addr : Bits.Below (port.addr.map value) (port.addr.map value') :=
      .map fun net at_addr => below net (List.mem_flatMap.mpr ⟨port, member, by simpa [bare] using at_addr⟩)
    dsimp only at wide ⊢
    cases hit : memory.rowOf (port.addr.map value) with
    | none =>
      rw [portOutput_of_miss hit]
      exact Bits.unknowns_below (wide.trans (sized.reads port member).symm)
    | some row =>
      rw [portOutput_of_hit hit, portOutput_of_hit (rowOf_below addr hit)]
      exact h.getD_row row

section Cycle

variable (sized : memory.Sized) (full : memory.Full high) (h : low.Below high)
  (below : ∀ net ∈ memory.nets, (value net).Below (value' net))
  (decided : ∀ port ∈ memory.writePorts, Decided value port)
include sized full h below decided

/-- What a register samples from a row of the memory. -/
theorem sampled_below {row : Nat} (inside : row < memory.depth) (visibility : List Visibility) :
    Bits.Below (sampled (memory.rowWrites value) visibility row (low.rows.getD row []))
      (sampled (memory.rowWrites value') visibility row (high.rows.getD row [])) := by
  obtain ⟨word, found, wide⟩ := full.rows row inside
  have high_wide : (high.rows.getD row []).length = memory.width := by
    simp [Array.getD_eq_getD_getElem?, found, wide]
  have low_wide := (h.getD_row row).length_eq.trans high_wide
  rw [sampled_rowWrites sized value visibility row low_wide, sampled_rowWrites sized value' visibility row high_wide]
  exact observeAll_below (h.getD_row row) (offers_below below sized decided row) visibility

theorem nextHeld_below {port : ReadPort} (member : port ∈ memory.readPorts) {register : Register}
    (registered : port.register = some register) {held held' : Bits} (words : held.Below held')
    (wide : held'.length = memory.width) :
    (memory.nextHeld value low.rows port register held).Below
      (memory.nextHeld value' high.rows port register held') := by
  have port_wide := sized.reads port member
  have at_port {net : Net} (inside : net ∈ port.nets) : (value net).Below (value' net) :=
    below net (List.mem_append_right _ (List.mem_flatMap.mpr ⟨port, member, inside⟩))
  have enable : (value register.enable.net).Below (value' register.enable.net) :=
    at_port (by simp [ReadPort.nets, registered, Register.nets])
  have addr : Bits.Below (port.addr.map value) (port.addr.map value') :=
    .map fun net at_addr => at_port (List.mem_append_left _ at_addr)
  have next_wide := full.length_nextHeld sized value' member register wide
  unfold nextHeld at next_wide ⊢
  cases clocked : register.clock.isConst with
  | true => exact words
  | false =>
    simp only [clocked, Bool.false_eq_true, if_false] at next_wide ⊢
    rcases enable.active register.enable with unknown | same
    · rw [unknown]
      exact Bits.unknowns_below (next_wide.trans port_wide.symm)
    · rw [← same] at next_wide ⊢
      cases active : register.enable.active (value register.enable.net) with
      | zero => exact words
      | unknown => exact Bits.unknowns_below (by simp [Bits.unknowns])
      | one =>
        simp only [active] at next_wide ⊢
        cases hit : memory.rowOf (port.addr.map value) with
        | none => exact Bits.unknowns_below (next_wide.trans port_wide.symm)
        | some row =>
          simp only [rowOf_below addr hit]
          exact sampled_below sized full h below decided (rowOf_lt hit) register.visibility

/-- A memory that knows less knows less after a clock cycle. -/
theorem nextContents_below : (memory.nextContents value low).Below (memory.nextContents value' high) where
  rows row := by
    unfold nextContents
    rw [getElem?_commit, getElem?_commit]
    have related := h.rows row
    by_cases inside : row < memory.depth
    · obtain ⟨word', found, wide⟩ := full.rows row inside
      rw [found] at related ⊢
      cases at_low : low.rows[row]? with
      | none =>
        rw [at_low] at related
        cases related
      | some word =>
        rw [at_low] at related
        cases related with
        | some words =>
          rw [Option.map_some, Option.map_some, commitRow_rowWrites sized value row (words.length_eq.trans wide),
            commitRow_rowWrites sized value' row wide]
          exact .some (commitRow_below words (offers_below below sized decided row))
    · have outside := Nat.le_of_not_lt inside
      rw [no_writes_outside value outside, no_writes_outside value' outside]
      simpa [commitRow_nil] using related
  held := by
    unfold nextContents
    dsimp only
    rw [List.forall₂_map_left_iff, List.forall₂_map_right_iff]
    refine (zip_held_below h.held memory.readPorts).imp ?_
    rintro ⟨port, held⟩ ⟨_, held'⟩ ⟨rfl, member, at_high, related⟩
    dsimp only
    cases registered : port.register with
    | none => exact related
    | some register =>
      cases related with
      | none => exact .none
      | some words =>
        have wide := full.held _ at_high
        exact .some (nextHeld_below sized full h below decided member registered words wide)

end Cycle

end Memory

end BankedMemory
