import BankedMemory.Proofs.Lists
import BankedMemory.Proofs.Network.Shares
import BankedMemory.Proofs.Construction.Builds

/-!
# Ports that a build accepts

A build checks all declared ports against the shape of the memory. The words at accepted ports are as wide as a row,
and so is the mask, which has the bit that enables each place.
-/

namespace BankedMemory.Storage

open Build

namespace Ports

variable {ports : Ports} {value : Net → Trit} {i : Nat} {writer : Writer}

/-- The nets at all ports. -/
def nets (ports : Ports) : List Net :=
  ports.writers.flatMap (fun writer => writer.addr ++ writer.data ++ writer.enable) ++
    ports.readers.flatMap fun reader => reader.enable :: reader.addr

theorem writer_nets (found : ports.writers[i]? = some writer) {net : Net}
    (member : net ∈ writer.addr ++ writer.data ++ writer.enable) : net ∈ ports.nets :=
  List.mem_append_left _ (List.mem_flatMap.mpr ⟨writer, List.mem_of_getElem? found, member⟩)

theorem reader_nets {k : Nat} {reader : Reader} (found : ports.readers[k]? = some reader) {net : Net}
    (member : net ∈ reader.enable :: reader.addr) : net ∈ ports.nets :=
  List.mem_append_right _ (List.mem_flatMap.mpr ⟨reader, List.mem_of_getElem? found, member⟩)

/-- An accepted writer has words as wide as a row. -/
theorem widths_of_verify (verified : ports.verify = .ok ()) (found : ports.writers[i]? = some writer) :
    writer.addr.length = ports.blueprint.addressWidth ∧ writer.data.length = ports.blueprint.width ∧
      writer.mask.length = ports.blueprint.width := by
  unfold verify at verified
  obtain ⟨_, _, rest⟩ := except_bind_eq_ok.mp verified
  obtain ⟨_, writers, _⟩ := except_bind_eq_ok.mp rest
  have entry : (writer, i) ∈ ports.writers.zipIdx := List.mem_zipIdx_iff_getElem?.mpr found
  have here := forM_eq_ok writers (writer, i) entry
  unfold verifyWriter at here
  split at here
  · cases here
  · rename_i fits
    simpa only [not_or, not_not] using fits

theorem length_addr (verified : ports.verify = .ok ()) :
    ∀ i < ports.writers.length, ((ports.traffic value).addr i).length = ports.blueprint.addressWidth := by
  intro i inside
  have found := List.getElem?_eq_getElem inside
  simpa [traffic, found] using (widths_of_verify verified found).1

theorem data_eq_tabulate (verified : ports.verify = .ok ()) (found : ports.writers[i]? = some writer) :
    writer.data.map value = Bits.tabulate ports.blueprint.width ((ports.traffic value).data i) := by
  obtain ⟨_, wide, _⟩ := widths_of_verify verified found
  apply List.ext_getElem?
  intro place
  by_cases inside : place < ports.blueprint.width
  · rw [Bits.getElem?_tabulate inside, List.getElem?_map]
    have at_place := List.getElem?_eq_getElem (l := writer.data) (wide ▸ inside)
    simp [traffic, found, at_place]
  · rw [List.getElem?_eq_none (by simp [wide]; omega), List.getElem?_eq_none (by simp; omega)]

end Ports

theorem repeated_single (net : Net) (count : Nat) : Bus.repeated [net] count = List.replicate count net := by
  unfold Bus.repeated
  induction count with
  | zero => rfl
  | succ count ih => simp [List.replicate_succ, ih]

theorem getElem?_flatMap_replicate (nets : Bus) {count : Nat} (positive : 0 < count) (place : Nat) :
    (nets.flatMap (List.replicate count))[place]? = nets[place / count]? := by
  have wide : ∀ l ∈ nets.map (List.replicate count), l.length = count := by simp
  have copies := getElem?_flatten_of_length wide (k := place / count) (Nat.mod_lt place positive)
  rw [Nat.div_add_mod' place count] at copies
  rw [List.flatMap_def, copies, List.getElem?_map]
  cases nets[place / count]? with
  | none => rfl
  | some net => exact List.getElem?_replicate_of_lt (Nat.mod_lt place positive)

/-- The mask has at each place the net that enables it. -/
theorem Writer.getElem?_mask {writer : Writer} {place : Nat} (inside : place < writer.data.length)
    (full : writer.mask.length = writer.data.length) : writer.mask[place]? = writer.enableAt place := by
  rw [length_mask] at full
  unfold maskWidth at full
  unfold mask enableAt
  cases grouped : writer.granularity with
  | some count =>
    simp only [grouped] at full
    have positive : 0 < count := by
      rcases Nat.eq_zero_or_pos count with rfl | positive
      · omega
      · exact positive
    exact getElem?_flatMap_replicate writer.enable positive place
  | none =>
    simp only [grouped] at full
    have single : writer.enable.length = 1 :=
      Nat.eq_of_mul_eq_mul_right (Nat.zero_lt_of_lt inside) (by rw [full, Nat.one_mul])
    obtain ⟨net, enable_eq⟩ := List.length_eq_one_iff.mp single
    simp only [enable_eq, repeated_single, List.getElem?_replicate_of_lt inside, List.getElem?_cons_zero]

namespace Ports

variable {ports : Ports} {value : Net → Trit} {i : Nat} {writer : Writer}

/-- Each place of a row is enabled by a net, which the mask has at this place. -/
theorem exists_enable (verified : ports.verify = .ok ()) (found : ports.writers[i]? = some writer) {place : Nat}
    (inside : place < ports.blueprint.width) :
    ∃ net, writer.enableAt place = some net ∧ writer.mask[place]? = some net := by
  obtain ⟨_, wide, full⟩ := widths_of_verify verified found
  have at_place := List.getElem?_eq_getElem (l := writer.mask) (full ▸ inside)
  have enabled := Writer.getElem?_mask (show place < writer.data.length by omega) (full.trans wide.symm)
  exact ⟨_, enabled.symm.trans at_place, at_place⟩

theorem mask_eq_tabulate (verified : ports.verify = .ok ()) (found : ports.writers[i]? = some writer) :
    writer.mask.map value = Bits.tabulate ports.blueprint.width ((ports.traffic value).mask i) := by
  obtain ⟨_, _, full⟩ := widths_of_verify verified found
  apply List.ext_getElem?
  intro place
  by_cases inside : place < ports.blueprint.width
  · obtain ⟨net, enables, at_place⟩ := exists_enable verified found inside
    rw [Bits.getElem?_tabulate inside, List.getElem?_map, at_place]
    simp [traffic, found, enables]
  · rw [List.getElem?_eq_none (by simp [full]; omega), List.getElem?_eq_none (by simp; omega)]

/-- The mask of an accepted writer is the list of the nets that enable the places of a row. -/
theorem mask_eq_map (verified : ports.verify = .ok ()) (found : ports.writers[i]? = some writer) :
    writer.mask = (List.range ports.blueprint.width).map fun place => (writer.enableAt place).getD (.const .zero) := by
  obtain ⟨_, _, full⟩ := widths_of_verify verified found
  apply List.ext_getElem?
  intro place
  by_cases inside : place < ports.blueprint.width
  · obtain ⟨net, enables, at_place⟩ := exists_enable verified found inside
    rw [at_place, List.getElem?_map, List.getElem?_range inside, Option.map_some, enables, Option.getD_some]
  · rw [List.getElem?_eq_none (by omega), List.getElem?_eq_none (by simp; omega)]

/-- Every net of the mask is one of the enable nets. -/
theorem mem_enable_of_mem_mask {net : Net} (member : net ∈ writer.mask) : net ∈ writer.enable := by
  unfold Writer.mask at member
  cases grouped : writer.granularity with
  | some count =>
    rw [grouped] at member
    obtain ⟨enable, at_enable, copied⟩ := List.mem_flatMap.mp member
    rwa [List.eq_of_mem_replicate copied]
  | none =>
    rw [grouped] at member
    obtain ⟨copy, at_copy, copied⟩ := List.mem_flatten.mp member
    rwa [List.eq_of_mem_replicate at_copy] at copied

end Ports

end BankedMemory.Storage
