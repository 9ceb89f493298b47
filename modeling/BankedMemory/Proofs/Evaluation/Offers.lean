import BankedMemory.Proofs.Evaluation.Widths

/-!
# What write ports offer to a row

In a cycle every write port can be taken to offer a write to each row: a write of no bits, unless it is clocked and
addresses the row. What a row becomes, and what a register samples of it, follows from these offers, port by port.
-/

namespace BankedMemory

namespace Bits

theorem isZero_iff {word : Bits} : word.isZero = true ↔ word = zeros word.length := by
  unfold isZero zeros
  rw [List.all_eq_true, List.eq_replicate_iff]
  simp

theorem update_zeros {width : Nat} {word data : Bits} (word_wide : word.length = width)
    (data_wide : data.length = width) : word.update (zeros width) data = word := by
  subst word_wide
  induction word generalizing data with
  | nil => rfl
  | cons bit rest ih =>
    cases data with
    | nil => cases data_wide
    | cons first data =>
      have tail := ih (Nat.succ.inj data_wide)
      unfold zeros at tail ⊢
      rw [List.length_cons, List.replicate_succ]
      simp only [update, Trit.select_zero, tail]

theorem and_zeros (mask : Bits) : List.zipWith Trit.and mask (zeros mask.length) = zeros mask.length := by
  have bit (x : Trit) : x.and .zero = .zero := by cases x <;> rfl
  unfold zeros
  induction mask with
  | nil => rfl
  | cons x rest ih => simp only [List.length_cons, List.replicate_succ, List.zipWith_cons_cons, bit, ih]

theorem or_zeros (mask : Bits) : List.zipWith Trit.or mask (zeros mask.length) = mask := by
  have bit (x : Trit) : x.or .zero = x := by cases x <;> rfl
  unfold zeros
  induction mask with
  | nil => rfl
  | cons x rest ih => simp only [List.length_cons, List.replicate_succ, List.zipWith_cons_cons, bit, ih]

end Bits

/-- Words that are as wide as a row. -/
structure Memory.Written.Fits (width : Nat) (written : Memory.Written) : Prop where
  word : written.word.length = width
  mask : written.mask.length = width

namespace Memory

variable {width : Nat}

/-- A write of no bits changes nothing. -/
theorem Written.commit_zeros {written : Written} (fits : written.Fits width) {write : RowWrite}
    (idle : write.mask = Bits.zeros width) (wide : write.data.length = width) : written.commit write = written := by
  obtain ⟨word, mask⟩ := written
  obtain ⟨word_wide, mask_wide⟩ := fits
  dsimp only at word_wide mask_wide
  have collision : List.zipWith Trit.and mask (Bits.zeros width) = Bits.zeros width := by
    rw [← mask_wide, Bits.and_zeros]
  have unknown_wide : (Bits.unknowns word.length).length = width := by simp [Bits.unknowns, word_wide]
  unfold Written.commit
  simp only [idle, collision, Bits.update_zeros word_wide wide, Bits.update_zeros word_wide unknown_wide]
  rw [← mask_wide, Bits.or_zeros]

theorem observe_zeros {word : Bits} (word_wide : word.length = width) (visibility : Visibility) {write : RowWrite}
    (idle : write.mask = Bits.zeros width) (wide : write.data.length = width) :
    observe word visibility write = word := by
  unfold observe
  rw [idle]
  cases visibility with
  | after => exact Bits.update_zeros word_wide wide
  | before => rfl
  | undefined => exact Bits.update_zeros word_wide (by simp [Bits.unknowns, word_wide])

theorem Written.Fits.commit {written : Written} (fits : written.Fits width) {write : RowWrite}
    (wide : write.Fits width) : (written.commit write).Fits width where
  word := by simp [Written.commit, Bits.length_update, Bits.unknowns, fits.word, fits.mask, wide.1, wide.2]
  mask := by simp [Written.commit, fits.mask, wide.1]

variable {memory : Memory}

/-- What a write port offers to a row: nothing, unless it is clocked and addresses the row. -/
def offer (memory : Memory) (value : Net → Trit) (row : Nat) (port : WritePort) : RowWrite where
  row
  mask :=
    if port.clock.isConst = false ∧ memory.rowOf (port.addr.map value) = some row then port.mask.map value
    else Bits.zeros memory.width
  data := port.data.map value

/-- The write of a port to a row, if it writes to it. -/
def rowWriteTo (memory : Memory) (value : Net → Trit) (row : Nat) (port : WritePort) : Option RowWrite :=
  (memory.rowWrite value port).filter fun write => write.row = row

theorem Sized.fits_offer (sized : memory.Sized) (value : Net → Trit) (row : Nat) {port : WritePort}
    (member : port ∈ memory.writePorts) : (memory.offer value row port).Fits memory.width := by
  obtain ⟨mask, data⟩ := sized.writes port member
  refine ⟨?_, (List.length_map _).trans data⟩
  unfold offer
  dsimp only
  split
  · exact (List.length_map _).trans mask
  · exact List.length_replicate

/-- A port writes what it offers to a row, or offers no bits. -/
theorem rowWriteTo_cases (sized : memory.Sized) (value : Net → Trit) (row : Nat) {port : WritePort}
    (member : port ∈ memory.writePorts) :
    memory.rowWriteTo value row port = some (memory.offer value row port) ∨
      memory.rowWriteTo value row port = none ∧ (memory.offer value row port).mask = Bits.zeros memory.width := by
  have mask_wide : (port.mask.map value).length = memory.width := (List.length_map _).trans (sized.writes port member).1
  unfold rowWriteTo rowWrite strobe offer
  cases port.clock.isConst with
  | true => exact Or.inr ⟨rfl, rfl⟩
  | false =>
    cases hit : memory.rowOf (port.addr.map value) with
    | none => exact Or.inr ⟨rfl, by simp⟩
    | some target =>
      by_cases idle : Bits.isZero (port.mask.map value) = true
      · have zeros : port.mask.map value = Bits.zeros memory.width := mask_wide ▸ Bits.isZero_iff.mp idle
        refine Or.inr ⟨by simp [idle], ?_⟩
        dsimp only
        rw [zeros, ite_self]
      · by_cases same : target = row
        · subst same
          exact Or.inl (by simp [idle])
        · exact Or.inr ⟨by simp [idle, same], by simp [same]⟩

/-- A row takes what all ports offer to it. -/
theorem commitRow_rowWrites (sized : memory.Sized) (value : Net → Trit) (row : Nat) {word : Bits}
    (wide : word.length = memory.width) :
    commitRow word (((memory.rowWrites value).filterMap id).filter (·.row = row)) =
      commitRow word (memory.writePorts.map (memory.offer value row)) := by
  have one (written : Written) (fits : written.Fits memory.width) {ports : List WritePort}
      (inside : ports ⊆ memory.writePorts) :
      (ports.filterMap (memory.rowWriteTo value row)).foldl Written.commit written =
        (ports.map (memory.offer value row)).foldl Written.commit written := by
    induction ports generalizing written with
    | nil => rfl
    | cons port rest ih =>
      obtain ⟨member, rest_inside⟩ := List.cons_subset.mp inside
      have offered := sized.fits_offer value row member
      rw [List.map_cons, List.foldl_cons]
      rcases rowWriteTo_cases sized value row member with writes | ⟨none, idle⟩
      · rw [List.filterMap_cons_some writes, List.foldl_cons]
        exact ih _ (fits.commit offered) rest_inside
      · rw [List.filterMap_cons_none none, Written.commit_zeros fits idle offered.2]
        exact ih _ fits rest_inside
  have listed : ((memory.rowWrites value).filterMap id).filter (·.row = row) =
      memory.writePorts.filterMap (memory.rowWriteTo value row) := by
    unfold rowWrites
    rw [List.filterMap_map, List.filter_filterMap]
    rfl
  unfold commitRow
  rw [listed, one _ ⟨wide, by simp [Bits.zeros, wide]⟩ (List.Subset.refl _)]

/-- A port writes to the row at its address. -/
theorem rowOf_of_rowWrite {port : WritePort} {write : RowWrite} (writes : memory.rowWrite value port = some write) :
    memory.rowOf (port.addr.map value) = some write.row := by
  unfold rowWrite at writes
  split at writes
  · cases writes
  · obtain ⟨⟨row, mask⟩, strobed, rfl⟩ := Option.map_eq_some_iff.mp writes
    unfold strobe at strobed
    dsimp only at strobed ⊢
    cases hit : memory.rowOf (port.addr.map value) with
    | none => simp [hit] at strobed
    | some target =>
      simp only [hit, Option.ite_none_left_eq_some, Option.some.injEq, Prod.mk.injEq] at strobed
      rw [strobed.2.1]

/-- No port writes to a row that the memory does not have. -/
theorem no_writes_outside (value : Net → Trit) {row : Nat} (outside : memory.depth ≤ row) :
    ((memory.rowWrites value).filterMap id).filter (·.row = row) = [] := by
  rw [List.filter_eq_nil_iff]
  intro write member
  obtain ⟨write?, at_write, rfl⟩ := List.mem_filterMap.mp member
  obtain ⟨port, _, writes⟩ := List.mem_map.mp at_write
  have := rowOf_lt (rowOf_of_rowWrite writes)
  simpa using by omega

theorem observe_rowWrite (sized : memory.Sized) (value : Net → Trit) (row : Nat) {port : WritePort}
    (member : port ∈ memory.writePorts) (seen : Visibility) {word : Bits} (wide : word.length = memory.width) :
    (match memory.rowWrite value port with
      | some write => if write.row = row then observe word seen write else word
      | none => word) = observe word seen (memory.offer value row port) := by
  rcases rowWriteTo_cases sized value row member with writes | ⟨none, idle⟩
  · obtain ⟨write, _⟩ := Option.filter_eq_some_iff.mp writes
    rw [write]
    exact if_pos rfl
  · rw [observe_zeros wide seen idle (sized.fits_offer value row member).2]
    cases write : memory.rowWrite value port with
    | none => rfl
    | some other =>
      rw [rowWriteTo, write, Option.filter_eq_none_iff] at none
      exact if_neg (by simpa using none other rfl)

/-- A register that samples a row looks at what all ports offer to it. -/
theorem sampled_rowWrites (sized : memory.Sized) (value : Net → Trit) (visibility : List Visibility) (row : Nat)
    {word : Bits} (wide : word.length = memory.width) :
    sampled (memory.rowWrites value) visibility row word =
      ((memory.writePorts.map (memory.offer value row)).zip visibility).foldl
        (fun word entry => observe word entry.2 entry.1) word := by
  have some_ports {ports : List WritePort} (inside : ports ⊆ memory.writePorts) :
      sampled (ports.map (memory.rowWrite value)) visibility row word =
        ((ports.map (memory.offer value row)).zip visibility).foldl
          (fun word entry => observe word entry.2 entry.1) word := by
    unfold sampled
    induction ports generalizing visibility word with
    | nil => rfl
    | cons port rest ih =>
      cases visibility with
      | nil => rfl
      | cons seen others =>
        obtain ⟨member, rest_inside⟩ := List.cons_subset.mp inside
        simp only [List.map_cons, List.zip_cons_cons, List.foldl_cons]
        have here := observe_rowWrite sized value row member seen wide
        have later := ih others (length_observe wide seen (sized.fits_offer value row member)) rest_inside
        exact (congrArg (fun word => List.foldl _ word _) here).trans later
  exact some_ports (List.Subset.refl _)

end Memory

end BankedMemory
