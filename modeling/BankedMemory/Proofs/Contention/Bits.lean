import BankedMemory.Proofs.Evaluation.Offers

/-!
# One bit of a row in a clock cycle

Seen at one place, the writes of a cycle offer bits to one bit of a row, one after the other. What is committed does
not depend on their order: with no offer the bit stays, a single offer is taken, and several at once leave the bit
unknown. What is sampled does depend on it: a bit is known in the end if it was put there for certain, or was there
from the start, and no later offer differs from it.
-/

namespace BankedMemory

/-- What a write offers to one bit of a row. -/
structure BitOffer where
  mask : Trit
  data : Trit
deriving DecidableEq

namespace BitOffer

/-- Whether the bit is written, or may be. -/
def active (offer : BitOffer) : Bool := offer.mask ≠ .zero

/-- Whether a bit that is there already stays, whether or not the offer is taken. -/
def Keeps (offer : BitOffer) (bit : Trit) : Prop := offer.mask = .zero ∨ offer.data = bit

end BitOffer

namespace Trit

/-- What becomes of a bit under all offers of a cycle that are active. -/
def contend (old : Trit) : List BitOffer → Trit
  | [] => old
  | [offer] => offer.mask.select old offer.data
  | _ :: _ :: _ => unknown

/-- The bit that is left when offers are taken one after the other. -/
def overlay (old : Trit) (offers : List BitOffer) : Trit :=
  offers.foldl (fun bit offer => offer.mask.select bit offer.data) old

theorem contend_of_two {old : Trit} {offers : List BitOffer} (several : 2 ≤ offers.length) :
    contend old offers = unknown := by
  match offers, several with
  | _ :: _ :: _, _ => rfl

/-- The order of the offers does not matter. -/
theorem contend_perm {old : Trit} {offers others : List BitOffer} (perm : offers.Perm others) :
    contend old offers = contend old others := by
  match offers with
  | [] => rw [perm.nil_eq]
  | [offer] => rw [perm.singleton_eq]
  | first :: second :: rest =>
    have several : 2 ≤ others.length := by
      rw [← perm.length_eq]
      simp
    exact (contend_of_two several).symm

theorem select_unknown_new {selection : Trit} (taken : selection ≠ zero) (old : Trit) :
    selection.select old unknown = unknown := by
  cases selection with
  | zero => exact absurd rfl taken
  | one => rfl
  | unknown => cases old <;> rfl

/-- A known bit comes about from an offer that is sure to be taken, or from the bit before if the offer keeps it. -/
theorem select_eq_iff {selection old new bit : Trit} (known : bit ≠ unknown) :
    selection.select old new = bit ↔
      old = bit ∧ BitOffer.Keeps ⟨selection, new⟩ bit ∨ selection = one ∧ new = bit := by
  unfold BitOffer.Keeps
  cases selection with
  | zero => simp [select]
  | one => simp only [select]; tauto
  | unknown =>
    simp only [select]
    split
    · rename_i same
      simp only [same, reduceCtorEq, false_or, false_and, or_false, and_self]
    · rename_i differ
      simp only [reduceCtorEq, false_or, false_and, or_false]
      constructor
      · intro absent
        exact absurd absent.symm known
      · rintro ⟨rfl, rfl⟩
        exact absurd rfl differ

/-- Offers from one place on keep a bit. -/
def KeepFrom (start : Nat) (offers : List BitOffer) (bit : Trit) : Prop :=
  ∀ (i : Nat) offer, start ≤ i → offers[i]? = some offer → offer.Keeps bit

theorem keepFrom_zero_cons {offer : BitOffer} {rest : List BitOffer} {bit : Trit} :
    KeepFrom 0 (offer :: rest) bit ↔ offer.Keeps bit ∧ KeepFrom 0 rest bit := by
  constructor
  · intro keep
    exact ⟨keep 0 offer (Nat.le_refl 0) rfl, fun i other _ found => keep (i + 1) other (Nat.zero_le _) found⟩
  · rintro ⟨first, later⟩ i other _ found
    cases i with
    | zero => exact Option.some.inj found ▸ first
    | succ i => exact later i other (Nat.zero_le i) found

theorem keepFrom_succ_cons {offer : BitOffer} {rest : List BitOffer} {bit : Trit} {start : Nat} :
    KeepFrom (start + 1) (offer :: rest) bit ↔ KeepFrom start rest bit := by
  constructor
  · intro keep i other behind found
    exact keep (i + 1) other (Nat.succ_le_succ behind) found
  · intro keep i other behind found
    cases i with
    | zero => omega
    | succ i => exact keep i other (Nat.le_of_succ_le_succ behind) found

/-- A known bit is left if it was there and is kept, or is put there for certain and is kept from then on. -/
theorem overlay_eq_iff {old bit : Trit} {offers : List BitOffer} (known : bit ≠ unknown) :
    overlay old offers = bit ↔ old = bit ∧ KeepFrom 0 offers bit ∨
      ∃ j, offers[j]? = some ⟨one, bit⟩ ∧ KeepFrom (j + 1) offers bit := by
  induction offers generalizing old with
  | nil => simp [overlay, KeepFrom]
  | cons offer rest ih =>
    have unfolded : overlay old (offer :: rest) = overlay (offer.mask.select old offer.data) rest := rfl
    rw [unfolded, ih, select_eq_iff known, keepFrom_zero_cons]
    constructor
    · rintro (⟨⟨same, keeps⟩ | ⟨sure, same⟩, later⟩ | ⟨j, found, later⟩)
      · exact Or.inl ⟨same, keeps, later⟩
      · refine Or.inr ⟨0, ?_, keepFrom_succ_cons.mpr later⟩
        rw [List.getElem?_cons_zero, ← sure, ← same]
      · exact Or.inr ⟨j + 1, found, keepFrom_succ_cons.mpr later⟩
    · rintro (⟨same, keeps, later⟩ | ⟨j, found, later⟩)
      · exact Or.inl ⟨Or.inl ⟨same, keeps⟩, later⟩
      · rw [keepFrom_succ_cons] at later
        cases j with
        | zero =>
          obtain rfl := Option.some.inj found
          exact Or.inl ⟨Or.inr ⟨rfl, rfl⟩, later⟩
        | succ j => exact Or.inr ⟨j, found, later⟩

/-- Offers that are not active make no difference. -/
theorem overlay_filter (old : Trit) (offers : List BitOffer) :
    overlay old (offers.filter BitOffer.active) = overlay old offers := by
  induction offers generalizing old with
  | nil => rfl
  | cons offer rest ih =>
    by_cases idle : offer.mask = zero
    · rw [List.filter_cons_of_neg (by simp [BitOffer.active, idle]), ih]
      simp [overlay, idle, select_zero]
    · rw [List.filter_cons_of_pos (by simp [BitOffer.active, idle])]
      exact ih _

/-- With at most one active offer, taking offers one after the other is taking them at once. -/
theorem overlay_eq_contend {old : Trit} {offers : List BitOffer}
    (few : (offers.filter BitOffer.active).length ≤ 1) :
    overlay old offers = contend old (offers.filter BitOffer.active) := by
  rw [← overlay_filter]
  match offers.filter BitOffer.active, few with
  | [], _ => rfl
  | [offer], _ => rfl

end Trit

namespace Bits

/-- The bit at a place of a word, which is unknown behind its end. -/
def bitAt (word : Bits) (place : Nat) : Trit := word.getD place .unknown

variable {word mask data : Bits} {place : Nat}

theorem getElem?_eq_bitAt (inside : place < word.length) : word[place]? = some (word.bitAt place) := by
  simp [bitAt, List.getD_eq_getElem?_getD, inside]

theorem bitAt_unknowns (width place : Nat) : (unknowns width).bitAt place = .unknown := by
  rw [bitAt, unknowns, List.getD_eq_getElem?_getD, List.getElem?_replicate]
  split
  · rfl
  · rfl

theorem bitAt_zeros {width place : Nat} (inside : place < width) : (zeros width).bitAt place = .zero := by
  simp [bitAt, zeros, List.getD_eq_getElem?_getD, inside]

/-- Words of one width with the same bits at all places are equal. -/
theorem eq_of_bitAt {other : Bits} (wide : word.length = other.length)
    (same : ∀ place < word.length, word.bitAt place = other.bitAt place) : word = other := by
  apply List.ext_getElem?
  intro place
  by_cases inside : place < word.length
  · rw [getElem?_eq_bitAt inside, getElem?_eq_bitAt (wide ▸ inside), same place inside]
  · have outside := Nat.le_of_not_lt inside
    rw [List.getElem?_eq_none outside, List.getElem?_eq_none (wide ▸ outside)]

theorem bitAt_update (mask_wide : mask.length = word.length) (data_wide : data.length = word.length) (place : Nat) :
    (word.update mask data).bitAt place = (mask.bitAt place).select (word.bitAt place) (data.bitAt place) := by
  induction word generalizing mask data place with
  | nil => rw [List.length_eq_zero_iff.mp mask_wide, List.length_eq_zero_iff.mp data_wide]; rfl
  | cons bit rest ih =>
    match mask, data, mask_wide, data_wide with
    | m :: mask, d :: data, mask_wide, data_wide =>
      cases place with
      | zero => rfl
      | succ place => exact ih (Nat.succ.inj mask_wide) (Nat.succ.inj data_wide) place

theorem bitAt_zipWith {gate : Trit → Trit → Trit} {other : Bits} (wide : other.length = word.length)
    (inside : place < word.length) :
    bitAt (List.zipWith gate word other) place = gate (word.bitAt place) (other.bitAt place) := by
  simp [bitAt, List.getD_eq_getElem?_getD, inside, wide ▸ inside]

end Bits

/-- What a write offers at a place. -/
def RowWrite.bitOffer (write : RowWrite) (place : Nat) : BitOffer := ⟨write.mask.bitAt place, write.data.bitAt place⟩

/-- What an offer amounts to for a register that sees it so. -/
def Visibility.shown (offer : BitOffer) : Visibility → BitOffer
  | .after => offer
  | .before => ⟨.zero, offer.data⟩
  | .undefined => ⟨offer.mask, .unknown⟩

namespace Memory

variable {width place : Nat}

theorem Sized.fits_offers {memory : Memory} (sized : memory.Sized) (value : Net → Trit) (row : Nat) :
    ∀ write ∈ memory.writePorts.map (memory.offer value row), write.Fits memory.width := by
  intro write member
  obtain ⟨port, at_port, rfl⟩ := List.mem_map.mp member
  exact sized.fits_offer value row at_port

/-- A bit that some write has concerned stays as it is or becomes unknown, and any other one is contended for. -/
theorem bitAt_commitAll {written : Written} (fits : written.Fits width) {writes : List RowWrite}
    (wide : ∀ write ∈ writes, write.Fits width) (inside : place < width) :
    (writes.foldl Written.commit written).word.bitAt place =
      let active := (writes.map (·.bitOffer place)).filter BitOffer.active
      if written.mask.bitAt place = .zero then Trit.contend (written.word.bitAt place) active
      else if active = [] then written.word.bitAt place else .unknown := by
  induction writes generalizing written with
  | nil => simp [Trit.contend]
  | cons write rest ih =>
    have here := wide write List.mem_cons_self
    have inside_mask : place < written.mask.length := fits.mask ▸ inside
    have mask_wide : write.mask.length = written.mask.length := here.1.trans fits.mask.symm
    have word_bit : (written.commit write).word.bitAt place =
        ((written.mask.bitAt place).and (write.mask.bitAt place)).select
          ((write.mask.bitAt place).select (written.word.bitAt place) (write.data.bitAt place)) .unknown := by
      have first := Bits.length_update (here.1.trans fits.word.symm) (here.2.trans fits.word.symm)
      unfold Written.commit
      rw [Bits.bitAt_update, Bits.bitAt_update (here.1.trans fits.word.symm) (here.2.trans fits.word.symm),
        Bits.bitAt_zipWith mask_wide inside_mask, Bits.bitAt_unknowns]
      · simp [first, fits.mask, fits.word, here.1]
      · simp [first, Bits.unknowns]
    have mask_bit : (written.commit write).mask.bitAt place =
        (written.mask.bitAt place).or (write.mask.bitAt place) := Bits.bitAt_zipWith mask_wide inside_mask
    rw [List.foldl_cons, ih (fits.commit here) fun other member => wide other (List.mem_cons_of_mem write member),
      word_bit, mask_bit, List.map_cons]
    -- only an active offer changes the bit, and only the first one changes it to a known bit
    by_cases idle : write.mask.bitAt place = .zero
    · have left : (written.mask.bitAt place).and .zero = .zero := Trit.and_eq_zero_iff.mpr (Or.inr rfl)
      have same : (written.mask.bitAt place).or .zero = .zero ↔ written.mask.bitAt place = .zero := by
        rw [Trit.or_eq_zero_iff]
        exact and_iff_left rfl
      rw [List.filter_cons_of_neg (by simp [BitOffer.active, RowWrite.bitOffer, idle])]
      simp only [idle, left, Trit.select_zero, same]
    · have concerned : (written.mask.bitAt place).or (write.mask.bitAt place) ≠ .zero := fun zero =>
        idle (Trit.or_eq_zero_iff.mp zero).2
      rw [List.filter_cons_of_pos (by simp [BitOffer.active, RowWrite.bitOffer, idle])]
      simp only [if_neg concerned, reduceCtorEq, if_false]
      by_cases untouched : written.mask.bitAt place = .zero
      · have no_collision : Trit.zero.and (write.mask.bitAt place) = .zero := Trit.and_eq_zero_iff.mpr (Or.inl rfl)
        rw [if_pos untouched, untouched, no_collision, Trit.select_zero]
        cases (rest.map (·.bitOffer place)).filter BitOffer.active with
        | nil => rfl
        | cons other others => rfl
      · have collision : (written.mask.bitAt place).and (write.mask.bitAt place) ≠ .zero := fun zero =>
          (Trit.and_eq_zero_iff.mp zero).elim untouched idle
        rw [if_neg untouched, Trit.select_unknown_new collision, ite_self]

/-- What a row becomes, bit by bit. -/
theorem bitAt_commitRow {word : Bits} (word_wide : word.length = width) {writes : List RowWrite}
    (wide : ∀ write ∈ writes, write.Fits width) (inside : place < width) :
    (commitRow word writes).bitAt place =
      Trit.contend (word.bitAt place) ((writes.map (·.bitOffer place)).filter BitOffer.active) := by
  have fits : Written.Fits width ⟨word, Bits.zeros word.length⟩ := ⟨word_wide, by simp [Bits.zeros, word_wide]⟩
  have zero : (Bits.zeros word.length).bitAt place = .zero := Bits.bitAt_zeros (word_wide ▸ inside)
  exact (bitAt_commitAll fits wide inside).trans (if_pos zero)

/-- The order of the writes does not matter to a row. -/
theorem commitRow_perm {word : Bits} (word_wide : word.length = width) {writes others : List RowWrite}
    (wide : ∀ write ∈ writes, write.Fits width) (perm : writes.Perm others) :
    commitRow word writes = commitRow word others := by
  have wide' : ∀ write ∈ others, write.Fits width := fun write member => wide write (perm.mem_iff.mpr member)
  have length := length_commitRow word_wide wide
  refine Bits.eq_of_bitAt (length.trans (length_commitRow word_wide wide').symm) fun place inside => ?_
  rw [bitAt_commitRow word_wide wide (length ▸ inside), bitAt_commitRow word_wide wide' (length ▸ inside)]
  exact Trit.contend_perm ((perm.map _).filter _)

theorem bitAt_observe {word : Bits} (word_wide : word.length = width) (seen : Visibility) {write : RowWrite}
    (wide : write.Fits width) (place : Nat) : (observe word seen write).bitAt place =
      (seen.shown (write.bitOffer place)).mask.select (word.bitAt place) (seen.shown (write.bitOffer place)).data := by
  have mask_wide := wide.1.trans word_wide.symm
  cases seen with
  | after => exact Bits.bitAt_update mask_wide (wide.2.trans word_wide.symm) place
  | before => rfl
  | undefined =>
    have unknown_wide : (Bits.unknowns word.length).length = word.length := List.length_replicate
    refine (Bits.bitAt_update mask_wide unknown_wide place).trans ?_
    rw [Bits.bitAt_unknowns]
    rfl

/-- What a register samples, bit by bit. -/
theorem bitAt_observeAll {word : Bits} (word_wide : word.length = width) {entries : List (RowWrite × Visibility)}
    (wide : ∀ entry ∈ entries, entry.1.Fits width) (place : Nat) :
    (entries.foldl (fun word entry => observe word entry.2 entry.1) word).bitAt place =
      Trit.overlay (word.bitAt place) (entries.map fun entry => entry.2.shown (entry.1.bitOffer place)) := by
  induction entries generalizing word with
  | nil => rfl
  | cons entry rest ih =>
    have here := wide entry List.mem_cons_self
    rw [List.foldl_cons, ih (length_observe word_wide entry.2 here)
      fun other member => wide other (List.mem_cons_of_mem entry member), bitAt_observe word_wide entry.2 here]
    rfl

end Memory

end BankedMemory
