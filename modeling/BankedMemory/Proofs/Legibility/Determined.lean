import BankedMemory.Proofs.Legibility.Netlists

/-!
# What netlist text determines

Two netlists have one text if and only if their cells start at the same slots and resemble each other there. That
resembling cells are shown alike needs the whole netlist: a net is shown by the cell that drives it, and which cell
this is follows from the places and the output widths of all cells.
-/

namespace BankedMemory

theorem Register.Resembles.hasEnable {a b : Register} (resembles : a.Resembles b) : a.hasEnable = b.hasEnable := by
  rcases resembles.enable with same | ⟨always, always'⟩
  · rw [Register.hasEnable, Register.hasEnable, same]
  · rw [Register.hasEnable_eq_false_iff.mpr always, Register.hasEnable_eq_false_iff.mpr always']

theorem Memory.Resembles.outputWidth {a b : Memory} (resembles : a.Resembles b) : a.outputWidth = b.outputWidth := by
  have widths : a.readPorts.map ReadPort.width = b.readPorts.map ReadPort.width :=
    map_eq_map_iff_forall₂.mpr (resembles.readPorts.imp fun _ _ ports => ports.width)
  rw [Memory.outputWidth, Memory.outputWidth, widths]

theorem Cell.Resembles.outputWidth {a b : Cell} (resembles : a.Resembles b) : a.outputWidth = b.outputWidth := by
  cases resembles with
  | memory resembles => exact resembles.outputWidth
  | other _ => rfl

namespace Netlist

variable {a b : Netlist}

/-- Both netlists name each net by the same cell. -/
structure NamesAs (a b : Netlist) : Prop where
  chunkOf : ∀ net, a.chunkOf net = b.chunkOf net
  widthAt : ∀ index, a.widthAt index = b.widthAt index

namespace NamesAs

variable (names : a.NamesAs b)
include names

theorem chunkText (c : Chunk) : a.chunkText c = b.chunkText c := by
  cases c <;> simp only [Netlist.chunkText, names.widthAt]

theorem chunks (bus : Bus) : a.chunks bus = b.chunks bus := by
  simp only [Netlist.chunks, names.chunkOf]

theorem busText (bus : Bus) : a.busText bus = b.busText bus := by
  simp only [Netlist.busText, names.chunks, names.chunkText]

theorem netText (net : Net) : a.netText net = b.netText net := by
  simp only [Netlist.netText, names.chunkOf, names.widthAt, names.chunkText]

theorem controlText (name : String) (given : Control) : a.controlText name given = b.controlText name given := by
  simp only [Netlist.controlText, names.netText]

theorem writePortText (port : WritePort) : a.writePortText port = b.writePortText port := by
  unfold Netlist.writePortText
  rw [names.busText, names.busText, names.busText, names.controlText]

theorem registerText {first second : Register} (resembles : first.Resembles second) :
    a.registerText first = b.registerText second := by
  have enable : (if first.hasEnable then a.controlText "en" first.enable else "") =
      if second.hasEnable then b.controlText "en" second.enable else "" := by
    rw [names.controlText, ← resembles.hasEnable]
    split
    · rename_i shown
      rcases resembles.enable with same | ⟨always, _⟩
      · rw [same]
      · rw [Register.hasEnable_eq_false_iff.mpr always] at shown
        cases shown
    · rfl
  unfold Netlist.registerText
  rw [enable, names.controlText, resembles.clock, resembles.visibility, Register.hasInit, Register.hasInit,
    resembles.init]

theorem readPortText {first second : ReadPort} (resembles : first.Resembles second) :
    a.readPortText first = b.readPortText second := by
  obtain ⟨addr, width, register⟩ := first
  obtain ⟨addr', width', register'⟩ := second
  obtain ⟨rfl, rfl, registers⟩ := resembles
  unfold Netlist.readPortText
  cases registers with
  | none => simp only [names.busText]
  | some registers => simp only [names.busText, names.registerText registers]

theorem memoryText {first second : Memory} (resembles : first.Resembles second) :
    a.memoryText first = b.memoryText second := by
  have writes : first.writePorts.map a.writePortText = second.writePorts.map b.writePortText := by
    rw [resembles.writePorts]
    exact List.map_congr_left fun port _ => names.writePortText port
  have reads : first.readPorts.map a.readPortText = second.readPorts.map b.readPortText :=
    map_eq_map_iff_forall₂.mpr (resembles.readPorts.imp fun _ _ ports => names.readPortText ports)
  unfold Netlist.memoryText
  rw [writes, reads, resembles.depth, resembles.width, resembles.shownRows, resembles.attributes]

theorem cellText (index : Nat) {first second : Cell} (resembles : first.Resembles second) :
    a.cellText index first = b.cellText index second := by
  have bodies : a.bodyText first = b.bodyText second := by
    cases resembles with
    | memory resembles => exact names.memoryText resembles
    | other no_memory =>
      cases first with
      | memory m => cases no_memory
      | _ => simp only [Netlist.bodyText, names.busText]
  unfold Netlist.cellText
  rw [bodies, resembles.outputWidth]

end NamesAs

/-- The cells of two netlists start at the same slots and resemble each other there. -/
def Resembles (a b : Netlist) : Prop :=
  List.Forall₂ (fun entry entry' => entry.1 = entry'.1 ∧ entry.2.Resembles entry'.2) a.cells b.cells

/-- Reading both texts back gives the same plain forms. -/
theorem Reached.resembles_of_text_eq (reached : a.Reached) (reached' : b.Reached) (same : a.text = b.text) :
    a.Resembles b := by
  have plain : a.cells.map (fun entry => (entry.1, entry.2.plain)) =
      b.cells.map fun entry => (entry.1, entry.2.plain) := by
    have first := reached.takes_text
    rw [same] at first
    exact congrArg Prod.fst (Option.some.inj (first.symm.trans reached'.takes_text))
  obtain ⟨count, entries⟩ := forall₂_iff_getElem?.mp (map_eq_map_iff_forall₂.mp plain)
  refine forall₂_iff_getElem?.mpr ⟨count, fun i entry entry' at_left at_right => ?_⟩
  obtain ⟨index, plain⟩ := Prod.mk.inj (entries i entry entry' at_left at_right)
  have checked := reached.checked (mem_cells.mp (List.mem_of_getElem? at_left))
  have checked' := reached'.checked (mem_cells.mp (List.mem_of_getElem? at_right))
  exact ⟨index, (Cell.plain_eq_iff checked checked').mp plain⟩

/-- Where the one netlist has a cell, the other has one of the same output width. -/
def Covers (a b : Netlist) : Prop :=
  ∀ index c, b.cell? index = some c → ∃ d, a.cell? index = some d ∧ d.outputWidth = c.outputWidth

theorem Resembles.covers (resembles : a.Resembles b) : a.Covers b ∧ b.Covers a := by
  constructor
  · intro index c found
    obtain ⟨⟨_, d⟩, member, rfl, cells⟩ := forall₂_mem_right resembles (mem_cells.mpr found)
    exact ⟨d, mem_cells.mp member, cells.outputWidth⟩
  · intro index c found
    obtain ⟨⟨_, d⟩, member, rfl, cells⟩ := forall₂_mem_right resembles.flip (mem_cells.mpr found)
    exact ⟨d, mem_cells.mp member, cells.outputWidth.symm⟩

theorem Covers.driver (covers : a.Covers b) (reached : a.Reached) (reached' : b.Reached) {slot index offset : Nat}
    (driven : b.driver (.slot slot) = .ok (.cell index offset)) :
    a.driver (.slot slot) = .ok (.cell index offset) := by
  obtain ⟨c, found, rfl, inside⟩ := reached'.cell_of_driver driven
  obtain ⟨d, covered, width⟩ := covers index c found
  rcases inside with rfl | inside
  · exact (driver_of_cell covered).2
  · exact reached.driver_output covered (width ▸ inside)

/-- Nets have the same drivers in both netlists. -/
theorem Resembles.namesAs (resembles : a.Resembles b) (reached : a.Reached) (reached' : b.Reached) : a.NamesAs b := by
  obtain ⟨covers, covered⟩ := resembles.covers
  have drivers : ∀ slot, a.driver? (.slot slot) = b.driver? (.slot slot) := by
    intro slot
    refine Option.ext fun driver => ?_
    rw [driver?_eq_some_iff, driver?_eq_some_iff]
    cases driver with
    | const bit => exact iff_of_false (driver_slot_ne_const slot bit) (driver_slot_ne_const slot bit)
    | cell index offset => exact ⟨covered.driver reached' reached, covers.driver reached reached'⟩
  have widths : ∀ index, a.widthAt index = b.widthAt index := by
    intro index
    unfold widthAt
    cases found : a.cell? index with
    | some c =>
      obtain ⟨d, found', width⟩ := covered index c found
      rw [found']
      exact width.symm
    | none =>
      cases found' : b.cell? index with
      | some d =>
        obtain ⟨c, present, _⟩ := covers index d found'
        rw [found] at present
        cases present
      | none => rfl
  refine ⟨fun net => ?_, widths⟩
  cases net with
  | const bit => rfl
  | slot slot => simp only [chunkOf, drivers]

/-- The text of a netlist determines its cells up to resemblance, and nothing else. -/
theorem text_eq_iff (reached : a.Reached) (reached' : b.Reached) : a.text = b.text ↔ a.Resembles b := by
  refine ⟨reached.resembles_of_text_eq reached', fun resembles => ?_⟩
  have names := resembles.namesAs reached reached'
  have texts : a.cells.map (fun entry => a.cellText entry.1 entry.2) =
      b.cells.map fun entry => b.cellText entry.1 entry.2 := by
    refine map_eq_map_iff_forall₂.mpr (resembles.imp fun entry entry' cells => ?_)
    rw [cells.1, names.cellText _ cells.2]
  rw [Netlist.text, Netlist.text, texts]

/-- A memory of three rows, with a write port and a clocked read port. -/
def faintRevisions (init : Bits) (enable : Control) : List Revision :=
  [.edit (.add (.input "a" 2)), .edit (.add (.memory {
    depth := 3
    width := 2
    init
    attributes := [("role", "replica")]
    writePorts := [⟨[.slot 0], [.slot 1, .slot 9], [.one, .one], .low (.slot 0)⟩]
    readPorts := [⟨[.slot 2], 2, some ⟨.low (.slot 0), enable, [.unknown, .unknown], [.before]⟩⟩] })), .apply]

def faint (init : Bits) (enable : Control) : Netlist :=
  (Netlist.empty.reviseAll (faintRevisions init enable)).toOption.getD .empty

theorem reached_faint {init : Bits} {enable : Control}
    (fits : (Netlist.empty.reviseAll (faintRevisions init enable)).isOk = true) : (faint init enable).Reached :=
  ⟨faintRevisions init enable, eq_ok_of_isOk fits _⟩

def faintZeros : Netlist := faint [.one, .zero, .zero, .zero, .unknown, .unknown] (.high .one)

def faintUnknowns : Netlist := faint [.one, .zero, .unknown, .unknown, .zero, .zero] (.low .zero)

/-- Zeros in the place of unknown bits, and another enable that is always active, do not show. -/
theorem faint_resembles : faintZeros.text = faintUnknowns.text ∧ faintZeros.cells ≠ faintUnknowns.cells ∧
    faintZeros.Resembles faintUnknowns := by
  have reached : faintZeros.Reached := reached_faint (by decide +kernel)
  have reached' : faintUnknowns.Reached := reached_faint (by decide +kernel)
  have same : faintZeros.text = faintUnknowns.text := by decide +kernel
  exact ⟨same, by decide +kernel, (text_eq_iff reached reached').mp same⟩

end Netlist

end BankedMemory
