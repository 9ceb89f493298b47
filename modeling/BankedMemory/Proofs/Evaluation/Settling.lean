import BankedMemory.Proofs.Evaluation.Carries
import Mathlib.Data.Finset.Card
import Mathlib.Data.Finset.Range
import Mathlib.Logic.Relation

/-!
# Settling finds what nets carry

Settling walks the cells depth first and marks each of them. It succeeds exactly on nets that carry a bit, whatever
was settled before, and the marks it leaves record the bits that the nets carry. A cell that a derivation needs is
never found busy, since a busy cell is one whose own operands are being settled.
-/

namespace BankedMemory

namespace Marks

variable {netlist : Netlist} {state : State} {marks : Marks}

/-- Every settled cell records an output that follows from the state. -/
structure Sound (netlist : Netlist) (state : State) (marks : Marks) : Prop where
  size : marks.size = netlist.slots.size
  settled : ∀ index output, marks.markAt index = .settled output →
    ∃ value, (∀ source ∈ netlist.sourcesAt index, netlist.Carries state source (value source)) ∧
      output = (netlist.outputUnder value state index).toArray

/-- The marks determine the bit on a net. -/
def Known (netlist : Netlist) (marks : Marks) (net : Net) : Prop :=
  (∃ bit, netlist.driver net = .ok (.const bit)) ∨
    ∃ index offset, netlist.driver net = .ok (.cell index offset) ∧ offset < (marks.outputAt index).size

/-- What was settled stays settled, and the same cells are busy. -/
structure Keeps (before after : Marks) : Prop where
  size : after.size = before.size
  settled : ∀ index output, before.markAt index = .settled output → after.markAt index = .settled output
  busy : ∀ index, after.markAt index = .busy ↔ before.markAt index = .busy

theorem Keeps.refl (marks : Marks) : Keeps marks marks := ⟨rfl, fun _ _ h => h, fun _ => Iff.rfl⟩

theorem Keeps.trans {a b c : Marks} (first : Keeps a b) (second : Keeps b c) : Keeps a c :=
  ⟨second.size.trans first.size, fun i o h => second.settled i o (first.settled i o h),
    fun i => (second.busy i).trans (first.busy i)⟩

theorem markAt_set (marks : Marks) (index other : Nat) (mark : Mark) (inside : index < marks.size) :
    Marks.markAt (marks.setIfInBounds index mark) other = if other = index then mark else marks.markAt other := by
  unfold markAt
  rw [Array.getD_eq_getD_getElem?, Array.getD_eq_getD_getElem?, Array.getElem?_setIfInBounds]
  by_cases same : index = other
  · subst same
    simp [inside]
  · have other_ne : other ≠ index := fun e => same e.symm
    simp [same, other_ne]

theorem markAt_set_self (marks : Marks) (index : Nat) (mark : Mark) (inside : index < marks.size) :
    Marks.markAt (marks.setIfInBounds index mark) index = mark := by
  rw [markAt_set _ _ _ _ inside, if_pos rfl]

theorem Keeps.inside {index : Nat} {mark : Mark} {middle : Marks} (keeps : Keeps (marks.setIfInBounds index mark) middle)
    (inside : index < marks.size) : index < middle.size := by
  simpa [keeps.size] using inside

/-- A fresh cell is marked as busy while its sources are settled, and as settled afterwards. -/
theorem Keeps.settle {index : Nat} {middle : Marks} (keeps : Keeps (marks.setIfInBounds index .busy) middle)
    (inside : index < marks.size) (fresh : marks.markAt index = .fresh) (output : Array Trit) :
    Keeps marks (middle.setIfInBounds index (.settled output)) := by
  have inside' := keeps.inside inside
  refine ⟨by simpa using keeps.size, fun i known settled => ?_, fun i => ?_⟩
  · have other : i ≠ index := by
      rintro rfl
      rw [fresh] at settled
      cases settled
    rw [markAt_set _ _ _ _ inside', if_neg other]
    exact keeps.settled i known (by rwa [markAt_set _ _ _ _ inside, if_neg other])
  · rw [markAt_set _ _ _ _ inside']
    by_cases same : i = index
    · subst same
      simp [fresh]
    · rw [if_neg same, keeps.busy i, markAt_set _ _ _ _ inside, if_neg same]

theorem markAt_initial (netlist : Netlist) (index : Nat) : (initial netlist).markAt index = .fresh := by
  unfold markAt initial
  rw [Array.getD_eq_getD_getElem?, Array.getElem?_replicate]
  split <;> rfl

theorem markAt_eq_settled {index offset : Nat} (h : offset < (marks.outputAt index).size) :
    marks.markAt index = .settled (marks.outputAt index) := by
  unfold outputAt at h ⊢
  cases found : marks.markAt index with
  | settled output => rfl
  | fresh => simp [found] at h
  | busy => simp [found] at h

theorem Known.mono {after : Marks} (keeps : Keeps marks after) {net : Net} (known : Known netlist marks net) :
    Known netlist after net := by
  rcases known with constant | ⟨index, offset, driven, inside⟩
  · exact Or.inl constant
  · have stays := keeps.settled index _ (markAt_eq_settled inside)
    refine Or.inr ⟨index, offset, driven, ?_⟩
    simpa [outputAt, stays] using inside

/-- The recorded bit of a known net is the one that it carries. -/
theorem Sound.carries (sound : Sound netlist state marks) {net : Net} (known : Known netlist marks net) :
    netlist.Carries state net (marks.value netlist net) := by
  rcases known with ⟨bit, constant⟩ | ⟨index, offset, driven, inside⟩
  · cases net with
    | const other => exact .const other
    | slot slot => exact absurd constant (Netlist.driver_slot_ne_const slot bit)
  · obtain ⟨value, carried, output_eq⟩ := sound.settled index _ (markAt_eq_settled inside)
    cases net with
    | const other => simp [Netlist.driver_const] at driven
    | slot slot =>
      refine .cell value driven carried ?_
      rw [output_eq] at inside
      have inside' : offset < (netlist.outputUnder value state index).length := by simpa using inside
      simp [Marks.value, driven, output_eq, inside']

end Marks

namespace Netlist

variable {netlist : Netlist} {state : State}

theorem settleNet_eq_ok_iff {settle : Nat → Marks → Except Fault Marks} {marks after : Marks} {net : Net} :
    netlist.settleNet settle marks net = .ok after ↔
      (∃ bit, netlist.driver net = .ok (.const bit)) ∧ after = marks ∨
        ∃ index offset, netlist.driver net = .ok (.cell index offset) ∧ settle index marks = .ok after ∧
          offset < (after.outputAt index).size := by
  unfold settleNet
  cases driven : netlist.driver net with
  | error cause => simp [bind, Except.bind]
  | ok driver =>
    cases driver with
    | const bit => simp [bind, Except.bind, pure, Except.pure, eq_comm]
    | cell index offset =>
      cases settled : settle index marks with
      | error cause => simp [bind, Except.bind, settled]
      | ok marks' =>
        by_cases inside : offset < (marks'.outputAt index).size
        · simp only [bind, Except.bind, settled, inside, if_true, pure, Except.pure]
          constructor
          · rintro ⟨rfl⟩
            exact Or.inr ⟨index, offset, rfl, settled, inside⟩
          · rintro (⟨⟨bit, other⟩, _⟩ | ⟨_, _, ⟨rfl, rfl⟩, same, _⟩)
            · cases other
            · rw [← settled, same]
        · simp only [bind, Except.bind, settled, inside, if_false]
          constructor
          · intro h
            cases h
          · rintro (⟨⟨bit, other⟩, _⟩ | ⟨_, _, ⟨rfl, rfl⟩, same, reached⟩)
            · cases other
            · rw [settled] at same
              cases same
              exact absurd reached inside

/-- A way to settle cells that leaves sound marks. -/
def SettlesSoundly (netlist : Netlist) (state : State) (settle : Nat → Marks → Except Fault Marks) : Prop :=
  ∀ index marks after, marks.Sound netlist state → settle index marks = .ok after →
    after.Sound netlist state ∧ marks.Keeps after

theorem settleNets_sound {settle : Nat → Marks → Except Fault Marks}
    (soundly : netlist.SettlesSoundly state settle) {nets : List Net} {marks after : Marks}
    (sound : marks.Sound netlist state) (h : nets.foldlM (netlist.settleNet settle) marks = .ok after) :
    after.Sound netlist state ∧ marks.Keeps after ∧ ∀ net ∈ nets, after.Known netlist net := by
  induction nets generalizing marks with
  | nil =>
    cases h
    exact ⟨sound, .refl _, by simp⟩
  | cons net rest ih =>
    rw [List.foldlM_cons] at h
    cases first : netlist.settleNet settle marks net with
    | error cause => simp [first, bind, Except.bind] at h
    | ok middle =>
      simp only [first, bind, Except.bind] at h
      obtain ⟨sound', keeps', known⟩ : middle.Sound netlist state ∧ marks.Keeps middle ∧
          middle.Known netlist net := by
        rcases settleNet_eq_ok_iff.mp first with ⟨constant, rfl⟩ | ⟨index, offset, driven, settled, inside⟩
        · exact ⟨sound, .refl _, Or.inl constant⟩
        · obtain ⟨sound', keeps'⟩ := soundly index marks middle sound settled
          exact ⟨sound', keeps', Or.inr ⟨index, offset, driven, inside⟩⟩
      obtain ⟨sound'', keeps'', all_known⟩ := ih sound' h
      refine ⟨sound'', keeps'.trans keeps'', fun other member => ?_⟩
      rcases List.mem_cons.mp member with rfl | member
      · exact known.mono keeps''
      · exact all_known other member

/-- A settled cell may be recorded once all its sources are known. -/
theorem record_sound {index : Nat} {marks : Marks} (sound : marks.Sound netlist state)
    (inside : index < marks.size) (known : ∀ source ∈ netlist.sourcesAt index, marks.Known netlist source) :
    Marks.Sound netlist state
      (marks.setIfInBounds index (.settled (netlist.outputFrom state marks index).toArray)) := by
  refine ⟨by simpa using sound.size, fun other output found => ?_⟩
  rw [Marks.markAt_set _ _ _ _ inside] at found
  by_cases same : other = index
  · subst same
    rw [if_pos rfl] at found
    exact ⟨marks.value netlist, fun source member => sound.carries (known source member),
      (Mark.settled.inj found).symm⟩
  · rw [if_neg same] at found
    exact sound.settled other output found

theorem mark_busy_sound {index : Nat} {marks : Marks} (sound : marks.Sound netlist state)
    (inside : index < marks.size) : Marks.Sound netlist state (marks.setIfInBounds index .busy) := by
  refine ⟨by simpa using sound.size, fun other output found => ?_⟩
  rw [Marks.markAt_set _ _ _ _ inside] at found
  split at found
  · cases found
  · exact sound.settled other output found

/-- A cell that is settled is left alone. A fresh one gets recorded, after its sources have been settled. -/
theorem settleCell_eq_ok_iff {depth index : Nat} {marks after : Marks} :
    netlist.settleCell state (depth + 1) index marks = .ok after ↔
      (∃ output, marks.markAt index = .settled output) ∧ after = marks ∨
        marks.markAt index = .fresh ∧ ∃ middle,
          (netlist.sourcesAt index).foldlM (netlist.settleNet (netlist.settleCell state depth))
            (marks.setIfInBounds index .busy) = .ok middle ∧
          after = middle.setIfInBounds index (.settled (netlist.outputFrom state middle index).toArray) := by
  unfold settleCell
  cases found : marks.markAt index with
  | settled output => simp [eq_comm]
  | busy => simp
  | fresh =>
    cases walked : (netlist.sourcesAt index).foldlM (netlist.settleNet (netlist.settleCell state depth))
        (marks.setIfInBounds index .busy) with
    | error cause => simp [bind, Except.bind]
    | ok middle => simp [bind, Except.bind, pure, Except.pure, eq_comm]

/-- The induction is on the depth, that is on how far the sources of sources are followed. -/
theorem settleCell_sound (depth : Nat) : netlist.SettlesSoundly state (netlist.settleCell state depth) := by
  induction depth with
  | zero =>
    intro index marks after sound h
    cases h
  | succ depth ih =>
    intro index marks after sound h
    rcases settleCell_eq_ok_iff.mp h with ⟨_, rfl⟩ | ⟨fresh, middle, walked, rfl⟩
    · exact ⟨sound, .refl _⟩
    · by_cases inside : index < marks.size
      · obtain ⟨sound', keeps, known⟩ := settleNets_sound ih (mark_busy_sound sound inside) walked
        exact ⟨record_sound sound' (keeps.inside inside) known, keeps.settle inside fresh _⟩
      · -- a slot outside the netlist has no cell, and so no sources and no mark
        have outside : ∀ mark, marks.setIfInBounds index mark = marks := fun mark =>
          Array.setIfInBounds_eq_of_size_le (by omega)
        have no_cell : netlist.sourcesAt index = [] := by
          have beyond : netlist.slots[index]? = none :=
            Array.getElem?_eq_none (by have := sound.size; omega)
          simp [sourcesAt, cell?, beyond]
        rw [no_cell, outside] at walked
        cases walked
        rw [outside]
        exact ⟨sound, .refl _⟩

theorem exists_settled {depth index : Nat} {marks after : Marks} (sound : marks.Sound netlist state)
    (inside : index < marks.size) (done : netlist.settleCell state depth index marks = .ok after) :
    ∃ output, after.markAt index = .settled output := by
  cases depth with
  | zero => cases done
  | succ depth =>
    rcases settleCell_eq_ok_iff.mp done with ⟨settled, rfl⟩ | ⟨_, middle, walked, rfl⟩
    · exact settled
    · obtain ⟨_, keeps, _⟩ := settleNets_sound (settleCell_sound depth) (mark_busy_sound sound inside) walked
      exact ⟨_, Marks.markAt_set_self _ _ _ (keeps.inside inside)⟩

/-- The output of the cell that drives a net depends at once on another net. -/
def DependsOn (netlist : Netlist) (source net : Net) : Prop :=
  ∃ index offset, netlist.driver net = .ok (.cell index offset) ∧ source ∈ netlist.sourcesAt index

/-- A cell has to be settled before a net is. -/
def Needs (netlist : Netlist) (net : Net) (index : Nat) : Prop :=
  ∃ other offset, Relation.ReflTransGen netlist.DependsOn other net ∧
    netlist.driver other = .ok (.cell index offset)

theorem not_rel_self_of_acc {α : Type} {r : α → α → Prop} {a : α} (h : Acc r a) : ¬ r a a := by
  induction h with
  | intro a _ ih => exact fun loop => ih a loop loop

theorem Carries.acc {net : Net} {bit : Trit} (h : netlist.Carries state net bit) :
    Acc netlist.DependsOn net := by
  induction h with
  | const bit =>
    refine ⟨_, fun source ⟨index, offset, driven, _⟩ => ?_⟩
    simp [driver_const] at driven
  | cell value driven carried shown ih =>
    refine ⟨_, fun source ⟨index', offset', driven', member⟩ => ?_⟩
    obtain ⟨rfl, rfl⟩ : _ = _ ∧ _ = _ := by simpa using driven.symm.trans driven'
    exact ih source member

/-- No cell has itself among those that its sources need. -/
theorem Carries.source_not_needs {net source : Net} {bit : Trit} {index offset : Nat}
    (h : netlist.Carries state net bit) (driven : netlist.driver net = .ok (.cell index offset))
    (member : source ∈ netlist.sourcesAt index) : ¬ netlist.Needs source index := by
  rintro ⟨other, offset', path, driven'⟩
  have below : Acc netlist.DependsOn source := h.acc.inv ⟨index, offset, driven, member⟩
  have loop : Relation.TransGen netlist.DependsOn source source :=
    Relation.TransGen.head' ⟨index, offset', driven', member⟩ path
  exact not_rel_self_of_acc below.transGen loop

theorem Needs.of_source {net source : Net} {index offset needed : Nat}
    (driven : netlist.driver net = .ok (.cell index offset)) (member : source ∈ netlist.sourcesAt index)
    (h : netlist.Needs source needed) : netlist.Needs net needed := by
  obtain ⟨other, offset', path, driven'⟩ := h
  exact ⟨other, offset', path.tail ⟨index, offset, driven, member⟩, driven'⟩

end Netlist

namespace Marks

variable {netlist : Netlist} {state : State} {marks : Marks}

/-- The slots whose cells are being settled. -/
def busySlots (marks : Marks) : Finset Nat := (Finset.range marks.size).filter fun i => marks.markAt i = .busy

theorem card_busySlots_le (marks : Marks) : marks.busySlots.card ≤ marks.size := by
  have := Finset.card_filter_le (Finset.range marks.size) fun i => marks.markAt i = .busy
  rwa [Finset.card_range] at this

theorem Keeps.busySlots_eq {after : Marks} (keeps : Keeps marks after) : after.busySlots = marks.busySlots := by
  unfold busySlots
  rw [keeps.size]
  exact Finset.filter_congr fun i _ => keeps.busy i

theorem card_busySlots_set {index : Nat} (inside : index < marks.size) (fresh : marks.markAt index = .fresh) :
    (Marks.busySlots (marks.setIfInBounds index .busy)).card = marks.busySlots.card + 1 := by
  have grown : Marks.busySlots (marks.setIfInBounds index .busy) = insert index marks.busySlots := by
    ext i
    simp only [busySlots, Finset.mem_filter, Finset.mem_insert, Finset.mem_range, Array.size_setIfInBounds,
      Marks.markAt_set _ _ _ _ inside]
    by_cases same : i = index
    · simp [same, inside]
    · simp [same]
  rw [grown, Finset.card_insert_of_notMem]
  simp [busySlots, fresh]

/-- The net may be settled at some depth: no cell that it needs is busy, and the depth is enough for all cells that
are not. -/
structure Admits (netlist : Netlist) (state : State) (depth : Nat) (marks : Marks) (net : Net) : Prop where
  sound : marks.Sound netlist state
  free : ∀ index, marks.markAt index = .busy → ¬ netlist.Needs net index
  deep : netlist.slots.size < depth + marks.busySlots.card

theorem Admits.keeps {depth : Nat} {after : Marks} {net : Net} (h : marks.Admits netlist state depth net)
    (sound : after.Sound netlist state) (keeps : marks.Keeps after) : after.Admits netlist state depth net :=
  ⟨sound, fun index busy => h.free index ((keeps.busy index).mp busy), by rw [keeps.busySlots_eq]; exact h.deep⟩

/-- A net that does not need a fresh cell may still be settled, one level further down, once the cell is busy. -/
theorem Admits.marked {depth index : Nat} {net : Net} (h : marks.Admits netlist state (depth + 1) net)
    (inside : index < marks.size) (fresh : marks.markAt index = .fresh) (unneeded : ¬ netlist.Needs net index) :
    Marks.Admits netlist state depth (marks.setIfInBounds index .busy) net where
  sound := Netlist.mark_busy_sound h.sound inside
  free i busy := by
    rw [markAt_set _ _ _ _ inside] at busy
    by_cases same : i = index
    · exact same ▸ unneeded
    · rw [if_neg same] at busy
      exact h.free i busy
  deep := by
    have := h.deep
    rw [card_busySlots_set inside fresh]
    omega

/-- The sources of a cell may be settled where its output bits may. -/
theorem Admits.source {depth index offset : Nat} {net source : Net} (h : marks.Admits netlist state depth net)
    (driven : netlist.driver net = .ok (.cell index offset)) (member : source ∈ netlist.sourcesAt index) :
    marks.Admits netlist state depth source :=
  ⟨h.sound, fun i busy needs => h.free i busy (needs.of_source driven member), h.deep⟩

/-- A settled cell records as many bits as its output has in the state. -/
theorem Sound.offset_lt (aligned : state.Aligned netlist) (sound : marks.Sound netlist state)
    {index offset : Nat} {output : Array Trit} {bit : Trit} {value : Net → Trit}
    (settled : marks.markAt index = .settled output)
    (carried : ∀ source ∈ netlist.sourcesAt index, netlist.Carries state source (value source))
    (shown : (netlist.outputUnder value state index)[offset]? = some bit) :
    offset < (marks.outputAt index).size := by
  obtain ⟨value', carried', rfl⟩ := sound.settled index output settled
  have same : netlist.outputUnder value' state index = netlist.outputUnder value state index :=
    Netlist.outputUnder_congr aligned fun source member =>
      (carried' source member).unique aligned (carried source member)
  obtain ⟨inside, _⟩ := List.getElem?_eq_some_iff.mp shown
  simp only [outputAt, settled, same, List.size_toArray]
  exact inside

end Marks

namespace Netlist

variable {netlist : Netlist} {state : State}

theorem settleNets_progress {settle : Nat → Marks → Except Fault Marks} {depth : Nat}
    (soundly : netlist.SettlesSoundly state settle) {nets : List Net} {marks : Marks}
    (sound : marks.Sound netlist state) (admits : ∀ net ∈ nets, marks.Admits netlist state depth net)
    (one : ∀ net ∈ nets, ∀ marks : Marks, marks.Admits netlist state depth net →
      ∃ after, netlist.settleNet settle marks net = .ok after) :
    ∃ after, nets.foldlM (netlist.settleNet settle) marks = .ok after := by
  induction nets generalizing marks with
  | nil => exact ⟨marks, rfl⟩
  | cons net rest ih =>
    obtain ⟨middle, first⟩ := one net List.mem_cons_self marks (admits net List.mem_cons_self)
    have alone : [net].foldlM (netlist.settleNet settle) marks = .ok middle := by
      rw [List.foldlM_cons, first]
      rfl
    obtain ⟨sound', keeps, _⟩ := settleNets_sound soundly sound alone
    obtain ⟨after, last⟩ := ih sound'
      (fun other member => (admits other (List.mem_cons_of_mem net member)).keeps sound' keeps)
      (fun other member => one other (List.mem_cons_of_mem net member))
    exact ⟨after, by rw [List.foldlM_cons, first]; exact last⟩

/-- A cell that is not busy can be settled if its sources can, one level further down. -/
theorem settleCell_progress {depth index : Nat} {marks : Marks} (sound : marks.Sound netlist state)
    (inside : index < marks.size) (idle : marks.markAt index ≠ .busy)
    (admits : ∀ source ∈ netlist.sourcesAt index, marks.Admits netlist state (depth + 1) source)
    (free : ∀ source ∈ netlist.sourcesAt index, ¬ netlist.Needs source index)
    (one : ∀ source ∈ netlist.sourcesAt index, ∀ marks : Marks, marks.Admits netlist state depth source →
      ∃ after, netlist.settleNet (netlist.settleCell state depth) marks source = .ok after) :
    ∃ after, netlist.settleCell state (depth + 1) index marks = .ok after := by
  cases found : marks.markAt index with
  | settled output => exact ⟨marks, settleCell_eq_ok_iff.mpr (Or.inl ⟨⟨output, found⟩, rfl⟩)⟩
  | busy => exact absurd found idle
  | fresh =>
    obtain ⟨middle, walked⟩ := settleNets_progress (settleCell_sound depth) (mark_busy_sound sound inside)
      (fun source member => (admits source member).marked inside found (free source member)) one
    exact ⟨_, settleCell_eq_ok_iff.mpr (Or.inr ⟨found, middle, walked, rfl⟩)⟩

/-- The induction is on the derivation of the bit, so that each source comes with its own derivation. -/
theorem Carries.settleNet_progress (aligned : state.Aligned netlist) {net : Net} {bit : Trit}
    (h : netlist.Carries state net bit) (depth : Nat) (marks : Marks)
    (admits : marks.Admits netlist state depth net) :
    ∃ after, netlist.settleNet (netlist.settleCell state depth) marks net = .ok after := by
  induction h generalizing depth marks with
  | const bit => exact ⟨marks, rfl⟩
  | @cell slot index offset bit value driven carried shown ih =>
    have inside : index < marks.size := by
      by_contra outside
      have beyond : netlist.slots[index]? = none :=
        Array.getElem?_eq_none (by have := admits.sound.size; omega)
      simp [outputUnder, cell?, beyond] at shown
    cases depth with
    | zero =>
      have := marks.card_busySlots_le
      have := admits.deep
      have := admits.sound.size
      omega
    | succ depth =>
      have carried' := Carries.cell value driven carried shown
      obtain ⟨after, done⟩ := settleCell_progress admits.sound inside
        (fun busy => admits.free index busy ⟨_, offset, .refl, driven⟩)
        (fun source member => admits.source driven member)
        (fun source member => carried'.source_not_needs driven member)
        fun source member marks admits => ih source member depth marks admits
      obtain ⟨output, recorded⟩ := exists_settled admits.sound inside done
      obtain ⟨sound, _⟩ := settleCell_sound (depth + 1) index marks after admits.sound done
      exact ⟨after, settleNet_eq_ok_iff.mpr
        (Or.inr ⟨index, offset, driven, done, sound.offset_lt aligned recorded carried shown⟩)⟩

end Netlist

/-- Sound marks between two rounds of settling. -/
structure Marks.Idle (netlist : Netlist) (state : State) (marks : Marks) : Prop where
  sound : marks.Sound netlist state
  still : ∀ index, marks.markAt index ≠ .busy

theorem Marks.idle_initial (netlist : Netlist) (state : State) : (Marks.initial netlist).Idle netlist state where
  sound := by
    refine ⟨by simp [Marks.initial], fun index output found => ?_⟩
    rw [Marks.markAt_initial] at found
    cases found
  still index := by
    rw [Marks.markAt_initial]
    exact Mark.noConfusion

/-- With no cell busy, any net may be settled from the top. -/
theorem Marks.Idle.admits {netlist : Netlist} {state : State} {marks : Marks} (idle : marks.Idle netlist state)
    (net : Net) : marks.Admits netlist state (netlist.slots.size + 1) net :=
  ⟨idle.sound, fun index busy => absurd busy (idle.still index), by omega⟩

namespace Netlist

variable {netlist : Netlist} {state : State} {marks after : Marks}

theorem settle_sound {nets : List Net} (idle : marks.Idle netlist state)
    (h : netlist.settle state nets marks = .ok after) :
    after.Idle netlist state ∧ marks.Keeps after ∧ ∀ net ∈ nets, after.Known netlist net := by
  obtain ⟨sound, keeps, known⟩ := settleNets_sound (settleCell_sound _) idle.sound h
  exact ⟨⟨sound, fun index busy => idle.still index ((keeps.busy index).mp busy)⟩, keeps, known⟩

/-- Settling succeeds exactly on nets that carry a bit. -/
theorem settle_succeeds_iff (aligned : state.Aligned netlist) {nets : List Net}
    (idle : marks.Idle netlist state) :
    (∃ after, netlist.settle state nets marks = .ok after) ↔ ∀ net ∈ nets, netlist.Live state net := by
  constructor
  · rintro ⟨after, h⟩ net member
    obtain ⟨idle', _, known⟩ := settle_sound idle h
    exact ⟨_, idle'.sound.carries (known net member)⟩
  · intro live
    refine settleNets_progress (settleCell_sound _) idle.sound (fun net _ => idle.admits net) ?_
    intro net member marks admits
    obtain ⟨bit, carried⟩ := live net member
    exact carried.settleNet_progress aligned _ marks admits

/-- Reading a bus gives the word that it shows, and faults if one of its nets carries nothing. -/
theorem read_eq_ok_iff (aligned : state.Aligned netlist) {bus : Bus} {word : Bits} :
    netlist.read state bus = .ok word ↔ netlist.Shows state bus word := by
  have idle := Marks.idle_initial netlist state
  unfold read
  constructor
  · intro h
    cases settled : netlist.settle state bus (Marks.initial netlist) with
    | error cause => simp [settled, bind, Except.bind] at h
    | ok after =>
      simp only [settled, bind, Except.bind, pure, Except.pure] at h
      cases h
      obtain ⟨idle', _, known⟩ := settle_sound idle settled
      exact shows_map _ fun net member => idle'.sound.carries (known net member)
  · intro shown
    obtain ⟨after, settled⟩ := (settle_succeeds_iff aligned idle).mpr shown.live
    obtain ⟨idle', _, known⟩ := settle_sound idle settled
    have same := shown.unique aligned (shows_map _ fun net member => idle'.sound.carries (known net member))
    simp [settled, same, bind, Except.bind, pure, Except.pure]

theorem Carries.valueIn_eq (aligned : state.Aligned netlist) {net : Net} {bit : Trit}
    (h : netlist.Carries state net bit) : netlist.valueIn state net = bit := by
  have shown : netlist.read state [net] = .ok [bit] := (read_eq_ok_iff aligned).mpr (.cons h .nil)
  simp [valueIn, shown]

theorem Live.carries_valueIn (aligned : state.Aligned netlist) {net : Net} (h : netlist.Live state net) :
    netlist.Carries state net (netlist.valueIn state net) := by
  obtain ⟨bit, carried⟩ := h
  rwa [carried.valueIn_eq aligned]

theorem valueIn_of_not_live (aligned : state.Aligned netlist) {net : Net} (dead : ¬ netlist.Live state net) :
    netlist.valueIn state net = .unknown := by
  unfold valueIn
  cases h : netlist.read state [net] with
  | error cause => rfl
  | ok word => exact absurd (((read_eq_ok_iff aligned).mp h).live net List.mem_cons_self) dead

/-- Nets that carry the same bits are given the same bit by the evaluation. -/
theorem valueIn_congr {other : Netlist} {state' : State} (aligned : state.Aligned netlist)
    (aligned' : state'.Aligned other) {net net' : Net}
    (same : ∀ bit, netlist.Carries state net bit ↔ other.Carries state' net' bit) :
    netlist.valueIn state net = other.valueIn state' net' := by
  by_cases live : netlist.Live state net
  · obtain ⟨bit, carried⟩ := live
    rw [carried.valueIn_eq aligned, ((same bit).mp carried).valueIn_eq aligned']
  · have dead : ¬ other.Live state' net' := fun ⟨bit, carried⟩ => live ⟨bit, (same bit).mpr carried⟩
    rw [valueIn_of_not_live aligned live, valueIn_of_not_live aligned' dead]

theorem Shows.map_valueIn (aligned : state.Aligned netlist) {bus : Bus} {word : Bits}
    (h : netlist.Shows state bus word) : bus.map (netlist.valueIn state) = word := by
  unfold Shows at h
  induction h with
  | nil => rfl
  | cons carried _ ih => rw [List.map_cons, carried.valueIn_eq aligned, ih]

end Netlist

end BankedMemory
