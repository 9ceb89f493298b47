import BankedMemory.Proofs.Construction.Revisions
import BankedMemory.Proofs.Embedding.Faithful
import Mathlib.Order.WellFounded

/-!
# Two netlists under construction, one within the other

The slots of the smaller netlist keep their order in the larger one, which has labels and placeholders of its own in
between. An operand in the larger netlist is that of the smaller one at its new place, or a placeholder that is
replaced by it. Whatever is done to both netlists keeps this.
-/

namespace BankedMemory

namespace Net

/-- The net is constant, or one of the first slots. -/
def Below (bound : Nat) : Net → Prop
  | const _ => True
  | slot index => index < bound

instance (bound : Nat) : (net : Net) → Decidable (net.Below bound)
  | const _ => isTrue trivial
  | slot index => inferInstanceAs (Decidable (index < bound))

variable {place place' : Nat → Nat} {net : Net} {bound : Nat}

theorem Below.mono {more : Nat} (below : net.Below bound) (longer : bound ≤ more) : net.Below more := by
  cases net with
  | const bit => trivial
  | slot index => exact Nat.lt_of_lt_of_le below longer

theorem Below.relocate_congr (below : net.Below bound) (same : ∀ index < bound, place' index = place index) :
    net.relocate place' = net.relocate place := by
  cases net with
  | const bit => rfl
  | slot index => exact congrArg slot (same index below)

theorem relocate_injective (injective : Function.Injective place) : Function.Injective (relocate place) := by
  intro a b same
  cases a with
  | const bit =>
    cases b with
    | const other => exact same
    | slot index => cases same
  | slot index =>
    cases b with
    | const other => cases same
    | slot other => exact congrArg slot (injective (Net.slot.inj same))

theorem relocate_id : relocate id = id := by
  funext net
  cases net <;> rfl

end Net

namespace Cell

/-- Whatever becomes of operands that belong together, the same becomes of the two cells. -/
def Alike (S : Net → Net → Prop) (c c' : Cell) : Prop :=
  ∀ f g : Net → Net, (∀ net ∈ c.nets, ∀ net' ∈ c'.nets, S net net' → f net = g net') → c.map f = c'.map g

variable {S S' : Net → Net → Prop} {c c' : Cell}

theorem Alike.mono (alike : c.Alike S c') (weaker : ∀ net ∈ c.nets, ∀ net', S net net' → S' net net') :
    c.Alike S' c' :=
  fun f g same => alike f g fun net member net' member' related =>
    same net member net' member' (weaker net member net' related)

theorem alike_map {h : Net → Net} (related : ∀ net ∈ c.nets, S net (h net)) : c.Alike S (c.map h) := by
  intro f g same
  rw [map_map]
  refine map_congr fun net member => ?_
  refine same net member (h net) ?_ (related net member)
  rw [nets_map]
  exact List.mem_map_of_mem member

theorem Alike.outputWidth (alike : c.Alike S c') : c'.outputWidth = c.outputWidth := by
  have same := alike (fun _ => .zero) (fun _ => .zero) fun _ _ _ _ _ => rfl
  rw [← outputWidth_map (fun _ => .zero) c', ← same, outputWidth_map]

/-- A check that is passed once operands have been exchanged one for one was passed before. -/
theorem check_of_map {f : Net → Net} (injective : Function.Injective f) (checked : (c.map f).check = .ok ()) :
    c.check = .ok () := by
  cases c with
  | memory m =>
    have fits := Memory.check_eq_ok_iff.mp checked
    refine Memory.check_eq_ok_iff.mpr ⟨fits.bounded, fits.init, fun port member => ?_, fun port member => ?_,
      fun port member register registered => ?_, ?_⟩
    · simpa [WritePort.map, Memory.map] using fits.writes _ (List.mem_map_of_mem member)
    · exact fits.reads (port.map f) (List.mem_map_of_mem member)
    · have there := fits.registers _ (List.mem_map_of_mem member) (register.map f) (by simp [ReadPort.map, registered])
      refine ⟨there.init, by simpa [Memory.map, Register.map] using there.visibility, fun pair at_pair known => ?_⟩
      have zipped : (register.map f).visibility.zip (m.map f).writePorts =
          (register.visibility.zip m.writePorts).map (Prod.map id (WritePort.map f)) := List.zip_map_right ..
      have moved : pair.2.clock.map f = register.clock.map f :=
        there.clocks (pair.1, pair.2.map f) (by rw [zipped]; exact List.mem_map.mpr ⟨pair, at_pair, rfl⟩) known
      have same : f pair.2.clock.net = f register.clock.net := congrArg Control.net moved
      have level : (pair.2.clock.map f).activeLow = (register.clock.map f).activeLow :=
        congrArg Control.activeLow moved
      calc pair.2.clock = ⟨pair.2.clock.net, pair.2.clock.activeLow⟩ := rfl
        _ = ⟨register.clock.net, register.clock.activeLow⟩ := congrArg₂ Control.mk (injective same) level
    · have same : (m.map f).outputWidth = m.outputWidth := outputWidth_map f (.memory m)
      rw [← same]
      exact fits.output
  | gate kind a b => simpa [map, check] using checked
  | equal a b => simpa [map, check] using checked
  | invert a => rfl
  | input name width => rfl
  | output name bus => rfl
  | label name bus => rfl

end Cell

/-- The same kind of slot, with what belongs to it at its new place. -/
def Slot.Alike (S : Net → Net → Prop) (place : Nat → Nat) (index : Nat) : Slot → Slot → Prop
  | placeholder, placeholder => True
  | continuation start, continuation start' =>
    start' = place start ∧ start ≤ index ∧ place index = place start + (index - start)
  | cell c, cell c' => c.Alike S c'
  | _, _ => False

theorem Slot.Alike.mono {S S' : Net → Net → Prop} {place place' : Nat → Nat} {index : Nat} {slot slot' : Slot}
    (alike : slot.Alike S place index slot') (same : ∀ other ≤ index, place' other = place other)
    (weaker : ∀ c, slot = .cell c → ∀ net ∈ c.nets, ∀ net', S net net' → S' net net') :
    slot.Alike S' place' index slot' := by
  cases slot with
  | placeholder => cases slot' <;> exact alike
  | continuation start =>
    cases slot' with
    | continuation start' =>
      obtain ⟨moved, low, contiguous⟩ := alike
      exact ⟨moved.trans (same start low).symm, low, by rw [same index (Nat.le_refl _), same start low, contiguous]⟩
    | placeholder => exact alike
    | cell c => exact alike
  | cell c =>
    cases slot' with
    | cell c' => exact Cell.Alike.mono alike (weaker c rfl)
    | placeholder => exact alike
    | continuation start => exact alike

namespace Netlist

/-- A net of the larger netlist is one of the smaller at its new place, or another net that is replaced by it. -/
def StandsFor (place : Nat → Nat) (big : Netlist) (net net' : Net) : Prop :=
  net' = net.relocate place ∨
    (∀ other : Net, net' ≠ other.relocate place) ∧ big.rewiring.target? net' = some (net.relocate place)

/-- The smaller netlist, all its slots with their operands and all its replacements, is found in the larger one, which
has labels and placeholders besides. -/
structure Included (place : Nat → Nat) (small big : Netlist) : Prop where
  mono : StrictMono place
  /-- What will be added to both is at its new place. -/
  ahead : ∀ k, place (small.next + k) = big.next + k
  slots : ∀ (index : Nat) (slot : Slot), small.arena[index]? = some slot →
    ∃ slot' : Slot, big.arena[place index]? = some slot' ∧ slot.Alike (StandsFor place big) place index slot'
  others : ∀ (index' : Nat) (slot' : Slot), big.arena[index']? = some slot' → (∃ index, place index = index') ∨
    slot' = .placeholder ∨ ∃ name bus, slot' = .cell (.label name bus)
  rewiring : ∀ net : Net,
    big.rewiring.target? (net.relocate place) = (small.rewiring.target? net).map (Net.relocate place)

variable {place : Nat → Nat} {small big small' big' : Netlist}

theorem standsFor_relocate (net : Net) : StandsFor place big net (net.relocate place) := Or.inl rfl

/-- No net stands for two. -/
theorem StandsFor.unique (mono : StrictMono place) {a b net' : Net} (ha : StandsFor place big a net')
    (hb : StandsFor place big b net') : a = b := by
  have injective := Net.relocate_injective mono.injective
  rcases ha with rfl | ⟨foreign, tied⟩
  · rcases hb with same | ⟨foreign, _⟩
    · exact injective same
    · exact absurd rfl (foreign a)
  · rcases hb with rfl | ⟨_, tied'⟩
    · exact absurd rfl (foreign b)
    · exact injective (Option.some.inj (tied.symm.trans tied'))

theorem StandsFor.mono {net net' : Net} (h : StandsFor place big net net')
    (kept : ∀ net target, big.rewiring.target? net = some target → big'.rewiring.target? net = some target) :
    StandsFor place big' net net' :=
  h.imp_right fun ⟨foreign, tied⟩ => ⟨foreign, kept _ _ tied⟩

namespace Included

variable (included : Included place small big)
include included

theorem next_le : small.next ≤ big.next := by
  have here := included.ahead 0
  simp only [Nat.add_zero] at here
  rw [← here]
  exact StrictMono.le_apply included.mono

/-- Where there are numbers in the larger netlist, there are numbers in the smaller one. -/
theorem numbered {width : Nat} (room : big.Numbered width) : small.Numbered width := room.of_le included.next_le

/-- A cell that passes its check in the larger netlist passes it in the smaller one. -/
theorem check {c c' : Cell} (alike : c.Alike (StandsFor place big) c') (checked : c'.check = .ok ()) :
    c.check = .ok () := by
  classical
  -- each net of the larger netlist goes to what it stands for, if it stands for anything
  let back (net' : Net) : Net :=
    if h : ∃ net, StandsFor place big net net' then (Classical.choose h).relocate place else net'
  have same := alike (Net.relocate place) back fun net _ net' _ stands => by
    have known : ∃ net, StandsFor place big net net' := ⟨net, stands⟩
    simp only [back, dif_pos known]
    rw [(Classical.choose_spec known).unique included.mono stands]
  refine Cell.check_of_map (Net.relocate_injective included.mono.injective) ?_
  rw [same]
  exact Cell.check_map back checked

/-- A cell that may be added to the larger netlist may be added to the smaller one. -/
theorem admitted {c c' : Cell} (alike : c.Alike (StandsFor place big) c')
    (admitted : c'.check = .ok () ∧ big.Numbered c'.outputWidth) : c.check = .ok () ∧ small.Numbered c.outputWidth :=
  ⟨included.check alike admitted.1, included.numbered (alike.outputWidth ▸ admitted.2)⟩

/-- What is queued in both netlists is queued at places that go on from where they were. -/
theorem enqueue {slots slots' : List Slot} (same : slots'.length = slots.length)
    (alike : ∀ (k : Nat) (slot : Slot), slots[k]? = some slot →
      ∃ slot' : Slot, slots'[k]? = some slot' ∧ slot.Alike (StandsFor place big) place (small.next + k) slot') :
    Included place (small.enqueue slots) (big.enqueue slots') where
  mono := included.mono
  ahead k := by
    have there := included.ahead (slots.length + k)
    rw [next_enqueue, next_enqueue, same, Nat.add_assoc, there, Nat.add_assoc]
  slots index slot found := by
    by_cases inside : index < small.next
    · rw [arena_enqueue_left small slots inside] at found
      obtain ⟨slot', found', related⟩ := included.slots index slot found
      exact ⟨slot', (grows_enqueue big slots').toExtends.slot found', related⟩
    · obtain ⟨k, rfl⟩ := Nat.exists_eq_add_of_le (Nat.le_of_not_lt inside)
      rw [arena_enqueue_right] at found
      obtain ⟨slot', found', related⟩ := alike k slot found
      exact ⟨slot', by rw [included.ahead, arena_enqueue_right, found'], related⟩
  others index' slot' found' := by
    by_cases inside : index' < big.next
    · rw [arena_enqueue_left big slots' inside] at found'
      exact included.others index' slot' found'
    · exact Or.inl ⟨small.next + (index' - big.next), by rw [included.ahead]; omega⟩
  rewiring := included.rewiring

/-- A cell and its counterpart are added to both. -/
theorem push {c c' : Cell} (alike : c.Alike (StandsFor place big) c') :
    Included place (small.push c).2 (big.push c').2 := by
  refine included.enqueue ?_ fun k slot found => ?_
  · rw [Slot.ofCell, Slot.ofCell, alike.outputWidth]
    simp
  · cases k with
    | zero =>
      cases found
      exact ⟨.cell c', rfl, alike⟩
    | succ k =>
      simp only [Slot.ofCell, List.getElem?_cons_succ, List.getElem?_replicate] at found ⊢
      rw [alike.outputWidth]
      split at found
      · rename_i inside
        cases found
        refine ⟨.continuation big.next, by rw [if_pos inside], ?_, by omega, ?_⟩
        · exact (included.ahead 0).symm
        · have start := included.ahead 0
          rw [Nat.add_zero] at start
          rw [included.ahead, start]
          omega
      · cases found

theorem pushPlaceholders (width : Nat) :
    Included place (small.pushPlaceholders width).2 (big.pushPlaceholders width).2 := by
  refine included.enqueue rfl fun k slot found => ⟨.placeholder, ?_, ?_⟩
  · rw [List.getElem?_replicate] at found ⊢
    split at found
    · rename_i inside
      rw [if_pos inside]
    · cases found
  · rw [List.eq_of_mem_replicate (List.mem_of_getElem? found)]
    trivial

/-- Growing replacements let nets stand for what they stood for. -/
theorem rewired {rewiring rewiring' : Rewiring}
    (kept : ∀ net target, big.rewiring.target? net = some target → rewiring'.target? net = some target)
    (same : ∀ net : Net, rewiring'.target? (net.relocate place) = (rewiring.target? net).map (Net.relocate place)) :
    Included place { small with rewiring } { big with rewiring := rewiring' } where
  mono := included.mono
  ahead := included.ahead
  slots index slot found := by
    obtain ⟨slot', found', related⟩ := included.slots index slot found
    exact ⟨slot', found', related.mono (fun _ _ => rfl) fun _ _ _ _ _ stands => stands.mono kept⟩
  others := included.others
  rewiring := same

/-- What is replaced in the larger netlist by a net at its new place can be replaced in the smaller one. -/
theorem rewire {source target : Net} (done : big.rewire (source.relocate place) (target.relocate place) = .ok big') :
    ∃ small', small.rewire source target = .ok small' ∧ Included place small' big' := by
  obtain ⟨free', rfl⟩ := rewire_eq_ok_iff.mp done
  have free : small.rewiring.target? source = none := by
    rw [included.rewiring] at free'
    exact Option.map_eq_none_iff.mp free'
  refine ⟨_, rewire_eq_ok_iff.mpr ⟨free, rfl⟩, included.rewired (fun net other before => ?_) fun net => ?_⟩
  · have different : source.relocate place ≠ net := by
      rintro rfl
      rw [free'] at before
      cases before
    rwa [Rewiring.target?_insert, if_neg different]
  · rw [Rewiring.target?_insert, Rewiring.target?_insert, included.rewiring]
    by_cases same : source = net
    · rw [if_pos same, if_pos (congrArg _ same), Option.map_some]
    · have different : source.relocate place ≠ net.relocate place :=
        fun equal => same (Net.relocate_injective included.mono.injective equal)
      rw [if_neg same, if_neg different]

theorem rewirePairs {pairs : List (Net × Net)}
    (done : (pairs.map fun pair => (pair.1.relocate place, pair.2.relocate place)).foldlM (fun netlist pair =>
      if pair.1 = pair.2 then .ok netlist else netlist.rewire pair.1 pair.2) big = .ok big') :
    ∃ small', pairs.foldlM (fun netlist pair =>
        if pair.1 = pair.2 then .ok netlist else netlist.rewire pair.1 pair.2) small = .ok small' ∧
      Included place small' big' := by
  induction pairs generalizing small big with
  | nil =>
    cases done
    exact ⟨small, rfl, included⟩
  | cons pair rest ih =>
    have injective := Net.relocate_injective included.mono.injective
    rw [List.map_cons, List.foldlM_cons] at done
    obtain ⟨middle', first, later⟩ := Storage.Build.except_bind_eq_ok.mp done
    by_cases same : pair.1 = pair.2
    · rw [if_pos (congrArg _ same)] at first
      cases first
      obtain ⟨small', done', included'⟩ := ih included later
      refine ⟨small', ?_, included'⟩
      rw [List.foldlM_cons, if_pos same]
      exact done'
    · rw [if_neg fun equal => same (injective equal)] at first
      obtain ⟨middle, first', joint⟩ := included.rewire first
      obtain ⟨small', done', included'⟩ := ih joint later
      refine ⟨small', ?_, included'⟩
      rw [List.foldlM_cons, if_neg same]
      exact Storage.Build.except_bind_eq_ok.mpr ⟨middle, first', done'⟩

theorem rewireBus {source target : Bus}
    (done : big.rewireBus (source.map (Net.relocate place)) (target.map (Net.relocate place)) = .ok big') :
    ∃ small', small.rewireBus source target = .ok small' ∧ Included place small' big' := by
  unfold Netlist.rewireBus at done ⊢
  obtain ⟨agreed, wide, done⟩ := Storage.Build.except_bind_eq_ok.mp done
  rw [List.length_map, List.length_map] at wide
  rw [List.zip_map] at done
  obtain ⟨small', done', included'⟩ := included.rewirePairs done
  exact ⟨small', Storage.Build.except_bind_eq_ok.mpr ⟨agreed, wide, done'⟩, included'⟩

end Included

end Netlist

/-- The same edit of a netlist whose slots have moved. -/
def Edit.map (f : Net → Net) : Edit → Edit
  | add c => add (c.map f)
  | addPlaceholders width => addPlaceholders width
  | rewire source target => rewire (f source) (f target)
  | rewireBus source target => rewireBus (source.map f) (target.map f)

def Revision.map (f : Net → Net) : Revision → Revision
  | edit change => edit (change.map f)
  | apply => apply

namespace Netlist.Included

variable {place : Nat → Nat} {small big big' : Netlist} (included : Included place small big)
include included

theorem edit {change : Edit} (done : big.edit (change.map (Net.relocate place)) = .ok big') :
    ∃ small', small.edit change = .ok small' ∧ Included place small' big' := by
  cases change with
  | add c =>
    obtain ⟨checked, rfl⟩ := Netlist.edit_add_eq_ok_iff.mp done
    have alike : c.Alike (StandsFor place big) (c.map (Net.relocate place)) :=
      Cell.alike_map fun net _ => standsFor_relocate net
    exact ⟨_, Netlist.edit_add_eq_ok_iff.mpr ⟨included.admitted alike checked, rfl⟩, included.push alike⟩
  | addPlaceholders width =>
    obtain ⟨room, rfl⟩ := Netlist.edit_addPlaceholders_eq_ok_iff.mp done
    have done := Netlist.edit_addPlaceholders_eq_ok_iff.mpr ⟨included.numbered room, rfl⟩
    exact ⟨_, done, included.pushPlaceholders width⟩
  | rewire source target => exact included.rewire done
  | rewireBus source target => exact included.rewireBus done

end Netlist.Included

end BankedMemory
