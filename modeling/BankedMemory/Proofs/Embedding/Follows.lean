import BankedMemory.Proofs.Construction.Builds
import BankedMemory.Proofs.Embedding.Scopes
import Mathlib.Data.List.Zip

/-!
# Two builds side by side

Two builds work on two netlists, of which one includes the other. The first build follows the second one if it ends well
whenever the second one does, and leaves the one netlist included in the other. The second build may add labels and
placeholders that the first one does without. What has been established of both netlists lasts, whatever is done later,
so that sequences and loops of builds follow each other step by step.
-/

namespace BankedMemory.Storage

open Build

/-- Two netlists, the smaller included in the larger. -/
structure Stage where
  place : Nat → Nat
  small : Netlist
  big : Netlist
  included : Netlist.Included place small big
  enclosed : small.Enclosed

namespace Stage

/-- A net that the smaller netlist has handed out stays in its place. -/
def Keeps (stage : Stage) (net : Net) : Prop := net.Below stage.small.next ∧ net.relocate stage.place = net

/-- A bus that the smaller netlist has handed out, at its new place in the larger one. -/
def Has (stage : Stage) (bus bus' : Bus) : Prop :=
  (∀ net ∈ bus, net.Below stage.small.next) ∧ bus' = bus.map (Net.relocate stage.place)

/-- A bus that the smaller netlist has handed out, and nets that stand for its nets in the larger one. -/
def Stands (stage : Stage) (bus bus' : Bus) : Prop :=
  List.Forall₂ (fun net net' => net.Below stage.small.next ∧ Netlist.StandsFor stage.place stage.big net net') bus bus'

/-- The earlier stage has come to the later one. -/
structure Reaches (stage later : Stage) : Prop where
  next_le : stage.small.next ≤ later.small.next
  places : ∀ index < stage.small.next, later.place index = stage.place index
  stands : ∀ net net', net.Below stage.small.next → Netlist.StandsFor stage.place stage.big net net' →
    Netlist.StandsFor later.place later.big net net'

/-- A property that stages keep. -/
def Lasting (P : Stage → Prop) : Prop := ∀ stage later, stage.Reaches later → P stage → P later

variable {α β : Type} {stage later last : Stage} {net : Net} {bus bus' : Bus}

theorem Reaches.refl (stage : Stage) : stage.Reaches stage :=
  ⟨Nat.le_refl _, fun _ _ => rfl, fun _ _ _ stands => stands⟩

theorem Reaches.trans (first : stage.Reaches later) (second : later.Reaches last) : stage.Reaches last where
  next_le := Nat.le_trans first.next_le second.next_le
  places index inside :=
    (second.places index (Nat.lt_of_lt_of_le inside first.next_le)).trans (first.places index inside)
  stands net net' known stands :=
    second.stands net net' (known.mono first.next_le) (first.stands net net' known stands)

theorem Reaches.relocate (reaches : stage.Reaches later) (known : net.Below stage.small.next) :
    net.relocate later.place = net.relocate stage.place :=
  known.relocate_congr reaches.places

theorem lasting_keeps : Lasting (Keeps · net) := fun _ _ reaches ⟨known, kept⟩ =>
  ⟨known.mono reaches.next_le, (reaches.relocate known).trans kept⟩

theorem lasting_has : Lasting (Has · bus bus') := by
  rintro stage later reaches ⟨known, rfl⟩
  exact ⟨fun net member => (known net member).mono reaches.next_le,
    List.map_congr_left fun net member => (reaches.relocate (known net member)).symm⟩

theorem lasting_stands : Lasting (Stands · bus bus') := fun _ _ reaches stands =>
  stands.imp fun net net' ⟨known, here⟩ => ⟨known.mono reaches.next_le, reaches.stands net net' known here⟩

theorem lasting_const (P : Prop) : Lasting fun _ => P := fun _ _ _ holds => holds

theorem Lasting.and {P Q : Stage → Prop} (hp : Lasting P) (hq : Lasting Q) : Lasting fun stage => P stage ∧ Q stage :=
  fun stage later reaches ⟨p, q⟩ => ⟨hp stage later reaches p, hq stage later reaches q⟩

theorem lasting_forall₂ {R : Stage → α → β → Prop} (lasting : ∀ x y, Lasting (R · x y)) {xs : List α} {ys : List β} :
    Lasting fun stage => List.Forall₂ (R stage) xs ys :=
  fun stage later reaches related => related.imp fun x y => lasting x y stage later reaches

theorem Has.length (has : stage.Has bus bus') : bus'.length = bus.length := by rw [has.2, List.length_map]

theorem Has.stands (has : stage.Has bus bus') : stage.Stands bus bus' := by
  obtain ⟨known, rfl⟩ := has
  exact List.forall₂_map_right_iff.mpr
    (List.forall₂_same.mpr fun net member => ⟨known net member, Netlist.standsFor_relocate net⟩)

theorem has_of_keeps (kept : ∀ net ∈ bus, stage.Keeps net) : stage.Has bus bus := by
  refine ⟨fun net member => (kept net member).1, ?_⟩
  conv_lhs => rw [← List.map_id bus]
  exact List.map_congr_left fun net member => (kept net member).2.symm

/-- Exchanging nets that stand for each other alike makes the same of both buses. -/
theorem Stands.map_eq {f g : Net → Net} (stands : stage.Stands bus bus')
    (same : ∀ net ∈ bus, ∀ net' ∈ bus', Netlist.StandsFor stage.place stage.big net net' → f net = g net') :
    bus.map f = bus'.map g := by
  induction stands with
  | nil => rfl
  | cons here rest ih =>
    rw [List.map_cons, List.map_cons, same _ List.mem_cons_self _ List.mem_cons_self here.2, ih]
    exact fun net member net' member' =>
      same net (List.mem_cons_of_mem _ member) net' (List.mem_cons_of_mem _ member')

/-! ### One build follows the other -/

/-- If the second build ends well on the larger netlist, the first one does on the smaller, and `post` holds of the
stage and the results that they come to. -/
def Follows (stage : Stage) (first : Build α) (second : Build β) (post : Stage → α → β → Prop) : Prop :=
  ∀ bench bench' result' after', bench.netlist = stage.small → bench'.netlist = stage.big →
    Ends second bench' result' after' → ∃ result after later, Ends first bench result after ∧
      after.netlist = later.small ∧ after'.netlist = later.big ∧ stage.Reaches later ∧ post later result result'

section Rules

variable {γ δ σ τ : Type} {post : Stage → α → β → Prop} {mid : Stage → γ → δ → Prop}

theorem Follows.weaken {other : Stage → α → β → Prop} {first : Build α} {second : Build β}
    (h : stage.Follows first second post)
    (implies : ∀ later a b, stage.Reaches later → post later a b → other later a b) :
    stage.Follows first second other := by
  intro bench bench' result' after' here here' ended
  obtain ⟨result, after, later, done, there, there', reaches, holds⟩ := h bench bench' result' after' here here' ended
  exact ⟨result, after, later, done, there, there', reaches, implies later result result' reaches holds⟩

theorem follows_pure {a : α} {b : β} (holds : post stage a b) : stage.Follows (pure a) (pure b) post := by
  intro bench bench' result' after' here here' ended
  obtain ⟨rfl, rfl⟩ := ends_pure.mp ended
  exact ⟨a, bench, stage, ends_pure.mpr ⟨rfl, rfl⟩, here, here', .refl stage, holds⟩

theorem follows_throw {first : Build α} {halt : Halt} : stage.Follows first (throw halt : Build β) post :=
  fun _ _ _ _ _ _ ended => absurd ended not_ends_throw

theorem Follows.bind {first : Build γ} {second : Build δ} {rest : γ → Build α} {rest' : δ → Build β}
    (h : stage.Follows first second mid)
    (h' : ∀ later a b, stage.Reaches later → mid later a b → later.Follows (rest a) (rest' b) post) :
    stage.Follows (first >>= rest) (second >>= rest') post := by
  intro bench bench' result' after' here here' ended
  obtain ⟨middle', between', ended, ended'⟩ := ends_bind.mp ended
  obtain ⟨middle, between, later, done, there, there', reaches, holds⟩ :=
    h bench bench' middle' between' here here' ended
  obtain ⟨result, after, last, done', at_last, at_last', reaches', holds'⟩ :=
    h' later middle middle' reaches holds between between' result' after' there there' ended'
  exact ⟨result, after, last, ends_bind.mpr ⟨middle, between, done, done'⟩, at_last, at_last', reaches.trans reaches',
    holds'⟩

/-- The second build does something alone. -/
theorem Follows.ahead {a : γ} {first : Build α} {second : Build δ} {rest' : δ → Build β}
    (h : stage.Follows (pure a) second mid)
    (h' : ∀ later b, stage.Reaches later → mid later a b → later.Follows first (rest' b) post) :
    stage.Follows first (second >>= rest') post := by
  intro bench bench' result' after' here here' ended
  obtain ⟨middle', between', ended, ended'⟩ := ends_bind.mp ended
  obtain ⟨_, between, later, done, there, there', reaches, holds⟩ := h bench bench' middle' between' here here' ended
  obtain ⟨rfl, rfl⟩ := ends_pure.mp done
  obtain ⟨result, after, last, done', at_last, at_last', reaches', holds'⟩ :=
    h' later middle' reaches holds between between' result' after' there there' ended'
  exact ⟨result, after, last, done', at_last, at_last', reaches.trans reaches', holds'⟩

theorem follows_ofFault {given : Except Fault α} {given' : Except Fault β}
    (holds : ∀ result', given' = .ok result' → ∃ result, given = .ok result ∧ post stage result result') :
    stage.Follows (ofFault given) (ofFault given') post := by
  intro bench bench' result' after' here here' ended
  obtain ⟨known, rfl⟩ := ends_ofFault.mp ended
  obtain ⟨result, found, related⟩ := holds result' known
  exact ⟨result, bench, stage, ends_ofFault.mpr ⟨found, rfl⟩, here, here', .refl stage, related⟩

theorem follows_same {given : Except Fault α} :
    stage.Follows (ofFault given) (ofFault given) fun _ result result' => result' = result :=
  follows_ofFault fun result found => ⟨result, found, rfl⟩

/-- The second build only checks what the first one may count on. -/
theorem follows_checked {check check' : Except Refusal Unit} (passed : check = .ok ()) :
    stage.Follows (ofRefusal check) (ofRefusal check') fun _ _ _ => True := by
  intro bench bench' result' after' here here' ended
  obtain ⟨_, rfl⟩ := ends_ofRefusal.mp ended
  exact ⟨(), bench, stage, ends_ofRefusal.mpr ⟨passed, rfl⟩, here, here', .refl stage, trivial⟩

theorem follows_ofRefusal {given : Except Refusal α} {given' : Except Refusal β}
    (holds : ∀ result', given' = .ok result' → ∃ result, given = .ok result ∧ post stage result result') :
    stage.Follows (ofRefusal given) (ofRefusal given') post := by
  intro bench bench' result' after' here here' ended
  obtain ⟨known, rfl⟩ := ends_ofRefusal.mp ended
  obtain ⟨result, accepted, related⟩ := holds result' known
  exact ⟨result, bench, stage, ends_ofRefusal.mpr ⟨accepted, rfl⟩, here, here', .refl stage, related⟩

theorem follows_report {event event' : Event} : stage.Follows (report event) (report event') fun _ _ _ => True := by
  intro bench bench' result' after' here here' ended
  refine ⟨(), _, stage, ends_report.mpr rfl, here, ?_, .refl stage, trivial⟩
  rw [ends_report.mp ended]
  exact here'

/-- A condition of the second build alone. -/
theorem follows_accepted {given : Except Refusal β} :
    stage.Follows (pure ()) (ofRefusal given) fun _ _ result => given = .ok result := by
  intro bench bench' result' after' here here' ended
  obtain ⟨known, rfl⟩ := ends_ofRefusal.mp ended
  exact ⟨(), bench, stage, ends_pure.mpr ⟨rfl, rfl⟩, here, here', .refl stage, known⟩

/-- A report of the second build alone. -/
theorem follows_reported {event : Event} : stage.Follows (pure ()) (report event) fun _ _ _ => True := by
  intro bench bench' result' after' here here' ended
  refine ⟨(), bench, stage, ends_pure.mpr ⟨rfl, rfl⟩, here, ?_, .refl stage, trivial⟩
  rw [ends_report.mp ended]
  exact here'

theorem Follows.refuseAs {f : Refusal → Refusal} {first : Build α} {second : Build β}
    (h : stage.Follows first second post) : stage.Follows first (Build.refuseAs f second) post :=
  fun bench bench' result' after' here here' ended => h bench bench' result' after' here here' (ends_refuseAs.mp ended)

theorem follows_refuseAs {f g : Refusal → Refusal} {first : Build α} {second : Build β}
    (h : stage.Follows first second post) : stage.Follows (refuseAs f first) (refuseAs g second) post := by
  intro bench bench' result' after' here here' ended
  obtain ⟨result, after, later, done, rest⟩ := h.refuseAs bench bench' result' after' here here' ended
  exact ⟨result, after, later, ends_refuseAs.mpr done, rest⟩

/-- What holds of all results of the second build may be used of its result. -/
theorem Follows.also {P : β → Prop} {first : Build α} {second : Build β} (h : stage.Follows first second post)
    (known : ∀ bench' result' after', Ends second bench' result' after' → P result') :
    stage.Follows first second fun later result result' => post later result result' ∧ P result' := by
  intro bench bench' result' after' here here' ended
  obtain ⟨result, after, later, done, there, there', reaches, holds⟩ := h bench bench' result' after' here here' ended
  exact ⟨result, after, later, done, there, there', reaches, holds, known bench' result' after' ended⟩

/-! ### Edits -/

/-- The next slots of both netlists belong together. -/
theorem map_ofSlots (stage : Stage) (width : Nat) :
    Bus.ofSlots stage.big.next width = (Bus.ofSlots stage.small.next width).map (Net.relocate stage.place) := by
  unfold Bus.ofSlots
  rw [List.range'_eq_map_range, List.range'_eq_map_range, List.map_map, List.map_map, List.map_map]
  refine List.map_congr_left fun k _ => ?_
  exact congrArg Net.slot (stage.included.ahead k).symm

theorem below_ofSlots {start width bound : Nat} (inside : start + width ≤ bound) :
    ∀ net ∈ Bus.ofSlots start width, net.Below bound := by
  intro net member
  obtain ⟨index, at_index, rfl⟩ := List.mem_map.mp member
  have range := List.mem_range'_1.mp at_index
  show index < bound
  omega

/-- A cell is added to both netlists. -/
theorem follows_add {c c' : Cell} (known : ∀ net ∈ c.nets, net.Below stage.small.next)
    (alike : c.Alike (Netlist.StandsFor stage.place stage.big) c') : stage.Follows (add c) (add c') Has := by
  intro bench bench' result' after' here here' ended
  obtain ⟨checked', rfl, rfl⟩ := ends_add.mp ended
  rw [here'] at checked'
  have checked := stage.included.admitted alike checked'
  have done : stage.small.edit (.add c) = .ok (stage.small.push c).2 := Netlist.edit_add_eq_ok_iff.mpr ⟨checked, rfl⟩
  have longer := Netlist.next_edit done
  let later : Stage := ⟨stage.place, (stage.small.push c).2, (stage.big.push c').2, stage.included.push alike,
    stage.enclosed.edit (show ∀ net ∈ (Edit.add c).mentioned, _ from known) done⟩
  refine ⟨_, _, later, ends_add.mpr ⟨by rwa [here], rfl, rfl⟩, by rw [here], by rw [here'],
    ⟨(Netlist.grows_push stage.small c).next_le, fun _ _ => rfl, fun _ _ _ stands => stands⟩, ?_, ?_⟩
  · rw [here]
    refine below_ofSlots ?_
    show _ ≤ (stage.small.push c).2.next
    rw [longer]
    exact Nat.add_le_add_left (Nat.le_max_left _ _) _
  · show (bench'.netlist.push c').1 = (bench.netlist.push c).1.map _
    rw [here, here']
    show Bus.ofSlots _ c'.outputWidth = _
    rw [alike.outputWidth]
    exact stage.map_ofSlots c.outputWidth

/-- Placeholders are added to both netlists. -/
theorem follows_addPlaceholders {width : Nat} :
    stage.Follows (addPlaceholders width) (addPlaceholders width) Has := by
  intro bench bench' result' after' here here' ended
  obtain ⟨room', rfl, rfl⟩ := ends_addPlaceholders.mp ended
  rw [here'] at room'
  have room := stage.included.numbered room'
  have done : stage.small.edit (.addPlaceholders width) = .ok (stage.small.pushPlaceholders width).2 :=
    Netlist.edit_addPlaceholders_eq_ok_iff.mpr ⟨room, rfl⟩
  have longer := Netlist.next_edit done
  let later : Stage := ⟨stage.place, (stage.small.pushPlaceholders width).2, (stage.big.pushPlaceholders width).2,
    stage.included.pushPlaceholders width, stage.enclosed.edit (fun _ member => absurd member List.not_mem_nil) done⟩
  refine ⟨_, _, later, ends_addPlaceholders.mpr ⟨by rwa [here], rfl, rfl⟩, by rw [here], by rw [here'],
    ⟨(Netlist.grows_pushPlaceholders stage.small width).next_le, fun _ _ => rfl, fun _ _ _ stands => stands⟩, ?_, ?_⟩
  · rw [here]
    refine below_ofSlots ?_
    show _ ≤ (stage.small.pushPlaceholders width).2.next
    rw [longer]
    exact Nat.le_refl _
  · show (bench'.netlist.pushPlaceholders width).1 = (bench.netlist.pushPlaceholders width).1.map _
    rw [here, here']
    exact stage.map_ofSlots width

theorem follows_rewireBus {source source' target target' : Bus} (from_source : stage.Has source source')
    (to_target : stage.Has target target') :
    stage.Follows (rewireBus source target) (rewireBus source' target') fun _ _ _ => True := by
  intro bench bench' result' after' here here' ended
  obtain ⟨big, done', rfl⟩ := ends_rewireBus.mp ended
  rw [here', from_source.2, to_target.2] at done'
  obtain ⟨small, done, included⟩ := stage.included.rewireBus done'
  have known : ∀ net ∈ (Edit.rewireBus source target).mentioned, net.Below stage.small.next := by
    intro net member
    obtain ⟨pair, asked, at_pair⟩ := List.mem_flatMap.mp member
    obtain ⟨left, right⟩ := List.of_mem_zip (List.mem_of_mem_filter asked)
    rcases List.mem_cons.mp at_pair with rfl | at_target
    · exact from_source.1 _ left
    · rw [List.mem_singleton.mp at_target]
      exact to_target.1 _ right
  let later : Stage := ⟨stage.place, small, big, included, stage.enclosed.edit known done⟩
  have extends_small := Netlist.edit_extends (show stage.small.edit (.rewireBus source target) = .ok small from done)
  refine ⟨(), _, later, ends_rewireBus.mpr ⟨small, by rw [here, done], rfl⟩, rfl, rfl,
    ⟨extends_small.next_le, fun _ _ => rfl, fun _ _ _ stands => ?_⟩, trivial⟩
  exact stands.mono (Netlist.rewireBus_eq_ok done').2.kept

/-- Slots that carry nothing are added to the larger netlist alone. -/
theorem follows_widen {second : Build β} {slots : List Slot} {Q : β → Prop}
    (light : ∀ slot ∈ slots, slot = .placeholder ∨ ∃ name bus, slot = .cell (.label name bus))
    (adds : ∀ bench' result' after', bench'.netlist = stage.big → Ends second bench' result' after' →
      after'.netlist = stage.big.enqueue slots ∧ Q result') : stage.Follows (pure ()) second fun later _ b =>
        later.place = Netlist.shifted stage.place stage.small.next slots.length ∧ Q b := by
  intro bench bench' result' after' here here' ended
  obtain ⟨widened, holds⟩ := adds bench' result' after' here' ended
  let later : Stage := ⟨Netlist.shifted stage.place stage.small.next slots.length, stage.small,
    stage.big.enqueue slots, stage.included.widen stage.enclosed light, stage.enclosed⟩
  refine ⟨(), bench, later, ends_pure.mpr ⟨rfl, rfl⟩, here, widened,
    ⟨Nat.le_refl _, fun _ inside => Netlist.shifted_of_lt inside, fun _ _ known stands => ?_⟩, rfl, holds⟩
  exact stage.included.standsFor_shifted known stands rfl

/-- Only the larger netlist may get the label. -/
theorem follows_label {bus bus' : Bus} {name? : Option String} :
    stage.Follows (label none bus) (label name? bus') fun _ _ _ => True := by
  cases name? with
  | none => exact follows_pure trivial
  | some name =>
    have light : ∀ slot ∈ [Slot.cell (.label name bus')], slot = .placeholder ∨
        ∃ name bus, slot = .cell (.label name bus) :=
      fun slot member => Or.inr ⟨name, bus', List.mem_singleton.mp member⟩
    refine (stage.follows_widen (Q := fun _ => True) light ?_).weaken fun _ _ _ _ _ => trivial
    intro bench' result' after' here' ended
    obtain ⟨_, _, added, finished⟩ := ends_bind.mp ended
    obtain ⟨_, _, rfl⟩ := ends_add.mp added
    obtain ⟨_, rfl⟩ := ends_pure.mp finished
    exact ⟨by rw [← here']; rfl, trivial⟩

/-- Only the larger netlist gets the placeholders, which are at no new place. -/
theorem follows_placeholders {width : Nat} : stage.Follows (pure ()) (addPlaceholders width) fun later _ bus' =>
    bus'.length = width ∧ ∀ net ∈ bus', ∀ other : Net, net ≠ other.relocate later.place := by
  have light : ∀ slot ∈ List.replicate width Slot.placeholder, slot = .placeholder ∨
      ∃ name bus, slot = .cell (.label name bus) :=
    fun slot member => Or.inl (List.eq_of_mem_replicate member)
  refine (stage.follows_widen (Q := fun bus' => bus' = Bus.ofSlots stage.big.next width) light ?_).weaken ?_
  · intro bench' result' after' here' ended
    obtain ⟨_, rfl, rfl⟩ := ends_addPlaceholders.mp ended
    rw [← here']
    exact ⟨rfl, rfl⟩
  · rintro later _ _ _ ⟨moved, rfl⟩
    refine ⟨Bus.length_ofSlots _ _, fun net member other => ?_⟩
    obtain ⟨index', at_index, rfl⟩ := List.mem_map.mp member
    have range := List.mem_range'_1.mp at_index
    cases other with
    | const bit => exact fun same => Net.noConfusion same
    | slot index =>
      intro same
      have at_place : index' = later.place index := Net.slot.inj same
      rw [moved, List.length_replicate] at at_place
      by_cases inside : index < stage.small.next
      · rw [Netlist.shifted_of_lt inside] at at_place
        have lower := stage.included.mono inside
        have start := stage.included.ahead 0
        rw [Nat.add_zero, Nat.add_zero] at start
        omega
      · rw [Netlist.shifted_of_le (Nat.le_of_not_lt inside)] at at_place
        have high := stage.included.next_le_place (Nat.le_of_not_lt inside)
        omega

/-- Placeholders that only the larger netlist has are replaced in it. -/
theorem follows_tie {source' target target' : Bus}
    (foreign : ∀ net ∈ source', ∀ other : Net, net ≠ other.relocate stage.place)
    (to_target : stage.Has target target') :
    stage.Follows (pure ()) (rewireBus source' target') fun later _ _ => later.Stands target source' := by
  intro bench bench' result' after' here here' ended
  obtain ⟨big, done', rfl⟩ := ends_rewireBus.mp ended
  rw [here'] at done'
  obtain ⟨wide, rewires⟩ := Netlist.rewireBus_eq_ok done'
  have included := stage.included.tie rewires fun pair member => foreign pair.1 (List.of_mem_zip member).1
  let later : Stage := ⟨stage.place, stage.small, big, included, stage.enclosed⟩
  refine ⟨(), bench, later, ends_pure.mpr ⟨rfl, rfl⟩, here, rfl,
    ⟨Nat.le_refl _, fun _ _ => rfl, fun _ _ _ stands => stands.mono rewires.kept⟩, ?_⟩
  obtain ⟨known, rfl⟩ := to_target
  refine List.forall₂_iff_zip.mpr ⟨by rw [wide, List.length_map], fun {net net'} member => ⟨?_, Or.inr ?_⟩⟩
  · exact known net (List.of_mem_zip member).1
  · have swapped : (net', net.relocate stage.place) ∈ source'.zip (target.map (Net.relocate stage.place)) := by
      rw [List.zip_map_right, ← List.zip_swap target source', List.map_map]
      exact List.mem_map.mpr ⟨(net, net'), member, rfl⟩
    have foreign_here := foreign net' (List.of_mem_zip member).2
    exact ⟨foreign_here, (rewires.each _ swapped).resolve_left (foreign_here net)⟩

/-! ### Loops -/

variable {R : Stage → α → β → Prop}

theorem follows_mapM {f : α → Build γ} {g : β → Build δ} (kept : ∀ x y, Lasting (R · x y))
    (kept' : ∀ x y, Lasting (mid · x y)) {xs : List α} {ys : List β} (related : List.Forall₂ (R stage) xs ys)
    (each : ∀ later x y, stage.Reaches later → R later x y → later.Follows (f x) (g y) mid) :
    stage.Follows (xs.mapM f) (ys.mapM g) fun later => List.Forall₂ (mid later) := by
  suffices from_here : ∀ xs ys later, stage.Reaches later → List.Forall₂ (R later) xs ys →
      later.Follows (xs.mapM f) (ys.mapM g) fun later => List.Forall₂ (mid later) from
    from_here xs ys stage (.refl stage) related
  intro xs
  induction xs with
  | nil =>
    intro ys later _ related
    cases related
    exact follows_pure .nil
  | cons x xs ih =>
    intro ys later reaches related
    cases related with
    | cons head tail =>
      rw [List.mapM_cons, List.mapM_cons]
      refine (each later x _ reaches head).bind fun next z w reaches' first => ?_
      have related := lasting_forall₂ kept later next reaches' tail
      refine (ih _ next (reaches.trans reaches') related).bind fun last zs ws reaches'' others => ?_
      exact follows_pure (.cons (kept' z w next last reaches'' first) others)

theorem follows_foldlM {P : Stage → σ → τ → Prop} {f : σ → α → Build σ} {g : τ → β → Build τ}
    (kept : ∀ x y, Lasting (R · x y)) {xs : List α} {ys : List β} (related : List.Forall₂ (R stage) xs ys)
    (round : ∀ later s t x y, stage.Reaches later → P later s t → R later x y → later.Follows (f s x) (g t y) P)
    {s : σ} {t : τ} (init : P stage s t) : stage.Follows (xs.foldlM f s) (ys.foldlM g t) P := by
  suffices from_here : ∀ xs ys later s t, stage.Reaches later → List.Forall₂ (R later) xs ys → P later s t →
      later.Follows (xs.foldlM f s) (ys.foldlM g t) P from from_here xs ys stage s t (.refl stage) related init
  intro xs
  induction xs with
  | nil =>
    intro ys later s t _ related here
    cases related
    exact follows_pure here
  | cons x xs ih =>
    intro ys later s t reaches related here
    cases related with
    | cons head tail =>
      rw [List.foldlM_cons, List.foldlM_cons]
      refine (round later s t x _ reaches here head).bind fun next s' t' reaches' there => ?_
      exact ih _ next s' t' (reaches.trans reaches') (lasting_forall₂ kept later next reaches' tail) there

theorem follows_forM {f : α → Build Unit} {g : β → Build Unit} (kept : ∀ x y, Lasting (R · x y)) {xs : List α}
    {ys : List β} (related : List.Forall₂ (R stage) xs ys)
    (each : ∀ later x y, stage.Reaches later → R later x y →
      later.Follows (f x) (g y) fun _ _ _ => True) :
    stage.Follows (xs.forM f) (ys.forM g) fun _ _ _ => True := by
  suffices from_here : ∀ xs ys later, stage.Reaches later → List.Forall₂ (R later) xs ys →
      later.Follows (xs.forM f) (ys.forM g) fun _ _ _ => True from
    from_here xs ys stage (.refl stage) related
  intro xs
  induction xs with
  | nil =>
    intro ys later _ related
    cases related
    exact follows_pure trivial
  | cons x xs ih =>
    intro ys later reaches related
    cases related with
    | @cons _ y _ ys head tail =>
      change later.Follows (f x >>= fun _ => xs.forM f) (g y >>= fun _ => ys.forM g) _
      refine (each later x y reaches head).bind fun next _ _ reaches' _ => ?_
      exact ih ys next (reaches.trans reaches') (lasting_forall₂ kept later next reaches' tail)

end Rules

end Stage

end BankedMemory.Storage
