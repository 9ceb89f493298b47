import BankedMemory.Proofs.Construction.Edits
import Mathlib.Algebra.BigOperators.Group.Finset.Basic
import Mathlib.Algebra.GroupWithZero.Nat
import Mathlib.Algebra.Order.Group.Multiset

/-!
# What builds cost

The tally of a netlist tells which kinds of cells it has, each as often as there are cells of the kind, and how many
slots there are. A build has a fixed cost if it ends well wherever its slots get numbers, and adds the same tally there.
The cost of a sequence or of a loop is the sum of the costs of its parts.
-/

namespace BankedMemory

/-- The kinds of some cells, and the slots that they and some placeholders take. -/
abbrev Tally := Multiset String × Nat

namespace Tally

/-- One cell, which takes a slot even if it puts out nothing. -/
def cell (kind : String) (width : Nat) : Tally := ({kind}, max width 1)

def placeholders (width : Nat) : Tally := (0, width)

def label (name? : Option String) : Tally := if name?.isSome then cell "name" 0 else 0

@[simp] theorem label_map (f : String → String) (name? : Option String) : label (name?.map f) = label name? := by
  simp [label]

end Tally

namespace Netlist

variable {netlist : Netlist}

/-- All cells of a netlist, applied or queued, by their kinds, and all its slots. -/
def tally (netlist : Netlist) : Tally :=
  (((cellsIn 0 netlist.arena.toList).map fun entry => entry.2.className : List String), netlist.next)

theorem tally_enqueue (netlist : Netlist) (slots : List Slot) : (netlist.enqueue slots).tally = netlist.tally +
    ((((cellsIn netlist.next slots).map fun entry => entry.2.className : List String), slots.length) : Tally) := by
  have behind : 0 + netlist.arena.toList.length = netlist.next := by
    rw [Nat.zero_add, Array.length_toList, size_arena]
  simp only [tally, arena_enqueue, Array.toList_append, cellsIn_append, behind, List.map_append, next_enqueue,
    Prod.mk_add_mk, Multiset.coe_add]

theorem tally_push (netlist : Netlist) (c : Cell) :
    (netlist.push c).2.tally = netlist.tally + Tally.cell c.className c.outputWidth := by
  have queued : (netlist.push c).2 = netlist.enqueue (Slot.ofCell netlist.next c) := rfl
  rw [queued, tally_enqueue, cellsIn_ofCell, Slot.length_ofCell]
  rfl

theorem tally_pushPlaceholders (netlist : Netlist) (width : Nat) :
    (netlist.pushPlaceholders width).2.tally = netlist.tally + Tally.placeholders width := by
  have queued : (netlist.pushPlaceholders width).2 = netlist.enqueue (List.replicate width .placeholder) := rfl
  rw [queued, tally_enqueue, cellsIn_replicate rfl, List.length_replicate]
  rfl

theorem tally_congr {other : Netlist} (same : netlist.arena = other.arena) : netlist.tally = other.tally := by
  rw [tally, tally, same, ← size_arena, ← size_arena, same]

/-- The netlist has got some cells and slots, and no replacements. -/
structure Spends (tally : Tally) (before after : Netlist) : Prop where
  tally : after.tally = before.tally + tally
  rewiring : after.rewiring = before.rewiring

variable {before middle after : Netlist} {cost more : Tally}

theorem Spends.refl (netlist : Netlist) : Spends 0 netlist netlist := ⟨(add_zero _).symm, rfl⟩

theorem Spends.trans (first : Spends cost before middle) (second : Spends more middle after) :
    Spends (cost + more) before after where
  tally := by rw [second.tally, first.tally, add_assoc]
  rewiring := second.rewiring.trans first.rewiring

theorem Spends.next (spends : Spends cost before after) : after.next = before.next + cost.2 :=
  congrArg Prod.snd spends.tally

theorem Spends.numbered (spends : Spends cost before after) {width : Nat} (room : before.Numbered (cost.2 + width)) :
    after.Numbered width := by
  have next := spends.next
  rw [Numbered] at room ⊢
  omega

end Netlist

namespace Storage.Build

variable {α β σ : Type} {cost more : Tally} {post : α → Prop}

/-- Wherever all slots get numbers the build ends well and has this cost, and its result satisfies `post`. -/
def Costs (build : Build α) (cost : Tally) (post : α → Prop) : Prop :=
  ∀ bench, bench.netlist.Numbered cost.2 →
    ∃ result after, Ends build bench result after ∧ Netlist.Spends cost bench.netlist after.netlist ∧ post result

theorem Costs.eq {build : Build α} (h : Costs build cost post) (same : cost = more) : Costs build more post := by
  rwa [← same]

theorem costs_pure {given : α} (holds : post given) : Costs (pure given) 0 post :=
  fun bench _ => ⟨given, bench, ends_pure.mpr ⟨rfl, rfl⟩, .refl _, holds⟩

/-- The second part may count on what the first part has come to. -/
theorem costs_then {mid : β → Prop} {first : Build β} {rest : β → Build α} (h : Costs first cost mid)
    (h' : ∀ bench middle after, Ends first bench middle after → mid middle → Costs (rest middle) more post) :
    Costs (first >>= rest) (cost + more) post := by
  intro bench room
  have room : bench.netlist.Numbered (cost.2 + more.2) := room
  obtain ⟨middle, between, ended, spends, holds⟩ := h bench (room.mono (Nat.le_add_right _ _))
  obtain ⟨result, after, ended', spends', holds'⟩ :=
    h' bench middle between ended holds between (spends.numbered room)
  exact ⟨result, after, ends_bind.mpr ⟨middle, between, ended, ended'⟩, spends.trans spends', holds'⟩

theorem costs_bind {mid : β → Prop} {first : Build β} {rest : β → Build α} (h : Costs first cost mid)
    (h' : ∀ middle, mid middle → Costs (rest middle) more post) : Costs (first >>= rest) (cost + more) post :=
  costs_then h fun _ middle _ _ => h' middle

/-- A part that adds nothing costs nothing, before another part or after it. -/
theorem costs_free_bind {mid : β → Prop} {first : Build β} {rest : β → Build α} (h : Costs first 0 mid)
    (h' : ∀ middle, mid middle → Costs (rest middle) cost post) : Costs (first >>= rest) cost post :=
  (costs_bind h h').eq (zero_add cost)

theorem costs_bind_free {mid : β → Prop} {first : Build β} {rest : β → Build α} (h : Costs first cost mid)
    (h' : ∀ middle, mid middle → Costs (rest middle) 0 post) : Costs (first >>= rest) cost post :=
  (costs_bind h h').eq (add_zero cost)

section Endings

variable {bench : Workbench} {goal : α → Workbench → Prop}

/-- A build goes on from where its first part has come to. -/
theorem exists_ends_bind {first : Build β} {rest : β → Build α} {middle : β} {between : Workbench}
    (ended : Ends first bench middle between) (h : ∃ result after, Ends (rest middle) between result after ∧
      goal result after) : ∃ result after, Ends (first >>= rest) bench result after ∧ goal result after := by
  obtain ⟨result, after, ended', reached⟩ := h
  exact ⟨result, after, ends_bind.mpr ⟨middle, between, ended, ended'⟩, reached⟩

theorem Costs.exists_ends {build : Build α} (h : Costs build cost post)
    (room : bench.netlist.Numbered cost.2)
    (implies : ∀ result after, Netlist.Spends cost bench.netlist after.netlist → post result → goal result after) :
    ∃ result after, Ends build bench result after ∧ goal result after := by
  obtain ⟨result, after, ended, spends, holds⟩ := h bench room
  exact ⟨result, after, ended, implies result after spends holds⟩

/-- A build halts after a first part of some cost. -/
theorem Costs.stops_bind {mid : β → Prop} {first : Build β} {rest : β → Build α} {reason : Halt → Prop}
    (h : Costs first cost mid) (room : bench.netlist.Numbered cost.2)
    (h' : ∀ middle between, Netlist.Spends cost bench.netlist between.netlist → mid middle →
      Stops (rest middle) between reason) : Stops (first >>= rest) bench reason := by
  obtain ⟨middle, between, ended, spends, holds⟩ := h bench room
  exact stops_bind_right ended (h' middle between spends holds)

end Endings

theorem costs_ofFault {given : Except Fault α} {result : α} (done : given = .ok result) (holds : post result) :
    Costs (ofFault given) 0 post := by
  rw [done]
  exact costs_pure holds

theorem costs_ofFault_bind {given : Except Fault β} {middle : β} {rest : β → Build α} (done : given = .ok middle)
    (h : Costs (rest middle) cost post) : Costs (ofFault given >>= rest) cost post := by
  have free : Costs (ofFault given) 0 (· = middle) := costs_ofFault done rfl
  refine costs_free_bind free ?_
  rintro _ rfl
  exact h

theorem costs_ofRefusal_bind {given : Except Refusal β} {middle : β} {rest : β → Build α} (done : given = .ok middle)
    (h : Costs (rest middle) cost post) : Costs (ofRefusal given >>= rest) cost post := by
  rw [done]
  have free : Costs (pure middle) 0 (· = middle) := costs_pure rfl
  refine costs_free_bind free ?_
  rintro _ rfl
  exact h

theorem costs_report {event : Event} : Costs (report event) 0 fun _ => True :=
  fun bench _ => ⟨(), _, ends_report.mpr rfl, .refl bench.netlist, trivial⟩

theorem costs_add {c : Cell} (checked : c.check = .ok ()) :
    Costs (add c) (Tally.cell c.className c.outputWidth) fun output => output.length = c.outputWidth := by
  intro bench room
  have numbered : bench.netlist.Numbered c.outputWidth := room.mono (Nat.le_max_left _ _)
  refine ⟨_, _, ends_add.mpr ⟨⟨checked, numbered⟩, rfl, rfl⟩, ⟨bench.netlist.tally_push c, rfl⟩, ?_⟩
  exact Bus.length_ofSlots _ _

theorem costs_invert {bus : Bus} {width : Nat} (wide : bus.length = width) :
    Costs (add (.invert bus)) (Tally.cell "not" width) fun output => output.length = width := by
  have costs := costs_add (c := .invert bus) rfl
  rwa [Cell.outputWidth, wide] at costs

theorem costs_gate {kind : Gate} {left right : Bus} {width : Nat} (wide : left.length = width)
    (wide' : right.length = width) :
    Costs (add (.gate kind left right)) (Tally.cell kind.name width) fun output => output.length = width := by
  have costs := costs_add (c := .gate kind left right) (Size.agree_eq_ok_iff.mpr (wide.trans wide'.symm))
  rwa [Cell.outputWidth, wide] at costs

theorem costs_label (name? : Option String) (bus : Bus) :
    Costs (label name? bus) (Tally.label name?) fun _ => True := by
  cases name? with
  | none => exact costs_pure trivial
  | some name => exact costs_bind_free (costs_add (c := .label name bus) rfl) fun _ _ => costs_pure trivial

theorem costs_addPlaceholders (width : Nat) :
    Costs (addPlaceholders width) (Tally.placeholders width) fun output => output.length = width := by
  intro bench room
  refine ⟨_, _, ends_addPlaceholders.mpr ⟨room, rfl, rfl⟩, ⟨bench.netlist.tally_pushPlaceholders width, rfl⟩, ?_⟩
  exact Bus.length_ofSlots _ _

theorem costs_refuseAs {f : Refusal → Refusal} {build : Build α} (h : Costs build cost post) :
    Costs (refuseAs f build) cost post := by
  intro bench room
  obtain ⟨result, after, ended, spent⟩ := h bench room
  exact ⟨result, after, ends_refuseAs.mpr ended, spent⟩

theorem costs_mapM {f : α → Build β} {l : List α} {cost : α → Tally} {holds : β → Prop}
    (each : ∀ x ∈ l, Costs (f x) (cost x) holds) :
    Costs (l.mapM f) (l.map cost).sum fun results => results.length = l.length ∧ ∀ y ∈ results, holds y := by
  induction l with
  | nil => exact costs_pure ⟨rfl, fun _ member => absurd member List.not_mem_nil⟩
  | cons x rest ih =>
    rw [List.mapM_cons, List.map_cons, List.sum_cons]
    refine costs_bind (each x List.mem_cons_self) fun y here => ?_
    have later := ih fun other member => each other (List.mem_cons_of_mem x member)
    refine costs_bind_free later fun ys ⟨count, there⟩ => costs_pure ⟨congrArg (· + 1) count, ?_⟩
    exact List.forall_mem_cons.mpr ⟨here, there⟩

/-- A loop of which all rounds cost the same. -/
theorem costs_mapM_const {f : α → Build β} {l : List α} {holds : β → Prop} (each : ∀ x ∈ l, Costs (f x) cost holds) :
    Costs (l.mapM f) (l.length • cost) fun results => results.length = l.length ∧ ∀ y ∈ results, holds y := by
  have all := costs_mapM each
  rwa [List.map_const', List.sum_replicate] at all

theorem costs_forM_const {f : α → Build Unit} {l : List α} (each : ∀ x ∈ l, Costs (f x) cost fun _ => True) :
    Costs (l.forM f) (l.length • cost) fun _ => True := by
  induction l with
  | nil => exact (costs_pure trivial).eq (zero_nsmul _).symm
  | cons x rest ih =>
    rw [List.length_cons, succ_nsmul']
    exact costs_bind (each x List.mem_cons_self) fun _ _ => ih fun other member =>
      each other (List.mem_cons_of_mem x member)

/-- The invariant of a loop may tell which elements are done, and the cost of a round may tell how many are. -/
theorem costs_foldlM {f : σ → α → Build σ} {init : σ} (l : List α) (cost : Nat → Tally) (inv : List α → σ → Prop)
    (start : inv [] init) (round : ∀ done x rest state, l = done ++ x :: rest → inv done state →
      Costs (f state x) (cost done.length) (inv (done ++ [x]))) :
    Costs (l.foldlM f init) (∑ k ∈ Finset.range l.length, cost k) (inv l) := by
  have rounds : ∀ rest done state, l = done ++ rest → inv done state →
      Costs (rest.foldlM f state) (∑ k ∈ Finset.range rest.length, cost (done.length + k)) (inv l) := by
    intro rest
    induction rest with
    | nil =>
      intro done state all holds
      rw [List.append_nil] at all
      rw [all]
      exact costs_pure holds
    | cons x rest ih =>
      intro done state all holds
      have later (state : σ) (holds : inv (done ++ [x]) state) := ih (done ++ [x]) state (by simpa using all) holds
      rw [List.foldlM_cons, List.length_cons, Finset.sum_range_succ', add_comm]
      refine costs_bind (round done x rest state all holds) fun middle reached => ?_
      have rest_costs := later middle reached
      simpa only [List.length_append, List.length_singleton, Nat.add_assoc, Nat.add_comm 1] using rest_costs
  have all := rounds l [] init rfl start
  simpa using all

/-- A loop that keeps one property and of which all rounds cost the same. -/
theorem costs_foldlM_const {f : σ → α → Build σ} {init : σ} {l : List α} (holds : σ → Prop) (start : holds init)
    (round : ∀ x ∈ l, ∀ state, holds state → Costs (f state x) cost holds) :
    Costs (l.foldlM f init) (l.length • cost) holds := by
  have all := costs_foldlM l (fun _ => cost) (fun _ => holds) start fun done x rest state all =>
    round x (by simp [all]) state
  rwa [Finset.sum_const, Finset.card_range] at all

/-- A loop over numbers whose invariant tells how many are done. -/
theorem costs_foldlM_range {f : σ → Nat → Build σ} {init : σ} {count : Nat} (inv : Nat → σ → Prop) (start : inv 0 init)
    (round : ∀ k < count, ∀ state, inv k state → Costs (f state k) cost (inv (k + 1))) :
    Costs ((List.range count).foldlM f init) (count • cost) (inv count) := by
  have all := costs_foldlM (List.range count) (fun _ => cost) (fun done => inv done.length) start
    fun done k rest state all holds => by
      have inside : done.length < count := by
        have total := congrArg List.length all
        simp only [List.length_range, List.length_append, List.length_cons] at total
        omega
      have place := congrArg (·[done.length]?) all
      simp only [List.getElem?_range inside, List.getElem?_append_right (Nat.le_refl _), Nat.sub_self,
        List.getElem?_cons_zero, Option.some.injEq] at place
      rw [← place, List.length_append, List.length_singleton]
      exact round done.length inside state holds
  simpa only [Finset.sum_const, Finset.card_range, List.length_range] using all

end Storage.Build

end BankedMemory
