import BankedMemory.Proofs.Construction.Replacement
import Mathlib.Data.List.Perm.Subperm
import Mathlib.Data.List.Nodup
import Mathlib.Data.Nat.Find

/-!
# Where chains end

A chain that ends meets no net twice, so it has no more links than there are replacements, and the last net of the
search is the end of the chain. Replacements may therefore be carried out in two goes, as long as the second ones
concern nothing that the first ones have replaced.
-/

namespace BankedMemory.Rewiring

/-- The chain from a net ends at another one, which is not replaced. -/
inductive Leads (rewiring : Rewiring) : (net last : Net) → Prop where
  | done {net : Net} (kept : rewiring.target? net = none) : Leads rewiring net net
  | link {net target last : Net} (replaced : rewiring.target? net = some target)
      (rest : Leads rewiring target last) : Leads rewiring net last

variable {rewiring : Rewiring} {net last : Net}

section Walks

theorem walk_succ {target : Net} (steps : Nat) (replaced : rewiring.target? net = some target) :
    rewiring.walk (steps + 1) net = rewiring.walk steps target := by
  rw [walk, replaced]

theorem walk_of_kept (steps : Nat) (kept : rewiring.target? net = none) : rewiring.walk steps net = net := by
  cases steps with
  | zero => rfl
  | succ steps => rw [walk, kept]

theorem walk_add (first second : Nat) (net : Net) :
    rewiring.walk (first + second) net = rewiring.walk second (rewiring.walk first net) := by
  induction first generalizing net with
  | zero => rw [Nat.zero_add, walk]
  | succ first ih =>
    cases replaced : rewiring.target? net with
    | none => rw [walk_of_kept _ replaced, walk_of_kept _ replaced, walk_of_kept _ replaced]
    | some target => rw [Nat.add_right_comm, walk_succ _ replaced, walk_succ _ replaced, ih]

theorem leads_walk {steps : Nat} (kept : rewiring.target? (rewiring.walk steps net) = none) :
    rewiring.Leads net (rewiring.walk steps net) := by
  induction steps generalizing net with
  | zero => exact .done kept
  | succ steps ih =>
    cases replaced : rewiring.target? net with
    | none =>
      rw [walk_of_kept _ replaced]
      exact .done replaced
    | some target =>
      rw [walk_succ _ replaced] at kept ⊢
      exact .link replaced (ih kept)

theorem Leads.exists_walk (leads : rewiring.Leads net last) : ∃ steps, rewiring.walk steps net = last := by
  induction leads with
  | done kept => exact ⟨0, rfl⟩
  | link replaced rest ih =>
    obtain ⟨steps, walked⟩ := ih
    exact ⟨steps + 1, (walk_succ steps replaced).trans walked⟩

theorem Leads.kept (leads : rewiring.Leads net last) : rewiring.target? last = none := by
  induction leads with
  | done kept => exact kept
  | link replaced rest ih => exact ih

/-- No more nets are replaced than there are replacements. -/
theorem length_le_size {nets : List Net} (distinct : nets.Nodup)
    (replaced : ∀ net ∈ nets, rewiring.target? net ≠ none) : nets.length ≤ rewiring.size := by
  have inside : nets ⊆ rewiring.keys := by
    intro net member
    rw [Std.TreeMap.mem_keys, Std.TreeMap.mem_iff_isSome_getElem?]
    exact Option.isSome_iff_ne_none.mpr (replaced net member)
  have few := (List.subperm_of_subset distinct inside).length_le
  rwa [Std.TreeMap.length_keys] at few

/-- A chain that meets no net twice is no longer than the number of replacements. -/
theorem steps_le_size {steps : Nat}
    (apart : ∀ i j, i < j → j < steps → rewiring.walk i net ≠ rewiring.walk j net)
    (replaced : ∀ fewer < steps, rewiring.target? (rewiring.walk fewer net) ≠ none) : steps ≤ rewiring.size := by
  have distinct : ((List.range steps).map (rewiring.walk · net)).Nodup :=
    List.pairwise_map.mpr (List.pairwise_lt_range.imp_of_mem fun _ inside before =>
      apart _ _ before (List.mem_range.mp inside))
  have few := length_le_size distinct fun met member => by
    obtain ⟨fewer, before, rfl⟩ := List.mem_map.mp member
    exact replaced fewer (List.mem_range.mp before)
  rwa [List.length_map, List.length_range] at few

/-- A net that is met twice before the end would be met again and again. -/
theorem walk_ne_of_lt {steps : Nat} (kept : rewiring.target? (rewiring.walk steps net) = none)
    (first : ∀ fewer < steps, rewiring.target? (rewiring.walk fewer net) ≠ none) {i j : Nat} (before : i < j)
    (inside : j < steps) : rewiring.walk i net ≠ rewiring.walk j net := by
  intro same
  have shortcut : rewiring.walk (i + (steps - j)) net = rewiring.walk steps net := by
    rw [walk_add, same, ← walk_add, Nat.add_sub_cancel' (Nat.le_of_lt inside)]
  exact first (i + (steps - j)) (by omega) (by rw [shortcut, kept])

/-- The search for the end is long enough. -/
theorem Leads.resolve_eq (leads : rewiring.Leads net last) : rewiring.resolve net = last := by
  obtain ⟨enough, rfl⟩ := leads.exists_walk
  have ends : ∃ steps, rewiring.target? (rewiring.walk steps net) = none := ⟨enough, leads.kept⟩
  have kept := Nat.find_spec ends
  have first : ∀ fewer < Nat.find ends, rewiring.target? (rewiring.walk fewer net) ≠ none :=
    fun fewer before => Nat.find_min ends before
  have stays (steps : Nat) (beyond : Nat.find ends ≤ steps) :
      rewiring.walk steps net = rewiring.walk (Nat.find ends) net := by
    obtain ⟨more, rfl⟩ := Nat.exists_eq_add_of_le beyond
    rw [walk_add, walk_of_kept _ kept]
  have few : Nat.find ends ≤ rewiring.size :=
    steps_le_size (fun _ _ before inside => walk_ne_of_lt kept first before inside) first
  rw [resolve, stays _ few, stays _ (Nat.find_min' ends leads.kept)]

end Walks

/-- A chain that is not endless has an end, which is what its net resolves to. -/
theorem leads_iff : rewiring.Leads net last ↔ rewiring.isEndless net = false ∧ rewiring.resolve net = last := by
  constructor
  · intro leads
    have found := leads.resolve_eq
    exact ⟨by rw [isEndless, found, leads.kept]; rfl, found⟩
  · rintro ⟨ends, rfl⟩
    exact leads_walk (target?_resolve ends)

theorem isEndless_eq_false_iff : rewiring.isEndless net = false ↔ ∃ last, rewiring.Leads net last :=
  ⟨fun ends => ⟨_, leads_iff.mpr ⟨ends, rfl⟩⟩, fun ⟨_, leads⟩ => (leads_iff.mp leads).1⟩

theorem leads_of_replaced {target : Net} (replaced : rewiring.target? net = some target) :
    rewiring.Leads net last ↔ rewiring.Leads target last := by
  constructor
  · intro leads
    cases leads with
    | done kept =>
      rw [replaced] at kept
      cases kept
    | link replaced' rest =>
      rw [replaced] at replaced'
      cases replaced'
      exact rest
  · exact .link replaced

/-- Replacements that stay lead to the end of their chain before any other ones do. -/
theorem Leads.exists_of_subset {more : Rewiring} (leads : more.Leads net last)
    (stays : ∀ net target, rewiring.target? net = some target → more.target? net = some target) :
    ∃ middle, rewiring.Leads net middle := by
  induction leads with
  | @done net kept =>
    cases replaced : rewiring.target? net with
    | none => exact ⟨net, .done replaced⟩
    | some target =>
      rw [stays net target replaced] at kept
      cases kept
  | @link net target last replaced rest ih =>
    cases replaced' : rewiring.target? net with
    | none => exact ⟨net, .done replaced'⟩
    | some target' =>
      obtain rfl : target' = target := Option.some.inj ((stays net target' replaced').symm.trans replaced)
      obtain ⟨middle, leads⟩ := ih
      exact ⟨middle, .link replaced' leads⟩

/-- Replacements in two goes: those of the second go neither replace nor bring back what the first go has replaced. -/
structure Follows (joint first second : Rewiring) : Prop where
  target? : ∀ net, joint.target? net = (first.target? net).or (second.target? net)
  fresh : ∀ net target, second.target? net = some target → first.target? net = none ∧ first.target? target = none

variable {joint first second : Rewiring}

theorem Follows.leads_of_kept (follows : Follows joint first second) (kept : first.target? net = none) :
    joint.Leads net last ↔ second.Leads net last := by
  constructor
  · intro leads
    induction leads with
    | done unreplaced =>
      rw [follows.target?, kept, Option.none_or] at unreplaced
      exact .done unreplaced
    | link replaced rest ih =>
      rw [follows.target?, kept, Option.none_or] at replaced
      exact .link replaced (ih (follows.fresh _ _ replaced).2)
  · intro leads
    induction leads with
    | done unreplaced =>
      refine .done ?_
      rw [follows.target?, kept, unreplaced]
      rfl
    | link replaced rest ih =>
      refine .link ?_ (ih (follows.fresh _ _ replaced).2)
      rw [follows.target?, kept, Option.none_or, replaced]

/-- A joint chain is a chain of the first go followed by one of the second. -/
theorem Follows.leads_iff (follows : Follows joint first second) :
    joint.Leads net last ↔ ∃ middle, first.Leads net middle ∧ second.Leads middle last := by
  have through (middle : Net) (leads : first.Leads net middle) :
      joint.Leads net last ↔ second.Leads middle last := by
    induction leads with
    | done kept => exact follows.leads_of_kept kept
    | link replaced rest ih =>
      rw [leads_of_replaced (by rw [follows.target?, replaced, Option.some_or])]
      exact ih
  constructor
  · intro leads
    have stays (net target : Net) (replaced : first.target? net = some target) : joint.target? net = some target := by
      rw [follows.target?, replaced, Option.some_or]
    obtain ⟨middle, to_middle⟩ := leads.exists_of_subset stays
    exact ⟨middle, to_middle, (through middle to_middle).mp leads⟩
  · rintro ⟨middle, to_middle, rest⟩
    exact (through middle to_middle).mpr rest

theorem Follows.isEndless (follows : Follows joint first second) (ends : first.isEndless net = false) :
    joint.isEndless net = second.isEndless (first.resolve net) := by
  rw [Bool.eq_iff_iff, ← not_iff_not, Bool.not_eq_true, Bool.not_eq_true, isEndless_eq_false_iff,
    isEndless_eq_false_iff]
  refine exists_congr fun last => follows.leads_iff.trans ?_
  constructor
  · rintro ⟨middle, to_middle, rest⟩
    rwa [(Rewiring.leads_iff.mp to_middle).2]
  · exact fun rest => ⟨_, Rewiring.leads_iff.mpr ⟨ends, rfl⟩, rest⟩

theorem Follows.resolve (follows : Follows joint first second) (ends : joint.isEndless net = false) :
    joint.resolve net = second.resolve (first.resolve net) := by
  obtain ⟨middle, to_middle, rest⟩ := follows.leads_iff.mp (Rewiring.leads_iff.mpr ⟨ends, rfl⟩)
  rw [(Rewiring.leads_iff.mp to_middle).2, (Rewiring.leads_iff.mp rest).2]

end BankedMemory.Rewiring
