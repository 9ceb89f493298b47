import BankedMemory.Proofs.Construction.Installation
import BankedMemory.Proofs.Words

/-!
# Chains of gates

A chain joins a bus with further buses, one after the other, by gates of one kind. What it shows is what the words on
these buses give when they are joined in the same order.
-/

namespace BankedMemory.Storage

open Build

/-- A bus joined with further buses in their order, with `Has` telling which cells there are. -/
def Chain (Has : Bus → Cell → Prop) (kind : Gate) : (start : Bus) → List Bus → (output : Bus) → Prop
  | start, [], output => output = start
  | start, bus :: rest, output => ∃ middle, Has middle (.gate kind start bus) ∧ Chain Has kind middle rest output

/-- Some buses joined in their order. -/
def Joined (Has : Bus → Cell → Prop) (kind : Gate) : List Bus → (output : Bus) → Prop
  | [], output => output = []
  | first :: rest, output => Chain Has kind first rest output

variable {Has : Bus → Cell → Prop} {kind : Gate} {start output : Bus} {buses : List Bus}

theorem chain_snoc {bus : Bus} : Chain Has kind start (buses ++ [bus]) output ↔
    ∃ middle, Chain Has kind start buses middle ∧ Has output (.gate kind middle bus) := by
  induction buses generalizing start with
  | nil =>
    simp only [List.nil_append, Chain, exists_eq_right', exists_eq_left]
  | cons first rest ih =>
    simp only [List.cons_append, Chain, ih]
    constructor
    · rintro ⟨next, joined, middle, chain, last⟩
      exact ⟨middle, ⟨next, joined, chain⟩, last⟩
    · rintro ⟨middle, ⟨next, joined, chain⟩, last⟩
      exact ⟨next, joined, middle, chain, last⟩

theorem Joined.snoc {middle bus : Bus} (h : Joined Has kind buses middle) (some_bus : buses ≠ [])
    (last : Has output (.gate kind middle bus)) : Joined Has kind (buses ++ [bus]) output := by
  cases buses with
  | nil => exact absurd rfl some_bus
  | cons first rest => exact chain_snoc.mpr ⟨middle, h, last⟩

theorem Chain.mono {Has' : Bus → Cell → Prop} (weaker : ∀ output c, Has output c → Has' output c)
    (h : Chain Has kind start buses output) : Chain Has' kind start buses output := by
  induction buses generalizing start with
  | nil => exact h
  | cons bus rest ih =>
    obtain ⟨middle, joined, chain⟩ := h
    exact ⟨middle, weaker _ _ joined, ih chain⟩

theorem Joined.mono {Has' : Bus → Cell → Prop} (weaker : ∀ output c, Has output c → Has' output c)
    (h : Joined Has kind buses output) : Joined Has' kind buses output := by
  cases buses with
  | nil => exact h
  | cons first rest => exact Chain.mono weaker h

variable {base : Nat}

theorem lasting_chain : Lasting fun netlist => Chain (netlist.Queued base) kind start buses output :=
  fun before after grows h => h.mono fun _ _ => lasting_queued before after grows

theorem lasting_joined : Lasting fun netlist => Joined (netlist.Queued base) kind buses output :=
  fun before after grows h => h.mono fun _ _ => lasting_queued before after grows

/-- A loop that joins one bus in each round makes a chain. -/
theorem adds_chain (start : Bus) (buses : List Bus) :
    Adds (From base) (buses.foldlM (fun data bus => Build.add (.gate kind data bus)) start) fun output netlist =>
      Chain (netlist.Queued base) kind start buses output := by
  induction buses generalizing start with
  | nil => exact adds_pure fun _ _ => rfl
  | cons bus rest ih =>
    rw [List.foldlM_cons]
    refine adds_bind lasting_from (adds_add fun _ low => low) (fun _ => lasting_queued) fun middle => ?_
    exact (ih middle).weaken fun _ _ chain joined => ⟨middle, joined, chain⟩

namespace Installation

variable {build : Build Assembly} {site : Installation build} {state : State} {width : Nat} {words : List (Nat → Trit)}

theorem shows_replicate {net : Net} {bit : Trit} (h : site.Shows state [net] [bit]) (count : Nat) :
    site.Shows state (List.replicate count net) (Bits.tabulate count fun _ => bit) := by
  have carried : site.netlist.Carries state (site.resolve net) bit := by
    cases h
    assumption
  induction count with
  | zero => exact .nil
  | succ count ih =>
    rw [List.replicate_succ, Bits.tabulate_succ]
    exact .cons carried ih

/-- The output of a chain stands for itself if its start does. -/
theorem fixed_chain (h : Chain site.Has kind start buses output) (fixed : start.map site.resolve = start) :
    output.map site.resolve = output := by
  induction buses generalizing start with
  | nil =>
    rw [show output = start from h]
    exact fixed
  | cons bus rest ih =>
    obtain ⟨middle, joined, chain⟩ := h
    exact ih chain joined.fixed

/-- A chain shows its words joined bit by bit. -/
theorem shows_chain (aligned : state.Aligned site.netlist) (h : Chain site.Has kind start buses output)
    {first : Nat → Trit} (shown : site.Shows state start (Bits.tabulate width first))
    (others : List.Forall₂ (fun bus word => site.Shows state bus (Bits.tabulate width word)) buses words) :
    site.Shows state output
      (Bits.tabulate width fun place => (words.map (· place)).foldl kind.apply (first place)) := by
  induction others generalizing start first with
  | nil =>
    cases h
    exact shown
  | @cons bus word buses words shown_bus _ ih =>
    obtain ⟨middle, joined, chain⟩ := h
    have shown_middle := joined.shows_gate aligned shown shown_bus
    rw [Bits.zipWith_tabulate] at shown_middle
    exact ih chain shown_middle

/-- Joined buses show their words joined bit by bit, where a neutral bit may come first. -/
theorem shows_joined (aligned : state.Aligned site.netlist) (h : Joined site.Has kind buses output)
    (some_bus : buses ≠ [])
    (shown : List.Forall₂ (fun bus word => site.Shows state bus (Bits.tabulate width word)) buses words)
    (neutral : Trit) (is_neutral : ∀ bit, kind.apply neutral bit = bit) :
    site.Shows state output (Bits.tabulate width fun place => (words.map (· place)).foldl kind.apply neutral) := by
  cases shown with
  | nil => exact absurd rfl some_bus
  | cons first others =>
    have joined := shows_chain aligned h first others
    simpa only [List.map_cons, List.foldl_cons, is_neutral] using joined

/-- Joined by exclusive or, some buses show the sums of their bits. -/
theorem shows_joined_xor (aligned : state.Aligned site.netlist) (h : Joined site.Has .xor buses output)
    (some_bus : buses ≠ [])
    (shown : List.Forall₂ (fun bus word => site.Shows state bus (Bits.tabulate width word)) buses words) :
    site.Shows state output (Bits.tabulate width fun place => (words.map (· place)).sum) := by
  have joined := shows_joined aligned h some_bus shown 0 zero_add
  simpa only [Gate.apply, Trit.foldl_add, zero_add] using joined

end Installation

end BankedMemory.Storage
