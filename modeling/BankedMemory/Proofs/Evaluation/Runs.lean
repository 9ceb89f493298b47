import BankedMemory.Proofs.Construction.Builds
import BankedMemory.Proofs.Evaluation.Cycle

/-!
# Runs

A run sets inputs and advances the clock, in any order and any number of times. What one step keeps is kept by a
run, and a machine that is stepped along with the clock stays related to the netlist.
-/

namespace BankedMemory

/-- Two computations that fail together, and otherwise end with related results. -/
inductive Matches {α β : Type} (R : α → β → Prop) : Except Fault α → Except Fault β → Prop
  | ok {a : α} {b : β} : R a b → Matches R (.ok a) (.ok b)
  | error {cause cause' : Fault} : Matches R (.error cause) (.error cause')

namespace Matches

variable {α β γ δ : Type} {R : α → β → Prop} {S : γ → δ → Prop} {x : Except Fault α} {y : Except Fault β}

theorem bind (h : Matches R x y) {f : α → Except Fault γ} {g : β → Except Fault δ}
    (next : ∀ a b, R a b → Matches S (f a) (g b)) : Matches S (x >>= f) (y >>= g) := by
  cases h with
  | ok related => exact next _ _ related
  | error => exact .error

theorem of_ok_iff (succeed : (∃ a, x = .ok a) ↔ ∃ b, y = .ok b) (related : ∀ a b, x = .ok a → y = .ok b → R a b) :
    Matches R x y := by
  cases x with
  | ok a =>
    obtain ⟨b, rfl⟩ := succeed.mp ⟨a, rfl⟩
    exact .ok (related a b rfl rfl)
  | error cause =>
    cases y with
    | ok b => cases (succeed.mpr ⟨b, rfl⟩).choose_spec
    | error cause' => exact .error

theorem exists_of_ok {a : α} (h : Matches R (.ok a) y) : ∃ b, y = .ok b ∧ R a b := by
  cases h with
  | ok related => exact ⟨_, rfl, related⟩

/-- What two computations have in common with a third one. -/
theorem join {S : α → γ → Prop} {z : Except Fault γ} (h : Matches R x y) (h' : Matches S x z) :
    Matches (fun b c => ∃ a, R a b ∧ S a c) y z := by
  cases h with
  | ok related =>
    cases h' with
    | ok related' => exact .ok ⟨_, related, related'⟩
  | error =>
    cases h' with
    | error => exact .error

theorem mono {S : α → β → Prop} (h : Matches R x y) (weaker : ∀ a b, R a b → S a b) : Matches S x y := by
  cases h with
  | ok related => exact .ok (weaker _ _ related)
  | error => exact .error

end Matches

/-- What may be done to a running netlist. -/
inductive Action where
  | set (name : String) (word : Bits)
  | step
deriving DecidableEq

/-- An input is set by its name, to a word of its width. -/
def Action.Fits (state : State) : Action → Prop
  | set name word => ∃ old, state.inputs.get? name = some old ∧ old.length = word.length
  | step => True

instance (state : State) : (action : Action) → Decidable (action.Fits state)
  | .set name word =>
    decidable_of_iff ((state.inputs.get? name).any fun old => old.length = word.length) (by
      simp only [Option.any_eq_true, decide_eq_true_eq, Action.Fits])
  | .step => isTrue trivial

namespace Netlist

def act (netlist : Netlist) (state : State) : Action → Except Fault State
  | .set name word => state.setInput name word
  | .step => netlist.step state

/-- Runs a netlist from a state on. -/
def perform (netlist : Netlist) (actions : List Action) (state : State) : Except Fault State :=
  actions.foldlM netlist.act state

/-- Runs a netlist from the start. -/
def performFromStart (netlist : Netlist) (actions : List Action) : Except Fault State :=
  netlist.start >>= netlist.perform actions

/-- The states of a run in which the clock advances, in their order. -/
def ticks (netlist : Netlist) : List Action → State → List State
  | [], _ => []
  | action :: rest, state =>
    let later := match netlist.act state action with
      | .ok next => netlist.ticks rest next
      | .error _ => []
    if action = .step then state :: later else later

variable {netlist : Netlist} {state : State}

theorem perform_cons (action : Action) (rest : List Action) :
    netlist.perform (action :: rest) state = netlist.act state action >>= netlist.perform rest := by
  unfold perform
  rw [List.foldlM_cons]

theorem ticks_step_cons {rest : List Action} {next : State} (h : netlist.step state = .ok next) :
    netlist.ticks (.step :: rest) state = state :: netlist.ticks rest next := by
  simp [ticks, act, h]

theorem ticks_set_cons {name : String} {word : Bits} {rest : List Action} {next : State}
    (h : state.setInput name word = .ok next) :
    netlist.ticks (.set name word :: rest) state = netlist.ticks rest next := by
  simp [ticks, act, h]

theorem fits_setInput {name : String} {word : Bits} {next : State}
    (h : state.setInput name word = .ok next) {action : Action} (fits : action.Fits state) :
    action.Fits next := by
  cases action with
  | step => trivial
  | set other given =>
    obtain ⟨old, found, width⟩ := fits
    unfold State.setInput at h
    cases before : state.inputs.get? name with
    | none => simp [before] at h
    | some previous =>
      by_cases same_width : previous.length = word.length
      · simp only [before, same_width, if_true] at h
        cases h
        by_cases same : other = name
        · subst same
          have : previous = old := Option.some.inj (before.symm.trans found)
          exact ⟨word, Table.get?_put_self other word _, by rw [← width, ← this, same_width]⟩
        · exact ⟨old, (Table.get?_put_of_ne same word _).trans found, width⟩
      · simp [before, same_width] at h

theorem fits_step (aligned : state.Aligned netlist) {next : State} (h : netlist.step state = .ok next)
    {action : Action} (fits : action.Fits state) : action.Fits next := by
  rw [step_eq aligned h]
  cases action with
  | step => trivial
  | set name word => exact fits

theorem setInput_of_fits {name : String} {word : Bits} (fits : (Action.set name word).Fits state) :
    ∃ next, state.setInput name word = .ok next := by
  obtain ⟨old, found, width⟩ := fits
  exact ⟨{ state with inputs := state.inputs.put name word }, by simp [State.setInput, found, width]⟩

/-- What settings of inputs and cycles keep, a run keeps. -/
theorem perform_keeps {P : State → Prop}
    (on_set : ∀ state name word next, P state → state.setInput name word = .ok next → P next)
    (on_step : ∀ state, state.Aligned netlist → P state → P (netlist.nextState (netlist.valueIn state) state))
    {actions : List Action} {last : State} (aligned : state.Aligned netlist) (here : P state)
    (run : netlist.perform actions state = .ok last) : last.Aligned netlist ∧ P last := by
  induction actions generalizing state with
  | nil =>
    cases run
    exact ⟨aligned, here⟩
  | cons action rest ih =>
    rw [perform_cons] at run
    obtain ⟨next, done, later⟩ := Storage.Build.except_bind_eq_ok.mp run
    cases action with
    | set name word => exact ih (State.aligned_setInput aligned done) (on_set state name word next here done) later
    | step =>
      have next_eq := step_eq aligned done
      exact ih (aligned_step aligned done) (next_eq ▸ on_step state aligned here) later

/-- What holds at the start and is kept by settings of inputs and cycles holds in every state of a run. -/
theorem performFromStart_keeps {P : State → Prop} (initial : P (State.initial netlist))
    (on_set : ∀ state name word next, P state → state.setInput name word = .ok next → P next)
    (on_step : ∀ state, state.Aligned netlist → P state → P (netlist.nextState (netlist.valueIn state) state))
    {actions : List Action} {last : State} (run : netlist.performFromStart actions = .ok last) :
    last.Aligned netlist ∧ P last := by
  obtain ⟨start, started, run⟩ := Storage.Build.except_bind_eq_ok.mp run
  rw [start_eq started] at run
  exact perform_keeps on_set on_step (State.aligned_initial netlist) initial run

/-- A machine that follows each clock cycle of a netlist follows a run of it. The run does not fault, as long as no
cycle does. -/
theorem perform_follows {Machine : Type} (Follows : State → Machine → Prop) (Ready : State → Prop)
    (advance : State → Machine → Machine)
    (on_set : ∀ state machine name word next, Follows state machine →
      state.setInput name word = .ok next → Follows next machine)
    (on_step : ∀ state machine, state.Aligned netlist → Follows state machine → Ready state →
      ∃ next, netlist.step state = .ok next ∧ Follows next (advance state machine))
    (actions : List Action) (aligned : state.Aligned netlist) {machine : Machine} (start : Follows state machine)
    (fits : ∀ action ∈ actions, action.Fits state) (ready : ∀ tick ∈ netlist.ticks actions state, Ready tick) :
    ∃ last, netlist.perform actions state = .ok last ∧ last.Aligned netlist ∧
      Follows last ((netlist.ticks actions state).foldl (fun machine tick => advance tick machine) machine) := by
  induction actions generalizing state machine with
  | nil => exact ⟨state, rfl, aligned, start⟩
  | cons action rest ih =>
    have rest_fits := fun other member => fits other (List.mem_cons_of_mem action member)
    rw [perform_cons]
    cases action with
    | set name word =>
      obtain ⟨next, done⟩ := setInput_of_fits (fits _ List.mem_cons_self)
      rw [ticks_set_cons done] at ready ⊢
      obtain ⟨last, performed, rest_follows⟩ := ih (State.aligned_setInput aligned done)
        (on_set state machine name word next start done)
        (fun other member => fits_setInput done (rest_fits other member)) ready
      exact ⟨last, by simp only [act, done, bind, Except.bind]; exact performed, rest_follows⟩
    | step =>
      have here : Ready state := ready state (by simp [ticks])
      obtain ⟨next, done, follows⟩ := on_step state machine aligned start here
      rw [ticks_step_cons done] at ready ⊢
      obtain ⟨last, performed, rest_follows⟩ := ih (aligned_step aligned done) follows
        (fun other member => fits_step aligned done (rest_fits other member))
        (fun tick member => ready tick (List.mem_cons_of_mem state member))
      exact ⟨last, by simp only [act, done, bind, Except.bind]; exact performed, rest_follows⟩

/-- Two runs match if each action does. -/
theorem perform_matches {other : Netlist} {R : State → State → Prop}
    (on_act : ∀ state state' action, R state state' → Matches R (netlist.act state action) (other.act state' action))
    (actions : List Action) {state state' : State} (h : R state state') :
    Matches R (netlist.perform actions state) (other.perform actions state') := by
  induction actions generalizing state state' with
  | nil => exact .ok h
  | cons action rest ih =>
    rw [perform_cons, perform_cons]
    exact (on_act state state' action h).bind fun _ _ => ih

end Netlist

end BankedMemory
