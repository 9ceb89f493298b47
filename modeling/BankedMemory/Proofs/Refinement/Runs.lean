import BankedMemory.Proofs.Evaluation.Acyclic
import BankedMemory.Proofs.Refinement.Memory

/-!
# Runs of which one knows more

Two runs of one netlist are compared cycle by cycle. If the one knows less at the start, and in each cycle on its
inputs, then whatever it reads and holds lies below what the other one reads and holds: a known bit that it gives is
given by all runs that know more. In each cycle its write ports have to be decided.
-/

namespace BankedMemory

namespace State

/-- The words on the inputs lie below those of the same name. -/
def InputsBelow (low high : State) : Prop :=
  ∀ name, Option.Rel Bits.Below (low.inputs.get? name) (high.inputs.get? name)

/-- What the memories hold lies below what they hold in the other state. -/
def ContentsBelow (low high : State) : Prop :=
  ∀ index, Option.Rel Contents.Below (low.contentsAt index) (high.contentsAt index)

/-- Tables with the same names in the same order are compared entry by entry. -/
theorem inputsBelow_of_entries {low high : State}
    (h : List.Forall₂ (fun a b => a.1 = b.1 ∧ Bits.Below a.2 b.2) low.inputs high.inputs) : low.InputsBelow high := by
  intro name
  generalize low.inputs = table at h ⊢
  generalize high.inputs = table' at h ⊢
  induction h with
  | nil => exact .none
  | @cons a b _ _ first _ ih =>
    rw [Table.get?_cons, Table.get?_cons, first.1]
    split
    · exact .some first.2
    · exact ih

theorem ContentsBelow.refl (state : State) : state.ContentsBelow state := by
  have below {α : Type} {R : α → α → Prop} (each : ∀ x, R x x) : (entry : Option α) → Option.Rel R entry entry
    | none => .none
    | some x => .some (each x)
  refine fun index => below (fun contents => ⟨fun row => below Bits.Below.refl _, ?_⟩) _
  exact List.forall₂_same.mpr fun held _ => below Bits.Below.refl held

end State

/-- Whether a result satisfies a condition. -/
instance decidableExistsOk {ε α : Type} {P : α → Prop} [DecidablePred P] :
    (x : Except ε α) → Decidable (∃ a, x = .ok a ∧ P a)
  | .ok a => decidable_of_iff (P a) (by simp)
  | .error _ => isFalse (by simp)

namespace Netlist

/-- Each clocked write port has a known address, or a mask of zeros. -/
def Decided (netlist : Netlist) (state : State) : Prop :=
  ∀ entry ∈ netlist.memories, ∀ port ∈ entry.2.writePorts, port.clock.isConst = false →
    (∃ addr, netlist.read state port.addr = .ok addr ∧ .unknown ∉ addr) ∨
      ∃ mask, netlist.read state port.mask = .ok mask ∧ mask.isZero = true

instance (netlist : Netlist) (state : State) : Decidable (netlist.Decided state) :=
  inferInstanceAs (Decidable (∀ entry ∈ netlist.memories, ∀ port ∈ entry.2.writePorts, port.clock.isConst = false →
    (∃ addr, netlist.read state port.addr = .ok addr ∧ .unknown ∉ addr) ∨
      ∃ mask, netlist.read state port.mask = .ok mask ∧ mask.isZero = true))

/-- Whatever can be read or is held in one state lies below what is read or held in the other. -/
structure Refines (netlist : Netlist) (low high : State) : Prop where
  read : ∀ bus, (∀ net ∈ bus, netlist.Driven net) → ∃ word word',
    netlist.read low bus = .ok word ∧ netlist.read high bus = .ok word' ∧ word.Below word'
  contents : low.ContentsBelow high

variable {netlist : Netlist} {low high : State}

/-- A cell whose operands know less puts out a word that knows less. -/
theorem outputBits_below (inputs : low.InputsBelow high) (contents : low.ContentsBelow high)
    (low_aligned : low.Aligned netlist) (high_fits : high.Fits netlist) {index : Nat} {c : Cell}
    (found : netlist.cell? index = some c) (checked : c.check = .ok ()) {value value' : Net → Trit}
    (below : ∀ source ∈ c.sources, (value source).Below (value' source)) :
    Bits.Below (c.outputBits value low.inputs (low.contentsAt index))
      (c.outputBits value' high.inputs (high.contentsAt index)) := by
  cases c with
  | invert a => exact (Bits.Below.map below).invert
  | gate kind a b =>
    exact (Bits.Below.map fun net member => below net (List.mem_append_left b member)).zipWith (Trit.Below.gate kind)
      (.map fun net member => below net (List.mem_append_right a member))
  | equal a b =>
    refine .cons ?_ .nil
    exact (Bits.Below.map fun net member => below net (List.mem_append_left b member)).same
      (.map fun net member => below net (List.mem_append_right a member))
  | memory m =>
    obtain ⟨held, at_high, _, full⟩ := high_fits.memories index m found
    have related := contents index
    unfold Cell.outputBits
    rw [at_high] at related ⊢
    cases at_low : low.contentsAt index with
    | none =>
      rw [at_low] at related
      cases related
    | some held' =>
      rw [at_low] at related
      cases related with
      | some h =>
        exact Memory.output_below (Memory.sized_of_check checked) full h below (low_aligned index m held' found at_low)
  | input name width =>
    have related := inputs name
    show Bits.Below ((low.inputs.get? name).getD []) ((high.inputs.get? name).getD [])
    generalize low.inputs.get? name = word at related ⊢
    generalize high.inputs.get? name = word' at related ⊢
    cases related with
    | none => exact .refl _
    | some words => exact words
  | output name bus => exact .refl _
  | label name bus => exact .refl _

/-- A memory whose ports are decided has decided ports under the bits that the nets carry. -/
theorem Decided.port (decided : netlist.Decided low) (low_fits : low.Fits netlist) {index : Nat} {m : Memory}
    (found : netlist.cell? index = some (.memory m)) {port : WritePort} (member : port ∈ m.writePorts) :
    Memory.Decided (netlist.valueIn low) port := by
  intro clocked
  have shown {bus : Bus} {word : Bits} (done : netlist.read low bus = .ok word) :
      bus.map (netlist.valueIn low) = word :=
    ((read_eq_ok_iff low_fits.aligned).mp done).map_valueIn low_fits.aligned
  rcases decided (index, m) (mem_memories.mpr found) port member clocked with ⟨addr, done, known⟩ | ⟨mask, done, idle⟩
  · rw [shown done]
    exact Or.inl known
  · rw [shown done]
    exact Or.inr idle

section Cycle

variable (reached : netlist.Reached) (low_fits : low.Fits netlist) (high_fits : high.Fits netlist)
  (inputs : low.InputsBelow high) (contents : low.ContentsBelow high)
include reached low_fits high_fits inputs contents

/-- The bit that a net carries lies below the one that it carries in the state that knows more. The induction is on
how the bit follows from the state that knows less. -/
theorem Carries.bit_below {net : Net} {bit bit' : Trit} (carried : netlist.Carries low net bit)
    (carried' : netlist.Carries high net bit') : bit.Below bit' := by
  induction carried generalizing bit' with
  | const bit =>
    cases carried'
    exact .refl _
  | cell value driven sources shown ih =>
    cases carried' with
    | cell value' driven' sources' shown' =>
      cases driven.symm.trans driven'
      obtain ⟨c, found, _⟩ := reached.cell_of_driver driven
      rw [outputUnder_of_cell found] at shown shown'
      rw [sourcesAt_of_cell found] at ih sources'
      have words := outputBits_below inputs contents low_fits.aligned high_fits found (reached.checked found)
        fun source member => ih source member (sources' source member)
      exact (forall₂_iff_getElem?.mp words).2 _ _ _ shown shown'

variable (closed : netlist.Closed) (acyclic : netlist.Acyclic)
include closed acyclic

theorem valueIn_below {net : Net} (driven : netlist.Driven net) :
    (netlist.valueIn low net).Below (netlist.valueIn high net) := by
  have low_carried := (live_of_driven reached closed acyclic low_fits driven).carries_valueIn low_fits.aligned
  have high_carried := (live_of_driven reached closed acyclic high_fits driven).carries_valueIn high_fits.aligned
  exact low_carried.bit_below reached low_fits high_fits inputs contents high_carried

theorem refines_of_below : netlist.Refines low high where
  read _ driven := ⟨_, _, read_of_driven reached closed acyclic low_fits driven,
    read_of_driven reached closed acyclic high_fits driven,
    .map fun net member => valueIn_below reached low_fits high_fits inputs contents closed acyclic (driven net member)⟩
  contents := contents

/-- One cycle keeps the order of what the memories hold. -/
theorem nextState_below (decided : netlist.Decided low) :
    (netlist.nextState (netlist.valueIn low) low).ContentsBelow (netlist.nextState (netlist.valueIn high) high) := by
  intro index
  by_cases is_memory : ∃ m, netlist.cell? index = some (.memory m)
  · obtain ⟨m, found⟩ := is_memory
    obtain ⟨held, at_low, _⟩ := low_fits.memories index m found
    obtain ⟨held', at_high, _, full⟩ := high_fits.memories index m found
    have related := contents index
    rw [contentsAt_nextState _ found at_low, contentsAt_nextState _ found at_high]
    rw [at_low, at_high] at related
    cases related with
    | some h =>
      have sized := Memory.sized_of_check (reached.checked found)
      refine .some (Memory.nextContents_below sized full h (fun net member => ?_)
        fun port member => decided.port low_fits found member)
      exact valueIn_below reached low_fits high_fits inputs contents closed acyclic (closed index _ found net member)
  · have other := not_exists.mp is_memory
    rw [contentsAt_nextState_of_other _ other, contentsAt_nextState_of_other _ other]
    exact contents index

end Cycle

/-- The first clock cycle of a run, which may come after some settings of inputs, and the rest of the run. -/
structure FirstTick (netlist : Netlist) (state tick next last : State) (rest : List Action) : Prop where
  before : ∃ settings, netlist.perform settings state = .ok tick
  kept : tick.contents = state.contents
  stepped : netlist.step tick = .ok next
  later : netlist.perform rest next = .ok last

/-- A run either is over as far as the clock goes, or has a first clock cycle. -/
theorem ticks_cases {actions : List Action} {state last : State} (run : netlist.perform actions state = .ok last) :
    (netlist.ticks actions state = [] ∧ last.contents = state.contents) ∨
      ∃ tick next rest, netlist.ticks actions state = tick :: netlist.ticks rest next ∧
        netlist.FirstTick state tick next last rest := by
  induction actions generalizing state with
  | nil =>
    cases run
    exact Or.inl ⟨rfl, rfl⟩
  | cons action rest ih =>
    rw [perform_cons] at run
    obtain ⟨next, done, later⟩ := Storage.Build.except_bind_eq_ok.mp run
    cases action with
    | step => exact Or.inr ⟨state, next, rest, ticks_step_cons done, ⟨[], rfl⟩, rfl, done, later⟩
    | set name word =>
      have same := State.contents_setInput done
      rw [ticks_set_cons done]
      rcases ih later with ⟨none, kept⟩ | ⟨tick, after, others, listed, ⟨settings, before⟩, kept, stepped, run⟩
      · exact Or.inl ⟨none, kept.trans same⟩
      · refine Or.inr ⟨tick, after, others, listed, ⟨.set name word :: settings, ?_⟩, kept.trans same, stepped, run⟩
        rw [perform_cons]
        exact Storage.Build.except_bind_eq_ok.mpr ⟨next, done, before⟩

theorem contents_of_ticks_nil {actions : List Action} {state last : State}
    (run : netlist.perform actions state = .ok last) (none : netlist.ticks actions state = []) :
    last.contents = state.contents := by
  rcases ticks_cases run with ⟨_, kept⟩ | ⟨_, _, _, more, _⟩
  · exact kept
  · rw [none] at more
    cases more

theorem exists_firstTick {actions : List Action} {state tick last : State} {ticks : List State}
    (run : netlist.perform actions state = .ok last) (listed : netlist.ticks actions state = tick :: ticks) :
    ∃ next rest, netlist.ticks rest next = ticks ∧ netlist.FirstTick state tick next last rest := by
  rcases ticks_cases run with ⟨none, _⟩ | ⟨_, next, rest, more, first⟩
  · rw [listed] at none
    cases none
  · obtain ⟨rfl, rfl⟩ := List.cons.inj (listed.symm.trans more)
    exact ⟨next, rest, rfl, first⟩

theorem contentsBelow_of_eq {low' high' : State} (h : low.ContentsBelow high) (same : low'.contents = low.contents)
    (same' : high'.contents = high.contents) : low'.ContentsBelow high' := by
  intro index
  unfold State.contentsAt
  rw [same, same']
  exact h index

section Runs

variable (reached : netlist.Reached) (closed : netlist.Closed) (acyclic : netlist.Acyclic)
include reached closed acyclic

/-- The induction is on the clock cycles of both runs. -/
theorem ticks_refine {actions actions' : List Action} {last last' : State} (low_fits : low.Fits netlist)
    (high_fits : high.Fits netlist) (contents : low.ContentsBelow high)
    (run : netlist.perform actions low = .ok last) (run' : netlist.perform actions' high = .ok last')
    (inputs : List.Forall₂ State.InputsBelow (netlist.ticks actions low) (netlist.ticks actions' high))
    (at_end : last.InputsBelow last') (decided : ∀ tick ∈ netlist.ticks actions low, netlist.Decided tick) :
    List.Forall₂ netlist.Refines (netlist.ticks actions low) (netlist.ticks actions' high) ∧
      netlist.Refines last last' := by
  have checked : ∀ index c, netlist.cell? index = some c → c.check = .ok () := fun _ _ => reached.checked
  generalize listed : netlist.ticks actions low = ticks at inputs decided ⊢
  generalize listed' : netlist.ticks actions' high = ticks' at inputs ⊢
  induction inputs generalizing low high actions actions' with
  | nil =>
    have last_contents := contentsBelow_of_eq contents (contents_of_ticks_nil run listed)
      (contents_of_ticks_nil run' listed')
    exact ⟨.nil, refines_of_below reached (fits_perform checked low_fits run) (fits_perform checked high_fits run')
      at_end last_contents closed acyclic⟩
  | cons tick_inputs _ ih =>
    obtain ⟨next, rest, later, ⟨_, before⟩, kept, stepped, run⟩ := exists_firstTick run listed
    obtain ⟨next', rest', later', ⟨_, before'⟩, kept', stepped', run'⟩ := exists_firstTick run' listed'
    have tick_fits := fits_perform checked low_fits before
    have tick_fits' := fits_perform checked high_fits before'
    have tick_contents := contentsBelow_of_eq contents kept kept'
    have next_contents := nextState_below reached tick_fits tick_fits' tick_inputs tick_contents closed acyclic
      (decided _ List.mem_cons_self)
    obtain rfl := step_eq tick_fits.aligned stepped
    obtain rfl := step_eq tick_fits'.aligned stepped'
    obtain ⟨others, finally_below⟩ := ih (tick_fits.nextState checked _) (tick_fits'.nextState checked _) next_contents
      run run' later (fun other member => decided other (List.mem_cons_of_mem _ member)) later'
    exact ⟨.cons (refines_of_below reached tick_fits tick_fits' tick_inputs tick_contents closed acyclic) others,
      finally_below⟩

end Runs

/-- A run that knows less at the start and on its inputs knows less in every cycle, and at the end. -/
theorem runs_refine (reached : netlist.Reached) (closed : netlist.Closed) (acyclic : netlist.Acyclic)
    (agree : netlist.InputsAgree) {before before' actions actions' : List Action} {last last' : State}
    (low_reached : netlist.performFromStart before = .ok low)
    (high_reached : netlist.performFromStart before' = .ok high)
    (contents : low.ContentsBelow high) (run : netlist.perform actions low = .ok last)
    (run' : netlist.perform actions' high = .ok last')
    (inputs : List.Forall₂ State.InputsBelow (netlist.ticks actions low ++ [last])
      (netlist.ticks actions' high ++ [last']))
    (decided : ∀ tick ∈ netlist.ticks actions low, netlist.Decided tick) :
    List.Forall₂ netlist.Refines (netlist.ticks actions low ++ [last]) (netlist.ticks actions' high ++ [last']) := by
  have low_fits := fits_performFromStart agree (fun _ _ => reached.checked) low_reached
  have high_fits := fits_performFromStart agree (fun _ _ => reached.checked) high_reached
  obtain ⟨inputs, at_end⟩ := forall₂_concat_iff.mp inputs
  exact forall₂_concat_iff.mpr
    (ticks_refine reached closed acyclic low_fits high_fits contents run run' inputs at_end decided)

/-- Where the run ends that writes a given bit. -/
def feedbackEnd (data : Trit) : State :=
  (feedback.perform (feedbackRun data) (.initial feedback)).toOption.getD (.initial feedback)

theorem perform_feedbackRun {data : Trit}
    (succeeds : (feedback.perform (feedbackRun data) (.initial feedback)).isOk = true) :
    feedback.perform (feedbackRun data) (.initial feedback) = .ok (feedbackEnd data) := eq_ok_of_isOk succeeds _

/-- A run that stores an unknown bit, and one that stores a one. -/
theorem feedback_refines :
    (feedback.Reached ∧ feedback.Closed ∧ feedback.Acyclic ∧ feedback.InputsAgree) ∧
    feedback.performFromStart [] = .ok (.initial feedback) ∧
    (feedbackEnd .unknown).contentsAt 4 = some ⟨#[[.unknown], [.unknown]], [some [.unknown]]⟩ ∧
    (feedbackEnd .one).contentsAt 4 = some ⟨#[[.one], [.unknown]], [some [.one]]⟩ ∧
    List.Forall₂ feedback.Refines
      (feedback.ticks (feedbackRun .unknown) (.initial feedback) ++ [feedbackEnd .unknown])
      (feedback.ticks (feedbackRun .one) (.initial feedback) ++ [feedbackEnd .one]) := by
  have started : feedback.performFromStart [] = .ok (.initial feedback) := by decide +kernel
  have entries : List.Forall₂ (fun low high : State =>
      List.Forall₂ (fun a b => a.1 = b.1 ∧ Bits.Below a.2 b.2) low.inputs high.inputs)
      (feedback.ticks (feedbackRun .unknown) (.initial feedback) ++ [feedbackEnd .unknown])
      (feedback.ticks (feedbackRun .one) (.initial feedback) ++ [feedbackEnd .one]) := by decide +kernel
  refine ⟨⟨reached_feedback, closed_feedback, acyclic_feedback, inputsAgree_feedback⟩, started, by decide +kernel,
    by decide +kernel, ?_⟩
  exact runs_refine reached_feedback closed_feedback acyclic_feedback inputsAgree_feedback started started (.refl _)
    (perform_feedbackRun (by decide +kernel)) (perform_feedbackRun (by decide +kernel))
    (entries.imp fun _ _ => State.inputsBelow_of_entries) (by decide +kernel)

end Netlist

end BankedMemory
