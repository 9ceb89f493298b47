import BankedMemory.Storage.Workbench
import Mathlib.Data.List.Forall2

/-!
# How builds end

A build ends well on a workbench if it neither faults nor is refused. Sequences and loops of builds are taken apart
here, so that later proofs look at one part of a build at a time.
-/

namespace BankedMemory.Storage.Build

variable {α β ε : Type}

theorem except_bind_eq_ok {first : Except ε β} {rest : β → Except ε α} {result : α} :
    (first >>= rest) = .ok result ↔ ∃ middle, first = .ok middle ∧ rest middle = .ok result := by
  cases first with
  | error cause => simp [bind, Except.bind]
  | ok middle => simp [bind, Except.bind]

theorem forM_eq_ok {f : α → Except ε Unit} {l : List α} (h : l.forM f = .ok ()) : ∀ x ∈ l, f x = .ok () := by
  induction l with
  | nil => simp
  | cons x rest ih =>
    have unfolded : (f x >>= fun _ => rest.forM f) = .ok () := h
    obtain ⟨_, here, later⟩ := except_bind_eq_ok.mp unfolded
    intro other member
    rcases List.mem_cons.mp member with rfl | member
    · exact here
    · exact ih later other member

/-- A build ends well, with a result and a new workbench. -/
def Ends (build : Build α) (bench : Workbench) (result : α) (after : Workbench) : Prop :=
  build.run.run bench = (.ok result, after)

variable {bench after : Workbench} {result : α}

theorem ends_pure {given : α} : Ends (pure given) bench result after ↔ result = given ∧ after = bench := by
  show ((Except.ok given, bench) : Except Halt α × Workbench) = (.ok result, after) ↔ _
  simp [eq_comm]

theorem not_ends_throw {halt : Halt} : ¬ Ends (throw halt : Build α) bench result after := by
  intro h
  have : ((Except.error halt, bench) : Except Halt α × Workbench) = (.ok result, after) := h
  cases this

theorem run_bind (first : Build β) (rest : β → Build α) (bench : Workbench) :
    (first >>= rest).run.run bench = match first.run.run bench with
      | (.ok middle, bench') => (rest middle).run.run bench'
      | (.error halt, bench') => (.error halt, bench') := by
  show (match first.run.run bench with
    | (result, bench') => (ExceptT.bindCont rest result).run bench') = _
  rcases first.run.run bench with ⟨_ | _, _⟩ <;> rfl

theorem ends_bind {first : Build β} {rest : β → Build α} : Ends (first >>= rest) bench result after ↔
    ∃ middle bench', Ends first bench middle bench' ∧ Ends (rest middle) bench' result after := by
  unfold Ends
  rw [run_bind]
  constructor
  · intro h
    rcases ended : first.run.run bench with ⟨halt | middle, bench'⟩
    · rw [ended] at h
      cases h
    · rw [ended] at h
      exact ⟨middle, bench', rfl, h⟩
  · rintro ⟨middle, bench', ended, h⟩
    rw [ended]
    exact h

theorem ends_ofFault {given : Except Fault α} : Ends (ofFault given) bench result after ↔
    given = .ok result ∧ after = bench := by
  cases given with
  | ok value => simp only [ofFault, ends_pure, Except.ok.injEq, eq_comm]
  | error cause => simp [ofFault, not_ends_throw]

theorem ends_ofRefusal {given : Except Refusal α} : Ends (ofRefusal given) bench result after ↔
    given = .ok result ∧ after = bench := by
  cases given with
  | ok value => simp only [ofRefusal, ends_pure, Except.ok.injEq, eq_comm]
  | error cause => simp [ofRefusal, not_ends_throw]

theorem ends_report {event : Event} {result : Unit} : Ends (report event) bench result after ↔
    after = { bench with events := bench.events.push event } := by
  show (((Except.ok (), { bench with events := bench.events.push event }) : Except Halt Unit × Workbench) =
    (.ok result, after)) ↔ _
  simp [eq_comm]

theorem ends_onNetlist {f : Netlist → α × Netlist} : Ends (onNetlist f) bench result after ↔
    result = (f bench.netlist).1 ∧ after = { bench with netlist := (f bench.netlist).2 } := by
  show (((Except.ok (f bench.netlist).1, { bench with netlist := (f bench.netlist).2 }) :
    Except Halt α × Workbench) = (.ok result, after)) ↔ _
  simp [eq_comm]

theorem ends_get {result : Workbench} : Ends (get : Build Workbench) bench result after ↔
    result = bench ∧ after = bench := by
  show (((Except.ok bench, bench) : Except Halt Workbench × Workbench) = (.ok result, after)) ↔ _
  simp [eq_comm]

theorem ends_modify {f : Workbench → Workbench} {result : Unit} :
    Ends (modify f : Build Unit) bench result after ↔ after = f bench := by
  show (((Except.ok (), f bench) : Except Halt Unit × Workbench) = (.ok result, after)) ↔ _
  simp [eq_comm]

theorem ends_add {c : Cell} {output : Bus} : Ends (add c) bench output after ↔
    (c.check = .ok () ∧ bench.netlist.Numbered c.outputWidth) ∧ output = (bench.netlist.push c).1 ∧
      after = { bench with netlist := (bench.netlist.push c).2 } := by
  simp only [← Netlist.checkCell_eq_ok_iff, add, ends_bind, ends_get, ends_ofFault, ends_onNetlist]
  constructor
  · rintro ⟨_, _, ⟨rfl, rfl⟩, _, _, ⟨checked, rfl⟩, pushed⟩
    exact ⟨checked, pushed⟩
  · rintro ⟨checked, pushed⟩
    exact ⟨bench, bench, ⟨rfl, rfl⟩, (), bench, ⟨checked, rfl⟩, pushed⟩

theorem ends_addPlaceholders {width : Nat} {output : Bus} : Ends (addPlaceholders width) bench output after ↔
    bench.netlist.Numbered width ∧ output = (bench.netlist.pushPlaceholders width).1 ∧
      after = { bench with netlist := (bench.netlist.pushPlaceholders width).2 } := by
  simp only [← Netlist.checkRoom_eq_ok_iff, addPlaceholders, ends_bind, ends_get, ends_ofFault, ends_onNetlist]
  constructor
  · rintro ⟨_, _, ⟨rfl, rfl⟩, _, _, ⟨room, rfl⟩, pushed⟩
    exact ⟨room, pushed⟩
  · rintro ⟨room, pushed⟩
    exact ⟨bench, bench, ⟨rfl, rfl⟩, (), bench, ⟨room, rfl⟩, pushed⟩

theorem ends_rewireBus {source target : Bus} {result : Unit} : Ends (rewireBus source target) bench result after ↔
    ∃ netlist, bench.netlist.rewireBus source target = .ok netlist ∧ after = { bench with netlist } := by
  unfold rewireBus
  simp only [ends_bind, ends_get, ends_ofFault, ends_modify]
  constructor
  · rintro ⟨_, _, ⟨rfl, rfl⟩, netlist, _, ⟨rewired, rfl⟩, rfl⟩
    exact ⟨netlist, rewired, rfl⟩
  · rintro ⟨netlist, rewired, rfl⟩
    exact ⟨bench, bench, ⟨rfl, rfl⟩, netlist, bench, ⟨rewired, rfl⟩, rfl⟩

/-- Only the refusals are changed, and a fault stays what it is. -/
theorem run_refuseAs (f : Refusal → Refusal) (build : Build α) (bench : Workbench) : ∃ change : Halt → Halt,
    (∀ cause, change (.fault cause) = .fault cause) ∧ (∀ cause, change (.refused cause) = .refused (f cause)) ∧
      (refuseAs f build).run.run bench = ((build.run.run bench).1.mapError change, (build.run.run bench).2) :=
  ⟨_, fun _ => rfl, fun _ => rfl, rfl⟩

theorem ends_refuseAs {f : Refusal → Refusal} {build : Build α} :
    Ends (refuseAs f build) bench result after ↔ Ends build bench result after := by
  obtain ⟨change, _, _, unfolded⟩ := run_refuseAs f build bench
  unfold Ends
  rw [unfolded]
  rcases build.run.run bench with ⟨_ | _, _⟩
  · constructor <;>
    · intro h
      cases h
  · rfl

/-! ### Builds that halt -/

/-- A build halts, for some reason. -/
def Stops (build : Build α) (bench : Workbench) (reason : Halt → Prop) : Prop :=
  ∃ halt after, build.run.run bench = (.error halt, after) ∧ reason halt

variable {reason : Halt → Prop}

theorem stops_ofFault {given : Except Fault α} {cause : Fault} (failed : given = .error cause)
    (known : reason (.fault cause)) : Stops (ofFault given) bench reason := by
  rw [failed]
  exact ⟨_, bench, rfl, known⟩

theorem stops_ofRefusal {given : Except Refusal α} {cause : Refusal} (refused : given = .error cause)
    (known : reason (.refused cause)) : Stops (ofRefusal given) bench reason := by
  rw [refused]
  exact ⟨_, bench, rfl, known⟩

/-- A build halts in its first part, or in its second part from where the first part has come to. -/
theorem stops_bind_left {first : Build β} {rest : β → Build α} (h : Stops first bench reason) :
    Stops (first >>= rest) bench reason := by
  obtain ⟨halt, after, stopped, known⟩ := h
  refine ⟨halt, after, ?_, known⟩
  rw [run_bind, stopped]

theorem stops_bind_right {first : Build β} {rest : β → Build α} {middle : β} {between : Workbench}
    (ended : Ends first bench middle between) (h : Stops (rest middle) between reason) :
    Stops (first >>= rest) bench reason := by
  obtain ⟨halt, after, stopped, known⟩ := h
  refine ⟨halt, after, ?_, known⟩
  rw [run_bind, ended]
  exact stopped

theorem stops_add {c : Cell} {cause : Fault} (failed : c.check = .error cause) (known : reason (.fault cause)) :
    Stops (add c) bench reason := by
  have refused : bench.netlist.checkCell c = .error cause := by
    rw [Netlist.checkCell, failed]
    rfl
  exact stops_bind_right (ends_get.mpr ⟨rfl, rfl⟩) (stops_bind_left (stops_ofFault refused known))

/-- A fault is not put into a refusal. -/
theorem stops_refuseAs {f : Refusal → Refusal} {build : Build α} {cause : Fault}
    (h : Stops build bench (· = .fault cause)) : Stops (refuseAs f build) bench (· = .fault cause) := by
  obtain ⟨_, after, stopped, rfl⟩ := h
  obtain ⟨change, faults, _, unfolded⟩ := run_refuseAs f build bench
  refine ⟨.fault cause, after, ?_, rfl⟩
  rw [unfolded, stopped, Except.mapError, faults]

end BankedMemory.Storage.Build
