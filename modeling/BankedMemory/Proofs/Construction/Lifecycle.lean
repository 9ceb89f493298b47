import BankedMemory.Proofs.Construction.Refusals

/-!
# The life of a memory under construction

Ports are declared one by one, on their own or for one of the engines, until the ports are frozen or the memory is
built. A call that is refused changes nothing, a declaration that is accepted gets the next number and is found under
it for good, and once the declarations have ended every call is refused.
-/

namespace BankedMemory.Storage

open Build

/-- What may be asked for. To finish is to freeze ports that stand on their own, and to build an engine. -/
inductive Request where
  | reader (reader : Reader)
  | writer (writer : Writer)
  | finish

namespace Request

def reader? : Request → Option Reader
  | .reader port => some port
  | _ => none

def writer? : Request → Option Writer
  | .writer port => some port
  | _ => none

end Request

structure Call where
  request : Request
  /-- The workbench at the time of the call. -/
  bench : Workbench

inductive Reply where
  | handle (number : Nat)
  | frozen
  | built (assembly : Assembly)

/-- Something that ports are declared on. -/
inductive Draft where
  | bare (ports : Ports)
  | within (engine : Engine)

/-- What a draft is to become. -/
inductive Plan where
  | bare (capacity : Option Nat)
  | replicated (clock : Control) (name : Option String)
  | xorNetwork (clock : Control) (name : Option String) (arbitration : Arbitration)

/-- The draft that declarations start from. -/
def Plan.draft (blueprint : Blueprint) : Plan → Draft
  | bare capacity => .bare (.ofBlueprint blueprint capacity)
  | replicated clock name => .within (.replicated (.ofBlueprint blueprint clock name))
  | xorNetwork clock name arbitration => .within (.xorNetwork (.ofBlueprint blueprint clock name arbitration))

/-- The ports take no declaration of a certain kind, for a reason of a certain kind. -/
def Ports.Refuses (ports : Ports) : Request → RefusalKind → Prop
  | _, .lifecycle => ports.frozen = true
  | .reader reader, .configuration => ports.frozen = false ∧ ¬ ports.TakesReader reader
  | .writer _, .capacity => ports.frozen = false ∧ ¬ ports.HasRoom
  | .writer writer, .configuration => ports.frozen = false ∧ ports.HasRoom ∧ ¬ ports.FitsWriter writer
  | _, _ => False

/-- There is but one kind of reason. -/
theorem Ports.Refuses.unique {ports : Ports} {request : Request} {kind kind' : RefusalKind}
    (h : ports.Refuses request kind) (h' : ports.Refuses request kind') : kind = kind' := by
  cases request <;> cases kind <;> cases kind' <;> simp_all [Ports.Refuses]

namespace Draft

def ports : Draft → Ports
  | bare ports => ports
  | within engine => engine.ports

def withPorts (ports : Ports) : Draft → Draft
  | bare _ => bare ports
  | within engine => .within (engine.withPorts ports)

def declareReader (reader : Reader) : Draft → Except Refusal (Nat × Draft)
  | bare ports => do
    let (number, ports) ← ports.declareReader reader
    return (number, bare ports)
  | within engine => do
    let (number, engine) ← engine.declareReader reader
    return (number, .within engine)

def declareWriter (writer : Writer) : Draft → Except Refusal (Nat × Draft)
  | bare ports => do
    let (number, ports) ← ports.declareWriter writer
    return (number, bare ports)
  | within engine => do
    let (number, engine) ← engine.declareWriter writer
    return (number, .within engine)

/-- A declaration leaves the workbench alone, and changes the draft when it is accepted. -/
def settle (draft : Draft) (bench : Workbench) : Except Refusal (Nat × Draft) → Except Halt Reply × Draft × Workbench
  | .ok (number, after) => (.ok (.handle number), after, bench)
  | .error cause => (.error (.refused cause), draft, bench)

def finish (bench : Workbench) : Draft → Except Halt Reply × Draft × Workbench
  | bare ports =>
    match ports.freeze with
    | .ok ports => (.ok .frozen, bare ports, bench)
    | .error cause => (.error (.refused cause), bare ports, bench)
  | within engine =>
    let (result, engine, bench) := engine.build bench
    (result.map .built, .within engine, bench)

/-- The reply to a call, with the draft and the workbench that it leaves. -/
def respond (draft : Draft) (call : Call) : Except Halt Reply × Draft × Workbench :=
  match call.request with
  | .reader reader => draft.settle call.bench (draft.declareReader reader)
  | .writer writer => draft.settle call.bench (draft.declareWriter writer)
  | .finish => draft.finish call.bench

/-- The draft after some calls. -/
def after (draft : Draft) (calls : List Call) : Draft :=
  calls.foldl (fun draft call => (draft.respond call).2.1) draft

/-- Some calls, each with the reply to it. -/
def replies (draft : Draft) : List Call → List (Call × Except Halt Reply)
  | [] => []
  | call :: later => (call, (draft.respond call).1) :: (draft.respond call).2.1.replies later

/-- What a call has declared, with the number it was given. -/
def numbered {α : Type} (pick : Request → Option α) (entry : Call × Except Halt Reply) : Option (α × Nat) :=
  match entry.2 with
  | .ok (.handle number) => (pick entry.1.request).map fun port => (port, number)
  | _ => none

/-- The ports of one kind that some calls have declared, each with the number it was given. -/
def accepted {α : Type} (pick : Request → Option α) (draft : Draft) (calls : List Call) : List (α × Nat) :=
  (draft.replies calls).filterMap (numbered pick)

/-- A call can be refused for a reason, which changes nothing. It can declare a port, or end the declarations. -/
inductive Outcome (draft : Draft) (call : Call) : Except Halt Reply × Draft × Workbench → Prop where
  | refused (cause : Refusal) (reason : draft.ports.Refuses call.request cause.kind) :
      Outcome draft call (.error (.refused cause), draft, call.bench)
  | reader (reader : Reader) (asked : call.request = .reader reader) (opened : draft.ports.frozen = false)
      (takes : draft.ports.TakesReader reader) :
      Outcome draft call (.ok (.handle draft.ports.readers.length),
        draft.withPorts { draft.ports with readers := draft.ports.readers ++ [reader] }, call.bench)
  | writer (writer : Writer) (asked : call.request = .writer writer) (opened : draft.ports.frozen = false)
      (room : draft.ports.HasRoom) (fits : draft.ports.FitsWriter writer) :
      Outcome draft call (.ok (.handle draft.ports.writers.length),
        draft.withPorts { draft.ports with writers := draft.ports.writers ++ [writer] }, call.bench)
  | finished (asked : call.request = .finish) (opened : draft.ports.frozen = false) (result : Except Halt Reply)
      (unrefused : ∀ cause, result ≠ .error (.refused cause)) (bench : Workbench) :
      Outcome draft call (result, draft.withPorts { draft.ports with frozen := true }, bench)

variable {draft : Draft} {call : Call}

@[simp] theorem ports_withPorts (draft : Draft) (ports : Ports) : (draft.withPorts ports).ports = ports := by
  rcases draft with _ | ⟨_ | _⟩ <;> rfl

/-- Whatever a draft is to become, it takes declarations as its ports do. -/
theorem declareReader_eq (draft : Draft) (reader : Reader) : draft.declareReader reader =
    (draft.ports.declareReader reader).map fun entry => (entry.1, draft.withPorts entry.2) := by
  rcases draft with ports | ⟨memory | network⟩
  · show (ports.declareReader reader >>= _) = (ports.declareReader reader).map _
    cases ports.declareReader reader <;> rfl
  · show ((memory.ports.declareReader reader >>= _) >>= _) = (memory.ports.declareReader reader).map _
    cases memory.ports.declareReader reader <;> rfl
  · show ((network.ports.declareReader reader >>= _) >>= _) = (network.ports.declareReader reader).map _
    cases network.ports.declareReader reader <;> rfl

theorem declareWriter_eq (draft : Draft) (writer : Writer) : draft.declareWriter writer =
    (draft.ports.declareWriter writer).map fun entry => (entry.1, draft.withPorts entry.2) := by
  rcases draft with ports | ⟨memory | network⟩
  · show (ports.declareWriter writer >>= _) = (ports.declareWriter writer).map _
    cases ports.declareWriter writer <;> rfl
  · show ((memory.ports.declareWriter writer >>= _) >>= _) = (memory.ports.declareWriter writer).map _
    cases memory.ports.declareWriter writer <;> rfl
  · show ((network.ports.declareWriter writer >>= _) >>= _) = (network.ports.declareWriter writer).map _
    cases network.ports.declareWriter writer <;> rfl

/-- Once the declarations have ended, every call is refused. -/
theorem respond_of_frozen (closed : draft.ports.frozen = true) (call : Call) :
    ∃ attempt, draft.respond call = (.error (.refused (.alreadyBuilt attempt)), draft, call.bench) := by
  obtain ⟨request, bench⟩ := call
  obtain ⟨readers, writers, freezes⟩ := Ports.refused_of_frozen closed
  cases request with
  | reader reader =>
    refine ⟨.declareReader, ?_⟩
    show draft.settle bench (draft.declareReader reader) = _
    rw [declareReader_eq, readers]
    rfl
  | writer writer =>
    refine ⟨.declareWriter, ?_⟩
    show draft.settle bench (draft.declareWriter writer) = _
    rw [declareWriter_eq, writers]
    rfl
  | finish =>
    refine ⟨.assemble, ?_⟩
    cases draft with
    | bare ports =>
      have freezes : ports.freeze = _ := freezes
      simp only [respond, finish, freezes]
    | within engine =>
      have freezes : engine.ports.freeze = _ := freezes
      simp only [respond, finish, Engine.build, freezes]
      rfl

/-- A build that its ports allow is not refused, and ends the declarations. -/
theorem build_of_open {engine : Engine} (opened : engine.ports.frozen = false) (sound : engine.ports.Sound)
    (bench : Workbench) : ∃ result after,
      engine.build bench = (result, engine.withPorts { engine.ports with frozen := true }, after) ∧
        ∀ cause, result ≠ .error (.refused cause) := by
  let ended := engine.closed.assemble.run.run bench
  exact ⟨ended.1, ended.2, engine.build_eq_of_open opened bench,
    Engine.unrefused_assemble (Engine.sound_closed sound) bench⟩

theorem outcome_finish (opened : draft.ports.frozen = false) (sound : draft.ports.Sound) (bench : Workbench) :
    draft.Outcome ⟨.finish, bench⟩ (draft.respond ⟨.finish, bench⟩) := by
  cases draft with
  | bare ports =>
    have freezes : ports.freeze = .ok { ports with frozen := true } := Ports.freeze_of_open opened
    have answer : (bare ports).respond ⟨.finish, bench⟩ = (.ok .frozen, bare { ports with frozen := true }, bench) := by
      simp only [respond, finish, freezes]
    rw [answer]
    exact .finished rfl opened _ (fun _ => by simp) _
  | within engine =>
    obtain ⟨result, after, built, unrefused⟩ := build_of_open (show engine.ports.frozen = false from opened) sound bench
    have answer : (within engine).respond ⟨.finish, bench⟩ =
        (result.map .built, within (engine.withPorts { engine.ports with frozen := true }), after) := by
      simp only [respond, finish, built]
    rw [answer]
    refine .finished rfl opened _ (fun cause refused => unrefused cause ?_) after
    cases result with
    | error halt =>
      cases refused
      rfl
    | ok assembly => cases refused

/-- Every call comes to one of the outcomes, once all declared ports are sound. -/
theorem outcome (sound : draft.ports.Sound) (call : Call) : draft.Outcome call (draft.respond call) := by
  obtain ⟨request, bench⟩ := call
  by_cases closed : draft.ports.frozen = true
  · obtain ⟨attempt, refused⟩ := respond_of_frozen closed ⟨request, bench⟩
    rw [refused]
    exact .refused _ closed
  have opened : draft.ports.frozen = false := Bool.eq_false_of_not_eq_true closed
  cases request with
  | reader reader =>
    show draft.Outcome _ (draft.settle bench (draft.declareReader reader))
    rw [declareReader_eq]
    by_cases takes : draft.ports.TakesReader reader
    · rw [Ports.declareReader_of_takes opened takes]
      exact .reader reader rfl opened takes
    · obtain ⟨cause, refused, kind⟩ := Ports.declareReader_refused opened takes
      rw [refused]
      refine .refused cause ?_
      rw [kind]
      exact ⟨opened, takes⟩
  | writer writer =>
    show draft.Outcome _ (draft.settle bench (draft.declareWriter writer))
    rw [declareWriter_eq]
    by_cases room : draft.ports.HasRoom
    · by_cases fits : draft.ports.FitsWriter writer
      · rw [Ports.declareWriter_of_fits opened room fits]
        exact .writer writer rfl opened room fits
      · obtain ⟨cause, refused, kind⟩ := Ports.declareWriter_misfit opened room fits
        rw [refused]
        refine .refused cause ?_
        rw [kind]
        exact ⟨opened, room, fits⟩
    · obtain ⟨cause, refused, kind⟩ := Ports.declareWriter_full opened writer room
      rw [refused]
      refine .refused cause ?_
      rw [kind]
      exact ⟨opened, room⟩
  | finish => exact outcome_finish opened sound bench

/-! ### What every call keeps -/

theorem Outcome.sound {outcome : Except Halt Reply × Draft × Workbench} (sound : draft.ports.Sound)
    (h : draft.Outcome call outcome) : outcome.2.1.ports.Sound := by
  cases h with
  | refused cause reason => exact sound
  | reader reader asked opened takes =>
    rw [ports_withPorts]
    exact sound.addReader takes
  | writer writer asked opened room fits =>
    rw [ports_withPorts]
    exact sound.addWriter room fits
  | finished asked opened result unrefused bench =>
    rw [ports_withPorts]
    exact sound.frozen

theorem Outcome.shape {outcome : Except Halt Reply × Draft × Workbench} (h : draft.Outcome call outcome) :
    outcome.2.1.ports.blueprint = draft.ports.blueprint ∧ outcome.2.1.ports.capacity = draft.ports.capacity := by
  cases h <;> simp

/-- The declarations have ended after a call if they had ended before, or the call ends them. -/
theorem Outcome.frozen_iff {outcome : Except Halt Reply × Draft × Workbench} (h : draft.Outcome call outcome) :
    outcome.2.1.ports.frozen = true ↔ draft.ports.frozen = true ∨ call.request = .finish := by
  cases h with
  | refused cause reason =>
    refine ⟨Or.inl, fun ended => ended.elim id fun asked => ?_⟩
    rw [asked] at reason
    cases kind : cause.kind <;> rw [kind] at reason
    · exact absurd reason id
    · exact reason
    · exact absurd reason id
    · exact absurd reason id
  | reader reader asked opened takes => simp [asked]
  | writer writer asked opened room fits => simp [asked]
  | finished asked opened result unrefused bench => simp [asked]

theorem after_cons (draft : Draft) (call : Call) (later : List Call) :
    draft.after (call :: later) = (draft.respond call).2.1.after later := rfl

theorem after_append (draft : Draft) (calls later : List Call) :
    draft.after (calls ++ later) = (draft.after calls).after later := List.foldl_append

theorem sound_after (sound : draft.ports.Sound) (calls : List Call) : (draft.after calls).ports.Sound := by
  induction calls generalizing draft with
  | nil => exact sound
  | cons call later ih => exact ih ((outcome sound call).sound sound)

theorem shape_after (sound : draft.ports.Sound) (calls : List Call) :
    (draft.after calls).ports.blueprint = draft.ports.blueprint ∧
      (draft.after calls).ports.capacity = draft.ports.capacity := by
  induction calls generalizing draft with
  | nil => exact ⟨rfl, rfl⟩
  | cons call later ih =>
    obtain ⟨blueprint, capacity⟩ := (outcome sound call).shape
    obtain ⟨blueprint', capacity'⟩ := ih ((outcome sound call).sound sound)
    exact ⟨blueprint'.trans blueprint, capacity'.trans capacity⟩

theorem frozen_after_iff (sound : draft.ports.Sound) (calls : List Call) : (draft.after calls).ports.frozen = true ↔
    draft.ports.frozen = true ∨ ∃ call ∈ calls, call.request = .finish := by
  induction calls generalizing draft with
  | nil => simp [after]
  | cons call later ih =>
    rw [after_cons, ih ((outcome sound call).sound sound), (outcome sound call).frozen_iff]
    simp [or_assoc]

theorem after_of_frozen (closed : draft.ports.frozen = true) (calls : List Call) : draft.after calls = draft := by
  induction calls with
  | nil => rfl
  | cons call later ih =>
    obtain ⟨attempt, refused⟩ := respond_of_frozen closed call
    rw [after_cons, refused]
    exact ih

/-- What has been declared of one kind grows by what a call declares of it, under the next number. -/
def Numbers {α : Type} (pick : Request → Option α) (declared : Ports → List α) : Prop :=
  ∀ (draft : Draft) (call : Call) (outcome : Except Halt Reply × Draft × Workbench), draft.Outcome call outcome →
    (declared outcome.2.1.ports).zipIdx = (declared draft.ports).zipIdx ++ (numbered pick (call, outcome.1)).toList

theorem numbered_of_finish {α : Type} {pick : Request → Option α} (none_finishes : pick .finish = none)
    (asked : call.request = .finish) (result : Except Halt Reply) : numbered pick (call, result) = none := by
  unfold numbered
  split
  · rw [asked, none_finishes]
    rfl
  · rfl

theorem numbers_readers : Numbers Request.reader? Ports.readers := by
  intro draft call outcome h
  cases h with
  | refused cause reason => simp [numbered]
  | reader reader asked opened takes => simp [numbered, asked, Request.reader?, List.zipIdx_append]
  | writer writer asked opened room fits => simp [numbered, asked, Request.reader?]
  | finished asked opened result unrefused bench =>
    simp [numbered_of_finish (show Request.reader? .finish = none from rfl) asked]

theorem numbers_writers : Numbers Request.writer? Ports.writers := by
  intro draft call outcome h
  cases h with
  | refused cause reason => simp [numbered]
  | reader reader asked opened takes => simp [numbered, asked, Request.writer?]
  | writer writer asked opened room fits => simp [numbered, asked, Request.writer?, List.zipIdx_append]
  | finished asked opened result unrefused bench =>
    simp [numbered_of_finish (show Request.writer? .finish = none from rfl) asked]

section Numbers

variable {α : Type} {pick : Request → Option α} {declared : Ports → List α}

/-- The ports of a draft are those it had and those that were accepted since, numbered in their order. -/
theorem Numbers.after (numbers : Numbers pick declared) (sound : draft.ports.Sound) (calls : List Call) :
    (declared (draft.after calls).ports).zipIdx = (declared draft.ports).zipIdx ++ draft.accepted pick calls := by
  induction calls generalizing draft with
  | nil => simp [Draft.after, accepted, replies]
  | cons call later ih =>
    have step := outcome sound call
    have all : draft.accepted pick (call :: later) =
        (numbered pick (call, (draft.respond call).1)).toList ++ (draft.respond call).2.1.accepted pick later := by
      show ((call, (draft.respond call).1) :: (draft.respond call).2.1.replies later).filterMap (numbered pick) = _
      rw [List.filterMap_cons]
      cases numbered pick (call, (draft.respond call).1) <;> rfl
    rw [after_cons, ih (step.sound sound), numbers draft call _ step, all, List.append_assoc]

/-- What is found under a number stays there. -/
theorem Numbers.kept (numbers : Numbers pick declared) (sound : draft.ports.Sound) (calls : List Call) {k : Nat}
    {port : α} (found : (declared draft.ports)[k]? = some port) :
    (declared (draft.after calls).ports)[k]? = some port := by
  have longer := congrArg (List.map Prod.fst) (numbers.after sound calls)
  rw [List.map_append, List.zipIdx_map_fst, List.zipIdx_map_fst] at longer
  obtain ⟨inside, _⟩ := List.getElem?_eq_some_iff.mp found
  rw [longer, List.getElem?_append_left inside, found]

end Numbers

/-- A call is accepted if it gives a reply. -/
def Accepts (draft : Draft) (call : Call) : Prop := ∃ reply, (draft.respond call).1 = .ok reply

/-- The call is refused, for a reason of a certain kind. -/
def Rejects (draft : Draft) (call : Call) (kind : RefusalKind) : Prop :=
  ∃ cause, (draft.respond call).1 = .error (.refused cause) ∧ cause.kind = kind

/-- What is true of a draft after some calls, whatever they were. -/
structure Orderly (start : Draft) (calls : List Call) : Prop where
  /-- A refused call changes neither the draft nor the workbench. -/
  unchanged : ∀ call cause, ((start.after calls).respond call).1 = .error (.refused cause) →
    ((start.after calls).respond call).2 = (start.after calls, call.bench)
  blueprint : (start.after calls).ports.blueprint = start.ports.blueprint
  limit : (start.after calls).ports.capacity = start.ports.capacity
  /-- Each port that was accepted is found under the number it was given, and the numbers count up from 0. -/
  readers : start.accepted Request.reader? calls = (start.after calls).ports.readers.zipIdx
  writers : start.accepted Request.writer? calls = (start.after calls).ports.writers.zipIdx
  reader_kept : ∀ (later : List Call) (k : Nat) (reader : Reader),
    (start.after calls).ports.readers[k]? = some reader →
      (start.after (calls ++ later)).ports.readers[k]? = some reader
  writer_kept : ∀ (later : List Call) (k : Nat) (writer : Writer),
    (start.after calls).ports.writers[k]? = some writer →
      (start.after (calls ++ later)).ports.writers[k]? = some writer
  room : ∀ capacity ∈ start.ports.capacity, (start.after calls).ports.writers.length ≤ capacity
  ended : (start.after calls).ports.frozen = true ↔ ∃ call ∈ calls, call.request = .finish
  /-- Once the declarations have ended, every call is refused for that reason. -/
  final : (start.after calls).ports.frozen = true → ∀ call, (start.after calls).Rejects call .lifecycle
  settled : (start.after calls).ports.frozen = true → ∀ later, start.after (calls ++ later) = start.after calls
  /-- Until then, a port is accepted just when it fits. -/
  takes_reader : (start.after calls).ports.frozen = false → ∀ reader bench,
    ((start.after calls).Accepts ⟨.reader reader, bench⟩ ↔ (start.after calls).ports.TakesReader reader) ∧
      (¬ (start.after calls).ports.TakesReader reader →
        (start.after calls).Rejects ⟨.reader reader, bench⟩ .configuration)
  takes_writer : (start.after calls).ports.frozen = false → ∀ writer bench,
    ((start.after calls).Accepts ⟨.writer writer, bench⟩ ↔
      (start.after calls).ports.HasRoom ∧ (start.after calls).ports.FitsWriter writer) ∧
      (¬ (start.after calls).ports.HasRoom → (start.after calls).Rejects ⟨.writer writer, bench⟩ .capacity) ∧
      ((start.after calls).ports.HasRoom → ¬ (start.after calls).ports.FitsWriter writer →
        (start.after calls).Rejects ⟨.writer writer, bench⟩ .configuration)
  /-- Until then, nothing refuses to end the declarations. -/
  ends : (start.after calls).ports.frozen = false → ∀ bench kind,
    ¬ (start.after calls).Rejects ⟨.finish, bench⟩ kind

theorem not_rejects_of_ok {reply : Reply} {kind : RefusalKind} (accepted : (draft.respond call).1 = .ok reply) :
    ¬ draft.Rejects call kind := by
  rintro ⟨cause, refused, _⟩
  rw [accepted] at refused
  cases refused

/-- A call that the ports have a reason to refuse is refused for it. -/
theorem rejects_of_refuses (sound : draft.ports.Sound) {kind : RefusalKind}
    (refuses : draft.ports.Refuses call.request kind) : draft.Rejects call kind := by
  have step := outcome sound call
  unfold Rejects
  generalize draft.respond call = outcome at step
  cases step with
  | refused cause reason => exact ⟨cause, rfl, reason.unique refuses⟩
  | reader reader asked opened takes =>
    rw [asked] at refuses
    cases kind <;> simp_all [Ports.Refuses]
  | writer writer asked opened room fits =>
    rw [asked] at refuses
    cases kind <;> simp_all [Ports.Refuses]
  | finished asked opened result unrefused bench =>
    rw [asked] at refuses
    cases kind <;> simp_all [Ports.Refuses]

theorem accepts_of_not_refuses (sound : draft.ports.Sound) (declares : call.request ≠ .finish)
    (takes : ∀ kind, ¬ draft.ports.Refuses call.request kind) : draft.Accepts call := by
  have step := outcome sound call
  unfold Accepts
  generalize draft.respond call = outcome at step
  cases step with
  | refused cause reason => exact absurd reason (takes _)
  | reader reader asked opened takes => exact ⟨_, rfl⟩
  | writer writer asked opened room fits => exact ⟨_, rfl⟩
  | finished asked opened result unrefused bench => exact absurd asked declares

/-- A refused call changes nothing. -/
theorem respond_of_refused (sound : draft.ports.Sound) {cause : Refusal}
    (refused : (draft.respond call).1 = .error (.refused cause)) : (draft.respond call).2 = (draft, call.bench) := by
  have step := outcome sound call
  generalize draft.respond call = outcome at step refused
  cases step with
  | refused cause reason => rfl
  | reader reader asked opened takes => cases refused
  | writer writer asked opened room fits => cases refused
  | finished asked opened result unrefused bench => exact absurd refused (unrefused cause)

/-- Declarations that have not ended may always end. -/
theorem not_rejects_finish (sound : draft.ports.Sound) (opened : draft.ports.frozen = false) {bench : Workbench}
    {kind : RefusalKind} : ¬ draft.Rejects ⟨.finish, bench⟩ kind := by
  rintro ⟨cause, refused, _⟩
  have same := respond_of_refused sound refused
  have ended := (outcome sound ⟨.finish, bench⟩).frozen_iff.mpr (Or.inr rfl)
  rw [same, opened] at ended
  cases ended

theorem sound_of_plan (plan : Plan) (blueprint : Blueprint) : (plan.draft blueprint).ports.Sound := by
  cases plan <;> exact Ports.sound_ofBlueprint blueprint _

/-- Whatever is called, a memory under construction stays in order. -/
theorem orderly (plan : Plan) (blueprint : Blueprint) (calls : List Call) :
    Orderly (plan.draft blueprint) calls := by
  have start := sound_of_plan plan blueprint
  have sound := sound_after start calls
  obtain ⟨same_blueprint, same_limit⟩ := shape_after start calls
  have fresh : (plan.draft blueprint).ports.readers = [] ∧ (plan.draft blueprint).ports.writers = [] ∧
      (plan.draft blueprint).ports.frozen = false := by
    cases plan <;> exact ⟨rfl, rfl, rfl⟩
  have readers := numbers_readers.after start calls
  have writers := numbers_writers.after start calls
  have ended := frozen_after_iff start calls
  rw [fresh.1] at readers
  rw [fresh.2.1] at writers
  rw [fresh.2.2] at ended
  exact {
    unchanged := fun call cause refused => respond_of_refused sound refused
    blueprint := same_blueprint
    limit := same_limit
    readers := readers.symm
    writers := writers.symm
    reader_kept := fun later k reader found => by
      rw [after_append]
      exact numbers_readers.kept sound later found
    writer_kept := fun later k writer found => by
      rw [after_append]
      exact numbers_writers.kept sound later found
    room := same_limit ▸ sound.capacity
    ended := by simpa using ended
    final := fun closed call => rejects_of_refuses sound closed
    settled := fun closed later => by
      rw [after_append]
      exact after_of_frozen closed later
    takes_reader := fun opened reader bench => by
      have rejects (misfit : ¬ ((plan.draft blueprint).after calls).ports.TakesReader reader) :
          ((plan.draft blueprint).after calls).Rejects ⟨.reader reader, bench⟩ .configuration :=
        rejects_of_refuses sound ⟨opened, misfit⟩
      refine ⟨⟨fun ⟨reply, accepted⟩ => ?_, fun takes => ?_⟩, rejects⟩
      · by_contra misfit
        exact not_rejects_of_ok accepted (rejects misfit)
      · refine accepts_of_not_refuses sound (by simp) fun kind reason => ?_
        cases kind <;> simp_all [Ports.Refuses]
    takes_writer := fun opened writer bench => by
      have full (full : ¬ ((plan.draft blueprint).after calls).ports.HasRoom) :
          ((plan.draft blueprint).after calls).Rejects ⟨.writer writer, bench⟩ .capacity :=
        rejects_of_refuses sound ⟨opened, full⟩
      have misfits (room : ((plan.draft blueprint).after calls).ports.HasRoom)
          (misfit : ¬ ((plan.draft blueprint).after calls).ports.FitsWriter writer) :
          ((plan.draft blueprint).after calls).Rejects ⟨.writer writer, bench⟩ .configuration :=
        rejects_of_refuses sound ⟨opened, room, misfit⟩
      refine ⟨⟨fun ⟨reply, accepted⟩ => ?_, fun takes => ?_⟩, full, misfits⟩
      · by_contra misfit
        by_cases room : ((plan.draft blueprint).after calls).ports.HasRoom
        · exact not_rejects_of_ok accepted (misfits room fun fits => misfit ⟨room, fits⟩)
        · exact not_rejects_of_ok accepted (full room)
      · refine accepts_of_not_refuses sound (by simp) fun kind reason => ?_
        cases kind <;> simp_all [Ports.Refuses]
    ends := fun opened bench kind => not_rejects_finish sound opened }

end Draft

end BankedMemory.Storage
