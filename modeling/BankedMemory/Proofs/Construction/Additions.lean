import BankedMemory.Proofs.Construction.Builds
import BankedMemory.Proofs.Construction.Replacement

/-!
# Builds that only add

A build that only adds lets the netlist grow. What it has established of the netlist lasts, whatever is added later,
so that a sequence of such builds establishes all that its parts do. A loop establishes what holds before its first
round and is kept by each round.
-/

namespace BankedMemory.Storage.Build

variable {α β σ : Type}

/-- A property of netlists that growth keeps. -/
def Lasting (P : Netlist → Prop) : Prop := ∀ before after, before.Grows after → P before → P after

/-- From a netlist with `pre` the build only lets the netlist grow, up to one where `post` holds of the result. -/
def Adds (pre : Netlist → Prop) (build : Build α) (post : α → Netlist → Prop) : Prop :=
  ∀ bench result after, pre bench.netlist → Ends build bench result after →
    bench.netlist.Grows after.netlist ∧ post result after.netlist

/-- The netlist has at least so many slots. -/
def From (base : Nat) (netlist : Netlist) : Prop := base ≤ netlist.next

/-- Each net of the source is a placeholder and is replaced by the net at its place in the target, unless it is that
net. -/
def Tied (base : Nat) (netlist : Netlist) (source target : Bus) : Prop :=
  source.length = target.length ∧ netlist.Blank base source ∧
    ∀ pair ∈ source.zip target, pair.1 = pair.2 ∨ netlist.rewiring.target? pair.1 = some pair.2

variable {base : Nat} {pre : Netlist → Prop} {post : α → Netlist → Prop}

theorem lasting_from : Lasting (From base) :=
  fun _ _ grows low => Nat.le_trans low grows.next_le

theorem lasting_const (P : Prop) : Lasting fun _ => P := fun _ _ _ h => h

theorem Lasting.and {P Q : Netlist → Prop} (hp : Lasting P) (hq : Lasting Q) :
    Lasting fun netlist => P netlist ∧ Q netlist :=
  fun before after grows h => ⟨hp before after grows h.1, hq before after grows h.2⟩

theorem Lasting.exists {ι : Sort*} {P : ι → Netlist → Prop} (h : ∀ i, Lasting (P i)) :
    Lasting fun netlist => ∃ i, P i netlist :=
  fun before after grows ⟨i, holds⟩ => ⟨i, h i before after grows holds⟩

theorem Lasting.forall {ι : Sort*} {P : ι → Netlist → Prop} (h : ∀ i, Lasting (P i)) :
    Lasting fun netlist => ∀ i, P i netlist :=
  fun before after grows holds i => h i before after grows (holds i)

theorem lasting_queued {output : Bus} {c : Cell} : Lasting fun netlist => netlist.Queued base output c :=
  fun _ _ grows h => h.extends grows.toExtends

theorem lasting_blank {bus : Bus} : Lasting fun netlist => netlist.Blank base bus :=
  fun _ _ grows h => h.extends grows.toExtends

theorem lasting_tied {source target : Bus} : Lasting fun netlist => Tied base netlist source target :=
  fun before after grows ⟨same, blank, each⟩ => ⟨same, lasting_blank before after grows blank,
    fun pair member => (each pair member).imp_right (grows.rewired pair.1 pair.2)⟩

theorem lasting_forall₂ {P : α → β → Netlist → Prop} (h : ∀ x y, Lasting (P x y)) {xs : List α} {ys : List β} :
    Lasting fun netlist => List.Forall₂ (fun x y => P x y netlist) xs ys :=
  fun before after grows all => all.imp fun x y => h x y before after grows

theorem Adds.weaken {other : α → Netlist → Prop} {build : Build α} (h : Adds pre build post)
    (implies : ∀ result netlist, post result netlist → other result netlist) : Adds pre build other :=
  fun bench result after holds ended =>
    (h bench result after holds ended).imp_right (implies result after.netlist)

theorem Adds.strengthen {required : Netlist → Prop} {build : Build α} (h : Adds required build post)
    (implies : ∀ netlist, pre netlist → required netlist) : Adds pre build post :=
  fun bench result after holds ended => h bench result after (implies bench.netlist holds) ended

theorem adds_pure {given : α} (h : ∀ netlist, pre netlist → post given netlist) : Adds pre (pure given) post := by
  intro bench result after holds ended
  obtain ⟨rfl, rfl⟩ := ends_pure.mp ended
  exact ⟨.refl _, h _ holds⟩

theorem adds_throw {halt : Halt} : Adds pre (throw halt : Build α) post :=
  fun _ _ _ _ ended => absurd ended not_ends_throw

theorem adds_add {c : Cell} (low : ∀ netlist, pre netlist → From base netlist) :
    Adds pre (add c) fun output netlist => netlist.Queued base output c := by
  intro bench output after holds ended
  obtain ⟨⟨checked, _⟩, rfl, rfl⟩ := ends_add.mp ended
  exact ⟨Netlist.grows_push _ c, Netlist.queued_push _ checked (low _ holds)⟩

theorem adds_addPlaceholders {width : Nat} (low : ∀ netlist, pre netlist → From base netlist) :
    Adds pre (addPlaceholders width) fun output netlist => netlist.Blank base output := by
  intro bench output after holds ended
  obtain ⟨_, rfl, rfl⟩ := ends_addPlaceholders.mp ended
  exact ⟨Netlist.grows_pushPlaceholders _ width, Netlist.blank_pushPlaceholders _ width (low _ holds)⟩

theorem adds_rewireBus {source target : Bus} (blank : ∀ netlist, pre netlist → netlist.Blank base source) :
    Adds pre (rewireBus source target) fun _ netlist => Tied base netlist source target := by
  intro bench result after holds ended
  obtain ⟨netlist, rewired, rfl⟩ := ends_rewireBus.mp ended
  obtain ⟨same, rewires⟩ := Netlist.rewireBus_eq_ok rewired
  have grows := rewires.grows (blank _ holds)
  exact ⟨grows, same, (blank _ holds).extends grows.toExtends, rewires.each⟩

theorem adds_refuseAs {f : Refusal → Refusal} {build : Build α} (h : Adds pre build post) :
    Adds pre (refuseAs f build) post :=
  fun bench result after holds ended => h bench result after holds (ends_refuseAs.mp ended)

/-- A lasting property is kept by the way. -/
theorem Adds.keeps {P : Netlist → Prop} {build : Build α} (lasting : Lasting P) (h : Adds pre build post)
    (holds : ∀ netlist, pre netlist → P netlist) :
    Adds pre build fun result netlist => P netlist ∧ post result netlist := by
  intro bench result after here ended
  obtain ⟨grows, reached⟩ := h bench result after here ended
  exact ⟨grows, lasting _ _ grows (holds _ here), reached⟩

theorem adds_then {mid : β → Netlist → Prop} {first : Build β} {rest : β → Build α} (h : Adds pre first mid)
    (h' : ∀ middle, Adds (mid middle) (rest middle) post) : Adds pre (first >>= rest) post := by
  intro bench result after holds ended
  obtain ⟨middle, bench', ended, ended'⟩ := ends_bind.mp ended
  obtain ⟨grows, established⟩ := h bench middle bench' holds ended
  obtain ⟨grows', reached⟩ := h' middle bench' result after established ended'
  exact ⟨grows.trans grows', reached⟩

/-- What the first part has established may be used of the netlist at the end. -/
theorem adds_bind {mid : β → Netlist → Prop} {first : Build β} {rest : β → Build α} (lasting : Lasting pre)
    (h : Adds pre first mid) (kept : ∀ middle, Lasting (mid middle))
    (h' : ∀ middle, Adds pre (rest middle) fun result netlist => mid middle netlist → post result netlist) :
    Adds pre (first >>= rest) post := by
  refine adds_then (h.keeps lasting fun _ holds => holds) fun middle => ?_
  have second : Adds (fun netlist => pre netlist ∧ mid middle netlist) (rest middle) _ :=
    (h' middle).strengthen fun _ both => both.1
  exact (second.keeps (kept middle) fun _ both => both.2).weaken fun _ _ reached => reached.2 reached.1

/-- What the first part has established may be used by the second part. -/
theorem adds_keep {mid : β → Netlist → Prop} {first : Build β} {rest : β → Build α} (lasting : Lasting pre)
    (h : Adds pre first mid)
    (h' : ∀ middle, Adds (fun netlist => pre netlist ∧ mid middle netlist) (rest middle) post) :
    Adds pre (first >>= rest) post :=
  adds_then (h.keeps lasting fun _ holds => holds) h'

theorem adds_seq {first : Build β} {rest : β → Build α} (lasting : Lasting pre)
    (h : Adds pre first fun _ _ => True) (h' : ∀ middle, Adds pre (rest middle) post) :
    Adds pre (first >>= rest) post :=
  adds_bind lasting h (fun _ => lasting_const True) fun middle => (h' middle).weaken fun _ _ reached _ => reached

theorem adds_ofFault_bind {given : Except Fault β} {rest : β → Build α}
    (h : ∀ middle, given = .ok middle → Adds pre (rest middle) post) : Adds pre (ofFault given >>= rest) post := by
  intro bench result after holds ended
  obtain ⟨middle, bench', ended, ended'⟩ := ends_bind.mp ended
  obtain ⟨given_eq, rfl⟩ := ends_ofFault.mp ended
  exact h middle given_eq bench' result after holds ended'

theorem adds_ofRefusal_bind {given : Except Refusal β} {rest : β → Build α}
    (h : ∀ middle, given = .ok middle → Adds pre (rest middle) post) : Adds pre (ofRefusal given >>= rest) post := by
  intro bench result after holds ended
  obtain ⟨middle, bench', ended, ended'⟩ := ends_bind.mp ended
  obtain ⟨given_eq, rfl⟩ := ends_ofRefusal.mp ended
  exact h middle given_eq bench' result after holds ended'

theorem adds_ofFault {given : Except Fault α}
    (h : ∀ result netlist, given = .ok result → pre netlist → post result netlist) :
    Adds pre (ofFault given) post := by
  intro bench result after holds ended
  obtain ⟨given_eq, rfl⟩ := ends_ofFault.mp ended
  exact ⟨.refl _, h _ _ given_eq holds⟩

/-- A report leaves the netlist alone. -/
theorem adds_reported {event : Event} : Adds pre (report event) fun _ => pre := by
  intro bench result after holds ended
  rw [ends_report.mp ended]
  exact ⟨.refl _, holds⟩

theorem adds_report {event : Event} : Adds pre (report event) fun _ _ => True :=
  adds_reported.weaken fun _ _ _ => trivial

theorem adds_label {name? : Option String} {bus : Bus} : Adds (From base) (label name? bus) fun _ _ => True := by
  cases name? with
  | none => exact adds_pure fun _ _ => trivial
  | some name =>
    exact adds_seq lasting_from ((adds_add fun _ low => low).weaken fun _ _ _ => trivial) fun _ =>
      adds_pure fun _ _ => trivial

theorem adds_mapM {f : α → Build β} {l : List α} {post : α → β → Netlist → Prop} (lasting : Lasting pre)
    (kept : ∀ x y, Lasting (post x y)) (each : ∀ x ∈ l, Adds pre (f x) (post x)) :
    Adds pre (l.mapM f) fun results netlist => List.Forall₂ (fun x y => post x y netlist) l results := by
  induction l with
  | nil => exact adds_pure fun _ _ => .nil
  | cons x rest ih =>
    rw [List.mapM_cons]
    refine adds_bind lasting (each x List.mem_cons_self) (kept x) fun y => ?_
    refine adds_bind lasting (ih fun other member => each other (List.mem_cons_of_mem x member))
      (fun _ => lasting_forall₂ kept) fun ys => ?_
    exact adds_pure fun _ _ tail head => .cons head tail

/-- The invariant speaks of the rounds gone by. -/
theorem adds_rounds (inv : List α → σ → Netlist → Prop) {f : σ → α → Build σ} (l : List α) (init : σ)
    (round : ∀ done x rest state, l = done ++ x :: rest → Adds (inv done state) (f state x) (inv (done ++ [x]))) :
    Adds (inv [] init) (l.foldlM f init) (inv l) := by
  suffices from_here : ∀ rest done state, l = done ++ rest →
      Adds (inv done state) (rest.foldlM f state) (inv l) from from_here l [] init rfl
  intro rest
  induction rest with
  | nil =>
    intro done state all
    rw [List.append_nil] at all
    subst all
    exact adds_pure fun _ holds => holds
  | cons x rest ih =>
    intro done state all
    rw [List.foldlM_cons]
    refine adds_then (round done x rest state all) fun middle => ?_
    exact ih (done ++ [x]) middle (by rw [all, List.append_assoc, List.singleton_append])

theorem adds_foldlM {f : σ → α → Build σ} {init : σ} (lasting : Lasting pre) (l : List α)
    (inv : List α → σ → Netlist → Prop) (start : ∀ netlist, pre netlist → inv [] init netlist)
    (round : ∀ done x rest state, l = done ++ x :: rest →
      Adds (fun netlist => pre netlist ∧ inv done state netlist) (f state x) (inv (done ++ [x]))) :
    Adds pre (l.foldlM f init) (inv l) := by
  have rounds := adds_rounds (fun done state netlist => pre netlist ∧ inv done state netlist) l init
    fun done x rest state all => (round done x rest state all).keeps lasting fun _ holds => holds.1
  exact (rounds.strengthen fun netlist holds => ⟨holds, start netlist holds⟩).weaken fun _ _ holds => holds.2

/-- The invariant speaks of the results so far. -/
theorem adds_results (inv : List β → Netlist → Prop) {f : α → Build β} (l : List α)
    (each : ∀ done, ∀ x ∈ l, Adds (inv done) (f x) fun y => inv (done ++ [y])) : Adds (inv []) (l.mapM f) inv := by
  suffices from_here : ∀ done, Adds (inv done) (l.mapM f) fun ys => inv (done ++ ys) from from_here []
  induction l with
  | nil =>
    intro done
    exact adds_pure fun netlist holds => by simpa using holds
  | cons x rest ih =>
    intro done
    rw [List.mapM_cons]
    refine adds_then (each done x List.mem_cons_self) fun y => ?_
    refine adds_then (ih (fun done other member => each done other (List.mem_cons_of_mem x member)) (done ++ [y]))
      fun ys => adds_pure fun netlist holds => ?_
    rwa [List.append_assoc, List.singleton_append] at holds

theorem adds_forM {f : α → Build Unit} {post : α → Netlist → Prop} {l : List α} (lasting : Lasting pre)
    (kept : ∀ x, Lasting (post x)) (each : ∀ x ∈ l, Adds pre (f x) fun _ => post x) :
    Adds pre (l.forM f) fun _ netlist => ∀ x ∈ l, post x netlist := by
  induction l with
  | nil => exact adds_pure fun _ _ x member => absurd member List.not_mem_nil
  | cons x rest ih =>
    change Adds pre (f x >>= fun _ => rest.forM f) _
    refine adds_bind lasting (each x List.mem_cons_self) (fun _ => kept x) fun _ => ?_
    refine (ih fun other member => each other (List.mem_cons_of_mem x member)).weaken ?_
    intro _ netlist later here other member
    rcases List.mem_cons.mp member with rfl | member
    · exact here
    · exact later other member

end BankedMemory.Storage.Build
