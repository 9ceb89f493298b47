import BankedMemory.Proofs.Legibility.Buses
import BankedMemory.Proofs.Legibility.Plain
import BankedMemory.Proofs.Legibility.Strings

/-!
# Memories can be read

The block of a memory leaves out what stands for itself: a mask that selects every bit, an enable that is always
active, an initial word that is unknown throughout, and initial rows behind the last one that is neither all zero nor
all unknown. The first and the third are found again from the widths around them; of the enable and of the rows only
a plain form is found.
-/

namespace BankedMemory

/-- The line of an initial row. -/
def Bits.rowText (row : Bits) : String := "    init " ++ row.text ++ "\n"

/-- The line of an attribute. -/
def attributeText (entry : String × String) : String :=
  "    attr " ++ Text.quote entry.1 ++ " = " ++ Text.quote entry.2 ++ "\n"

namespace Reading

def row : Reading Bits := do
  literal "    init "
  let bits ← word
  literal "\n"
  return bits

def mask : Reading Bus := do
  literal " mask="
  bus

def writePort : Reading WritePort := do
  literal "    write addr="
  let addr ← bus
  literal " data="
  let data ← bus
  let given ← optional mask
  let clock ← control "clk"
  literal "\n"
  return ⟨addr, data, given.getD (List.replicate data.length .one), clock⟩

def initialWord : Reading Bits := do
  literal " init="
  word

def relation : Reading Visibility :=
  (do literal "undef"; return .undefined) <|> (do literal "rdfirst"; return .before) <|>
    (do literal "trans"; return .after)

def relations : Reading (List Visibility) :=
  (do
    let first ← relation
    let others ← many do
      literal " "
      relation
    return first :: others) <|> pure []

/-- The register of a read port of a known width. -/
def register (width : Nat) : Reading Register := do
  let clock ← control "clk"
  let enable ← optional (control "en")
  let init ← optional initialWord
  literal " ["
  let visibility ← relations
  literal "]"
  return ⟨clock, enable.getD (.high .one), init.getD (Bits.unknowns width), visibility⟩

def readPort : Reading ReadPort := do
  literal "    read addr="
  let addr ← bus
  literal " width=#"
  let width ← number
  let register ← optional (register width)
  literal "\n"
  return ⟨addr, width, register⟩

def entry : Reading (String × String) := do
  literal "    attr "
  let name ← quoted
  literal " = "
  let value ← quoted
  literal "\n"
  return (name, value)

def memory : Reading Memory := do
  literal "depth=#"
  let depth ← number
  literal " width=#"
  let width ← number
  literal " \x7b\n"
  let rows ← many row
  let writePorts ← many writePort
  let readPorts ← many readPort
  let attributes ← many entry
  literal "\x7d"
  return ⟨depth, width, (Memory.filledRows depth width rows).flatten, attributes, writePorts, readPorts⟩

variable {α β : Type} {rest : List Char}

/-- A list of equal members is known by its length. -/
theorem getD_of_uniform {hidden : Prop} [Decidable hidden] {word : List α} {x : α} {width : Nat}
    (wide : word.length = width) (uniform : hidden → ∀ y ∈ word, y = x) :
    (if hidden then none else some word).getD (List.replicate width x) = word := by
  split
  · rename_i left_out
    exact (List.eq_replicate_iff.mpr ⟨wide, uniform left_out⟩).symm
  · rfl

theorem spaced_optional {hidden : Prop} [Decidable hidden] {s : String} (start : Spaced s.toList)
    (spaced : Spaced rest) : Spaced ((if hidden then "" else s).toList ++ rest) := by
  split
  · exact spaced
  · exact start.append rest

/-- What is refused before each part of a list, and behind the list, is refused before the list. -/
theorem refused_flatMap {reading : Reading α} {text : β → List Char} {parts : List β}
    (each : ∀ part ∈ parts, ∀ rest, reading (text part ++ rest) = none) (last : reading rest = none) :
    reading (parts.flatMap text ++ rest) = none := by
  cases parts with
  | nil => exact last
  | cons part parts =>
    rw [List.flatMap_cons, List.append_assoc]
    exact each part List.mem_cons_self _

theorem takes_relation (seen : Visibility) : Takes relation seen.text.toList seen rest := by
  cases seen with
  | undefined => exact (takes_literal "undef").return.left
  | before => exact Takes.right rfl (takes_literal "rdfirst").return.left
  | after => exact Takes.right rfl (Takes.right rfl (takes_literal "trans").return)

theorem intercalate_cons (separator first : List α) (others : List (List α)) :
    separator.intercalate (first :: others) = first ++ others.flatMap (separator ++ ·) := by
  induction others generalizing first with
  | nil => simp
  | cons second others ih =>
    rw [List.intercalate_cons_cons, ih, List.flatMap_cons, List.append_assoc, List.append_assoc]

theorem takes_relations (seen : List Visibility) :
    Takes relations (" ".intercalate (seen.map Visibility.text)).toList seen ("]".toList ++ rest) := by
  cases seen with
  | nil => exact Takes.right rfl takes_pure
  | cons first others =>
    have text : (" ".intercalate ((first :: others).map Visibility.text)).toList =
        first.text.toList ++ others.flatMap fun seen => " ".toList ++ seen.text.toList := by
      rw [String.toList_intercalate, List.map_map, List.map_cons, intercalate_cons, List.flatMap_map]
      rfl
    have others_read : Takes (many do literal " "; relation)
        (others.flatMap fun seen => " ".toList ++ seen.text.toList) (others.map fun seen => seen)
        ("]".toList ++ rest) :=
      takes_lines (fun seen _ _ => Takes.after (takes_relation seen)) rfl rfl
    rw [List.map_id'] at others_read
    rw [text]
    exact ((takes_relation first).bind others_read.return).left

theorem takes_row {bits : Bits} (some_bit : bits ≠ []) : Takes row bits.rowText.toList bits rest := by
  rw [Bits.rowText, String.toList_append, String.toList_append, List.append_assoc]
  unfold row
  exact Takes.after (Takes.bind (takes_word some_bit (Spaced.line rest).not_trit) (takes_literal "\n").return)

theorem toList_attributeText (given : String × String) : (attributeText given).toList = "    attr ".toList ++
    ((Text.quote given.1).toList ++ (" = ".toList ++ ((Text.quote given.2).toList ++ "\n".toList))) := by
  unfold attributeText
  simp only [String.toList_append, List.append_assoc]

theorem takes_entry (given : String × String) : Takes entry (attributeText given).toList given rest := by
  rw [toList_attributeText]
  unfold entry
  exact Takes.after ((takes_quoted _).bind (Takes.after ((takes_quoted _).bind (takes_literal "\n").return)))

end Reading

namespace Netlist

variable {netlist : Netlist} {rest : List Char}

open Reading

theorem toList_controlText (name : String) (given : Control) :
    ∃ later, (netlist.controlText name given).toList = ' ' :: (name.toList ++ '=' :: later) := by
  refine ⟨((if given.activeLow then "!" else "") ++ netlist.netText given.net).toList, ?_⟩
  simp only [controlText, String.toList_append, List.append_assoc]
  rfl

theorem spaced_controlText (name : String) (given : Control) : Spaced (netlist.controlText name given).toList := by
  obtain ⟨later, text⟩ := netlist.toList_controlText name given
  rw [text]
  exact .blank _

theorem toList_writePortText (port : WritePort) : (netlist.writePortText port).toList =
    "    write addr=".toList ++ ((netlist.busText port.addr).toList ++ (" data=".toList ++
      ((netlist.busText port.data).toList ++
        ((if port.mask.all (· = Net.one) then "" else " mask=" ++ netlist.busText port.mask).toList ++
          ((netlist.controlText "clk" port.clock).toList ++ "\n".toList))))) := by
  unfold writePortText
  simp only [String.toList_append, List.append_assoc]

/-- A mask that is left out selects every bit of the data. -/
theorem Reached.takes_writePort (reached : netlist.Reached) {port : WritePort}
    (wide : port.mask.length = port.data.length) :
    Takes writePort (netlist.writePortText port).toList port rest := by
  obtain ⟨later, clock_text⟩ := netlist.toList_controlText "clk" port.clock
  have clock_spaced : Spaced ((netlist.controlText "clk" port.clock).toList ++ "\n".toList) :=
    (netlist.spaced_controlText "clk" port.clock).append _
  have label_spaced : Spaced (" mask=" ++ netlist.busText port.mask).toList := by
    rw [String.toList_append]
    exact .blank _
  have mask_read : Takes (optional mask)
      (if port.mask.all (· = Net.one) then "" else " mask=" ++ netlist.busText port.mask).toList
      (if port.mask.all (· = Net.one) then none else some port.mask)
      (((netlist.controlText "clk" port.clock).toList ++ "\n".toList) ++ rest) := by
    refine takes_optional (fun _ => ?_) (fun _ => ?_)
    · rw [String.toList_append]
      exact Takes.after (reached.takes_bus _ (clock_spaced.append rest))
    · rw [clock_text]
      rfl
  have mask_value : (if port.mask.all (· = Net.one) then none else some port.mask).getD
      (List.replicate port.data.length Net.one) = port.mask :=
    getD_of_uniform wide fun all_one net member => of_decide_eq_true (List.all_eq_true.mp all_one net member)
  have clock_read : Takes (control "clk") (netlist.controlText "clk" port.clock).toList port.clock
      ("\n".toList ++ rest) := reached.takes_control "clk" _ (.line _)
  rw [toList_writePortText]
  unfold writePort
  refine Takes.after ((reached.takes_bus _ (.blank _)).bind (Takes.after ((reached.takes_bus _
    ((spaced_optional label_spaced clock_spaced).append rest)).bind (mask_read.bind ?_))))
  rw [mask_value]
  exact clock_read.bind (takes_literal "\n").return

theorem toList_registerText (given : Register) : (netlist.registerText given).toList =
    (netlist.controlText "clk" given.clock).toList ++
      ((if ¬given.hasEnable then "" else netlist.controlText "en" given.enable).toList ++
        ((if ¬given.hasInit then "" else " init=" ++ given.init.text).toList ++ (" [".toList ++
          ((" ".intercalate (given.visibility.map Visibility.text)).toList ++ "]".toList)))) := by
  unfold registerText
  simp only [String.toList_append, List.append_assoc, ite_not]

theorem plain_eq (given : Register) : given.plain =
    ⟨given.clock, (if ¬given.hasEnable then none else some given.enable).getD (.high .one), given.init,
      given.visibility⟩ := by
  unfold Register.plain
  rw [ite_not]
  split <;> rfl

/-- An initial word that is left out is unknown throughout. -/
theorem Reached.takes_register (reached : netlist.Reached) {given : Register} {width : Nat}
    (wide : given.init.length = width) :
    Takes (register width) (netlist.registerText given).toList given.plain rest := by
  have tail_spaced : Spaced (" [".toList ++ ((" ".intercalate (given.visibility.map Visibility.text)).toList ++
      "]".toList)) := .blank _
  have init_text : (" init=" ++ given.init.text).toList = " init=".toList ++ given.init.text.toList :=
    String.toList_append
  have init_spaced : Spaced (" init=" ++ given.init.text).toList := by
    rw [init_text]
    exact .blank _
  have init_read : Takes (optional initialWord) (if ¬given.hasInit then "" else " init=" ++ given.init.text).toList
      (if ¬given.hasInit then none else some given.init)
      (" [".toList ++ ((" ".intercalate (given.visibility.map Visibility.text)).toList ++ "]".toList) ++ rest) := by
    refine takes_optional (fun known => ?_) (fun _ => rfl)
    rw [init_text]
    refine Takes.after (takes_word ?_ (tail_spaced.append rest).not_trit)
    rintro empty
    simp [Register.hasInit, empty, Bits.isUnknown] at known
  have init_value : (if ¬given.hasInit then none else some given.init).getD (Bits.unknowns width) = given.init := by
    refine getD_of_uniform wide fun unknown bit member => ?_
    simp only [Register.hasInit, Bool.not_eq_true', Bool.not_eq_false, Bits.isUnknown] at unknown
    exact of_decide_eq_true (List.all_eq_true.mp unknown bit member)
  have enable_read : Takes (optional (control "en"))
      (if ¬given.hasEnable then "" else netlist.controlText "en" given.enable).toList
      (if ¬given.hasEnable then none else some given.enable)
      ((if ¬given.hasInit then "" else " init=" ++ given.init.text).toList ++ (" [".toList ++
        ((" ".intercalate (given.visibility.map Visibility.text)).toList ++ "]".toList)) ++ rest) := by
    refine takes_optional (fun _ => ?_) (fun _ => ?_)
    · exact reached.takes_control "en" _ ((spaced_optional init_spaced tail_spaced).append rest)
    · split
      · rfl
      · rw [init_text]
        rfl
  have enable_spaced := netlist.spaced_controlText "en" given.enable
  rw [plain_eq, toList_registerText]
  unfold register
  refine (reached.takes_control "clk" _ ((spaced_optional enable_spaced
    (spaced_optional init_spaced tail_spaced)).append rest)).bind (enable_read.bind (init_read.bind ?_))
  rw [init_value]
  exact Takes.after ((takes_relations _).bind (takes_literal "]").return)

theorem toList_readPortText (port : ReadPort) : (netlist.readPortText port).toList =
    "    read addr=".toList ++ ((netlist.busText port.addr).toList ++ (" width=#".toList ++
      ((toString port.width).toList ++
        (((port.register.map netlist.registerText).getD "").toList ++ "\n".toList)))) := by
  have text : netlist.readPortText port = "    read addr=" ++ netlist.busText port.addr ++
      (" width=#" ++ toString port.width) ++ (port.register.map netlist.registerText).getD "" ++ "\n" := by
    unfold readPortText
    cases port.register <;> rfl
  rw [text]
  simp only [String.toList_append, List.append_assoc]

theorem Reached.takes_readPort (reached : netlist.Reached) {port : ReadPort}
    (wide : ∀ register, port.register = some register → register.init.length = port.width) :
    Takes readPort (netlist.readPortText port).toList port.plain rest := by
  have register_read : Takes (optional (register port.width))
      ((port.register.map netlist.registerText).getD "").toList (port.register.map Register.plain)
      ("\n".toList ++ rest) := by
    cases registered : port.register with
    | none => exact takes_missing rfl
    | some given => exact (reached.takes_register (wide given registered)).given
  have register_spaced : Spaced (((port.register.map netlist.registerText).getD "").toList ++ "\n".toList) := by
    cases port.register with
    | none => exact .line _
    | some given =>
      show Spaced ((netlist.registerText given).toList ++ _)
      rw [toList_registerText]
      exact ((netlist.spaced_controlText "clk" given.clock).append _).append _
  rw [toList_readPortText]
  unfold readPort
  exact Takes.after ((reached.takes_bus _ (.blank _)).bind (Takes.after ((takes_number
    (register_spaced.append rest).not_digit).bind (register_read.bind (takes_literal "\n").return))))

theorem toList_memoryText (given : Memory) : (netlist.memoryText given).toList =
    "memory".toList ++ (" ".toList ++ ("depth=#".toList ++ ((toString given.depth).toList ++ (" width=#".toList ++
      ((toString given.width).toList ++ (" \x7b\n".toList ++
        ((shownRows given).flatMap (fun row => row.rowText.toList) ++
          (given.writePorts.flatMap (fun port => (netlist.writePortText port).toList) ++
            (given.readPorts.flatMap (fun port => (netlist.readPortText port).toList) ++
              (given.attributes.flatMap (fun entry => (attributeText entry).toList) ++ "\x7d".toList)))))))))) := by
  have text : netlist.memoryText given = "memory" ++ " " ++ "depth=#" ++ toString given.depth ++ " width=#" ++
      toString given.width ++ " \x7b\n" ++ String.join ((shownRows given).map Bits.rowText) ++
      String.join (given.writePorts.map netlist.writePortText) ++
      String.join (given.readPorts.map netlist.readPortText) ++
      String.join (given.attributes.map attributeText) ++ "\x7d" := rfl
  rw [text]
  simp only [String.toList_append, String.toList_join, List.flatMap_map, List.append_assoc]

section Blocks

variable {α : Type} {reading : Reading α} {given : Memory}

theorem refused_attributes (entry : ∀ s, reading ("    attr ".toList ++ s) = none)
    (last : reading ("\x7d".toList ++ rest) = none) :
    reading (given.attributes.flatMap (fun entry => (attributeText entry).toList) ++ "\x7d".toList ++ rest) = none := by
  rw [List.append_assoc]
  refine refused_flatMap (fun _ _ s => ?_) last
  rw [toList_attributeText, List.append_assoc]
  exact entry _

theorem refused_readPorts (read : ∀ s, reading ("    read addr=".toList ++ s) = none)
    (entry : ∀ s, reading ("    attr ".toList ++ s) = none) (last : reading ("\x7d".toList ++ rest) = none) :
    reading (given.readPorts.flatMap (fun port => (netlist.readPortText port).toList) ++
      (given.attributes.flatMap (fun entry => (attributeText entry).toList) ++ "\x7d".toList) ++ rest) = none := by
  rw [List.append_assoc]
  refine refused_flatMap (fun port _ s => ?_) (refused_attributes entry last)
  rw [toList_readPortText, List.append_assoc]
  exact read _

theorem refused_writePorts (write : ∀ s, reading ("    write addr=".toList ++ s) = none)
    (read : ∀ s, reading ("    read addr=".toList ++ s) = none)
    (entry : ∀ s, reading ("    attr ".toList ++ s) = none) (last : reading ("\x7d".toList ++ rest) = none) :
    reading (given.writePorts.flatMap (fun port => (netlist.writePortText port).toList) ++
      (given.readPorts.flatMap (fun port => (netlist.readPortText port).toList) ++
        (given.attributes.flatMap (fun entry => (attributeText entry).toList) ++ "\x7d".toList)) ++ rest) = none := by
  rw [List.append_assoc]
  refine refused_flatMap (fun port _ s => ?_) (refused_readPorts read entry last)
  rw [toList_writePortText, List.append_assoc]
  exact write _

end Blocks

/-- The block of a memory that passes its check tells the memory up to what its plain form leaves open. -/
theorem Reached.takes_memory (reached : netlist.Reached) {given : Memory} (checked : given.Checked) :
    ∃ block, (netlist.memoryText given).toList = "memory".toList ++ (" ".toList ++ block) ∧
      ∀ rest, Takes memory block given.plain rest := by
  refine ⟨_, netlist.toList_memoryText given, fun rest => ?_⟩
  have attributes_read : Takes (many entry) (given.attributes.flatMap fun entry => (attributeText entry).toList)
      (given.attributes.map fun entry => entry) ("\x7d".toList ++ rest) :=
    takes_lines (fun given _ _ => takes_entry given) rfl rfl
  rw [List.map_id'] at attributes_read
  have reads_read : Takes (many readPort) (given.readPorts.flatMap fun port => (netlist.readPortText port).toList)
      (given.readPorts.map ReadPort.plain)
      ((given.attributes.flatMap fun entry => (attributeText entry).toList) ++ "\x7d".toList ++ rest) :=
    takes_lines (fun port member rest => reached.takes_readPort fun register registered =>
      (checked.registers port member register registered).init) rfl (refused_attributes (fun _ => rfl) rfl)
  have writes_read : Takes (many writePort) (given.writePorts.flatMap fun port => (netlist.writePortText port).toList)
      (given.writePorts.map fun port => port)
      (given.readPorts.flatMap (fun port => (netlist.readPortText port).toList) ++
        ((given.attributes.flatMap fun entry => (attributeText entry).toList) ++ "\x7d".toList) ++ rest) :=
    takes_lines (fun port member rest => reached.takes_writePort
      ((checked.writes port member).2.trans (checked.writes port member).1.symm)) rfl
      (refused_readPorts (fun _ => rfl) (fun _ => rfl) rfl)
  rw [List.map_id'] at writes_read
  have rows_read : Takes (many row) ((shownRows given).flatMap fun row => row.rowText.toList)
      ((shownRows given).map fun row => row)
      (given.writePorts.flatMap (fun port => (netlist.writePortText port).toList) ++
        (given.readPorts.flatMap (fun port => (netlist.readPortText port).toList) ++
          ((given.attributes.flatMap fun entry => (attributeText entry).toList) ++ "\x7d".toList)) ++ rest) :=
    takes_lines (fun bits member rest => takes_row (checked.ne_nil_of_mem_shownRows bits member)) rfl
      (refused_writePorts (fun _ => rfl) (fun _ => rfl) (fun _ => rfl) rfl)
  rw [List.map_id'] at rows_read
  unfold memory
  exact Takes.after ((takes_number (by simp)).bind (Takes.after ((takes_number (by simp)).bind (Takes.after
    (rows_read.bind (writes_read.bind (reads_read.bind (attributes_read.bind
      (takes_literal "\x7d").return))))))))

end Netlist

end BankedMemory
