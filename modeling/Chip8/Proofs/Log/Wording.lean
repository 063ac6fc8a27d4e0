import Chip8.Log
import Mathlib.Data.List.Infix

/-!
# Events told by their lines

A line of the log says of what severity it is and what happened, and that is enough to tell the events
apart that matter for the course of a run. Each of those kinds has a reading of events
(`Event.dispatch?` and on) and a wording of lines, and the lemmas here say that the two agree.

* `tells_line_iff`: a line begins with the label and the first words of its own event only.
* `tells_dispatch_line`, `tells_halt_line`, `tells_skip_line`, `tells_wait_line`, `tellsDelivery_line`:
  the kinds told from a line are the kinds of its event.
* `filter_lines_trace`, `countP_lines_trace`: the same of whole logs.
-/

namespace Chip8.Log

/-- Whether a line has the label of a severity and goes on with the given words. -/
def tells (severity : Severity) (words line : String) : Bool :=
  line.startsWith (severity.label ++ " " ++ words)

/-- Whether a line tells of a key press that ended a wait. -/
def tellsDelivery (line : String) : Bool :=
  tells .debug "key " line && line.contains "resumed execution"

namespace Event

/-- The instruction that is about to be carried out: where it is, its opcode and its operation. -/
def dispatch? : Event → Option (UInt16 × Opcode × Operation)
  | dispatched pc w operation => some (pc, w, operation)
  | _ => none

/-- The fault that a console stops for. -/
def halt? : Event → Option Fault
  | halting fault => some fault
  | _ => none

/-- Whether a console goes past an instruction. -/
def isSkip : Event → Bool
  | skipping _ => true
  | _ => false

/-- Whether a wait for a key begins. -/
def isWait : Event → Bool
  | awaitingKey _ => true
  | _ => false

/-- Whether a key press ends a wait. -/
def isDelivery : Event → Bool
  | keyDelivered _ _ => true
  | _ => false

end Event

/-! ## Labels and first words -/

/-- A label tells its severity, so that what begins alike has the same severity and the same first
words. -/
theorem label_append_prefix_iff (s t : Severity) (first second : List Char) :
    (s.label ++ " ").toList ++ first <+: (t.label ++ " ").toList ++ second ↔
      s = t ∧ first <+: second := by
  by_cases hst : s = t
  · rw [hst, List.prefix_append_right_inj, and_iff_right rfl]
  · -- no two labels have the same first character
    have hlabels : ¬(s.label ++ " ").toList ++ first <+: (t.label ++ " ").toList ++ second := by
      cases s <;> cases t <;> simp [Severity.label] at hst ⊢
    exact iff_of_false hlabels fun h => hst h.1

/-- A line begins with the label and the first words of its own event only. -/
theorem tells_line_iff (severity : Severity) (words : String) (event : Event) :
    tells severity words event.line = true ↔
      severity = event.severity ∧ words.toList <+: event.text.toList := by
  have hwords : (severity.label ++ " " ++ words).toList =
      (severity.label ++ " ").toList ++ words.toList := String.toList_append
  have hline : event.line.toList = (event.severity.label ++ " ").toList ++ event.text.toList :=
    String.toList_append
  rw [tells, String.startsWith_string_iff, hwords, hline, label_append_prefix_iff]

/-- A trace line is that of an instruction. -/
theorem tells_dispatch_line (event : Event) :
    tells .trace "" event.line = event.dispatch?.isSome := by
  rw [Bool.eq_iff_iff, tells_line_iff]
  cases event <;> simp [Event.severity, Event.dispatch?]

/-- An error is that of a console that stops. -/
theorem tells_halt_line (event : Event) : tells .error "" event.line = event.halt?.isSome := by
  rw [Bool.eq_iff_iff, tells_line_iff]
  cases event <;> simp [Event.severity, Event.halt?]

/-- A warning that something is skipped is that of an instruction passed over. -/
theorem tells_skip_line (event : Event) :
    tells .warn "skipping: " event.line = event.isSkip := by
  rw [Bool.eq_iff_iff, tells_line_iff]
  cases event with
  | skipping fault =>
    have htext : (Event.skipping fault).text = "skipping: " ++ fault.message := rfl
    simp [Event.severity, Event.isSkip, htext]
  -- the other warning begins with other words
  | routineIgnored target =>
    have htext : (Event.routineIgnored target).text =
        "ignoring machine code routine at " ++ Hexadecimal.address target := rfl
    simp [Event.severity, Event.isSkip, htext]
  | _ => simp [Event.severity, Event.isSkip]

section Debug

variable (size : Nat) (key : Key) (register : RegisterIndex)

/-- Of the message after loading only the first word matters. -/
theorem toList_text_loaded : ∃ rest, (Event.loaded size).text.toList = "loaded ".toList ++ rest := by
  have htext : (Event.loaded size).text = "loaded " ++ toString size ++ " byte program at " ++
      Hexadecimal.address (UInt16.ofNat Memory.programStart) := rfl
  rw [htext, String.append_assoc, String.append_assoc, String.toList_append]
  exact ⟨_, rfl⟩

/-- The message at the beginning of a wait. -/
theorem text_awaitingKey :
    (Event.awaitingKey register).text =
      "waiting for a key press into V" ++ Hexadecimal.name register := rfl

/-- The message at the end of a wait. -/
theorem text_keyDelivered :
    (Event.keyDelivered key register).text =
      "key " ++ Hexadecimal.name key ++ " resumed execution into V" ++ Hexadecimal.name register :=
  rfl

/-- A message that a key is awaited is that of a wait that begins. -/
theorem tells_wait_line (event : Event) :
    tells .debug "waiting for a key press" event.line = event.isWait := by
  rw [Bool.eq_iff_iff, tells_line_iff]
  cases event with
  | loaded size =>
    obtain ⟨rest, hrest⟩ := toList_text_loaded size
    simp [Event.severity, Event.isWait, hrest]
  | awaitingKey register => simp [Event.severity, Event.isWait, text_awaitingKey]
  | keyDelivered key register => simp [Event.severity, Event.isWait, text_keyDelivered]
  | _ => simp [Event.severity, Event.isWait]

/-- The message at the end of a wait has the words by which it is found. -/
theorem contains_line_keyDelivered :
    (Event.keyDelivered key register).line.contains "resumed execution" = true := by
  have hwords : " resumed execution into V".toList =
      " ".toList ++ "resumed execution".toList ++ " into V".toList := by decide
  have htext : (Event.keyDelivered key register).text.toList =
      ("key " ++ Hexadecimal.name key).toList ++
        (" ".toList ++ "resumed execution".toList ++ " into V".toList) ++
        (Hexadecimal.name register).toList := by
    rw [text_keyDelivered, String.toList_append, String.toList_append, hwords]
  rw [String.contains_string_iff, Event.line, String.toList_append, htext]
  exact (List.infix_append _ _ _).trans
    ((List.infix_append _ _ _).trans (List.suffix_append _ _).isInfix)

/-- A message that a key was pressed is that of a wait that ends. -/
theorem tellsDelivery_line (event : Event) : tellsDelivery event.line = event.isDelivery := by
  rw [Bool.eq_iff_iff, tellsDelivery, Bool.and_eq_true, tells_line_iff]
  cases event with
  | loaded size =>
    obtain ⟨rest, hrest⟩ := toList_text_loaded size
    simp [Event.severity, Event.isDelivery, hrest]
  | awaitingKey register => simp [Event.severity, Event.isDelivery, text_awaitingKey]
  | keyDelivered key register =>
    simp [Event.severity, Event.isDelivery, text_keyDelivered, contains_line_keyDelivered]
  | _ => simp [Event.severity, Event.isDelivery]

end Debug

section Line

variable {event : Event}

/-- The line of an instruction has its place, its opcode and its mnemonic. -/
theorem line_of_dispatch? {pc : UInt16} {w : Opcode} {operation : Operation}
    (h : event.dispatch? = some (pc, w, operation)) :
    event.line = "TRACE " ++ Hexadecimal.address pc ++ ": " ++ Hexadecimal.word w.word ++ " " ++
      operation.mnemonic := by
  cases event with
  | dispatched =>
    cases h
    have hlabel : Severity.trace.label ++ " " = "TRACE " := by decide
    have htext : (Event.dispatched pc w operation).text =
        Hexadecimal.address pc ++ ": " ++ Hexadecimal.word w.word ++ " " ++ operation.mnemonic := rfl
    rw [Event.line, Event.severity, hlabel, htext]
    simp only [String.append_assoc]
  | _ => cases h

/-- The line of a fault has its wording. -/
theorem line_of_halt? {fault : Fault} (h : event.halt? = some fault) :
    event.line = "ERROR halting: " ++ fault.message := by
  cases event with
  | halting =>
    cases h
    have hlabel : Severity.error.label ++ " " ++ "halting: " = "ERROR halting: " := by decide
    have htext : (Event.halting fault).text = "halting: " ++ fault.message := rfl
    rw [Event.line, Event.severity, htext, ← String.append_assoc, hlabel]
  | _ => cases h

end Line

/-! ## The lines of a log -/

/-- One who listens to everything hears a line for each event. -/
theorem lines_trace (events : List Event) : lines .trace events = events.map Event.line := by
  have hall : events.filter (fun event => Severity.trace.admits event.severity) = events := by
    refine List.filter_eq_self.2 fun event _ => ?_
    cases event <;> rfl
  rw [lines, hall]

section Lines

variable (events : List Event)

/-- As many lines are told to be of a kind as there are events of it. -/
theorem countP_lines_trace {told : String → Bool} {kind : Event → Bool}
    (h : ∀ event : Event, told event.line = kind event) :
    (lines .trace events).countP told = events.countP kind := by
  rw [lines_trace, List.countP_map]
  exact List.countP_congr fun event _ => by rw [Function.comp_apply, h]

/-- The lines that are told to be of a kind are those of its events. -/
theorem filter_lines_trace {α : Type} {told : String → Bool} {kind? : Event → Option α}
    (h : ∀ event : Event, told event.line = (kind? event).isSome) {print : α → String}
    (hprint : ∀ event a, kind? event = some a → event.line = print a) :
    (lines .trace events).filter told = (events.filterMap kind?).map print := by
  rw [lines_trace]
  induction events with
  | nil => rfl
  | cons event rest ih =>
    rw [List.map_cons, List.filter_cons, h, ih, List.filterMap_cons]
    cases hkind : kind? event with
    | none => rfl
    | some a => rw [hprint event a hkind]; rfl

/-- The lines of the finest severity are those of the instructions. -/
theorem filter_dispatch_lines_trace :
    (lines .trace events).filter (tells .trace "") =
      (events.filterMap Event.dispatch?).map fun (pc, w, operation) =>
        "TRACE " ++ Hexadecimal.address pc ++ ": " ++ Hexadecimal.word w.word ++ " " ++
          operation.mnemonic :=
  filter_lines_trace events tells_dispatch_line fun _ _ h => line_of_dispatch? h

end Lines

end Chip8.Log
