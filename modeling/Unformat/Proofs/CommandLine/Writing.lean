import Unformat.CommandLine.Run

/-!
# What a run of the program answers

A run writes rows of values and reports of faults, and log entries between them.  The answers are
what it writes besides log entries; the text for the standard output hangs on them alone.
-/

namespace Unformat.CommandLine

open Text (CharacterTable)

namespace Event

def isLog : Event → Bool
  | .log _ => true
  | _ => false

def isReport : Event → Bool
  | .report _ => true
  | _ => false

/-- What the event adds to the standard output. -/
def outputText : Event → String
  | .output text => text
  | _ => ""

theorem outputText_of_isLog {event : Event} (log : event.isLog = true) : event.outputText = "" := by
  cases event with
  | log entry => rfl
  | output text => cases log
  | report text => cases log

end Event

namespace Transcript

def answers (transcript : Transcript) : List Event :=
  transcript.events.filter fun event => !event.isLog

theorem after_after (first second : List Event) (transcript : Transcript) :
    (transcript.after second).after first = transcript.after (first ++ second) := by
  rw [Transcript.after, Transcript.after, Transcript.after, List.append_assoc]

@[simp] theorem exitCode_after (events : List Event) (transcript : Transcript) :
    (transcript.after events).exitCode = transcript.exitCode := rfl

theorem answers_after (events : List Event) (transcript : Transcript) :
    (transcript.after events).answers =
      events.filter (fun event => !event.isLog) ++ transcript.answers :=
  List.filter_append events transcript.events

theorem answers_after_of_logs {events : List Event} (logs : ∀ event ∈ events, event.isLog = true)
    (transcript : Transcript) : (transcript.after events).answers = transcript.answers := by
  have none : events.filter (fun event => !event.isLog) = [] :=
    List.filter_eq_nil_iff.mpr fun event member => by simp [logs event member]
  rw [answers_after, none, List.nil_append]

/-- Every report is written among the errors, under any verbosity. -/
theorem reports_eq (verbosity : Nat) (transcript : Transcript) :
    (transcript.events.filter (isVisible verbosity)).filter Event.isReport =
      transcript.answers.filter Event.isReport := by
  rw [answers, List.filter_filter, List.filter_filter]
  refine List.filter_congr fun event _ => ?_
  cases event <;> rfl

theorem outputText_eq (transcript : Transcript) :
    transcript.outputText = String.join (transcript.answers.map Event.outputText) := by
  have texts : transcript.outputText = String.join (transcript.events.map Event.outputText) := by
    apply congrArg String.join
    refine List.map_congr_left fun event _ => ?_
    cases event <;> rfl
  rw [texts, answers]
  induction transcript.events with
  | nil => rfl
  | cons event events ih =>
      by_cases log : event.isLog = true
      · rw [List.map_cons, String.join_cons, Event.outputText_of_isLog log, ih,
          List.filter_cons_of_neg (by simp [log]), String.empty_append]
      · rw [List.map_cons, String.join_cons, ih, List.filter_cons_of_pos (by simp [log]),
          List.map_cons, String.join_cons]

theorem outputText_after_of_logs {events : List Event}
    (logs : ∀ event ∈ events, event.isLog = true) (transcript : Transcript) :
    (transcript.after events).outputText = transcript.outputText := by
  rw [outputText_eq, outputText_eq, answers_after_of_logs logs]

end Transcript

/-! ## Where only log entries are written -/

theorem isLog_of_mem_ignoredSettings (settings : Settings) :
    ∀ event ∈ ignoredSettings settings, event.isLog = true := by
  unfold ignoredSettings
  split
  · exact List.forall_mem_singleton.mpr rfl
  · exact List.forall_mem_nil _

theorem isLog_of_mem_compilingOnce (settings : Settings) (scanner : Scanner) (first : Bool) :
    ∀ event ∈ compilingOnce settings scanner first, event.isLog = true := by
  unfold compilingOnce
  split
  · exact List.forall_mem_singleton.mpr rfl
  · exact List.forall_mem_nil _

theorem isLog_of_mem_converting {α : Type} (result : Except Scan.Stop α) :
    ∀ event ∈ converting result, event.isLog = true := by
  unfold converting
  split
  · exact List.forall_mem_singleton.mpr rfl
  · exact List.forall_mem_nil _

theorem isLog_of_mem_link (settings : Settings) (segments : List Segment) (rules : RuleList)
    (duration : String) :
    ∀ event ∈ (link settings segments rules duration).1, event.isLog = true := by
  unfold link
  split
  · exact List.forall_mem_singleton.mpr rfl
  · exact List.forall_mem_cons.mpr ⟨rfl, List.forall_mem_singleton.mpr rfl⟩

theorem isLog_of_mem_prepare [PatternEngine] [CharacterTable] (settings : Settings)
    (duration : String) :
    ∀ event ∈ (prepare settings duration).1, event.isLog = true := by
  unfold prepare
  split
  · exact List.forall_mem_nil _
  · next rules _ =>
      split
      · exact List.forall_mem_singleton.mpr rfl
      · next segments _ =>
          refine List.forall_mem_append.mpr ⟨List.forall_mem_cons.mpr ⟨rfl, ?_⟩, ?_⟩
          · exact isLog_of_mem_link settings segments rules duration
          · split
            · split
              · exact List.forall_mem_singleton.mpr rfl
              · exact List.forall_mem_nil _
            · exact List.forall_mem_nil _

/-! ## Reports -/

theorem Format.exists_report {α : Type} [Fault α] (format : Format) (place : String)
    (diagnostic : Diagnostic α) : ∃ text, format.report place diagnostic = .report text := by
  cases format <;> exact ⟨_, rfl⟩

/-- A program that cannot go on writes no values. -/
theorem outputText_abort (settings : Settings) (failure : Failure) :
    (abort settings failure).outputText = "" := by
  cases failure with
  | fault diagnostic =>
      obtain ⟨text, written⟩ := settings.format.exists_report "" diagnostic
      rw [abort, written]
      rfl
  | read failure => cases failure <;> rfl
  | _ => rfl

end Unformat.CommandLine
