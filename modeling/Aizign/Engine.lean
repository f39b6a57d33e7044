import Aizign.Workflow

/-!
# The control-journal port

What the engine sees of a journal: entries and the errors a journal operation
ends with.
-/

namespace Aizign

def maxJournalEntries : Nat := 10000

structure JournalEntry where
  seq : Nat
  «at» : BoundedTimestamp
  event : WorkflowEvent
  deriving DecidableEq

inductive JournalError
  | unavailable (detail : Text)
  | locked
  | schemaUnsupported (found : Nat)
  | corrupt (detail : Text)
  | boundExceeded (max : Nat)
  | outcomeUnknown (detail : Text)
  deriving DecidableEq

def JournalError.code : JournalError → Text
  | .unavailable _ => "JOURNAL_UNAVAILABLE".toList
  | .locked => "JOURNAL_LOCKED".toList
  | .schemaUnsupported _ => "JOURNAL_SCHEMA_UNSUPPORTED".toList
  | .corrupt _ => "JOURNAL_CORRUPT".toList
  | .boundExceeded _ => "JOURNAL_BOUND_EXCEEDED".toList
  | .outcomeUnknown _ => "JOURNAL_OUTCOME_UNKNOWN".toList

def JournalError.text : JournalError → Text
  | .unavailable d => "journal unavailable: ".toList ++ d
  | .locked => "journal is locked by another process".toList
  | .schemaUnsupported f => "journal/store schema version ".toList ++ decimal f ++ " is not supported".toList
  | .corrupt d => "journal is corrupt: ".toList ++ d
  | .boundExceeded m => "journal exceeds the cold-read bound of ".toList ++ decimal m ++ " entries".toList
  | .outcomeUnknown d => "append outcome unknown: ".toList ++ d

def JournalError.isOutcomeUnknown : JournalError → Bool
  | .outcomeUnknown _ => true
  | _ => false

def JournalError.isRefusal : JournalError → Bool
  | .schemaUnsupported _ | .corrupt _ | .boundExceeded _ => true
  | _ => false

theorem JournalError.known_of_refusal {e : JournalError} (h : e.isRefusal = true) : e.isOutcomeUnknown = false := by
  cases e with
  | outcomeUnknown d => cases h
  | _ => rfl

end Aizign
