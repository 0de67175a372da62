-- What an analysis tells while it runs, and the two things it leaves: its log and its result.
import SymbolicFrames.Analysis.Failure
import SymbolicFrames.Frame.Text

namespace SymbolicFrames

/-- How much a reader of the log has to care. -/
inductive Level where
  | warn | debug | trace
deriving DecidableEq

namespace Level

def text : Level → String
  | .warn => "WARN"
  | .debug => "DEBUG"
  | .trace => "TRACE"

def detail : Level → Nat
  | .warn => 0
  | .debug => 1
  | .trace => 2

/-- Whether a reader who asks for this level is shown the other one. -/
def shows (asked other : Level) : Bool := decide (other.detail ≤ asked.detail)

end Level

inductive Event where
  | started (method : String) (instructions blocks : Nat)
  | visiting (block : BlockId) (frame : Frame)
  | entryChanged (block : BlockId)
  | finished (method : String) (visits : Nat)
  | skipped (error : AnalysisError)
deriving DecidableEq

namespace Event

def level : Event → Level
  | .skipped _ => .warn
  | .started .. | .finished .. => .debug
  | .visiting .. | .entryChanged _ => .trace

def text : Event → String
  | .started method instructions blocks =>
    String.join
      ["analyzing ", method, " (", toString instructions, " instructions, ", toString blocks,
        " blocks)"]
  | .visiting block frame => String.join ["visiting ", blockText block, " with ", frame.text]
  | .entryChanged block => String.join ["entry frame of ", blockText block, " changed"]
  | .finished method visits =>
    String.join ["analyzed ", method, " in ", toString visits, " block visits"]
  | .skipped error => String.join ["skipping unanalyzable method: ", error.message]

/-- The events that a reader who asks for the level is shown. -/
def shownAt (level : Level) (log : List Event) : List Event :=
  log.filter fun event => level.shows event.level

end Event

/-- The events of a computation in order, and what came out of it. -/
structure Report (ε α : Type) where
  log : List Event
  result : Except ε α

namespace Report

variable {ε α β : Type}

def success (value : α) : Report ε α := ⟨[], .ok value⟩

def failure (error : ε) : Report ε α := ⟨[], .error error⟩

/-- The same report with events before its own. -/
def after (log : List Event) (r : Report ε α) : Report ε α := { r with log := log ++ r.log }

def map (f : α → β) (r : Report ε α) : Report ε β := { r with result := r.result.map f }

/-- Goes on with what came out, if anything did. -/
def andThen (r : Report ε α) (next : α → Report ε β) : Report ε β :=
  match r.result with
  | .ok value => (next value).after r.log
  | .error error => ⟨r.log, .error error⟩

theorem andThen_eq_ok {r : Report ε α} {next : α → Report ε β} {b : β}
    (h : (r.andThen next).result = .ok b) :
    ∃ a, r.result = .ok a ∧ (next a).result = .ok b := by
  unfold andThen at h
  split at h
  · rename_i a ha
    exact ⟨a, ha, h⟩
  · contradiction

end Report

end SymbolicFrames
