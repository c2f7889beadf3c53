import ReliableQueue.Span

/-!
Tuning of a queue. A setter ignores zero and keeps the value that was there, so no
options ever hold a zero.
-/

namespace ReliableQueue.Queue

structure Options where
  /-- Worker loops. -/
  workers : Nat := 10
  /-- Tasks between the fetcher and the workers. -/
  bufferSize : Nat := 100
  /-- Longest executor call. -/
  executionTimeout : Option Span := some (.ofSeconds 30)
  /-- Longest wait of a pop, and the pause after a store failure. -/
  pollInterval : Span := .ofSeconds 1
deriving DecidableEq, Repr

namespace Options

def default : Options := {}

instance : Inhabited Options := ⟨default⟩

def setWorkers (o : Options) (n : Nat) : Options :=
  if n = 0 then o else { o with workers := n }

def setBufferSize (o : Options) (n : Nat) : Options :=
  if n = 0 then o else { o with bufferSize := n }

def setExecutionTimeout (o : Options) (d : Span) : Options :=
  if d.isZero then o else { o with executionTimeout := some d }

def clearExecutionTimeout (o : Options) : Options := { o with executionTimeout := none }

def setPollInterval (o : Options) (d : Span) : Options :=
  if d.isZero then o else { o with pollInterval := d }

/-- A call of one setter. -/
inductive Setting where
  | workers (n : Nat)
  | bufferSize (n : Nat)
  | executionTimeout (d : Span)
  | noExecutionTimeout
  | pollInterval (d : Span)
deriving DecidableEq, Repr

def set (o : Options) : Setting → Options
  | .workers n => o.setWorkers n
  | .bufferSize n => o.setBufferSize n
  | .executionTimeout d => o.setExecutionTimeout d
  | .noExecutionTimeout => o.clearExecutionTimeout
  | .pollInterval d => o.setPollInterval d

def setAll (o : Options) (settings : List Setting) : Options := settings.foldl set o

/-- The options before the first setting and after each. -/
def history (o : Options) : List Setting → List Options
  | [] => [o]
  | s :: rest => o :: history (o.set s) rest

/-- The diagnostic form. -/
def debug (o : Options) : String :=
  let timeout := match o.executionTimeout with
    | none => "None"
    | some d => "Some(" ++ d.text ++ ")"
  "QueueOptions \x7b workers: " ++ toString o.workers ++ ", buffer_size: " ++ toString o.bufferSize
    ++ ", execution_timeout: " ++ timeout ++ ", poll_interval: " ++ o.pollInterval.text ++ " \x7d"

end Options

end ReliableQueue.Queue
