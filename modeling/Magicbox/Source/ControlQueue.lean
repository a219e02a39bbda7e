import Magicbox.Library.Crash
import Magicbox.Library.Runs
import Magicbox.Library.SerialServer
import Magicbox.Source.Json

/-!
# The control queue

server.cpp, `ApplianceRuntime::submit`, `work` and `shutdown`. Any number of
event-loop threads submit, one worker executes, and whoever shuts the runtime
down raises the stop flag.

A critical section of `submit` is one event. That of the worker is two, between
which it holds the lock: the stop flag is not under the lock, and may rise
there. An event that a thread is not ready for changes nothing, so that a list
of events is a schedule of all threads. What the tasks and the worker's own
work do to the rest of the runtime, of type `σ`, is a parameter, and `ε` is what
the environment contributes to it. An exception that they throw is a
`std::exception`. A crash ends the process.

Nothing in the program reads `submits`, the numbers of the jobs and `trace`.
-/

set_option autoImplicit false

namespace Magicbox.Source.ControlQueue
open Library.Crash Json

abbrev Act := Library.SerialServer.Act Nat (Except Exn Value) (Value × Nat)

def errorJson (message : String) : Value := Value.null.set "error" (.string message)

/-- How the wrapper that `submit` makes of a task and its reply answers. -/
def answer : Except Exn Value → Value × Nat
  | .ok value => (value, 200)
  | .error (.invalidArgument what) => (errorJson what, 422)
  | .error e => (errorJson e.what, 409)

/-- How a full queue answers. -/
def queueFull : Value × Nat := (errorJson "Control queue full", 429)

variable {σ ε : Type}

/-- `std::function<Json::Value()>`. -/
abbrev Task (σ ε : Type) := ε → σ → Outcome Exn Value × σ

/-- A wrapped task. The number says which call of `submit` it is from. -/
structure Job (σ ε : Type) where
  id : Nat
  task : Task σ ε

/-- What the worker does besides its tasks. -/
structure Parts (σ ε : Type) where
  /-- `network_.tick()`. -/
  tick : ε → σ → Outcome Exn Unit × σ
  /-- `sample(force)`. -/
  sample : Bool → ε → σ → Outcome Exn Unit × σ
  /-- The assignment to `capture_error_`. -/
  noteCaptureError : String → σ → σ
  /-- `engine_->stop()`, if there is an engine. -/
  stopEngine : σ → σ
  /-- The rollback of a configuration that waits for its confirmation. -/
  rollBackPending : ε → σ → Outcome Exn Unit × σ

/-- Where the worker is. -/
inductive Position (σ ε : Type) where
  /-- `while (!stop.stop_requested())`. -/
  | checking
  /-- In `wait_for`, without the lock. -/
  | waiting
  /-- Behind `wait_for`, with the lock. -/
  | woken
  | ticking (task : Option (Job σ ε))
  | starting (task : Option (Job σ ε))
  | running (job : Job σ ε)
  /-- The task has ended, and the reply is to be called. -/
  | replying (id : Nat) (outcome : Except Exn Value)
  | sampling
  /-- Behind the loop. -/
  | stopping
  | lastSample
  | rollingBack
  | clearing
  | finished

structure System (σ ε : Type) where
  runtime : σ
  tasks_ : List (Job σ ε) := []
  stopRequested : Bool := false
  worker_ : Position σ ε := .checking
  /-- The process is there. -/
  alive : Bool := true
  submits : Nat := 0
  trace : List Act := []

inductive Event (σ ε : Type) where
  | submit (task : Task σ ε)
  | requestStop
  | check
  /-- The predicate of `wait_for` is evaluated, at first, after a notification, a spurious wakeup
  or the timeout. -/
  | wait (timedOut : Bool)
  | dequeue
  | tick (answers : ε)
  | start
  | run (answers : ε)
  | reply
  | sample (answers : ε)
  | stopEngine
  | lastSample (answers : ε)
  | rollBack (answers : ε)
  | clear

/-- The job that the worker has taken and not yet executed. -/
def Position.jobs : Position σ ε → List (Job σ ε)
  | .ticking task | .starting task => task.toList
  | .running job => [job]
  | _ => []

namespace System

/-- The jobs that are not executed yet. -/
def jobs (s : System σ ε) : List (Job σ ε) := s.worker_.jobs ++ s.tasks_

/-- The worker holds the lock. -/
def locked (s : System σ ε) : Bool :=
  match s.worker_ with
  | .woken => true
  | _ => false

def submit (s : System σ ε) (task : Task σ ε) : System σ ε :=
  if s.tasks_.length ≥ 64 then
    { s with submits := s.submits + 1,
             trace := s.trace ++ [.asked s.submits] ++ [.answered s.submits queueFull] }
  else
    { s with submits := s.submits + 1,
             tasks_ := s.tasks_ ++ [⟨s.submits, task⟩],
             trace := s.trace ++ [.asked s.submits] ++ [.accepted s.submits] }

def check (s : System σ ε) : System σ ε :=
  if s.stopRequested then { s with worker_ := .stopping, trace := s.trace ++ [.left] }
  else { s with worker_ := .waiting }

def wait (s : System σ ε) (timedOut : Bool) : System σ ε :=
  if !s.tasks_.isEmpty || s.stopRequested || timedOut then { s with worker_ := .woken } else s

def dequeue (s : System σ ε) : System σ ε :=
  match s.tasks_ with
  | [] => { s with worker_ := .ticking none }
  | job :: rest =>
    { s with tasks_ := rest, worker_ := .ticking (some job), trace := s.trace ++ [.taken job.id] }

/-- The process is gone. -/
def crash (s : System σ ε) (runtime : σ) : System σ ε := { s with runtime, alive := false }

/-- The exception of a tick goes to the error stream. -/
def tick (parts : Parts σ ε) (s : System σ ε) (task : Option (Job σ ε)) (answers : ε) :
    System σ ε :=
  match parts.tick answers s.runtime with
  | (.crashed, runtime) => s.crash runtime
  | (_, runtime) =>
    { s with runtime, worker_ := .starting task, trace := s.trace ++ [.prepared] }

def start (s : System σ ε) : Option (Job σ ε) → System σ ε
  | none => { s with worker_ := .sampling }
  | some job => { s with worker_ := .running job, trace := s.trace ++ [.began job.id] }

/-- The task has come to an end, and its reply is next. -/
def ended (s : System σ ε) (id : Nat) (outcome : Except Exn Value) (runtime : σ) : System σ ε :=
  { s with runtime, worker_ := .replying id outcome, trace := s.trace ++ [.ended id outcome] }

def run (s : System σ ε) (job : Job σ ε) (answers : ε) : System σ ε :=
  match job.task answers s.runtime with
  | (.returned value, runtime) => s.ended job.id (.ok value) runtime
  | (.threw e, runtime) => s.ended job.id (.error e) runtime
  | (.crashed, runtime) => s.crash runtime

def reply (s : System σ ε) (id : Nat) (outcome : Except Exn Value) : System σ ε :=
  { s with worker_ := .sampling, trace := s.trace ++ [.answered id (answer outcome)] }

def sample (parts : Parts σ ε) (s : System σ ε) (answers : ε) : System σ ε :=
  match parts.sample false answers s.runtime with
  | (.returned _, runtime) => { s with runtime, worker_ := .checking }
  | (.threw e, runtime) =>
    { s with runtime := parts.noteCaptureError e.what runtime, worker_ := .checking }
  | (.crashed, runtime) => s.crash runtime

/-- One of the two parts behind the loop whose exceptions are caught and not looked at. -/
def closing (s : System σ ε) (ending : Outcome Exn Unit × σ) (next : Position σ ε) :
    System σ ε :=
  match ending with
  | (.crashed, runtime) => s.crash runtime
  | (_, runtime) => { s with runtime, worker_ := next }

/-- The queue is swapped out and destroyed. -/
def clear (s : System σ ε) : System σ ε :=
  { s with tasks_ := [], worker_ := .finished, trace := s.trace ++ [.dropped] }

def step (parts : Parts σ ε) (s : System σ ε) (event : Event σ ε) : System σ ε :=
  if s.alive then
    match event, s.worker_ with
    | .submit task, _ => if s.locked then s else s.submit task
    | .requestStop, _ => { s with stopRequested := true }
    | .check, .checking => s.check
    | .wait timedOut, .waiting => s.wait timedOut
    | .dequeue, .woken => s.dequeue
    | .tick answers, .ticking task => s.tick parts task answers
    | .start, .starting task => s.start task
    | .run answers, .running job => s.run job answers
    | .reply, .replying id outcome => s.reply id outcome
    | .sample answers, .sampling => s.sample parts answers
    | .stopEngine, .stopping =>
      { s with runtime := parts.stopEngine s.runtime, worker_ := .lastSample }
    | .lastSample answers, .lastSample =>
      s.closing (parts.sample true answers s.runtime) .rollingBack
    | .rollBack answers, .rollingBack =>
      s.closing (parts.rollBackPending answers s.runtime) .clearing
    | .clear, .clearing => s.clear
    | _, _ => s
  else s

end System

/-- The runtime as its constructor leaves it. -/
def started (runtime : σ) : System σ ε := { runtime }

/-- The runtime after a schedule. -/
def schedule (parts : Parts σ ε) (runtime : σ) (events : List (Event σ ε)) : System σ ε :=
  Library.Runs.run (System.step parts) (started runtime) events

end Magicbox.Source.ControlQueue
