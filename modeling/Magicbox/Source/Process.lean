import Mathlib.Logic.Function.Iterate
import Mathlib.Order.Monotone.Defs
import Mathlib.Order.Nat

/-!
# A command and its output

process.cpp, `command`. What the kernel answers is given as one sequence for each
kind of call, and the state counts how many answers of each it has used. A step
makes one call: it stands at one of the calls of the two loops, uses the next
answer, and goes where the code goes from there.

A `std::string` is the list of its bytes, since the output of a command is any bytes.
-/

set_option autoImplicit false

namespace Magicbox.Source.Process

/-- The bytes of a text of the source. -/
def text (s : String) : List UInt8 := s.toUTF8.toList

inductive Thrown where
  | invalidArgument (what : List UInt8)
  | runtimeError (what : List UInt8)
  deriving DecidableEq

/-! ## What the calls answer -/

def eintr : Int := 4

/-- `poll` on the one descriptor, with `errno` where the result is negative. -/
structure Poll where
  ready : Int
  errno : Int := 0

/-- `read` into the buffer of 4096 bytes. No byte is the end of the file. -/
inductive Read where
  | data (bytes : List UInt8) (fits : bytes.length ≤ 4096)
  | error (errno : Int)

/-- `waitpid` with `WNOHANG`, and what it leaves in `status`. -/
structure Wait where
  result : Int
  errno : Int := 0
  status : BitVec 32 := 0

/-- `WIFEXITED`. -/
def wifexited (status : BitVec 32) : Bool := status &&& 0x7f == 0

/-- `WEXITSTATUS`. -/
def wexitstatus (status : BitVec 32) : BitVec 32 := (status &&& 0xff00) >>> 8

/-- The answers of the kernel, in the order of the calls of each kind. The steady clock,
in nanoseconds, does not go back. The code does not look at what `kill` answers. -/
structure Kernel where
  clock : Nat → Nat
  steady : Monotone clock
  poll : Nat → Poll
  read : Nat → Read
  waitpid : Nat → Wait
  kill : Nat → Int

/-! ## The state of a run -/

/-- The call that is next, or how the function was left. -/
inductive Point where
  | arm
  | check
  | poll
  | read
  | close
  | waitpid
  | overdue
  | sleep
  | returned (output : List UInt8)
  | threw (e : Thrown)

/-- The variables of `command` once the child runs, and the answers used of each kind.
`name` is `args[0]`. -/
structure State where
  name : List UInt8
  pid : Int
  point : Point := .arm
  output : List UInt8 := []
  deadline : Nat := 0
  failed : Bool := false
  status : BitVec 32 := 0
  clocks : Nat := 0
  polls : Nat := 0
  reads : Nat := 0
  waits : Nat := 0
  kills : Nat := 0

def seconds (n : Nat) : Nat := n * 1000000000

def outputLimit : Nat := 262144

/-- `deadline = steady_clock::now() + 10 s`. -/
def arm (k : Kernel) (s : State) : State :=
  { s with deadline := k.clock s.clocks + seconds 10, clocks := s.clocks + 1, point := .check }

/-- The head of the read loop. -/
def check (k : Kernel) (s : State) : State :=
  if s.deadline ≤ k.clock s.clocks ∨ outputLimit < s.output.length then
    { s with clocks := s.clocks + 1, failed := true, point := .close }
  else { s with clocks := s.clocks + 1, point := .poll }

def poll (k : Kernel) (s : State) : State :=
  let fd := k.poll s.polls
  if fd.ready < 0 ∧ fd.errno = eintr then { s with polls := s.polls + 1, point := .check }
  else if fd.ready < 0 then { s with polls := s.polls + 1, failed := true, point := .close }
  else if fd.ready = 0 then { s with polls := s.polls + 1, point := .check }
  else { s with polls := s.polls + 1, point := .read }

def read (k : Kernel) (s : State) : State :=
  match k.read s.reads with
  | .data [] _ => { s with reads := s.reads + 1, point := .close }
  | .error errno =>
    if errno = eintr then { s with reads := s.reads + 1, point := .check }
    else { s with reads := s.reads + 1, failed := true, point := .close }
  | .data bytes _ =>
    { s with reads := s.reads + 1, output := s.output ++ bytes, point := .check }

/-- `kill(pid, SIGKILL)`. -/
def kill (s : State) : State := { s with kills := s.kills + 1 }

/-- `close(pipes[0])`, and the kill behind it. -/
def close (s : State) : State :=
  if s.failed then { kill s with point := .waitpid } else { s with point := .waitpid }

/-- What follows the reap loop. -/
def conclude (s : State) : Point :=
  if s.failed = true ∨ wifexited s.status = false ∨ wexitstatus s.status ≠ 0 then
    .threw (.runtimeError (s.name ++ text " failed: " ++
      (if s.failed then text "timeout or output limit" else s.output)))
  else .returned s.output

def waitpid (k : Kernel) (s : State) : State :=
  let wait := k.waitpid s.waits
  let s' := { s with waits := s.waits + 1, status := wait.status }
  if wait.result = s.pid then { s' with point := conclude s' }
  else if wait.result < 0 ∧ wait.errno ≠ eintr then
    { s' with point := .threw (.runtimeError (text "Cannot reap command process")) }
  else { s' with point := .overdue }

/-- The deadline once more, in the reap loop. -/
def overdue (k : Kernel) (s : State) : State :=
  if s.deadline ≤ k.clock s.clocks then
    { kill { s with clocks := s.clocks + 1, failed := true } with point := .sleep }
  else { s with clocks := s.clocks + 1, point := .sleep }

/-- One call and what the code does with its answer. A function that was left stays left. -/
def step (k : Kernel) (s : State) : State :=
  match s.point with
  | .arm => arm k s
  | .check => check k s
  | .poll => poll k s
  | .read => read k s
  | .close => close s
  | .waitpid => waitpid k s
  | .overdue => overdue k s
  | .sleep => { s with point := .waitpid }
  | .returned _ | .threw _ => s

/-! ## The whole function -/

/-- What the calls before the loops answer. -/
structure Setup where
  tmpfile : Bool := true
  fwrite : Nat
  pipe2 : Int := 0
  posixSpawnp : Int := 0
  pid : Int
  strerror : Int → List UInt8

/-- `command` up to the running child. -/
def spawn (args : List (List UInt8)) (input : List UInt8) (setup : Setup) : Except Thrown State :=
  match args with
  | [] => .error (.invalidArgument (text "Empty command"))
  | name :: _ =>
    if setup.tmpfile = false then
      .error (.runtimeError (text "Cannot create command input"))
    else if setup.fwrite ≠ input.length then
      .error (.runtimeError (text "Cannot write command input"))
    else if setup.pipe2 ≠ 0 then
      .error (.runtimeError (text "Cannot create command pipe"))
    else if setup.posixSpawnp ≠ 0 then
      .error (.runtimeError (name ++ text ": " ++ setup.strerror setup.posixSpawnp))
    else .ok ⟨name, setup.pid, .arm, [], 0, false, 0, 0, 0, 0, 0, 0⟩

/-- `command` after `calls` calls in its loops, unless it was left before them. -/
def command (args : List (List UInt8)) (input : List UInt8) (setup : Setup) (k : Kernel)
    (calls : Nat) : Except Thrown State := do
  let child ← spawn args input setup
  return (step k)^[calls] child

/-! ## Where a step leads -/

def Point.left : Point → Bool
  | .returned _ | .threw _ => true
  | _ => false

theorem spawn_child {args : List (List UInt8)} {input : List UInt8} {setup : Setup} {child : State}
    (h : spawn args input setup = .ok child) :
    ∃ name, args.head? = some name ∧
      child = ⟨name, setup.pid, .arm, [], 0, false, 0, 0, 0, 0, 0, 0⟩ := by
  cases args with
  | nil => cases h
  | cons name rest =>
    refine ⟨name, rfl, ?_⟩
    simp only [spawn] at h
    split at h
    · cases h
    split at h
    · cases h
    split at h
    · cases h
    split at h
    · cases h
    · exact (Except.ok.inj h).symm

end Magicbox.Source.Process
