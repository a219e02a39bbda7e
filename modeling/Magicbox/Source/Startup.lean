import Magicbox.Library.FileLock
import Magicbox.Library.Runs
import Magicbox.Source.CommandLine

/-!
# Starting the appliance

server.cpp, `run_appliance`, with what the constructors of `Store` (store.cpp)
and of `NetworkController` (network.cpp) do about the resources of the host. Any
number of processes start, work and end on one host.

`resolve` says which file a path leads to. It is the same for all processes, as
for absolute paths, and does not change: nobody removes a lock file. A lock goes
with the process, because no child inherits its descriptor. Only an enabled
controller changes the network. A process serves from where it hands over to
drogon; whether its port is free is not modelled.
-/

set_option autoImplicit false

namespace Magicbox.Source.Startup
open Library Library.FileLock Json

/-- What `stat` and `std::ifstream` find. A file that cannot be read has no content. -/
structure TokenFile where
  regular : Bool
  mode : Nat
  content : List UInt8

/-- `std::getline`. -/
def getline (content : List UInt8) : List UInt8 := content.takeWhile (· ≠ 10)

/-- The checks of the token file. -/
def readToken : Option TokenFile → Except Exn (List UInt8)
  | none => .error (.runtimeError "Token file must exist and have mode 0600 (or 0400)")
  | some file =>
    if ¬ file.regular ∨ file.mode &&& 0o077 ≠ 0 then
      .error (.runtimeError "Token file must exist and have mode 0600 (or 0400)")
    else if (getline file.content).length < 32 ∨ (getline file.content).length > 256 then
      .error (.runtimeError "Token must be 32–256 characters")
    else .ok (getline file.content)

/-- What at most one process may work on. -/
inductive Resource where
  | database (path : String)
  | network (inode : Nat)
  deriving DecidableEq

def Resource.lockPath : Resource → String
  | .database path => path ++ ".lock"
  | .network inode => "/run/magicbox/network-" ++ toString inode ++ ".lock"

inductive Stage where
  | token
  | lockFile
  | lock
  | dashboard
  | store
  | directories
  | netns
  | claimFile
  | claim
  | serving
  /-- `what` is the text of the exception that ended the process, if one did. -/
  | ended (what : Option String)
  deriving DecidableEq

structure Process where
  options : CommandLine.Options
  token : List UInt8 := []
  inode : Nat := 0
  stage : Stage := .token

/-- What the environment contributes to a step. -/
structure Answers where
  tokenFile : Option TokenFile := none
  /-- `open` of the lock file that is next. -/
  opened : Bool := true
  /-- `index.html` is a regular file. -/
  dashboard : Bool := true
  /-- What the constructor of `Store`, the read of the journal or `create_directories` throws. -/
  thrown : Option String := none
  /-- `stat` of the network namespace. -/
  inode : Option Nat := none
  /-- Whether the work that is done is on the network. -/
  network : Bool := false

structure World (ι : Type) where
  processes : Nat → Option Process := fun _ => none
  owners : Owners Nat ι := .free
  trace : List (Act Nat Resource) := []

inductive Event where
  | launch (pid : Nat) (options : CommandLine.Options)
  | step (pid : Nat) (answers : Answers)
  /-- The process ends, by itself or by a signal. -/
  | exit (pid : Nat)

namespace World
variable {ι : Type} [DecidableEq ι]

def put (w : World ι) (pid : Nat) (p : Process) : World ι :=
  { w with processes := Function.update w.processes pid (some p) }

def finish (w : World ι) (pid : Nat) (p : Process) (what : Option String) : World ι :=
  { w.put pid { p with stage := .ended what } with
    owners := w.owners.release pid, trace := w.trace ++ [.ended pid] }

def goto (w : World ι) (pid : Nat) (p : Process) (stage : Stage) : World ι :=
  w.put pid { p with stage }

/-- `flock` with LOCK_EX | LOCK_NB. -/
def lock (resolve : String → ι) (w : World ι) (pid : Nat) (p : Process) (r : Resource)
    (next : Stage) (what : String) : World ι :=
  if w.owners (resolve r.lockPath) = none then
    { w.goto pid p next with
      owners := w.owners.lock pid (resolve r.lockPath), trace := w.trace ++ [.locked pid r] }
  else w.finish pid p (some what)

def use (w : World ι) (pid : Nat) (r : Resource) : World ι :=
  { w with trace := w.trace ++ [.used pid r] }

/-- The constructor of `Store`, which opens the database and sets it up, and the first read. -/
def openStore (w : World ι) (pid : Nat) (p : Process) (answers : Answers) : World ι :=
  match answers.thrown with
  | some what => (w.use pid (.database p.options.database)).finish pid p (some what)
  | none =>
    (w.use pid (.database p.options.database)).goto pid p
      (if p.options.allowNetwork then .directories else .serving)

/-- What the constructors leave to do, and all that comes behind them. -/
def work (w : World ι) (pid : Nat) (p : Process) (answers : Answers) : World ι :=
  if p.options.allowNetwork ∧ answers.network then w.use pid (.network p.inode)
  else w.use pid (.database p.options.database)

def proceed (resolve : String → ι) (w : World ι) (pid : Nat) (p : Process) (answers : Answers) :
    World ι :=
  match p.stage with
  | .token =>
    match readToken answers.tokenFile with
    | .error e => w.finish pid p (some e.what)
    | .ok token => w.goto pid { p with token } .lockFile
  | .lockFile =>
    if answers.opened then w.goto pid p .lock
    else w.finish pid p (some "Cannot open database lock")
  | .lock =>
    w.lock resolve pid p (.database p.options.database) .dashboard
      "Another appliance instance owns this database"
  | .dashboard =>
    if answers.dashboard then w.goto pid p .store
    else w.finish pid p (some "Missing dashboard; set --web-root")
  | .store => w.openStore pid p answers
  | .directories =>
    match answers.thrown with
    | some what => w.finish pid p (some what)
    | none => w.goto pid p .netns
  | .netns =>
    match answers.inode with
    | none => w.finish pid p (some "Cannot identify network namespace")
    | some inode => w.goto pid { p with inode } .claimFile
  | .claimFile =>
    if answers.opened then w.goto pid p .claim
    else w.finish pid p (some "Another controller owns this network namespace")
  | .claim =>
    w.lock resolve pid p (.network p.inode) .serving
      "Another controller owns this network namespace"
  | .serving => w.work pid p answers
  | .ended _ => w

def step (resolve : String → ι) (w : World ι) : Event → World ι
  | .launch pid options =>
    match w.processes pid with
    | none => w.put pid { options }
    | some _ => w
  | .step pid answers =>
    match w.processes pid with
    | none => w
    | some p => w.proceed resolve pid p answers
  | .exit pid =>
    match w.processes pid with
    | none => w
    | some p =>
      match p.stage with
      | .ended _ => w
      | _ => w.finish pid p none

end World

/-- The host after a list of events. No process of the appliance is there at first. -/
def host {ι : Type} [DecidableEq ι] (resolve : String → ι) (events : List Event) : World ι :=
  Runs.run (World.step resolve) {} events

end Magicbox.Source.Startup
