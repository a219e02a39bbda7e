import Magicbox.Source.ControlQueue

/-!
# The discipline of the control queue

Under every schedule the control queue is a serial server behind a queue of 64
places: its acts are those of `SerialServer`, and what follows for the jobs
follows for the server. The acts are no more than words for what the threads
did, so each is traced back to its event: a question to a `submit`, a
preparation to a tick of the network, an outcome to the task that was submitted.
-/

set_option autoImplicit false

namespace Magicbox.Guarantees.QueueDiscipline
open Library Library.Crash Library.SerialServer Source Source.Json Source.ControlQueue

/-! ## The queue is a serial server -/

def rules : Rules (Except Exn Value) (Value × Nat) where
  capacity := 64
  full := queueFull
  answer := answer

variable {σ ε : Type}

/-- What the worker has in hand. -/
def turn : Position σ ε → Turn Nat (Except Exn Value)
  | .checking | .waiting | .woken | .sampling => .free
  | .ticking none | .starting none => .free
  | .ticking (some job) => .taken job.id
  | .starting (some job) => .prepared job.id
  | .running job => .running job.id
  | .replying id outcome => .owing id outcome
  | .stopping | .lastSample | .rollingBack | .clearing | .finished => .over

structure Agrees (s : System σ ε) (server : Server Nat (Except Exn Value)) : Prop where
  queue : server.queue = s.tasks_.map (·.id)
  entering : server.entering = none
  seen : ∀ id ∈ server.seen, id < s.submits
  turn : server.turn = turn s.worker_

/-- The acts so far are those of a server that has in hand what the worker has. -/
def Serving (s : System σ ε) : Prop := ∃ server, Trace rules s.trace server ∧ Agrees s server

section Serving
variable {s s' : System σ ε}

/-- A step that nobody sees. -/
theorem Serving.silent (h : Serving s) (trace : s'.trace = s.trace) (tasks : s'.tasks_ = s.tasks_)
    (submits : s'.submits = s.submits)
    (hturn : QueueDiscipline.turn s'.worker_ = QueueDiscipline.turn s.worker_) : Serving s' := by
  obtain ⟨server, htrace, agrees⟩ := h
  refine ⟨server, trace ▸ htrace, ?_, agrees.entering, ?_, ?_⟩
  · rw [tasks, agrees.queue]
  · rw [submits]
    exact agrees.seen
  · rw [hturn, agrees.turn]

/-- A step of the worker that is an act of the server. -/
theorem Serving.act {a : Act} {position : Position σ ε} (h : Serving s)
    (hworker : s.worker_ = position) (trace : s'.trace = s.trace ++ [a])
    (step : ∀ server, Agrees s server → server.turn = QueueDiscipline.turn position →
      ∃ server', Step rules server a server' ∧ Agrees s' server') : Serving s' := by
  obtain ⟨server, htrace, agrees⟩ := h
  obtain ⟨server', hstep, agrees'⟩ := step server agrees (hworker ▸ agrees.turn)
  exact ⟨server', trace ▸ htrace.snoc hstep, agrees'⟩

theorem serving_started (runtime : σ) : Serving (started runtime : System σ ε) :=
  ⟨{}, .start, rfl, rfl, by simp, rfl⟩

theorem serving_submit (h : Serving s) (task : Task σ ε) : Serving (s.submit task) := by
  obtain ⟨server, htrace, agrees⟩ := h
  have hfresh : s.submits ∉ server.seen := fun hseen =>
    absurd (agrees.seen _ hseen) (Nat.lt_irrefl _)
  have hasked := htrace.snoc (.ask hfresh agrees.entering)
  have hseen : ∀ id ∈ s.submits :: server.seen, id < s.submits + 1 := by
    intro id hid
    rcases List.mem_cons.mp hid with rfl | hid
    · exact Nat.lt_succ_self _
    · exact Nat.lt_succ_of_lt (agrees.seen id hid)
  have hlength : server.queue.length = s.tasks_.length := by
    rw [agrees.queue, List.length_map]
  have hbound : server.queue.length ≤ 64 := htrace.bounded
  unfold System.submit
  split
  · next hfull =>
    have hanswered := hasked.snoc (.refuse rfl (Nat.le_antisymm hbound (hlength ▸ hfull)))
    exact ⟨_, hanswered, agrees.queue, rfl, hseen, agrees.turn⟩
  · next hroom =>
    have haccepted := hasked.snoc (.accept rfl (by
      rw [hlength]
      exact Nat.lt_of_not_le hroom))
    refine ⟨_, haccepted, ?_, rfl, hseen, agrees.turn⟩
    rw [List.map_append, ← agrees.queue]
    rfl

/-- The predicate of the loop. -/
theorem serving_check (h : Serving s) (hworker : s.worker_ = .checking) : Serving s.check := by
  unfold System.check
  split
  · refine h.act hworker rfl fun server agrees hturn => ?_
    exact ⟨_, .leave agrees.entering hturn, agrees.queue, agrees.entering, agrees.seen, rfl⟩
  · exact h.silent rfl rfl rfl (by rw [hworker]; rfl)

theorem serving_wait (h : Serving s) (hworker : s.worker_ = .waiting) (timedOut : Bool) :
    Serving (s.wait timedOut) := by
  unfold System.wait
  split
  · exact h.silent rfl rfl rfl (by rw [hworker]; rfl)
  · exact h

theorem serving_dequeue (h : Serving s) (hworker : s.worker_ = .woken) : Serving s.dequeue := by
  unfold System.dequeue
  split
  · exact h.silent rfl rfl rfl (by rw [hworker]; rfl)
  · next job rest htasks =>
    refine h.act hworker rfl fun server agrees hturn => ?_
    have hqueue := agrees.queue
    rw [htasks] at hqueue
    exact ⟨_, .take agrees.entering hturn hqueue, rfl, agrees.entering, agrees.seen, rfl⟩

theorem serving_crash (h : Serving s) (runtime : σ) : Serving (s.crash runtime) :=
  h.silent rfl rfl rfl rfl

theorem serving_tick (parts : Parts σ ε) (h : Serving s) {task : Option (Job σ ε)}
    (hworker : s.worker_ = .ticking task) (answers : ε) : Serving (s.tick parts task answers) := by
  unfold System.tick
  split
  · exact serving_crash h _
  · refine h.act hworker rfl fun server agrees hturn => ?_
    cases task with
    | none =>
      exact ⟨_, .idle agrees.entering hturn, agrees.queue, agrees.entering, agrees.seen, hturn⟩
    | some job =>
      exact ⟨_, .prepare agrees.entering hturn, agrees.queue, agrees.entering, agrees.seen, rfl⟩

theorem serving_start (h : Serving s) {task : Option (Job σ ε)}
    (hworker : s.worker_ = .starting task) : Serving (s.start task) := by
  cases task with
  | none => exact h.silent rfl rfl rfl (by rw [hworker]; rfl)
  | some job =>
    refine h.act hworker rfl fun server agrees hturn => ?_
    exact ⟨_, .start agrees.entering hturn, agrees.queue, agrees.entering, agrees.seen, rfl⟩

theorem serving_run (h : Serving s) {job : Job σ ε} (hworker : s.worker_ = .running job)
    (answers : ε) : Serving (s.run job answers) := by
  have hended : ∀ outcome runtime, Serving (s.ended job.id outcome runtime) := by
    intro outcome runtime
    refine h.act hworker rfl fun server agrees hturn => ?_
    exact ⟨_, .finish outcome agrees.entering hturn, agrees.queue, agrees.entering, agrees.seen,
      rfl⟩
  unfold System.run
  split
  · exact hended _ _
  · exact hended _ _
  · exact serving_crash h _

theorem serving_reply (h : Serving s) {id : Nat} {outcome : Except Exn Value}
    (hworker : s.worker_ = .replying id outcome) : Serving (s.reply id outcome) := by
  refine h.act hworker rfl fun server agrees hturn => ?_
  exact ⟨_, .answer agrees.entering hturn, agrees.queue, agrees.entering, agrees.seen, rfl⟩

theorem serving_sample (parts : Parts σ ε) (h : Serving s) (hworker : s.worker_ = .sampling)
    (answers : ε) : Serving (s.sample parts answers) := by
  unfold System.sample
  split
  · exact h.silent rfl rfl rfl (by rw [hworker]; rfl)
  · exact h.silent rfl rfl rfl (by rw [hworker]; rfl)
  · exact serving_crash h _

theorem serving_closing (h : Serving s) {ending : Outcome Exn Unit × σ} {next : Position σ ε}
    (hnext : turn next = turn s.worker_) : Serving (s.closing ending next) := by
  unfold System.closing
  split
  · exact serving_crash h _
  · exact h.silent rfl rfl rfl hnext

theorem serving_clear (h : Serving s) (hworker : s.worker_ = .clearing) : Serving s.clear := by
  refine h.act hworker rfl fun server agrees hturn => ?_
  exact ⟨_, .drop agrees.entering hturn, rfl, agrees.entering, agrees.seen, hturn⟩

theorem serving_step (parts : Parts σ ε) (event : Event σ ε) (h : Serving s) :
    Serving (s.step parts event) := by
  unfold System.step
  split
  · split
    · split
      · exact h
      · exact serving_submit h _
    · exact h.silent rfl rfl rfl rfl
    · next hworker => exact serving_check h hworker
    · next hworker => exact serving_wait h hworker _
    · next hworker => exact serving_dequeue h hworker
    · next hworker => exact serving_tick parts h hworker _
    · next hworker => exact serving_start h hworker
    · next hworker => exact serving_run h hworker _
    · next hworker => exact serving_reply h hworker
    · next hworker => exact serving_sample parts h hworker _
    · next hworker => exact h.silent rfl rfl rfl (by rw [hworker]; rfl)
    · next hworker => exact serving_closing h (by rw [hworker]; rfl)
    · next hworker => exact serving_closing h (by rw [hworker]; rfl)
    · next hworker => exact serving_clear h hworker
    · exact h
  · exact h

/-- Under every schedule the acts are those of the server. -/
theorem serving (parts : Parts σ ε) (runtime : σ) (events : List (Event σ ε)) :
    Serving (schedule parts runtime events) :=
  Runs.invariant (P := fun _ => True) (I := Serving)
    (fun _ event _ h => serving_step parts event h) (serving_started runtime) fun _ _ => trivial

end Serving

/-! ## What the acts stand for -/

section Moments
variable (parts : Parts σ ε) (runtime : σ) (events : List (Event σ ε))

/-- In the schedule, `event` took its turn in the state `s`. -/
def Moment (event : Event σ ε) (s : System σ ε) : Prop :=
  ∃ past rest, events = past ++ event :: rest ∧ schedule parts runtime past = s ∧ s.alive = true

/-- A `submit` that had the lock and found room brought this job. -/
def Submitted (job : Job σ ε) : Prop :=
  ∃ s, Moment parts runtime events (.submit job.task) s ∧ s.locked = false ∧
    s.submits = job.id ∧ s.tasks_.length < 64

/-- How a task that has such an outcome ends. -/
def ending : Except Exn Value → Outcome Exn Value
  | .ok value => .returned value
  | .error e => .threw e

/-- The acts of one event, and what the event did then. -/
inductive Deed (s s' : System σ ε) : Event σ ε → List Act → Prop
  | silent (event) : Deed s s' event []
  | refused (task) (unlocked : s.locked = false) (full : 64 ≤ s.tasks_.length) :
    Deed s s' (.submit task) [.asked s.submits, .answered s.submits queueFull]
  | accepted (task) (unlocked : s.locked = false) (room : s.tasks_.length < 64) :
    Deed s s' (.submit task) [.asked s.submits, .accepted s.submits]
  | left : Deed s s' .check [.left]
  | taken (job : Job σ ε) : Deed s s' .dequeue [.taken job.id]
  | ticked (answers task) (worker : s.worker_ = .ticking task)
    (ticked : s'.runtime = (parts.tick answers s.runtime).2) :
    Deed s s' (.tick answers) [.prepared]
  | began (job : Job σ ε) : Deed s s' .start [.began job.id]
  | ended (answers job outcome) (worker : s.worker_ = .running job)
    (result : job.task answers s.runtime = (ending outcome, s'.runtime)) :
    Deed s s' (.run answers) [.ended job.id outcome]
  | answered (id outcome) : Deed s s' .reply [.answered id (answer outcome)]
  | dropped : Deed s s' .clear [.dropped]

variable {parts runtime events}

theorem submit_deed {s : System σ ε} (unlocked : s.locked = false) (task : Task σ ε) :
    ∃ acts, (s.submit task).trace = s.trace ++ acts ∧
      Deed parts s (s.submit task) (.submit task) acts := by
  unfold System.submit
  split
  · next hfull => exact ⟨_, List.append_assoc _ _ _, .refused task unlocked hfull⟩
  · next hroom => exact ⟨_, List.append_assoc _ _ _, .accepted task unlocked (by omega)⟩

theorem tick_deed {s : System σ ε} {task : Option (Job σ ε)} (hworker : s.worker_ = .ticking task)
    (answers : ε) : ∃ acts, (s.tick parts task answers).trace = s.trace ++ acts ∧
      Deed parts s (s.tick parts task answers) (.tick answers) acts := by
  unfold System.tick
  split
  · exact ⟨[], (List.append_nil _).symm, .silent _⟩
  · next hticked => exact ⟨_, rfl, .ticked answers task hworker (by rw [hticked])⟩

theorem run_deed {s : System σ ε} {job : Job σ ε} (hworker : s.worker_ = .running job)
    (answers : ε) : ∃ acts, (s.run job answers).trace = s.trace ++ acts ∧
      Deed parts s (s.run job answers) (.run answers) acts := by
  unfold System.run
  split
  · next value _ hended => exact ⟨_, rfl, .ended answers job (.ok value) hworker hended⟩
  · next e _ hended => exact ⟨_, rfl, .ended answers job (.error e) hworker hended⟩
  · exact ⟨[], (List.append_nil _).symm, .silent _⟩

theorem step_deed {s : System σ ε} (alive : s.alive = true) (event : Event σ ε) :
    ∃ acts, (s.step parts event).trace = s.trace ++ acts ∧
      Deed parts s (s.step parts event) event acts := by
  have hsilent : ∀ {s' : System σ ε}, s'.trace = s.trace →
      ∃ acts, s'.trace = s.trace ++ acts ∧ Deed parts s s' event acts := fun htrace =>
    ⟨[], by rw [htrace, List.append_nil], .silent event⟩
  unfold System.step
  rw [if_pos alive]
  split
  · split
    · exact hsilent rfl
    · next hunlocked => exact submit_deed (by simpa using hunlocked) _
  · exact hsilent rfl
  · unfold System.check
    split
    · exact ⟨_, rfl, .left⟩
    · exact hsilent rfl
  · unfold System.wait
    split <;> exact hsilent rfl
  · unfold System.dequeue
    split
    · exact hsilent rfl
    · next job _ _ => exact ⟨_, rfl, .taken job⟩
  · next hworker => exact tick_deed hworker _
  · next task _ =>
    cases task with
    | none => exact hsilent rfl
    | some job => exact ⟨_, rfl, .began job⟩
  · next hworker => exact run_deed hworker _
  · next id outcome _ => exact ⟨_, rfl, .answered id outcome⟩
  · unfold System.sample
    split <;> exact hsilent rfl
  · exact hsilent rfl
  · unfold System.closing
    split <;> exact hsilent rfl
  · unfold System.closing
    split <;> exact hsilent rfl
  · exact ⟨_, rfl, .dropped⟩
  · exact hsilent rfl

theorem Moment.later {event : Event σ ε} {s : System σ ε} (h : Moment parts runtime events event s)
    (last : Event σ ε) : Moment parts runtime (events ++ [last]) event s := by
  obtain ⟨past, rest, rfl, hstate, alive⟩ := h
  exact ⟨past, rest ++ [last], by simp, hstate, alive⟩

theorem moment_last (last : Event σ ε) (alive : (schedule parts runtime events).alive = true) :
    Moment parts runtime (events ++ [last]) last (schedule parts runtime events) :=
  ⟨events, [], rfl, rfl, alive⟩

theorem schedule_snoc (last : Event σ ε) : schedule parts runtime (events ++ [last]) =
    (schedule parts runtime events).step parts last :=
  Runs.run_snoc _ _ _

/-- A process that is gone takes no step. -/
theorem step_dead {s : System σ ε} (dead : ¬ s.alive = true) (event : Event σ ε) :
    s.step parts event = s := by
  unfold System.step
  rw [if_neg dead]

/-- Every act goes back to an event that had its turn. -/
theorem origin {past rest : List Act} {act : Act}
    (h : (schedule parts runtime events).trace = past ++ act :: rest) :
    ∃ event s early late, Moment parts runtime events event s ∧
      Deed parts s (s.step parts event) event (early ++ act :: late) ∧ past = s.trace ++ early := by
  induction events using List.reverseRecOn generalizing rest with
  | nil =>
    have hnone : ([] : List Act) = past ++ act :: rest := h
    simp at hnone
  | append_singleton front last ih =>
    have hearlier : ∀ {rest'}, (schedule parts runtime front).trace = past ++ act :: rest' →
        ∃ event s early late, Moment parts runtime (front ++ [last]) event s ∧
          Deed parts s (s.step parts event) event (early ++ act :: late) ∧
          past = s.trace ++ early := by
      intro rest' hfront
      obtain ⟨event, s, early, late, hmoment, hdeed⟩ := ih hfront
      exact ⟨event, s, early, late, hmoment.later last, hdeed⟩
    rw [schedule_snoc] at h
    by_cases alive : (schedule parts runtime front).alive = true
    · obtain ⟨acts, htrace, hdeed⟩ : ∃ acts,
          ((schedule parts runtime front).step parts last).trace =
            (schedule parts runtime front).trace ++ acts ∧
          Deed parts (schedule parts runtime front) _ last acts := step_deed alive last
      rw [htrace] at h
      rcases List.append_eq_append_iff.mp h with ⟨early, hpast, hacts⟩ | ⟨more, hfront, hacts⟩
      · rw [hacts] at hdeed
        exact ⟨last, _, early, rest, moment_last last alive, hdeed, hpast⟩
      · cases more with
        | nil =>
          rw [List.nil_append] at hacts
          rw [List.append_nil] at hfront
          rw [← hacts] at hdeed
          exact ⟨last, _, [], rest, moment_last last alive, hdeed, by rw [hfront, List.append_nil]⟩
        | cons first more =>
          obtain ⟨rfl, -⟩ := List.cons_eq_cons.mp hacts
          exact hearlier hfront
    · rw [step_dead alive] at h
      exact hearlier h

/-- The job that the worker has in hand and has not executed. -/
def held : Position σ ε → Option (Job σ ε)
  | .ticking task | .starting task => task
  | .running job => some job
  | _ => none

/-- The job waits, or the worker has it in hand. -/
def Carries (s : System σ ε) (job : Job σ ε) : Prop :=
  job ∈ s.tasks_ ∨ held s.worker_ = some job

theorem carries_submit {s : System σ ε} {task : Task σ ε} {job : Job σ ε}
    (h : Carries (s.submit task) job) :
    Carries s job ∨ job = ⟨s.submits, task⟩ ∧ s.tasks_.length < 64 := by
  unfold System.submit at h
  split at h
  · exact .inl h
  · next hroom =>
    rcases h with hqueued | hheld
    · rcases List.mem_append.mp hqueued with hold | hnew
      · exact .inl (.inl hold)
      · exact .inr ⟨List.mem_singleton.mp hnew, by omega⟩
    · exact .inl (.inr hheld)

theorem carries_dequeue {s : System σ ε} {job : Job σ ε} (h : Carries s.dequeue job) :
    Carries s job := by
  unfold System.dequeue at h
  split at h
  · rcases h with hqueued | hheld
    · exact .inl hqueued
    · cases hheld
  · next first rest htasks =>
    refine .inl ?_
    rw [htasks]
    rcases h with hqueued | hheld
    · exact List.mem_cons_of_mem _ hqueued
    · cases hheld
      exact List.mem_cons_self

/-- No step brings a job that was not submitted in it. -/
theorem carries_step {s : System σ ε} {event : Event σ ε} {job : Job σ ε}
    (h : Carries (s.step parts event) job) :
    Carries s job ∨ event = .submit job.task ∧ s.locked = false ∧ s.submits = job.id ∧
      s.tasks_.length < 64 := by
  have hsame : ∀ {s' : System σ ε}, Carries s' job → s'.tasks_ = s.tasks_ →
      (held s'.worker_ = held s.worker_ ∨ held s'.worker_ = none) → Carries s job := by
    rintro s' (hqueued | hjob) htasks hheld
    · exact .inl (htasks ▸ hqueued)
    · rcases hheld with hold | hnone
      · exact .inr (hold ▸ hjob)
      · cases hnone.symm.trans hjob
  unfold System.step at h
  split at h
  · split at h
    · split at h
      · exact .inl h
      · next hunlocked =>
        rcases carries_submit h with hold | ⟨rfl, hroom⟩
        · exact .inl hold
        · exact .inr ⟨rfl, by simpa using hunlocked, rfl, hroom⟩
    · exact .inl (hsame h rfl (.inl rfl))
    · unfold System.check at h
      split at h <;> exact .inl (hsame h rfl (.inr rfl))
    · unfold System.wait at h
      split at h
      · exact .inl (hsame h rfl (.inr rfl))
      · exact .inl h
    · exact .inl (carries_dequeue h)
    · next hworker =>
      unfold System.tick at h
      split at h
      · exact .inl (hsame h rfl (.inl rfl))
      · exact .inl (hsame h rfl (.inl (by rw [hworker]; rfl)))
    · next task hworker =>
      cases task with
      | none => exact .inl (hsame h rfl (.inr rfl))
      | some first => exact .inl (hsame h rfl (.inl (by rw [hworker]; rfl)))
    · unfold System.run at h
      split at h
      · exact .inl (hsame h rfl (.inr rfl))
      · exact .inl (hsame h rfl (.inr rfl))
      · exact .inl (hsame h rfl (.inl rfl))
    · exact .inl (hsame h rfl (.inr rfl))
    · unfold System.sample at h
      split at h
      · exact .inl (hsame h rfl (.inr rfl))
      · exact .inl (hsame h rfl (.inr rfl))
      · exact .inl (hsame h rfl (.inl rfl))
    · exact .inl (hsame h rfl (.inr rfl))
    · unfold System.closing at h
      split at h
      · exact .inl (hsame h rfl (.inl rfl))
      · exact .inl (hsame h rfl (.inr rfl))
    · unfold System.closing at h
      split at h
      · exact .inl (hsame h rfl (.inl rfl))
      · exact .inl (hsame h rfl (.inr rfl))
    · rcases h with hqueued | hheld
      · cases hqueued
      · cases hheld
    · exact .inl h
  · exact .inl h

/-- Every job that is there was submitted. -/
theorem submitted (parts : Parts σ ε) (runtime : σ) (events : List (Event σ ε)) :
    ∀ job, Carries (schedule parts runtime events) job → Submitted parts runtime events job := by
  refine Runs.historyInvariant
    (J := fun past s => ∀ job, Carries s job → Submitted parts runtime past job) ?_ ?_ events
  · rintro job (hqueued | hheld)
    · cases hqueued
    · cases hheld
  · intro past last ih job hcarries
    rw [Runs.run_snoc] at hcarries
    by_cases alive : (schedule parts runtime past).alive = true
    · rcases carries_step hcarries with hold | ⟨rfl, unlocked, hid, room⟩
      · obtain ⟨s, hmoment, hrest⟩ := ih job hold
        exact ⟨s, hmoment.later last, hrest⟩
      · exact ⟨_, moment_last _ alive, unlocked, hid, room⟩
    · change Carries ((schedule parts runtime past).step parts last) job at hcarries
      rw [step_dead alive] at hcarries
      obtain ⟨s, hmoment, hrest⟩ := ih job hcarries
      exact ⟨s, hmoment.later last, hrest⟩

end Moments

/-! ## What follows for the jobs -/

/-- How an outcome of a task is answered. -/
inductive Replies : Except Exn Value → Value × Nat → Prop
  | returned (value) : Replies (.ok value) (value, 200)
  | invalid (what) :
    Replies (.error (.invalidArgument what)) (.object [("error", .string what)], 422)
  | failed (e : Exn) (other : ∀ what, e ≠ .invalidArgument what) :
    Replies (.error e) (.object [("error", .string e.what)], 409)

theorem replies_answer (outcome : Except Exn Value) : Replies outcome (answer outcome) := by
  cases outcome with
  | ok value => exact .returned value
  | error e =>
    cases e with
    | invalidArgument what => exact .invalid what
    | runtimeError what => exact .failed (.runtimeError what) (by simp)
    | logicError what => exact .failed (.logicError what) (by simp)

/-- The task is running, or it has ended and its reply is about to be called. -/
def InHand (s : System σ ε) (id : Nat) : Prop :=
  (∃ job, s.worker_ = .running job ∧ job.id = id) ∨ ∃ outcome, s.worker_ = .replying id outcome

/-- The discipline of the control queue, as its acts show it. -/
structure Orderly (s : System σ ε) : Prop where
  /-- The acts tell which jobs are waiting. -/
  waiting : s.tasks_.map (·.id) = waiting s.trace
  bounded : s.tasks_.length ≤ 64
  /-- A submit that finds 64 jobs waiting is answered 429, and nothing else ever happens to it. Any
  other is accepted. -/
  asked : ∀ past id rest, s.trace = past ++ .asked id :: rest →
    if (SerialServer.waiting past).length = 64 then
      life id s.trace =
        [.asked id, .answered id (.object [("error", .string "Control queue full")], 429)]
    else [.asked id, .accepted id] <+: life id s.trace
  /-- Jobs are executed in the order in which they were accepted, each at most once. -/
  order : began s.trace <+: accepted s.trace
  once : (began s.trace).Nodup
  /-- When a job begins, every earlier one has ended and was answered. -/
  alone : ∀ past id rest, s.trace = past ++ .began id :: rest → ∀ earlier ∈ began past,
    ∃ outcome reply, .ended earlier outcome ∈ past ∧ .answered earlier reply ∈ past ∧
      Replies outcome reply
  /-- Between the dequeue of a job and its beginning the network was ticked. -/
  ticked : ∀ past id rest, s.trace = past ++ .began id :: rest →
    ∃ early late, past = early ++ .taken id :: late ∧ .prepared ∈ late
  /-- All that ever happens to an executed job, unless it is in hand. Its reply is called once,
  with the status of its outcome. -/
  executed : ∀ id ∈ began s.trace, InHand s id ∨ ∃ outcome reply, Replies outcome reply ∧
    life id s.trace =
      [.asked id, .accepted id, .taken id, .began id, .ended id outcome, .answered id reply]
  /-- An accepted job that was not executed was not answered. -/
  unexecuted : ∀ id ∈ accepted s.trace, id ∉ began s.trace →
    life id s.trace = [.asked id, .accepted id] ∨
      life id s.trace = [.asked id, .accepted id, .taken id]
  /-- Once the worker has left its loop, the accepted jobs are those that were executed, those that
  waited then, and those that were accepted later. -/
  left : ∀ past rest, s.trace = past ++ .left :: rest →
    accepted s.trace = began s.trace ++ SerialServer.waiting past ++ accepted rest

/-- The acts of a schedule are what its threads did. -/
structure Truthful (parts : Parts σ ε) (runtime : σ) (events : List (Event σ ε)) : Prop where
  /-- A `submit` that has the lock asks then, under a number of its own, and its task waits under
  that number unless 64 tasks do. -/
  submits : ∀ task s, Moment parts runtime events (.submit task) s → s.locked = false →
    life s.submits s.trace = [] ∧
      if s.tasks_.length = 64 then
        (s.step parts (.submit task)).tasks_ = s.tasks_ ∧
          (s.step parts (.submit task)).trace = s.trace ++ [.asked s.submits,
            .answered s.submits (.object [("error", .string "Control queue full")], 429)]
      else
        (s.step parts (.submit task)).tasks_ = s.tasks_ ++ [⟨s.submits, task⟩] ∧
          (s.step parts (.submit task)).trace =
            s.trace ++ [.asked s.submits, .accepted s.submits]
  /-- Nothing else asks. -/
  asks : ∀ past id rest, (schedule parts runtime events).trace = past ++ .asked id :: rest →
    ∃ task s, Moment parts runtime events (.submit task) s ∧ s.locked = false ∧
      s.submits = id ∧ s.trace = past
  /-- A preparation is a tick of the network by the worker. -/
  ticks : ∀ past rest, (schedule parts runtime events).trace = past ++ .prepared :: rest →
    ∃ answers s task, Moment parts runtime events (.tick answers) s ∧ s.trace = past ∧
      s.worker_ = .ticking task ∧
      (s.step parts (.tick answers)).runtime = (parts.tick answers s.runtime).2
  /-- Whatever task the worker executes was submitted, and its job has begun and not ended. It ends
  with the outcome of the task. -/
  executes : ∀ answers s job, Moment parts runtime events (.run answers) s →
    s.worker_ = .running job → Submitted parts runtime events job ∧
      life job.id s.trace =
        [.asked job.id, .accepted job.id, .taken job.id, .began job.id] ∧
      ∀ outcome after, job.task answers s.runtime = (ending outcome, after) →
        (s.step parts (.run answers)).runtime = after ∧
          (s.step parts (.run answers)).trace = s.trace ++ [.ended job.id outcome]
  /-- No job ends otherwise. -/
  outcomes : ∀ past id outcome rest,
    (schedule parts runtime events).trace = past ++ .ended id outcome :: rest →
    ∃ task answers s, Moment parts runtime events (.run answers) s ∧ s.trace = past ∧
      s.worker_ = .running ⟨id, task⟩ ∧ Submitted parts runtime events ⟨id, task⟩ ∧
      task answers s.runtime = (ending outcome, (s.step parts (.run answers)).runtime)

theorem inHand_of_running {p : Position σ ε} {id : Nat} (h : turn p = .running id) :
    ∃ job, p = .running job ∧ job.id = id := by
  cases p with
  | running job =>
    cases h
    exact ⟨job, rfl, rfl⟩
  | ticking task | starting task => cases task <;> cases h
  | _ => cases h

theorem inHand_of_owing {p : Position σ ε} {id : Nat} {outcome : Except Exn Value}
    (h : turn p = .owing id outcome) : p = .replying id outcome := by
  cases p with
  | replying _ _ =>
    cases h
    rfl
  | ticking task | starting task => cases task <;> cases h
  | _ => cases h

theorem Serving.orderly {s : System σ ε} (h : Serving s) : Orderly s := by
  obtain ⟨server, trace, agrees⟩ := h
  have hqueue : s.tasks_.map (·.id) = SerialServer.waiting s.trace := by
    rw [← agrees.queue, trace.queue]
  have hbounded : s.tasks_.length ≤ 64 := by
    have hserver : server.queue.length ≤ 64 := trace.bounded
    rwa [agrees.queue, List.length_map] at hserver
  refine ⟨hqueue, hbounded, fun past id rest hsplit => trace.asked agrees.entering hsplit,
    trace.began_prefix, trace.accepted_nodup.sublist trace.began_prefix.sublist, ?_, ?_, ?_,
    fun id haccepted hnot => trace.unbegun haccepted hnot,
    fun past rest hsplit => trace.left hsplit⟩
  · intro past id rest hsplit earlier hearlier
    obtain ⟨outcome, hlife⟩ := trace.alone hsplit hearlier
    refine ⟨outcome, answer outcome, ?_, ?_, replies_answer outcome⟩
    · exact (mem_life (t := earlier) rfl).mp (by simp [hlife, Stage.acts])
    · exact (mem_life (t := earlier) rfl).mp (by simp [hlife, Stage.acts, rules])
  · intro past id rest hsplit
    obtain ⟨before, _, hbefore, step, -⟩ := trace.split hsplit
    cases step with
    | start _ turn => exact hbefore.prepared turn
  · intro id hbegan
    rcases trace.begun hbegan with hrunning | ⟨outcome, howing⟩ | ⟨outcome, hserved⟩
    · rw [agrees.turn] at hrunning
      exact .inl (.inl (inHand_of_running hrunning))
    · rw [agrees.turn] at howing
      exact .inl (.inr ⟨outcome, inHand_of_owing howing⟩)
    · exact .inr ⟨outcome, answer outcome, replies_answer outcome, hserved⟩

section Truthful
variable {parts : Parts σ ε} {runtime : σ} {events : List (Event σ ε)} {s : System σ ε}

theorem Moment.alive {event : Event σ ε} (h : Moment parts runtime events event s) :
    s.alive = true := by
  obtain ⟨_, _, _, _, alive⟩ := h
  exact alive

theorem Moment.serving {event : Event σ ε} (h : Moment parts runtime events event s) :
    Serving s := by
  obtain ⟨past, _, _, rfl, _⟩ := h
  exact QueueDiscipline.serving parts runtime past

/-- A number that was not given out yet is in no act. -/
theorem Serving.fresh (h : Serving s) : life s.submits s.trace = [] := by
  obtain ⟨server, trace, agrees⟩ := h
  obtain ⟨stage, hstage⟩ := trace.explained
  have hunseen : stage s.submits = .unseen := by
    by_contra hseen
    exact Nat.lt_irrefl _ (agrees.seen _ ((hstage.seen _).mpr hseen))
  rw [hstage.life, hunseen]
  rfl

theorem Serving.began (h : Serving s) {job : Job σ ε} (hworker : s.worker_ = .running job) :
    life job.id s.trace = [.asked job.id, .accepted job.id, .taken job.id, .began job.id] := by
  obtain ⟨server, trace, agrees⟩ := h
  exact trace.serving (agrees.turn.trans (by rw [hworker]; rfl))

theorem step_submit (alive : s.alive = true) (unlocked : s.locked = false) (task : Task σ ε) :
    s.step parts (.submit task) = s.submit task := by
  simp [System.step, alive, unlocked]

theorem step_run (alive : s.alive = true) {job : Job σ ε} (hworker : s.worker_ = .running job)
    (answers : ε) : s.step parts (.run answers) = s.run job answers := by
  simp [System.step, alive, hworker]

theorem run_ended {job : Job σ ε} {answers : ε} {outcome : Except Exn Value} {after : σ}
    (h : job.task answers s.runtime = (ending outcome, after)) :
    s.run job answers = s.ended job.id outcome after := by
  cases outcome <;> simp only [System.run, h, ending]

/-- Where the job was submitted that the worker executes at some moment. -/
theorem Moment.submitted {event : Event σ ε} (h : Moment parts runtime events event s)
    {job : Job σ ε} (hworker : s.worker_ = .running job) :
    Submitted parts runtime events job := by
  obtain ⟨past, rest, rfl, rfl, _⟩ := h
  obtain ⟨origin, ⟨early, late, hsplit, hstate, alive⟩, hrest⟩ :=
    QueueDiscipline.submitted parts runtime past job (.inr (by rw [hworker]; rfl))
  exact ⟨origin, ⟨early, late ++ event :: rest, by simp [hsplit], hstate, alive⟩, hrest⟩

theorem act_single {early late : List Act} {act a : Act} (h : early ++ act :: late = [a]) :
    early = [] ∧ act = a := by
  cases early with
  | nil => exact ⟨rfl, (List.cons_eq_cons.mp h).1⟩
  | cons _ _ => simp at h

theorem act_first {early late : List Act} {act a b : Act} (h : early ++ act :: late = [a, b])
    (other : act ≠ b) : early = [] ∧ act = a := by
  cases early with
  | nil => exact ⟨rfl, (List.cons_eq_cons.mp h).1⟩
  | cons _ _ => exact absurd (act_single (List.cons_eq_cons.mp h).2).2 other

theorem asks_submit {past rest : List Act} {id : Nat}
    (h : (schedule parts runtime events).trace = past ++ .asked id :: rest) :
    ∃ task s, Moment parts runtime events (.submit task) s ∧ s.locked = false ∧ s.submits = id ∧
      s.trace = past := by
  obtain ⟨event, s, early, late, hmoment, hdeed, hpast⟩ := origin h
  generalize hacts : early ++ Library.SerialServer.Act.asked id :: late = acts at hdeed
  cases hdeed with
  | silent => simp at hacts
  | refused task unlocked _ | accepted task unlocked _ =>
    obtain ⟨rfl, hid⟩ := act_first hacts (by simp)
    cases hid
    exact ⟨task, s, hmoment, unlocked, rfl, by rw [hpast, List.append_nil]⟩
  | _ => cases (act_single hacts).2

theorem prepared_tick {past rest : List Act}
    (h : (schedule parts runtime events).trace = past ++ .prepared :: rest) :
    ∃ answers s task, Moment parts runtime events (.tick answers) s ∧ s.trace = past ∧
      s.worker_ = .ticking task ∧
      (s.step parts (.tick answers)).runtime = (parts.tick answers s.runtime).2 := by
  obtain ⟨event, s, early, late, hmoment, hdeed, hpast⟩ := origin h
  generalize hacts : early ++ Library.SerialServer.Act.prepared :: late = acts at hdeed
  cases hdeed with
  | silent => simp at hacts
  | refused _ _ _ | accepted _ _ _ =>
    obtain ⟨-, hact⟩ := act_first hacts (by simp)
    cases hact
  | ticked answers task worker ticked =>
    obtain ⟨rfl, -⟩ := act_single hacts
    exact ⟨answers, s, task, hmoment, by rw [hpast, List.append_nil], worker, ticked⟩
  | _ => cases (act_single hacts).2

theorem ended_run {past rest : List Act} {id : Nat} {outcome : Except Exn Value}
    (h : (schedule parts runtime events).trace = past ++ .ended id outcome :: rest) :
    ∃ task answers s, Moment parts runtime events (.run answers) s ∧ s.trace = past ∧
      s.worker_ = .running ⟨id, task⟩ ∧ Submitted parts runtime events ⟨id, task⟩ ∧
      task answers s.runtime = (ending outcome, (s.step parts (.run answers)).runtime) := by
  obtain ⟨event, s, early, late, hmoment, hdeed, hpast⟩ := origin h
  generalize hacts : early ++ Library.SerialServer.Act.ended id outcome :: late = acts at hdeed
  cases hdeed with
  | silent => simp at hacts
  | refused _ _ _ | accepted _ _ _ =>
    obtain ⟨-, hact⟩ := act_first hacts (by simp)
    cases hact
  | ended answers job _ worker result =>
    obtain ⟨rfl, hact⟩ := act_single hacts
    cases hact
    exact ⟨job.task, answers, s, hmoment, by rw [hpast, List.append_nil], worker,
      hmoment.submitted worker, result⟩
  | _ => cases (act_single hacts).2

theorem truthful (parts : Parts σ ε) (runtime : σ) (events : List (Event σ ε)) :
    Truthful parts runtime events := by
  refine ⟨?_, fun _ _ _ => asks_submit, fun _ _ => prepared_tick, ?_,
    fun _ _ _ _ => ended_run⟩
  · intro task s hmoment unlocked
    refine ⟨hmoment.serving.fresh, ?_⟩
    rw [step_submit hmoment.alive unlocked]
    have hbounded := hmoment.serving.orderly.bounded
    unfold System.submit
    by_cases hfull : s.tasks_.length = 64
    · rw [if_pos hfull, if_pos (Nat.le_of_eq hfull.symm)]
      exact ⟨rfl, List.append_assoc _ _ _⟩
    · rw [if_neg hfull, if_neg (by omega)]
      exact ⟨rfl, List.append_assoc _ _ _⟩
  · intro answers s job hmoment hworker
    refine ⟨hmoment.submitted hworker, hmoment.serving.began hworker, ?_⟩
    intro outcome after hresult
    rw [step_run hmoment.alive hworker, run_ended hresult]
    exact ⟨rfl, rfl⟩

end Truthful

/-- Under every schedule of the submitting threads, the worker and the shutdown. -/
theorem queue_disciplined (parts : Parts σ ε) (runtime : σ) (events : List (Event σ ε)) :
    Orderly (schedule parts runtime events) ∧ Truthful parts runtime events :=
  ⟨(serving parts runtime events).orderly, truthful parts runtime events⟩

/-- A worker that does nothing else. -/
def idleParts : Parts Nat Unit where
  tick := fun _ ticks => (.returned (), ticks + 1)
  sample := fun _ _ ticks => (.returned (), ticks)
  noteCaptureError := fun _ ticks => ticks
  stopEngine := fun ticks => ticks
  rollBackPending := fun _ ticks => (.returned (), ticks)

def tellsTicks : Task Nat Unit := fun _ ticks => (.returned (.uint ticks), ticks)

def refuses (e : Exn) : Task Nat Unit := fun _ ticks => (.threw e, ticks)

/-- The loop of the worker with a job. -/
def turnOfWorker : List (Event Nat Unit) :=
  [.check, .wait false, .dequeue, .tick (), .start, .run (), .reply, .sample ()]

/-- Three jobs are executed, while a crowd of others fills the queue and overflows it. -/
def crowdedSession : List (Event Nat Unit) :=
  [.submit tellsTicks, .submit (refuses (.invalidArgument "name")),
    .submit (refuses (.runtimeError "busy"))] ++
  List.replicate 62 (.submit tellsTicks) ++ turnOfWorker ++ turnOfWorker ++ turnOfWorker ++
  [.requestStop, .check]

set_option maxRecDepth 4000 in
theorem queue_disciplined_session :
    (Orderly (schedule idleParts 0 crowdedSession) ∧ Truthful idleParts 0 crowdedSession) ∧
      life 0 (schedule idleParts 0 crowdedSession).trace =
        [.asked 0, .accepted 0, .taken 0, .began 0, .ended 0 (.ok (.uint 1)),
          .answered 0 (.uint 1, 200)] ∧
      life 1 (schedule idleParts 0 crowdedSession).trace =
        [.asked 1, .accepted 1, .taken 1, .began 1, .ended 1 (.error (.invalidArgument "name")),
          .answered 1 (.object [("error", .string "name")], 422)] ∧
      life 2 (schedule idleParts 0 crowdedSession).trace =
        [.asked 2, .accepted 2, .taken 2, .began 2, .ended 2 (.error (.runtimeError "busy")),
          .answered 2 (.object [("error", .string "busy")], 409)] ∧
      life 64 (schedule idleParts 0 crowdedSession).trace =
        [.asked 64, .answered 64 (.object [("error", .string "Control queue full")], 429)] :=
  ⟨queue_disciplined idleParts 0 crowdedSession, rfl, rfl, rfl, rfl⟩

end Magicbox.Guarantees.QueueDiscipline
