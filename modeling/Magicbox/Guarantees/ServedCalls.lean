import Magicbox.Guarantees.Authorization
import Magicbox.Guarantees.Recovery
import Magicbox.Source.ControlPlane

/-!
# What clients do to the network

The served appliance, with its clients, its queue and the thread behind it, refines
the serialized worker: whatever the schedule, the controller is where a list of
calls has led it. The commands among these calls are those of requests with the
token, in the order in which they came.
-/

set_option autoImplicit false

namespace Magicbox.Guarantees.ServedCalls
open Library Library.Crash Source Source.Json Source.Config Source.Netns Source.NetworkController
  Source.Worker Source.ControlPlane Source.StatusChanges Authorization Admissions Baseline
  KernelShape Rollback SettledKernel
open Source.ControlQueue (Task Job Position System)

variable {τ ρ α β : Type}

/-! ## Programs and their calls -/

/-- What changes the network. Ticks and the end of the worker are its own. -/
def isCommand : Call → Bool
  | .apply _ | .confirm | .rollback => true
  | .construct _ | .tick | .state | .shutdown => false

def goesOn : Outcome Exn α → Bool
  | .returned _ | .threw _ => true
  | .crashed => false

def commands (calls : List (Call × Supply)) : List Call := (calls.map Prod.fst).filter isCommand

theorem commands_append (calls calls' : List (Call × Supply)) :
    commands (calls ++ calls') = commands calls ++ commands calls' := by
  simp [commands]

/-- Calls of a running controller, answered from `given`. -/
def Drawn (given : List Supply) (calls : List (Call × Supply)) : Prop :=
  ∀ call ∈ calls, call.1.starts = false ∧ call.2 ∈ given

theorem Drawn.append {given : List Supply} {calls calls' : List (Call × Supply)}
    (h : Drawn given calls) (h' : Drawn given calls') : Drawn given (calls ++ calls') := by
  intro call hcall
  rcases List.mem_append.mp hcall with hcall | hcall
  · exact h call hcall
  · exact h' call hcall

theorem Drawn.mono {given given' : List Supply} {calls : List (Call × Supply)}
    (h : Drawn given calls) (hgiven : given ⊆ given') : Drawn given' calls :=
  fun call hcall => ⟨(h call hcall).1, hgiven (h call hcall).2⟩

/-- A controller in `w`, led by `calls` to `w'`, is still there if the process is. -/
structure Leads (w : World) (calls : List (Call × Supply)) (w' : World) (there : Bool) : Prop where
  world : ((⟨w, true⟩ : Node).run calls).world = w'
  alive : there = true → ((⟨w, true⟩ : Node).run calls).alive = true

theorem Leads.refl (w : World) (there : Bool) : Leads w [] w there := ⟨rfl, fun _ => rfl⟩

theorem Leads.trans {w w₁ w₂ : World} {calls calls' : List (Call × Supply)} {there : Bool}
    (h : Leads w calls w₁ true) (h' : Leads w₁ calls' w₂ there) :
    Leads w (calls ++ calls') w₂ there := by
  have hmiddle : (⟨w, true⟩ : Node).run calls = ⟨w₁, true⟩ := by
    obtain ⟨hworld, halive⟩ := h
    generalize (⟨w, true⟩ : Node).run calls = n at hworld halive ⊢
    obtain ⟨world, alive⟩ := n
    obtain rfl : world = w₁ := hworld
    obtain rfl : alive = true := halive rfl
    rfl
  have hrun : (⟨w, true⟩ : Node).run (calls ++ calls') = (⟨w₁, true⟩ : Node).run calls' := by
    rw [Node.run, Runs.run_append]
    exact congrArg (Runs.run Node.step · calls') hmiddle
  exact ⟨hrun ▸ h'.world, fun hthere => hrun ▸ h'.alive hthere⟩

/-- A program reaches the controller by calls alone, and the commands among them are `wanted`. -/
def Makes (given : List Supply) (wanted : List Call) (m : Program (Runtime τ) Exn α) : Prop :=
  ∀ s, ∃ calls, Drawn given calls ∧ commands calls = wanted ∧
    Leads s.network_ calls (m s).2.network_ (goesOn (m s).1)

variable {given : List Supply} {wanted : List Call}

theorem makes_none {m : Program (Runtime τ) Exn α} (h : ∀ s, (m s).2.network_ = s.network_) :
    Makes given [] m := fun s =>
  ⟨[], fun _ hcall => absurd hcall List.not_mem_nil, rfl, by rw [h s]; exact .refl _ _⟩

theorem Makes.bind {m : Program (Runtime τ) Exn α} {f : α → Program (Runtime τ) Exn β}
    (h : Makes given wanted m) (hf : ∀ a, Makes given [] (f a)) :
    Makes given wanted (m >>= f) := by
  intro s
  obtain ⟨calls, hwithin, hcommands, hleads⟩ := h s
  rw [bind_run]
  generalize m s = ending at hleads ⊢
  obtain ⟨a | e | _, t⟩ := ending
  · obtain ⟨calls', hwithin', hcommands', hleads'⟩ := hf a t
    refine ⟨calls ++ calls', hwithin.append hwithin', ?_, hleads.trans hleads'⟩
    rw [commands_append, hcommands, hcommands', List.append_nil]
  · exact ⟨calls, hwithin, hcommands, hleads⟩
  · exact ⟨calls, hwithin, hcommands, hleads⟩

/-- A method of the controller. -/
theorem makes_call {supply : Supply} {m : Controller α} (call : Call) (hcall : call.starts = false)
    (hbody : ∀ w, (call.body w).2 = (m w).2 ∧ goesOn (call.body w).1 = goesOn (m w).1)
    (hsupply : supply ∈ given) :
    Makes given (if isCommand call then [call] else []) (controller (τ := τ) supply m) := by
  intro s
  obtain ⟨hworld, hgoes⟩ := hbody (supplied s.network_ supply)
  refine ⟨[(call, supply)], ?_, ?_, ?_, fun hthere => ?_⟩
  · intro event hevent
    obtain rfl := List.mem_singleton.mp hevent
    exact ⟨hcall, hsupply⟩
  · cases hc : isCommand call <;> simp [commands, hc]
  · exact hworld
  · have hon : goesOn (call.body (supplied s.network_ supply)).1 = true := hgoes.trans hthere
    change call.survives (call.body (supplied s.network_ supply)).1 = true
    revert hon
    cases (call.body (supplied s.network_ supply)).1 <;> simp [goesOn, Call.survives, hcall]

theorem makes_state {supply : Supply} (hsupply : supply ∈ given) :
    Makes given [] (controller (τ := τ) supply state) := by
  refine makes_call .state rfl (fun w => ?_) hsupply
  simp only [Call.body]
  rw [bind_run]
  rcases state w with ⟨v | e | _, w'⟩ <;> exact ⟨rfl, rfl⟩

theorem makes_unit {supply : Supply} (call : Call) (hcall : call.starts = false)
    (hsupply : supply ∈ given) :
    Makes given (if isCommand call then [call] else []) (controller (τ := τ) supply call.body) :=
  makes_call call hcall (fun _ => ⟨rfl, rfl⟩) hsupply

/-! ## Requests -/

/-- The command that a request is. -/
def asks (reader : String → Requests.Parsed) (content : Content) : List Call :=
  match endpoint content.path content.method with
  | some .apply => ((Requests.configBody reader content.body).map Call.apply).toOption.toList
  | some .confirm => [.confirm]
  | some .rollback => [.rollback]
  | _ => []

def supplies (answers : Answers ρ) : List Supply := [answers.first, answers.second]

variable {parts : Rest τ ρ} {answers : Answers ρ}

theorem makes_snapshot {supply : Supply} (hsupply : supply ∈ given) :
    Makes given [] (snapshot parts supply) :=
  (makes_state hsupply).bind fun _ => makes_none fun _ => rfl

theorem makes_liftExcept (x : Except Exn α) :
    Makes given [] (liftExcept x : Program (Runtime τ) Exn α) :=
  makes_none fun _ => by cases x <;> rfl

theorem first_mem : answers.first ∈ supplies answers := List.mem_cons_self

theorem second_mem : answers.second ∈ supplies answers := by simp [supplies]

theorem makes_request (content : Content) :
    Makes (supplies answers) (asks parts.reader content)
      (ControlPlane.request parts content answers) := by
  unfold ControlPlane.request asks
  cases endpoint content.path content.method with
  | none => exact makes_none fun _ => rfl
  | some e =>
    cases e with
    | status =>
      exact (makes_state first_mem).bind fun _ => (makes_none fun _ => rfl).bind fun _ =>
        (makes_snapshot second_mem).bind fun _ => makes_none fun _ => rfl
    | interfaces => exact makes_liftExcept _
    | config => exact makes_state first_mem
    | validate => exact (makes_liftExcept _).bind fun _ => makes_none fun _ => rfl
    | apply =>
      unfold serve
      cases Requests.configBody parts.reader content.body with
      | error e => exact makes_none fun _ => rfl
      | ok c => exact (makes_unit (.apply c) rfl first_mem).bind fun _ => makes_state second_mem
    | confirm => exact (makes_unit .confirm rfl first_mem).bind fun _ => makes_state second_mem
    | rollback => exact (makes_unit .rollback rfl first_mem).bind fun _ => makes_state second_mem
    | startCapture =>
      exact (makes_liftExcept _).bind fun _ => (makes_none fun _ => rfl).bind fun _ =>
        makes_snapshot first_mem
    | removeCapture => exact (makes_none fun _ => rfl).bind fun _ => makes_snapshot first_mem
    | metrics => exact makes_snapshot first_mem
    | packets => exact makes_none fun _ => rfl
    | flows => exact makes_none fun _ => rfl
    | history =>
      exact (makes_liftExcept _).bind fun _ => (makes_liftExcept _).bind fun _ =>
        makes_none fun _ => rfl

/-! ## The queue -/

/-- What a task asks the controller for, whatever is answered. -/
def Wants (task : Task (Runtime τ) (Answers ρ)) (wanted : List Call) : Prop :=
  ∀ answers, Makes (supplies answers) wanted (task answers)

/-- The controller is where `calls` have led it from `w`. The commands among
them, and those of the jobs that wait, are in the order of `asked`. -/
structure Serves (w : World) (given : List Supply) (asked : List Call)
    (q : System (Runtime τ) (Answers ρ)) (calls : List (Call × Supply)) (owed : List (List Call)) :
    Prop where
  leads : Leads w calls q.runtime.network_ q.alive
  drawn : Drawn given calls
  jobs : q.alive = true → List.Forall₂ (fun job wanted => Wants job.task wanted) q.jobs owed
  order : (commands calls ++ owed.flatten).Sublist asked

def Served (w : World) (given : List Supply) (asked : List Call)
    (q : System (Runtime τ) (Answers ρ)) : Prop :=
  ∃ calls owed, Serves w given asked q calls owed

variable {w : World} {asked : List Call} {given' : List Supply}
  {q q' : System (Runtime τ) (Answers ρ)}

theorem Served.mono {asked' : List Call} (h : Served w given asked q) (hgiven : given ⊆ given')
    (hasked : asked.Sublist asked') : Served w given' asked' q := by
  obtain ⟨calls, owed, hserves⟩ := h
  exact ⟨calls, owed, hserves.leads, hserves.drawn.mono hgiven, hserves.jobs,
    hserves.order.trans hasked⟩

/-- A program that runs on the runtime, and settles what was owed first. -/
theorem Serves.after {calls : List (Call × Supply)} {owed rest : List (List Call)}
    (h : Serves w given asked q calls owed) (halive : q.alive = true)
    {m : Program (Runtime τ) Exn α} (hm : Makes given' wanted m)
    (network : q'.runtime.network_ = (m q.runtime).2.network_)
    (goes : q'.alive = true → goesOn (m q.runtime).1 = true)
    (jobs : q'.alive = true →
      List.Forall₂ (fun job wanted => Wants job.task wanted) q'.jobs rest)
    (settled : owed.flatten = wanted ++ rest.flatten) : Served w (given ++ given') asked q' := by
  obtain ⟨calls', hdrawn, hcommands, hleads⟩ := hm q.runtime
  have hbefore : Leads w calls q.runtime.network_ true := halive ▸ h.leads
  have hafter := hbefore.trans hleads
  refine ⟨calls ++ calls', rest, ⟨?_, fun hthere => hafter.alive (goes hthere)⟩, ?_, jobs, ?_⟩
  · exact hafter.world.trans network.symm
  · exact (h.drawn.mono (List.subset_append_left _ _)).append
      (hdrawn.mono (List.subset_append_right _ _))
  · rw [commands_append, hcommands, List.append_assoc, ← settled]
    exact h.order

/-- A step of the worker besides its jobs. -/
theorem Served.work (h : Served w given asked q) (halive : q.alive = true)
    {m : Program (Runtime τ) Exn α} (hm : Makes given' [] m)
    (network : q'.runtime.network_ = (m q.runtime).2.network_)
    (goes : q'.alive = true → goesOn (m q.runtime).1 = true ∧ q'.jobs = q.jobs) :
    Served w (given ++ given') asked q' := by
  obtain ⟨calls, owed, hserves⟩ := h
  refine hserves.after halive hm network (fun hthere => (goes hthere).1) (fun hthere => ?_) rfl
  rw [(goes hthere).2]
  exact hserves.jobs halive

/-- A step that has nothing to do with the controller. -/
theorem Served.silent (h : Served w given asked q) (halive : q.alive = true)
    (network : q'.runtime.network_ = q.runtime.network_) (hwaiting : q'.jobs = q.jobs) :
    Served w (given ++ given') asked q' :=
  h.work halive (m := read fun _ => ()) (makes_none fun _ => rfl) network
    fun _ => ⟨rfl, hwaiting⟩

/-- The job in hand. -/
theorem Served.job (h : Served w given asked q) (halive : q.alive = true)
    {job : Job (Runtime τ) (Answers ρ)} (hworker : q.worker_ = .running job)
    (answers : Answers ρ) (network : q'.runtime.network_ =
      (job.task answers q.runtime).2.network_)
    (goes : q'.alive = true → goesOn (job.task answers q.runtime).1 = true ∧
      q'.jobs = q.tasks_) : Served w (given ++ supplies answers) asked q' := by
  obtain ⟨calls, owed, hserves⟩ := h
  have hjobs := hserves.jobs halive
  rw [System.jobs, hworker] at hjobs
  obtain ⟨wanted, rest, hwants, hrest, rfl⟩ := List.forall₂_cons_left_iff.mp hjobs
  refine hserves.after halive (hwants answers) network (fun hthere => (goes hthere).1)
    (fun hthere => ?_) List.flatten_cons
  rw [(goes hthere).2]
  exact hrest

/-- The jobs that wait are dropped. -/
theorem Served.drop (h : Served w given asked q) (network : q'.runtime = q.runtime)
    (alive : q'.alive = q.alive) (hwaiting : q'.jobs = []) : Served w given asked q' := by
  obtain ⟨calls, owed, hserves⟩ := h
  refine ⟨calls, [], ?_, hserves.drawn, fun _ => hwaiting ▸ .nil, ?_⟩
  · rw [network, alive]
    exact hserves.leads
  · rw [List.flatten_nil, List.append_nil]
    exact (List.sublist_append_left _ _).trans hserves.order

theorem served_submit (h : Served w given asked q) {task : Task (Runtime τ) (Answers ρ)}
    (htask : Wants task wanted) : Served w given (asked ++ wanted) (q.submit task) := by
  obtain ⟨calls, owed, hserves⟩ := h
  unfold System.submit
  split
  · exact ⟨calls, owed, hserves.leads, hserves.drawn, hserves.jobs,
      hserves.order.trans (List.sublist_append_left _ _)⟩
  · refine ⟨calls, owed ++ [wanted], hserves.leads, hserves.drawn, fun hthere => ?_, ?_⟩
    · have hjobs : List.Forall₂ (fun job wanted => Wants job.task wanted)
          (q.jobs ++ [⟨q.submits, task⟩]) (owed ++ [wanted]) :=
        List.rel_append (hserves.jobs hthere) (.cons htask .nil)
      rwa [System.jobs, List.append_assoc] at hjobs
    · rw [List.flatten_append, ← List.append_assoc]
      exact hserves.order.append (by simp)

/-- What the environment contributes to an event. -/
def answered : ControlQueue.Event (Runtime τ) (Answers ρ) → List Supply
  | .tick answers | .run answers | .sample answers | .lastSample answers | .rollBack answers =>
    supplies answers
  | _ => []

theorem served_closing (h : Served w given asked q) (halive : q.alive = true)
    {m : Program (Runtime τ) Exn Unit} (hm : Makes given' [] m)
    {next : Position (Runtime τ) (Answers ρ)} (hnow : q.worker_.jobs = [])
    (hnext : next.jobs = []) :
    Served w (given ++ given') asked (q.closing (m q.runtime) next) := by
  rcases hending : m q.runtime with ⟨_ | e | _, s⟩
  · exact h.work halive hm (by rw [hending]; rfl) fun _ =>
      ⟨by rw [hending]; rfl, by simp [System.closing, System.jobs, hnow, hnext]⟩
  · exact h.work halive hm (by rw [hending]; rfl) fun _ =>
      ⟨by rw [hending]; rfl, by simp [System.closing, System.jobs, hnow, hnext]⟩
  · exact h.work halive hm (by rw [hending]; rfl) fun hthere => by cases hthere

theorem served_tick (h : Served w given asked q) (halive : q.alive = true)
    {task : Option (Job (Runtime τ) (Answers ρ))} (hworker : q.worker_ = .ticking task) :
    Served w (given ++ supplies answers) asked (q.tick (work parts) task answers) := by
  have hmakes : Makes (τ := τ) (supplies answers) [] (controller answers.first tick) :=
    makes_unit .tick rfl first_mem
  unfold System.tick
  rcases hending : (work parts).tick answers q.runtime with ⟨_ | e | _, s⟩
  all_goals
    have hsame : controller answers.first tick q.runtime = _ := hending
  · exact h.work halive hmakes (by rw [hsame]) fun _ =>
      ⟨by rw [hsame]; rfl, by simp [System.jobs, Position.jobs, hworker]⟩
  · exact h.work halive hmakes (by rw [hsame]) fun _ =>
      ⟨by rw [hsame]; rfl, by simp [System.jobs, Position.jobs, hworker]⟩
  · exact h.work halive hmakes (by rw [hsame]; rfl) fun hthere => by cases hthere

theorem served_task (h : Served w given asked q) (halive : q.alive = true)
    {job : Job (Runtime τ) (Answers ρ)} (hworker : q.worker_ = .running job) :
    Served w (given ++ supplies answers) asked (q.run job answers) := by
  unfold System.run
  rcases hending : job.task answers q.runtime with ⟨v | e | _, s⟩
  · exact h.job halive hworker answers (by rw [hending]; rfl) fun _ => ⟨by rw [hending]; rfl, rfl⟩
  · exact h.job halive hworker answers (by rw [hending]; rfl) fun _ => ⟨by rw [hending]; rfl, rfl⟩
  · exact h.job halive hworker answers (by rw [hending]; rfl) fun hthere => by cases hthere

theorem served_sample (h : Served w given asked q) (halive : q.alive = true)
    (hworker : q.worker_ = .sampling) :
    Served w (given ++ supplies answers) asked (q.sample (work parts) answers) := by
  unfold System.sample
  rcases hending : (work parts).sample false answers q.runtime with ⟨_ | e | _, s⟩
  all_goals
    have hnetwork : s.network_ = q.runtime.network_ := by
      have hsame : others (parts.sample false answers.rest) q.runtime = _ := hending
      exact (congrArg (fun ending => ending.2.network_) hsame).symm
  · exact h.silent halive hnetwork (by simp [System.jobs, Position.jobs, hworker])
  · exact h.silent halive hnetwork (by simp [System.jobs, Position.jobs, hworker])
  · exact h.silent halive hnetwork (by simp [System.jobs, Position.jobs, hworker, System.crash])

/-- A step at the queue that is no submission. -/
theorem served_step (event : ControlQueue.Event (Runtime τ) (Answers ρ))
    (hevent : ∀ task, event ≠ .submit task) (h : Served w given asked q) :
    Served w (given ++ answered event) asked (q.step (work parts) event) := by
  unfold System.step
  split
  · next halive =>
    split
    · exact absurd rfl (hevent _)
    · exact h.silent halive rfl rfl
    · next hworker =>
      unfold System.check
      split <;> exact h.silent halive rfl (by simp [System.jobs, Position.jobs, hworker])
    · next hworker =>
      unfold System.wait
      split
      · exact h.silent halive rfl (by simp [System.jobs, Position.jobs, hworker])
      · exact h.silent halive rfl rfl
    · next hworker =>
      unfold System.dequeue
      split
      · next htasks =>
        exact h.silent halive rfl (by simp [System.jobs, Position.jobs, hworker, htasks])
      · next htasks =>
        exact h.silent halive rfl (by simp [System.jobs, Position.jobs, hworker, htasks])
    · next hworker => exact served_tick h halive hworker
    · next task hworker =>
      cases task with
      | none =>
        exact h.silent halive rfl (by simp [System.start, System.jobs, Position.jobs, hworker])
      | some job =>
        exact h.silent halive rfl (by simp [System.start, System.jobs, Position.jobs, hworker])
    · next hworker => exact served_task h halive hworker
    · next hworker =>
      exact h.silent halive rfl (by simp [System.reply, System.jobs, Position.jobs, hworker])
    · next hworker => exact served_sample h halive hworker
    · next hworker => exact h.silent halive rfl (by simp [System.jobs, Position.jobs, hworker])
    · next answers hworker =>
      exact served_closing h halive (m := others (parts.sample true answers.rest))
        (makes_none fun _ => rfl) (by simp [Position.jobs, hworker]) rfl
    · next answers hworker =>
      exact served_closing h halive (makes_unit .shutdown rfl first_mem)
        (by simp [Position.jobs, hworker]) rfl
    · next hworker =>
      have hclear : Served w given asked q.clear := h.drop rfl rfl rfl
      exact hclear.mono (List.subset_append_left _ _) (List.Sublist.refl _)
    · exact h.mono (List.subset_append_left _ _) (List.Sublist.refl _)
  · exact h.mono (List.subset_append_left _ _) (List.Sublist.refl _)

/-! ## The front end -/

/-- What the environment contributes to an event. -/
def contributed : Gate.Event Content (Runtime τ) (Answers ρ) → List Supply
  | .queue event => answered event
  | _ => []

/-- The command of a request that presents the token. -/
def demanded (token_ : List UInt8) (reader : String → Requests.Parsed) :
    Gate.Event Content (Runtime τ) (Answers ρ) → List Call
  | .http _ r => if Presents token_ r then asks reader r.content else []
  | _ => []

variable {token_ : List UInt8} {front : Gate.Front (Runtime τ) (Answers ρ)} {past : List Call}

theorem served_submitted {task : Task (Runtime τ) (Answers ρ)} (h : Served w given past q)
    (htask : Wants task wanted) :
    Served w given (past ++ wanted) (q.step (work parts) (.submit task)) := by
  unfold System.step
  split
  · simp only
    split
    · exact h.mono (List.Subset.refl _) (List.sublist_append_left _ _)
    · exact served_submit h htask
  · exact h.mono (List.Subset.refl _) (List.sublist_append_left _ _)

theorem served_front (event : Gate.Event Content (Runtime τ) (Answers ρ))
    (h : Served w given past front.core.queue) :
    Served w (given ++ contributed event) (past ++ demanded token_ parts.reader event)
      (front.step (app parts token_) event).core.queue := by
  have moves := Gate.step_moves (app parts token_) front event
  generalize (front.step (app parts token_) event).core.queue = q' at moves ⊢
  cases moves with
  | same => exact h.mono (List.subset_append_left _ _) (List.sublist_append_left _ _)
  | queue hevent =>
    exact (served_step _ hevent h).mono (List.Subset.refl _) (List.sublist_append_left _ _)
  | @request client r hauthorized =>
    have hdemanded : demanded token_ parts.reader (.http client r : Gate.Event Content
        (Runtime τ) (Answers ρ)) = asks parts.reader r.content :=
      if_pos (authorized_iff.mp hauthorized)
    rw [hdemanded]
    exact (served_submitted h fun answers => makes_request r.content).mono
      (List.subset_append_left _ _) (List.Sublist.refl _)
  | snapshot =>
    exact (served_submitted h fun answers => makes_snapshot first_mem).mono
      (List.subset_append_left _ _) (List.Sublist.refl _)

theorem served_run (parts : Rest τ ρ) (token_ : List UInt8) (runtime : Runtime τ)
    (events : List (Gate.Event Content (Runtime τ) (Answers ρ))) :
    Served runtime.network_ (events.flatMap contributed)
      (events.flatMap (demanded token_ parts.reader))
      (Gate.serve (app parts token_) runtime events).core.queue := by
  refine Runs.historyInvariant (J := fun past (front : Gate.Front (Runtime τ) (Answers ρ)) =>
    Served runtime.network_ (past.flatMap contributed)
      (past.flatMap (demanded token_ parts.reader)) front.core.queue) ?_ ?_ events
  · exact ⟨[], [], .refl _ _, fun _ hcall => absurd hcall List.not_mem_nil, fun _ => .nil,
      List.Sublist.refl _⟩
  · intro past event h
    rw [Runs.run_snoc, List.flatMap_append, List.flatMap_append]
    simpa using served_front event h

/-- Take the appliance with any clients, requests, connections and messages, in
any schedule of all its threads. The controller is where a list of calls has led
it, each answered by what the environment contributes to the schedule. The
commands among them are a part of what requests with the token ask for, each
at most as often, and in the order of the requests. -/
theorem served_refines (parts : Rest τ ρ) (token_ : List UInt8) (runtime : Runtime τ)
    (events : List (Gate.Event Content (Runtime τ) (Answers ρ))) :
    ∃ calls : List (Call × Supply),
      Leads runtime.network_ calls
        (Gate.serve (app parts token_) runtime events).core.queue.runtime.network_
        (Gate.serve (app parts token_) runtime events).core.queue.alive ∧
      Drawn (events.flatMap contributed) calls ∧
      (commands calls).Sublist (events.flatMap (demanded token_ parts.reader)) := by
  obtain ⟨calls, owed, hserves⟩ := served_run parts token_ runtime events
  exact ⟨calls, hserves.leads, hserves.drawn,
    (List.sublist_append_left _ _).trans hserves.order⟩

/-! ## What is in force -/

theorem mem_admissions {u : World} {c : NetworkConfig} {kernel : Kernel} :
    (c, kernel) ∈ admissions u ↔ .admitted c kernel ∈ u.log := by
  unfold admissions
  rw [List.mem_filterMap]
  constructor
  · rintro ⟨act, hmem, hact⟩
    cases act <;> cases hact
    exact hmem
  · exact fun hmem => ⟨_, hmem, rfl⟩

/-- Whatever is admitted has been asked for. -/
theorem admitted_step {n : Node} {event : Call × Supply} (hcall : event.1.starts = false)
    {x : NetworkConfig × Kernel} (hx : x ∈ admissions (n.step event).world) :
    x ∈ admissions n.world ∨ .apply x.1 ∈ commands [event] := by
  cases halive : n.alive with
  | false =>
    rw [step_dead hcall halive] at hx
    exact .inl hx
  | true =>
    rw [step_live halive] at hx
    rcases hrun : event.1.body (supplied n.world event.2) with ⟨o, w'⟩
    rw [hrun] at hx
    by_cases happly : ∃ c, event.1 = .apply c
    · obtain ⟨c, hc⟩ := happly
      rw [hc] at hrun
      cases apply_founds (w := supplied n.world event.2) (c := c) hrun with
      | refused same _ _ =>
        rw [show admissions w' = _ from same] at hx
        exact .inl hx
      | founded _ admitted _ _ =>
        rw [show admissions w' = _ from admitted] at hx
        rcases List.mem_append.mp hx with hold | hnew
        · exact .inl hold
        · obtain rfl := List.mem_singleton.mp hnew
          exact .inr (by simp [commands, hc, isCommand])
    · have hother : ∀ c, event.1 ≠ .apply c := fun c hc => happly ⟨c, hc⟩
      have restates := restates_eq (body_restates hcall hother) hrun
      rw [show admissions w' = _ from admissions_of_restates restates] at hx
      exact .inl hx

theorem admitted_run {n : Node} {calls : List (Call × Supply)} (h : Drawn given calls)
    {x : NetworkConfig × Kernel} (hx : x ∈ admissions (n.run calls).world) :
    x ∈ admissions n.world ∨ .apply x.1 ∈ commands calls := by
  induction calls using List.reverseRecOn with
  | nil => exact .inl hx
  | append_singleton past event ih =>
    rw [Node.run_snoc] at hx
    have hpast : Drawn given past := fun call hcall => h call (List.mem_append_left _ hcall)
    have hevent := (h event (by simp)).1
    rw [commands_append]
    rcases admitted_step hevent hx with hbefore | hnew
    · exact (ih hpast hbefore).imp_right (List.mem_append_left _)
    · exact .inr (List.mem_append_right _ hnew)

theorem not_idle {status : String} {v : Value} (h : HasStatus status v) (hs : status ≠ "inactive") :
    ¬ Idle v := by
  rintro (hnull | hinactive)
  · exact absurd (h.present.symm.trans hnull) (by simp)
  · exact hs (h.unique hinactive)

/-- A configuration that an earlier process admitted, or that a request with the token asks for. -/
def Known (u : World) (demands : List Call) (c : NetworkConfig) : Prop :=
  (∃ kernel, .admitted c kernel ∈ u.log) ∨ .apply c ∈ demands

/-- A runtime that captures nothing, and a reader that reads one configuration. -/
def silent : Rest Unit Unit where
  sample := fun _ _ => pure ()
  noteCaptureError := fun _ _ => ()
  stopEngine := fun _ => ()
  texts := fun _ => ⟨"", "", ""⟩
  snapshot := fun _ network => network
  interfaces := fun _ => .ok .null
  startCapture := fun _ _ => pure ()
  removeCapture := fun _ => pure ()
  recent_ := fun _ => .null
  connections := fun _ => pure .null
  evaluation := fun _ => ⟨0, 0, true⟩
  history := fun _ _ _ _ => pure .null
  reader := fun _ => .value (ConfigJson.configJson exampleConfig)

/-- A client puts the configuration, and the worker gets to it. -/
def putServed : List (Gate.Event Content (Runtime Unit) (Answers Unit)) :=
  [.http 0 ⟨fun name => if name = "authorization" then LiveSocket.bytes "Bearer secret" else [],
      ⟨"/api/v1/config", .put, "", fun _ => ""⟩⟩,
    .queue .check, .queue (.wait false), .queue .dequeue, .queue (.tick ⟨answering, {}, ()⟩),
    .queue .start, .queue (.run ⟨answering, answering, ()⟩), .queue .reply]

end Magicbox.Guarantees.ServedCalls
