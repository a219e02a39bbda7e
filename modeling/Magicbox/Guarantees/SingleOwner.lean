import Magicbox.Source.Startup

/-!
# One process for a database, one for a network

Whatever processes start, fail, work and end in whatever order: nobody works on
a database or changes a network before it took the lock for it, and the work of
two processes on one of them never interleaves. A start is refused for a running
owner only, never for what an ended process left behind.
-/

set_option autoImplicit false

namespace Magicbox.Guarantees.SingleOwner
open Library Library.FileLock Source.Json Source.Startup

variable {ι : Type} [DecidableEq ι] {resolve : String → ι} {w : World ι} {pid : Nat}
  {p p' : Process} {r : Resource}

/-! ## What a process holds -/

def Stage.ownsDatabase : Stage → Bool
  | .dashboard | .store | .directories | .netns | .claimFile | .claim | .serving => true
  | _ => false

def Stage.claims : Stage → Bool
  | .directories | .netns | .claimFile | .claim => true
  | _ => false

/-- A running process is behind the lock of the resource. -/
def Holds (p : Process) : Resource → Prop
  | .database path => Stage.ownsDatabase p.stage = true ∧ path = p.options.database
  | .network inode => p.stage = .serving ∧ p.options.allowNetwork = true ∧ inode = p.inode

/-- The lock file of a resource. -/
abbrev file (resolve : String → ι) (r : Resource) : ι := resolve r.lockPath

/-- The acts of the host, seen from the lock files. -/
def acts (resolve : String → ι) (w : World ι) : List (Act Nat ι) :=
  w.trace.map (Act.map (file resolve))

/-- What the steps before a stage have checked. -/
structure Formed (p : Process) : Prop where
  token : p.stage = .token ∨ (∃ what, p.stage = .ended what) ∨
    32 ≤ p.token.length ∧ p.token.length ≤ 256
  enabled : Stage.claims p.stage = true → p.options.allowNetwork = true

structure Sound (resolve : String → ι) (w : World ι) : Prop where
  steps : Steps Owners.free (acts resolve w) w.owners
  owned : ∀ f pid, w.owners f = some pid ↔
    ∃ p, w.processes pid = some p ∧ ∃ r, Holds p r ∧ f = file resolve r
  formed : ∀ pid p, w.processes pid = some p → Formed p

theorem not_holds_ended {what : Option String} : ¬ Holds { p with stage := .ended what } r := by
  cases r <;> simp [Holds, Stage.ownsDatabase]

theorem formed_put (h : Sound resolve w) (formed : Formed p') {other : Nat} {q : Process}
    (hq : (w.put pid p').processes other = some q) : Formed q := by
  by_cases hother : other = pid
  · subst hother
    simp only [World.put, Function.update_self, Option.some.injEq] at hq
    exact hq ▸ formed
  · simp only [World.put, Function.update_of_ne hother] at hq
    exact h.formed other q hq

theorem Sound.put (h : Sound resolve w) (formed : Formed p')
    (same : ∀ r, Holds p' r ↔ ∃ p, w.processes pid = some p ∧ Holds p r) :
    Sound resolve (w.put pid p') := by
  refine ⟨h.steps, fun f other => ?_, fun _ _ => formed_put h formed⟩
  have howned := h.owned f other
  by_cases hother : other = pid
  · subst hother
    simp only [World.put, Function.update_self, Option.some.injEq, exists_eq_left', same]
    rw [howned]
    constructor
    · rintro ⟨p, hp, r, hholds, hf⟩
      exact ⟨r, ⟨p, hp, hholds⟩, hf⟩
    · rintro ⟨r, ⟨p, hp, hholds⟩, hf⟩
      exact ⟨p, hp, r, hholds, hf⟩
  · simp only [World.put, Function.update_of_ne hother]
    exact howned

theorem Sound.goto (h : Sound resolve w) (hp : w.processes pid = some p) {q : Process}
    {stage : Stage} (formed : Formed { q with stage })
    (same : ∀ r, Holds { q with stage } r ↔ Holds p r) : Sound resolve (w.goto pid q stage) := by
  refine h.put formed fun r => ?_
  rw [same r]
  simp [hp]

theorem Sound.finish (h : Sound resolve w) (q : Process) (what : Option String) :
    Sound resolve (w.finish pid q what) := by
  have formed : Formed { q with stage := .ended what } :=
    ⟨.inr (.inl ⟨what, rfl⟩), by simp [Stage.claims]⟩
  refine ⟨?_, fun f other => ?_, fun _ _ => formed_put h formed⟩
  · have hsteps := h.steps.snoc (Step.ended (p := pid))
    simpa [acts, World.finish, Act.map] using hsteps
  · have howned := h.owned f other
    simp only [World.finish, World.put, Owners.release_eq_some, howned]
    by_cases hother : other = pid
    · subst hother
      simp [not_holds_ended]
    · simp [hother]

theorem Sound.use (h : Sound resolve w) (hp : w.processes pid = some p) (hholds : Holds p r) :
    Sound resolve (w.use pid r) := by
  have howner : w.owners (file resolve r) = some pid :=
    (h.owned _ pid).mpr ⟨p, hp, r, hholds, rfl⟩
  refine ⟨?_, h.owned, h.formed⟩
  have hsteps := h.steps.snoc (Step.used howner)
  simpa [acts, World.use, Act.map] using hsteps

/-- A lock that is taken adds one resource. -/
theorem Sound.lock (h : Sound resolve w) (hp : w.processes pid = some p) {next : Stage}
    {what : String} (formed : Formed { p with stage := next })
    (more : ∀ s, Holds { p with stage := next } s ↔ Holds p s ∨ s = r) :
    Sound resolve (w.lock resolve pid p r next what) := by
  unfold World.lock
  split
  · next hfree =>
    refine ⟨?_, fun f other => ?_, fun _ _ => formed_put h formed⟩
    · have hsteps := h.steps.snoc (Step.locked (p := pid) hfree)
      simpa [acts, World.goto, World.put, Act.map] using hsteps
    · have howned := h.owned f other
      simp only [World.goto, World.put]
      by_cases hf : f = file resolve r
      · subst hf
        rw [Owners.lock_self]
        by_cases hother : other = pid
        · subst hother
          simp only [Function.update_self, Option.some.injEq, exists_eq_left', true_iff]
          exact ⟨r, (more r).mpr (.inr rfl), rfl⟩
        · rw [hfree] at howned
          simp only [Function.update_of_ne hother]
          simpa [Ne.symm hother] using howned
      · rw [Owners.lock_of_ne _ _ hf]
        by_cases hother : other = pid
        · subst hother
          simp only [Function.update_self, Option.some.injEq, exists_eq_left', more, howned, hp]
          constructor
          · rintro ⟨s, hholds, rfl⟩
            exact ⟨s, .inl hholds, rfl⟩
          · rintro ⟨s, hholds | rfl, rfl⟩
            · exact ⟨s, hholds, rfl⟩
            · exact absurd rfl hf
        · simp only [Function.update_of_ne hother]
          exact howned
  · exact h.finish p (some what)

/-! ## Steps -/

theorem readToken_length {file : Option TokenFile} {token : List UInt8}
    (h : readToken file = .ok token) : 32 ≤ token.length ∧ token.length ≤ 256 := by
  unfold readToken at h
  split at h
  · cases h
  · split at h
    · cases h
    · split at h
      · cases h
      · next hlength =>
        cases h
        omega

/-- Between two stages that own the same, nothing changes hands. -/
theorem holds_stage {stage stage' : Stage} (hstage : p.stage = stage)
    (howns : Stage.ownsDatabase stage' = Stage.ownsDatabase stage) (hne : stage ≠ .serving)
    (hne' : stage' ≠ .serving) : Holds { p with stage := stage' } r ↔ Holds p r := by
  cases r with
  | database path => simp [Holds, hstage, howns]
  | network inode => simp [Holds, hstage, hne, hne']

theorem sound_proceed (h : Sound resolve w) (hp : w.processes pid = some p) (answers : Answers) :
    Sound resolve (w.proceed resolve pid p answers) := by
  have hformed := h.formed pid p hp
  -- Behind the first stage a token was read, and the options say whether the network is claimed.
  have formed : ∀ stage', p.stage ≠ .token → (∀ what, p.stage ≠ .ended what) →
      (Stage.claims stage' = true → p.options.allowNetwork = true) →
      Formed { p with stage := stage' } := by
    intro stage' hread hruns henabled
    refine ⟨.inr (.inr ?_), henabled⟩
    rcases hformed.token with htoken | ⟨what, hended⟩ | hlength
    · exact absurd htoken hread
    · exact absurd hended (hruns what)
    · exact hlength
  have henabled := hformed.enabled
  unfold World.proceed
  cases hstage : p.stage with
  | token =>
    dsimp only
    split
    · exact h.finish p _
    · next token hread =>
      refine h.goto hp ⟨.inr (.inr (readToken_length hread)), by simp [Stage.claims]⟩ fun r => ?_
      cases r <;> simp [Holds, hstage, Stage.ownsDatabase]
  | lockFile =>
    dsimp only
    split
    · exact h.goto hp (formed _ (by simp [hstage]) (by simp [hstage]) (by simp [Stage.claims]))
        fun r => holds_stage hstage rfl (by simp) (by simp)
    · exact h.finish p _
  | lock =>
    refine h.lock hp (formed _ (by simp [hstage]) (by simp [hstage]) (by simp [Stage.claims]))
      fun s => ?_
    cases s <;> simp [Holds, hstage, Stage.ownsDatabase]
  | dashboard =>
    dsimp only
    split
    · exact h.goto hp (formed _ (by simp [hstage]) (by simp [hstage]) (by simp [Stage.claims]))
        fun r => holds_stage hstage rfl (by simp) (by simp)
    · exact h.finish p _
  | store =>
    have hused := h.use hp (r := .database p.options.database)
      ⟨by rw [hstage]; rfl, rfl⟩
    change Sound resolve (w.openStore pid p answers)
    unfold World.openStore
    split
    · exact hused.finish p _
    · by_cases hallow : p.options.allowNetwork = true
      · rw [if_pos hallow]
        exact hused.goto hp (formed _ (by simp [hstage]) (by simp [hstage]) fun _ => hallow)
          fun r => holds_stage hstage rfl (by simp) (by simp)
      · rw [if_neg hallow]
        refine hused.goto hp
          (formed _ (by simp [hstage]) (by simp [hstage]) (by simp [Stage.claims])) fun r => ?_
        cases r <;> simp [Holds, hstage, Stage.ownsDatabase, hallow]
  | directories =>
    have hallow := henabled (by rw [hstage]; rfl)
    dsimp only
    split
    · exact h.finish p _
    · exact h.goto hp (formed _ (by simp [hstage]) (by simp [hstage]) fun _ => hallow)
        fun r => holds_stage hstage rfl (by simp) (by simp)
  | netns =>
    have hallow := henabled (by rw [hstage]; rfl)
    dsimp only
    split
    · exact h.finish p _
    · next inode _ =>
      refine h.goto hp ⟨?_, fun _ => hallow⟩ fun r => ?_
      · exact (formed .claimFile (by simp [hstage]) (by simp [hstage]) fun _ => hallow).token
      · cases r <;> simp [Holds, hstage, Stage.ownsDatabase]
  | claimFile =>
    have hallow := henabled (by rw [hstage]; rfl)
    dsimp only
    split
    · exact h.goto hp (formed _ (by simp [hstage]) (by simp [hstage]) fun _ => hallow)
        fun r => holds_stage hstage rfl (by simp) (by simp)
    · exact h.finish p _
  | claim =>
    have hallow := henabled (by rw [hstage]; rfl)
    refine h.lock hp (formed _ (by simp [hstage]) (by simp [hstage]) (by simp [Stage.claims]))
      fun s => ?_
    cases s <;> simp [Holds, hstage, Stage.ownsDatabase, hallow]
  | serving =>
    change Sound resolve (w.work pid p answers)
    unfold World.work
    split
    · next hnetwork => exact h.use hp ⟨hstage, hnetwork.1, rfl⟩
    · exact h.use hp ⟨by rw [hstage]; rfl, rfl⟩
  | ended what => exact h

theorem sound_step (h : Sound resolve w) (event : Event) : Sound resolve (w.step resolve event) := by
  cases event with
  | launch pid options =>
    cases hp : w.processes pid with
    | none =>
      simp only [World.step, hp]
      refine h.put ⟨.inl rfl, by simp [Stage.claims]⟩ fun r => ?_
      cases r <;> simp [Holds, Stage.ownsDatabase, hp]
    | some p =>
      simp only [World.step, hp]
      exact h
  | step pid answers =>
    cases hp : w.processes pid with
    | none =>
      simp only [World.step, hp]
      exact h
    | some p =>
      simp only [World.step, hp]
      exact sound_proceed h hp answers
  | exit pid =>
    cases hp : w.processes pid with
    | none =>
      simp only [World.step, hp]
      exact h
    | some p =>
      simp only [World.step, hp]
      split
      · exact h
      · exact h.finish p none

theorem sound_host (resolve : String → ι) (events : List Event) :
    Sound resolve (host resolve events) := by
  refine Runs.invariant (P := fun _ => True) (I := Sound resolve)
    (fun w event _ h => sound_step h event) ⟨.nil, fun f pid => ?_, by simp⟩ fun _ _ => trivial
  simp [Owners.free]

/-! ## Work never interleaves -/

/-- Whatever starts and ends on the host: a process works on a database or
changes a network only behind a lock that it took and still has, and when
another process works on what the same lock file stands for, the first has
ended in between. -/
theorem uses_exclusive (resolve : String → ι) (events : List Event)
    {past mid rest : List (Act Nat Resource)} {p q : Nat} {r s : Resource}
    (htrace : (host resolve events).trace = past ++ .used p r :: (mid ++ .used q s :: rest))
    (hfile : resolve r.lockPath = resolve s.lockPath) :
    (∃ before t after, past = before ++ .locked p t :: after ∧
      resolve t.lockPath = resolve r.lockPath ∧ .ended p ∉ after) ∧
    (p ≠ q → .ended p ∈ mid) := by
  have hsteps := (sound_host resolve events).steps
  have hacts : acts resolve (host resolve events) =
      past.map (Act.map (file resolve)) ++ .used p (file resolve r) ::
        (mid.map (Act.map (file resolve)) ++ .used q (file resolve r) ::
          rest.map (Act.map (file resolve))) := by
    rw [acts, htrace]
    simp [Act.map, file, hfile]
  rw [hacts] at hsteps
  have hended : ∀ {l : List (Act Nat Resource)},
      (.ended p : Act Nat ι) ∈ l.map (Act.map (file resolve)) ↔ .ended p ∈ l := by
    intro l
    rw [List.mem_map]
    constructor
    · rintro ⟨a, ha, heq⟩
      cases a with
      | ended q =>
        cases heq
        exact ha
      | locked q t => cases heq
      | used q t => cases heq
    · exact fun h => ⟨_, h, rfl⟩
  constructor
  · obtain ⟨before, after, hpast, hafter⟩ := hsteps.entitled
    obtain ⟨before', tail, rfl, hbefore, htail⟩ := List.map_eq_append_iff.mp hpast
    obtain ⟨a, after', rfl, ha, hrest⟩ := List.map_eq_cons_iff.mp htail
    cases a with
    | locked p' t =>
      simp only [Act.map, Act.locked.injEq] at ha
      obtain ⟨rfl, ht⟩ := ha
      refine ⟨before', t, after', rfl, ht, fun hmem => hafter ?_⟩
      rw [← hrest]
      exact hended.mpr hmem
    | used p' t => cases ha
    | ended p' => cases ha
  · intro hne
    exact hended.mp (hsteps.disjoint hne)

/-- A start that nothing comes between. -/
def start (pid : Nat) (options : Source.CommandLine.Options) (answers : Answers) : List Event :=
  .launch pid options :: List.replicate 9 (.step pid answers)

/-- A host on which everything but the locks is as it should be. -/
def good (file : TokenFile) (inode : Nat) : Answers :=
  { tokenFile := some file, inode := some inode }

def exampleToken : TokenFile := ⟨true, 0o600, List.replicate 40 97 ++ [10]⟩

def exampleOptions : Source.CommandLine.Options :=
  { database := "a.sqlite", allowNetwork := true }

/-- One process after another, on one database and in one network. -/
def exampleEvents : List Event :=
  start 0 exampleOptions (good exampleToken 7) ++ [.step 0 { network := true }, .exit 0] ++
    start 1 exampleOptions (good exampleToken 7)

theorem uses_exclusive_example :
    .ended 0 ∈ ([.locked 0 (.network 7), .used 0 (.network 7), .ended 0,
      .locked 1 (.database "a.sqlite")] : List (Act Nat Resource)) := by
  have htrace : (host id exampleEvents).trace =
      [.locked 0 (.database "a.sqlite")] ++ .used 0 (.database "a.sqlite") ::
        ([.locked 0 (.network 7), .used 0 (.network 7), .ended 0,
          .locked 1 (.database "a.sqlite")] ++ .used 1 (.database "a.sqlite") ::
          [.locked 1 (.network 7)]) := by
    decide +kernel
  exact (uses_exclusive id exampleEvents htrace rfl).2 (by decide)

/-! ## Starts -/

/-- A running process owns the file. -/
def Held (resolve : String → ι) (w : World ι) (f : ι) : Prop :=
  ∃ other q r, w.processes other = some q ∧ Holds q r ∧ file resolve r = f

theorem Sound.held_iff (h : Sound resolve w) {f : ι} : Held resolve w f ↔ w.owners f ≠ none := by
  constructor
  · rintro ⟨other, q, r, hq, hholds, rfl⟩
    rw [(h.owned _ other).mpr ⟨q, hq, r, hholds, rfl⟩]
    exact Option.some_ne_none other
  · intro howner
    obtain ⟨other, hother⟩ := Option.ne_none_iff_exists'.mp howner
    obtain ⟨q, hq, r, hholds, hf⟩ := (h.owned f other).mp hother
    exact ⟨other, q, r, hq, hholds, hf.symm⟩

theorem start_run (resolve : String → ι) (options : Source.CommandLine.Options)
    {token : List UInt8} {file : TokenFile} (inode : Nat)
    (hfresh : w.processes pid = none) (hread : readToken (some file) = .ok token) :
    (Runs.run (World.step resolve) w (start pid options (good file inode))).processes pid =
      some
        (if w.owners (resolve (Resource.lockPath (.database options.database))) = none then
          if options.allowNetwork = true then
            if w.owners (resolve (Resource.lockPath (.network inode))) = none ∧
              resolve (Resource.lockPath (.network inode)) ≠
                resolve (Resource.lockPath (.database options.database)) then
              { options, token, inode, stage := .serving }
            else { options, token, inode, stage :=
              .ended (some "Another controller owns this network namespace") }
          else { options, token, stage := .serving }
        else { options, token, stage :=
          .ended (some "Another appliance instance owns this database") }) := by
  by_cases hdatabase : w.owners (resolve (Resource.lockPath (.database options.database))) = none
  · by_cases hallow : options.allowNetwork = true
    · have hclaim : (w.owners.lock pid (resolve (Resource.lockPath (.database options.database))))
          (resolve (Resource.lockPath (.network inode))) = none ↔
          w.owners (resolve (Resource.lockPath (.network inode))) = none ∧
            resolve (Resource.lockPath (.network inode)) ≠
              resolve (Resource.lockPath (.database options.database)) := by
        by_cases hsame : resolve (Resource.lockPath (.network inode)) =
            resolve (Resource.lockPath (.database options.database))
        · simp [hsame]
        · rw [Owners.lock_of_ne _ _ hsame]
          simp [hsame]
      by_cases hnetwork : w.owners (resolve (Resource.lockPath (.network inode))) = none ∧
          resolve (Resource.lockPath (.network inode)) ≠
            resolve (Resource.lockPath (.database options.database))
      · rw [if_pos hdatabase, if_pos hallow, if_pos hnetwork]
        have hfree := hclaim.mpr hnetwork
        simp [start, good, World.step, World.put, World.proceed, World.goto, World.lock,
          World.openStore, World.use, hfresh, hread, hdatabase, hallow, hfree]
      · rw [if_pos hdatabase, if_pos hallow, if_neg hnetwork]
        have htaken := mt hclaim.mp hnetwork
        simp [start, good, World.step, World.put, World.proceed, World.goto, World.lock,
          World.openStore, World.use, World.finish, hfresh, hread, hdatabase, hallow, htaken]
    · rw [if_pos hdatabase, if_neg hallow]
      simp [start, good, World.step, World.put, World.proceed, World.goto, World.lock,
        World.openStore, World.use, World.work, hfresh, hread, hdatabase, hallow]
  · rw [if_neg hdatabase]
    simp [start, good, World.step, World.put, World.proceed, World.goto, World.lock,
      World.finish, hfresh, hread, hdatabase]

end Magicbox.Guarantees.SingleOwner
