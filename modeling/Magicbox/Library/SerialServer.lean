import Mathlib.Data.List.Nodup

/-!
# A serial server behind a bounded queue

Tickets are let into a queue of fixed capacity or turned away, and one server
takes them out, prepares itself, serves them and answers. The server is a
relation between its acts and its states. What an observer can conclude from
the acts alone is derived from that relation, so that a program whose acts it
allows needs no argument of its own about orders and counts.
-/

set_option autoImplicit false

namespace Magicbox.Library.SerialServer

/-- What an observer sees of tickets `ι`, outcomes `ω` and replies `ρ`. -/
inductive Act (ι ω ρ : Type) where
  | asked (t : ι)
  | accepted (t : ι)
  | answered (t : ι) (reply : ρ)
  | taken (t : ι)
  /-- What the server does before each ticket, and also when there is none. -/
  | prepared
  | began (t : ι)
  | ended (t : ι) (outcome : ω)
  /-- The server takes no more tickets. -/
  | left
  /-- Whoever is still waiting is sent away without an answer. -/
  | dropped
  deriving DecidableEq, Repr

/-- What the server has in hand. -/
inductive Turn (ι ω : Type) where
  | free
  | taken (t : ι)
  | prepared (t : ι)
  | running (t : ι)
  | owing (t : ι) (outcome : ω)
  | over

structure Server (ι ω : Type) where
  seen : List ι := []
  /-- The ticket that is neither in nor turned away yet. -/
  entering : Option ι := none
  queue : List ι := []
  turn : Turn ι ω := .free

structure Rules (ω ρ : Type) where
  capacity : Nat
  /-- The reply to a ticket that is turned away. -/
  full : ρ
  answer : ω → ρ

variable {ι ω ρ : Type}

inductive Step (rules : Rules ω ρ) : Server ι ω → Act ι ω ρ → Server ι ω → Prop
  | ask {s t} (fresh : t ∉ s.seen) (entering : s.entering = none) :
    Step rules s (.asked t) { s with seen := t :: s.seen, entering := some t }
  | accept {s t} (entering : s.entering = some t) (room : s.queue.length < rules.capacity) :
    Step rules s (.accepted t) { s with entering := none, queue := s.queue ++ [t] }
  | refuse {s t} (entering : s.entering = some t) (full : s.queue.length = rules.capacity) :
    Step rules s (.answered t rules.full) { s with entering := none }
  | take {s t rest} (entering : s.entering = none) (turn : s.turn = .free)
    (queue : s.queue = t :: rest) :
    Step rules s (.taken t) { s with queue := rest, turn := .taken t }
  | idle {s} (entering : s.entering = none) (turn : s.turn = .free) : Step rules s .prepared s
  | prepare {s t} (entering : s.entering = none) (turn : s.turn = .taken t) :
    Step rules s .prepared { s with turn := .prepared t }
  | start {s t} (entering : s.entering = none) (turn : s.turn = .prepared t) :
    Step rules s (.began t) { s with turn := .running t }
  | finish {s t} (outcome : ω) (entering : s.entering = none) (turn : s.turn = .running t) :
    Step rules s (.ended t outcome) { s with turn := .owing t outcome }
  | answer {s t outcome} (entering : s.entering = none) (turn : s.turn = .owing t outcome) :
    Step rules s (.answered t (rules.answer outcome)) { s with turn := .free }
  | leave {s} (entering : s.entering = none) (turn : s.turn = .free) :
    Step rules s .left { s with turn := .over }
  | drop {s} (entering : s.entering = none) (turn : s.turn = .over) :
    Step rules s .dropped { s with queue := [] }

/-- The acts so far, and the server that they lead to. -/
inductive Trace (rules : Rules ω ρ) : List (Act ι ω ρ) → Server ι ω → Prop
  | start : Trace rules [] {}
  | snoc {past s a s'} (h : Trace rules past s) (step : Step rules s a s') :
    Trace rules (past ++ [a]) s'

/-! ## What an observer reads off the acts -/

def Act.enqueue : List ι → Act ι ω ρ → List ι
  | queue, .accepted t => queue ++ [t]
  | queue, .taken _ => queue.tail
  | _, .dropped => []
  | queue, _ => queue

/-- The tickets in the queue. -/
def waiting (trace : List (Act ι ω ρ)) : List ι := trace.foldl Act.enqueue []

def Act.acceptedTicket : Act ι ω ρ → Option ι
  | .accepted t => some t
  | _ => none

def Act.takenTicket : Act ι ω ρ → Option ι
  | .taken t => some t
  | _ => none

def Act.begunTicket : Act ι ω ρ → Option ι
  | .began t => some t
  | _ => none

def accepted (trace : List (Act ι ω ρ)) : List ι := trace.filterMap Act.acceptedTicket

def taken (trace : List (Act ι ω ρ)) : List ι := trace.filterMap Act.takenTicket

def began (trace : List (Act ι ω ρ)) : List ι := trace.filterMap Act.begunTicket

def Act.ticket : Act ι ω ρ → Option ι
  | .asked t | .accepted t | .answered t _ | .taken t | .began t | .ended t _ => some t
  | .prepared | .left | .dropped => none

/-- The acts about one ticket. -/
def life [DecidableEq ι] (t : ι) (trace : List (Act ι ω ρ)) : List (Act ι ω ρ) :=
  trace.filter (·.ticket = some t)

section Snoc
variable (trace : List (Act ι ω ρ)) (a : Act ι ω ρ)

@[simp] theorem waiting_snoc : waiting (trace ++ [a]) = Act.enqueue (waiting trace) a := by
  simp [waiting]

@[simp] theorem accepted_snoc :
    accepted (trace ++ [a]) = accepted trace ++ a.acceptedTicket.toList := by
  cases a <;> simp [accepted, Act.acceptedTicket]

@[simp] theorem taken_snoc : taken (trace ++ [a]) = taken trace ++ a.takenTicket.toList := by
  cases a <;> simp [taken, Act.takenTicket]

@[simp] theorem began_snoc : began (trace ++ [a]) = began trace ++ a.begunTicket.toList := by
  cases a <;> simp [began, Act.begunTicket]

/-- A ticket that one kind of act brings. -/
theorem mem_tickets {f : Act ι ω ρ → Option ι} {t : ι} {act : Act ι ω ρ}
    (hf : ∀ b, f b = some t ↔ b = act) : t ∈ trace.filterMap f ↔ act ∈ trace := by
  simp [List.mem_filterMap, hf]

theorem mem_began {t : ι} : t ∈ began trace ↔ Act.began t ∈ trace :=
  mem_tickets trace fun b => by cases b <;> simp [Act.begunTicket]

theorem mem_accepted {t : ι} : t ∈ accepted trace ↔ Act.accepted t ∈ trace :=
  mem_tickets trace fun b => by cases b <;> simp [Act.acceptedTicket]

theorem life_snoc [DecidableEq ι] (t : ι) :
    life t (trace ++ [a]) = if a.ticket = some t then life t trace ++ [a] else life t trace := by
  by_cases h : a.ticket = some t <;> simp [life, h]

end Snoc

/-! ## The life of a ticket -/

/-- How far a ticket is. -/
inductive Stage (ω : Type) where
  | unseen
  | entering
  | refused
  | waiting
  | taken
  | running
  | owing (outcome : ω)
  | served (outcome : ω)

/-- All the acts about a ticket that is so far. -/
def Stage.acts (rules : Rules ω ρ) (t : ι) : Stage ω → List (Act ι ω ρ)
  | .unseen => []
  | .entering => [.asked t]
  | .refused => [.asked t, .answered t rules.full]
  | .waiting => [.asked t, .accepted t]
  | .taken => [.asked t, .accepted t, .taken t]
  | .running => [.asked t, .accepted t, .taken t, .began t]
  | .owing outcome => [.asked t, .accepted t, .taken t, .began t, .ended t outcome]
  | .served outcome => [.asked t, .accepted t, .taken t, .began t, .ended t outcome,
      .answered t (rules.answer outcome)]

/-- The ticket in hand, and how far it is. -/
def Turn.hand : Turn ι ω → Option (ι × Stage ω)
  | .free | .over => none
  | .taken t | .prepared t => some (t, .taken)
  | .running t => some (t, .running)
  | .owing t outcome => some (t, .owing outcome)

def Stage.InHand : Stage ω → Prop
  | .taken | .running | .owing _ => True
  | _ => False

/-- The acts tell how far every ticket is, and the server has it where it belongs. -/
structure Explained [DecidableEq ι] (rules : Rules ω ρ) (trace : List (Act ι ω ρ))
    (s : Server ι ω) (stage : ι → Stage ω) : Prop where
  life : ∀ t, life t trace = (stage t).acts rules t
  seen : ∀ t, t ∈ s.seen ↔ stage t ≠ .unseen
  entering : ∀ t, s.entering = some t ↔ stage t = .entering
  queued : ∀ t ∈ s.queue, stage t = .waiting
  nodup : s.queue.Nodup
  hand : ∀ t st, s.turn.hand = some (t, st) ↔ stage t = st ∧ st.InHand

section Explained
variable [DecidableEq ι] {rules : Rules ω ρ} {trace : List (Act ι ω ρ)} {s s' : Server ι ω}
  {stage : ι → Stage ω} {a : Act ι ω ρ}

theorem life_update (hlife : ∀ t, life t trace = (stage t).acts rules t) {t : ι} {st : Stage ω}
    (ticket : a.ticket = some t) (acts : st.acts rules t = (stage t).acts rules t ++ [a]) (u : ι) :
    life u (trace ++ [a]) = (Function.update stage t st u).acts rules u := by
  rw [life_snoc, ticket, hlife]
  by_cases hu : u = t
  · subst hu
    simp [acts]
  · simp [hu, Ne.symm hu]

theorem life_same (hlife : ∀ t, life t trace = (stage t).acts rules t) (ticket : a.ticket = none)
    (u : ι) : life u (trace ++ [a]) = (stage u).acts rules u := by
  rw [life_snoc, ticket, hlife, if_neg (by simp)]

theorem explained_step (h : Explained rules trace s stage) (step : Step rules s a s') :
    ∃ stage', Explained rules (trace ++ [a]) s' stage' := by
  obtain ⟨hlife, hseen, hentering, hqueued, hnodup, hhand⟩ := h
  cases step with
  | @ask t fresh _ =>
    have hstage : stage t = .unseen := by grind
    refine ⟨Function.update stage t .entering,
      life_update hlife rfl (by simp [hstage, Stage.acts]), ?_, ?_, ?_, hnodup, ?_⟩
    all_goals grind [Stage.InHand]
  | @accept t entering _ =>
    have hstage : stage t = .entering := (hentering t).mp entering
    refine ⟨Function.update stage t .waiting,
      life_update hlife rfl (by simp [hstage, Stage.acts]), ?_, ?_, ?_, ?_, ?_⟩
    all_goals grind [Stage.InHand]
  | @refuse t entering _ =>
    have hstage : stage t = .entering := (hentering t).mp entering
    refine ⟨Function.update stage t .refused,
      life_update hlife rfl (by simp [hstage, Stage.acts]), ?_, ?_, ?_, hnodup, ?_⟩
    all_goals grind [Stage.InHand]
  | @take t rest entering turn queue =>
    have hstage : stage t = .waiting := hqueued t (by simp [queue])
    refine ⟨Function.update stage t .taken,
      life_update hlife rfl (by simp [hstage, Stage.acts]), ?_, ?_, ?_, ?_, ?_⟩
    all_goals grind [Stage.InHand, Turn.hand]
  | idle _ _ => exact ⟨stage, life_same hlife rfl, hseen, hentering, hqueued, hnodup, hhand⟩
  | @prepare t _ turn =>
    refine ⟨stage, life_same hlife rfl, hseen, hentering, hqueued, hnodup, fun u st => ?_⟩
    rw [← hhand u st, turn]
    rfl
  | @start t _ turn =>
    have hstage : stage t = .taken := ((hhand t .taken).mp (by rw [turn]; rfl)).1
    refine ⟨Function.update stage t .running,
      life_update hlife rfl (by simp [hstage, Stage.acts]), ?_, ?_, ?_, hnodup, ?_⟩
    all_goals grind [Stage.InHand, Turn.hand]
  | @finish t outcome _ turn =>
    have hstage : stage t = .running := ((hhand t .running).mp (by rw [turn]; rfl)).1
    refine ⟨Function.update stage t (.owing outcome),
      life_update hlife rfl (by simp [hstage, Stage.acts]), ?_, ?_, ?_, hnodup, ?_⟩
    all_goals grind [Stage.InHand, Turn.hand]
  | @answer t outcome _ turn =>
    have hstage : stage t = .owing outcome := ((hhand t (.owing outcome)).mp (by rw [turn]; rfl)).1
    refine ⟨Function.update stage t (.served outcome),
      life_update hlife rfl (by simp [hstage, Stage.acts]), ?_, ?_, ?_, hnodup, ?_⟩
    all_goals grind [Stage.InHand, Turn.hand]
  | leave _ turn =>
    refine ⟨stage, life_same hlife rfl, hseen, hentering, hqueued, hnodup, fun u st => ?_⟩
    rw [← hhand u st, turn]
    rfl
  | drop _ _ => exact ⟨stage, life_same hlife rfl, hseen, hentering, by simp, by simp, hhand⟩

theorem Trace.explained (h : Trace rules trace s) : ∃ stage, Explained rules trace s stage := by
  induction h with
  | start =>
    refine ⟨fun _ => .unseen, fun _ => rfl, ?_, ?_, ?_, ?_, ?_⟩ <;> simp [Turn.hand, Stage.InHand]
  | snoc _ step ih =>
    obtain ⟨stage, hstage⟩ := ih
    exact explained_step hstage step

end Explained

/-! ## Orders and counts -/

/-- The ticket that was taken out and not begun. -/
def Turn.pending : Turn ι ω → List ι
  | .taken t | .prepared t => [t]
  | _ => []

/-- `t` was taken out, and the server has prepared itself since. -/
def PreparedFor (t : ι) (past : List (Act ι ω ρ)) : Prop :=
  ∃ early late, past = early ++ .taken t :: late ∧ .prepared ∈ late

section Orders
variable {rules : Rules ω ρ} {trace past rest : List (Act ι ω ρ)} {s s' : Server ι ω}
  {a : Act ι ω ρ} {t : ι}

theorem Step.queue (step : Step rules s a s') : s'.queue = Act.enqueue s.queue a := by
  cases step <;> simp_all [Act.enqueue]

theorem Trace.queue (h : Trace rules trace s) : s.queue = waiting trace := by
  induction h with
  | start => rfl
  | snoc _ step ih => rw [waiting_snoc, ← ih, step.queue]

theorem Trace.bounded (h : Trace rules trace s) : s.queue.length ≤ rules.capacity := by
  induction h with
  | start => exact Nat.zero_le _
  | snoc _ step ih =>
    cases step with
    | accept _ room =>
      rw [List.length_append, List.length_singleton]
      exact room
    | take _ _ queue =>
      rw [queue, List.length_cons] at ih
      exact Nat.le_of_succ_le ih
    | drop _ _ => exact Nat.zero_le _
    | _ => exact ih

/-- Until the server leaves, what was accepted was taken out or is waiting. -/
theorem Trace.flow (h : Trace rules trace s) (hturn : s.turn ≠ .over) :
    accepted trace = taken trace ++ s.queue := by
  induction h with
  | start => rfl
  | snoc _ step ih =>
    rw [accepted_snoc, taken_snoc]
    cases step <;> simp_all [Act.acceptedTicket, Act.takenTicket]

/-- A ticket is taken out in its turn. -/
theorem Trace.taken_prefix (h : Trace rules trace s) : taken trace <+: accepted trace := by
  induction h with
  | start => exact List.nil_prefix
  | @snoc past s a s' h step ih =>
    rw [accepted_snoc, taken_snoc]
    have hgrown := ih.trans (List.prefix_append (accepted past) a.acceptedTicket.toList)
    cases step with
    | @take t rest _ turn queue =>
      refine ⟨rest, ?_⟩
      rw [h.flow (by simp [turn]), queue]
      simp [Act.takenTicket, Act.acceptedTicket]
    | _ => simpa [Act.takenTicket] using hgrown

theorem Trace.hand (h : Trace rules trace s) : taken trace = began trace ++ s.turn.pending := by
  induction h with
  | start => rfl
  | snoc _ step ih =>
    rw [taken_snoc, began_snoc, ih]
    cases step <;> simp_all [Act.takenTicket, Act.begunTicket, Turn.pending]

theorem Trace.began_prefix (h : Trace rules trace s) : began trace <+: accepted trace := by
  refine .trans ?_ h.taken_prefix
  rw [h.hand]
  exact List.prefix_append _ _

theorem PreparedFor.snoc (h : PreparedFor t trace) (a : Act ι ω ρ) :
    PreparedFor t (trace ++ [a]) := by
  obtain ⟨early, late, rfl, hprepared⟩ := h
  exact ⟨early, late ++ [a], by simp, List.mem_append_left _ hprepared⟩

theorem Trace.taken_mem (h : Trace rules trace s) (hturn : s.turn = .taken t) :
    .taken t ∈ trace := by
  induction h with
  | start => cases hturn
  | snoc _ step ih => cases step <;> simp_all

theorem Trace.prepared (h : Trace rules trace s) (hturn : s.turn = .prepared t) :
    PreparedFor t trace := by
  induction h with
  | start => cases hturn
  | snoc h step ih =>
    cases step with
    | prepare _ turn =>
      cases hturn
      obtain ⟨early, late, hsplit⟩ := List.append_of_mem (h.taken_mem turn)
      exact ⟨early, late ++ [.prepared], by simp [hsplit], by simp⟩
    | ask _ _ | accept _ _ | refuse _ _ => exact (ih hturn).snoc _
    | idle _ turn =>
      cases turn.symm.trans hturn
    | take | start | finish | answer | leave => cases hturn
    | drop _ turn => cases turn.symm.trans hturn

theorem Trace.over (h : Trace rules trace s) : .left ∈ trace ↔ s.turn = .over := by
  induction h with
  | start => simp
  | snoc _ step ih => cases step <;> simp_all

/-- Every act of a trace was a step. -/
theorem Trace.split (h : Trace rules trace s) (hsplit : trace = past ++ a :: rest) :
    ∃ before after, Trace rules past before ∧ Step rules before a after ∧
      (rest = [] → s = after) := by
  induction h generalizing rest with
  | start => simp at hsplit
  | @snoc front _ last _ h step ih =>
    rcases List.eq_nil_or_concat rest with rfl | ⟨middle, final, rfl⟩
    · obtain ⟨rfl, hact⟩ := List.append_inj' hsplit rfl
      cases hact
      exact ⟨_, _, h, step, fun _ => rfl⟩
    · have hfront : front ++ [last] = (past ++ a :: middle) ++ [final] := by simpa using hsplit
      obtain ⟨before, after, hbefore, hstep, -⟩ := ih (List.append_inj' hfront rfl).1
      exact ⟨before, after, hbefore, hstep, by simp⟩

/-- Nothing begins once the server has left. -/
theorem Trace.began_after_left (h : Trace rules trace s) (hsplit : trace = past ++ .left :: rest) :
    began rest = [] := by
  by_contra hbegan
  obtain ⟨t, ht⟩ := List.exists_mem_of_ne_nil _ hbegan
  obtain ⟨early, late, hrest⟩ := List.append_of_mem ((mem_began rest).mp ht)
  have hlater : trace = (past ++ .left :: early) ++ .began t :: late := by
    rw [hsplit, hrest, List.append_assoc, List.cons_append]
  obtain ⟨before, _, hbefore, step, -⟩ := h.split hlater
  have hover := hbefore.over.mp (by simp)
  cases step with
  | start _ turn => cases turn.symm.trans hover

/-- What was accepted was begun, or waited when the server left, or came later. -/
theorem Trace.left (h : Trace rules trace s) (hsplit : trace = past ++ .left :: rest) :
    accepted trace = began trace ++ waiting past ++ accepted rest := by
  have hnone := h.began_after_left hsplit
  obtain ⟨before, _, hbefore, step, -⟩ := h.split hsplit
  cases step with
  | leave _ turn =>
    have hflow := hbefore.flow (by simp [turn])
    rw [hbefore.hand, turn, hbefore.queue] at hflow
    have hsame : accepted trace = accepted past ++ accepted rest := by
      rw [hsplit]
      exact List.filterMap_append
    have hbegan : began trace = began past ++ began rest := by
      rw [hsplit]
      exact List.filterMap_append
    rw [hsame, hbegan, hnone, hflow]
    simp [Turn.pending]

end Orders

/-! ## Single tickets -/

section Tickets
variable [DecidableEq ι] {rules : Rules ω ρ} {trace past rest : List (Act ι ω ρ)}
  {s : Server ι ω} {t u : ι}

theorem life_append (t : ι) (trace trace' : List (Act ι ω ρ)) :
    life t (trace ++ trace') = life t trace ++ life t trace' :=
  List.filter_append _ _

theorem mem_life {a : Act ι ω ρ} (ticket : a.ticket = some t) : a ∈ life t trace ↔ a ∈ trace := by
  simp [life, ticket]

/-- All that has happened to the ticket that is being served. -/
theorem Trace.serving (h : Trace rules trace s) (turn : s.turn = .running t) :
    life t trace = [.asked t, .accepted t, .taken t, .began t] := by
  obtain ⟨stage, hstage⟩ := h.explained
  have hrunning : stage t = .running := ((hstage.hand t .running).mp (by rw [turn]; rfl)).1
  rw [hstage.life, hrunning]
  rfl

/-- A begun ticket is in hand, or the server is through with it. -/
theorem Trace.begun (h : Trace rules trace s) (ht : t ∈ began trace) :
    s.turn = .running t ∨ (∃ outcome, s.turn = .owing t outcome) ∨
      ∃ outcome, life t trace = (Stage.served outcome).acts rules t := by
  obtain ⟨stage, hstage⟩ := h.explained
  have hbegan : .began t ∈ life t trace := (mem_life rfl).mpr ((mem_began trace).mp ht)
  have hhand := hstage.hand t
  rw [hstage.life] at hbegan ⊢
  cases hst : stage t with
  | unseen | entering | refused | waiting | taken => simp [hst, Stage.acts] at hbegan
  | running =>
    have hturn := (hhand .running).mpr ⟨hst, trivial⟩
    cases hs : s.turn <;> simp_all [Turn.hand]
  | owing outcome =>
    have hturn := (hhand (.owing outcome)).mpr ⟨hst, trivial⟩
    cases hs : s.turn <;> simp_all [Turn.hand]
  | served outcome => exact .inr (.inr ⟨outcome, rfl⟩)

/-- A ticket that was let in and not begun has no answer. -/
theorem Trace.unbegun (h : Trace rules trace s) (ht : t ∈ accepted trace)
    (hnot : t ∉ began trace) :
    life t trace = [.asked t, .accepted t] ∨ life t trace = [.asked t, .accepted t, .taken t] := by
  obtain ⟨stage, hstage⟩ := h.explained
  have haccepted : .accepted t ∈ life t trace :=
    (mem_life rfl).mpr ((mem_accepted trace).mp ht)
  have hbegan : .began t ∉ life t trace := fun hmem =>
    hnot ((mem_began trace).mpr ((mem_life rfl).mp hmem))
  rw [hstage.life] at haccepted hbegan ⊢
  cases hst : stage t <;> simp_all [Stage.acts]

/-- The server is through with all earlier tickets when it begins one. -/
theorem Trace.alone (h : Trace rules trace s) (hsplit : trace = past ++ .began t :: rest)
    (hu : u ∈ began past) : ∃ outcome, life u past = (Stage.served outcome).acts rules u := by
  obtain ⟨before, _, hbefore, step, -⟩ := h.split hsplit
  cases step with
  | start _ turn =>
    rcases hbefore.begun hu with hrunning | ⟨outcome, howing⟩ | hserved
    · cases turn.symm.trans hrunning
    · cases turn.symm.trans howing
    · exact hserved

/-- A ticket is let in once at most. -/
theorem Trace.accepted_nodup (h : Trace rules trace s) : (accepted trace).Nodup := by
  induction h with
  | start => exact List.nodup_nil
  | @snoc past _ a _ h step ih =>
    rw [accepted_snoc]
    cases step with
    | @accept t entering _ =>
      obtain ⟨stage, hstage⟩ := h.explained
      have hnew : t ∉ accepted past := by
        intro ht
        have hlife : .accepted t ∈ life t past := (mem_life rfl).mpr ((mem_accepted past).mp ht)
        rw [hstage.life, (hstage.entering t).mp entering] at hlife
        simp [Stage.acts] at hlife
      exact List.nodup_append.mpr ⟨ih, List.nodup_singleton t, by
        rintro u hu v hv rfl
        exact hnew (List.mem_singleton.mp hv ▸ hu)⟩
    | _ => simpa [Act.acceptedTicket] using ih

/-- Right behind the question comes its answer. -/
theorem Trace.entered {a : Act ι ω ρ} (h : Trace rules trace s)
    (hsplit : trace = past ++ .asked t :: a :: rest) :
    life t past = [] ∧
      (a = .accepted t ∧ (waiting past).length < rules.capacity ∨
        a = .answered t rules.full ∧ (waiting past).length = rules.capacity) := by
  have hsplit' : trace = (past ++ [.asked t]) ++ a :: rest := by simp [hsplit]
  obtain ⟨middle, _, hmiddle, step, -⟩ := h.split hsplit'
  obtain ⟨before, _, hbefore, ask, hlast⟩ := hmiddle.split rfl
  obtain rfl := hlast rfl
  cases ask with
  | ask fresh _ =>
    obtain ⟨stage, hstage⟩ := hbefore.explained
    have hunseen : stage t = .unseen := by
      by_contra hseen
      exact fresh ((hstage.seen t).mpr hseen)
    refine ⟨by rw [hstage.life, hunseen]; rfl, ?_⟩
    rw [← hbefore.queue]
    cases step with
    | accept entering room =>
      cases entering
      exact .inl ⟨rfl, room⟩
    | refuse entering full =>
      cases entering
      exact .inr ⟨rfl, full⟩
    | ask _ closed => cases closed
    | finish _ closed _ => cases closed
    | _ closed => cases closed

/-- A ticket that finds the queue full is turned away for good, any other is let in. -/
theorem Trace.asked (h : Trace rules trace s) (entering : s.entering = none)
    (hsplit : trace = past ++ .asked t :: rest) :
    if (waiting past).length = rules.capacity then
      life t trace = [.asked t, .answered t rules.full]
    else [.asked t, .accepted t] <+: life t trace := by
  cases rest with
  | nil =>
    obtain ⟨_, _, _, ask, hlast⟩ := h.split hsplit
    obtain rfl := hlast rfl
    cases ask
    cases entering
  | cons a rest =>
    obtain ⟨hnone, hentered⟩ := h.entered hsplit
    have hlife : life t trace = life t [.asked t, a] ++ life t rest := by
      rw [hsplit, life_append, hnone, List.nil_append, ← life_append]
      rfl
    rcases hentered with ⟨rfl, room⟩ | ⟨rfl, full⟩
    · rw [if_neg (Nat.ne_of_lt room), hlife]
      exact ⟨life t rest, by simp [life, Act.ticket]⟩
    · rw [if_pos full]
      obtain ⟨stage, hstage⟩ := h.explained
      rw [hstage.life] at hlife ⊢
      cases hst : stage t <;> simp_all [Stage.acts, life, Act.ticket]

end Tickets

end Magicbox.Library.SerialServer
