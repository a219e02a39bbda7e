import Mathlib.Data.List.Basic

/-!
# Programs that return, throw, or are cut by a crash

A program runs on a state and ends in one of three ways. An exception can be
caught by a handler; a crash cannot, and leaves the state exactly as the last
completed primitive left it. A postcondition that covers the crash outcome is
therefore a statement about every intermediate state of the program, not only
about its ends.

Three judgements are used on top of that:

* `Triple` is the Hoare triple, with one postcondition over all outcomes;
* `Within` says that a run relates the first state to the last by a preorder;
* `Performs` says that a run applies a given list of updates to one component
  of the state, in order, possibly stopping early, and that a normal return
  means the whole list was applied.
-/

set_option autoImplicit false

namespace Magicbox.Library.Crash

variable {σ ε α β κ : Type}

/-- How a run ends. -/
inductive Outcome (ε α : Type) where
  | returned (value : α)
  | threw (error : ε)
  | crashed
  deriving DecidableEq, Repr

def Program (σ ε α : Type) : Type := σ → Outcome ε α × σ

instance : Monad (Program σ ε) where
  pure a := fun s => (.returned a, s)
  bind m f := fun s =>
    match m s with
    | (.returned a, t) => f a t
    | (.threw e, t) => (.threw e, t)
    | (.crashed, t) => (.crashed, t)

def raise (e : ε) : Program σ ε α := fun s => (.threw e, s)

def read (f : σ → α) : Program σ ε α := fun s => (.returned (f s), s)

def update (f : σ → σ) : Program σ ε Unit := fun s => (.returned (), f s)

/-- `try`/`catch`: the handler sees exceptions only, never a crash. -/
def recover (m : Program σ ε α) (handler : ε → Program σ ε α) : Program σ ε α := fun s =>
  match m s with
  | (.threw e, t) => handler e t
  | done => done

def liftExcept : Except ε α → Program σ ε α
  | .ok a => pure a
  | .error e => raise e

/-- Run `m` best-effort: an exception is noted in the accumulator and swallowed. -/
def attempt (note : β → ε → β) (acc : β) (m : Program σ ε Unit) : Program σ ε β :=
  recover (m >>= fun _ => pure acc) fun e => pure (note acc e)

@[simp] theorem pure_run (a : α) (s : σ) : (pure a : Program σ ε α) s = (.returned a, s) := rfl

@[simp] theorem raise_run (e : ε) (s : σ) : (raise e : Program σ ε α) s = (.threw e, s) := rfl

@[simp] theorem read_run (f : σ → α) (s : σ) :
    (read f : Program σ ε α) s = (.returned (f s), s) := rfl

@[simp] theorem update_run (f : σ → σ) (s : σ) :
    (update f : Program σ ε Unit) s = (.returned (), f s) := rfl

@[simp] theorem liftExcept_ok (a : α) (s : σ) :
    (liftExcept (.ok a) : Program σ ε α) s = (.returned a, s) := rfl

@[simp] theorem liftExcept_error (e : ε) (s : σ) :
    (liftExcept (.error e) : Program σ ε α) s = (.threw e, s) := rfl

theorem bind_run (m : Program σ ε α) (f : α → Program σ ε β) (s : σ) :
    (m >>= f) s =
      match m s with
      | (.returned a, t) => f a t
      | (.threw e, t) => (.threw e, t)
      | (.crashed, t) => (.crashed, t) := rfl

theorem bind_returned {m : Program σ ε α} {f : α → Program σ ε β} {s t : σ} {a : α}
    (h : m s = (.returned a, t)) : (m >>= f) s = f a t := by rw [bind_run, h]

theorem bind_threw {m : Program σ ε α} {f : α → Program σ ε β} {s t : σ} {e : ε}
    (h : m s = (.threw e, t)) : (m >>= f) s = (.threw e, t) := by rw [bind_run, h]

theorem bind_crashed {m : Program σ ε α} {f : α → Program σ ε β} {s t : σ}
    (h : m s = (.crashed, t)) : (m >>= f) s = (.crashed, t) := by rw [bind_run, h]

/-- The outcome of a bind tells where it stopped. -/
theorem bind_cases {m : Program σ ε α} {f : α → Program σ ε β} {s t : σ} {o : Outcome ε β}
    (h : (m >>= f) s = (o, t)) :
    (∃ a u, m s = (.returned a, u) ∧ f a u = (o, t)) ∨
    (∃ e, m s = (.threw e, t) ∧ o = .threw e) ∨
    (m s = (.crashed, t) ∧ o = .crashed) := by
  rw [bind_run] at h
  rcases hm : m s with ⟨a | e | _, u⟩ <;> rw [hm] at h
  · exact .inl ⟨a, u, rfl, h⟩
  · cases h; exact .inr (.inl ⟨e, rfl, rfl⟩)
  · cases h; exact .inr (.inr ⟨rfl, rfl⟩)

theorem bind_eq_returned {m : Program σ ε α} {f : α → Program σ ε β} {s t : σ} {b : β}
    (h : (m >>= f) s = (.returned b, t)) :
    ∃ a u, m s = (.returned a, u) ∧ f a u = (.returned b, t) := by
  rcases bind_cases h with found | ⟨e, -, ho⟩ | ⟨-, ho⟩
  · exact found
  · cases ho
  · cases ho

/-! ## Hoare triples -/

/-- From every state in `P`, the outcome and the state a run of `m` leaves are in `Q`. -/
def Triple (P : σ → Prop) (m : Program σ ε α) (Q : Outcome ε α → σ → Prop) : Prop :=
  ∀ s, P s → Q (m s).1 (m s).2

theorem Triple.imp {P P' : σ → Prop} {m : Program σ ε α} {Q Q' : Outcome ε α → σ → Prop}
    (h : Triple P m Q) (pre : ∀ s, P' s → P s) (post : ∀ o s, Q o s → Q' o s) :
    Triple P' m Q' :=
  fun s hs => post _ _ (h s (pre s hs))

/-- Sequencing: the first part's exceptions and crashes are outcomes of the whole. -/
theorem Triple.bind {P : σ → Prop} {m : Program σ ε α} {f : α → Program σ ε β}
    {M : Outcome ε α → σ → Prop} {Q : Outcome ε β → σ → Prop}
    (hm : Triple P m M) (hf : ∀ a, Triple (M (.returned a)) (f a) Q)
    (thrown : ∀ e s, M (.threw e) s → Q (.threw e) s)
    (crash : ∀ s, M .crashed s → Q .crashed s) : Triple P (m >>= f) Q := by
  intro s hs
  have hmid := hm s hs
  rw [bind_run]
  rcases hrun : m s with ⟨a | e | _, t⟩ <;> rw [hrun] at hmid
  · exact hf a t hmid
  · exact thrown e t hmid
  · exact crash t hmid

/-- What a chain of best-effort steps leaves: `I`, and with nothing noted also
everything in `A`. It never throws. -/
def Effort (clean : β → Prop) (I A : σ → Prop) (o : Outcome ε β) (s : σ) : Prop :=
  I s ∧ (∀ b, o = .returned b → clean b → A s) ∧ ∀ e, o ≠ .threw e

/-- The rule of a best-effort step. `I` holds throughout; `A` collects what the
earlier steps achieved and is known only while nothing has been noted; a step
that goes through turns it into `A'`. A best-effort step itself never throws. -/
theorem Triple.attempt {note : β → ε → β} {clean : β → Prop} {acc : β}
    {m : Program σ ε Unit} {I A A' : σ → Prop}
    (dirty : ∀ b e, ¬ clean (note b e))
    (safe : Triple I m fun _ s => I s)
    (gain : Triple (fun s => I s ∧ A s) m fun o s => o = .returned () → A' s) :
    Triple (fun s => I s ∧ (clean acc → A s)) (attempt note acc m) (Effort clean I A') := by
  rintro s ⟨hI, hA⟩
  have hsafe := safe s hI
  have hgain := fun hc : clean acc => gain s ⟨hI, hA hc⟩
  unfold Crash.attempt Crash.recover
  rw [bind_run]
  rcases hrun : m s with ⟨_ | e | _, t⟩ <;> rw [hrun] at hsafe hgain
  · refine ⟨hsafe, ?_, by simp⟩
    intro b hb hclean
    cases hb
    exact hgain hclean rfl
  · refine ⟨hsafe, ?_, by simp⟩
    intro b hb hclean
    cases hb
    exact absurd hclean (dirty acc e)
  · exact ⟨hsafe, by simp, by simp⟩

theorem Triple.effortPure {clean : β → Prop} {I A : σ → Prop} (b : β) :
    Triple (fun s => I s ∧ (clean b → A s)) (Pure.pure b : Program σ ε β)
      (Effort clean I A) := by
  rintro s ⟨hI, hA⟩
  refine ⟨hI, ?_, by simp⟩
  intro b' hb
  cases hb
  exact hA

theorem Triple.effortBind {P : σ → Prop} {clean : β → Prop} {I A A' : σ → Prop}
    {m : Program σ ε β} {f : β → Program σ ε β} (hm : Triple P m (Effort clean I A))
    (hf : ∀ b, Triple (fun s => I s ∧ (clean b → A s)) (f b) (Effort clean I A')) :
    Triple P (m >>= f) (Effort clean I A') := by
  refine Triple.bind hm (fun b s hs => hf b s ⟨hs.1, hs.2.1 b rfl⟩) ?_ ?_
  · intro e s hs
    exact absurd rfl (hs.2.2 e)
  · intro s hs
    exact ⟨hs.1, by simp, by simp⟩

theorem Effort.imp {clean : β → Prop} {I A A' : σ → Prop} (h : ∀ s, I s → A s → A' s)
    (o : Outcome ε β) (s : σ) (hs : Effort clean I A o s) : Effort clean I A' o s :=
  ⟨hs.1, fun b hb hc => h s hs.1 (hs.2.1 b hb hc), hs.2.2⟩

/-! ## Programs that never throw -/

def NoThrow (m : Program σ ε α) : Prop := ∀ s e, (m s).1 ≠ .threw e

theorem NoThrow.pure (a : α) : NoThrow (pure a : Program σ ε α) := fun _ _ h => by cases h

theorem NoThrow.read (f : σ → α) : NoThrow (read f : Program σ ε α) := fun _ _ h => by cases h

theorem NoThrow.update (f : σ → σ) : NoThrow (update f : Program σ ε Unit) :=
  fun _ _ h => by cases h

theorem NoThrow.bind {m : Program σ ε α} {f : α → Program σ ε β} (hm : NoThrow m)
    (hf : ∀ a, NoThrow (f a)) : NoThrow (m >>= f) := by
  intro s e
  rw [bind_run]
  rcases hrun : m s with ⟨a | e' | _, t⟩
  · exact hf a t e
  · exact absurd (by rw [hrun]) (hm s e')
  · simp

theorem NoThrow.attempt (note : β → ε → β) (acc : β) (m : Program σ ε Unit) :
    NoThrow (attempt note acc m) := by
  intro s e
  unfold Crash.attempt Crash.recover
  rw [bind_run]
  rcases m s with ⟨_ | e' | _, t⟩ <;> simp

/-- A best-effort step leaves what `m` leaves, and is cut when `m` is. -/
theorem attempt_run (note : β → ε → β) (acc : β) (m : Program σ ε Unit) (s : σ) :
    (attempt note acc m s).2 = (m s).2 ∧
      ((m s).1 = .crashed → (attempt note acc m s).1 = .crashed) := by
  unfold attempt recover
  rw [bind_run]
  rcases m s with ⟨_ | e | _, t⟩ <;> simp

/-! ## Runs inside a preorder -/

/-- Every run of `m` relates the state it starts from to the state it leaves. -/
def Within (R : σ → σ → Prop) (m : Program σ ε α) : Prop := ∀ s, R s (m s).2

section Within
variable {R : σ → σ → Prop}

theorem Within.pure (refl : ∀ s, R s s) (a : α) : Within R (pure a : Program σ ε α) := refl

theorem Within.raise (refl : ∀ s, R s s) (e : ε) : Within R (raise e : Program σ ε α) := refl

theorem Within.read (refl : ∀ s, R s s) (f : σ → α) : Within R (read f : Program σ ε α) := refl

theorem Within.liftExcept (refl : ∀ s, R s s) (x : Except ε α) :
    Within R (liftExcept x : Program σ ε α) := by
  cases x <;> exact refl

theorem Within.bind (trans : ∀ s t u, R s t → R t u → R s u)
    {m : Program σ ε α} {f : α → Program σ ε β}
    (hm : Within R m) (hf : ∀ a, Within R (f a)) : Within R (m >>= f) := by
  intro s
  have hmid := hm s
  rw [bind_run]
  rcases hrun : m s with ⟨a | e | _, t⟩ <;> rw [hrun] at hmid
  · exact trans _ _ _ hmid (hf a t)
  · exact hmid
  · exact hmid

theorem Within.recover (trans : ∀ s t u, R s t → R t u → R s u)
    {m : Program σ ε α} {handler : ε → Program σ ε α}
    (hm : Within R m) (hh : ∀ e, Within R (handler e)) : Within R (recover m handler) := by
  intro s
  have hmid := hm s
  unfold Crash.recover
  rcases hrun : m s with ⟨a | e | _, t⟩ <;> rw [hrun] at hmid
  · exact hmid
  · exact trans _ _ _ hmid (hh e t)
  · exact hmid

theorem Within.attempt (refl : ∀ s, R s s) (trans : ∀ s t u, R s t → R t u → R s u)
    {m : Program σ ε Unit} (hm : Within R m) (note : β → ε → β) (acc : β) :
    Within R (attempt note acc m) :=
  Within.recover trans (Within.bind trans hm fun _ => Within.pure refl acc)
    fun _ => Within.pure refl _

end Within

/-! ## Properties that sequencing keeps -/

/-- A property of a program that it has if its parts have it, and that a mere read has. -/
structure Composes (P : ∀ {α : Type}, Program σ ε α → Prop) : Prop where
  pure : ∀ {α : Type} (a : α), P (Pure.pure a : Program σ ε α)
  read : ∀ {α : Type} (f : σ → α), P (read f : Program σ ε α)
  bind : ∀ {α β : Type} {m : Program σ ε α} {f : α → Program σ ε β}, P m → (∀ a, P (f a)) →
    P (m >>= f)

theorem composes_noThrow : Composes fun {α} (m : Program σ ε α) => NoThrow m :=
  ⟨NoThrow.pure, NoThrow.read, NoThrow.bind⟩

theorem composes_within {R : σ → σ → Prop} (refl : ∀ s, R s s)
    (trans : ∀ s t u, R s t → R t u → R s u) : Composes fun {α} (m : Program σ ε α) => Within R m :=
  ⟨Within.pure refl, Within.read refl, Within.bind trans⟩

/-! ## Interruptible update sequences -/

/-- Apply updates from left to right. -/
def applyAll (us : List (κ → κ)) (k : κ) : κ := us.foldl (fun k u => u k) k

@[simp] theorem applyAll_nil (k : κ) : applyAll [] k = k := rfl

@[simp] theorem applyAll_cons (u : κ → κ) (us : List (κ → κ)) (k : κ) :
    applyAll (u :: us) k = applyAll us (u k) := rfl

theorem applyAll_append (us vs : List (κ → κ)) (k : κ) :
    applyAll (us ++ vs) k = applyAll vs (applyAll us k) := by
  simp [applyAll, List.foldl_append]

/-- A predicate every update keeps is kept by every prefix of the sequence. -/
theorem applyAll_keeps {I : κ → Prop} {us : List (κ → κ)} (keep : ∀ u ∈ us, ∀ k, I k → I (u k))
    {k : κ} (h : I k) : I (applyAll us k) := by
  induction us generalizing k with
  | nil => exact h
  | cons u us ih =>
    exact ih (fun v hv => keep v (List.mem_cons_of_mem u hv)) (keep u List.mem_cons_self k h)

theorem applyAll_take_keeps {I : κ → Prop} {us : List (κ → κ)}
    (keep : ∀ u ∈ us, ∀ k, I k → I (u k)) (n : Nat) {k : κ} (h : I k) :
    I (applyAll (us.take n) k) :=
  applyAll_keeps (fun u hu => keep u (List.mem_of_mem_take hu)) h

/-- `m` applies `us` to the component `view`, in order, possibly stopping
early; if it returns, it applied them all. -/
def Performs (view : σ → κ) (us : List (κ → κ)) (m : Program σ ε α) : Prop :=
  ∀ s, ∃ n, n ≤ us.length ∧ view (m s).2 = applyAll (us.take n) (view s) ∧
    ∀ a, (m s).1 = .returned a → n = us.length

section Performs
variable {view : σ → κ}

theorem Performs.of_eq {m : Program σ ε α} (h : ∀ s, view (m s).2 = view s) :
    Performs view [] m :=
  fun s => ⟨0, Nat.le_refl _, by simpa using h s, fun _ _ => rfl⟩

theorem Performs.bind {us vs : List (κ → κ)} {m : Program σ ε α} {f : α → Program σ ε β}
    (hm : Performs view us m) (hf : ∀ a, Performs view vs (f a)) :
    Performs view (us ++ vs) (m >>= f) := by
  intro s
  obtain ⟨n, hn, hv, hret⟩ := hm s
  rw [bind_run]
  rcases hrun : m s with ⟨a | e | _, t⟩ <;> rw [hrun] at hv hret
  · obtain ⟨j, hj, hw, hret'⟩ := hf a t
    have hfull : n = us.length := hret a rfl
    refine ⟨us.length + j, by simp only [List.length_append]; omega, ?_, ?_⟩
    · rw [List.take_length_add_append, applyAll_append, hw]
      subst hfull
      simpa using congrArg (applyAll (vs.take j)) hv
    · intro b hb
      simp [hret' b hb]
  · refine ⟨n, by simp only [List.length_append]; omega, ?_, by simp⟩
    rw [List.take_append_of_le_length hn]
    exact hv
  · refine ⟨n, by simp only [List.length_append]; omega, ?_, by simp⟩
    rw [List.take_append_of_le_length hn]
    exact hv

/-- A program that leaves the component alone can follow one. -/
theorem Performs.before {us : List (κ → κ)} {m : Program σ ε α} {f : α → Program σ ε β}
    (hm : Performs view us m) (hf : ∀ a, Performs view [] (f a)) :
    Performs view us (m >>= f) := by
  simpa using hm.bind hf

/-- Whatever every single update keeps, a run keeps, wherever it stops. -/
theorem Performs.keeps {us : List (κ → κ)} {m : Program σ ε α} (h : Performs view us m)
    {I : κ → Prop} (keep : ∀ u ∈ us, ∀ k, I k → I (u k)) :
    Triple (fun s => I (view s)) m fun _ s => I (view s) := by
  intro s hs
  obtain ⟨n, _, hv, _⟩ := h s
  rw [hv]
  exact applyAll_take_keeps keep n hs

theorem Performs.view_returned {us : List (κ → κ)} {m : Program σ ε α} (h : Performs view us m)
    {s : σ} {a : α} (hret : (m s).1 = .returned a) : view (m s).2 = applyAll us (view s) := by
  obtain ⟨n, _, hv, hfull⟩ := h s
  rw [hv, hfull a hret, List.take_length]

/-- A preorder that every single update respects is respected by a run. -/
theorem Performs.within {us : List (κ → κ)} {m : Program σ ε α} (h : Performs view us m)
    {R : κ → κ → Prop} (refl : ∀ k, R k k) (trans : ∀ j k l, R j k → R k l → R j l)
    (step : ∀ u ∈ us, ∀ k, R k (u k)) (s : σ) : R (view s) (view (m s).2) := by
  have keep : ∀ u ∈ us, ∀ k, R (view s) k → R (view s) (u k) :=
    fun u hu k hk => trans _ _ _ hk (step u hu k)
  exact h.keeps keep s (refl _)

end Performs

end Magicbox.Library.Crash
