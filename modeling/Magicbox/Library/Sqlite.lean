import Mathlib.Algebra.Order.BigOperators.Group.List
import Mathlib.Algebra.Order.Group.Int
import Mathlib.Data.Rat.Floor
import Magicbox.Library.Crash

/-!
# SQLite

A number is a 64-bit integer or a double. Integer arithmetic that leaves 64 bits
goes on with doubles, except for `SUM`, which fails. What doubles do is a
parameter: no result here depends on it.

A connection holds the committed content of a database and, while a transaction
is open, the content that it works on. Every statement may fail, and a failure
may roll the transaction back.
-/

set_option autoImplicit false

namespace Magicbox.Library.Sqlite

variable {ρ : Type}

inductive Cell (ρ : Type) where
  | integer (n : Int)
  | real (x : ρ)
  deriving DecidableEq, Repr

/-- The arithmetic of doubles. `integral` is the conversion of a double that is an integer,
`sum` that of a column in which doubles occur. -/
structure Doubles (ρ : Type) where
  ofInt : Int → ρ
  ofRat : Rat → ρ
  ofText : String → ρ
  add : ρ → ρ → ρ
  integral : ρ → Option Int
  sum : List (Cell ρ) → Option ρ
  toInt : ρ → Int64

/-- The integers of 64 bits. -/
def fits (n : Int) : Bool := -9223372036854775808 ≤ n && n < 9223372036854775808

theorem fits_iff {n : Int} :
    fits n = true ↔ -9223372036854775808 ≤ n ∧ n < 9223372036854775808 := by
  simp [fits]

/-- Doubles that never round. -/
def Doubles.exact : Doubles Rat where
  ofInt n := n
  ofRat x := x
  ofText _ := 0
  add x y := x + y
  integral x := if x.den = 1 && fits x.num then some x.num else none
  sum column := some ((column.map fun c =>
    match c with
    | .integer n => (n : Rat)
    | .real x => x).sum)
  toInt x := Int64.ofInt x.floor

namespace Cell

def toReal (D : Doubles ρ) : Cell ρ → ρ
  | integer n => D.ofInt n
  | real x => x

/-- A double in a column of integers. -/
def stored (D : Doubles ρ) (x : ρ) : Cell ρ :=
  match D.integral x with
  | some n => integer n
  | none => real x

/-- `a + b`, in a column of integers. -/
def plus (D : Doubles ρ) (a b : Cell ρ) : Cell ρ :=
  match a, b with
  | integer m, integer n =>
    if fits (m + n) then integer (m + n) else stored D (D.add (D.ofInt m) (D.ofInt n))
  | _, _ => stored D (D.add (a.toReal D) (b.toReal D))

/-- The integers of a column, if it has no doubles. -/
def integers : List (Cell ρ) → Option (List Int)
  | [] => some []
  | integer n :: rest => (integers rest).map (n :: ·)
  | real _ :: _ => none

/-- The running sum of integers, as long as it has 64 bits. -/
def running : Int → List Int → Option Int
  | total, [] => some total
  | total, n :: rest => if fits (total + n) then running (total + n) rest else none

/-- `SUM` over a column; none is the error "integer overflow". -/
def sum (D : Doubles ρ) (column : List (Cell ρ)) : Option (Cell ρ) :=
  match integers column with
  | some ns => (running 0 ns).map integer
  | none => (D.sum column).map real

/-- `sqlite3_column_int64`. -/
def int64 (D : Doubles ρ) : Cell ρ → Int
  | integer n => n
  | real x => (D.toInt x).toInt

theorem plus_integer (D : Doubles ρ) {m n : Int} (h : fits (m + n) = true) :
    plus D (integer m) (integer n) = integer (m + n) := by
  simp [plus, h]

/-- A value that a column of integers can have. -/
def Bounded : Cell ρ → Prop
  | integer n => fits n = true
  | real _ => True

/-- An addition leaves 64 bits only for a double. -/
theorem bounded_plus {D : Doubles ρ} (hD : ∀ x n, D.integral x = some n → fits n = true)
    (a b : Cell ρ) : (plus D a b).Bounded := by
  have hstored : ∀ x, (stored D x).Bounded := by
    intro x
    unfold stored
    cases hx : D.integral x with
    | none => trivial
    | some n => exact hD x n hx
  unfold plus
  split
  · split
    · next hfits => exact hfits
    · exact hstored _
  · exact hstored _

theorem int64_lt {D : Doubles ρ} {c : Cell ρ} (h : c.Bounded) :
    c.int64 D < 9223372036854775808 := by
  cases c with
  | integer n => exact (fits_iff.mp h).2
  | real x => exact (D.toInt x).toInt_lt

theorem integers_map (ns : List Int) :
    integers (ns.map (integer : Int → Cell ρ)) = some ns := by
  induction ns with
  | nil => rfl
  | cons n rest ih => rw [List.map_cons, integers, ih, Option.map_some]

/-- A running sum of numbers that are not negative does not leave 64 bits before its end. -/
theorem running_eq {ns : List Int} (hpos : ∀ n ∈ ns, 0 ≤ n) {total : Int} (htotal : 0 ≤ total)
    (h : total + ns.sum < 9223372036854775808) : running total ns = some (total + ns.sum) := by
  induction ns generalizing total with
  | nil => simp [running]
  | cons n rest ih =>
    have hn := hpos n List.mem_cons_self
    have hrest : ∀ k ∈ rest, 0 ≤ k := fun k hk => hpos k (List.mem_cons_of_mem n hk)
    have hsum : 0 ≤ rest.sum := List.sum_nonneg hrest
    rw [List.sum_cons] at h ⊢
    have hfits : fits (total + n) = true := fits_iff.mpr ⟨by omega, by omega⟩
    rw [running, if_pos hfits, ih hrest (by omega) (by omega), Int.add_assoc]

theorem running_sum {ns : List Int} {total result : Int} (h : running total ns = some result) :
    result = total + ns.sum := by
  induction ns generalizing total with
  | nil =>
    cases h
    simp
  | cons n rest ih =>
    rw [running] at h
    split at h
    · rw [ih h, List.sum_cons, Int.add_assoc]
    · cases h

theorem sum_integers (D : Doubles ρ) {ns : List Int} (hpos : ∀ n ∈ ns, 0 ≤ n)
    (h : ns.sum < 9223372036854775808) :
    sum D (ns.map integer) = some (integer ns.sum) := by
  rw [sum, integers_map]
  have hrunning := running_eq hpos (Int.le_refl 0) (by omega)
  simp [hrunning]

end Cell

/-! ## Transactions -/

open Crash

/-- What SQLite answers to a statement. -/
inductive Answer where
  | done
  | failed (message : String) (rolledBack : Bool)
  deriving DecidableEq, Repr

structure Connection (τ : Type) where
  committed : τ
  /-- The content that an open transaction works on. -/
  working : Option τ := none
  /-- The answers to come. Every later statement is done. -/
  answers : List Answer := []

namespace Connection

variable {τ : Type}

def open_ (c : Connection τ) : Connection τ := { c with working := some c.committed }

/-- A statement that changes the content. -/
def write (f : τ → τ) (c : Connection τ) : Connection τ :=
  match c.working with
  | some content => { c with working := some (f content) }
  | none => { c with committed := f c.committed }

def commit (c : Connection τ) : Connection τ :=
  match c.working with
  | some content => { c with committed := content, working := none }
  | none => c

def rollback (c : Connection τ) : Connection τ := { c with working := none }

end Connection

section Transactions
variable {τ ε α β : Type} (error : String → ε)

/-- A call of SQLite that has an effect, or fails. -/
def call (effect : Connection τ → Connection τ) : Program (Connection τ) ε Unit := fun c =>
  match c.answers with
  | [] => (.returned (), effect c)
  | .done :: rest => (.returned (), effect { c with answers := rest })
  | .failed message rolledBack :: rest =>
    (.threw (error message), { (if rolledBack then c.rollback else c) with answers := rest })

/-- BEGIN IMMEDIATE. -/
def begin_ : Program (Connection τ) ε Unit := fun c =>
  if c.working.isSome then
    (.threw (error "cannot start a transaction within a transaction"), c)
  else call error Connection.open_ c

/-- A body between BEGIN and COMMIT, with ROLLBACK and the same exception when one of them
throws behind BEGIN. -/
def transaction (body : Program (Connection τ) ε Unit) : Program (Connection τ) ε Unit := do
  begin_ error
  recover (do body; call error Connection.commit) fun e => do
    update Connection.rollback
    raise e

/-- A program that runs inside a transaction, with what it has done to the content when it
returns. -/
def Inside (R : α → τ → τ → Prop) (m : Program (Connection τ) ε α) : Prop :=
  ∀ c content, c.working = some content →
    (m c).2.committed = c.committed ∧ (m c).1 ≠ .crashed ∧
      ∀ a, (m c).1 = .returned a →
        ∃ content', (m c).2.working = some content' ∧ R a content content'

variable {error}

theorem Inside.imp {R S : α → τ → τ → Prop} {m : Program (Connection τ) ε α} (h : Inside R m)
    (hle : ∀ a content content', R a content content' → S a content content') : Inside S m := by
  intro c content hc
  obtain ⟨hcommitted, hcrash, hreturned⟩ := h c content hc
  refine ⟨hcommitted, hcrash, fun a ha => ?_⟩
  obtain ⟨content', hworking, hR⟩ := hreturned a ha
  exact ⟨content', hworking, hle a content content' hR⟩

theorem Inside.pure (a : α) :
    Inside (fun b content content' => b = a ∧ content' = content)
      (Pure.pure a : Program (Connection τ) ε α) := by
  intro c content hc
  refine ⟨rfl, by simp, fun b hb => ⟨content, hc, ?_, rfl⟩⟩
  cases hb
  rfl

theorem Inside.liftExcept (x : Except ε α) :
    Inside (fun b content content' => x = .ok b ∧ content' = content)
      (liftExcept x : Program (Connection τ) ε α) := by
  intro c content hc
  cases x with
  | error e => exact ⟨rfl, by simp, fun b hb => by cases hb⟩
  | ok a =>
    refine ⟨rfl, by simp, fun b hb => ⟨content, hc, ?_, rfl⟩⟩
    cases hb
    rfl

/-- A call with an effect on the content only. -/
theorem Inside.call {effect : Connection τ → Connection τ} {f : τ → τ}
    (heffect : ∀ c content, c.working = some content →
      (effect c).committed = c.committed ∧ (effect c).working = some (f content)) :
    Inside (fun _ content content' => content' = f content) (call error effect) := by
  intro c content hc
  unfold Sqlite.call
  split
  · obtain ⟨hcommitted, hworking⟩ := heffect c content hc
    exact ⟨hcommitted, by simp, fun _ _ => ⟨_, hworking, rfl⟩⟩
  · next rest hanswers =>
    obtain ⟨hcommitted, hworking⟩ := heffect { c with answers := rest } content hc
    exact ⟨hcommitted, by simp, fun _ _ => ⟨_, hworking, rfl⟩⟩
  · next message rolledBack rest hanswers =>
    refine ⟨?_, by simp, fun _ h => by cases h⟩
    cases rolledBack <;> rfl

theorem Inside.write (error : String → ε) (f : τ → τ) :
    Inside (fun _ content content' => content' = f content)
      (Sqlite.call error (Connection.write f)) :=
  Inside.call fun c content hc => by simp [Connection.write, hc]

/-- A call that leaves the content alone. -/
theorem Inside.read : Inside (fun _ content content' => content' = content)
    (Sqlite.call error (id : Connection τ → Connection τ)) :=
  Inside.call fun _ _ hc => ⟨rfl, hc⟩

theorem Inside.bind {R : α → τ → τ → Prop} {S : α → β → τ → τ → Prop}
    {m : Program (Connection τ) ε α} {f : α → Program (Connection τ) ε β} (hm : Inside R m)
    (hf : ∀ a, Inside (S a) (f a)) :
    Inside (fun b content content' => ∃ a between, R a content between ∧ S a b between content')
      (m >>= f) := by
  intro c content hc
  obtain ⟨hcommitted, hcrash, hreturned⟩ := hm c content hc
  rw [bind_run]
  rcases hrun : m c with ⟨a | e | _, d⟩ <;> rw [hrun] at hcommitted hcrash hreturned
  · obtain ⟨between, hbetween, hR⟩ := hreturned a rfl
    obtain ⟨hcommitted', hcrash', hreturned'⟩ := hf a d between hbetween
    refine ⟨hcommitted'.trans hcommitted, hcrash', fun b hb => ?_⟩
    obtain ⟨content', hcontent', hS⟩ := hreturned' b hb
    exact ⟨content', hcontent', a, between, hR, hS⟩
  · exact ⟨hcommitted, by simp, fun b hb => by cases hb⟩
  · exact absurd rfl hcrash

/-- How a transaction ends: it is closed, and what it has done is done as a whole or not at all. -/
structure Settled (R : τ → τ → Prop) (before : τ) (o : Outcome ε Unit) (c : Connection τ) :
    Prop where
  closed : c.working = none
  completed : o ≠ .crashed
  threw : ∀ e, o = .threw e → c.committed = before
  returned : o = .returned () → R before c.committed

/-- The handler closes the transaction. -/
theorem settled_threw {R : τ → τ → Prop} {before : τ} {c : Connection τ} {e : ε}
    (hc : c.committed = before) : Settled R before (.threw e : Outcome ε Unit) c.rollback :=
  ⟨rfl, by simp, fun _ _ => hc, by simp⟩

/-- COMMIT makes the content of the transaction the content of the database, or fails. -/
theorem commit_run (error : String → ε) {c : Connection τ} {content : τ}
    (hc : c.working = some content) :
    (∃ d, call error Connection.commit c = (.returned (), d) ∧ d.working = none ∧
        d.committed = content) ∨
      ∃ e d, call error Connection.commit c = (.threw e, d) ∧ d.committed = c.committed := by
  unfold call
  split
  · exact .inl ⟨_, rfl, by simp [Connection.commit, hc]⟩
  · exact .inl ⟨_, rfl, by simp [Connection.commit, hc]⟩
  · next message rolledBack rest hanswers =>
    refine .inr ⟨_, _, rfl, ?_⟩
    cases rolledBack <;> rfl

theorem opened_settled {R : τ → τ → Prop} {body : Program (Connection τ) ε Unit}
    (hbody : Inside (fun _ => R) body) {c : Connection τ} (hc : c.working = some c.committed) :
    Settled R c.committed
      (recover (do body; call error Connection.commit) (fun e => do
        update Connection.rollback
        raise e) c).1
      (recover (do body; call error Connection.commit) (fun e => do
        update Connection.rollback
        raise e) c).2 := by
  obtain ⟨hcommitted, hcrash, hreturned⟩ := hbody c c.committed hc
  unfold recover
  rw [bind_run]
  rcases hrun : body c with ⟨a | e | _, d⟩ <;> rw [hrun] at hcommitted hcrash hreturned
  · obtain ⟨content, hcontent, hR⟩ := hreturned a rfl
    rcases commit_run error hcontent with ⟨d', hd', hclosed, hdone⟩ | ⟨e, d', hd', hkept⟩
    · simp only [hd']
      exact ⟨hclosed, by simp, by simp, fun _ => hdone ▸ hR⟩
    · simp only [hd', bind_run, update_run, raise_run]
      exact settled_threw (hkept.trans hcommitted)
  · simp only [bind_run, update_run, raise_run]
    exact settled_threw hcommitted
  · exact absurd rfl hcrash

theorem begin_run (error : String → ε) {c : Connection τ} (hc : c.working = none) :
    (∃ d, begin_ error c = (.returned (), d) ∧ d.committed = c.committed ∧
        d.working = some d.committed) ∨
      ∃ e d, begin_ error c = (.threw e, d) ∧ d.committed = c.committed ∧ d.working = none := by
  unfold begin_ call
  rw [if_neg (by simp [hc])]
  split
  · exact .inl ⟨_, rfl, rfl, rfl⟩
  · exact .inl ⟨_, rfl, rfl, rfl⟩
  · next message rolledBack rest hanswers =>
    refine .inr ⟨_, _, rfl, ?_⟩
    cases rolledBack
    · exact ⟨rfl, hc⟩
    · exact ⟨rfl, rfl⟩

/-- A transaction is atomic, whatever its body does inside of it. -/
theorem transaction_settled {R : τ → τ → Prop} {body : Program (Connection τ) ε Unit}
    (hbody : Inside (fun _ => R) body) {c : Connection τ} (hc : c.working = none) :
    Settled R c.committed (transaction error body c).1 (transaction error body c).2 := by
  unfold transaction
  rw [bind_run]
  rcases begin_run error hc with ⟨d, hd, hkept, hopen⟩ | ⟨e, d, hd, hkept, hclosed⟩
  · rw [hd, ← hkept]
    exact opened_settled hbody hopen
  · rw [hd]
    exact ⟨hclosed, by simp, fun _ _ => hkept, by simp⟩

end Transactions

end Magicbox.Library.Sqlite
