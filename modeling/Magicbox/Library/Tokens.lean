import Mathlib.Data.List.Basic

/-!
# Cutting a text into tokens

A scanner for languages of words, quoted strings and punctuation, over any
classification of the characters. It reads one character after the other and
remembers only the token that it is in. What it does on a text that was put
together is stated piece by piece, so that a piece may be any text of a kind.
-/

set_option autoImplicit false

namespace Magicbox.Library.Tokens

inductive Kind where
  | blank
  /-- The end of a statement. -/
  | stop
  | mark
  | word
  | quote
  | other
  deriving DecidableEq, Repr

inductive Token where
  | word (text : String)
  | quoted (text : String)
  | mark (c : Char)
  | stop
  deriving DecidableEq, Repr

/-- Where the scanner is, with what it has seen of the token. -/
inductive Mode where
  | between
  | word (seen : List Char)
  | quoted (seen : List Char)
  deriving DecidableEq, Repr

section Scanner

variable (kind : Char → Kind)

/-- A character between two tokens. -/
def start (c : Char) : Option (List Token × Mode) :=
  match kind c with
  | .blank => some ([], .between)
  | .stop => some ([.stop], .between)
  | .mark => some ([.mark c], .between)
  | .word => some ([], .word [c])
  | .quote => some ([], .quoted [])
  | .other => none

def next : Mode → Char → Option (List Token × Mode)
  | .between, c => start kind c
  | .word seen, c =>
    if kind c = .word then some ([], .word (seen ++ [c]))
    else (start kind c).map fun r => (.word (String.ofList seen) :: r.1, r.2)
  | .quoted seen, c =>
    if kind c = .quote then some ([.quoted (String.ofList seen)], .between)
    else some ([], .quoted (seen ++ [c]))

def scan : Mode → List Char → Option (List Token × Mode)
  | mode, [] => some ([], mode)
  | mode, c :: cs =>
    (next kind mode c).bind fun r => (scan r.2 cs).map fun s => (r.1 ++ s.1, s.2)

/-- The end of the text. A string has to be closed. -/
def finish : Mode → Option (List Token)
  | .between => some []
  | .word seen => some [.word (String.ofList seen)]
  | .quoted _ => none

def tokens (text : String) : Option (List Token) :=
  (scan kind .between text.toList).bind fun r => (finish r.2).map (r.1 ++ ·)

end Scanner

/-! ## Piece by piece -/

variable {kind : Char → Kind} {mode middle last : Mode} {c : Char} {cs : List Char}

/-- A piece of a text, with the tokens that end in it and where the scanner is behind it. -/
def Scans (kind : Char → Kind) (mode : Mode) (cs : List Char) (found : List Token)
    (last : Mode) : Prop :=
  scan kind mode cs = some (found, last)

theorem Scans.append {xs ys : List Char} {first second : List Token}
    (hx : Scans kind mode xs first middle) (hy : Scans kind middle ys second last) :
    Scans kind mode (xs ++ ys) (first ++ second) last := by
  unfold Scans at *
  induction xs generalizing mode first with
  | nil =>
    obtain ⟨rfl, rfl⟩ := Prod.mk.inj (Option.some.inj hx)
    exact hy
  | cons c xs ih =>
    simp only [List.cons_append, scan, Option.bind_eq_some_iff, Option.map_eq_some_iff] at hx ⊢
    obtain ⟨r, hr, s, hs, hfound⟩ := hx
    obtain ⟨rfl, rfl⟩ := Prod.mk.inj hfound
    exact ⟨r, hr, _, ih hs, by rw [List.append_assoc]⟩

/-- More characters of a word. -/
theorem Scans.word {seen xs : List Char} (h : ∀ c ∈ xs, kind c = .word) :
    Scans kind (.word seen) xs [] (.word (seen ++ xs)) := by
  unfold Scans
  induction xs generalizing seen with
  | nil => simp [scan]
  | cons c xs ih =>
    have hrest : scan kind (.word (seen ++ [c])) xs = some ([], .word (seen ++ [c] ++ xs)) :=
      ih fun d hd => h d (List.mem_cons_of_mem c hd)
    simp [scan, next, h c List.mem_cons_self, hrest]

/-- A word that begins. -/
theorem Scans.begin {xs : List Char} (hne : xs ≠ []) (h : ∀ c ∈ xs, kind c = .word) :
    Scans kind .between xs [] (.word xs) := by
  cases xs with
  | nil => exact absurd rfl hne
  | cons c xs =>
    have hrest : Scans kind (.word [c]) xs [] (.word ([c] ++ xs)) :=
      Scans.word fun d hd => h d (List.mem_cons_of_mem c hd)
    unfold Scans at hrest ⊢
    simp [scan, next, start, h c List.mem_cons_self, hrest]

/-- A word ends in front of a character that belongs to none. -/
theorem Scans.break {seen : List Char} {found : List Token} (hc : kind c ≠ .word)
    (h : Scans kind .between (c :: cs) found last) :
    Scans kind (.word seen) (c :: cs) (.word (String.ofList seen) :: found) last := by
  unfold Scans at *
  simp only [scan, next, if_neg hc, Option.bind_eq_some_iff, Option.map_eq_some_iff] at h ⊢
  obtain ⟨r, hr, s, hs, hfound⟩ := h
  obtain ⟨rfl, rfl⟩ := Prod.mk.inj hfound
  exact ⟨_, ⟨r, hr, rfl⟩, s, hs, rfl⟩

/-- What a string holds, whatever else the characters stand for. -/
theorem Scans.quoted {seen xs : List Char} (h : ∀ c ∈ xs, kind c ≠ .quote) :
    Scans kind (.quoted seen) xs [] (.quoted (seen ++ xs)) := by
  unfold Scans
  induction xs generalizing seen with
  | nil => simp [scan]
  | cons c xs ih =>
    have hrest : scan kind (.quoted (seen ++ [c])) xs = some ([], .quoted (seen ++ [c] ++ xs)) :=
      ih fun d hd => h d (List.mem_cons_of_mem c hd)
    simp [scan, next, h c List.mem_cons_self, hrest]

theorem Scans.close {seen : List Char} {found : List Token} (hc : kind c = .quote)
    (h : Scans kind .between cs found last) :
    Scans kind (.quoted seen) (c :: cs) (.quoted (String.ofList seen) :: found) last := by
  unfold Scans at *
  simp [scan, next, hc, h]

theorem Scans.tokens {text : String} {found : List Token}
    (h : Scans kind .between text.toList found .between) : tokens kind text = some found := by
  unfold Scans at h
  simp [Tokens.tokens, h, finish]

/-! ## Readers -/

/-- A reader takes something off the front of a list of tokens. -/
abbrev Reader (α : Type) := List Token → Option (α × List Token)

section Readers

variable {α : Type}

/-- As many as there are, at most a number of them. -/
def many (read : Reader α) : Nat → List Token → List α × List Token
  | 0, ts => ([], ts)
  | n + 1, ts =>
    match read ts with
    | some (a, rest) => (a :: (many read n rest).1, (many read n rest).2)
    | none => ([], ts)

/-- All that there are: no more than there are tokens. -/
def all (read : Reader α) (ts : List Token) : List α × List Token := many read ts.length ts

/-- What the reader takes is not empty. -/
def Progress (read : Reader α) : Prop :=
  ∀ ts a rest, read ts = some (a, rest) → rest.length < ts.length

variable {read : Reader α} {ts rest : List Token} {a : α}

theorem many_enough (h : Progress read) {n m : Nat} (hn : ts.length ≤ n) (hm : ts.length ≤ m) :
    many read n ts = many read m ts := by
  induction n generalizing m ts with
  | zero =>
    obtain rfl := List.length_eq_zero_iff.mp (Nat.le_zero.mp hn)
    cases m with
    | zero => rfl
    | succ m =>
      cases hread : read [] with
      | none => simp [many, hread]
      | some r => exact absurd (h _ _ _ hread) (Nat.not_lt_zero _)
  | succ n ih =>
    cases hread : read ts with
    | none => cases m <;> simp [many, hread]
    | some r =>
      have hshorter : r.2.length < ts.length := h _ _ _ hread
      cases m with
      | zero => omega
      | succ m =>
        have hrest : many read n r.2 = many read m r.2 := ih (by omega) (by omega)
        simp [many, hread, hrest]

theorem all_cons (h : Progress read) (hread : read ts = some (a, rest)) :
    all read ts = (a :: (all read rest).1, (all read rest).2) := by
  have hshorter := h _ _ _ hread
  obtain ⟨n, hn⟩ := Nat.exists_eq_succ_of_ne_zero (Nat.ne_zero_of_lt hshorter)
  have hrest : many read n rest = all read rest := many_enough h (by omega) (Nat.le_refl _)
  rw [all, hn, many, hread]
  simp only [hrest]

theorem all_done (hread : read ts = none) : all read ts = ([], ts) := by
  unfold all
  cases ts with
  | nil => rfl
  | cons t ts => simp [many, hread]

theorem all_length (h : Progress read) (ts : List Token) : (all read ts).2.length ≤ ts.length := by
  induction hlength : ts.length using Nat.strongRecOn generalizing ts with
  | ind n ih =>
    cases hread : read ts with
    | none => exact Nat.le_of_eq (by rw [all_done hread, hlength])
    | some r =>
      have hshorter : r.2.length < ts.length := h _ _ _ hread
      rw [all_cons h hread]
      exact Nat.le_trans (ih _ (by omega) _ rfl) (by omega)

/-- A reader that takes back what was written takes back a list of it. -/
theorem all_flatMap (h : Progress read) {write : α → List Token} {as : List α}
    (hwrite : ∀ a ∈ as, ∀ ts, read (write a ++ ts) = some (a, ts)) (hend : read ts = none) :
    all read (as.flatMap write ++ ts) = (as, ts) := by
  induction as with
  | nil => exact all_done hend
  | cons a as ih =>
    have hrest := ih fun b hb => hwrite b (List.mem_cons_of_mem a hb)
    rw [List.flatMap_cons, List.append_assoc, all_cons h (hwrite a List.mem_cons_self _), hrest]

end Readers

end Magicbox.Library.Tokens
