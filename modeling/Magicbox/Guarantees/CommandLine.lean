import Magicbox.Source.CommandLine
import Mathlib.Data.List.Induction
import Mathlib.Tactic.SplitIfs

/-!
# What the command line accepts

The grammar of the command line beside the loop that reads it. An argument
vector runs the appliance exactly when it is a list of well-formed items that
names a token file, and the options are the last value of each. The first
request for the version or the usage behind well-formed items is answered,
whatever follows it; everything else is an error.
-/

set_option autoImplicit false

namespace Magicbox.Guarantees.CommandLine
open Library Source.Json Source.CommandLine

/-! ## The grammar -/

inductive Item where
  | allowNetwork
  | setting (arg value : String)

/-- The options that take a text. -/
def textArgs : List String :=
  ["--listen", "--database", "--web-root", "--capture", "--token-file"]

/-- The port that a text denotes. -/
def portNumber (value : String) : Option Nat :=
  (Decimal.natural value.toList).filter fun n => 1 ≤ n ∧ n ≤ 65535

namespace Item

def words : Item → List String
  | allowNetwork => ["--allow-network"]
  | setting arg value => [arg, value]

def Valid : Item → Prop
  | allowNetwork => True
  | setting arg value => arg ∈ textArgs ∨ arg = "--port" ∧ (portNumber value).isSome = true

/-- The value that the item gives to an option. -/
def valueOf (arg : String) : Item → Option String
  | allowNetwork => none
  | setting name value => if name = arg then some value else none

end Item

/-- The last value that is given to an option. -/
def lastValue (items : List Item) (arg : String) : Option String :=
  (items.filterMap (Item.valueOf arg)).getLast?

/-- The options that a list of items stands for. -/
def optionsOf (items : List Item) : Options where
  listen := (lastValue items "--listen").getD "127.0.0.1"
  port := (((lastValue items "--port").bind portNumber).map UInt16.ofNat).getD 8080
  database := (lastValue items "--database").getD "magicbox.sqlite"
  tokenFile := (lastValue items "--token-file").getD ""
  webRoot := (lastValue items "--web-root").getD "web"
  captureInterface := (lastValue items "--capture").getD ""
  allowNetwork := items.any fun item => item.words = ["--allow-network"]

def wordsOf (items : List Item) : List String := items.flatMap Item.words

/-! ## Ports -/

theorem fromChars_natural {text : List Char} {n : Nat} (h : Decimal.natural text = some n) :
    fromChars text = if 4294967296 ≤ n then none else some (n, []) := by
  unfold Decimal.natural at h
  split at h
  · next hdigits =>
    have htake : text.takeWhile Char.isDigit = text :=
      List.takeWhile_eq_self_iff.mpr (List.all_eq_true.mp hdigits.2)
    have hdrop : text.dropWhile Char.isDigit = [] :=
      List.dropWhile_eq_nil_iff.mpr (List.all_eq_true.mp hdigits.2)
    obtain rfl := Option.some.inj h
    simp [fromChars, htake, hdrop, hdigits.1]
  · cases h

/-- A text that is consumed as a whole is a decimal number. -/
theorem natural_of_fromChars {text : List Char} {n : Nat} (h : fromChars text = some (n, [])) :
    Decimal.natural text = some n := by
  unfold fromChars at h
  split at h
  · cases h
  · next hdigits =>
    obtain ⟨hvalue, hrest⟩ := Prod.mk.inj (Option.some.inj h)
    have hall := List.dropWhile_eq_nil_iff.mp hrest
    have htake : text.takeWhile Char.isDigit = text := List.takeWhile_eq_self_iff.mpr hall
    rw [htake] at hvalue hdigits
    unfold Decimal.natural
    rw [if_pos ⟨fun hempty => hdigits (.inl hempty), List.all_eq_true.mpr hall⟩, hvalue]

/-- The check of a port accepts the decimal numbers from 1 to 65535. -/
theorem parsePort_iff {value : String} {port : UInt16} :
    parsePort value = .ok port ↔ (portNumber value).map UInt16.ofNat = some port := by
  unfold parsePort portNumber
  cases hnatural : Decimal.natural value.toList with
  | none =>
    split
    · simp
    · next n rest hread =>
      have hrest : rest ≠ [] := by
        rintro rfl
        rw [natural_of_fromChars hread] at hnatural
        cases hnatural
      simp [hrest]
  | some n =>
    rw [fromChars_natural hnatural]
    by_cases hport : 1 ≤ n ∧ n ≤ 65535
    · have hfits : ¬ 4294967296 ≤ n := by omega
      have hcheck : ¬ (([] : List Char) ≠ [] ∨ n < 1 ∨ n > 65535) := by
        simp only [ne_eq, not_true_eq_false, false_or]
        omega
      simp only [hfits, if_false, hcheck, Option.filter_some, hport, and_self, decide_true,
        if_true, Option.map_some, Except.ok.injEq, Option.some.injEq]
    · simp only [Option.filter_some, hport, decide_false, Bool.false_eq_true, if_false,
        Option.map_none, reduceCtorEq, iff_false]
      by_cases hfits : 4294967296 ≤ n
      · simp [hfits]
      · have hcheck : ([] : List Char) ≠ [] ∨ n < 1 ∨ n > 65535 := by omega
        simp only [hfits, if_false, hcheck, if_true, reduceCtorEq, not_false_eq_true]

theorem portNumber_isSome_iff {value : String} :
    (portNumber value).isSome = true ↔ ∃ port, parsePort value = .ok port := by
  constructor
  · intro h
    obtain ⟨n, hn⟩ := Option.isSome_iff_exists.mp h
    exact ⟨UInt16.ofNat n, parsePort_iff.mpr (by rw [hn]; rfl)⟩
  · rintro ⟨port, hport⟩
    have hmap := parsePort_iff.mp hport
    obtain ⟨n, hn, -⟩ := Option.map_eq_some_iff.mp hmap
    rw [hn]
    rfl

/-! ## The options of a list of items -/

/-- What reading an item does to the options. -/
def Item.apply (options : Options) : Item → Options
  | .allowNetwork => { options with allowNetwork := true }
  | .setting arg value =>
    match assign options arg value with
    | .ok options => options
    | .error _ => options

/-- A valid setting is one that `assign` accepts. -/
theorem valid_iff {options : Options} {arg value : String} :
    (Item.setting arg value).Valid ↔ ∃ options', assign options arg value = .ok options' := by
  simp only [Item.Valid, portNumber_isSome_iff, textArgs, assign]
  by_cases hport : arg = "--port"
  · subst hport
    cases hparse : parsePort value <;> simp [Except.map]
  · simp only [hport, false_and, or_false, List.mem_cons, List.not_mem_nil]
    split_ifs <;> simp_all

theorem lastValue_snoc (items : List Item) (item : Item) (arg : String) :
    lastValue (items ++ [item]) arg = (item.valueOf arg).or (lastValue items arg) := by
  unfold lastValue
  rw [List.filterMap_append]
  cases h : item.valueOf arg <;> simp [h]

/-- One more item changes the options as reading it does. -/
theorem optionsOf_snoc (items : List Item) {item : Item} (valid : item.Valid) :
    optionsOf (items ++ [item]) = Item.apply (optionsOf items) item := by
  cases item with
  | allowNetwork =>
    simp [optionsOf, Item.apply, lastValue_snoc, Item.valueOf, Item.words]
  | setting arg value =>
    rcases valid with htext | ⟨rfl, hport⟩
    · simp only [textArgs, List.mem_cons, List.not_mem_nil, or_false] at htext
      rcases htext with rfl | rfl | rfl | rfl | rfl <;>
        simp [optionsOf, Item.apply, assign, lastValue_snoc, Item.valueOf, Item.words]
    · obtain ⟨port, hparse⟩ := portNumber_isSome_iff.mp hport
      have hnumber := parsePort_iff.mp hparse
      simp [optionsOf, Item.apply, assign, lastValue_snoc, Item.valueOf, Item.words, hparse,
        hnumber, Except.map]

/-- One item after the other, the options are the last value of each. -/
theorem apply_all {items : List Item} (valid : ∀ item ∈ items, item.Valid) :
    items.foldl Item.apply {} = optionsOf items := by
  induction items using List.reverseRecOn with
  | nil => rfl
  | append_singleton past item ih =>
    rw [List.foldl_append, ih fun earlier hmem => valid earlier (List.mem_append_left _ hmem),
      optionsOf_snoc past (valid item (by simp))]
    rfl

/-! ## The loop -/

theorem parse_item {item : Item} (valid : item.Valid) (options : Options) (rest : List String) :
    parse options (item.words ++ rest) = parse (item.apply options) rest := by
  cases item with
  | allowNetwork =>
    rw [parse.eq_def]
    simp [Item.words, Item.apply]
  | setting arg value =>
    have haccepted : ∃ options', assign options arg value = .ok options' := valid_iff.mp valid
    obtain ⟨options', hassign⟩ := haccepted
    have hname : arg ≠ "--version" ∧ arg ≠ "--help" ∧ arg ≠ "-h" ∧ arg ≠ "--allow-network" := by
      refine ⟨?_, ?_, ?_, ?_⟩ <;>
      · rintro rfl
        simp [assign] at hassign
    simp [Item.words, parse, Item.apply, hname, hassign]

/-- Valid items are read one after the other. -/
theorem parse_words {items : List Item} (valid : ∀ item ∈ items, item.Valid) (options : Options)
    (rest : List String) :
    parse options (wordsOf items ++ rest) = parse (items.foldl Item.apply options) rest := by
  induction items generalizing options with
  | nil => rfl
  | cons item items ih =>
    have hitem := valid item (by simp)
    have hitems : ∀ later ∈ items, later.Valid := fun later hmem => valid later (by simp [hmem])
    rw [wordsOf, List.flatMap_cons, List.append_assoc, parse_item hitem, List.foldl_cons]
    exact ih hitems (item.apply options)

/-- A request that ends the loop. -/
def Asks (text : String) : List String → Prop
  | [] => False
  | arg :: _ => arg = "--version" ∧ text = versionText ∨
      (arg = "--help" ∨ arg = "-h") ∧ text = usageText

/-- What stands behind the items that the loop reads. -/
theorem parse_cases (args : List String) :
    ∃ items rest, args = wordsOf items ++ rest ∧ (∀ item ∈ items, item.Valid) ∧
      (rest = [] ∨ (∃ text, Asks text rest) ∨
        ∀ options, ∃ what, parse options rest = .failed what) := by
  induction hlength : args.length using Nat.strongRecOn generalizing args with
  | ind length ih =>
    cases args with
    | nil => exact ⟨[], [], rfl, by simp, .inl rfl⟩
    | cons arg rest =>
      by_cases hasks : ∃ text, Asks text (arg :: rest)
      · exact ⟨[], arg :: rest, rfl, by simp, .inr (.inl hasks)⟩
      have hversion : arg ≠ "--version" := fun h => hasks ⟨versionText, .inl ⟨h, rfl⟩⟩
      have hhelp : ¬ (arg = "--help" ∨ arg = "-h") := fun h => hasks ⟨usageText, .inr ⟨h, rfl⟩⟩
      by_cases hallow : arg = "--allow-network"
      · obtain ⟨items, behind, hargs, hvalid, hbehind⟩ :=
          ih rest.length (by simp at hlength; omega) rest rfl
        refine ⟨.allowNetwork :: items, behind, ?_, ?_, hbehind⟩
        · rw [hallow, hargs]
          rfl
        · simpa [Item.Valid] using hvalid
      cases rest with
      | nil =>
        refine ⟨[], [arg], rfl, by simp, .inr (.inr fun options => ?_)⟩
        exact ⟨"Missing value for " ++ arg, by simp [parse, hversion, hhelp, hallow]⟩
      | cons value rest =>
        by_cases hitem : (Item.setting arg value).Valid
        · obtain ⟨items, behind, hargs, hvalid, hbehind⟩ :=
            ih rest.length (by simp at hlength; omega) rest rfl
          refine ⟨.setting arg value :: items, behind, ?_, ?_, hbehind⟩
          · rw [hargs]
            rfl
          · simpa [hitem] using hvalid
        · refine ⟨[], arg :: value :: rest, rfl, by simp, .inr (.inr fun options => ?_)⟩
          cases hassign : assign options arg value with
          | ok options' => exact absurd (valid_iff.mpr ⟨options', hassign⟩) hitem
          | error e => exact ⟨e.what, by simp [parse, hversion, hhelp, hallow, hassign]⟩

theorem parse_asks {text : String} {rest : List String} (asks : Asks text rest)
    (options : Options) : parse options rest = .printed text := by
  cases rest with
  | nil => cases asks
  | cons arg rest =>
    rw [parse.eq_def]
    rcases asks with ⟨rfl, rfl⟩ | ⟨rfl | rfl, rfl⟩ <;> simp

theorem main_words {items : List Item} (valid : ∀ item ∈ items, item.Valid)
    (rest : List String) : main (wordsOf items ++ rest) = parse (optionsOf items) rest := by
  rw [main, parse_words valid, apply_all valid]

theorem parse_nil {options options' : Options} :
    parse options [] = .run options' ↔ options' = options ∧ options.tokenFile ≠ "" := by
  simp only [parse, String.isEmpty_iff]
  split_ifs with hempty
  · simp [hempty]
  · simp [hempty, eq_comm]

/--
The appliance is run exactly for the well-formed items that name a token file,
with the last value of each option; the version and the usage are printed
exactly for a request behind well-formed items. Every other command line fails.
-/
theorem accepted_iff (args : List String) :
    (∀ options, main args = .run options ↔
      ∃ items, args = wordsOf items ∧ (∀ item ∈ items, item.Valid) ∧
        options = optionsOf items ∧ options.tokenFile ≠ "") ∧
    (∀ text, main args = .printed text ↔
      ∃ items rest, args = wordsOf items ++ rest ∧ (∀ item ∈ items, item.Valid) ∧
        Asks text rest) := by
  obtain ⟨items, rest, hargs, hvalid, hrest⟩ := parse_cases args
  have hmain : main args = parse (optionsOf items) rest := by rw [hargs, main_words hvalid]
  constructor
  · intro options
    constructor
    · intro hrun
      rw [hmain] at hrun
      rcases hrest with rfl | ⟨text, hasks⟩ | hfails
      · obtain ⟨rfl, htoken⟩ := parse_nil.mp hrun
        exact ⟨items, by simpa using hargs, hvalid, rfl, htoken⟩
      · rw [parse_asks hasks] at hrun
        cases hrun
      · obtain ⟨what, hwhat⟩ := hfails (optionsOf items)
        rw [hwhat] at hrun
        cases hrun
    · rintro ⟨read, rfl, hread, rfl, htoken⟩
      have hparse := main_words hread []
      rw [List.append_nil] at hparse
      rw [hparse]
      exact parse_nil.mpr ⟨rfl, htoken⟩
  · intro text
    constructor
    · intro hprinted
      rw [hmain] at hprinted
      rcases hrest with rfl | ⟨asked, hasks⟩ | hfails
      · simp only [parse] at hprinted
        split at hprinted <;> cases hprinted
      · rw [parse_asks hasks] at hprinted
        cases hprinted
        exact ⟨items, rest, hargs, hvalid, hasks⟩
      · obtain ⟨what, hwhat⟩ := hfails (optionsOf items)
        rw [hwhat] at hprinted
        cases hprinted
    · rintro ⟨read, behind, rfl, hread, hasks⟩
      rw [main_words hread, parse_asks hasks]

end Magicbox.Guarantees.CommandLine
