import Magicbox.Guarantees.AddressPlan
import Magicbox.Source.NftReader

/-!
# What the batches say

The texts that `nft -f -` is given, read character by character. Whatever
declarations are written as tokens are read back. For every configuration that
passes `validate`, the texts of `guard` and `ruleset` say the tables that the
other modules work on and nothing else: no name leaves its quotes, no name stands
for other interfaces, and no address is anything but an address.
-/

set_option autoImplicit false

namespace Magicbox.Guarantees.BatchTexts
open Library.Tokens Source.Config Source.Nftables Source.NftReader AddressText

variable {c : NetworkConfig} {ts rest : List Token}

/-! ## Every reader takes something -/

theorem progress_names {one : String → Condition} {two : String → String → Condition} :
    Progress (readNames one two) := by
  intro ts a rest h
  unfold readNames at h
  split at h
  · split at h
    · cases h
      simp
    · cases h
  · split at h
    · cases h
      simp
      omega
    · cases h
  · cases h

theorem progress_address {α : Type} {build : String → α} : Progress (readAddress build) := by
  intro ts a rest h
  unfold readAddress at h
  split at h
  · split at h
    · cases h
      simp
    · cases h
  · cases h

theorem progress_condition : Progress readCondition := by
  intro ts a rest h
  unfold readCondition at h
  split at h
  · exact Nat.lt_succ_of_lt (progress_names _ _ _ h)
  · exact Nat.lt_succ_of_lt (progress_names _ _ _ h)
  · exact Nat.lt_succ_of_lt (Nat.lt_succ_of_lt (progress_address _ _ _ h))
  · exact Nat.lt_succ_of_lt (Nat.lt_succ_of_lt (progress_address _ _ _ h))
  · cases h

theorem progress_statement : Progress readStatement := by
  intro ts a rest h
  unfold readStatement at h
  split at h
  · cases h
    simp
    omega
  · cases h
    simp
  · cases h
    simp
  · exact Nat.lt_succ_of_lt (Nat.lt_succ_of_lt (progress_address _ _ _ h))
  · exact Nat.lt_succ_of_lt (Nat.lt_succ_of_lt (progress_address _ _ _ h))
  · cases h

theorem progress_rule : Progress readRule := by
  intro ts a rest h
  have hconditions := all_length progress_condition ts
  have hstatements := all_length progress_statement (all readCondition ts).2
  unfold readRule at h
  dsimp only at h
  split at h
  · next hrest =>
    cases h
    rw [hrest] at hstatements
    simp at hstatements
    omega
  · cases h

theorem progress_chain : Progress readChain := by
  intro ts a rest h
  unfold readChain at h
  split at h
  · next inner =>
    have hrules := all_length progress_rule inner
    dsimp only at h
    split at h
    · next hrest =>
      cases h
      rw [hrest] at hrules
      simp at hrules ⊢
      omega
    · cases h
  · cases h

theorem progress_declaration : Progress readDeclaration := by
  intro ts a rest h
  unfold readDeclaration at h
  split at h
  · obtain ⟨family, -, heq⟩ := Option.map_eq_some_iff.mp h
    cases heq
    simp
    omega
  · next inner =>
    have hchains := all_length progress_chain inner
    dsimp only at h
    split at h
    · next hrest =>
      cases h
      rw [hrest] at hchains
      simp at hchains ⊢
      omega
    · cases h
  · cases h

/-! ## Declarations as tokens -/

def namesTokens (a b : String) : List Token :=
  [.mark '\x7b', .quoted a, .mark ',', .quoted b, .mark '\x7d']

def conditionTokens : Condition → List Token
  | .iifname a => [.word "iifname", .quoted a]
  | .iifnameIn a b => .word "iifname" :: namesTokens a b
  | .oifname a => [.word "oifname", .quoted a]
  | .oifnameIn a b => .word "oifname" :: namesTokens a b
  | .saddr a => [.word "ip", .word "saddr", .word a]
  | .daddr a => [.word "ip", .word "daddr", .word a]

def statementTokens : Statement → List Token
  | .ctMarkSet => [.word "ct", .word "mark", .word "set", .word "0x4d425800"]
  | .accept => [.word "accept"]
  | .drop => [.word "drop"]
  | .dnatTo a => [.word "dnat", .word "to", .word a]
  | .snatTo a => [.word "snat", .word "to", .word a]

def ruleTokens (r : Rule) : List Token :=
  r.conditions.flatMap conditionTokens ++ (r.statements.flatMap statementTokens ++ [.stop])

def chainTokens (b : BaseChain) : List Token :=
  [.word "chain", .word b.chain.name, .mark '\x7b', .word "type", .word b.type,
    .word "hook", .word b.chain.hook, .word "priority", .word b.priority, .stop,
    .word "policy", .word b.policy, .stop] ++
    (b.chain.rules.flatMap ruleTokens ++ [.mark '\x7d'])

def declarationTokens : Declaration → List Token
  | .deleteTable family name =>
    [.word "delete", .word "table", .word family.text, .word name, .stop]
  | .table b =>
    [.word "table", .word b.family.text, .word b.name, .mark '\x7b'] ++
      (b.chains.flatMap chainTokens ++ [.mark '\x7d'])

/-! ## What can be read -/

/-- No character of the name means anything to the reader. -/
def Plain (name : String) : Prop := ∀ ch ∈ name.toList, ch ≠ '*' ∧ ch ≠ '\\' ∧ ch ≠ '"'

def Address (text : String) : Prop := (inetPton text.toList).isSome = true

def ReadableCondition : Condition → Prop
  | .iifname a | .oifname a => Plain a
  | .iifnameIn a b | .oifnameIn a b => Plain a ∧ Plain b
  | .saddr a | .daddr a => Address a

def ReadableStatement : Statement → Prop
  | .ctMarkSet | .accept | .drop => True
  | .dnatTo a | .snatTo a => Address a

/-- A rule says something about a packet. -/
structure ReadableRule (r : Rule) : Prop where
  conditions : ∀ condition ∈ r.conditions, ReadableCondition condition
  statements : ∀ statement ∈ r.statements, ReadableStatement statement
  some : r.statements ≠ []

def Readable : Declaration → Prop
  | .deleteTable _ _ => True
  | .table b => ∀ chain ∈ b.chains, ∀ rule ∈ chain.chain.rules, ReadableRule rule

theorem Plain.plainName {name : String} (h : Plain name) : plainName name = true := by
  refine List.all_eq_true.mpr fun ch hch => ?_
  obtain ⟨hstar, hescape, -⟩ := h ch hch
  simp [hstar, hescape]

theorem read_condition {condition : Condition} (h : ReadableCondition condition)
    (ts : List Token) : readCondition (conditionTokens condition ++ ts) = some (condition, ts) := by
  cases condition with
  | iifname a =>
    have ha : plainName a = true := h.plainName
    simp [conditionTokens, readCondition, readNames, ha]
  | iifnameIn a b =>
    have ha : plainName a = true := h.1.plainName
    have hb : plainName b = true := h.2.plainName
    simp [conditionTokens, namesTokens, readCondition, readNames, ha, hb]
  | oifname a =>
    have ha : plainName a = true := h.plainName
    simp [conditionTokens, readCondition, readNames, ha]
  | oifnameIn a b =>
    have ha : plainName a = true := h.1.plainName
    have hb : plainName b = true := h.2.plainName
    simp [conditionTokens, namesTokens, readCondition, readNames, ha, hb]
  | saddr a =>
    have ha : (inetPton a.toList).isSome = true := h
    simp [conditionTokens, readCondition, readAddress, ha]
  | daddr a =>
    have ha : (inetPton a.toList).isSome = true := h
    simp [conditionTokens, readCondition, readAddress, ha]

theorem read_statement {statement : Statement} (h : ReadableStatement statement)
    (ts : List Token) :
    readStatement (statementTokens statement ++ ts) = some (statement, ts) := by
  cases statement with
  | ctMarkSet => simp [statementTokens, readStatement]
  | accept => simp [statementTokens, readStatement]
  | drop => simp [statementTokens, readStatement]
  | dnatTo a =>
    have ha : (inetPton a.toList).isSome = true := h
    simp [statementTokens, readStatement, readAddress, ha]
  | snatTo a =>
    have ha : (inetPton a.toList).isSome = true := h
    simp [statementTokens, readStatement, readAddress, ha]

/-- No statement begins like a condition. -/
theorem no_condition (statement : Statement) (ts : List Token) :
    readCondition (statementTokens statement ++ ts) = none := by
  cases statement <;> simp [statementTokens, readCondition]

theorem read_rule {r : Rule} (h : ReadableRule r) (ts : List Token) :
    readRule (ruleTokens r ++ ts) = some (r, ts) := by
  obtain ⟨conditions, statements⟩ := r
  have hstop : readStatement (.stop :: ts) = none := by simp [readStatement]
  have hstatements :
      all readStatement (statements.flatMap statementTokens ++ .stop :: ts) =
        (statements, .stop :: ts) :=
    all_flatMap progress_statement (fun s hs => read_statement (h.statements s hs)) hstop
  cases statements with
  | nil => exact absurd rfl h.some
  | cons statement others =>
    have hend : readCondition
        ((statement :: others).flatMap statementTokens ++ .stop :: ts) = none := by
      rw [List.flatMap_cons, List.append_assoc]
      exact no_condition statement _
    have hconditions := all_flatMap progress_condition
      (fun condition hmem => read_condition (h.conditions condition hmem)) hend
    simp only [ruleTokens, List.append_assoc, List.singleton_append, readRule, hconditions,
      hstatements]

theorem read_chain {b : BaseChain} (h : ∀ rule ∈ b.chain.rules, ReadableRule rule)
    (ts : List Token) : readChain (chainTokens b ++ ts) = some (b, ts) := by
  have hend : readRule (.mark '\x7d' :: ts) = none := by
    have hcondition : readCondition (.mark '\x7d' :: ts) = none := by simp [readCondition]
    have hstatement : readStatement (.mark '\x7d' :: ts) = none := by simp [readStatement]
    simp [readRule, all_done hcondition, all_done hstatement]
  have hrules := all_flatMap progress_rule (fun rule hmem => read_rule (h rule hmem)) hend
  simp [chainTokens, readChain, hrules]

theorem read_family (family : Family) : readFamily family.text = some family := by
  cases family <;> rfl

theorem read_declaration {d : Declaration} (h : Readable d) (ts : List Token) :
    readDeclaration (declarationTokens d ++ ts) = some (d, ts) := by
  cases d with
  | deleteTable family name => simp [declarationTokens, readDeclaration, read_family]
  | table b =>
    have hend : readChain (.mark '\x7d' :: ts) = none := by simp [readChain]
    have hchains := all_flatMap progress_chain (fun chain hmem => read_chain (h chain hmem)) hend
    simp [declarationTokens, readDeclaration, read_family, hchains]

/-- What was written as tokens is read back. -/
theorem read_declarations {ds : List Declaration} (h : ∀ d ∈ ds, Readable d) :
    all readDeclaration (ds.flatMap declarationTokens) = (ds, []) := by
  have hread := all_flatMap progress_declaration (fun d hd => read_declaration (h d hd))
    (rfl : readDeclaration [] = none)
  rwa [List.append_nil] at hread

theorem readBatch_of_tokens {text : String} {ds : List Declaration} (h : ∀ d ∈ ds, Readable d)
    (htokens : tokens kind text = some ts)
    (hsqueeze : squeeze true ts = ds.flatMap declarationTokens) : readBatch text = some ds := by
  simp [readBatch, htokens, hsqueeze, read_declarations h]

/-! ## Texts that end with a token -/

/-- A text of tokens, the last of which ends in front of whatever ends a word. -/
def Spells (text : String) (found : List Token) : Prop :=
  ∀ ch cs more last, kind ch ≠ .word → Scans kind .between (ch :: cs) more last →
    Scans kind .between (text.toList ++ ch :: cs) (found ++ more) last

theorem Spells.of_closed {text : String} {found : List Token}
    (h : Scans kind .between text.toList found .between) : Spells text found :=
  fun _ _ _ _ _ hrest => h.append hrest

theorem Spells.of_open {text : String} {found : List Token} {seen : List Char}
    (h : Scans kind .between text.toList found (.word seen)) :
    Spells text (found ++ [.word (String.ofList seen)]) := by
  intro ch cs more last hch hrest
  rw [List.append_assoc]
  exact h.append (hrest.break hch)

/-- What separates two texts, with the tokens it stands for. -/
structure Separates (separator : String) (found : List Token) : Prop where
  scans : Scans kind .between separator.toList found .between
  breaks : ∃ ch cs, separator.toList = ch :: cs ∧ kind ch ≠ .word

theorem Spells.then {text separator : String} {found between more : List Token} {cs : List Char}
    {last : Mode} (h : Spells text found) (hseparator : Separates separator between)
    (hrest : Scans kind .between cs more last) :
    Scans kind .between (text.toList ++ (separator.toList ++ cs)) (found ++ (between ++ more))
      last := by
  obtain ⟨ch, tail, hcons, hch⟩ := hseparator.breaks
  have hall := hseparator.scans.append hrest
  rw [hcons, List.cons_append] at hall ⊢
  exact h _ _ _ _ hch hall

theorem Spells.append {a b separator : String} {first second between : List Token}
    (ha : Spells a first) (hseparator : Separates separator between) (hb : Spells b second) :
    Spells (a ++ (separator ++ b)) (first ++ (between ++ second)) := by
  intro ch cs more last hch hrest
  have hscan := ha.then hseparator (hb ch cs more last hch hrest)
  simpa only [String.toList_append, List.append_assoc] using hscan

/-- Texts with a separator between them. -/
theorem spells_join {separator : String} {between : List Token}
    (hseparator : Separates separator between) (parts : List (String × List Token))
    (hne : parts ≠ []) (h : ∀ p ∈ parts, Spells p.1 p.2) :
    Spells (joinWith separator (parts.map Prod.fst))
      (between.intercalate (parts.map Prod.snd)) := by
  induction parts with
  | nil => exact absurd rfl hne
  | cons p parts ih =>
    cases parts with
    | nil => simpa [joinWith] using h p List.mem_cons_self
    | cons q parts =>
      have hrest := ih (by simp) fun r hr => h r (List.mem_cons_of_mem p hr)
      have hall := (h p List.mem_cons_self).append hseparator hrest
      simpa [joinWith, List.intercalate_cons_cons] using hall

theorem separates_blank : Separates " " [] :=
  ⟨by unfold Scans; decide, ' ', [], by decide, by decide⟩

theorem separates_line : Separates "\n" [.stop] :=
  ⟨by unfold Scans; decide, '\n', [], by decide, by decide⟩

theorem separates_semicolon : Separates "; " [.stop] :=
  ⟨by unfold Scans; decide, ';', [' '], by decide, by decide⟩

/-! ## Rules as texts -/

theorem Plain.no_quote {name : String} (h : Plain name) : ∀ ch ∈ name.toList, kind ch ≠ .quote := by
  intro ch hch
  have hquote := (h ch hch).2.2
  unfold kind
  split_ifs <;> simp_all

theorem scans_quoted {name : String} (h : Plain name) :
    Scans kind .between (quoted name).toList [.quoted name] .between := by
  have hopen : Scans kind .between "\"".toList [] (.quoted []) := by unfold Scans; decide
  have hclose : Scans kind (.quoted name.toList) "\"".toList [.quoted name] .between := by
    have hempty : Scans kind .between [] [] .between := rfl
    have hscan : Scans kind (.quoted name.toList) ['"'] [.quoted (String.ofList name.toList)]
        .between := hempty.close (by decide)
    rwa [String.ofList_toList] at hscan
  have hname : Scans kind (.quoted []) name.toList [] (.quoted name.toList) :=
    Scans.quoted h.no_quote
  have hall := (hopen.append hname).append hclose
  simpa only [quoted, String.toList_append, List.nil_append] using hall

theorem kind_alphanum {ch : Char} (h : ch.isAlphanum = true) : kind ch = .word := by
  have hne : ∀ other : Char, other.isAlphanum = false → ch ≠ other := by
    rintro other hother rfl
    rw [h] at hother
    cases hother
  simp [kind, h, hne ' ' (by decide), hne '\t' (by decide), hne '\n' (by decide),
    hne ';' (by decide), hne '\x7b' (by decide), hne '\x7d' (by decide), hne ',' (by decide),
    hne '"' (by decide)]

/-- An address is a word. -/
theorem Address.word {text : String} (h : Address text) :
    text.toList ≠ [] ∧ ∀ ch ∈ text.toList, kind ch = .word := by
  obtain ⟨x, hx⟩ := Option.isSome_iff_exists.mp h
  obtain ⟨a, b, c, d, -, rfl, -⟩ := inetPton_iff.mp hx
  have hdigit : ∀ {ch n}, ch ∈ Nat.toDigits 10 n → kind ch = .word := by
    intro ch n hch
    have hdigit := isDigit_of_mem hch
    exact kind_alphanum (by simp [Char.isAlphanum, hdigit])
  have hdot : kind '.' = .word := by decide
  rw [dotted_toList]
  constructor
  · simp [List.intercalate_cons_cons]
  · intro ch hch
    simp only [List.map_cons, List.map_nil, List.intercalate_cons_cons, List.intercalate_singleton,
      List.mem_append, List.mem_singleton, or_assoc] at hch
    rcases hch with hch | rfl | hch | rfl | hch | rfl | hch
    all_goals first | exact hdigit hch | exact hdot

theorem spells_address {text : String} (h : Address text) : Spells text [.word text] := by
  have hscan := Spells.of_open (Scans.begin h.word.1 h.word.2)
  rwa [String.ofList_toList, List.nil_append] at hscan

/-- Words that the reader knows. -/
theorem spells_keyword {text : String} (hne : text.toList ≠ [])
    (h : (text.toList.all fun ch => kind ch = .word) = true) : Spells text [.word text] := by
  have hscan := Spells.of_open (Scans.begin hne fun ch hch =>
    of_decide_eq_true (List.all_eq_true.mp h ch hch))
  rwa [String.ofList_toList, List.nil_append] at hscan

theorem scans_pair {a b : String} (ha : Plain a) (hb : Plain b) :
    Scans kind .between (pair a b).toList (namesTokens a b) .between := by
  have hopen : Scans kind .between "\x7b ".toList [.mark '\x7b'] .between := by
    unfold Scans
    decide
  have hcomma : Scans kind .between ", ".toList [.mark ','] .between := by
    unfold Scans
    decide
  have hclose : Scans kind .between " \x7d".toList [.mark '\x7d'] .between := by
    unfold Scans
    decide
  have hall := (((hopen.append (scans_quoted ha)).append hcomma).append (scans_quoted hb)).append
    hclose
  rw [pair, String.toList_append, String.toList_append, String.toList_append, String.toList_append]
  exact hall

/-- Closed text in front. -/
theorem Spells.prepend {a b : String} {first second : List Token}
    (ha : Scans kind .between a.toList first .between) (hb : Spells b second) :
    Spells (a ++ b) (first ++ second) := by
  intro ch cs more last hch hrest
  have hall := ha.append (hb ch cs more last hch hrest)
  simpa only [String.toList_append, List.append_assoc] using hall

theorem spells_condition {condition : Condition} (h : ReadableCondition condition) :
    Spells condition.text (conditionTokens condition) := by
  have hiifname : Scans kind .between "iifname ".toList [.word "iifname"] .between := by
    unfold Scans
    decide
  have hoifname : Scans kind .between "oifname ".toList [.word "oifname"] .between := by
    unfold Scans
    decide
  have hsaddr : Scans kind .between "ip saddr ".toList [.word "ip", .word "saddr"] .between := by
    unfold Scans
    decide
  have hdaddr : Scans kind .between "ip daddr ".toList [.word "ip", .word "daddr"] .between := by
    unfold Scans
    decide
  cases condition with
  | iifname a => exact .prepend hiifname (.of_closed (scans_quoted h))
  | iifnameIn a b => exact .prepend hiifname (.of_closed (scans_pair h.1 h.2))
  | oifname a => exact .prepend hoifname (.of_closed (scans_quoted h))
  | oifnameIn a b => exact .prepend hoifname (.of_closed (scans_pair h.1 h.2))
  | saddr a => exact .prepend hsaddr (spells_address h)
  | daddr a => exact .prepend hdaddr (spells_address h)

theorem spells_statement {statement : Statement} (h : ReadableStatement statement) :
    Spells statement.text (statementTokens statement) := by
  have hmark : Scans kind .between "ct mark set ".toList
      [.word "ct", .word "mark", .word "set"] .between := by
    unfold Scans
    decide
  have hdnat : Scans kind .between "dnat to ".toList [.word "dnat", .word "to"] .between := by
    unfold Scans
    decide
  have hsnat : Scans kind .between "snat to ".toList [.word "snat", .word "to"] .between := by
    unfold Scans
    decide
  cases statement with
  | ctMarkSet =>
    have hvalue : Spells "0x4d425800" [.word "0x4d425800"] :=
      spells_keyword (by decide) (by decide)
    have htext : Statement.ctMarkSet.text = "ct mark set " ++ "0x4d425800" := by decide
    rw [htext]
    exact Spells.prepend hmark hvalue
  | accept => exact spells_keyword (by decide) (by decide)
  | drop => exact spells_keyword (by decide) (by decide)
  | dnatTo a => exact .prepend hdnat (spells_address h)
  | snatTo a => exact .prepend hsnat (spells_address h)

/-- A rule without the token that ends it. -/
def ruleBody (r : Rule) : List Token :=
  r.conditions.flatMap conditionTokens ++ r.statements.flatMap statementTokens

theorem intercalate_nil_eq {α : Type} (xs : List (List α)) :
    List.intercalate [] xs = xs.flatten := by
  induction xs with
  | nil => rfl
  | cons x xs ih =>
    cases xs with
    | nil => simp
    | cons y ys => simpa [List.intercalate_cons_cons] using ih

theorem spells_rule {r : Rule} (h : ReadableRule r) : Spells r.text (ruleBody r) := by
  have hparts := spells_join separates_blank
    (r.conditions.map (fun a => (a.text, conditionTokens a)) ++
      r.statements.map fun a => (a.text, statementTokens a)) ?_ ?_
  · simpa [Rule.text, ruleBody, intercalate_nil_eq, Function.comp_def, List.flatMap] using hparts
  · simp [h.some]
  · intro p hp
    rcases List.mem_append.mp hp with hp | hp
    · obtain ⟨a, ha, rfl⟩ := List.mem_map.mp hp
      exact spells_condition (h.conditions a ha)
    · obtain ⟨a, ha, rfl⟩ := List.mem_map.mp hp
      exact spells_statement (h.statements a ha)

/-- Rules with what separates them. -/
theorem spells_rules {separator : String} (hseparator : Separates separator [.stop])
    (rules : List Rule) (hne : rules ≠ []) (h : ∀ rule ∈ rules, ReadableRule rule) :
    Spells (joinWith separator (rules.map Rule.text))
      ([.stop].intercalate (rules.map ruleBody)) := by
  have hparts := spells_join hseparator (rules.map fun r => (r.text, ruleBody r))
    (by simpa using hne) fun p hp => ?_
  · simpa [Function.comp_def] using hparts
  · obtain ⟨rule, hrule, rfl⟩ := List.mem_map.mp hp
    exact spells_rule (h rule hrule)

/-! ## The batches -/

def forwardChain (rules : List Rule) : BaseChain :=
  ⟨"filter", "-10", "accept", ⟨"forward", "forward", rules⟩⟩

def forwardDeclaration (rules : List Rule) : Declaration :=
  .table ⟨.inet, "magicbox", [forwardChain rules]⟩

def natDeclaration (c : NetworkConfig) : Declaration :=
  .table ⟨.ip, "magicbox",
    [⟨"nat", "dstnat", "accept", ⟨"prerouting", "prerouting", [dnatRule c]⟩⟩,
      ⟨"nat", "srcnat", "accept", ⟨"postrouting", "postrouting", [snatRule c]⟩⟩]⟩

theorem scans_forwardHead : Scans kind .between forwardHead.toList
    [.word "table", .word "inet", .word "magicbox", .mark '\x7b', .word "chain", .word "forward",
      .mark '\x7b', .word "type", .word "filter", .word "hook", .word "forward",
      .word "priority", .word "-10", .stop, .word "policy", .word "accept", .stop] .between := by
  unfold Scans
  decide +kernel

theorem scans_preroutingHead : Scans kind .between preroutingHead.toList
    [.word "chain", .word "prerouting", .mark '\x7b', .word "type", .word "nat", .word "hook",
      .word "prerouting", .word "priority", .word "dstnat", .stop, .word "policy",
      .word "accept", .stop] .between := by
  unfold Scans
  decide +kernel

theorem scans_postroutingHead : Scans kind .between postroutingHead.toList
    [.word "chain", .word "postrouting", .mark '\x7b', .word "type", .word "nat", .word "hook",
      .word "postrouting", .word "priority", .word "srcnat", .stop, .word "policy",
      .word "accept", .stop] .between := by
  unfold Scans
  decide +kernel

theorem guard_tokens (hdrop : ∀ rule ∈ dropRules c, ReadableRule rule) :
    ∃ ts, Scans kind .between (guard c).toList ts .between ∧
      squeeze true ts = declarationTokens (forwardDeclaration (dropRules c)) := by
  have htail : Separates "; \x7d\n\x7d\n"
      [.stop, .mark '\x7d', .stop, .mark '\x7d', .stop] :=
    ⟨by unfold Scans; decide, ';', " \x7d\n\x7d\n".toList, by decide, by decide⟩
  have hrules := spells_rules separates_semicolon (dropRules c) (by simp [dropRules]) hdrop
  have hempty : Scans kind .between [] [] .between := rfl
  have hall := (scans_forwardHead.append separates_blank.scans).append (hrules.then htail hempty)
  have htext : (guard c).toList = forwardHead.toList ++ " ".toList ++
      ((joinWith "; " ((dropRules c).map Rule.text)).toList ++
        ("; \x7d\n\x7d\n".toList ++ [])) := by
    rw [guard_text]
    simp only [String.toList_append, List.append_assoc, List.append_nil]
  rw [htext]
  exact ⟨_, hall, rfl⟩

theorem ruleset_tokens (hdrop : ∀ rule ∈ dropRules c, ReadableRule rule)
    (haccept : ∀ rule ∈ acceptRules c, ReadableRule rule) (hdnat : ReadableRule (dnatRule c))
    (hsnat : ReadableRule (snatRule c)) :
    ∃ ts, Scans kind .between (ruleset c).toList ts .between ∧
      squeeze true ts = declarationTokens (natDeclaration c) ++
        declarationTokens (forwardDeclaration (acceptRules c ++ dropRules c)) := by
  have hopen : Scans kind .between "table ip magicbox \x7b\n".toList
      [.word "table", .word "ip", .word "magicbox", .mark '\x7b', .stop] .between := by
    unfold Scans
    decide
  have hend : Separates "; \x7d\n" [.stop, .mark '\x7d', .stop] :=
    ⟨by unfold Scans; decide, ';', " \x7d\n".toList, by decide, by decide⟩
  have hclose : Scans kind .between "\x7d\n".toList [.mark '\x7d', .stop] .between := by
    unfold Scans
    decide
  have htail : Scans kind .between "\x7d\n\x7d\n".toList
      [.mark '\x7d', .stop, .mark '\x7d', .stop] .between := by
    unfold Scans
    decide
  have hrules := spells_rules separates_line (acceptRules c ++ dropRules c)
    (by simp [acceptRules]) fun rule hrule =>
      (List.mem_append.mp hrule).elim (haccept rule) (hdrop rule)
  have hforward := scans_forwardHead.append
    (separates_line.scans.append (hrules.then separates_line htail))
  have hpost := scans_postroutingHead.append (separates_blank.scans.append
    ((spells_rule hsnat).then hend (hclose.append hforward)))
  have hall := hopen.append (scans_preroutingHead.append (separates_blank.scans.append
    ((spells_rule hdnat).then hend hpost)))
  have htext := congrArg String.toList (ruleset_text c)
  simp only [String.toList_append, List.append_assoc] at htext
  rw [htext]
  exact ⟨_, hall, rfl⟩

/-! ## Accepted configurations -/

theorem plain_of_interface {name : String} (h : InterfaceName name) : Plain name := by
  intro ch hch
  have hchar := h.chars ch hch
  refine ⟨?_, ?_, ?_⟩
  all_goals
    rintro rfl
    revert hchar
    decide

theorem address_of_unicast {text : String} (h : unicastIpv4 text = true) : Address text := by
  have hdenotes := ((unicastIpv4_iff text).mp h).1
  exact Option.isSome_iff_exists.mpr ⟨_, inetPton_iff.mpr hdenotes⟩

/-- What the rules take from a configuration. -/
structure Usable (c : NetworkConfig) : Prop where
  inner : Plain c.innerInterface
  outer : Plain (effectiveOuter c)
  device : Address c.deviceIpv4
  address : Address c.outerIpv4

theorem usable_of_validate (h : validate c = []) : Usable c := by
  obtain ⟨hfields, -⟩ := (AddressPlan.validate_nil_iff c).mp h
  have hvlan : InterfaceName "mbx-outer" := (validInterface_iff _).mp (by decide)
  refine ⟨plain_of_interface hfields.innerInterface, ?_, address_of_unicast hfields.deviceIpv4,
    address_of_unicast hfields.outerIpv4⟩
  unfold effectiveOuter
  split
  · exact plain_of_interface hvlan
  · exact plain_of_interface hfields.outerInterface

theorem Usable.drop (h : Usable c) : ∀ rule ∈ dropRules c, ReadableRule rule := by
  intro rule hrule
  simp only [dropRules, List.mem_cons, List.not_mem_nil, or_false] at hrule
  rcases hrule with rfl | rfl
  · exact ⟨by simpa [ReadableCondition] using ⟨h.inner, h.outer⟩, by simp [ReadableStatement],
      by simp⟩
  · exact ⟨by simpa [ReadableCondition] using ⟨h.inner, h.outer⟩, by simp [ReadableStatement],
      by simp⟩

theorem Usable.accept (h : Usable c) : ∀ rule ∈ acceptRules c, ReadableRule rule := by
  intro rule hrule
  simp only [acceptRules, List.mem_cons, List.not_mem_nil, or_false] at hrule
  rcases hrule with rfl | rfl
  · exact ⟨by simpa [ReadableCondition] using ⟨h.inner, h.outer, h.device⟩,
      by simp [ReadableStatement], by simp⟩
  · exact ⟨by simpa [ReadableCondition] using ⟨h.outer, h.inner, h.device⟩,
      by simp [ReadableStatement], by simp⟩

theorem Usable.dnat (h : Usable c) : ReadableRule (dnatRule c) :=
  ⟨by simpa [dnatRule, ReadableCondition] using ⟨h.outer, h.address⟩,
    by simpa [dnatRule, ReadableStatement] using h.device, by simp [dnatRule]⟩

theorem Usable.snat (h : Usable c) : ReadableRule (snatRule c) :=
  ⟨by simpa [snatRule, ReadableCondition] using ⟨h.outer, h.device⟩,
    by simpa [snatRule, ReadableStatement] using h.address, by simp [snatRule]⟩

/-- The line in front of a batch that takes the place of a table. -/
def deletion : String := "delete table inet magicbox\n"

theorem scans_deletion : Scans kind .between deletion.toList
    (declarationTokens (.deleteTable .inet "magicbox")) .between := by
  unfold Scans
  decide +kernel

/-- A batch, alone and behind the line that deletes the table. -/
theorem readBatch_behind {text : String} {ds : List Declaration}
    (hscan : Scans kind .between text.toList ts .between)
    (hsqueeze : squeeze true ts = ds.flatMap declarationTokens) (h : ∀ d ∈ ds, Readable d)
    (installed : Bool) :
    readBatch ((if installed then deletion else "") ++ text) =
      some ((if installed then [.deleteTable .inet "magicbox"] else []) ++ ds) := by
  cases installed with
  | false =>
    have htext : (if false = true then deletion else "") ++ text = text := String.empty_append
    rw [htext]
    exact readBatch_of_tokens h hscan.tokens hsqueeze
  | true =>
    have hall := scans_deletion.append hscan
    rw [← String.toList_append] at hall
    refine readBatch_of_tokens ?_ hall.tokens ?_
    · rintro d (- | ⟨-, hd⟩)
      · exact trivial
      · exact h d hd
    · rw [if_pos rfl, List.singleton_append, List.flatMap_cons, ← hsqueeze]
      rfl

/-- **The batches say what they are taken to say.** For every configuration that
passes `validate`, with or without the line that deletes the table before it, the
texts of `guard` and `ruleset` are read, to the last character, as the tables that
`install` and `restore` are modelled with, each chain with `policy accept` and the
priority of its hook. -/
theorem batches_read_back (h : validate c = []) (installed : Bool) :
    readBatch ((if installed then deletion else "") ++ guard c) =
        some ((if installed then [.deleteTable .inet "magicbox"] else []) ++
          [forwardDeclaration (dropRules c)]) ∧
      readBatch ((if installed then deletion else "") ++ ruleset c) =
        some ((if installed then [.deleteTable .inet "magicbox"] else []) ++
          [natDeclaration c, forwardDeclaration (acceptRules c ++ dropRules c)]) ∧
      [forwardDeclaration (dropRules c)].map Declaration.command = [.define (guardTable c)] ∧
      [natDeclaration c, forwardDeclaration (acceptRules c ++ dropRules c)].map
        Declaration.command = [.define (natTable c), .define (forwardTable c)] := by
  have husable := usable_of_validate h
  obtain ⟨guarded, hguarded, hguard⟩ := guard_tokens husable.drop
  obtain ⟨ruled, hruled, hruleset⟩ := ruleset_tokens husable.drop husable.accept
    husable.dnat husable.snat
  refine ⟨readBatch_behind hguarded ?_ ?_ installed, readBatch_behind hruled ?_ ?_ installed,
    rfl, rfl⟩
  · rw [hguard]
    simp
  · simpa [Readable, forwardDeclaration, forwardChain] using husable.drop
  · rw [hruleset]
    simp
  · have hforward : ∀ rule ∈ acceptRules c ++ dropRules c, ReadableRule rule := fun rule hrule =>
      (List.mem_append.mp hrule).elim (husable.accept rule) (husable.drop rule)
    rintro d (- | ⟨-, - | ⟨-, ⟨⟩⟩⟩)
    · simpa [Readable, natDeclaration] using ⟨husable.dnat, husable.snat⟩
    · simpa [Readable, forwardDeclaration, forwardChain] using hforward

theorem batches_read_back_example :
    readBatch (deletion ++ guard exampleConfig) =
      some [.deleteTable .inet "magicbox", forwardDeclaration (dropRules exampleConfig)] :=
  (batches_read_back validate_exampleConfig true).1

/-- A name that `validate` refuses: it would bring a rule of its own. -/
def intruding : NetworkConfig :=
  { exampleConfig with innerInterface := "a\", \"b\" \x7d accept; iifname \x7b \"c" }

example : readBatch (guard intruding) =
    some [forwardDeclaration
      [⟨[.iifnameIn "a" "b"], [.accept]⟩, ⟨[.iifnameIn "c" "mbx-outer"], [.drop]⟩,
        ⟨[.oifnameIn "a" "b"], [.accept]⟩, ⟨[.iifnameIn "c" "mbx-outer"], [.drop]⟩]] := by
  decide +kernel

end Magicbox.Guarantees.BatchTexts
