import Magicbox.Guarantees.ConfigCodec
import Magicbox.Guarantees.HistoryRange

/-!
# Validation errors

The requests whose body or query is not what the API describes, and what they are
answered with. `submit` tells `invalid_argument` from the other exceptions only. A
body that the reader gives up on, a member of something that has no members, a
number that does not fit into 64 bits: these are other exceptions, and answered
like a failed operation.
-/

set_option autoImplicit false

namespace Magicbox.Guarantees.ValidationErrors
open Library Library.Results Library.Sqlite Source.Json Source.Config Source.ConfigJson
open Source.Store Source.Requests HistoryRange
open ConfigCodec (Documented Invalid documented_of_ok invalid_bind invalid_configFromJson
  ok_of_documented)

/-! ## What the API describes -/

/-- An integer of 64 bits as a text: digits behind spaces and a sign. -/
def Denotes (text : String) (n : Int64) : Prop :=
  Decimal.integer (text.toList.dropWhile Decimal.isSpace) = some n.toInt

/-- The number of a parameter, or its default. -/
def Given (text : String) (fallback n : Int64) : Prop :=
  if text = "" then n = fallback else Denotes text n

def GivenFrom (e : Evaluation) (text : String) (n : Int64) : Prop :=
  Given text (Int64.ofInt (nowSeconds e.fromClock - 3600)) n

def GivenTo (e : Evaluation) (text : String) (n : Int64) : Prop :=
  Given text (Int64.ofInt (nowSeconds e.toClock + 1)) n

/-- A request with the documented content. -/
def WellFormed (reader : String → Parsed) (e : Evaluation) : Request → Prop
  | .putCapture body => ∃ v name, reader body = .value v ∧ v.isObject = true ∧
      v.get "interface" = .string name ∧ Source.Sampling.validName name = true
  | .putConfig body | .validateConfig body =>
    ∃ v c, reader body = .value v ∧ Documented v c ∧ validate c = []
  | .history interval from_ to_ =>
    (∃ i, Given interval 60 i ∧ Regular i.toInt) ∧
      ∃ first last, GivenFrom e from_ first ∧ GivenTo e to_ last ∧ Ranges first last

variable {σ ρ : Type}

/-- What is rejected for its content is a validation error and changes nothing, and nothing else
is called an operational failure. -/
structure Validated (ops : Operations σ ρ) (reader : String → Parsed) (e : Evaluation) (s : σ)
    (q : Request) : Prop where
  rejected : ¬ WellFormed reader e q → status (request ops reader e s q).1 = some 422 ∧
    (request ops reader e s q).2 = s
  operational : status (request ops reader e s q).1 = some 409 → WellFormed reader e q

/-! ## What the code recognises -/

/-- The text begins with an integer of more than 64 bits. -/
def TooLong (text : String) : Prop :=
  ∃ n rest, Decimal.leading (text.toList.dropWhile Decimal.isSpace) = some (n, rest) ∧
    fits n = false

def Readable (text : String) : Prop := text = "" ∨ ∃ n, Denotes text n

/-- The ends of a range as they are evaluated, and a difference that does not overflow. -/
structure RangeRecognised (e : Evaluation) (from_ to_ : String) : Prop where
  first : ¬ TooLong (if e.fromFirst then from_ else to_)
  second : Readable (if e.fromFirst then from_ else to_) →
    ¬ TooLong (if e.fromFirst then to_ else from_)
  difference : ∀ first last, GivenFrom e from_ first → GivenTo e to_ last → first < last →
    last.toInt - first.toInt < 9223372036854775808

/-- The requests whose content, if it is at fault, is at fault in a way that the code has an
`invalid_argument` for. -/
def Recognised (reader : String → Parsed) (e : Evaluation) : Request → Prop
  | .putCapture body => reader body ≠ .nested ∧
      ∀ v, reader body = .value v → v.isObject = true ∨ v = .null
  | .putConfig body | .validateConfig body => reader body ≠ .nested
  | .history interval from_ to_ => ¬ TooLong interval ∧
      ((∃ i, Given interval 60 i ∧ Regular i.toInt) → RangeRecognised e from_ to_)

/-! ## Integers in queries -/

theorem number_ok_iff {text : String} {fallback n : Int64} :
    number text fallback = .ok n ↔ Given text fallback n := by
  unfold number Given
  split
  · rw [Except.ok.injEq, eq_comm]
  · rw [Denotes, ← stoll_whole, bind_ok_iff]
    constructor
    · rintro ⟨⟨m, rest⟩, hread, h⟩
      simp only at h
      split at h
      · cases h
      · next hrest =>
        obtain rfl := Except.ok.inj h
        rw [hread, not_not.mp hrest]
    · intro hread
      exact ⟨(n, []), hread, rfl⟩

theorem given_readable {text : String} {fallback n : Int64} (h : Given text fallback n) :
    Readable text := by
  unfold Given at h
  split at h
  · next hempty => exact Or.inl hempty
  · exact Or.inr ⟨n, h⟩

theorem Readable.given {text : String} (h : Readable text) (fallback : Int64) :
    ∃ n, Given text fallback n := by
  unfold Given
  by_cases hempty : text = ""
  · exact ⟨fallback, by simp [hempty]⟩
  · obtain ⟨n, hn⟩ := h.resolve_left hempty
    exact ⟨n, by simpa [hempty] using hn⟩

theorem Readable.not_tooLong {text : String} (h : Readable text) : ¬ TooLong text := by
  rintro ⟨n, rest, hleading, hfits⟩
  rcases h with rfl | ⟨m, hm⟩
  · cases hleading
  · rw [Denotes, ← Decimal.leading_whole, hleading] at hm
    obtain ⟨rfl, -⟩ := Prod.mk.inj (Option.some.inj hm)
    rw [fits_iff.mpr ⟨m.le_toInt, m.toInt_lt⟩] at hfits
    cases hfits

/-- A parameter that cannot be read: `invalid_argument` unless its number is too long. -/
theorem number_refused {text : String} (h : ¬ Readable text) (fallback : Int64) :
    ∃ failure, number text fallback = .error failure ∧
      (status (.error (.threw failure)) = some 422 ↔ ¬ TooLong text) := by
  have hempty : text ≠ "" := fun heq => h (Or.inl heq)
  have hnot : ∀ n, stoll text ≠ .ok (n, []) := fun n hn => h (Or.inr ⟨n, stoll_whole.mp hn⟩)
  simp only [number, hempty, if_false]
  cases hleading : Decimal.leading (text.toList.dropWhile Decimal.isSpace) with
  | none =>
    have hread : stoll text = .error (.invalidArgument "stoll") := by
      rw [stoll, hleading]
    refine ⟨.invalidArgument "stoll", by rw [hread]; rfl, ?_⟩
    simp [status, TooLong, hleading]
  | some found =>
    obtain ⟨n, rest⟩ := found
    cases hfits : fits n with
    | false =>
      have hread : stoll text = .error (.logicError "stoll") := by
        simp [stoll, hleading, hfits]
      refine ⟨.logicError "stoll", by rw [hread]; rfl, ?_⟩
      simp [status, TooLong, hleading, hfits]
    | true =>
      have hread : stoll text = .ok (Int64.ofInt n, rest) := by
        simp [stoll, hleading, hfits]
      have hrest : rest ≠ [] := fun heq => hnot _ (heq ▸ hread)
      refine ⟨.invalidArgument "Invalid query integer", ?_, ?_⟩
      · rw [hread]
        exact if_pos hrest
      · simp [status, TooLong, hleading, hfits]

/-! ## Requests that are refused -/

variable {ops : Operations σ ρ} {reader : String → Parsed} {e : Evaluation} {s : σ}

/-- A request that is refused, with the condition under which it is a validation error. -/
def Refused (answer : Except Failure Value × σ) (s : σ) (recognised : Prop) : Prop :=
  answer.2 = s ∧ (status answer.1 = some 422 ↔ recognised)

/-- A step that fails before anything was done. -/
theorem guarded_refused {α : Type} {x : Except Exn α} {failure : Exn} {recognised : Prop}
    (h : x = .error failure) (hstatus : status (.error (.threw failure)) = some 422 ↔ recognised)
    (f : α → Except Failure Value × σ) : Refused (guarded x s f) s recognised := by
  subst h
  exact ⟨rfl, hstatus⟩

/-- A body that names no interface. -/
theorem captureBody_refused {body : String}
    (h : ¬ ∃ v name, reader body = .value v ∧ v.isObject = true ∧
      v.get "interface" = .string name) :
    ∃ failure, captureBody reader body = .error failure ∧
      (status (.error (.threw failure)) = some 422 ↔
        Recognised reader e (.putCapture body)) := by
  simp only [captureBody, parseJson, Recognised]
  cases hreader : reader body with
  | malformed errors => exact ⟨_, rfl, by simp [status]⟩
  | nested => exact ⟨_, rfl, by simp [status]⟩
  | value v =>
    cases v with
    | object members =>
      have hnone : ((Value.object members).get "interface").isString = false := by
        cases hget : (Value.object members).get "interface" with
        | string name => exact absurd ⟨_, name, hreader, rfl, hget⟩ h
        | _ => rfl
      refine ⟨.invalidArgument "interface must be a string", ?_, by simp [status, Value.isObject]⟩
      simp [bind, Except.bind, Value.index, hnone]
    | null => exact ⟨_, rfl, by simp [status]⟩
    | _ => exact ⟨_, rfl, by simp [status, Value.isObject]⟩

theorem captureBody_object {body : String} {v : Value} {name : String}
    (hreader : reader body = .value v) (hobject : v.isObject = true)
    (hget : v.get "interface" = .string name) : captureBody reader body = .ok name := by
  have hindex := Value.index_of_isObject hobject "interface"
  simp only [captureBody, parseJson, hreader, hindex, hget, bind, Except.bind]
  rfl

theorem refused_capture {body : String} (h : ¬ WellFormed reader e (.putCapture body)) :
    Refused (request ops reader e s (.putCapture body)) s
      (Recognised reader e (.putCapture body)) := by
  by_cases hnamed : ∃ v name, reader body = .value v ∧ v.isObject = true ∧
      v.get "interface" = .string name
  · obtain ⟨v, name, hreader, hobject, hget⟩ := hnamed
    have hname : Source.Sampling.validName name = false := by
      cases hvalid : Source.Sampling.validName name with
      | false => rfl
      | true => exact absurd ⟨v, name, hreader, hobject, hget, hvalid⟩ h
    simp [Refused, request, captureBody_object hreader hobject hget, guarded,
      Source.Requests.startCapture, hname, status, Recognised, hreader, hobject]
  · obtain ⟨failure, hbody, hstatus⟩ := captureBody_refused (e := e) hnamed
    exact guarded_refused hbody hstatus _

/-- A body that is no valid configuration. -/
theorem configBody_refused {body : String}
    (h : ¬ ∃ v c, reader body = .value v ∧ Documented v c ∧ validate c = []) :
    ∃ failure, configBody reader body = .error failure ∧
      (status (.error (.threw failure)) = some 422 ↔ reader body ≠ .nested) := by
  unfold configBody parseJson
  cases hreader : reader body with
  | malformed errors => exact ⟨_, rfl, by simp [status]⟩
  | nested => exact ⟨_, rfl, by simp [status]⟩
  | value v =>
    cases hconfig : configFromJson v with
    | ok c => exact absurd ⟨v, c, hreader, documented_of_ok hconfig⟩ h
    | error failure =>
      obtain ⟨what, rfl⟩ := invalid_configFromJson v failure hconfig
      exact ⟨_, hconfig, by simp [status]⟩

theorem refused_config {body : String} (h : ¬ WellFormed reader e (.putConfig body)) :
    Refused (request ops reader e s (.putConfig body)) s (Recognised reader e (.putConfig body)) ∧
      Refused (request ops reader e s (.validateConfig body)) s
        (Recognised reader e (.validateConfig body)) := by
  obtain ⟨failure, hbody, hstatus⟩ := configBody_refused h
  exact ⟨guarded_refused hbody hstatus _, guarded_refused hbody hstatus _⟩

/-! ## Queries that are refused -/

theorem intervalNumber_ok {text : String} {i : Int64} (h : Given text 60 i)
    (hregular : Regular i.toInt) : intervalNumber text = .ok i := by
  rw [intervalNumber, number_ok_iff.mpr h]
  refine if_neg fun hnone => ?_
  obtain ⟨hminute, hfive, hhour⟩ := hnone
  rcases hregular with heq | heq | heq
  · exact hminute (Int64.toInt_inj.mp heq)
  · exact hfive (Int64.toInt_inj.mp heq)
  · exact hhour (Int64.toInt_inj.mp heq)

theorem intervalNumber_refused {text : String} (h : ¬ ∃ i, Given text 60 i ∧ Regular i.toInt) :
    ∃ failure, intervalNumber text = .error failure ∧
      (status (.error (.threw failure)) = some 422 ↔ ¬ TooLong text) := by
  by_cases hreadable : Readable text
  · obtain ⟨n, hn⟩ := hreadable.given 60
    have hregular : n ≠ 60 ∧ n ≠ 300 ∧ n ≠ 3600 := by
      refine ⟨fun heq => h ⟨n, hn, ?_⟩, fun heq => h ⟨n, hn, ?_⟩, fun heq => h ⟨n, hn, ?_⟩⟩
      all_goals
        rw [heq]
        decide
    refine ⟨.invalidArgument "Invalid interval", ?_, ?_⟩
    · rw [intervalNumber, number_ok_iff.mpr hn]
      exact if_pos hregular
    · simpa [status] using hreadable.not_tooLong
  · obtain ⟨failure, hnumber, hstatus⟩ := number_refused hreadable 60
    refine ⟨failure, ?_, hstatus⟩
    rw [intervalNumber, hnumber]
    rfl

/-- Two parameters that are read one after the other. -/
theorem both_refused {first second : String} (h : ¬ (Readable first ∧ Readable second))
    {fallback other : Int64} {α : Type} (pair : Int64 → Int64 → α) :
    ∃ failure, (do
        let m ← number first fallback
        let n ← number second other
        return pair m n : Except Exn α) = .error failure ∧
      (status (.error (.threw failure)) = some 422 ↔
        ¬ TooLong first ∧ (Readable first → ¬ TooLong second)) := by
  by_cases hfirst : Readable first
  · have hsecond : ¬ Readable second := fun hsecond => h ⟨hfirst, hsecond⟩
    obtain ⟨m, hm⟩ := hfirst.given fallback
    obtain ⟨failure, hnumber, hstatus⟩ := number_refused hsecond other
    refine ⟨failure, ?_, hstatus.trans ?_⟩
    · rw [number_ok_iff.mpr hm, hnumber]
      rfl
    · simp [hfirst, hfirst.not_tooLong]
  · obtain ⟨failure, hnumber, hstatus⟩ := number_refused hfirst fallback
    refine ⟨failure, ?_, hstatus.trans ?_⟩
    · rw [hnumber]
      rfl
    · simp [hfirst]

theorem range_refused {from_ to_ : String} (h : ¬ (Readable from_ ∧ Readable to_)) :
    ∃ failure, range e from_ to_ = .error failure ∧
      (status (.error (.threw failure)) = some 422 ↔ RangeRecognised e from_ to_) := by
  have hdifference : ∀ first last, GivenFrom e from_ first → GivenTo e to_ last → first < last →
      last.toInt - first.toInt < 9223372036854775808 :=
    fun first last hfirst hlast => absurd ⟨given_readable hfirst, given_readable hlast⟩ h
  have hrecognised : RangeRecognised e from_ to_ ↔
      ¬ TooLong (if e.fromFirst then from_ else to_) ∧
        (Readable (if e.fromFirst then from_ else to_) →
          ¬ TooLong (if e.fromFirst then to_ else from_)) :=
    ⟨fun h => ⟨h.first, h.second⟩, fun h => ⟨h.1, h.2, hdifference⟩⟩
  rw [hrecognised]
  cases horder : e.fromFirst with
  | true =>
    obtain ⟨failure, hboth, hstatus⟩ := both_refused h Prod.mk
    refine ⟨failure, ?_, hstatus⟩
    rw [range, if_pos horder]
    exact hboth
  | false =>
    obtain ⟨failure, hboth, hstatus⟩ := both_refused (fun hboth => h hboth.symm)
      fun last first : Int64 => (first, last)
    refine ⟨failure, ?_, hstatus⟩
    rw [range, if_neg (by simp [horder])]
    exact hboth

theorem range_ok {from_ to_ : String} {first last : Int64} (hfirst : GivenFrom e from_ first)
    (hlast : GivenTo e to_ last) : range e from_ to_ = .ok (first, last) := by
  have hfrom : fromNumber e from_ = .ok first := number_ok_iff.mpr hfirst
  have hto : toNumber e to_ = .ok last := number_ok_iff.mpr hlast
  unfold range
  rw [hfrom, hto]
  split <;> rfl

theorem given_unique {text : String} {fallback m n : Int64} (hm : Given text fallback m)
    (hn : Given text fallback n) : m = n :=
  Except.ok.inj ((number_ok_iff.mpr hm).symm.trans (number_ok_iff.mpr hn))

/-- A range that is read and rejected. -/
theorem history_refused {D : Doubles ρ} {t : Samples ρ} {first last : Int64} {interval : Int}
    (hregular : Regular interval) (h : ¬ Ranges first last) :
    status (history D t first last interval) = some 422 ↔
      (first < last → last.toInt - first.toInt < 9223372036854775808) := by
  unfold history
  rcases checkHistory_cases first last interval with ⟨hover, hcheck⟩ | ⟨haccepted, hcheck⟩ |
    ⟨⟨hover, hrejected⟩, hcheck⟩
  · rw [hcheck]
    constructor
    · intro hstatus
      cases hstatus
    · intro hfits
      have hlt := hfits hover.2.1
      exact absurd hover.2.2 (by omega)
  · exact absurd haccepted.2 h
  · rw [hcheck]
    refine ⟨fun _ hlt => ?_, fun _ => rfl⟩
    by_contra hge
    exact hover ⟨hregular, hlt, by omega⟩

theorem refused_history {interval from_ to_ : String}
    (h : ¬ WellFormed reader e (.history interval from_ to_)) :
    Refused (request ops reader e s (.history interval from_ to_)) s
      (Recognised reader e (.history interval from_ to_)) := by
  by_cases hinterval : ∃ i, Given interval 60 i ∧ Regular i.toInt
  · obtain ⟨i, hi, hregular⟩ := hinterval
    have hnumber := intervalNumber_ok hi hregular
    have hrecognised : Recognised reader e (.history interval from_ to_) ↔
        RangeRecognised e from_ to_ := by
      have hsome : ∃ i, Given interval 60 i ∧ Regular i.toInt := ⟨i, hi, hregular⟩
      simp only [Recognised, (given_readable hi).not_tooLong, hsome, not_false_eq_true, true_and,
        true_implies]
    rw [request, hnumber, hrecognised]
    by_cases hreadable : Readable from_ ∧ Readable to_
    · obtain ⟨first, hfirst⟩ := hreadable.1.given (Int64.ofInt (nowSeconds e.fromClock - 3600))
      obtain ⟨last, hlast⟩ := hreadable.2.given (Int64.ofInt (nowSeconds e.toClock + 1))
      have hranges : ¬ Ranges first last := fun hranges =>
        h ⟨⟨i, hi, hregular⟩, first, last, hfirst, hlast, hranges⟩
      have hrange := range_ok hfirst hlast
      rw [guarded, hrange]
      refine ⟨rfl, (history_refused hregular hranges).trans ?_⟩
      constructor
      · intro hfits
        refine ⟨?_, fun _ => ?_, fun first' last' hfirst' hlast' => ?_⟩
        · split
          · exact hreadable.1.not_tooLong
          · exact hreadable.2.not_tooLong
        · split
          · exact hreadable.2.not_tooLong
          · exact hreadable.1.not_tooLong
        · rw [given_unique hfirst' hfirst, given_unique hlast' hlast]
          exact hfits
      · intro hrecognised
        exact hrecognised.difference first last hfirst hlast
    · obtain ⟨failure, hrange, hstatus⟩ := range_refused (e := e) hreadable
      exact guarded_refused hrange hstatus _
  · obtain ⟨failure, hnumber, hstatus⟩ := intervalNumber_refused hinterval
    refine guarded_refused hnumber (hstatus.trans ?_) _
    simp [Recognised, hinterval]

/-! ## Validation errors -/

theorem refused (ops : Operations σ ρ) (s : σ) {q : Request} (h : ¬ WellFormed reader e q) :
    Refused (request ops reader e s q) s (Recognised reader e q) := by
  cases q with
  | putCapture body => exact refused_capture h
  | putConfig body => exact (refused_config h).1
  | validateConfig body => exact (refused_config h).2
  | history interval from_ to_ => exact refused_history h

theorem recognised_of_wellFormed {q : Request} (h : WellFormed reader e q) :
    Recognised reader e q := by
  cases q with
  | putCapture body =>
    obtain ⟨v, name, hreader, hobject, -⟩ := h
    simp [Recognised, hreader, hobject]
  | putConfig body =>
    obtain ⟨v, c, hreader, -⟩ := h
    simp [Recognised, hreader]
  | validateConfig body =>
    obtain ⟨v, c, hreader, -⟩ := h
    simp [Recognised, hreader]
  | history interval from_ to_ =>
    obtain ⟨⟨i, hi, -⟩, first, last, hfirst, hlast, hranges⟩ := h
    refine ⟨(given_readable hi).not_tooLong, fun _ => ⟨?_, fun _ => ?_, ?_⟩⟩
    · split
      · exact (given_readable hfirst).not_tooLong
      · exact (given_readable hlast).not_tooLong
    · split
      · exact (given_readable hlast).not_tooLong
      · exact (given_readable hfirst).not_tooLong
    · intro first' last' hfirst' hlast' _
      rw [given_unique hfirst' hfirst, given_unique hlast' hlast]
      have hle := hranges.2
      omega

/-- A request is validated exactly where a fault of its content is one that the code has an
`invalid_argument` for. -/
theorem faults_validated (ops : Operations σ ρ) (reader : String → Parsed) (e : Evaluation)
    (s : σ) (q : Request) : Validated ops reader e s q ↔ Recognised reader e q := by
  by_cases hwell : WellFormed reader e q
  · exact ⟨fun _ => recognised_of_wellFormed hwell,
      fun _ => ⟨fun hnot => absurd hwell hnot, fun _ => hwell⟩⟩
  · obtain ⟨hstate, hstatus⟩ := refused ops s hwell
    constructor
    · intro h
      exact hstatus.mp (h.rejected hwell).1
    · intro hrecognised
      have hanswer := hstatus.mpr hrecognised
      refine ⟨fun _ => ⟨hanswer, hstate⟩, fun hconflict => ?_⟩
      rw [hanswer] at hconflict
      cases hconflict

/-- A reader that knows the text of an empty array. -/
def arrayReader (text : String) : Parsed :=
  if text = "[]" then .value (.array []) else .malformed "* Line 1, Column 1\n"

/-- An appliance whose operations all go through. -/
def idleOperations : Operations Unit Rat where
  startCapture _ _ := (.ok .null, ())
  apply _ _ := (.ok .null, ())
  samples _ := .empty
  doubles := .exact

/-- A body that is an array is answered like a failed operation. -/
theorem faults_not_validated :
    ¬ ∀ {σ ρ : Type} (ops : Operations σ ρ) reader e s q, Validated ops reader e s q := by
  intro h
  have hvalidated := h idleOperations arrayReader ⟨0, 0, true⟩ () (.putCapture "[]")
  obtain ⟨v, name, hreader, hobject, -⟩ := hvalidated.operational rfl
  cases hreader
  cases hobject

end Magicbox.Guarantees.ValidationErrors
