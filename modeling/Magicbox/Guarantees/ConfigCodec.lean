import Magicbox.Library.Results
import Magicbox.Source.ConfigJson

/-!
# The configuration codec

`Documented` is the shape that api.md gives for a configuration, as a relation
between a JSON value and a configuration. `config_from_json` succeeds exactly on
the values that stand for a valid configuration, and its only error is
`invalid_argument`.
-/

set_option autoImplicit false

namespace Magicbox.Guarantees.ConfigCodec
open Library.Results Source.Json Source.Config Source.ConfigJson

/-! ## The documented shape -/

/-- The number that a value holds, whatever its representation. -/
def number : Value → Option Rat
  | .int i => some i
  | .uint n => some n
  | .real r => some r
  | _ => none

def fieldNames : List String :=
  ["outer_interface", "inner_interface", "device_ipv4", "inner_gateway_ipv4", "inner_prefix",
    "outer_ipv4", "outer_prefix", "outer_gateway_ipv4", "outer_mac", "vlan_id"]

/-- Null, or the number of the VLAN. -/
def HoldsVlan (v : Value) : Option UInt16 → Prop
  | none => v = .null
  | some id => number v = some (id.toNat : Rat)

/-- An object with exactly the ten members, which hold the fields of the configuration. -/
structure Documented (v : Value) (c : NetworkConfig) : Prop where
  object : v.isObject = true
  members : ∀ name, v.isMember name = true ↔ name ∈ fieldNames
  outerInterface : v.get "outer_interface" = .string c.outerInterface
  innerInterface : v.get "inner_interface" = .string c.innerInterface
  deviceIpv4 : v.get "device_ipv4" = .string c.deviceIpv4
  innerGatewayIpv4 : v.get "inner_gateway_ipv4" = .string c.innerGatewayIpv4
  innerPrefix : number (v.get "inner_prefix") = some (c.innerPrefix.toNat : Rat)
  outerIpv4 : v.get "outer_ipv4" = .string c.outerIpv4
  outerPrefix : number (v.get "outer_prefix") = some (c.outerPrefix.toNat : Rat)
  outerGatewayIpv4 : v.get "outer_gateway_ipv4" = .string c.outerGatewayIpv4
  outerMac : v.get "outer_mac" = .string c.outerMac
  vlanId : HoldsVlan (v.get "vlan_id") c.vlanId

/-- Equal, or the same number. -/
def SameScalar (v w : Value) : Prop := v = w ∨ ∃ q, number v = some q ∧ number w = some q

/-- Objects that are equal up to the representation of the numbers in them. -/
structure SameObject (v w : Value) : Prop where
  left : v.isObject = true
  right : w.isObject = true
  members : ∀ name, v.isMember name = w.isMember name
  values : ∀ name, SameScalar (v.get name) (w.get name)

/-! ## Numbers -/

theorem intCast_eq_natCast {i : Int} {n : Nat} : (i : Rat) = (n : Rat) ↔ i = n := by
  rw [← Rat.intCast_natCast, Rat.intCast_inj]

theorem isUInt_iff (v : Value) :
    v.isUInt = true ↔ ∃ n ≤ Value.maxUInt, number v = some (n : Rat) := by
  cases v with
  | int i =>
    simp only [Value.isUInt, number, Bool.and_eq_true, decide_eq_true_eq, Option.some.injEq,
      intCast_eq_natCast]
    constructor
    · rintro ⟨hlow, hhigh⟩
      exact ⟨i.toNat, by omega, by omega⟩
    · rintro ⟨n, hn, rfl⟩
      omega
  | uint m =>
    simp only [Value.isUInt, number, decide_eq_true_eq, Option.some.injEq, Rat.natCast_inj]
    constructor
    · intro h
      exact ⟨m, h, rfl⟩
    · rintro ⟨n, hn, rfl⟩
      exact hn
  | real r =>
    simp only [Value.isUInt, number, Bool.and_eq_true, decide_eq_true_eq, beq_iff_eq,
      Option.some.injEq]
    constructor
    · rintro ⟨⟨hlow, hhigh⟩, hden⟩
      have hr : (r.num : Rat) = r := by rw [← Rat.mkRat_one, ← hden, Rat.mkRat_self]
      rw [← hr, Rat.intCast_nonneg] at hlow
      rw [← hr, ← Rat.intCast_natCast, Rat.intCast_le_intCast] at hhigh
      refine ⟨r.num.toNat, by omega, ?_⟩
      rw [← hr, intCast_eq_natCast, Rat.num_intCast]
      omega
    · rintro ⟨n, hn, rfl⟩
      exact ⟨⟨Rat.natCast_nonneg, Rat.natCast_le_natCast.mpr hn⟩, Rat.den_natCast n⟩
  | _ => simp [Value.isUInt, number]

theorem number_inj {v : Value} {m n : Nat} (hm : number v = some (m : Rat))
    (hn : number v = some (n : Rat)) : m = n :=
  Rat.natCast_inj.mp (Option.some.inj (hm.symm.trans hn))

/-- On a number in range the conversion gives that number. -/
theorem asUInt_of_number {v : Value} {n : Nat} (hn : n ≤ Value.maxUInt)
    (h : number v = some (n : Rat)) : v.asUInt = .ok n := by
  cases v with
  | int i =>
    simp only [number, Option.some.injEq, intCast_eq_natCast] at h
    rw [h, Value.asUInt, if_pos ⟨by omega, by omega⟩, Int.toNat_natCast]
  | uint m =>
    simp only [number, Option.some.injEq, Rat.natCast_inj] at h
    rw [h, Value.asUInt, if_pos hn]
  | real r =>
    simp only [number, Option.some.injEq] at h
    rw [h, Value.asUInt, if_pos ⟨Rat.natCast_nonneg, Rat.natCast_le_natCast.mpr hn⟩,
      ← Rat.intCast_natCast, Rat.floor_intCast, Int.toNat_natCast]
  | _ => simp [number] at h

theorem asUInt_iff {v : Value} (h : v.isUInt = true) (n : Nat) :
    v.asUInt = .ok n ↔ number v = some (n : Rat) := by
  obtain ⟨m, hm, hnumber⟩ := (isUInt_iff v).mp h
  rw [asUInt_of_number hm hnumber]
  constructor
  · intro heq
    cases heq
    exact hnumber
  · intro hn
    rw [number_inj hnumber hn]

/-! ## The checks -/

section Checks
variable {v : Value}

theorem lookup_isSome (name : String) (members : List (String × Value)) :
    (Value.lookup name members).isSome = true ↔ name ∈ members.map Prod.fst := by
  induction members with
  | nil => simp [Value.lookup]
  | cons head rest ih =>
    obtain ⟨key, w⟩ := head
    by_cases h : key = name
    · simp [Value.lookup, h]
    · simp [Value.lookup, h, Ne.symm h, ih]

theorem isMember_iff (v : Value) (name : String) :
    v.isMember name = true ↔ name ∈ v.getMemberNames := by
  cases v with
  | object members => exact lookup_isSome name members
  | _ => simp [Value.isMember, Value.getMemberNames]

theorem isMember_configJson (c : NetworkConfig) (name : String) :
    (configJson c).isMember name = true ↔ name ∈ fieldNames := by
  have hnames : (configJson c).getMemberNames.Perm fieldNames := by
    rw [configJson_members]
    decide
  rw [isMember_iff, hnames.mem_iff]

/-- What is there and not null is a member. -/
theorem isMember_of_get {name : String} (h : v.get name ≠ .null) : v.isMember name = true := by
  cases v with
  | object members =>
    simp only [Value.get, Value.isMember] at h ⊢
    cases hl : Value.lookup name members with
    | none =>
      rw [hl] at h
      exact absurd rfl h
    | some w => rfl
  | _ => exact absurd rfl h

theorem stringMember_iff {name s : String} :
    stringMember v name = .ok s ↔ v.get name = .string s := by
  unfold stringMember
  split
  · rename_i t ht
    rw [ht]
    simp
  · rename_i hother
    exact ⟨fun h => (by cases h), fun h => absurd h (hother s)⟩

theorem shapeCheck_iff :
    shapeCheck v = .ok () ↔
      v.isObject = true ∧ ∀ name, v.isMember name = true → name ∈ fieldNames := by
  have hknown : unknownField v = none ↔ ∀ name, v.isMember name = true → name ∈ fieldNames := by
    simp only [unknownField, List.find?_eq_none, Bool.not_eq_true', Bool.not_eq_false,
      isMember_configJson, isMember_iff v]
  unfold shapeCheck
  cases v.isObject with
  | false => simp
  | true =>
    rw [← hknown]
    cases unknownField v with
    | none => simp
    | some name => simp

theorem prefixCheck_iff :
    prefixCheck v = .ok () ↔
      (v.get "inner_prefix").isUInt = true ∧ (v.get "outer_prefix").isUInt = true := by
  unfold prefixCheck
  cases (v.get "inner_prefix").isUInt <;> cases (v.get "outer_prefix").isUInt <;> simp

/-- A VLAN id is in the range of `unsigned`. -/
theorem vlan_le_maxUInt (id : UInt16) : id.toNat ≤ Value.maxUInt :=
  Nat.le_of_lt (Nat.lt_trans id.toNat_lt (by decide))

theorem isNull_iff (v : Value) : v.isNull = true ↔ v = .null := by
  cases v <;> simp [Value.isNull]

theorem vlanMember_iff {vlanId : Option UInt16} :
    vlanMember v = .ok vlanId ↔
      v.isMember "vlan_id" = true ∧ HoldsVlan (v.get "vlan_id") vlanId ∧
        ∀ id, vlanId = some id → id.toNat ≤ 4094 := by
  unfold vlanMember
  generalize v.get "vlan_id" = x
  cases v.isMember "vlan_id" with
  | false => simp
  | true =>
    simp only [Bool.not_true, Bool.false_eq_true, if_false, true_and]
    by_cases hnull : x = .null
    · rw [if_pos ((isNull_iff x).mpr hnull), hnull]
      cases vlanId with
      | none => simp [HoldsVlan]
      | some id => simp [HoldsVlan, number]
    · rw [if_neg fun h => hnull ((isNull_iff x).mp h)]
      cases huint : x.isUInt with
      | false =>
        simp only [Bool.not_false, if_true]
        refine ⟨fun h => (by cases h), fun ⟨hholds, _⟩ => ?_⟩
        cases vlanId with
        | none => exact absurd hholds hnull
        | some id =>
          have hrange := (isUInt_iff x).mpr ⟨id.toNat, vlan_le_maxUInt id, hholds⟩
          rw [huint] at hrange
          cases hrange
      | true =>
        obtain ⟨n, hn, hnumber⟩ := (isUInt_iff x).mp huint
        have hconverted := asUInt_of_number hn hnumber
        simp only [Bool.not_true, Bool.false_eq_true, if_false, hconverted, bind, Except.bind]
        by_cases hlarge : n > 4094
        · rw [if_pos hlarge]
          refine ⟨fun h => (by cases h), fun ⟨hholds, hsmall⟩ => ?_⟩
          cases vlanId with
          | none => exact absurd hholds hnull
          | some id =>
            have := hsmall id rfl
            have := number_inj hnumber hholds
            omega
        · rw [if_neg hlarge]
          have hid : n.toUInt16.toNat = n := Nat.mod_eq_of_lt (by omega)
          constructor
          · intro h
            cases h
            refine ⟨?_, fun id h => ?_⟩
            · rw [HoldsVlan, hid]
              exact hnumber
            · cases h
              omega
          · rintro ⟨hholds, -⟩
            cases vlanId with
            | none => exact absurd hholds hnull
            | some id =>
              have heq := number_inj hnumber hholds
              have hsame : n.toUInt16 = id := by
                apply UInt16.toNat_inj.mp
                rw [hid, heq]
              rw [hsame]

end Checks

/-! ## Acceptance -/

theorem toNat_toUInt32 {n : Nat} (h : n ≤ Value.maxUInt) : n.toUInt32.toNat = n :=
  Nat.mod_eq_of_lt (Nat.lt_of_le_of_lt h (by decide))

theorem prefix_isUInt {v : Value} {p : UInt32} (h : number v = some (p.toNat : Rat)) :
    v.isUInt = true ∧ v.asUInt = .ok p.toNat := by
  have hp : p.toNat ≤ Value.maxUInt := Nat.le_of_lt_succ p.toNat_lt
  exact ⟨(isUInt_iff v).mpr ⟨_, hp, h⟩, asUInt_of_number hp h⟩

theorem get_prefix {v : Value} {n : Nat} (huint : v.isUInt = true) (h : v.asUInt = .ok n) :
    number v = some (n.toUInt32.toNat : Rat) := by
  obtain ⟨m, hm, hnumber⟩ := (isUInt_iff v).mp huint
  have hsame := number_inj hnumber ((asUInt_iff huint n).mp h)
  rw [toNat_toUInt32 (by omega), ← hsame]
  exact hnumber

theorem ne_null_of_string {v : Value} {s : String} (h : v = .string s) : v ≠ .null := by
  rw [h]
  exact nofun

theorem ne_null_of_isUInt {v : Value} (h : v.isUInt = true) : v ≠ .null := by
  rintro rfl
  cases h

/-- What is read is documented and valid. -/
theorem documented_of_ok {v : Value} {c : NetworkConfig} (h : configFromJson v = .ok c) :
    Documented v c ∧ validate c = [] := by
  unfold configFromJson at h
  obtain ⟨_, hshape, h⟩ := bind_ok_iff.mp h
  obtain ⟨outerInterface, h₁, h⟩ := bind_ok_iff.mp h
  obtain ⟨innerInterface, h₂, h⟩ := bind_ok_iff.mp h
  obtain ⟨deviceIpv4, h₃, h⟩ := bind_ok_iff.mp h
  obtain ⟨innerGatewayIpv4, h₄, h⟩ := bind_ok_iff.mp h
  obtain ⟨outerIpv4, h₅, h⟩ := bind_ok_iff.mp h
  obtain ⟨outerGatewayIpv4, h₆, h⟩ := bind_ok_iff.mp h
  obtain ⟨outerMac, h₇, h⟩ := bind_ok_iff.mp h
  obtain ⟨_, hprefix, h⟩ := bind_ok_iff.mp h
  obtain ⟨innerPrefix, hinner, h⟩ := bind_ok_iff.mp h
  obtain ⟨outerPrefix, houter, h⟩ := bind_ok_iff.mp h
  obtain ⟨vlanId, hvlan, h⟩ := bind_ok_iff.mp h
  obtain ⟨rfl, hvalid⟩ := validated_ok h
  obtain ⟨hobject, hknown⟩ := shapeCheck_iff.mp hshape
  obtain ⟨hinnerUInt, houterUInt⟩ := prefixCheck_iff.mp hprefix
  obtain ⟨hmember, hholds, -⟩ := vlanMember_iff.mp hvlan
  rw [stringMember_iff] at h₁ h₂ h₃ h₄ h₅ h₆ h₇
  refine ⟨⟨hobject, fun name => ⟨hknown name, fun hname => ?_⟩, h₁, h₂, h₃, h₄,
    get_prefix hinnerUInt hinner, h₅, get_prefix houterUInt houter, h₆, h₇, hholds⟩, hvalid⟩
  simp only [fieldNames, List.mem_cons, List.not_mem_nil, or_false] at hname
  rcases hname with rfl | rfl | rfl | rfl | rfl | rfl | rfl | rfl | rfl | rfl
  · exact isMember_of_get (ne_null_of_string h₁)
  · exact isMember_of_get (ne_null_of_string h₂)
  · exact isMember_of_get (ne_null_of_string h₃)
  · exact isMember_of_get (ne_null_of_string h₄)
  · exact isMember_of_get (ne_null_of_isUInt hinnerUInt)
  · exact isMember_of_get (ne_null_of_string h₅)
  · exact isMember_of_get (ne_null_of_isUInt houterUInt)
  · exact isMember_of_get (ne_null_of_string h₆)
  · exact isMember_of_get (ne_null_of_string h₇)
  · exact hmember

theorem ok_of_documented {v : Value} {c : NetworkConfig} (h : Documented v c)
    (hvalid : validate c = []) : configFromJson v = .ok c := by
  obtain ⟨hinnerUInt, hinner⟩ := prefix_isUInt h.innerPrefix
  obtain ⟨houterUInt, houter⟩ := prefix_isUInt h.outerPrefix
  have hshape : shapeCheck v = .ok () :=
    shapeCheck_iff.mpr ⟨h.object, fun name hname => (h.members name).mp hname⟩
  have hprefix : prefixCheck v = .ok () := prefixCheck_iff.mpr ⟨hinnerUInt, houterUInt⟩
  have hvlan : vlanMember v = .ok c.vlanId :=
    vlanMember_iff.mpr ⟨(h.members _).mpr (by decide), h.vlanId,
      fun id hid => validVlan hvalid hid⟩
  have hchecked : validated c = .ok c := by rw [validated, hvalid]
  unfold configFromJson
  simp only [hshape, hprefix, hvlan, hinner, houter, stringMember_iff.mpr h.outerInterface,
    stringMember_iff.mpr h.innerInterface, stringMember_iff.mpr h.deviceIpv4,
    stringMember_iff.mpr h.innerGatewayIpv4, stringMember_iff.mpr h.outerIpv4,
    stringMember_iff.mpr h.outerGatewayIpv4, stringMember_iff.mpr h.outerMac, bind, Except.bind]
  simpa using hchecked

/-! ## Errors -/

/-- The only exception is `invalid_argument`. -/
def Invalid {α : Type} (x : Except Exn α) : Prop :=
  ∀ e, x = .error e → ∃ what, e = .invalidArgument what

theorem invalid_bind {α β : Type} {x : Except Exn α} {f : α → Except Exn β} (hx : Invalid x)
    (hf : ∀ a, x = .ok a → Invalid (f a)) : Invalid (x >>= f) := by
  intro e h
  rcases bind_error_iff.mp h with h | ⟨a, ha, h⟩
  · exact hx e h
  · exact hf a ha e h

theorem invalid_stringMember (v : Value) (name : String) : Invalid (stringMember v name) := by
  intro e h
  unfold stringMember at h
  split at h <;> cases h
  exact ⟨_, rfl⟩

theorem invalid_shapeCheck (v : Value) : Invalid (shapeCheck v) := by
  intro e h
  unfold shapeCheck at h
  split at h
  · cases h
    exact ⟨_, rfl⟩
  · split at h <;> cases h
    exact ⟨_, rfl⟩

theorem invalid_prefixCheck (v : Value) : Invalid (prefixCheck v) := by
  intro e h
  unfold prefixCheck at h
  split at h <;> cases h
  exact ⟨_, rfl⟩

/-- A number that was checked to be unsigned converts. -/
theorem invalid_asUInt {v : Value} (huint : v.isUInt = true) : Invalid v.asUInt := by
  obtain ⟨n, hn, hnumber⟩ := (isUInt_iff v).mp huint
  intro e h
  rw [asUInt_of_number hn hnumber] at h
  cases h

theorem invalid_vlanMember (v : Value) : Invalid (vlanMember v) := by
  intro e h
  unfold vlanMember at h
  split at h
  · cases h
    exact ⟨_, rfl⟩
  · split at h
    · cases h
    · cases huint : (v.get "vlan_id").isUInt with
      | false =>
        rw [huint] at h
        cases h
        exact ⟨_, rfl⟩
      | true =>
        rw [huint] at h
        rcases bind_error_iff.mp h with h | ⟨n, -, h⟩
        · exact invalid_asUInt huint e h
        · split at h <;> cases h
          exact ⟨_, rfl⟩

theorem invalid_validated (c : NetworkConfig) : Invalid (validated c) := by
  intro e h
  unfold validated at h
  split at h <;> cases h
  exact ⟨_, rfl⟩

theorem invalid_configFromJson (v : Value) : Invalid (configFromJson v) := by
  unfold configFromJson
  refine invalid_bind (invalid_shapeCheck v) fun _ _ => ?_
  refine invalid_bind (invalid_stringMember v _) fun _ _ => ?_
  refine invalid_bind (invalid_stringMember v _) fun _ _ => ?_
  refine invalid_bind (invalid_stringMember v _) fun _ _ => ?_
  refine invalid_bind (invalid_stringMember v _) fun _ _ => ?_
  refine invalid_bind (invalid_stringMember v _) fun _ _ => ?_
  refine invalid_bind (invalid_stringMember v _) fun _ _ => ?_
  refine invalid_bind (invalid_stringMember v _) fun _ _ => ?_
  refine invalid_bind (invalid_prefixCheck v) fun _ hprefix => ?_
  obtain ⟨hinner, houter⟩ := prefixCheck_iff.mp hprefix
  refine invalid_bind (invalid_asUInt hinner) fun _ _ => ?_
  refine invalid_bind (invalid_asUInt houter) fun _ _ => ?_
  exact invalid_bind (invalid_vlanMember v) fun _ _ => invalid_validated _

/-! ## The codec -/

theorem get_of_not_member {v : Value} {name : String} (h : v.isMember name = false) :
    v.get name = .null := by
  by_contra hne
  rw [isMember_of_get hne] at h
  cases h

/-- Encoding the configuration gives the documented value back. -/
theorem configJson_same {v : Value} {c : NetworkConfig} (h : Documented v c) :
    SameObject (configJson c) v := by
  have hmembers : ∀ name, (configJson c).isMember name = v.isMember name := fun name => by
    rw [Bool.eq_iff_iff, isMember_configJson, h.members]
  refine ⟨configJson_isObject c, h.object, hmembers, fun name => ?_⟩
  by_cases hname : name ∈ fieldNames
  · simp only [fieldNames, List.mem_cons, List.not_mem_nil, or_false] at hname
    rcases hname with rfl | rfl | rfl | rfl | rfl | rfl | rfl | rfl | rfl | rfl
    · exact .inl h.outerInterface.symm
    · exact .inl h.innerInterface.symm
    · exact .inl h.deviceIpv4.symm
    · exact .inl h.innerGatewayIpv4.symm
    · exact .inr ⟨_, rfl, h.innerPrefix⟩
    · exact .inl h.outerIpv4.symm
    · exact .inr ⟨_, rfl, h.outerPrefix⟩
    · exact .inl h.outerGatewayIpv4.symm
    · exact .inl h.outerMac.symm
    · have hholds := h.vlanId
      have hget : (configJson c).get "vlan_id" = vlanJson c.vlanId := rfl
      rw [hget]
      cases hid : c.vlanId with
      | none =>
        rw [hid] at hholds
        exact .inl (Eq.symm hholds)
      | some id =>
        rw [hid] at hholds
        exact .inr ⟨_, rfl, hholds⟩
  · have habsent : v.isMember name = false := by
      rw [Bool.eq_false_iff, ne_eq, h.members]
      exact hname
    rw [get_of_not_member habsent, get_of_not_member ((hmembers name).trans habsent)]
    exact .inl rfl

/-- The codec reads back what it writes, accepts exactly the documented values of valid
configurations, and rejects all others with `invalid_argument`. -/
theorem config_codec_exact :
    (∀ c, validate c = [] → configFromJson (configJson c) = .ok c) ∧
      (∀ v c, configFromJson v = .ok c ↔ Documented v c ∧ validate c = []) ∧
      (∀ v c, configFromJson v = .ok c → SameObject (configJson c) v) ∧
      ∀ v e, configFromJson v = .error e →
        (¬ ∃ c, Documented v c ∧ validate c = []) ∧ ∃ what, e = .invalidArgument what := by
  refine ⟨fun c hvalid => configFromJson_configJson hvalid, fun v c => ?_, fun v c h => ?_,
    fun v e h => ⟨?_, invalid_configFromJson v e h⟩⟩
  · exact ⟨documented_of_ok, fun ⟨h, hvalid⟩ => ok_of_documented h hvalid⟩
  · exact configJson_same (documented_of_ok h).1
  · rintro ⟨c, hdocumented, hvalid⟩
    rw [ok_of_documented hdocumented hvalid] at h
    cases h

end Magicbox.Guarantees.ConfigCodec
