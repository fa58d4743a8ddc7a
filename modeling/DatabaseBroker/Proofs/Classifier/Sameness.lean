import DatabaseBroker.Proofs.Classifier.Lifting
import DatabaseBroker.Proofs.Classifier.RoundTrip
import DatabaseBroker.Proofs.Json.Zeros
import DatabaseBroker.Proofs.Record.RoundTrip

/-!
# Equal classifiers and their keys

Classifiers are compared part by part and extension by extension, with numbers compared as numbers, and they are hashed and indexed by
their keys. The two notions differ in one thing: a key tells the sign of a float zero. So equal classifiers that hold no negative
zero have one key, and a classifier that holds a float zero at all is equal to one with another key (`key_of_same`).
-/

namespace DatabaseBroker

namespace Classifier

/-- The classifier, with the given sign for each float zero in its extensions. -/
def signZeros (negative : Bool) (c : Classifier) : Classifier :=
  { c with extensions := c.extensions.mapValues (Json.signZeros negative) }

section SignZeros

variable (negative : Bool)

/-- Classifiers are equal when they are one with one sign for the zeros. -/
theorem same_iff_signZeros (a b : Classifier) : a.same b = true ↔ a.signZeros negative = b.signZeros negative := by
  rw [same_iff, KeyMap.same_iff_signZeros negative]
  simp only [signZeros, mk.injEq]

/-- The map of a classifier has the signs that its extensions have. -/
theorem toMap_signZeros (c : Classifier) : (c.signZeros negative).toMap = c.toMap.mapValues (Json.signZeros negative) := by
  refine KeyMap.ext_get? fun k => ?_
  rw [KeyMap.get?_mapValues]
  by_cases hk : ∃ key : Key, key.text = k
  · obtain ⟨key, rfl⟩ := hk
    have hpart : (c.signZeros negative).part key = c.part key := by
      cases key <;> rfl
    rw [get?_toMap_key, get?_toMap_key, hpart, signZeros, KeyMap.get?_mapValues]
    cases c.part key <;> rfl
  · have hother : ∀ key : Key, key.text ≠ k := fun key hkey => hk ⟨key, hkey⟩
    rw [get?_toMap_of_ne _ hother, get?_toMap_of_ne _ hother, signZeros, KeyMap.get?_mapValues]

/-- So has the value that it is written as. -/
theorem toJson_signZeros (c : Classifier) : (c.signZeros negative).toJson = c.toJson.signZeros negative := by
  rw [toJson, toMap_signZeros, toJson, Json.signZeros, Json.mapNumbers_ofMap]
  rfl

/-- Signs are nothing that could be lifted. -/
theorem Lifted.signZeros {c : Classifier} (h : c.Lifted) : (c.signZeros negative).Lifted where
  noText := by
    intro key s hs
    rw [Classifier.signZeros, KeyMap.get?_mapValues] at hs
    obtain ⟨j, hj, hsigned⟩ := Option.map_eq_some_iff.mp hs
    cases j with
    | string s' => exact h.noText key s' hj
    | null | bool | number | array | object => cases hsigned
  besidePart := by
    intro key hpart
    have hpart : (c.part key).isSome = true := by
      cases key <;> exact hpart
    rw [Classifier.signZeros, KeyMap.get?_mapValues, h.besidePart key hpart, Option.map_none]

/-- A classifier is equal to itself with other signs. -/
theorem same_signZeros (c : Classifier) : c.same (c.signZeros negative) = true := by
  have hlast : Json.signZeros negative ∘ Json.signZeros negative = Json.signZeros negative :=
    funext (Json.signZeros_signZeros negative negative)
  rw [same_iff_signZeros negative]
  simp only [signZeros, KeyMap.mapValues_mapValues, hlast]

end SignZeros

/-! ## Keys of lifted classifiers -/

/-- A lifted classifier is told by the value that it is written as. -/
theorem Lifted.toJson_inj {a b : Classifier} (ha : a.Lifted) (hb : b.Lifted) (h : a.toJson = b.toJson) : a = b := by
  have hmap : a.toMap = b.toMap := KeyMap.ext (Json.object.inj h)
  rw [← ofMap_toMap_iff.mpr ha, hmap, ofMap_toMap_iff.mpr hb]

/-- So it is by its key. -/
theorem Lifted.canonicalKey_eq_iff {a b : Classifier} (ha : a.Lifted) (hb : b.Lifted) :
    a.canonicalKey = b.canonicalKey ↔ a = b := by
  constructor
  · intro h
    exact ha.toJson_inj hb (congrArg Json.object (alike_of_canonicalKey_eq h).eq)
  · intro h
    rw [h]

/-- A sign for the zeros changes nothing exactly when they all have it. -/
theorem Lifted.signZeros_eq_self_iff {c : Classifier} (h : c.Lifted) (negative : Bool) :
    c.signZeros negative = c ↔ ∀ x ∈ c.toJson.floats, x.place = 0 → x.negative = negative := by
  rw [← Json.signZeros_eq_self_iff, ← toJson_signZeros]
  exact ⟨congrArg toJson, (h.signZeros negative).toJson_inj h⟩

/-- The two signs make one classifier exactly when there is no float zero in it. -/
theorem Lifted.signZeros_eq_iff {c : Classifier} (h : c.Lifted) :
    c.signZeros true = c.signZeros false ↔ ∀ x ∈ c.toJson.floats, x.place ≠ 0 := by
  rw [← Json.signZeros_eq_iff, ← toJson_signZeros, ← toJson_signZeros]
  exact ⟨congrArg toJson, (h.signZeros true).toJson_inj (h.signZeros false)⟩

/-! ## Classifiers that are decoded -/

/-- The classifier was decoded from a document. -/
def Decoded (c : Classifier) : Prop := ∃ d, decoder d = .ok c

theorem Decoded.lifted {c : Classifier} (h : c.Decoded) : c.Lifted := by
  obtain ⟨d, hd⟩ := h
  exact lifted_of_decoder hd

/-- Whatever the signs of its zeros, there is a document that it is decoded from. -/
theorem Decoded.signZeros {c : Classifier} (h : c.Decoded) (negative : Bool) : (c.signZeros negative).Decoded := by
  obtain ⟨d, hd⟩ := h
  obtain ⟨m, hm, rfl⟩ := decoder_eq_ok_iff.mp hd
  have hdenoted : (Json.ofMap m).Denoted := Document.denoted_of_toJson? hm
  have hsigned : ((Json.ofMap m).signZeros negative).Denoted := hdenoted.mapNumbers (JsonNumber.signZero negative)
  refine ⟨.ofJson ((Json.ofMap m).signZeros negative),
    decoder_eq_ok_iff.mpr ⟨m.mapValues (Json.signZeros negative), ?_, ?_⟩⟩
  · rw [show (Document.ofJson _).toJson? = _ from hsigned, Json.signZeros, Json.mapNumbers_ofMap]
    rfl
  · rw [← ofMap_toMap_iff.mpr ((lifted_ofMap m).signZeros negative), toMap_signZeros, toMap_ofMap]

/-- Equality and keys of the classifiers that are decoded.
1. Two are equal exactly when they have one key with one sign for their zeros.
2. Two have one key exactly when they are one, signs of zeros included; then they are equal, and have one key among the databases of
   every type.
3. Two without a negative zero have one key exactly when they are equal.
4. A classifier has one key with every classifier that is equal to it exactly when there is no float zero in it. -/
theorem key_of_same {a b : Classifier} (ha : a.Decoded) (hb : b.Decoded) :
    (a.same b = true ↔ (a.signZeros false).canonicalKey = (b.signZeros false).canonicalKey) ∧
    ((a.canonicalKey = b.canonicalKey ↔ a = b) ∧ (a.canonicalKey = b.canonicalKey → a.same b = true) ∧
      (a.canonicalKey = b.canonicalKey → ∀ dbType, classifierKey dbType a = classifierKey dbType b)) ∧
    ((∀ x ∈ a.toJson.floats ++ b.toJson.floats, x.place = 0 → x.negative = false) →
      (a.same b = true ↔ a.canonicalKey = b.canonicalKey)) ∧
    ((∀ c : Classifier, c.Decoded → a.same c = true → a.canonicalKey = c.canonicalKey) ↔
      ∀ x ∈ a.toJson.floats, x.place ≠ 0) := by
  have hone := ha.lifted.canonicalKey_eq_iff hb.lifted
  refine ⟨?_, ⟨hone, fun h => ?_, fun h dbType => ?_⟩, fun hunsigned => ?_, fun hkeys => ?_, fun hzero c hc hsame => ?_⟩
  · rw [same_iff_signZeros false, (ha.lifted.signZeros false).canonicalKey_eq_iff (hb.lifted.signZeros false)]
  · rw [hone.mp h]
    exact same_refl b
  · rw [classifierKey, classifierKey, h]
  · obtain ⟨hfloats, hfloats'⟩ := List.forall_mem_append.mp hunsigned
    rw [same_iff_signZeros false, (ha.lifted.signZeros_eq_self_iff false).mpr hfloats,
      (hb.lifted.signZeros_eq_self_iff false).mpr hfloats', hone]
  · -- the classifier is equal to itself with positive zeros and to itself with negative ones
    have hsigned : ∀ negative, a = a.signZeros negative := by
      intro negative
      have hkey := hkeys _ (ha.signZeros negative) (a.same_signZeros negative)
      exact (ha.lifted.canonicalKey_eq_iff (ha.lifted.signZeros negative)).mp hkey
    exact ha.lifted.signZeros_eq_iff.mp ((hsigned true).symm.trans (hsigned false))
  · -- no sign changes the classifier, so none changes the other, and the two are equal with one sign
    have hsigned : ∀ negative, a.signZeros negative = c.signZeros negative :=
      fun negative => (same_iff_signZeros negative a c).mp hsame
    have hzero' : ∀ x ∈ c.toJson.floats, x.place ≠ 0 := by
      rw [← hc.lifted.signZeros_eq_iff, ← hsigned true, ← hsigned false]
      exact ha.lifted.signZeros_eq_iff.mpr hzero
    have hself := (ha.lifted.signZeros_eq_self_iff false).mpr fun x hx hplace => absurd hplace (hzero x hx)
    have hself' := (hc.lifted.signZeros_eq_self_iff false).mpr fun x hx hplace => absurd hplace (hzero' x hx)
    rw [← hself, hsigned false, hself']

/-! ## Two zeros -/

/-- The classifier of a microservice with a float zero for its shard. -/
def sampleZero (negative : Bool) : Classifier := (service "shop" "cart").withExtension "shard" (.number (.float (.zero negative)))

/-- A text of the classifier with a zero. -/
def sampleZeroText (zero : String) : String :=
  "\x7b\"namespace\":\"shop\",\"microserviceName\":\"cart\",\"scope\":\"service\",\"shard\":" ++ zero ++ "\x7d"

/-- A text is decoded as a lifted classifier if it is decoded as one with the same key. -/
theorem Lifted.ofText_eq_ok {c : Classifier} (hc : c.Lifted) {s : String}
    (h : (Decoder.ofText decoder s).toOption.map canonicalKey = some c.canonicalKey) : Decoder.ofText decoder s = .ok c := by
  cases hread : Decoder.ofText decoder s with
  | error e =>
    rw [hread] at h
    cases h
  | ok c' =>
    have hdecoded : c'.Decoded := ⟨_, (Survives.ofText_eq_ok_iff.mp hread).1⟩
    rw [hread] at h
    rw [(hdecoded.lifted.canonicalKey_eq_iff hc).mp (Option.some.inj h)]

theorem lifted_sampleZero (negative : Bool) : (sampleZero negative).Lifted where
  noText := by
    intro key s h
    cases key <;> cases negative <;> cases h
  besidePart := by
    intro key _
    cases key <;> cases negative <;> rfl

/-- The text with either zero is decoded as the classifier with that zero. -/
theorem ofText_sampleZero :
    Decoder.ofText decoder (sampleZeroText "0.0") = .ok (sampleZero false) ∧
      Decoder.ofText decoder (sampleZeroText "-0.0") = .ok (sampleZero true) :=
  ⟨(lifted_sampleZero false).ofText_eq_ok (by decide +kernel), (lifted_sampleZero true).ofText_eq_ok (by decide +kernel)⟩

theorem decoded_sampleZero (negative : Bool) : (sampleZero negative).Decoded := by
  cases negative
  · exact ⟨_, (Survives.ofText_eq_ok_iff.mp ofText_sampleZero.1).1⟩
  · exact ⟨_, (Survives.ofText_eq_ok_iff.mp ofText_sampleZero.2).1⟩

/-- The classifier with a negative zero is equal to the one with a positive zero, and with both zeros made positive the two have one key. -/
theorem key_of_same_of_sampleZero :
    (sampleZero false).Decoded ∧ (sampleZero true).Decoded ∧ (sampleZero false).same (sampleZero true) = true ∧
      ((sampleZero false).signZeros false).canonicalKey = ((sampleZero true).signZeros false).canonicalKey := by
  have hsame : (sampleZero false).same (sampleZero true) = true := by decide +kernel
  obtain ⟨hsigned, -⟩ := key_of_same (decoded_sampleZero false) (decoded_sampleZero true)
  exact ⟨decoded_sampleZero false, decoded_sampleZero true, hsame, hsigned.mp hsame⟩

/-- Two classifiers that are read from texts may be equal and have two keys, among the databases of any type. -/
theorem keys_differ_of_same :
    ∃ a b : Classifier, Decoder.ofText decoder (sampleZeroText "0.0") = .ok a ∧
      Decoder.ofText decoder (sampleZeroText "-0.0") = .ok b ∧ a.same b = true ∧ a.canonicalKey ≠ b.canonicalKey ∧
      ∀ dbType, classifierKey dbType a ≠ classifierKey dbType b := by
  have hkey : (sampleZero false).canonicalKey ≠ (sampleZero true).canonicalKey := by decide +kernel
  exact ⟨sampleZero false, sampleZero true, ofText_sampleZero.1, ofText_sampleZero.2, by decide +kernel, hkey,
    fun dbType h => hkey (classifierKey_inj h).2⟩

end Classifier

end DatabaseBroker
