import DatabaseBroker.Proofs.Json.Documents

/-!
# Lifting known keys

A classifier is read from an object by lifting the known keys that hold texts into parts, and written by putting the parts back over
the extensions. Reading loses nothing: what is written is the object that was read (`Classifier.decoder_eq_ok_iff` for objects as they
are decoded). Writing may lose something, for a classifier may be built that has a part and an extension of one key, and then the part
is written. What is read back after that is `Lifted`, and such classifiers are read back as they are (`ofMap_toMap_iff`).
-/

namespace DatabaseBroker

namespace Document

/-- Members are decoded one by one as the values that they denote. -/
theorem mapM_value (ds : List (String × Document)) :
    ds.mapM (fun (k, d) => (Decoder.value d).map (k, ·)) =
      match membersToJson? ds with
      | some members => .ok members
      | none => .error .malformed := by
  induction ds with
  | nil => rfl
  | cons e rest ih =>
    obtain ⟨k, d⟩ := e
    rw [List.mapM_cons, ih]
    simp only [Decoder.value, membersToJson?]
    cases d.toJson? with
    | none => rfl
    | some j => cases membersToJson? rest <;> rfl

end Document

namespace Classifier

/-- Two classifiers with the same parts and the same extensions are one. -/
theorem ext_part {a b : Classifier} (hpart : ∀ key, a.part key = b.part key) (hextensions : a.extensions = b.extensions) : a = b := by
  obtain ⟨ns, microserviceName, scope, tenantId, extensions⟩ := a
  obtain rfl : ns = b.ns := hpart .ns
  obtain rfl : microserviceName = b.microserviceName := hpart .microserviceName
  obtain rfl : scope = b.scope := hpart .scope
  obtain rfl : tenantId = b.tenantId := hpart .tenantId
  obtain rfl : extensions = b.extensions := hextensions
  rfl

/-! ## Lifted classifiers -/

/-- Nothing is left to lift: no extension of a known key is a text, and none stands beside a part. -/
structure Lifted (c : Classifier) : Prop where
  noText : ∀ (key : Key) (s : String), c.extensions.get? key.text ≠ some (.string s)
  besidePart : ∀ key : Key, (c.part key).isSome = true → c.extensions.get? key.text = none

/-- What is read from a map is lifted. -/
theorem lifted_ofMap (m : KeyMap Json) : (ofMap m).Lifted where
  noText := not_text_of_ofMap m
  besidePart := by
    intro key hpart
    rw [part_ofMap] at hpart
    rw [get?_extensions_ofMap_key, if_pos hpart]

/-- The text under a known key of a lifted classifier's map is the part. -/
theorem Lifted.textAt?_toMap {c : Classifier} (h : c.Lifted) (key : Key) : textAt? c.toMap key.text = c.part key := by
  rw [textAt?, get?_toMap_key]
  cases hpart : c.part key with
  | some s => rfl
  | none =>
    rw [Option.map_none, Option.none_or]
    cases hextension : c.extensions.get? key.text with
    | none => rfl
    | some j =>
      cases j with
      | string s => exact absurd hextension (h.noText key s)
      | _ => rfl

/-- A classifier is read back from its map as it is exactly when it is lifted. -/
theorem ofMap_toMap_iff {c : Classifier} : ofMap c.toMap = c ↔ c.Lifted := by
  constructor
  · intro h
    rw [← h]
    exact lifted_ofMap c.toMap
  · intro h
    refine ext_part (fun key => ?_) (KeyMap.ext_get? fun k => ?_)
    · rw [part_ofMap, h.textAt?_toMap]
    · by_cases hk : ∃ key : Key, key.text = k
      · obtain ⟨key, rfl⟩ := hk
        rw [get?_extensions_ofMap_key, h.textAt?_toMap]
        split
        · rename_i hpart
          exact (h.besidePart key hpart).symm
        · rename_i hpart
          rw [get?_toMap_key, Option.not_isSome_iff_eq_none.mp hpart, Option.map_none, Option.none_or]
      · have hother : ∀ key : Key, key.text ≠ k := fun key hkey => hk ⟨key, hkey⟩
        rw [get?_extensions_ofMap_of_ne _ hother, get?_toMap_of_ne _ hother]

/-! ## Classifiers that are decoded -/

/-- A document is decoded as a classifier exactly when it denotes an object, and then as the classifier of that object. -/
theorem decoder_eq_ok_iff {d : Document} {c : Classifier} :
    decoder d = .ok c ↔ ∃ m, d.toJson? = some (.ofMap m) ∧ c = ofMap m := by
  cases d with
  | object members complete =>
    simp only [decoder, Decoder.map, Document.mapM_value]
    cases hmembers : Document.membersToJson? members with
    | none =>
      cases complete <;> simp [Document.toJson?, hmembers, bind, Except.bind, Except.map]
    | some l =>
      cases complete with
      | false => simp [Document.toJson?, bind, Except.bind, Except.map]
      | true =>
        simp only [Document.toJson?, hmembers, bind, Except.bind, Except.map, if_true, Except.ok.injEq, Option.map_some,
          Option.some.injEq, Json.ofMembers, Json.ofMap, Json.object.injEq]
        constructor
        · intro h
          exact ⟨KeyMap.ofList l, rfl, h.symm⟩
        · rintro ⟨m, hm, rfl⟩
          rw [KeyMap.ext hm]
  | array items complete =>
    cases complete <;> simp [decoder, Decoder.map, Decoder.refuse, Except.map, Document.toJson?, Json.ofMap]
  | null | bool | number | string | unreadable | deep | broken =>
    simp [decoder, Decoder.map, Decoder.refuse, Except.map, Document.toJson?, Json.ofMap]

/-- What is decoded is lifted. -/
theorem lifted_of_decoder {d : Document} {c : Classifier} (h : decoder d = .ok c) : c.Lifted := by
  obtain ⟨m, -, rfl⟩ := decoder_eq_ok_iff.mp h
  exact lifted_ofMap m

/-! ## Reading and writing -/

/-- Lifting loses nothing, and writing is a projection.
1. Whatever a map holds under the known keys, a text, any other value or nothing, what is written of its classifier is the map.
2. So it is where the map is an object that is decoded: every document of an object is decoded as a classifier, and written as the value
   that the document denotes.
3. What is written of any classifier is written of what is read back from it.
4. Under a known key the part is written, over an extension of that key, and the extension where there is no part.
5. Under any other key the extension is written.
6. A classifier is read back as it is exactly when it is lifted; so is everything that is read back. -/
theorem lifting_loses_nothing :
    (∀ m : KeyMap Json, (ofMap m).toMap = m) ∧
    (∀ (d : Document) (members : List (String × Json)), d.toJson? = some (.object members) →
      ∃ c, decoder d = .ok c ∧ c.toJson = .object members) ∧
    ∀ c : Classifier,
      (ofMap c.toMap).toMap = c.toMap ∧
      (∀ key : Key, c.toMap.get? key.text = ((c.part key).map .string).or (c.extensions.get? key.text)) ∧
      (∀ k, (∀ key : Key, key.text ≠ k) → c.toMap.get? k = c.extensions.get? k) ∧
      (ofMap c.toMap = c ↔ c.Lifted) ∧ (ofMap c.toMap).Lifted := by
  refine ⟨toMap_ofMap, fun d members hd => ?_, fun c => ?_⟩
  · -- an object that is denoted lists its members in key order, so it is the object of a map
    obtain ⟨m, hm⟩ : ∃ m, Json.object members = .ofMap m := by
      have hdenoted : (Json.object members).Denoted := Document.denoted_of_toJson? hd
      simp only [Json.Denoted, Document.ofJson, Document.toJson?, Option.map_eq_some_iff] at hdenoted
      obtain ⟨l, -, hl⟩ := hdenoted
      exact ⟨KeyMap.ofList l, hl.symm⟩
    refine ⟨ofMap m, decoder_eq_ok_iff.mpr ⟨m, by rw [hd, hm], rfl⟩, ?_⟩
    rw [toJson, toMap_ofMap, hm]
  · exact ⟨toMap_ofMap c.toMap, get?_toMap_key c, fun k hk => get?_toMap_of_ne c hk, ofMap_toMap_iff, lifted_ofMap c.toMap⟩

/-- A classifier with two namespaces, one of which is an extension, and with a tenant that is no text. -/
def sampleTwofold : Classifier :=
  { service "shop" "cart" with
    extensions := .ofList [("namespace", .string "other"), ("shard", .bool true), ("tenantId", .null)] }

/-- The part is written and the other namespace lost, so that the classifier is not read back as it is; the tenant that is no text and
the shard are kept. -/
theorem lifting_of_sampleTwofold :
    sampleTwofold.toMap.get? "namespace" = some (.string "shop") ∧ sampleTwofold.toMap.get? "tenantId" = some .null ∧
      sampleTwofold.toMap.get? "shard" = some (.bool true) ∧ ofMap sampleTwofold.toMap ≠ sampleTwofold ∧
      ∃ c, decoder (.ofJson sampleTwofold.toJson) = .ok c ∧ c.toJson = sampleTwofold.toJson := by
  obtain ⟨-, hdecoded, hwritten⟩ := lifting_loses_nothing
  obtain ⟨-, hknown, hother, hlifted, -⟩ := hwritten sampleTwofold
  have hshard : ∀ key : Key, key.text ≠ "shard" := by
    intro key
    cases key <;> decide
  refine ⟨hknown .ns, hknown .tenantId, hother "shard" hshard, fun h => ?_, hdecoded _ _ rfl⟩
  exact (hlifted.mp h).noText .ns "other" rfl

end Classifier

end DatabaseBroker
