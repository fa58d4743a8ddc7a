import DatabaseBroker.Proofs.Classifier.Parts
import DatabaseBroker.Proofs.Json.Numerals
import DatabaseBroker.Proofs.Json.Quotation

/-!
# The key of a classifier

The key of a classifier among the databases of a type tells the type and the classifier's map (`classifierKey_eq_iff`): the
type stands before the only slash that has a value behind it, and a value is told by its text. So a classifier without a scope
never has the key of one with a scope (`classifierKey_legacy_ne`).

What is kept of a classifier is what its text denotes, and a float may come back as a neighbour. `Classifier.KeepsKey` says of
a classifier that what is kept of it has the same key; it is then kept as it is from there on (`reread_reread`).
-/

namespace DatabaseBroker

/-! ## Values read back -/

/-- What a float is read back as depends on its text, unless that is no number. -/
theorem JsonNumber.reread_float {x y : Binary64} (h : Json.floatText y = Json.floatText x) :
    (JsonNumber.float y).reread =
      match (Document.readValue 1 0 (Json.floatText x)).1 with
      | .number n => n
      | _ => .float y := by
  rw [← h]
  rfl

/-- A number that is spelled as before once it is read back is read back as the same number ever after. -/
theorem JsonNumber.reread_reread {n : JsonNumber} (h : Json.numberText n.reread = Json.numberText n) :
    n.reread.reread = n.reread := by
  cases n with
  | integer n _ => rfl
  | float x =>
    cases hn : (JsonNumber.float x).reread with
    | integer n hrange => rfl
    | float y =>
      rw [hn] at h
      -- The same text is read: what came of it comes of it again, or nothing came of it and the float is its own.
      rw [reread_float rfl] at hn
      rw [reread_float h]
      generalize (Document.readValue 1 0 (Json.floatText x)).1 = read at hn
      cases read with
      | number n => exact hn
      | _ => rfl

namespace Json

mutual

/-- A value that is spelled as before once it is read back is read back as the same value ever after. -/
theorem reread_reread (j : Json) (h : j.reread.Alike j) : j.reread.reread = j.reread := by
  cases j with
  | null => rfl
  | bool b => rfl
  | number n => exact congrArg number (JsonNumber.reread_reread h)
  | string s => rfl
  | array items => exact congrArg array (rereadItems_rereadItems items h)
  | object members => exact congrArg object (rereadMembers_rereadMembers members h)

/-- So are the items of an array. -/
theorem rereadItems_rereadItems (l : List Json) (h : AlikeItems (rereadItems l) l) :
    rereadItems (rereadItems l) = rereadItems l := by
  match l, h with
  | [], _ => rfl
  | j :: rest, h => exact congrArg₂ List.cons (reread_reread j h.1) (rereadItems_rereadItems rest h.2)

/-- So are the members of an object. -/
theorem rereadMembers_rereadMembers (l : List (String × Json)) (h : AlikeMembers (rereadMembers l) l) :
    rereadMembers (rereadMembers l) = rereadMembers l := by
  match l, h with
  | [], _ => rfl
  | (k, j) :: rest, h =>
    exact congrArg₂ List.cons (congrArg (Prod.mk k) (reread_reread j h.2.1)) (rereadMembers_rereadMembers rest h.2.2)

end

/-- Reading back the values of a map is reading back the members. -/
theorem rereadMembers_eq_map (l : List (String × Json)) : rereadMembers l = l.map fun e => (e.1, e.2.reread) := by
  induction l with
  | nil => rfl
  | cons e rest ih => rw [rereadMembers, ih, List.map_cons]

/-- Scalars stay scalars. -/
theorem isContainer_reread (j : Json) : j.reread.isContainer = j.isContainer := by
  cases j <;> rfl

/-- Members that are alike hold values that are alike under the same keys. -/
theorem AlikeMembers.find?_alike {l l' : List (String × Json)} (h : AlikeMembers l l') {k : String} {j' : Json}
    (hj' : (l'.find? (·.1 = k)).map (·.2) = some j') : ∃ j, (l.find? (·.1 = k)).map (·.2) = some j ∧ j.Alike j' := by
  induction l generalizing l' with
  | nil =>
    cases l' with
    | nil => cases hj'
    | cons e' rest' => exact absurd h (by simp [AlikeMembers])
  | cons e rest ih =>
    cases l' with
    | nil => exact absurd h (by simp [AlikeMembers])
    | cons e' rest' =>
      obtain ⟨hk, hj, hrest⟩ := h
      by_cases hek : e.1 = k
      · have hek' : e'.1 = k := hk ▸ hek
        simp only [List.find?_cons, hek', decide_true, Option.map_some, Option.some.injEq] at hj'
        exact ⟨e.2, by simp [hek], hj' ▸ hj⟩
      · have hek' : ¬ e'.1 = k := hk ▸ hek
        simp only [List.find?_cons, hek', hek, decide_false] at hj' ⊢
        exact ih hrest hj'

/-- Only a text is like a text. -/
theorem Alike.eq_string {j : Json} {s : String} (h : j.Alike (.string s)) : j = .string s := by
  cases j with
  | string t => exact congrArg string h
  | _ => exact absurd h (by simp [Alike])

/-- Only a truth value is like it. -/
theorem Alike.eq_bool {j : Json} {b : Bool} (h : j.Alike (.bool b)) : j = .bool b := by
  cases j with
  | bool b' => exact congrArg bool h
  | _ => exact absurd h (by simp [Alike])

end Json

namespace Classifier

/-! ## Keys -/

/-- The key of a classifier tells its map up to the spelling of numbers. -/
theorem alike_of_canonicalKey_eq {c c' : Classifier} (h : c.canonicalKey = c'.canonicalKey) :
    Json.AlikeMembers c.toMap.entries c'.toMap.entries := by
  have htext : c.toJson.text = c'.toJson.text := by
    simpa [canonicalKey, Json.compact] using congrArg String.toList h
  have hmembers : Json.membersText c.toMap.entries ++ [] = Json.membersText c'.toMap.entries ++ [] := by
    rw [List.append_nil, List.append_nil]
    exact (List.cons.inj htext).2
  exact (Json.membersText_append_inj _ _ hmembers).1

/-- The key of a classifier among the databases of a type tells the type and the key. -/
theorem classifierKey_inj {dbType dbType' : String} {c c' : Classifier}
    (h : classifierKey dbType c = classifierKey dbType' c') : dbType = dbType' ∧ c.canonicalKey = c'.canonicalKey := by
  have htext : dbType.toList ++ '/' :: c.toJson.text = dbType'.toList ++ '/' :: c'.toJson.text := by
    have := congrArg String.toList h
    simpa [classifierKey, canonicalKey, Json.compact] using this
  obtain ⟨htype, hkey⟩ := Json.slash_text_inj htext
  exact ⟨String.toList_inj.mp htype, by rw [canonicalKey, canonicalKey, Json.compact, Json.compact, hkey]⟩

/-- Two identities never share a slot of the index. Whatever characters the types are made of, slashes, quotes and braces
included, and whatever values the extensions hold, arrays, objects and floats included: two keys are equal exactly when the types
are equal and the classifiers have the same map. -/
theorem classifierKey_eq_iff (dbType dbType' : String) (c c' : Classifier) :
    classifierKey dbType c = classifierKey dbType' c' ↔ dbType = dbType' ∧ c.toMap = c'.toMap := by
  refine ⟨fun h => ?_, fun ⟨htype, hmap⟩ => ?_⟩
  · obtain ⟨htype, hkey⟩ := classifierKey_inj h
    exact ⟨htype, KeyMap.ext (alike_of_canonicalKey_eq hkey).eq⟩
  · rw [classifierKey, classifierKey, canonicalKey, canonicalKey, toJson, toJson, htype, hmap]

/-- Classifiers with one key hold values that are alike. -/
theorem alike_get?_of_canonicalKey_eq {c c' : Classifier} (h : c.canonicalKey = c'.canonicalKey) {k : String} {j' : Json}
    (hj' : c'.toMap.get? k = some j') : ∃ j, c.toMap.get? k = some j ∧ j.Alike j' :=
  (alike_of_canonicalKey_eq h).find?_alike hj'

/-- Classifiers with one key hold the same texts. -/
theorem get?_toMap_of_canonicalKey_eq {c c' : Classifier} (h : c.canonicalKey = c'.canonicalKey) {k s : String}
    (hs : c'.toMap.get? k = some (.string s)) : c.toMap.get? k = some (.string s) := by
  obtain ⟨j, hj, halike⟩ := alike_get?_of_canonicalKey_eq h hs
  rw [hj, halike.eq_string]

/-- Classifiers that differ in a part have different keys. -/
theorem classifierKey_ne_of_part {c c' : Classifier} {dbType dbType' : String} {key : Key} {s s' : String}
    (h : c.part key = some s) (h' : c'.part key = some s') (hne : s ≠ s') : classifierKey dbType c ≠ classifierKey dbType' c' := by
  intro hkey
  have hs' : c'.toMap.get? key.text = some (.string s') := by
    rw [get?_toMap_key, h']
    rfl
  have hs := get?_toMap_of_canonicalKey_eq (classifierKey_inj hkey).2 hs'
  rw [get?_toMap_key, h] at hs
  cases hs
  exact hne rfl

/-! ## Legacy keys -/

/-- The scope of a classifier is a part of it, not an extension: so it is when the classifier is given as an object. -/
def ScopeLifted (c : Classifier) : Prop := ∀ s, c.extensions.get? Key.scope.text ≠ some (.string s)

/-- Under a known key, a classifier that is given as an object has no text among its extensions. -/
theorem not_text_of_ofMap (m : KeyMap Json) (key : Key) (s : String) : (ofMap m).extensions.get? key.text ≠ some (.string s) := by
  intro hs
  rw [get?_extensions_ofMap_key] at hs
  split at hs
  · cases hs
  · rename_i hnone
    exact hnone (by rw [textAt?, hs]; rfl)

theorem scopeLifted_ofMap (m : KeyMap Json) : (ofMap m).ScopeLifted := not_text_of_ofMap m .scope

/-- A classifier without a scope has no key of one with a scope. -/
theorem classifierKey_ne_of_scope {c c' : Classifier} {dbType dbType' : String} (hlifted : c.ScopeLifted) (hnone : c.scope = none)
    (hscope : c'.scope.isSome = true) : classifierKey dbType c ≠ classifierKey dbType' c' := by
  intro h
  obtain ⟨s, hs⟩ := Option.isSome_iff_exists.mp hscope
  have htext : c'.toMap.get? Key.scope.text = some (.string s) := by
    rw [get?_toMap_key, part, hs]
    rfl
  have hsame := get?_toMap_of_canonicalKey_eq (classifierKey_inj h).2 htext
  rw [get?_toMap_key, part, hnone, Option.map_none, Option.none_or] at hsame
  exact hlifted s hsame

/-- The legacy equivalent of a classifier has no scope, as a part or as an extension. -/
theorem ScopeLifted.legacyEquivalent? {c legacy : Classifier} (h : c.ScopeLifted) (hlegacy : c.legacyEquivalent? = some legacy) :
    legacy.ScopeLifted ∧ legacy.scope = none := by
  obtain ⟨scope, -, rfl⟩ := Option.map_eq_some_iff.mp hlegacy
  refine ⟨fun s hs => ?_, rfl⟩
  rw [KeyMap.get?_insert, if_neg (by decide)] at hs
  exact h s hs

/-- So the legacy equivalent has no key of a classifier with a scope. -/
theorem classifierKey_legacy_ne {c legacy c' : Classifier} {dbType dbType' : String} (hlifted : c.ScopeLifted)
    (hlegacy : c.legacyEquivalent? = some legacy) (hscope : c'.scope.isSome = true) :
    classifierKey dbType legacy ≠ classifierKey dbType' c' := by
  obtain ⟨hlegacyLifted, hnone⟩ := hlifted.legacyEquivalent? hlegacy
  exact classifierKey_ne_of_scope hlegacyLifted hnone hscope

/-! ## What is kept of a classifier -/

/-- What is kept of a classifier has its key. -/
def KeepsKey (c : Classifier) : Prop := c.reread.canonicalKey = c.canonicalKey

instance (c : Classifier) : Decidable c.KeepsKey := inferInstanceAs (Decidable (_ = _))

/-- The map of what is kept is the map with its values read back. -/
theorem toMap_reread (c : Classifier) : c.reread.toMap = c.toMap.mapValues Json.reread := toMap_ofMap _

/-- What is kept of a classifier with the same key is kept as it is from there on. -/
theorem reread_reread {c : Classifier} (h : c.KeepsKey) : c.reread.reread = c.reread := by
  have halike := alike_of_canonicalKey_eq h
  rw [toMap_reread] at halike
  have hentries : (c.toMap.mapValues Json.reread).entries = Json.rereadMembers c.toMap.entries :=
    (Json.rereadMembers_eq_map _).symm
  rw [hentries] at halike
  have hmap : (c.toMap.mapValues Json.reread).mapValues Json.reread = c.toMap.mapValues Json.reread := by
    refine KeyMap.ext ?_
    have htwice : ((c.toMap.mapValues Json.reread).mapValues Json.reread).entries =
        Json.rereadMembers (c.toMap.mapValues Json.reread).entries := (Json.rereadMembers_eq_map _).symm
    rw [htwice, hentries, Json.rereadMembers_rereadMembers _ halike]
  rw [reread, toMap_reread, hmap]
  rfl

/-- The parts of a classifier are kept. -/
theorem part_reread {c : Classifier} (key : Key) {s : String} (h : c.part key = some s) : c.reread.part key = some s := by
  rw [reread, part_ofMap, textAt?, KeyMap.get?_mapValues, get?_toMap_key, h]
  rfl

/-- A classifier with a scope is kept with one. -/
theorem scope_isSome_reread {c : Classifier} (h : c.scope.isSome = true) : c.reread.scope.isSome = true := by
  obtain ⟨scope, hscope⟩ := Option.isSome_iff_exists.mp h
  exact Option.isSome_iff_exists.mpr ⟨scope, part_reread .scope hscope⟩

/-- A classifier without a scope is kept without one. -/
theorem scope_reread {c : Classifier} (hlifted : c.ScopeLifted) (hnone : c.scope = none) : c.reread.scope = none := by
  have hpart : c.reread.part .scope = textAt? (c.toMap.mapValues Json.reread) Key.scope.text := part_ofMap _ .scope
  have hget : c.toMap.get? Key.scope.text = c.extensions.get? Key.scope.text := by
    rw [get?_toMap_key, part, hnone, Option.map_none, Option.none_or]
  rw [textAt?, KeyMap.get?_mapValues, hget] at hpart
  cases hextension : c.extensions.get? Key.scope.text with
  | none => exact hpart.trans (by rw [hextension]; rfl)
  | some j =>
    cases j with
    | string s => exact absurd hextension (hlifted s)
    | _ => exact hpart.trans (by rw [hextension]; rfl)

/-- What is kept of a valid classifier is valid. -/
theorem Valid.reread {c : Classifier} (h : c.Valid) : c.reread.Valid := by
  obtain ⟨ns, hns, hnsblank⟩ := h.ns
  obtain ⟨name, hname, hnameblank⟩ := h.microserviceName
  refine ⟨⟨ns, part_reread .ns hns, hnsblank⟩, ⟨name, part_reread .microserviceName hname, hnameblank⟩,
    ?_, fun k j hj => ?_⟩
  · rcases h.scope with hs | ⟨hs, tenantId, htenantId, hblank⟩
    · exact Or.inl (part_reread .scope hs)
    · exact Or.inr ⟨part_reread .scope hs, tenantId, part_reread .tenantId htenantId, hblank⟩
  · have hget := get?_of_extensions_ofMap hj
    rw [KeyMap.get?_mapValues] at hget
    obtain ⟨j', hj', rfl⟩ := Option.map_eq_some_iff.mp hget
    rw [Json.isContainer_reread]
    rcases get?_toMap_cases hj' with ⟨s, rfl⟩ | hextension
    · rfl
    · exact h.scalars k j' hextension

end Classifier

end DatabaseBroker
