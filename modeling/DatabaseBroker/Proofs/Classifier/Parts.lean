import DatabaseBroker.Classifier.Legacy
import DatabaseBroker.Record.Logical

/-!
# Parts of a classifier

What a classifier's map holds under a key, and what the classifier of a map is made of: a part for each known key over a text,
and the rest as extensions. Taking a map apart and putting it together again gives the map (`toMap_ofMap`). `Classifier.Valid`
says in one place what the check of a classifier in the current shape comes to.
-/

namespace DatabaseBroker

/-- The text that a value is, if it is one. -/
def Json.asText? : Json → Option String
  | .string s => some s
  | _ => none

/-- A value is a text exactly when it is that text. -/
theorem Json.asText?_eq_some_iff {j : Json} {s : String} : j.asText? = some s ↔ j = .string s := by
  cases j <;> simp [asText?]

namespace Classifier

/-- The part of a known key. -/
def part (c : Classifier) : Key → Option String
  | .ns => c.ns
  | .microserviceName => c.microserviceName
  | .scope => c.scope
  | .tenantId => c.tenantId

/-- Known keys are written differently. -/
theorem Key.text_injective {a b : Key} (h : a.text = b.text) : a = b := by
  cases a <;> cases b <;> first | rfl | exact absurd h (by decide)

/-! ## From parts to a map -/

/-- A part stands over what was under its key. -/
theorem get?_putText (m : KeyMap Json) (key : Key) (o : Option String) (k : String) :
    (putText m key o).get? k = if key.text = k then (o.map .string).or (m.get? k) else m.get? k := by
  cases o with
  | none => simp [putText]
  | some s => simp [putText, KeyMap.get?_insert]

/-- Under a known key a classifier's map holds the part, or an extension of that key. -/
theorem get?_toMap_key (c : Classifier) (key : Key) :
    c.toMap.get? key.text = ((c.part key).map .string).or (c.extensions.get? key.text) := by
  cases key <;> simp [toMap, get?_putText, part, Key.text]

/-- Under any other key it holds the extension. -/
theorem get?_toMap_of_ne (c : Classifier) {k : String} (h : ∀ key : Key, key.text ≠ k) :
    c.toMap.get? k = c.extensions.get? k := by
  simp [toMap, get?_putText, h]

/-- What a classifier's map holds is a text or an extension. -/
theorem get?_toMap_cases {c : Classifier} {k : String} {j : Json} (h : c.toMap.get? k = some j) :
    (∃ s, j = .string s) ∨ c.extensions.get? k = some j := by
  by_cases hk : ∃ key : Key, key.text = k
  · obtain ⟨key, rfl⟩ := hk
    rw [get?_toMap_key] at h
    cases hpart : c.part key with
    | some s =>
      rw [hpart] at h
      exact Or.inl ⟨s, (Option.some.inj h).symm⟩
    | none =>
      rw [hpart] at h
      exact Or.inr h
  · rw [get?_toMap_of_ne c fun key hkey => hk ⟨key, hkey⟩] at h
    exact Or.inr h

/-! ## From a map to parts -/

/-- The text under a key. -/
def textAt? (m : KeyMap Json) (k : String) : Option String := (m.get? k).bind Json.asText?

/-- The text under a key is taken out of a map. -/
theorem takeText_eq (m : KeyMap Json) (key : Key) :
    takeText m key = (textAt? m key.text, if (textAt? m key.text).isSome then m.erase key.text else m) := by
  unfold takeText textAt?
  split
  · rename_i s h
    simp [h, Json.asText?]
  · rename_i h
    cases hget : m.get? key.text with
    | none => simp
    | some j =>
      cases j with
      | string s => exact absurd hget (h s)
      | _ => simp [Json.asText?]

/-- Taking a text out leaves what stands under other keys. -/
theorem get?_takeText_of_ne (m : KeyMap Json) (key : Key) {k : String} (h : key.text ≠ k) :
    (takeText m key).2.get? k = m.get? k := by
  rw [takeText_eq]
  dsimp only
  split
  · rw [KeyMap.get?_erase, if_neg h]
  · rfl

/-- Under its own key it leaves what is no text. -/
theorem get?_takeText_self (m : KeyMap Json) (key : Key) :
    (takeText m key).2.get? key.text = if (textAt? m key.text).isSome then none else m.get? key.text := by
  rw [takeText_eq]
  dsimp only
  split
  · rw [KeyMap.get?_erase_self]
  · rfl

/-- Taking one text out leaves the others to be taken. -/
theorem textAt?_takeText_of_ne (m : KeyMap Json) {key key' : Key} (h : key ≠ key') :
    textAt? (takeText m key).2 key'.text = textAt? m key'.text := by
  rw [textAt?, get?_takeText_of_ne m key fun htext => h (Key.text_injective htext), textAt?]

/-- The part of a known key is the text under it. -/
theorem part_ofMap (m : KeyMap Json) (key : Key) : (ofMap m).part key = textAt? m key.text := by
  have hpart : ∀ (m : KeyMap Json) (key : Key), (takeText m key).1 = textAt? m key.text := fun m key => by
    rw [takeText_eq]
  cases key with
  | ns => exact hpart m .ns
  | microserviceName =>
    simp only [ofMap, part, hpart]
    rw [textAt?_takeText_of_ne _ (by decide)]
  | scope =>
    simp only [ofMap, part, hpart]
    rw [textAt?_takeText_of_ne _ (by decide), textAt?_takeText_of_ne _ (by decide)]
  | tenantId =>
    simp only [ofMap, part, hpart]
    rw [textAt?_takeText_of_ne _ (by decide), textAt?_takeText_of_ne _ (by decide), textAt?_takeText_of_ne _ (by decide)]

/-- Under a known key the extensions hold what is no text. -/
theorem get?_extensions_ofMap_key (m : KeyMap Json) (key : Key) :
    (ofMap m).extensions.get? key.text = if (textAt? m key.text).isSome then none else m.get? key.text := by
  have hne : ∀ {key key' : Key}, key ≠ key' → key.text ≠ key'.text := fun h htext => h (Key.text_injective htext)
  cases key with
  | ns =>
    simp only [ofMap]
    rw [get?_takeText_of_ne _ _ (hne (by decide)), get?_takeText_of_ne _ _ (hne (by decide)),
      get?_takeText_of_ne _ _ (hne (by decide)), get?_takeText_self]
  | microserviceName =>
    simp only [ofMap]
    rw [get?_takeText_of_ne _ _ (hne (by decide)), get?_takeText_of_ne _ _ (hne (by decide)), get?_takeText_self,
      textAt?_takeText_of_ne _ (by decide), get?_takeText_of_ne _ _ (hne (by decide))]
  | scope =>
    simp only [ofMap]
    rw [get?_takeText_of_ne _ _ (hne (by decide)), get?_takeText_self, textAt?_takeText_of_ne _ (by decide),
      textAt?_takeText_of_ne _ (by decide), get?_takeText_of_ne _ _ (hne (by decide)),
      get?_takeText_of_ne _ _ (hne (by decide))]
  | tenantId =>
    simp only [ofMap]
    rw [get?_takeText_self, textAt?_takeText_of_ne _ (by decide), textAt?_takeText_of_ne _ (by decide),
      textAt?_takeText_of_ne _ (by decide), get?_takeText_of_ne _ _ (hne (by decide)),
      get?_takeText_of_ne _ _ (hne (by decide)), get?_takeText_of_ne _ _ (hne (by decide))]

/-- Under any other key they hold what the map holds. -/
theorem get?_extensions_ofMap_of_ne (m : KeyMap Json) {k : String} (h : ∀ key : Key, key.text ≠ k) :
    (ofMap m).extensions.get? k = m.get? k := by
  simp only [ofMap]
  rw [get?_takeText_of_ne _ _ (h _), get?_takeText_of_ne _ _ (h _), get?_takeText_of_ne _ _ (h _),
    get?_takeText_of_ne _ _ (h _)]

/-- An extension of a map's classifier is in the map. -/
theorem get?_of_extensions_ofMap {m : KeyMap Json} {k : String} {j : Json} (h : (ofMap m).extensions.get? k = some j) :
    m.get? k = some j := by
  by_cases hk : ∃ key : Key, key.text = k
  · obtain ⟨key, rfl⟩ := hk
    rw [get?_extensions_ofMap_key] at h
    split at h
    · cases h
    · exact h
  · rwa [get?_extensions_ofMap_of_ne m fun key hkey => hk ⟨key, hkey⟩] at h

/-- The map of a map's classifier is the map. -/
theorem toMap_ofMap (m : KeyMap Json) : (ofMap m).toMap = m := by
  refine KeyMap.ext_get? fun k => ?_
  by_cases hk : ∃ key : Key, key.text = k
  · obtain ⟨key, rfl⟩ := hk
    rw [get?_toMap_key, part_ofMap, get?_extensions_ofMap_key]
    cases htext : textAt? m key.text with
    | none => rfl
    | some s =>
      obtain ⟨j, hj, hs⟩ := Option.bind_eq_some_iff.mp htext
      rw [hj, Json.asText?_eq_some_iff.mp hs]
      rfl
  · rw [get?_toMap_of_ne _ fun key hkey => hk ⟨key, hkey⟩, get?_extensions_ofMap_of_ne m fun key hkey => hk ⟨key, hkey⟩]

/-! ## Validity -/

/-- A classifier in the current shape that meets the rules. -/
structure Valid (c : Classifier) : Prop where
  ns : ∃ s, c.ns = some s ∧ Text.isBlank s = false
  microserviceName : ∃ s, c.microserviceName = some s ∧ Text.isBlank s = false
  scope : c.scope = some serviceScope ∨
    c.scope = some tenantScope ∧ ∃ s, c.tenantId = some s ∧ Text.isBlank s = false
  scalars : ∀ k j, c.extensions.get? k = some j → j.isContainer = false

/-- A part is accepted when it is there and not blank. -/
theorem require_eq_ok_iff {key : Key} {o : Option String} {s : String} :
    require key o = .ok s ↔ o = some s ∧ Text.isBlank s = false := by
  cases o with
  | none => simp [require]
  | some t =>
    simp only [require]
    split
    · rename_i hblank
      constructor
      · intro h
        cases h
      · rintro ⟨h, hs⟩
        rw [← Option.some.inj h, hblank] at hs
        cases hs
    · rename_i hblank
      constructor
      · intro h
        cases h
        exact ⟨rfl, by simpa using hblank⟩
      · rintro ⟨h, -⟩
        rw [Option.some.inj h]

/-- A scope is accepted when it is the service's, or the tenant's of a tenant that is named. -/
theorem checkScope_eq_ok_iff {c : Classifier} {scope : String} :
    c.checkScope scope = .ok () ↔
      scope = serviceScope ∨ scope = tenantScope ∧ ∃ s, c.tenantId = some s ∧ Text.isBlank s = false := by
  have hne : tenantScope ≠ serviceScope := by decide
  unfold checkScope
  split
  · rename_i hservice
    simp [hservice]
  · rename_i hservice
    split
    · rename_i htenant
      cases hrequire : require .tenantId c.tenantId with
      | error v =>
        have hmissing : ¬ ∃ s, c.tenantId = some s ∧ Text.isBlank s = false := by
          rintro ⟨s, hs⟩
          rw [require_eq_ok_iff.mpr hs] at hrequire
          cases hrequire
        simp [bind, Except.bind, hservice, hmissing]
      | ok s =>
        have hs := require_eq_ok_iff.mp hrequire
        simp only [bind, Except.bind, true_iff]
        exact Or.inr ⟨htenant, s, hs⟩
    · rename_i htenant
      simp [hservice, htenant]

/-- Extensions are accepted when none is a container. -/
theorem checkScalars_eq_ok_iff {c : Classifier} :
    c.checkScalars = .ok () ↔ ∀ k j, c.extensions.get? k = some j → j.isContainer = false := by
  unfold checkScalars
  split
  · rename_i key j hfind
    have hmem := List.mem_of_find?_eq_some hfind
    have hcontainer : j.isContainer = true := by simpa using List.find?_some hfind
    simp only [reduceCtorEq, false_iff]
    intro h
    rw [h key j (KeyMap.get?_eq_some_iff.mpr hmem)] at hcontainer
    cases hcontainer
  · rename_i hnone
    simp only [true_iff]
    intro k j hj
    simpa using List.find?_eq_none.mp hnone (k, j) (KeyMap.get?_eq_some_iff.mp hj)

/-- The check accepts valid classifiers and no others. -/
theorem validate_eq_ok_iff {c : Classifier} : c.validate = .ok () ↔ c.Valid := by
  have hservice : Text.isBlank serviceScope = false := by decide
  have htenant : Text.isBlank tenantScope = false := by decide
  constructor
  · intro h
    simp only [validate, bind, Except.bind] at h
    split at h
    · cases h
    rename_i ns hns
    split at h
    · cases h
    rename_i microserviceName hmicroserviceName
    split at h
    · cases h
    rename_i scope hscope
    split at h
    · cases h
    rename_i u hcheck
    have hcheck := checkScope_eq_ok_iff.mp hcheck
    have hscope := (require_eq_ok_iff.mp hscope).1
    refine ⟨⟨ns, require_eq_ok_iff.mp hns⟩, ⟨microserviceName, require_eq_ok_iff.mp hmicroserviceName⟩, ?_,
      checkScalars_eq_ok_iff.mp h⟩
    rcases hcheck with rfl | ⟨rfl, htenantId⟩
    · exact Or.inl hscope
    · exact Or.inr ⟨hscope, htenantId⟩
  · intro h
    obtain ⟨ns, hns⟩ := h.ns
    obtain ⟨microserviceName, hmicroserviceName⟩ := h.microserviceName
    have hscalars := checkScalars_eq_ok_iff.mpr h.scalars
    have hscope : ∃ scope, require .scope c.scope = .ok scope ∧ c.checkScope scope = .ok () := by
      rcases h.scope with hs | ⟨hs, htenantId⟩
      · exact ⟨serviceScope, require_eq_ok_iff.mpr ⟨hs, hservice⟩, checkScope_eq_ok_iff.mpr (Or.inl rfl)⟩
      · exact ⟨tenantScope, require_eq_ok_iff.mpr ⟨hs, htenant⟩, checkScope_eq_ok_iff.mpr (Or.inr ⟨rfl, htenantId⟩)⟩
    obtain ⟨scope, hscope, hcheck⟩ := hscope
    simp only [validate, bind, Except.bind, require_eq_ok_iff.mpr hns, require_eq_ok_iff.mpr hmicroserviceName, hscope,
      hcheck, hscalars]

/-- A valid classifier has a scope. -/
theorem Valid.scope_isSome {c : Classifier} (h : c.Valid) : c.scope.isSome = true := by
  rcases h.scope with hs | ⟨hs, -⟩
  · rw [hs]
    rfl
  · rw [hs]
    rfl

/-- A valid classifier may be taken to another namespace that is not blank. -/
theorem Valid.withNamespace {c : Classifier} (h : c.Valid) {ns : String} (hns : Text.isBlank ns = false) :
    (c.withNamespace ns).Valid :=
  ⟨⟨ns, rfl, hns⟩, h.microserviceName, h.scope, h.scalars⟩

end Classifier

end DatabaseBroker
