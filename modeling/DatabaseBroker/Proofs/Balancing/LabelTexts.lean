import DatabaseBroker.Proofs.Balancing.Supposition
import DatabaseBroker.Proofs.Label

/-!
# Labels that rules can select by

A microservice carries labels as pairs, and a rule selects by a label that is read from a text. The check of the one and the reader of
the other accept the same pairs (`Label.parse?_pair`), but the reader trims what it accepts and the check does not. So a pair of names
with white space around them is stored as it is, and no text selects by it (`accepted_labels_selected`).
-/

namespace DatabaseBroker

namespace Label

/-- The text of a pair is read exactly when the pair is accepted, and as the trimmed pair. -/
theorem parse?_pair (key value : String) :
    parse? (text ⟨key, value⟩) =
      if Store.isSelectable key value then some ⟨Text.trim key, Text.trim value⟩ else none := by
  have hequals : Text.isBlankChar '=' = false := by decide
  have hblank : ∀ s : String, (Text.trimChars s.toList).isEmpty = Text.isBlank s := by
    intro s
    rw [Bool.eq_iff_iff, List.isEmpty_iff, Text.trimChars_eq_nil_iff, Text.isBlank]
  have htext : (text ⟨key, value⟩).toList = key.toList ++ '=' :: value.toList := by
    simp [text]
  by_cases hkey : '=' ∈ key.toList
  · -- the text is cut inside the key, and the equals sign between the two names is part of the value
    obtain ⟨front, rest, hsplit, hfront⟩ := List.eq_append_cons_of_mem hkey
    have hcut : (text ⟨key, value⟩).toList = front ++ '=' :: (rest ++ '=' :: value.toList) := by
      rw [htext, hsplit]
      simp
    have hmark : '=' ∈ Text.trimChars (rest ++ '=' :: value.toList) := by
      rw [Text.mem_trimChars_iff hequals]
      simp
    rw [parse?_of_cut hcut hfront]
    simp [Store.isSelectable, hkey, hmark]
  · have hmark : (Text.trimChars value.toList).contains '=' = value.toList.contains '=' := by
      rw [Bool.eq_iff_iff, List.contains_iff_mem, List.contains_iff_mem, Text.mem_trimChars_iff hequals]
    rw [parse?_of_cut htext hkey, hblank, hblank, hmark]
    unfold Store.isSelectable
    cases Text.isBlank key <;> cases Text.isBlank value <;> cases value.toList.contains '=' <;> simp [hkey, Text.trim]

/-- A pair that a label is read as is trimmed. -/
theorem trim_of_parse? {raw : String} {l : Label} (h : parse? raw = some l) :
    Text.trim l.key = l.key ∧ Text.trim l.value = l.value := by
  obtain ⟨key, value, -, -, rfl, -⟩ := parse?_eq_some h
  simp only [Text.trim, String.toList_ofList, Text.trimChars_trimChars, and_self]

/-- A label selects what carries its pair. -/
theorem selects_iff {l : Label} {labels : Labels} : l.selects labels = true ↔ labels.get? l.key = some l.value := by
  rw [selects, beq_iff_eq]

end Label

namespace Store

/-- Labels of a microservice are stored exactly when the names may stand in a key and every pair is accepted; a write leaves them as
they are given. -/
theorem setLabels_eq_ok_iff {s s' : Store} {now : UInt64} {ns microservice : String} {labels : Labels} {record : MicroserviceLabels} :
    s.setLabels now ns microservice labels = .ok (record, s') ↔
      (PlainName ns ∧ PlainName microservice ∧ ∀ k v, labels.get? k = some v → isSelectable k v = true) ∧
        record = ⟨ns, microservice, labels, now⟩ ∧ s' = s.putLabels record := by
  have haccepted : (labels.entries.find? fun e => !isSelectable e.1 e.2) = none ↔
      ∀ k v, labels.get? k = some v → isSelectable k v = true := by
    simp only [List.find?_eq_none, Prod.forall, KeyMap.get?_eq_some_iff, Bool.not_eq_true', Bool.not_eq_false]
  simp only [setLabels, bind_eq_ok, checkName_eq_ok_iff]
  constructor
  · rintro ⟨_, hns, _, hmicroservice, h⟩
    split at h
    · cases h
    · rename_i hnone
      cases h
      exact ⟨⟨hns, hmicroservice, haccepted.mp hnone⟩, rfl, rfl⟩
  · rintro ⟨⟨hns, hmicroservice, hlabels⟩, rfl, rfl⟩
    refine ⟨(), hns, (), hmicroservice, ?_⟩
    rw [haccepted.mpr hlabels]

/-- Labels and the texts that rules select by.
1. Labels of a microservice are stored exactly when the names may stand in a key and the text of every pair can be read as a label.
2. They are then what the microservice carries.
3. The text of each pair is read as the trimmed pair, which selects the microservice exactly when it carries that pair as well; so it
   does where there is no white space around the two names.
4. Only then is there any text that is read as the pair. -/
theorem accepted_labels_selected (s : Store) (now : UInt64) (ns microservice : String) (labels : Labels) :
    ((∃ record s', s.setLabels now ns microservice labels = .ok (record, s')) ↔
      PlainName ns ∧ PlainName microservice ∧
        ∀ k v, labels.get? k = some v → (Label.parse? (Label.text ⟨k, v⟩)).isSome = true) ∧
    ∀ record s', s.setLabels now ns microservice labels = .ok (record, s') →
      (record.labels = labels ∧ s'.labelsOf ns microservice = labels) ∧
      ∀ k v, labels.get? k = some v →
        (∃ l, Label.parse? (Label.text ⟨k, v⟩) = some l ∧ l = ⟨Text.trim k, Text.trim v⟩ ∧
          (l.selects labels = true ↔ labels.get? (Text.trim k) = some (Text.trim v)) ∧
          (Text.trim k = k → Text.trim v = v → l.selects labels = true)) ∧
        ((∃ raw, Label.parse? raw = some ⟨k, v⟩) ↔ Text.trim k = k ∧ Text.trim v = v) := by
  have hread : ∀ k v, (Label.parse? (Label.text ⟨k, v⟩)).isSome = isSelectable k v := by
    intro k v
    rw [Label.parse?_pair]
    cases isSelectable k v <;> rfl
  simp only [setLabels_eq_ok_iff, hread]
  refine ⟨⟨?_, fun h => ⟨_, _, h, rfl, rfl⟩⟩, ?_⟩
  · rintro ⟨record, s', h, -, -⟩
    exact h
  rintro record s' ⟨⟨-, -, hlabels⟩, rfl, rfl⟩
  refine ⟨⟨rfl, ?_⟩, fun k v hv => ?_⟩
  · rw [labelsOf, view_labels_putLabels, if_pos rfl]
  have hlabel : Label.parse? (Label.text ⟨k, v⟩) = some ⟨Text.trim k, Text.trim v⟩ := by
    rw [Label.parse?_pair, if_pos (hlabels k v hv)]
  refine ⟨⟨_, hlabel, rfl, Label.selects_iff, fun hk hvalue => ?_⟩, ?_, ?_⟩
  · rw [Label.selects_iff, hk, hvalue]
    exact hv
  · rintro ⟨raw, hraw⟩
    have htrim := Label.trim_of_parse? hraw
    exact htrim
  · rintro ⟨hk, hvalue⟩
    exact ⟨_, by rw [hlabel, hk, hvalue]⟩

/-- Labels of which one has a blank in front of its name. -/
def sampleLabels : Labels := .ofList [(" team", "core"), ("tier", "gold")]

theorem accepted_of_sampleLabels :
    ∃ record s', empty.setLabels 1000 "shop" "cart" sampleLabels = .ok (record, s') ∧ s'.labelsOf "shop" "cart" = sampleLabels ∧
      ∃ l, Label.parse? "tier=gold" = some l ∧ l.selects sampleLabels = true := by
  have hget : sampleLabels.get? "tier" = some "gold" := by decide
  obtain ⟨haccepted, hstored⟩ := accepted_labels_selected empty 1000 "shop" "cart" sampleLabels
  obtain ⟨record, s', hset⟩ : ∃ record s', empty.setLabels 1000 "shop" "cart" sampleLabels = .ok (record, s') := ⟨_, _, rfl⟩
  obtain ⟨⟨-, hcarried⟩, hpairs⟩ := hstored record s' hset
  obtain ⟨⟨l, hl, -, -, hselects⟩, -⟩ := hpairs "tier" "gold" hget
  exact ⟨record, s', hset, hcarried, l, hl, hselects (by decide) (by decide)⟩

/-- A pair with white space around a name is accepted, its text is read, and neither it nor any other text selects by the pair. -/
theorem accepted_label_not_selected :
    ∃ record s', empty.setLabels 1000 "shop" "cart" sampleLabels = .ok (record, s') ∧
      sampleLabels.get? " team" = some "core" ∧
      (∃ l, Label.parse? " team=core" = some l ∧ l.selects sampleLabels = false) ∧
      ∀ raw l, Label.parse? raw = some l → l.key ≠ " team" := by
  refine ⟨_, _, rfl, by decide, ⟨⟨"team", "core"⟩, by decide, by decide⟩, ?_⟩
  intro raw l hl hkey
  have htrim := (Label.trim_of_parse? hl).1
  rw [hkey] at htrim
  revert htrim
  decide

end Store

end DatabaseBroker
