import DatabaseBroker.Proofs.Store.Writes

/-!
# Scans are complete

The keys that begin with a text stand together: the text itself comes before them, and what comes after one that does not begin
with it does not either. So a scan may start at the first key that is not below the text and stop at the first that does not begin
with it (`KeyMap.scan_eq`). The rules of a namespace are then the stored rules that name it (`Store.namespaceRulesOf_eq`), names
with a slash included.
-/

namespace DatabaseBroker

/-! ## Keys that begin with a text -/

/-- A text that another begins with is not above it. -/
theorem not_lt_of_isPrefix {start key : List Char} (h : start <+: key) : ¬ key < start := by
  induction start generalizing key with
  | nil => exact List.not_lt_nil key
  | cons c start ih =>
    obtain ⟨rest, rfl⟩ := h
    rw [List.cons_append, List.cons_lt_cons_iff]
    rintro (hlt | ⟨-, hlt⟩)
    · exact Std.lt_irrefl hlt
    · exact ih (List.prefix_append start rest) hlt

/-- After a text that is not below `start` and does not begin with it, no text begins with it. -/
theorem not_isPrefix_of_lt {start key later : List Char} (hnot : ¬ key < start) (hstart : ¬ start <+: key)
    (hlt : key < later) : ¬ start <+: later := by
  induction start generalizing key later with
  | nil => exact absurd (List.nil_prefix) hstart
  | cons c start ih =>
    cases key with
    | nil => exact absurd (List.nil_lt_cons c start) hnot
    | cons d key =>
      rintro ⟨rest, rfl⟩
      rw [List.cons_append, List.cons_lt_cons_iff] at hlt
      rw [List.cons_lt_cons_iff, not_or, not_and] at hnot
      rcases hlt with hdc | ⟨rfl, hlt⟩
      · exact hnot.1 hdc
      · refine ih (hnot.2 rfl) (fun hkey => hstart ?_) hlt (List.prefix_append start rest)
        exact (List.prefix_cons_inj d).mpr hkey

namespace KeyMap

variable {α : Type}

/-- Whether a key begins with a text is a matter of its characters. -/
theorem begins_iff {start key : String} : begins start key = true ↔ start.toList <+: key.toList :=
  List.isPrefixOf_iff_prefix

/-- In ascending order, the keys from the first that is not below a text to the first that does not begin with it are all that
begin with it. -/
theorem takeWhile_begins {l : List (String × α)} (h : l.Pairwise fun a b => a.1 < b.1) (start : String) :
    (l.dropWhile (·.1 < start)).takeWhile (fun e => begins start e.1) = l.filter fun e => begins start e.1 := by
  induction l with
  | nil => rfl
  | cons e rest ih =>
    obtain ⟨he, hrest⟩ := List.pairwise_cons.mp h
    by_cases hlt : e.1 < start
    · have hbegins : begins start e.1 = false := by
        rw [← Bool.not_eq_true, begins_iff]
        exact fun hstart => not_lt_of_isPrefix hstart (String.lt_iff.mp hlt)
      simp only [List.dropWhile_cons, hlt, decide_true, if_true, List.filter_cons, hbegins, Bool.false_eq_true, if_false]
      exact ih hrest
    · -- From here on no key is below the text.
      have hdrop : rest.dropWhile (fun e => decide (e.1 < start)) = rest := by
        cases rest with
        | nil => rfl
        | cons e' rest' =>
          have hlater : ¬ e'.1 < start := fun hlater => hlt (String.lt_trans (he e' List.mem_cons_self) hlater)
          simp only [List.dropWhile_cons, hlater, decide_false, Bool.false_eq_true, if_false]
      have ih := ih hrest
      rw [hdrop] at ih
      simp only [List.dropWhile_cons, hlt, decide_false, Bool.false_eq_true, if_false, List.takeWhile_cons, List.filter_cons]
      cases hbegins : begins start e.1 with
      | true => simp only [if_true, ih]
      | false =>
        simp only [Bool.false_eq_true, if_false]
        symm
        refine List.filter_eq_nil_iff.mpr fun e' he' => ?_
        rw [begins_iff]
        have hstart : ¬ start.toList <+: e.1.toList := by rw [← begins_iff, hbegins]; simp
        exact not_isPrefix_of_lt (fun h => hlt (String.lt_iff.mpr h)) hstart
          (String.lt_iff.mp (he e' he'))

/-- A scan finds the values whose keys begin with the text, in key order. -/
theorem scan_eq (m : KeyMap α) (start : String) :
    m.scan start = (m.entries.filter fun e => begins start e.1).map (·.2) := by
  rw [scan, takeWhile_begins m.ascending]

end KeyMap

/-! ## Rules of a namespace -/

/-- The key of a pair begins with its first name and a slash. -/
theorem begins_pairKey (a b : String) : KeyMap.begins (pairKey a "") (pairKey a b) = true := by
  rw [KeyMap.begins_iff]
  simp [pairKey]

namespace Store

/-- The rules of a namespace are the stored rules that name it, when each stands under its own key. -/
theorem namespaceRulesOf_eq {s : Store} (h : ∀ key rule, s.namespaceRules.get? key = some rule → rule.key = key) (ns : String) :
    s.namespaceRulesOf ns = s.namespaceRules.values.filter (·.ns = ns) := by
  rw [namespaceRulesOf, KeyMap.scan_eq, KeyMap.values, List.filter_map, List.filter_map, List.filter_filter]
  congr 1
  refine List.filter_congr fun e he => ?_
  have hkey : e.2.key = e.1 := h e.1 e.2 (KeyMap.get?_eq_some_iff.mpr he)
  by_cases hns : e.2.ns = ns
  · have hbegins : KeyMap.begins (pairKey ns "") e.1 = true := by
      rw [← hkey, NamespaceRule.key, hns]
      exact begins_pairKey ns e.2.name
    simp [hns, hbegins]
  · simp [hns]

end Store

end DatabaseBroker
