import DatabaseBroker.Proofs.Store.Scans
import DatabaseBroker.Proofs.Text.Utf8
import Mathlib.Data.List.TakeWhile

/-!
# Scans by bytes

A table keeps its keys in the order of their bytes. The entries whose keys begin with a text stand together there, after those below
the text and before those above it that do not begin with it (`KeyMap.entries_split`), so a scan that starts at the first key not
below the text and stops at the first that does not begin with it finds all of them and nothing else (`KeyMap.scan_complete`). That
keys and their bytes agree in order and in what they begin with is a fact about UTF-8.
-/

namespace DatabaseBroker.KeyMap

variable {α : Type}

/-- Every key begins with the empty text. -/
theorem scan_empty (m : KeyMap α) : m.scan "" = m.values := by
  have hall : (m.entries.filter fun e => begins "" e.1) = m.entries := List.filter_eq_self.mpr fun _ _ => rfl
  rw [scan_eq, hall, values]

/-! ## Where a scan starts and stops -/

/-- In ascending order, no key is below a text from the first one on that is not. -/
theorem not_lt_of_mem_dropWhile {l : List (String × α)} (h : l.Pairwise fun a b => a.1 < b.1) {start : String}
    {e : String × α} (he : e ∈ l.dropWhile (·.1 < start)) : ¬ e.1 < start := by
  induction l with
  | nil => cases he
  | cons a rest ih =>
    obtain ⟨ha, hrest⟩ := List.pairwise_cons.mp h
    by_cases hlt : a.1 < start
    · simp only [List.dropWhile_cons, hlt, decide_true, if_true] at he
      exact ih hrest he
    · simp only [List.dropWhile_cons, hlt, decide_false, Bool.false_eq_true, if_false] at he
      rcases List.mem_cons.mp he with rfl | he
      · exact hlt
      · exact fun hbelow => hlt (String.lt_trans (ha e he) hbelow)

/-- The entries of a map are those below a text, those that begin with it, and those above it that do not. -/
theorem entries_split (m : KeyMap α) (start : String) :
    m.entries = m.entries.takeWhile (·.1 < start) ++ m.entries.filter (fun e => begins start e.1) ++
      (m.entries.dropWhile (·.1 < start)).dropWhile fun e => begins start e.1 := by
  rw [← takeWhile_begins m.ascending, List.append_assoc, List.takeWhile_append_dropWhile, List.takeWhile_append_dropWhile]

/-- The entries that a scan does not come to are above the text and do not begin with it. -/
theorem above_of_mem_dropWhile (m : KeyMap α) {start : String} {e : String × α}
    (he : e ∈ (m.entries.dropWhile (·.1 < start)).dropWhile fun e => begins start e.1) :
    start < e.1 ∧ ¬ begins start e.1 = true := by
  have hsplit := m.ascending
  rw [m.entries_split start] at hsplit
  obtain ⟨-, -, hafter⟩ := List.pairwise_append.mp hsplit
  have hrest : e ∈ m.entries.dropWhile (·.1 < start) := (List.dropWhile_sublist _).subset he
  have hnot : ¬ begins start e.1 = true := by
    intro hstart
    -- Otherwise the entry would stand among those before it, too.
    have hfound : e ∈ m.entries.filter fun e => begins start e.1 :=
      List.mem_filter.mpr ⟨(List.dropWhile_sublist _).subset hrest, hstart⟩
    exact String.lt_irrefl _ (hafter e (List.mem_append_right _ hfound) e he)
  refine ⟨Std.lt_of_le_of_ne (Std.not_lt.mp (not_lt_of_mem_dropWhile m.ascending hrest)) ?_, hnot⟩
  rintro rfl
  exact hnot (begins_iff.mpr (List.prefix_refl _))

/-! ## Keys by their bytes -/

section Bytes

open Text.Utf8 (bytes bytes_lt_iff bytes_isPrefix_iff)

/-- Whether a key begins with a text is a matter of its bytes, too. -/
theorem begins_iff_bytes {start key : String} : begins start key = true ↔ bytes start <+: bytes key := by
  rw [begins_iff, bytes_isPrefix_iff]

/-- A list holds the entries of a map whose keys begin with a text, in ascending order of the bytes of their keys, and so each once. -/
structure ListsFrom (m : KeyMap α) (start : String) (found : List (String × α)) : Prop where
  mem_iff : ∀ k v, (k, v) ∈ found ↔ m.get? k = some v ∧ bytes start <+: bytes k
  ascending : found.Pairwise fun a b => bytes a.1 < bytes b.1

/-- There is one such list. -/
theorem ListsFrom.unique {m : KeyMap α} {start : String} {found other : List (String × α)} (h : m.ListsFrom start found)
    (hother : m.ListsFrom start other) : other = found := by
  refine eq_of_mem_iff (hother.ascending.imp bytes_lt_iff.mp) (h.ascending.imp bytes_lt_iff.mp) fun e => ?_
  rw [hother.mem_iff, h.mem_iff]

theorem listsFrom_filter (m : KeyMap α) (start : String) :
    m.ListsFrom start (m.entries.filter fun e => begins start e.1) where
  mem_iff k v := by rw [List.mem_filter, get?_eq_some_iff, begins_iff_bytes]
  ascending := (m.ascending.filter _).imp bytes_lt_iff.mpr

/-- A scan finds what it should, whatever the table and the text.
1. By bytes, it starts at the first key that is not below the text and stops at the first that does not begin with it.
2. The entries that it comes to stand together: those before them are below the text, and those after them are above it and do not
   begin with it.
3. They are the entries whose keys begin with the text, each once and in ascending order of bytes; no other list holds just these
   in this order.
4. From the empty text it finds every value. -/
theorem scan_complete (m : KeyMap α) (start : String) :
    m.scan start = ((m.entries.dropWhile fun e => bytes e.1 < bytes start).takeWhile fun e =>
      (bytes start).isPrefixOf (bytes e.1)).map (·.2) ∧
    (∃ below found above, m.entries = below ++ found ++ above ∧ m.scan start = found.map (·.2) ∧
      (∀ e ∈ below, bytes e.1 < bytes start) ∧
      (∀ e ∈ above, bytes start < bytes e.1 ∧ ¬ bytes start <+: bytes e.1) ∧
      m.ListsFrom start found ∧ ∀ other, m.ListsFrom start other → other = found) ∧
    m.scan "" = m.values := by
  refine ⟨?_, ⟨_, _, _, m.entries_split start, m.scan_eq start, fun e he => ?_, fun e he => ?_, m.listsFrom_filter start,
    fun other hother => (m.listsFrom_filter start).unique hother⟩, m.scan_empty⟩
  · have hbelow : (fun e : String × α => decide (bytes e.1 < bytes start)) = fun e => decide (e.1 < start) :=
      funext fun e => decide_eq_decide.mpr bytes_lt_iff
    have hbegins : (fun e : String × α => (bytes start).isPrefixOf (bytes e.1)) = fun e => begins start e.1 :=
      funext fun e => Bool.eq_iff_iff.mpr (List.isPrefixOf_iff_prefix.trans begins_iff_bytes.symm)
    rw [scan, hbelow, hbegins]
  · have hbelow := List.mem_takeWhile_imp he
    exact bytes_lt_iff.mpr (of_decide_eq_true hbelow)
  · obtain ⟨habove, hnot⟩ := m.above_of_mem_dropWhile he
    exact ⟨bytes_lt_iff.mpr habove, fun hstart => hnot (begins_iff_bytes.mpr hstart)⟩

end Bytes

end DatabaseBroker.KeyMap
