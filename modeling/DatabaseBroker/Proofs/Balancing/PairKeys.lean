import DatabaseBroker.Proofs.Balancing.Precedence
import Mathlib.Data.List.Nodup
import Mathlib.Data.Set.Card
import Mathlib.Logic.Function.Basic

/-!
# Tables keyed by pairs

Rules, entries and labels stand under two names joined by a slash, and a text with a slash in it can be cut in more than one way.
A stored pair has no slash in either name, so its key is the key of no other pair, whatever that pair is made of (`pairKey_inj`).
A table of such records is then a map keyed by pairs (`KeyMap.PairTable`): an insertion and an erasure change what stands at one
pair, an erasure at a pair that cannot be stored changes nothing, and the listing of a first name holds the pairs that begin with it.
-/

namespace DatabaseBroker

/-! ## Keys -/

/-- A name that does not cut the key that it stands in. -/
def SlashFree (name : String) : Prop := '/' ∉ name.toList

/-- The key of a pair of names without a slash is the key of no other pair, of whatever names. -/
theorem pairKey_inj {a b c d : String} (ha : SlashFree a) (hb : SlashFree b) : pairKey a b = pairKey c d ↔ a = c ∧ b = d := by
  have htext : ∀ x y : String, (pairKey x y).toList = x.toList ++ '/' :: y.toList := by simp [pairKey]
  rw [← String.toList_inj, htext, htext, List.append_cons_inj_of_notMem ha hb, String.toList_inj, String.toList_inj]
  simp only [true_and]

/-- Keys of one first name tell the second. -/
theorem pairKey_right_inj {a b c : String} : pairKey a b = pairKey a c ↔ b = c := by
  refine ⟨fun h => ?_, fun h => h ▸ rfl⟩
  have htext := congrArg String.toList h
  simpa [pairKey, String.toList_inj] using htext

/-- Keys of one first name are in the order of the second. -/
theorem pairKey_lt_iff {a b c : String} : pairKey a b < pairKey a c ↔ b < c := by
  simp only [String.lt_iff, pairKey, String.toList_append]
  induction a.toList ++ "/".toList with
  | nil => rfl
  | cons x rest ih => simpa [List.cons_lt_cons_iff] using ih

/-- A name that may stand in a key of what is stored. -/
structure PlainName (name : String) : Prop where
  named : Text.isBlank name = false
  slashFree : SlashFree name

/-- Whether a name may stand in a key can be read off it. -/
theorem plainName_iff {name : String} : PlainName name ↔ Text.isBlank name = false ∧ '/' ∉ name.toList :=
  ⟨fun h => ⟨h.named, h.slashFree⟩, fun ⟨hnamed, hslash⟩ => ⟨hnamed, hslash⟩⟩

instance (name : String) : Decidable (PlainName name) := decidable_of_iff _ plainName_iff.symm

/-- The check of a name lets through those that may stand in a key. -/
theorem checkName_eq_ok_iff {kind : NameKind} {name : String} {u : Unit} : Store.checkName kind name = .ok u ↔ PlainName name := by
  unfold Store.checkName
  constructor
  · intro h
    split at h
    · cases h
    · rename_i hnamed
      split at h
      · cases h
      · rename_i hslash
        exact ⟨by simpa using hnamed, by simpa [SlashFree] using hslash⟩
  · rintro ⟨hnamed, hslash⟩
    rw [if_neg (by simp [hnamed]), if_neg (by simpa [SlashFree] using hslash)]

/-- A name that passed the check has no slash. -/
theorem slashFree_of_checkName {kind : NameKind} {name : String} {u : Unit} (h : Store.checkName kind name = .ok u) :
    SlashFree name :=
  (checkName_eq_ok_iff.mp h).slashFree

/-! ## Listings -/

/-- A listing of a map holds each of its values under its name, once and by name. -/
structure ListsByName {α : Type} (name : α → String) (listing : List α) (find? : String → Option α) : Prop where
  mem : ∀ b a, find? b = some a ↔ a ∈ listing ∧ name a = b
  ascending : (listing.map name).Pairwise (· < ·)

namespace ListsByName

variable {α : Type} {name : α → String} {listing listing' : List α} {find? find?' : String → Option α}

/-- The names of a listing are distinct. -/
theorem nodup (h : ListsByName name listing find?) : (listing.map name).Nodup := by
  refine h.ascending.imp fun {a b} hlt heq => ?_
  rw [heq] at hlt
  exact String.lt_irrefl b hlt

/-- What is picked from a listing by name are the values under the names that are picked. -/
theorem mem_names_filter_iff (h : ListsByName name listing find?) (pick : String → Bool) {b : String} :
    b ∈ (listing.filter fun a => pick (name a)).map name ↔ pick b = true ∧ (find? b).isSome = true := by
  simp only [List.mem_map, List.mem_filter, Option.isSome_iff_exists, h.mem]
  constructor
  · rintro ⟨a, ⟨ha, hpick⟩, rfl⟩
    exact ⟨hpick, a, ha, rfl⟩
  · rintro ⟨hpick, a, ha, rfl⟩
    exact ⟨a, ⟨ha, hpick⟩, rfl⟩

/-- They are as many as these names. -/
theorem length_filter (h : ListsByName name listing find?) (pick : String → Bool) :
    (listing.filter fun a => pick (name a)).length = {b | pick b = true ∧ (find? b).isSome = true}.ncard := by
  have hset : {b | pick b = true ∧ (find? b).isSome = true} =
      (((listing.filter fun a => pick (name a)).map name).toFinset : Set String) := by
    ext b
    simp only [Set.mem_ofPred_eq, List.coe_toFinset, h.mem_names_filter_iff]
  rw [hset, Set.ncard_coe_finset, List.toFinset_card_of_nodup (h.nodup.sublist (List.filter_sublist.map _)), List.length_map]

/-- Maps that are alike have one listing. -/
theorem unique (h : ListsByName name listing find?) (h' : ListsByName name listing' find?) : listing = listing' := by
  have hperm : listing.Perm listing' := by
    refine (List.perm_ext_iff_of_nodup h.nodup.of_map h'.nodup.of_map).mpr fun a => ?_
    have hmem := h.mem (name a) a
    rw [h'.mem] at hmem
    simpa using hmem.symm
  refine hperm.eq_of_pairwise (fun a b _ _ hab hba => ?_) (List.pairwise_map.mp h.ascending) (List.pairwise_map.mp h'.ascending)
  exact absurd (String.lt_trans hab hba) (String.lt_irrefl _)

end ListsByName

/-! ## Maps keyed by pairs -/

namespace KeyMap

variable {α : Type} {pair : α → String × String} {m : KeyMap α} {f : String × String → Option α}

/-- A table of records that are named by pairs, and the map that it is: every record stands under the key of its own pair, the names
of the pair have no slash, and under the key of a pair stands what the map holds for it. -/
structure PairTable (pair : α → String × String) (m : KeyMap α) (f : String × String → Option α) : Prop where
  key : ∀ key a, m.get? key = some a → pairKey (pair a).1 (pair a).2 = key
  left : ∀ key a, m.get? key = some a → SlashFree (pair a).1
  right : ∀ key a, m.get? key = some a → SlashFree (pair a).2
  get? : ∀ p, m.get? (pairKey p.1 p.2) = f p

namespace PairTable

theorem empty : (KeyMap.empty : KeyMap α).PairTable pair fun _ => none := by
  constructor <;> simp

/-- Tables of maps that agree at a pair hold the same there. -/
theorem get?_congr {m' : KeyMap α} {f' : String × String → Option α} (h : m.PairTable pair f) (h' : m'.PairTable pair f')
    {p : String × String} (hsame : f' p = f p) : m'.get? (pairKey p.1 p.2) = m.get? (pairKey p.1 p.2) := by
  rw [h'.get?, hsame, h.get?]

/-- What stands at a pair is the record of that pair. -/
theorem pair_eq (h : m.PairTable pair f) {p : String × String} {a : α} (ha : f p = some a) : pair a = p := by
  rw [← h.get? p] at ha
  exact Prod.ext_iff.mpr ((pairKey_inj (h.left _ a ha) (h.right _ a ha)).mp (h.key _ a ha))

/-- The records of a table are those that the map holds at their pairs. -/
theorem mem_values_iff (h : m.PairTable pair f) {a : α} : a ∈ m.values ↔ f (pair a) = some a := by
  rw [KeyMap.mem_values_iff]
  constructor
  · rintro ⟨key, ha⟩
    rw [← h.get?, h.key key a ha]
    exact ha
  · intro ha
    rw [← h.get?] at ha
    exact ⟨_, ha⟩

/-- Inserting a record changes what stands at its pair, and at no other pair. -/
theorem insert (h : m.PairTable pair f) {a : α} (hleft : SlashFree (pair a).1) (hright : SlashFree (pair a).2) :
    (m.insert (pairKey (pair a).1 (pair a).2) a).PairTable pair (Function.update f (pair a) (some a)) := by
  have hstored : ∀ key b, (m.insert (pairKey (pair a).1 (pair a).2) a).get? key = some b →
      (pairKey (pair a).1 (pair a).2 = key ∧ a = b) ∨ m.get? key = some b := by
    intro key b hb
    rw [get?_insert] at hb
    split at hb
    · rename_i hkey
      exact Or.inl ⟨hkey, Option.some.inj hb⟩
    · exact Or.inr hb
  refine ⟨fun key b hb => ?_, fun key b hb => ?_, fun key b hb => ?_, fun p => ?_⟩
  · rcases hstored key b hb with ⟨hkey, rfl⟩ | hb
    · exact hkey
    · exact h.key key b hb
  · rcases hstored key b hb with ⟨-, rfl⟩ | hb
    · exact hleft
    · exact h.left key b hb
  · rcases hstored key b hb with ⟨-, rfl⟩ | hb
    · exact hright
    · exact h.right key b hb
  · rw [get?_insert, Function.update_apply, h.get?]
    simp only [pairKey_inj hleft hright, ← Prod.ext_iff, eq_comm (a := p)]

/-- So it is with records one after another, where each is the value of a function at its pair. -/
theorem foldl_insert (h : m.PairTable pair f) {g : String × String → Option α} {l : List α}
    (hl : ∀ a ∈ l, SlashFree (pair a).1 ∧ SlashFree (pair a).2 ∧ g (pair a) = some a) :
    (l.foldl (fun m a => m.insert (pairKey (pair a).1 (pair a).2) a) m).PairTable pair
      fun p => if p ∈ l.map pair then g p else f p := by
  induction l generalizing m f with
  | nil => simpa using h
  | cons a rest ih =>
    obtain ⟨hleft, hright, ha⟩ := hl a List.mem_cons_self
    have hrest := ih (h.insert hleft hright) fun b hb => hl b (List.mem_cons_of_mem _ hb)
    have hmap : (fun p => if p ∈ (a :: rest).map pair then g p else f p) =
        fun p => if p ∈ rest.map pair then g p else Function.update f (pair a) (some a) p := by
      funext p
      rw [Function.update_apply]
      by_cases hp : p = pair a
      · simp [hp, ha]
      · simp [hp]
    rw [hmap]
    exact hrest

/-- Erasing what stands at a pair, of whatever names, changes what stands there, and at no other pair: another pair with the same
key is not stored, and neither is this one then. -/
theorem erase (h : m.PairTable pair f) (p : String × String) :
    (m.erase (pairKey p.1 p.2)).PairTable pair (Function.update f p none) := by
  have hstored : ∀ key b, (m.erase (pairKey p.1 p.2)).get? key = some b → m.get? key = some b := by
    intro key b hb
    rw [get?_erase] at hb
    split at hb
    · cases hb
    · exact hb
  refine ⟨fun key b hb => h.key key b (hstored key b hb), fun key b hb => h.left key b (hstored key b hb),
    fun key b hb => h.right key b (hstored key b hb), fun q => ?_⟩
  rw [get?_erase, Function.update_apply, h.get?]
  by_cases hq : q = p
  · simp [hq]
  · rw [if_neg hq]
    split
    · rename_i hkey
      symm
      refine Option.eq_none_iff_forall_ne_some.mpr fun a ha => hq ?_
      have hp : f p = some a := by rw [← h.get? p, hkey, h.get? q, ha]
      exact (h.pair_eq ha).symm.trans (h.pair_eq hp)
    · rfl

/-- So it is with pairs one after another. -/
theorem foldl_erase (h : m.PairTable pair f) (l : List (String × String)) :
    (l.foldl (fun m p => m.erase (pairKey p.1 p.2)) m).PairTable pair fun p => if p ∈ l then none else f p := by
  induction l generalizing m f with
  | nil => simpa using h
  | cons p rest ih =>
    have hmap : (fun q => if q ∈ p :: rest then none else f q) =
        fun q => if q ∈ rest then none else Function.update f p none q := by
      funext q
      rw [Function.update_apply]
      by_cases hq : q = p
      · simp [hq]
      · simp [hq]
    rw [hmap]
    exact ih (h.erase p)

/-- The records that a scan for a first name finds and that have it are those of the pairs that begin with it. A scan alone would
also find pairs whose first name goes on after a slash. -/
theorem listing (h : m.PairTable pair f) (first : String) :
    ListsByName (fun a => (pair a).2) ((m.scan (pairKey first "")).filter fun a => (pair a).1 = first)
      fun second => f (first, second) := by
  have hlisted : (m.scan (pairKey first "")).filter (fun a => (pair a).1 = first) =
      (m.entries.filter fun e => (pair e.2).1 = first).map (·.2) := by
    rw [scan_eq, List.filter_map, List.filter_filter]
    congr 1
    refine List.filter_congr fun e he => ?_
    have hkey : pairKey (pair e.2).1 (pair e.2).2 = e.1 := h.key e.1 e.2 (get?_eq_some_iff.mpr he)
    by_cases hfirst : (pair e.2).1 = first
    · have hbegins : begins (pairKey first "") e.1 = true := by
        rw [← hkey, hfirst]
        exact begins_pairKey first _
      simp [hfirst, hbegins]
    · simp [hfirst]
  rw [hlisted]
  refine ⟨fun second a => ?_, ?_⟩
  · simp only [List.mem_map, List.mem_filter, decide_eq_true_eq]
    constructor
    · intro ha
      have hpair := h.pair_eq ha
      rw [← h.get?] at ha
      exact ⟨⟨_, ⟨get?_eq_some_iff.mp ha, by rw [hpair]⟩, rfl⟩, by rw [hpair]⟩
    · rintro ⟨⟨e, ⟨he, hfirst⟩, rfl⟩, hsecond⟩
      have hstored := get?_eq_some_iff.mpr he
      have hkey := h.key e.1 e.2 hstored
      rw [hfirst, hsecond] at hkey
      rw [← h.get?, hkey]
      exact hstored
  · rw [List.map_map, List.pairwise_map]
    refine (m.ascending.filter _).imp_of_mem fun {e e'} he he' hlt => ?_
    obtain ⟨he, hfirst⟩ := List.mem_filter.mp he
    obtain ⟨he', hfirst'⟩ := List.mem_filter.mp he'
    rw [← h.key e.1 e.2 (get?_eq_some_iff.mpr he), ← h.key e'.1 e'.2 (get?_eq_some_iff.mpr he')] at hlt
    rw [decide_eq_true_eq] at hfirst hfirst'
    rw [hfirst, hfirst'] at hlt
    exact pairKey_lt_iff.mp hlt

end PairTable

end KeyMap

end DatabaseBroker
