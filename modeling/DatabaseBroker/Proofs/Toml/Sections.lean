import DatabaseBroker.Toml
import Mathlib.Data.List.Nodup

/-!
# The table of a file with sections

A file may set values under keys, and then open one section after another and set values in it. Where no key and no section is named twice, its
table has the keys and the sections in the order of the file (`ofStatements_sections`).
-/

namespace DatabaseBroker.Toml

variable {root members : Members} {name : String}

/-- A name that no other has is not among those before it. -/
theorem not_mem_front {names names' : List String} (h : (names ++ name :: names').Nodup) : name ∉ names :=
  fun hmem => (List.nodup_cons.mp (List.nodup_middle.mp h)).1 (List.mem_append_left _ hmem)

/-- A key that stands for nothing. -/
theorem lookup_eq_none (h : name ∉ members.map (·.1)) : members.lookup name = none := by
  rw [List.lookup_eq_none_iff]
  intro e he
  have hne : name ≠ e.1 := fun heq => h (heq ▸ List.mem_map_of_mem he)
  simpa using hne

/-- The last member is found under its key, if none before it has the key. -/
theorem lookup_append_singleton (h : name ∉ root.map (·.1)) (value : Toml) : (root ++ [(name, value)]).lookup name = some value := by
  rw [List.lookup_append, lookup_eq_none h]
  simp

/-- A new value in the place of the last member leaves the others as they are. -/
theorem replace_append_singleton (h : name ∉ root.map (·.1)) (value value' : Toml) :
    replace (root ++ [(name, value)]) name value' = root ++ [(name, value')] := by
  have hothers : root.map (fun e => if e.1 = name then (name, value') else e) = root := by
    rw [List.map_congr_left (g := id), List.map_id]
    intro e he
    have hne : e.1 ≠ name := fun heq => h (heq ▸ List.mem_map_of_mem he)
    exact if_neg hne
  rw [replace, List.map_append, hothers]
  simp

/-- A value that is set under a key that is not there yet. -/
theorem set_last (h : name ∉ members.map (·.1)) (value : Toml) (origin : Origin) :
    set ⟨[], name⟩ value origin members = some (members ++ [(name, value)]) := by
  simp [Toml.set, alter, lookup_eq_none h]

/-- The statement that sets a member. -/
def pairOf (e : String × Toml) : Statement := .pair ⟨[], e.1⟩ e.2

/-- The statements that open a section and set its members. -/
def sectionOf (s : String × Members) : List Statement := .header ⟨[], s.1⟩ :: s.2.map pairOf

/-- The table of a section. -/
def tableOf (s : String × Members) : String × Toml := (s.1, .table .header s.2)

/-- Members that are set before any section is opened. -/
theorem foldlM_pairs (added : Members) (h : (root.map (·.1) ++ added.map (·.1)).Nodup) :
    (added.map pairOf).foldlM Statement.apply ⟨[], root⟩ = some ⟨[], root ++ added⟩ := by
  induction added generalizing root with
  | nil => simp
  | cons e rest ih =>
    have hnew : e.1 ∉ root.map (·.1) := not_mem_front h
    have hstep : Statement.apply ⟨[], root⟩ (pairOf e) = some ⟨[], root ++ [e]⟩ := by
      simp [pairOf, Statement.apply, alter, set_last hnew]
    rw [List.map_cons, List.foldlM_cons, hstep, Option.bind_eq_bind, Option.bind_some, ih (by simpa using h)]
    simp

/-- Members that are set in the section that was opened last. -/
theorem foldlM_section (hname : name ∉ root.map (·.1)) (added : Members) (h : (members.map (·.1) ++ added.map (·.1)).Nodup) :
    (added.map pairOf).foldlM Statement.apply ⟨[name], root ++ [tableOf (name, members)]⟩ =
      some ⟨[name], root ++ [tableOf (name, members ++ added)]⟩ := by
  induction added generalizing members with
  | nil => simp
  | cons e rest ih =>
    have hnew : e.1 ∉ members.map (·.1) := not_mem_front h
    have hstep : Statement.apply ⟨[name], root ++ [tableOf (name, members)]⟩ (pairOf e) =
        some ⟨[name], root ++ [tableOf (name, members ++ [e])]⟩ := by
      simp [pairOf, tableOf, Statement.apply, alter, lookup_append_singleton hname, set_last hnew, replace_append_singleton hname]
    rw [List.map_cons, List.foldlM_cons, hstep, Option.bind_eq_bind, Option.bind_some, ih (by simpa using h)]
    simp

/-- Sections that are opened one after another, each with members of its own. -/
theorem foldlM_sections (sections : List (String × Members)) (hnames : (root.map (·.1) ++ sections.map (·.1)).Nodup)
    (hmembers : ∀ s ∈ sections, (s.2.map (·.1)).Nodup) (path : List String) :
    ∃ path', (sections.flatMap sectionOf).foldlM Statement.apply ⟨path, root⟩ = some ⟨path', root ++ sections.map tableOf⟩ := by
  induction sections generalizing root path with
  | nil => exact ⟨path, by simp⟩
  | cons s rest ih =>
    have hnew : s.1 ∉ root.map (·.1) := not_mem_front hnames
    have hopen : Statement.apply ⟨path, root⟩ (.header ⟨[], s.1⟩) = some ⟨[s.1], root ++ [tableOf (s.1, [])]⟩ := by
      simp [Statement.apply, openTable, alter, lookup_eq_none hnew, tableOf, DottedKey.whole]
    have hset : (s.2.map pairOf).foldlM Statement.apply ⟨[s.1], root ++ [tableOf (s.1, [])]⟩ = some ⟨[s.1], root ++ [tableOf s]⟩ :=
      foldlM_section hnew s.2 (by simpa using hmembers s List.mem_cons_self)
    have hrest : ((root ++ [tableOf s]).map (·.1) ++ rest.map (·.1)).Nodup := by
      simpa [tableOf] using hnames
    obtain ⟨path', hsections⟩ := ih hrest (fun s' hs' => hmembers s' (List.mem_cons_of_mem _ hs')) [s.1]
    refine ⟨path', ?_⟩
    simp only [List.flatMap_cons, List.foldlM_append, sectionOf, List.foldlM_cons, hopen, hset, hsections, Option.bind_eq_bind,
      Option.bind_some]
    simp

/-- The table of a file that sets members and then opens sections. -/
theorem ofStatements_sections (top : Members) (sections : List (String × Members))
    (hnames : (top.map (·.1) ++ sections.map (·.1)).Nodup) (hmembers : ∀ s ∈ sections, (s.2.map (·.1)).Nodup) :
    ofStatements (top.map pairOf ++ sections.flatMap sectionOf) = some (table .header (top ++ sections.map tableOf)) := by
  have htop : (top.map pairOf).foldlM Statement.apply ⟨[], []⟩ = some ⟨[], [] ++ top⟩ :=
    foldlM_pairs top (by simpa using (List.nodup_append.mp hnames).1)
  obtain ⟨path, hsections⟩ := foldlM_sections sections hnames hmembers []
  rw [List.nil_append] at htop
  simp only [ofStatements, List.foldlM_append, htop, hsections, Option.bind_eq_bind, Option.bind_some]

end DatabaseBroker.Toml
