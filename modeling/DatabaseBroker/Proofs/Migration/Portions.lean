import DatabaseBroker.Proofs.Migration.Handouts

/-!
# Portions

The portion of a live instruction that was handed out last is the first of its entries. So an adapter that acknowledges each portion
when it gets it is handed every pending database once, in the order of the entries, and the migration is completed with the last
portion (`portions_cover_entries`). An entry is read back each time that its instruction is stored, though, so a float among the
connection properties of a portion may be a neighbour of the one that is listed (`portions_differ_from_entries`).
-/

namespace DatabaseBroker

open Store

/-! ## An adapter that acknowledges each portion -/

/-- What an adapter does with a portion that it is handed: at a time it acknowledges exactly the databases of the portion, with
whatever it made for them. -/
structure Turn where
  time : UInt64
  made : List AdditionalRoles → List Success
  exact : ∀ portion, ((made portion).map (·.databaseId)).Perm (portion.map (·.databaseId))

namespace Store

/-- The answers to an adapter that takes turns from a portion on, until it is handed no other. -/
def takeTurns (size : Nat) (physicalDatabaseId instructionId : String) :
    Store → List AdditionalRoles → List Turn → List (Except RegistryError MigrationStep)
  | _, _, [] => []
  | s, portion, t :: rest =>
    match s.acknowledge t.time size physicalDatabaseId instructionId ⟨t.made portion, none⟩ with
    | (.ok (.portion id next), s') => .ok (.portion id next) :: takeTurns size physicalDatabaseId instructionId s' next rest
    | (answer, _) => [answer]

variable {s : Store} {i : Instruction} {size : Nat}

/-- Without the databases that come first, the entries of the others are left. -/
theorem entries_without_take (hdistinct : i.databaseIds.Nodup) {k : Nat} {ids : List String}
    (hids : ids.Perm (i.databaseIds.take k)) : (i.without ids).entries = i.entries.drop k := by
  have hsplit : i.databaseIds = (i.entries.take k).map (·.databaseId) ++ (i.entries.drop k).map (·.databaseId) := by
    rw [← List.map_append, List.take_append_drop, Instruction.databaseIds]
  rw [← i.map_take_entries k] at hids
  rw [hsplit, List.nodup_append] at hdistinct
  have hfirst : (i.entries.take k).filter (fun e => !ids.contains e.databaseId) = [] := by
    refine List.filter_eq_nil_iff.mpr fun e he => ?_
    have hmem : e.databaseId ∈ ids := hids.mem_iff.mpr (List.mem_map_of_mem he)
    simpa using hmem
  have hrest : (i.entries.drop k).filter (fun e => !ids.contains e.databaseId) = i.entries.drop k := by
    refine List.filter_eq_self.mpr fun e he => ?_
    have hnot : e.databaseId ∉ ids := fun hmem =>
      hdistinct.2.2 _ (hids.mem_iff.mp hmem) _ (List.mem_map_of_mem he) rfl
    simpa using hnot
  change i.entries.filter (fun e => !ids.contains e.databaseId) = _
  conv => lhs; rw [← List.take_append_drop k i.entries]
  rw [List.filter_append, hfirst, hrest, List.nil_append]

/-- An acknowledgement of exactly the first entries hands out the next ones, or completes the migration if there are none. -/
theorem MigrationsSound.acknowledge_first (h : s.MigrationsSound) (hi : s.instruction? i.id = some i) {k : Nat}
    {portion : List AdditionalRoles} (hportion : portion.map (·.databaseId) = i.databaseIds.take k) (t : Turn)
    {answer : Except RegistryError MigrationStep} {s' : Store}
    (hanswer : s.acknowledge t.time size i.physicalDatabaseId i.id ⟨t.made portion, none⟩ = (answer, s')) :
    (i.entries.drop k = [] ∧ ∃ target, answer = .ok (.completed target)) ∨
    (i.entries.drop k ≠ [] ∧ answer = .ok (.portion i.id ((i.entries.drop k).take size)) ∧ s'.MigrationsSound ∧
      ∃ i', s'.instruction? i.id = some i' ∧ i'.id = i.id ∧ i'.physicalDatabaseId = i.physicalDatabaseId ∧
        i'.entries = (i.entries.drop k).map (·.reread)) := by
  have hcase : s.Acknowledged t.time size i.physicalDatabaseId i.id ⟨t.made portion, none⟩ answer s' := by
    have hcase := s.acknowledged t.time size i.physicalDatabaseId i.id ⟨t.made portion, none⟩
    rwa [hanswer] at hcase
  have hdistinct : i.databaseIds.Nodup := (h.sound _ i.id i hi rfl).covers.distinct
  have hids : ((t.made portion).map (·.databaseId)).Perm (i.databaseIds.take k) := hportion ▸ t.exact portion
  have hleft := entries_without_take hdistinct hids
  have hadmits : i.Admits (t.made portion) := by
    refine ⟨hids.nodup_iff.mpr (hdistinct.sublist (List.take_sublist ..)), fun d hd => ?_⟩
    have hmem : d.databaseId ∈ i.databaseIds := List.mem_of_mem_take (hids.mem_iff.mp (List.mem_map_of_mem hd))
    exact List.mem_map.mp hmem
  cases answer with
  | error e =>
    obtain ⟨⟨reason, -, hrefuses⟩, -⟩ := h.refused hi hcase
    exact absurd ⟨rfl, hadmits⟩ hrefuses.not_admits
  | ok step =>
    obtain ⟨-, hadvanced, -⟩ := h.taken hi hcase
    by_cases hnil : i.entries.drop k = []
    · obtain ⟨_, target, -, -, rfl, -⟩ := hadvanced.completed (hleft.trans hnil)
      exact Or.inl ⟨hnil, target, rfl⟩
    · obtain ⟨rfl, -, hinstructions, -⟩ := hadvanced.pending _ rfl (by rwa [hleft])
      let j := i.without ((t.made portion).map (·.databaseId))
      refine Or.inr ⟨hnil, by simp only [hleft], h.acknowledged hcase, (j.handOut t.time (j.entries.take size)).reread, ?_,
        rfl, rfl, ?_⟩
      · rw [instruction?, hinstructions, KeyMap.get?_insert_self]
      · exact congrArg (List.map AdditionalRoles.reread) hleft

/-- Of what is left, one portion takes one round. -/
theorem rounds_eq_succ {left : Nat} (hsize : 0 < size) (hleft : 0 < left) :
    (left + size - 1) / size = (left - size + size - 1) / size + 1 := by
  have hround : left + size - 1 = left - 1 + size := by omega
  rw [hround, Nat.add_div_right _ hsize]
  by_cases hle : left ≤ size
  · rw [Nat.div_eq_of_lt (show left - 1 < size by omega), Nat.div_eq_of_lt (show left - size + size - 1 < size by omega)]
  · rw [Nat.sub_add_cancel (by omega)]

/-- An adapter that takes turns is handed the entries that are left, in order and in portions, each read back once more than the
one before, and then the migration is completed. Of the entries that are left it is known what they were `n` times ago. -/
theorem MigrationsSound.takeTurns_eq {turns : List Turn} (hsize : 0 < size) (h : s.MigrationsSound)
    (hi : s.instruction? i.id = some i) {k : Nat} {portion left : List AdditionalRoles} {n : Nat}
    (hportion : portion.map (·.databaseId) = i.databaseIds.take k)
    (hleft : i.entries.drop k = left.map (AdditionalRoles.reread^[n]))
    (hturns : turns.length = 1 + (left.length + size - 1) / size) :
    ∃ (listed : List (List AdditionalRoles)) (target : PhysicalDatabase),
      takeTurns size i.physicalDatabaseId i.id s portion turns =
        (listed.mapIdx fun m part => part.map (AdditionalRoles.reread^[n + m])).map (fun portion => .ok (.portion i.id portion)) ++
          [.ok (.completed target)] ∧
      listed.length = (left.length + size - 1) / size ∧ listed.flatten = left ∧
      ∀ part ∈ listed, 0 < part.length ∧ part.length ≤ size := by
  induction turns generalizing s i k portion left n with
  | nil =>
    rw [List.length_nil, Nat.add_comm] at hturns
    cases hturns
  | cons t rest ih =>
    rcases hanswer : s.acknowledge t.time size i.physicalDatabaseId i.id ⟨t.made portion, none⟩ with ⟨answer, s'⟩
    rcases h.acknowledge_first hi hportion t hanswer with ⟨hnil, target, rfl⟩ | ⟨hne, rfl, hs', i', hi', hid, hp, hentries⟩
    · rw [hleft, List.map_eq_nil_iff] at hnil
      subst hnil
      refine ⟨[], target, ?_, ?_, rfl, by simp⟩
      · simp only [takeTurns, hanswer]
        rfl
      · rw [List.length_nil, List.length_nil, Nat.div_eq_of_lt (by omega)]
    · have hpos : 0 < left.length := by
        rw [hleft, ne_eq, List.map_eq_nil_iff] at hne
        exact List.length_pos_iff.mpr hne
      have hportion' : ((i.entries.drop k).take size).map (·.databaseId) = i'.databaseIds.take size := by
        simp only [Instruction.databaseIds, hentries, List.map_map, List.map_take]
        rfl
      have hleft' : i'.entries.drop size = (left.drop size).map (AdditionalRoles.reread^[n + 1]) := by
        rw [hentries, hleft, ← List.map_drop, ← List.map_drop, List.map_map, Function.iterate_succ']
      have hrounds := rounds_eq_succ hsize hpos
      have hturns' : rest.length = 1 + ((left.drop size).length + size - 1) / size := by
        rw [List.length_cons, hrounds] at hturns
        rw [List.length_drop]
        omega
      obtain ⟨listed, target, htake, hlength, hflat, hbounds⟩ := ih hs' (hid.symm ▸ hi') hportion' hleft' hturns'
      refine ⟨left.take size :: listed, target, ?_, ?_, ?_, ?_⟩
      · rw [hid, hp] at htake
        simp only [takeTurns, hanswer, htake, List.mapIdx_cons, List.map_cons, List.cons_append, Nat.add_zero, Nat.add_assoc,
          Nat.add_comm 1]
        rw [hleft, List.map_take]
      · rw [List.length_cons, hlength, hrounds, List.length_drop]
      · rw [List.flatten_cons, hflat, List.take_append_drop]
      · rintro part (_ | ⟨_, hpart⟩)
        · rw [List.length_take]
          omega
        · exact hbounds part hpart

end Store

/-- What does not see a change that depends on the place of a list is the same of all lists put end to end. -/
theorem map_flatten_mapIdx {α β : Type} {f : Nat → α → α} {g : α → β} {l : List (List α)}
    (h : ∀ n, ∀ a ∈ l.flatten, g (f n a) = g a) :
    (l.mapIdx fun n part => part.map (f n)).flatten.map g = l.flatten.map g := by
  induction l generalizing f with
  | nil => rfl
  | cons part rest ih =>
    have hrest := ih (f := fun n => f (n + 1)) fun n a ha => h (n + 1) a (List.mem_append_right _ ha)
    have hpart : (part.map (f 0)).map g = part.map g := by
      rw [List.map_map]
      exact List.map_congr_left fun a ha => h 0 a (List.mem_append_left _ ha)
    rw [List.mapIdx_cons, List.flatten_cons, List.flatten_cons, List.map_append, List.map_append, hpart, hrest]

/-- Portions after any history, in three parts.
1. A live instruction is in progress, and its current portion is not empty, holds no more databases than a portion may, and comes
   first among the databases of its entries.
2. That is the portion that was handed out last. Read back, once when it was handed out and any number of times since, it is what
   the instruction lists first; so it is that, if its values read back as themselves.
3. When the adapter acknowledges exactly the portion that it was handed last, and then exactly each that it is handed, every
   answer but the last one hands it a portion, of one entry at least and no more than a portion may have; the last answer says
   that the migration is completed, after one acknowledgement and one for each portion that the other entries make. The portions
   put end to end name the databases of the entries in order. They are the entries as they were listed, those of each portion
   read back once more than those of the one before, so with values that read back as themselves they are the entries. -/
theorem portions_cover_entries (env : Surroundings) (events : List Event) (id : String) (i : Instruction)
    (hi : (replay env events).store.instruction? id = some i) :
    (i.state = .inProgress ∧ ∃ portion, i.currentPortion = some portion ∧ portion ≠ [] ∧
      portion.length ≤ env.portionSize ∧ portion <+: i.entries.map (·.databaseId)) ∧
    (∃ last again, Broker.start.lastHandedOut? env id events = some last ∧
      i.currentPortion = some (last.map (·.databaseId)) ∧
      i.entries.take last.length = last.map (AdditionalRoles.reread^[again + 1]) ∧
      ((∀ e ∈ last, e.Steady) → i.entries.take last.length = last)) ∧
    ∀ (first : List AdditionalRoles) (turns : List Turn), i.currentPortion = some (first.map (·.databaseId)) →
      turns.length = 1 + (i.entries.length - first.length + env.portionSize - 1) / env.portionSize →
      ∃ (portions : List (List AdditionalRoles)) (target : PhysicalDatabase),
        takeTurns env.portionSize i.physicalDatabaseId id (replay env events).store first turns =
          portions.map (fun portion => .ok (.portion id portion)) ++ [.ok (.completed target)] ∧
        turns.length = 1 + portions.length ∧
        (∀ portion ∈ portions, 0 < portion.length ∧ portion.length ≤ env.portionSize) ∧
        (first ++ portions.flatten).map (·.databaseId) = i.entries.map (·.databaseId) ∧
        (∃ listed : List (List AdditionalRoles), i.entries.take first.length ++ listed.flatten = i.entries ∧
          portions = listed.mapIdx fun n part => part.map (AdditionalRoles.reread^[n])) ∧
        ((∀ e ∈ i.entries, e.Steady) → i.entries.take first.length ++ portions.flatten = i.entries) := by
  have hmigrations := (Broker.consistent_replay env events).migrations
  have hissued := Broker.issued_replay env events id i hi
  obtain ⟨last, again, hlast, hoffers⟩ := Broker.offers_replay env events id i hi
  obtain rfl : i.id = id := hmigrations.tabled.instruction_id _ _ hi
  refine ⟨⟨hissued.inProgress, hissued.portion⟩, ⟨last, again, hlast, hoffers.current, hoffers.take_eq, fun hsteady => ?_⟩,
    fun first turns hfirst hturns => ?_⟩
  · rw [hoffers.take_eq]
    exact map_eq_self_iff.mpr fun e he => AdditionalRoles.iterate_reread_of_steady (hsteady e he) (again + 1)
  obtain ⟨_, hportion, -, -, hpre⟩ := hissued.portion
  obtain rfl := Option.some.inj (hfirst.symm.trans hportion)
  have hids : first.map (·.databaseId) = i.databaseIds.take first.length := by
    rw [List.prefix_iff_eq_take.mp hpre, List.length_map]
  have hleft : i.entries.drop first.length = (i.entries.drop first.length).map (AdditionalRoles.reread^[0]) :=
    (List.map_id _).symm
  have hrounds : turns.length = 1 + ((i.entries.drop first.length).length + env.portionSize - 1) / env.portionSize := by
    rw [hturns, List.length_drop]
  obtain ⟨listed, target, htake, hlength, hflat, hbounds⟩ :=
    hmigrations.takeTurns_eq env.portionSize_pos hi hids hleft hrounds
  simp only [Nat.zero_add] at htake
  refine ⟨listed.mapIdx fun n part => part.map (AdditionalRoles.reread^[n]), target, ?_, ?_, ?_, ?_,
    ⟨listed, by rw [hflat, List.take_append_drop], rfl⟩, fun hsteady => ?_⟩
  · exact htake
  · rw [hrounds, List.length_mapIdx, hlength]
  · intro portion hportion
    obtain ⟨n, hn, rfl⟩ := List.mem_mapIdx.mp hportion
    rw [List.length_map]
    exact hbounds _ (List.getElem_mem hn)
  · rw [List.map_append, map_flatten_mapIdx fun n e _ => e.databaseId_iterate_reread n, hflat, hids, ← i.map_take_entries,
      ← List.map_append, List.take_append_drop]
  · have hsame := map_flatten_mapIdx (f := fun n => AdditionalRoles.reread^[n]) (g := id) (l := listed) fun n e he =>
      AdditionalRoles.iterate_reread_of_steady (hsteady e (List.mem_of_mem_drop (hflat ▸ he))) n
    rw [List.map_id, List.map_id] at hsame
    rw [hsame, hflat, List.take_append_drop]

/-- A turn in which the adapter makes nothing of its own for any database. -/
def Turn.plain (time : UInt64) : Turn where
  time := time
  made portion := portion.map fun e => ⟨e.databaseId, [], []⟩
  exact portion := by simp [Function.comp_def]

/-- In the sample of a migration, portions of one entry take two acknowledgements for the two databases. -/
theorem portions_of_sampleMigration :
    let answers := takeTurns 1 "pg" "instr-#1" (replay (.numbered 1) sampleMigration).store [⟨"ldb-#1", [], [], []⟩]
      [.plain 7, .plain 8]
    ∃ (portions : List (List AdditionalRoles)) (target : PhysicalDatabase),
      answers = portions.map (fun portion => .ok (.portion "instr-#1" portion)) ++ [.ok (.completed target)] ∧
      portions.length = 1 ∧ portions.flatten.map (·.databaseId) = ["ldb-#2"] := by
  intro answers
  have hlive : ((replay (.numbered 1) sampleMigration).store.instruction? "instr-#1").any (fun i =>
      decide (i.physicalDatabaseId = "pg" ∧ i.entries.map (·.databaseId) = ["ldb-#1", "ldb-#2"] ∧
        i.currentPortion = some ["ldb-#1"])) = true := by decide +kernel
  obtain ⟨i, hi, hlive⟩ := (Option.any_eq_true _ _).mp hlive
  obtain ⟨hp, hids, hfirst⟩ := of_decide_eq_true hlive
  have hlength : i.entries.length = 2 := by simpa using congrArg List.length hids
  have hrounds : 2 = 1 + (i.entries.length - 1 + 1 - 1) / 1 := by rw [hlength]
  obtain ⟨portions, target, hanswers, hturns, -, hall, -⟩ :=
    (portions_cover_entries (.numbered 1) sampleMigration "instr-#1" i hi).2.2 [⟨"ldb-#1", [], [], []⟩] [.plain 7, .plain 8]
      hfirst hrounds
  rw [hp] at hanswers
  refine ⟨portions, target, hanswers, ?_, ?_⟩
  · have hturns : 2 = 1 + portions.length := hturns
    omega
  · simpa [hids] using hall

/-! ## Portions that drift -/

/-- The weight of the last entry of a list. -/
def lastWeight? (entries : List AdditionalRoles) : Option Json :=
  entries.getLast?.bind fun e => e.connectionProperties.head?.bind (·.get? "weight")

/-- Entries with other weights at their ends are other entries. -/
theorem ne_of_lastWeight? {l l' : List AdditionalRoles} (h : Json.sameOption (lastWeight? l) (lastWeight? l') = false) :
    l ≠ l' := by
  rintro rfl
  cases hweight : lastWeight? l <;> simp [hweight, Json.sameOption, Json.same_refl] at h

/-- Portions put end to end need not be the entries as they are listed: in the sample of weights the one portion, which is handed out
when the other role is declared and completes the migration when it is acknowledged, has another weight than the one entry, and not
even one that is the same number. -/
theorem portions_differ_from_entries :
    let s := (replay (.numbered 1) sampleWeights).store
    ∃ (i : Instruction) (portion : List AdditionalRoles) (target : PhysicalDatabase), s.instruction? "instr-#2" = some i ∧
      Broker.start.lastHandedOut? (.numbered 1) "instr-#2" sampleWeights = some portion ∧
      takeTurns 1 "pg" "instr-#2" s portion [.plain 9] = [.ok (.completed target)] ∧ portion ≠ i.entries := by
  intro s
  have hsound : s.MigrationsSound := (Broker.consistent_replay (.numbered 1) sampleWeights).migrations
  have hdrifted : (s.instruction? "instr-#2").any (fun i =>
      (Broker.start.lastHandedOut? (.numbered 1) "instr-#2" sampleWeights).any fun portion =>
        decide (i.physicalDatabaseId = "pg" ∧ i.entries.length = 1 ∧
          portion.map (·.databaseId) = i.databaseIds.take 1 ∧
          Json.sameOption (lastWeight? portion) (lastWeight? i.entries) = false)) = true := by decide +kernel
  obtain ⟨i, hi, hdrifted⟩ := (Option.any_eq_true _ _).mp hdrifted
  obtain ⟨portion, hportion, hdrifted⟩ := (Option.any_eq_true _ _).mp hdrifted
  obtain ⟨hp, hlength, hids, hweight⟩ := of_decide_eq_true hdrifted
  have hid : i.id = "instr-#2" := hsound.tabled.instruction_id _ _ hi
  -- no entry is left when the portion is acknowledged
  have hleft : i.entries.drop 1 = ([] : List AdditionalRoles).map (AdditionalRoles.reread^[0]) := by
    rw [List.map_nil, List.drop_eq_nil_iff, hlength]
  have hturns : [Turn.plain 9].length = 1 + (([] : List AdditionalRoles).length + 1 - 1) / 1 := rfl
  obtain ⟨listed, target, hanswers, hnone, -⟩ := hsound.takeTurns_eq Nat.one_pos (hid ▸ hi) hids hleft hturns
  obtain rfl : listed = [] := List.length_eq_zero_iff.mp hnone
  rw [hp, hid] at hanswers
  exact ⟨i, portion, target, hi, hportion, hanswers, ne_of_lastWeight? hweight⟩

end DatabaseBroker
