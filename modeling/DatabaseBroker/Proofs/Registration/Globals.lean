import DatabaseBroker.Proofs.Binding.References

/-!
# The global physical database of a type

The flag is written where a physical database is registered first, where it is made global, and where the target of a migration
takes its place, and the last of these stores a declaration that was captured before others were made global. `Store.OneGlobal`
says of what is registered that each type has one global physical database and no other. Each operation keeps it
(`Broker.Effect.oneGlobal`): a target takes the flag that its physical database has by then, and what is global is not
deregistered. So rules may lead nowhere, but no request for a type that has a physical database does (`one_global_of_registered`).
-/

namespace DatabaseBroker

/-- Resolution leads somewhere where a physical database of the type is global, whatever the rules say. -/
theorem RoutingView.resolve?_isSome (v : RoutingView) {r : Route}
    (h : ((v.physicals r.dbType).find? (·.global)).isSome = true) : (v.resolve? r).isSome = true := by
  have hlast : (v.decideGlobal? r).isSome = true := by rwa [decideGlobal?, Option.isSome_map]
  simp only [resolve?, Option.orElse_eq_orElse, Option.orElse_eq_or, Option.isSome_or, hlast, Bool.or_true]

namespace Store

/-- The type of the physical database of an id, and whether it is global. -/
def standing? (s : Store) (id : String) : Option (String × Bool) := (s.physical? id).map fun p => (p.dbType, p.global)

/-- Each type with which a physical database is registered has one that is global, and no other. -/
structure OneGlobal (s : Store) : Prop where
  has : ∀ dbType id global, s.standing? id = some (dbType, global) → ∃ id', s.standing? id' = some (dbType, true)
  one : ∀ dbType id id', s.standing? id = some (dbType, true) → s.standing? id' = some (dbType, true) → id = id'

variable {s s' : Store} {dbType : String}

theorem standing?_eq_some_iff {id : String} {global : Bool} :
    s.standing? id = some (dbType, global) ↔ ∃ p, s.physical? id = some p ∧ p.dbType = dbType ∧ p.global = global := by
  simp only [standing?, Option.map_eq_some_iff, Prod.mk.injEq]

theorem standing?_eq_none_iff {id : String} : s.standing? id = none ↔ s.physical? id = none := by
  simp only [standing?, Option.map_eq_none_iff]

/-- Storing a physical database changes how that one stands and no other. -/
theorem standing?_putPhysical (s : Store) (p : PhysicalDatabase) (id : String) :
    (s.putPhysical p).standing? id = if p.id = id then some (p.dbType, p.global) else s.standing? id := by
  simp only [standing?, physical?_putPhysical]
  split <;> rfl

/-- The global physical database of a type is one that stands as such. -/
theorem standing?_of_globalOf? {p : PhysicalDatabase} (h : s.globalOf? dbType = some p) :
    p.global = true ∧ p.dbType = dbType ∧ ∃ id, s.physical? id = some p ∧ s.standing? id = some (dbType, true) := by
  obtain ⟨⟨id, hp⟩, htype⟩ := mem_physicalsOf_iff.mp (List.mem_of_find?_eq_some h)
  have hglobal : p.global = true := List.find?_some h
  exact ⟨hglobal, htype, id, hp, standing?_eq_some_iff.mpr ⟨p, hp, htype, hglobal⟩⟩

/-- A type has no global physical database when none stands as such. -/
theorem globalOf?_eq_none_iff : s.globalOf? dbType = none ↔ ∀ id, s.standing? id ≠ some (dbType, true) := by
  constructor
  · intro hnone id hid
    obtain ⟨p, hp, htype, hglobal⟩ := standing?_eq_some_iff.mp hid
    exact List.find?_eq_none.mp hnone p (mem_physicalsOf_iff.mpr ⟨⟨id, hp⟩, htype⟩) hglobal
  · intro hnone
    cases hfound : s.globalOf? dbType with
    | none => rfl
    | some p =>
      obtain ⟨-, -, id, -, hid⟩ := standing?_of_globalOf? hfound
      exact absurd hid (hnone id)

namespace OneGlobal

theorem empty : Store.empty.OneGlobal := by
  constructor <;> simp [standing?, physical?, Store.empty]

/-- Where every physical database stands as before, each type has its global one as before. -/
theorem of_standing (h : s.OneGlobal) (hsame : ∀ id, s'.standing? id = s.standing? id) : s'.OneGlobal := by
  constructor
  · simpa only [hsame] using h.has
  · simpa only [hsame] using h.one

theorem of_physicals (h : s.OneGlobal) (hsame : s'.physicals = s.physicals) : s'.OneGlobal :=
  h.of_standing fun id => by rw [standing?, standing?, physical?, physical?, hsame]

/-- A first registration makes the physical database global exactly when its type has no global one. -/
theorem registerNew (h : s.OneGlobal) {id : String} (hnew : s.physical? id = none) (now : UInt64) (r : Registration) :
    (s.registerNew now id dbType r).2.OneGlobal := by
  have hnone : s.standing? id = none := standing?_eq_none_iff.mpr hnew
  have hstands : ∀ id', (s.registerNew now id dbType r).2.standing? id' =
      if id = id' then some (dbType, (s.globalOf? dbType).isNone) else s.standing? id' :=
    s.standing?_putPhysical (.register id dbType (s.globalOf? dbType).isNone now r)
  generalize (s.registerNew now id dbType r).2 = s' at hstands
  -- Another one of the type is global exactly when the new one is not.
  have hother : ∀ dbType' id', s.standing? id' = some (dbType', true) → s'.standing? id' = some (dbType', true) := by
    intro dbType' id' hid'
    have hne : id ≠ id' := by
      rintro rfl
      rw [hnone] at hid'
      cases hid'
    rw [hstands, if_neg hne, hid']
  refine ⟨fun dbType' id' global hid' => ?_, fun dbType' id₁ id₂ h₁ h₂ => ?_⟩
  · rw [hstands] at hid'
    split at hid'
    · cases hid'
      cases hglobal : s.globalOf? dbType with
      | none => exact ⟨id, by rw [hstands, if_pos rfl, hglobal]; rfl⟩
      | some q =>
        obtain ⟨-, -, id'', -, hid''⟩ := standing?_of_globalOf? hglobal
        exact ⟨id'', hother _ _ hid''⟩
    · obtain ⟨id'', hid''⟩ := h.has dbType' id' global hid'
      exact ⟨id'', hother _ _ hid''⟩
  · have hfirst : ∀ id', (s.globalOf? dbType).isNone = true → s.standing? id' ≠ some (dbType, true) :=
      fun id' hglobal => globalOf?_eq_none_iff.mp (Option.isNone_iff_eq_none.mp hglobal) id'
    rw [hstands] at h₁ h₂
    split at h₁ <;> split at h₂
    · rename_i hid₁ hid₂
      exact hid₁.symm.trans hid₂
    · simp only [Option.some.injEq, Prod.mk.injEq] at h₁
      exact absurd (h₁.1 ▸ h₂) (hfirst id₂ h₁.2)
    · simp only [Option.some.injEq, Prod.mk.injEq] at h₂
      exact absurd (h₂.1 ▸ h₁) (hfirst id₁ h₂.2)
    · exact h.one dbType' id₁ id₂ h₁ h₂

/-- Taking the flag away takes it from every physical database of the type but the one. -/
theorem standing?_clearGlobal (h : s.OneGlobal) (htabled : s.Tabled) (now : UInt64) (id id' : String) :
    (s.clearGlobal now dbType id).standing? id' =
      if id ≠ id' ∧ s.standing? id' = some (dbType, true) then some (dbType, false) else s.standing? id' := by
  unfold clearGlobal
  split
  · rename_i previous hprevious
    obtain ⟨hfound, hne⟩ := Option.filter_eq_some_iff.mp hprevious
    obtain ⟨-, htype, id₁, hstored, hid₁⟩ := standing?_of_globalOf? hfound
    have hid : previous.id = id₁ := htabled.physical_id _ _ hstored
    have hne : previous.id ≠ id := by simpa using hne
    rw [standing?_putPhysical]
    by_cases heq : previous.id = id'
    · rw [if_pos heq, if_pos ⟨fun h => hne (heq.trans h.symm), heq ▸ hid ▸ hid₁⟩]
      exact congrArg (fun t => some (t, false)) htype
    · have hother : s.standing? id' ≠ some (dbType, true) := fun hid' => heq (hid.trans (h.one _ _ _ hid₁ hid'))
      rw [if_neg heq, if_neg fun hboth => hother hboth.2]
  · rename_i hnone
    rw [if_neg]
    rintro ⟨hne, hid'⟩
    cases hfound : s.globalOf? dbType with
    | none => exact globalOf?_eq_none_iff.mp hfound id' hid'
    | some p =>
      obtain ⟨-, -, id₁, hstored, hid₁⟩ := standing?_of_globalOf? hfound
      have hid : p.id = id' := (htabled.physical_id _ _ hstored).trans (h.one _ _ _ hid₁ hid')
      rw [hfound, Option.filter_some, if_pos (by simpa [hid] using Ne.symm hne)] at hnone
      cases hnone

/-- Making a physical database global gives it the flag, and takes it from every other one of its type. -/
theorem standing?_of_setGlobal (h : s.OneGlobal) (htabled : s.Tabled) {now : UInt64} {id : String} {out : PhysicalDatabase}
    (hok : s.setGlobal now id = .ok (out, s')) :
    ∃ dbType global, s.standing? id = some (dbType, global) ∧ s'.standing? id = some (dbType, true) ∧
      ∀ id', id ≠ id' → s'.standing? id' =
        if s.standing? id' = some (dbType, true) then some (dbType, false) else s.standing? id' := by
  obtain ⟨p, hp, rfl⟩ := setGlobal_eq_ok hok
  have hid : p.id = id := htabled.physical_id _ _ hp
  refine ⟨p.dbType, p.global, standing?_eq_some_iff.mpr ⟨p, hp, rfl, rfl⟩, ?_, fun id' hne => ?_⟩
  · rw [standing?_putPhysical]
    exact if_pos hid
  · rw [standing?_putPhysical, if_neg (fun heq => hne (hid.symm.trans heq)), h.standing?_clearGlobal htabled]
    simp only [ne_eq, hne, not_false_eq_true, true_and]

/-- Making a physical database global moves the flag of its type and of no other. -/
theorem setGlobal (h : s.OneGlobal) (htabled : s.Tabled) {now : UInt64} {id : String} {out : PhysicalDatabase}
    (hok : s.setGlobal now id = .ok (out, s')) : s'.OneGlobal := by
  obtain ⟨ownType, before, hold, hown, hothers⟩ := h.standing?_of_setGlobal htabled hok
  have htype : ∀ {dbType : String} {global global' : Bool}, some (ownType, global) = some (dbType, global') → ownType = dbType :=
    fun heq => congrArg Prod.fst (Option.some.inj heq)
  refine ⟨fun dbType id' global hid' => ?_, fun dbType id₁ id₂ h₁ h₂ => ?_⟩
  · by_cases hsame : ownType = dbType
    · exact ⟨id, hsame ▸ hown⟩
    · -- What stands of another type stands as before, and so does the global one of that type.
      have hne : id ≠ id' := by
        rintro rfl
        exact hsame (htype (hown.symm.trans hid'))
      rw [hothers id' hne] at hid'
      split at hid'
      · exact absurd (htype hid') hsame
      · obtain ⟨id'', hid''⟩ := h.has dbType id' global hid'
        have hne'' : id ≠ id'' := by
          rintro rfl
          exact hsame (htype (hold.symm.trans hid''))
        refine ⟨id'', ?_⟩
        rw [hothers id'' hne'', hid'', if_neg fun heq => hsame (htype heq.symm)]
  · have hnotOther : ∀ id', id ≠ id' → s'.standing? id' ≠ some (ownType, true) := by
      intro id' hne hid'
      rw [hothers id' hne] at hid'
      split at hid'
      · cases hid'
      · rename_i hnot
        exact hnot hid'
    by_cases hid₁ : id = id₁ <;> by_cases hid₂ : id = id₂
    · exact hid₁.symm.trans hid₂
    · rw [← hid₁, hown] at h₁
      cases h₁
      exact absurd h₂ (hnotOther id₂ hid₂)
    · rw [← hid₂, hown] at h₂
      cases h₂
      exact absurd h₁ (hnotOther id₁ hid₁)
    · rw [hothers id₁ hid₁] at h₁
      rw [hothers id₂ hid₂] at h₂
      split at h₁
      · cases h₁
      · split at h₂
        · cases h₂
        · exact h.one dbType id₁ id₂ h₁ h₂

/-- What is global is not deregistered. -/
theorem deregister (h : s.OneGlobal) {id : String} {out : Nat} (hok : s.deregister id = .ok (out, s')) : s'.OneGlobal := by
  obtain ⟨p, hp, hglobal, -⟩ := deregister_eq_ok hok
  have hold : s.standing? id = some (p.dbType, false) := standing?_eq_some_iff.mpr ⟨p, hp, rfl, hglobal⟩
  have hstands : ∀ id', s'.standing? id' = if id = id' then none else s.standing? id' := by
    intro id'
    rw [standing?, physical?_of_deregister hok]
    split <;> rfl
  refine ⟨fun dbType id' global hid' => ?_, fun dbType id₁ id₂ h₁ h₂ => ?_⟩
  · rw [hstands] at hid'
    split at hid'
    · cases hid'
    · obtain ⟨id'', hid''⟩ := h.has dbType id' global hid'
      have hne : id ≠ id'' := by
        rintro rfl
        rw [hold] at hid''
        cases hid''
      exact ⟨id'', by rw [hstands, if_neg hne, hid'']⟩
  · rw [hstands] at h₁ h₂
    split at h₁
    · cases h₁
    · split at h₂
      · cases h₂
      · exact h.one dbType id₁ id₂ h₁ h₂

/-! ## Resolution -/

/-- A type with a physical database has a global one. -/
theorem globalOf?_isSome (h : s.OneGlobal) {id : String} {p : PhysicalDatabase} (hp : s.physical? id = some p)
    (htype : p.dbType = dbType) : (s.globalOf? dbType).isSome = true := by
  rw [Option.isSome_iff_ne_none]
  intro hnone
  obtain ⟨id', hid'⟩ := h.has dbType id p.global (standing?_eq_some_iff.mpr ⟨p, hp, htype, rfl⟩)
  exact globalOf?_eq_none_iff.mp hnone id' hid'

/-- Rules may lead nowhere, but a route for a type with a physical database leads somewhere. -/
theorem resolve? (h : s.OneGlobal) (htabled : s.RoutingTabled) {r : Route} {id : String} {p : PhysicalDatabase}
    (hp : s.physical? id = some p) (htype : p.dbType = r.dbType) :
    ∃ d, s.view.resolve? r = some d ∧ s.Sound r.dbType d := by
  obtain ⟨d, hd⟩ := Option.isSome_iff_exists.mp (s.view.resolve?_isSome (h.globalOf?_isSome hp htype))
  rw [htabled.resolve?_eq_head?] at hd ⊢
  exact ⟨d, hd, htabled.sound_of_mem_precedence (List.mem_of_head? hd)⟩

/-- A new database of a type with a physical database gets a place, or its request pins one that is none. -/
theorem placeFor (h : s.OneGlobal) (htabled : s.RoutingTabled) {r : DatabaseRequest} {id : String} {p : PhysicalDatabase}
    (hp : s.physical? id = some p) (htype : p.dbType = r.dbType) (a : Address) (dbType : String) :
    s.placeFor r a ≠ .error (.answer (.noAdapter dbType)) := by
  intro hplace
  unfold Store.placeFor at hplace
  split at hplace
  · split at hplace <;> cases hplace
  · obtain ⟨d, hd, q, hq, -⟩ := h.resolve? htabled (r := RoutingView.routeOf a.classifier r.dbType a.ns) hp htype
    simp only [hd, physical?, hq] at hplace
    cases hplace

end OneGlobal

/-- No adapter is answered only where a new database gets no place. -/
theorem Bound.of_noAdapter {now : UInt64} {id : String} {r : DatabaseRequest} {outcome : BindingOutcome}
    (h : s.Bound now id r outcome s') (houtcome : outcome = .noAdapter dbType) :
    ∃ a, s.placeFor r a = .error (.answer (.noAdapter dbType)) := by
  have hbound : ∀ db redirected, r.bound db redirected ≠ .noAdapter dbType := by
    intro db redirected hbound
    rcases bound_cases r db redirected with h | h <;> rw [h] at hbound <;> cases hbound
  cases h with
  | refused haddress =>
    subst houtcome
    rcases refusal_of_address haddress with ⟨_, hrefusal⟩ | ⟨_, _, hrefusal⟩ <;> cases hrefusal
  | found => exact absurd houtcome (hbound _ _)
  | upgraded => exact absurd houtcome (hbound _ _)
  | unplaced haddress hmissing hplace => exact ⟨_, houtcome ▸ hplace⟩
  | created => cases houtcome

/-- A decision about an id that is not registered registers it. -/
theorem Decided.eq_registerNew {now : UInt64} {instructionId : String} {size : Nat} {id : String} {r : Registration}
    {outcome : RegistrationOutcome} (h : s.Decided now instructionId size id dbType r outcome s')
    (hnew : s.physical? id = none) : s' = (s.registerNew now id dbType r).2 := by
  cases h with
  | created => rfl
  | kept hstored | updated hstored | resumed hstored | begun hstored =>
    rw [hnew] at hstored
    cases hstored

end Store

open Store

namespace Broker

variable {env : Surroundings} {b b' : Broker} {now : UInt64}

/-- Each operation leaves each type with a physical database one global one and no other. -/
theorem Effect.oneGlobal {op : Operation} (heffect : b.Effect env now op b') (hconsistent : b.Consistent env)
    (h : b.store.OneGlobal) : b'.store.OneGlobal := by
  have hmigrations := hconsistent.migrations
  -- Unless it sets flags, deregisters or registers, an operation leaves every physical database standing as it was.
  have hstands : (∀ id, op ≠ .setGlobal id) → (∀ id, op ≠ .deregister id) →
      (∀ handshake, op = .decide handshake → b.store.physical? handshake.id ≠ none) → b'.store.OneGlobal := by
    intro hset hderegister hdecide
    refine h.of_standing fun id => ?_
    cases hp : b.store.physical? id with
    | none =>
      rcases heffect.physical_of_unregistered hconsistent hp with hnone | ⟨handshake, global, hop, rfl, -⟩
      · rw [standing?_eq_none_iff.mpr hp, standing?_eq_none_iff.mpr hnone]
      · exact absurd hp (hdecide handshake hop)
    | some p =>
      rcases heffect.physical_of_registered hconsistent hp with ⟨p', hp', htype, hglobal⟩ | ⟨hop, -⟩
      · rw [standing?_eq_some_iff.mpr ⟨p, hp, rfl, rfl⟩]
        exact standing?_eq_some_iff.mpr ⟨p', hp', htype, hglobal hset⟩
      · exact absurd hop (hderegister id)
  cases heffect with
  | nothing => exact h
  | checked => exact h
  | undecided => exact h
  | @decided handshake outcome s hok =>
    by_cases hnew : b.store.physical? handshake.id = none
    · obtain ⟨-, hdecided⟩ := decided_of_decide hok
      obtain rfl := hdecided.eq_registerNew hnew
      exact h.registerNew hnew now handshake.registration
    · refine hstands nofun nofun fun handshake' hop => ?_
      cases hop
      exact hnew
  | acknowledged => exact hstands nofun nofun nofun
  | continued => exact hstands nofun nofun nofun
  | madeGlobal hok => exact h.setGlobal hmigrations.tabled hok
  | deregistered hok => exact h.deregister hok
  | bound => exact hstands nofun nofun nofun
  | dropped => exact hstands nofun nofun nofun
  | ruled hsame => exact h.of_physicals hsame.physicals
  | grouped => exact h.of_physicals rfl
  | ungrouped => exact h.of_physicals rfl

end Broker

/-- Every history leaves each type with a physical database one global one and no other. -/
theorem oneGlobal_replay (env : Surroundings) (events : List Event) : (replay env events).store.OneGlobal := by
  have hboth : (replay env events).Consistent env ∧ (replay env events).store.OneGlobal :=
    replay_invariant (P := fun b => b.Consistent env ∧ b.store.OneGlobal) ⟨.start, .empty⟩ fun e _ b h =>
      have heffect := b.effect env e.time e.operation
      ⟨h.1.effect heffect, heffect.oneGlobal h.1 h.2⟩
  exact hboth.2

/-- Where a physical database is registered after a history,
1. exactly one physical database of its type is global;
2. resolution leads each route for the type, in any namespace and for any microservice, to a registered physical database of the
   type;
3. it leads somewhere with any rules and labels laid over those that are stored;
4. no request for a database of the type is answered that there is no adapter. -/
theorem one_global_of_registered (env : Surroundings) (events : List Event) {id : String} {p : PhysicalDatabase}
    (hp : (replay env events).store.physical? id = some p) :
    let s := (replay env events).store
    (∃! q, (∃ id', s.physical? id' = some q) ∧ q.dbType = p.dbType ∧ q.global = true) ∧
    (∀ ns microservice, ∃ d, s.view.resolve? ⟨ns, microservice, p.dbType⟩ = some d ∧ s.Sound p.dbType d) ∧
    (∀ ns microservice ns' rules labels,
      ((s.view.overlay ns' rules labels).resolve? ⟨ns, microservice, p.dbType⟩).isSome = true) ∧
    (∀ now newId (r : DatabaseRequest) dbType s', r.dbType = p.dbType →
      s.getOrCreate now newId r ≠ .ok (.noAdapter dbType, s')) := by
  intro s
  have hone : s.OneGlobal := oneGlobal_replay env events
  have htabled := (references_replay env events).routingTabled (Broker.consistent_replay env events).migrations.tabled
  refine ⟨?_, fun ns microservice => hone.resolve? htabled hp rfl, fun ns microservice ns' rules labels => ?_,
    fun now newId r dbType s' htype hok => ?_⟩
  · obtain ⟨id', hid'⟩ := hone.has _ id _ (standing?_eq_some_iff.mpr ⟨p, hp, rfl, rfl⟩)
    obtain ⟨q, hq, hqtype, hglobal⟩ := standing?_eq_some_iff.mp hid'
    refine ⟨q, ⟨⟨id', hq⟩, hqtype, hglobal⟩, ?_⟩
    rintro q' ⟨⟨id'', hq'⟩, hqtype', hglobal'⟩
    have hsame : id'' = id' := hone.one _ _ _ (standing?_eq_some_iff.mpr ⟨q', hq', hqtype', hglobal'⟩) hid'
    exact Option.some.inj (hq'.symm.trans (hsame ▸ hq))
  · exact (s.view.overlay ns' rules labels).resolve?_isSome (hone.globalOf?_isSome hp rfl)
  · obtain ⟨a, hplace⟩ := (bound_of_getOrCreate hok).of_noAdapter rfl
    exact hone.placeFor htabled hp htype.symm a dbType hplace

/-- The cluster of the sample is the global one of its type, and every route for the type leads somewhere. -/
theorem one_global_of_sampleMigration :
    let s := (replay (.numbered 1) sampleMigration).store
    ∃ p, s.physical? "pg" = some p ∧
      (∃! q, (∃ id, s.physical? id = some q) ∧ q.dbType = p.dbType ∧ q.global = true) ∧
      ∀ ns microservice, ∃ d, s.view.resolve? ⟨ns, microservice, p.dbType⟩ = some d := by
  intro s
  have hregistered : (s.physical? "pg").isSome = true := by decide +kernel
  obtain ⟨p, hp⟩ := Option.isSome_iff_exists.mp hregistered
  obtain ⟨hone, hresolved, -⟩ := one_global_of_registered (.numbered 1) sampleMigration hp
  refine ⟨p, hp, hone, fun ns microservice => ?_⟩
  obtain ⟨d, hd, -⟩ := hresolved ns microservice
  exact ⟨d, hd⟩

end DatabaseBroker
