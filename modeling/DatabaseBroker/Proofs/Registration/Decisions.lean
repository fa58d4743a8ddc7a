import DatabaseBroker.Proofs.History
import DatabaseBroker.Proofs.Store.Tabled

/-!
# Decisions that migrate

What a decision comes to, read forwards: a declaration of other roles by an adapter that makes users for every role starts a
migration if there is one to start (`Store.decide_of_migrating`), and goes on with a live one to the same roles
(`Store.decide_of_live`). The databases on a physical database are listed in the order in which they are stored
(`Store.Tabled.logicalsOn_eq`).
-/

namespace DatabaseBroker

namespace Store

variable {s : Store} {now : UInt64} {name : String} {size : Nat} {id dbType : String} {r : Registration}

/-- The databases on a physical database are listed as they are stored: under their ids, so in the order of their ids. -/
theorem Tabled.logicalsOn_eq (h : s.Tabled) (physicalDatabaseId : String) :
    s.logicalsOn physicalDatabaseId =
      s.logicalList.filter fun db => db.physicalDatabaseId = physicalDatabaseId && !db.markedForDrop := by
  refine List.mergeSort_of_pairwise (List.Pairwise.filter _ ?_)
  refine List.pairwise_map.mpr (s.logicals.ascending.imp_of_mem fun {a b} ha hb hlt => ?_)
  rw [h.logical_id a.1 a.2 (KeyMap.get?_eq_some_iff.mpr ha), h.logical_id b.1 b.2 (KeyMap.get?_eq_some_iff.mpr hb)]
  exact decide_eq_true (Std.le_of_lt hlt)

variable {current : PhysicalDatabase}

/-- A declaration of other roles by an adapter that makes users for every role starts a migration, if there is one to start. -/
theorem decide_of_migrating (hidentity : s.checkIdentity id dbType r = .ok ()) (hstored : s.physical? id = some current)
    (hroles : current.metadata.roleSet ≠ r.metadata.roleSet) (hmultiusers : r.metadata.supportsMultiusers = true)
    {i : Instruction} {resumed : Bool} {s' : Store}
    (hstart : s.startMigration now name (current.declare now r) = (some (i, resumed), s')) :
    s.decide now name size id dbType r = .ok (s'.issue now size i resumed) := by
  have hdiffers : current.agreesWith r = false := by
    simp [PhysicalDatabase.agreesWith, hroles]
  have hmigrate : current.metadata.roleSet ≠ (current.declare now r).metadata.roleSet ∧
      (current.declare now r).metadata.supportsMultiusers = true := ⟨hroles, hmultiusers⟩
  simp only [decide, hidentity, bind, Except.bind, hstored, hdiffers, Bool.false_eq_true, if_false, if_pos hmigrate, hstart]

/-- A declaration of the roles of a live migration goes on with it. -/
theorem decide_of_live (hidentity : s.checkIdentity id dbType r = .ok ()) (hstored : s.physical? id = some current)
    (hroles : current.metadata.roleSet ≠ r.metadata.roleSet) (hmultiusers : r.metadata.supportsMultiusers = true)
    {live : Instruction} (hlive : s.instructionFor? current.id = some live)
    (hsame : live.target.metadata.roleSet = r.metadata.roleSet) (hpending : live.entries ≠ []) :
    s.decide now name size id dbType r =
      .ok (.migrationPending ((live.retarget now (current.declare now r)).handOut now (live.nextPortion size)).reread
          (live.nextPortion size) true,
        s.putInstruction ((live.retarget now (current.declare now r)).handOut now (live.nextPortion size))) := by
  have hfound : (s.instructionFor? (current.declare now r).id).filter
      (fun live => live.target.metadata.roleSet = (current.declare now r).metadata.roleSet) = some live :=
    Option.filter_eq_some_iff.mpr ⟨hlive, decide_eq_true hsame⟩
  have hstart : s.startMigration now name (current.declare now r) =
      (some (live.retarget now (current.declare now r), true),
        s.putInstruction (live.retarget now (current.declare now r))) := by
    simp only [startMigration, hfound]
    rfl
  have hleft : (live.retarget now (current.declare now r)).entries ≠ [] := hpending
  rw [decide_of_migrating hidentity hstored hroles hmultiusers hstart, issue_of_pending hleft,
    putInstruction_putInstruction _ (by rfl) (by rfl)]
  rfl

end Store

/-- A handshake that awaits its decision leaves the store that the decision comes to. -/
theorem Broker.store_run_decide {env : Surroundings} {b : Broker} {now : UInt64} {h : Handshake} {outcome : RegistrationOutcome}
    {s : Store} (hawaits : h ∈ b.awaiting)
    (hok : b.store.decide now (env.instructionName b.names.instructions) env.portionSize h.id h.dbType h.registration =
      .ok (outcome, s)) : (b.run env now (.decide h)).store = s := by
  simp only [run, decide, if_pos hawaits, hok]

end DatabaseBroker
