import EntityTable.Proofs.Entity.Schema

/-! # Fields in another order

The rules for fields do not depend on their order, and neither do those for the key. A description
with its fields in another order therefore has the same schema, with the stored fields in the order
of that description (`build_of_perm`). -/

namespace EntityTable.Entity

variable {fs fs' : List FieldDescription}

theorem storedOf_perm (h : fs'.Perm fs) : (storedOf fs').Perm (storedOf fs) :=
  (h.filter _).filterMap _

/-- **Sound fields stay sound in any order.** -/
theorem SoundFields.perm (hsound : SoundFields fs) (h : fs'.Perm fs) : SoundFields fs' where
  unreserved f hf := hsound.unreserved f (h.mem_iff.mp hf)
  named f hf := hsound.named f (h.mem_iff.mp hf)
  distinct := (h.map _).nodup_iff.mpr hsound.distinct
  consistent f hf := hsound.consistent f (h.mem_iff.mp hf)
  apart := ((storedOf_perm h).map _).nodup_iff.mpr hsound.apart

/-- The key is the only stored field that is marked, wherever it stands. -/
theorem key_of_perm {entity : String} {key : StoredField} (h : fs'.Perm fs)
    (hkey : (FieldsSoFar.of fs).key entity = .ok key) :
    (FieldsSoFar.of fs').key entity = .ok key := by
  obtain ⟨hmarked, hnull⟩ := key_ok_iff.mp hkey
  have hperm := (storedOf_perm h).filter StoredField.isPrimaryKey
  rw [hmarked] at hperm
  exact key_ok_iff.mpr ⟨hperm.eq_singleton, hnull⟩

/-- **The schema of a description with its fields in another order.** -/
theorem build_of_perm {d : Description} {s : Schema} (hs : Schema.build d = .ok s)
    (h : fs'.Perm d.fields) : Schema.build { d with fields := fs' } =
      .ok { s with storable := storedOf fs', transient := transientOf fs' } := by
  obtain ⟨hsound, hkey, horigin, hgenerated, hhome, heq⟩ := parts_of_build hs
  have hrules : EntityRules d := entityRules_of_build hs
  have hinhabited : fs' ≠ [] := fun hnil => hrules.inhabited (hnil ▸ h).nil_eq.symm
  have hrules' : EntityRules { d with fields := fs' } := { hrules with inhabited := hinhabited }
  obtain ⟨_, _, _, horigin', hgenerated', hhome', hbuild⟩ := build_of_entityRules hrules'
  cases horigin.symm.trans horigin'
  cases hgenerated.symm.trans hgenerated'
  cases hhome.symm.trans hhome'
  have hfields : fs'.foldlM (FieldsSoFar.add d.name) .none = .ok (.of fs') :=
    foldlM_add_ok_iff.mpr ⟨hsound.perm h, rfl⟩
  rw [hbuild]
  change (fs'.foldlM (FieldsSoFar.add d.name) .none).bind _ = _
  rw [hfields, Except.bind, key_of_perm h hkey, heq]
  rfl

end EntityTable.Entity
