import EntityTable.Proofs.Entity.Schema
import Mathlib.Data.List.Nodup
import Mathlib.Logic.Relation

/-! # Changes to fields that are not stored

A field that is not stored may be removed, moved or described anew (`FieldEdit`). One such change
leaves the stored fields as they are and keeps the fields sound, and so do any number of them
(`FieldEdits.storedOf_eq`, `FieldEdits.sound`). The schema then differs in the names of the fields
that are not stored and in nothing else (`build_of_edits`). -/

namespace EntityTable.Entity

open Source (Ty)

/-- One change of a field that is not stored. -/
inductive FieldEdit : List FieldDescription → List FieldDescription → Prop where
  | remove {before after : List FieldDescription} {f : FieldDescription} : f.roles.nonSavable →
    FieldEdit (before ++ f :: after) (before ++ after)
  /-- The other fields keep their order. -/
  | move {before after before' after' : List FieldDescription} {f : FieldDescription} :
    f.roles.nonSavable → before' ++ after' = before ++ after →
    FieldEdit (before ++ f :: after) (before' ++ f :: after')
  /-- The name and the roles stay. -/
  | redescribe {before after : List FieldDescription} {f : FieldDescription} (ty : Ty)
    (serializable : Bool) (mapping : Option TypeMapping) : f.roles.nonSavable →
    FieldEdit (before ++ f :: after) (before ++ { f with ty, serializable, mapping } :: after)

/-- Any number of changes, one after the other. -/
def FieldEdits : List FieldDescription → List FieldDescription → Prop :=
  Relation.ReflTransGen FieldEdit

variable {fs fs' before after : List FieldDescription} {f : FieldDescription}

theorem storedOf_insert (h : f.roles.nonSavable) :
    storedOf (before ++ f :: after) = storedOf (before ++ after) := by
  have hstored : f.isStored = false := by simp [FieldDescription.isStored, h]
  rw [← List.singleton_append, storedOf_append, storedOf_append, storedOf_append,
    storedOf_singleton_of_not hstored, List.nil_append]

/-! ### One change -/

namespace FieldEdit

theorem storedOf_eq (h : FieldEdit fs fs') : storedOf fs' = storedOf fs := by
  cases h with
  | remove hf => rw [storedOf_insert hf]
  | move hf hrest => rw [storedOf_insert hf, storedOf_insert hf, hrest]
  | @redescribe before after f ty serializable mapping hf =>
    have hnew : ({ f with ty, serializable, mapping } : FieldDescription).roles.nonSavable := hf
    rw [storedOf_insert hnew, storedOf_insert hf]

/-- No field gets a new name or new roles. -/
theorem exists_same (h : FieldEdit fs fs') {g : FieldDescription} (hg : g ∈ fs') :
    ∃ f ∈ fs, f.name = g.name ∧ f.roles = g.roles := by
  cases h with
  | @remove before after f hf =>
    rcases List.mem_append.mp hg with hg | hg
    · exact ⟨g, by simp [hg], rfl, rfl⟩
    · exact ⟨g, by simp [hg], rfl, rfl⟩
  | @move before after before' after' f hf hrest =>
    rcases List.mem_append.mp hg with hg' | hg'
    · have hmem : g ∈ before ++ after := hrest ▸ List.mem_append_left _ hg'
      exact ⟨g, by simpa using (List.mem_append.mp hmem).imp_right Or.inr, rfl, rfl⟩
    · rcases List.mem_cons.mp hg' with rfl | hg'
      · exact ⟨g, by simp, rfl, rfl⟩
      · have hmem : g ∈ before ++ after := hrest ▸ List.mem_append_right _ hg'
        exact ⟨g, by simpa using (List.mem_append.mp hmem).imp_right Or.inr, rfl, rfl⟩
  | @redescribe before after f ty serializable mapping hf =>
    rcases List.mem_append.mp hg with hg | hg
    · exact ⟨g, by simp [hg], rfl, rfl⟩
    · rcases List.mem_cons.mp hg with rfl | hg
      · exact ⟨f, by simp, rfl, rfl⟩
      · exact ⟨g, by simp [hg], rfl, rfl⟩

theorem nodup_names (h : FieldEdit fs fs') (hnodup : (fs.map FieldDescription.name).Nodup) :
    (fs'.map FieldDescription.name).Nodup := by
  cases h with
  | @remove before after f hf =>
    have hsublist : (before ++ after).Sublist (before ++ f :: after) :=
      (List.sublist_cons_self f after).append_left before
    exact (hsublist.map FieldDescription.name).nodup hnodup
  | @move before after before' after' f hf hrest =>
    have hperm : (before ++ f :: after).Perm (before' ++ f :: after') :=
      List.perm_middle.trans (hrest ▸ List.perm_middle.symm)
    exact (hperm.map FieldDescription.name).nodup_iff.mp hnodup
  | redescribe ty serializable mapping hf => simpa using hnodup

/-- **Sound fields stay sound.** -/
theorem sound (h : FieldEdit fs fs') (hsound : SoundFields fs) : SoundFields fs' where
  unreserved g hg := by
    obtain ⟨f, hf, hname, -⟩ := h.exists_same hg
    exact hname ▸ hsound.unreserved f hf
  named g hg := by
    obtain ⟨f, hf, hname, -⟩ := h.exists_same hg
    exact hname ▸ hsound.named f hf
  distinct := h.nodup_names hsound.distinct
  consistent g hg := by
    obtain ⟨f, hf, -, hroles⟩ := h.exists_same hg
    exact hroles ▸ hsound.consistent f hf
  apart := by
    rw [h.storedOf_eq]
    exact hsound.apart

end FieldEdit

/-! ### Any number of changes -/

namespace FieldEdits

theorem storedOf_eq (h : FieldEdits fs fs') : storedOf fs' = storedOf fs := by
  induction h with
  | refl => rfl
  | tail _ hstep ih => rw [hstep.storedOf_eq, ih]

theorem sound (h : FieldEdits fs fs') (hsound : SoundFields fs) : SoundFields fs' := by
  induction h with
  | refl => exact hsound
  | tail _ hstep ih => exact hstep.sound ih

end FieldEdits

/-- The key is found among the stored fields. -/
theorem key_of_storedOf_eq (h : storedOf fs' = storedOf fs) (entity : String) :
    (FieldsSoFar.of fs').key entity = (FieldsSoFar.of fs).key entity := by
  have hstorable : (FieldsSoFar.of fs').storable = (FieldsSoFar.of fs).storable := h
  rw [FieldsSoFar.key, FieldsSoFar.key, hstorable]

/-- **A schema does not say more about fields that are not stored than their names.** -/
theorem build_of_edits {d : Description} {s : Schema} (hs : Schema.build d = .ok s)
    (h : FieldEdits d.fields fs') :
    Schema.build { d with fields := fs' } = .ok { s with transient := transientOf fs' } := by
  obtain ⟨hsound, hkey, horigin, hgenerated, hhome, heq⟩ := parts_of_build hs
  obtain ⟨hstorable, -⟩ := storable_eq_of_build hs
  have hinhabited : fs' ≠ [] := by
    rintro rfl
    have hnone : s.storable = [] := hstorable.trans h.storedOf_eq.symm
    have hprimary := (describes_of_build hs).2.key
    rw [hnone] at hprimary
    cases hprimary
  have hrules : EntityRules { d with fields := fs' } :=
    { entityRules_of_build hs with inhabited := hinhabited }
  obtain ⟨_, _, _, horigin', hgenerated', hhome', hbuild⟩ := build_of_entityRules hrules
  cases horigin.symm.trans horigin'
  cases hgenerated.symm.trans hgenerated'
  cases hhome.symm.trans hhome'
  have hfields : fs'.foldlM (FieldsSoFar.add d.name) .none = .ok (.of fs') :=
    foldlM_add_ok_iff.mpr ⟨h.sound hsound, rfl⟩
  rw [hbuild]
  change (fs'.foldlM (FieldsSoFar.add d.name) .none).bind _ = _
  rw [hfields, Except.bind, key_of_storedOf_eq h.storedOf_eq, hkey]
  rw [heq, ← h.storedOf_eq]
  rfl

end EntityTable.Entity
