import EntityTable.Entity.Schema

/-! # Checked fields

The check of the fields of an entity goes through them once and keeps what it has seen. Here its
result is said without the run: `SoundFields` collects the rules for all fields of an entity,
`FieldRules` those for one field after the fields before it, and `FieldFault` names the error of the
first rule that a field breaks. One step is `add_of_rules` or `add_of_fault`; the run is
`foldlM_add_ok_iff` and `foldlM_add_error_iff`: it ends at the first field that breaks a rule. -/

namespace EntityTable.Entity

open Source (identifier?)

/-! ### Fields of a description -/

namespace FieldDescription

/-- The field is stored. -/
def isStored (f : FieldDescription) : Bool := !f.roles.nonSavable

/-- The stored field that is described, if its name gives an identifier. -/
def stored? (f : FieldDescription) : Option StoredField :=
  (identifier? f.name).map fun name => .ofDescription name f

end FieldDescription

/-- The stored fields that are described, in order. -/
def storedOf (fs : List FieldDescription) : List StoredField :=
  (fs.filter FieldDescription.isStored).filterMap FieldDescription.stored?

/-- The names of the other fields, in order. -/
def transientOf (fs : List FieldDescription) : List String :=
  (fs.filter fun f => !f.isStored).filterMap fun f => identifier? f.name

/-- What has been found once these fields have been read. -/
def FieldsSoFar.of (fs : List FieldDescription) : FieldsSoFar where
  names := fs.map FieldDescription.name
  storable := storedOf fs
  transient := transientOf fs

/-- The constant of a stored field. -/
def StoredField.constant (f : StoredField) : String := columnConstant f.name

/-! ### The rules -/

/-- The rules for a field that comes after others. -/
structure FieldRules (before : List FieldDescription) (f : FieldDescription) : Prop where
  unreserved : f.name ≠ reservedFieldName
  named : (identifier? f.name).isSome
  fresh : f.name ∉ before.map FieldDescription.name
  /-- A field that is not stored is no key. -/
  consistent : f.roles.nonSavable → f.roles.primaryKey = false ∧ f.roles.lookupKey = false
  /-- A stored field has a column constant of its own. -/
  apart : ∀ g ∈ storedOf [f], g.constant ∉ (storedOf before).map StoredField.constant

/-- The rules for the fields of an entity. -/
structure SoundFields (fs : List FieldDescription) : Prop where
  unreserved : ∀ f ∈ fs, f.name ≠ reservedFieldName
  named : ∀ f ∈ fs, (identifier? f.name).isSome
  distinct : (fs.map FieldDescription.name).Nodup
  consistent : ∀ f ∈ fs, f.roles.nonSavable → f.roles.primaryKey = false ∧ f.roles.lookupKey = false
  apart : ((storedOf fs).map StoredField.constant).Nodup

/-- The error of the first rule that a field breaks. -/
inductive FieldFault (entity : String) (before : List FieldDescription) (f : FieldDescription) :
    SchemaError → Prop where
  | reserved : f.name = reservedFieldName → FieldFault entity before f (.reservedFieldName entity)
  | unnamed : f.name ≠ reservedFieldName → identifier? f.name = none →
    FieldFault entity before f (.invalidIdentifier entity f.name)
  | repeated : f.name ≠ reservedFieldName → (identifier? f.name).isSome →
    f.name ∈ before.map FieldDescription.name →
    FieldFault entity before f (.duplicateField entity f.name)
  | conflicting : f.name ≠ reservedFieldName → (identifier? f.name).isSome →
    f.name ∉ before.map FieldDescription.name →
    f.roles.nonSavable → f.roles.primaryKey ∨ f.roles.lookupKey →
    FieldFault entity before f (.conflictingRoles entity f.name)
  /-- The error names the first field before that has the same constant. -/
  | colliding {name : String} {earlier later : List StoredField} {other : StoredField} :
    f.name ≠ reservedFieldName → identifier? f.name = some name →
    f.name ∉ before.map FieldDescription.name → f.isStored →
    storedOf before = earlier ++ other :: later →
    (∀ g ∈ earlier, g.constant ≠ columnConstant name) → other.constant = columnConstant name →
    FieldFault entity before f
      (.columnConstantCollision entity f.name other.declared (columnConstant name))

/-! ### Lists of fields -/

theorem storedOf_append (a b : List FieldDescription) :
    storedOf (a ++ b) = storedOf a ++ storedOf b := by
  simp [storedOf]

theorem transientOf_append (a b : List FieldDescription) :
    transientOf (a ++ b) = transientOf a ++ transientOf b := by
  simp [transientOf]

theorem storedOf_singleton {f : FieldDescription} {name : String}
    (hname : identifier? f.name = some name) (hstored : f.isStored = true) :
    storedOf [f] = [.ofDescription name f] := by
  simp [storedOf, FieldDescription.stored?, hname, hstored]

theorem storedOf_singleton_of_not {f : FieldDescription} (h : f.isStored = false) :
    storedOf [f] = [] := by
  simp [storedOf, h]

theorem transientOf_singleton {f : FieldDescription} {name : String}
    (hname : identifier? f.name = some name) (h : f.isStored = false) :
    transientOf [f] = [name] := by
  simp [transientOf, hname, h]

theorem transientOf_singleton_of_stored {f : FieldDescription} (h : f.isStored = true) :
    transientOf [f] = [] := by
  simp [transientOf, h]

theorem nodup_storedOf_singleton (f : FieldDescription) :
    ((storedOf [f]).map StoredField.constant).Nodup := by
  cases hstored : f.isStored <;> cases hname : f.stored? <;> simp [storedOf, hstored, hname]

theorem soundFields_nil : SoundFields [] := by
  constructor <;> simp [storedOf]

/-- **The rules for all fields are the rules for each field after those before it.** -/
theorem soundFields_append_singleton {before : List FieldDescription} {f : FieldDescription} :
    SoundFields (before ++ [f]) ↔ SoundFields before ∧ FieldRules before f := by
  constructor
  · rintro ⟨hunreserved, hnamed, hdistinct, hconsistent, hapart⟩
    rw [List.map_append, List.nodup_append] at hdistinct
    rw [storedOf_append, List.map_append, List.nodup_append] at hapart
    refine ⟨⟨fun g hg => hunreserved g (by simp [hg]), fun g hg => hnamed g (by simp [hg]),
      hdistinct.1, fun g hg => hconsistent g (by simp [hg]), hapart.1⟩,
      hunreserved f (by simp), hnamed f (by simp), ?_, hconsistent f (by simp), ?_⟩
    · exact fun hf => hdistinct.2.2 _ hf f.name (by simp) rfl
    · exact fun g hg hmem => hapart.2.2 _ hmem _ (List.mem_map_of_mem hg) rfl
  · rintro ⟨hbefore, hf⟩
    refine ⟨?_, ?_, ?_, ?_, ?_⟩
    · simpa [or_imp, forall_and] using ⟨hbefore.unreserved, hf.unreserved⟩
    · simpa [or_imp, forall_and] using ⟨hbefore.named, hf.named⟩
    · rw [List.map_append, List.nodup_append]
      refine ⟨hbefore.distinct, by simp, fun a ha b hb hab => hf.fresh ?_⟩
      rw [List.map_singleton, List.mem_singleton] at hb
      rwa [← hb, ← hab]
    · intro g hg
      rcases List.mem_append.mp hg with hg | hg
      · exact hbefore.consistent g hg
      · rw [List.mem_singleton.mp hg]; exact hf.consistent
    · rw [storedOf_append, List.map_append, List.nodup_append]
      refine ⟨hbefore.apart, nodup_storedOf_singleton f, fun a ha b hb hab => ?_⟩
      obtain ⟨g, hg, rfl⟩ := List.mem_map.mp hb
      exact hf.apart g hg (hab ▸ ha)

theorem SoundFields.of_append : ∀ (after : List FieldDescription) {before : List FieldDescription},
    SoundFields (before ++ after) → SoundFields before
  | [], before, h => by simpa using h
  | f :: after, before, h => by
    have hf : SoundFields (before ++ [f]) := SoundFields.of_append after (by simpa using h)
    exact (soundFields_append_singleton.mp hf).1

/-- A field follows the rules after those before it, if all together do. -/
theorem SoundFields.rules {before after : List FieldDescription} {f : FieldDescription}
    (h : SoundFields (before ++ f :: after)) : FieldRules before f := by
  have hf : SoundFields (before ++ [f]) := SoundFields.of_append after (by simpa using h)
  exact (soundFields_append_singleton.mp hf).2

/-! ### One step -/

variable {entity : String} {before : List FieldDescription} {f : FieldDescription}

/-- The first element of a list that passes a test, with what stands around it. -/
theorem exists_first {α : Type} {p : α → Prop} [DecidablePred p] :
    ∀ {l : List α}, (∃ a ∈ l, p a) → ∃ earlier a later, l = earlier ++ a :: later ∧
      (∀ b ∈ earlier, ¬ p b) ∧ p a
  | [], h => by simp at h
  | a :: l, h => by
    by_cases ha : p a
    · exact ⟨[], a, l, rfl, by simp, ha⟩
    · have hl : ∃ a ∈ l, p a := by simpa [ha] using h
      obtain ⟨earlier, b, later, rfl, hearlier, hb⟩ := exists_first hl
      exact ⟨a :: earlier, b, later, rfl, by simpa [ha] using hearlier, hb⟩

/-- A field follows the rules or breaks one of them first. -/
theorem rules_or_fault (entity : String) (before : List FieldDescription) (f : FieldDescription) :
    FieldRules before f ∨ ∃ e, FieldFault entity before f e := by
  by_cases hreserved : f.name = reservedFieldName
  · exact Or.inr ⟨_, .reserved hreserved⟩
  rcases hname : identifier? f.name with _ | name
  · exact Or.inr ⟨_, .unnamed hreserved hname⟩
  have hnamed : (identifier? f.name).isSome := by rw [hname]; rfl
  by_cases hfresh : f.name ∈ before.map FieldDescription.name
  · exact Or.inr ⟨_, .repeated hreserved hnamed hfresh⟩
  cases hstored : f.isStored with
  | false =>
    have hsavable : f.roles.nonSavable := by simpa [FieldDescription.isStored] using hstored
    by_cases hkey : f.roles.primaryKey ∨ f.roles.lookupKey
    · exact Or.inr ⟨_, .conflicting hreserved hnamed hfresh hsavable hkey⟩
    · exact Or.inl ⟨hreserved, hnamed, hfresh, fun _ => by simpa using hkey,
        by simp [storedOf_singleton_of_not hstored]⟩
  | true =>
    by_cases hshared : ∃ g ∈ storedOf before, g.constant = columnConstant name
    · obtain ⟨earlier, other, later, hsplit, hearlier, hother⟩ := exists_first hshared
      exact Or.inr ⟨_, .colliding hreserved hname hfresh hstored hsplit hearlier hother⟩
    · refine Or.inl ⟨hreserved, hnamed, hfresh, ?_, ?_⟩
      · simp [(by simpa [FieldDescription.isStored] using hstored : f.roles.nonSavable = false)]
      · rw [storedOf_singleton hname hstored]
        simpa [StoredField.constant, StoredField.ofDescription] using hshared

theorem not_rules_of_fault {e : SchemaError} (h : FieldFault entity before f e) :
    ¬ FieldRules before f := by
  intro hf
  cases h with
  | reserved h => exact hf.unreserved h
  | unnamed _ h => simpa [h] using hf.named
  | repeated _ _ h => exact hf.fresh h
  | conflicting _ _ _ hsavable hkey => simp [hf.consistent hsavable] at hkey
  | @colliding name earlier later other _ hname _ hstored hsplit _ hother =>
    refine hf.apart _ (by rw [storedOf_singleton hname hstored]; exact List.mem_singleton_self _) ?_
    exact List.mem_map.mpr ⟨other, by simp [hsplit], hother⟩

theorem isConflicting_eq_false {r : Roles} : r.isConflicting = false ↔
    (r.nonSavable → r.primaryKey = false ∧ r.lookupKey = false) := by
  cases hsavable : r.nonSavable <;> simp [Roles.isConflicting, hsavable]

/-- **A field that follows the rules is taken in.** -/
theorem add_of_rules (h : FieldRules before f) :
    FieldsSoFar.add entity (.of before) f = .ok (.of (before ++ [f])) := by
  obtain ⟨name, hname⟩ := Option.isSome_iff_exists.mp h.named
  have hfresh : f.name ∉ (FieldsSoFar.of before).names := h.fresh
  have hroles : f.roles.isConflicting = false := isConflicting_eq_false.mpr h.consistent
  have hof : FieldsSoFar.of (before ++ [f]) = ⟨(FieldsSoFar.of before).names ++ [f.name],
      storedOf before ++ storedOf [f], transientOf before ++ transientOf [f]⟩ := by
    simp [FieldsSoFar.of, storedOf_append, transientOf_append]
  rw [hof]
  cases hsavable : f.roles.nonSavable with
  | true =>
    have hstored : f.isStored = false := by simp [FieldDescription.isStored, hsavable]
    rw [storedOf_singleton_of_not hstored, transientOf_singleton hname hstored, List.append_nil]
    simp [FieldsSoFar.add, h.unreserved, hname, hfresh, hroles, hsavable]
    rfl
  | false =>
    have hstored : f.isStored = true := by simp [FieldDescription.isStored, hsavable]
    have happart := h.apart
    rw [storedOf_singleton hname hstored] at happart ⊢
    have hsharing : (storedOf before).find?
        (fun other => columnConstant other.name == columnConstant name) = none := by
      simpa [StoredField.constant, StoredField.ofDescription] using happart
    have hsharing' : FieldsSoFar.sharing? { FieldsSoFar.of before with
        names := (FieldsSoFar.of before).names ++ [f.name] } name = none := hsharing
    rw [transientOf_singleton_of_stored hstored, List.append_nil]
    simp [FieldsSoFar.add, h.unreserved, hname, hfresh, hroles, hsavable, hsharing']
    rfl

/-- **A field that breaks a rule is refused for the first rule that it breaks.** -/
theorem add_of_fault {e : SchemaError} (h : FieldFault entity before f e) :
    FieldsSoFar.add entity (.of before) f = .error e := by
  cases h with
  | reserved hreserved =>
    simp [FieldsSoFar.add, hreserved]
    rfl
  | unnamed hreserved hname =>
    simp [FieldsSoFar.add, hreserved, hname]
    rfl
  | repeated hreserved hnamed hmem =>
    obtain ⟨name, hname⟩ := Option.isSome_iff_exists.mp hnamed
    have hmem : f.name ∈ (FieldsSoFar.of before).names := hmem
    simp [FieldsSoFar.add, hreserved, hname, hmem]
    rfl
  | conflicting hreserved hnamed hfresh hsavable hkey =>
    obtain ⟨name, hname⟩ := Option.isSome_iff_exists.mp hnamed
    have hfresh : f.name ∉ (FieldsSoFar.of before).names := hfresh
    have hroles : f.roles.isConflicting := by simpa [Roles.isConflicting, hsavable] using hkey
    simp [FieldsSoFar.add, hreserved, hname, hfresh, hroles]
    rfl
  | @colliding name earlier later other hreserved hname hfresh hstored hsplit hearlier hother =>
    have hfresh : f.name ∉ (FieldsSoFar.of before).names := hfresh
    have hsavable : f.roles.nonSavable = false := by
      simpa [FieldDescription.isStored] using hstored
    have hroles : f.roles.isConflicting = false := by simp [Roles.isConflicting, hsavable]
    have hnone : earlier.find? (fun g => columnConstant g.name == columnConstant name) = none := by
      simpa [StoredField.constant] using hearlier
    have hsharing : FieldsSoFar.sharing? { FieldsSoFar.of before with
        names := (FieldsSoFar.of before).names ++ [f.name] } name = some other := by
      change (storedOf before).find? _ = _
      rw [hsplit, List.find?_append, hnone, Option.none_or, List.find?_cons_of_pos]
      simpa [StoredField.constant] using hother
    simp [FieldsSoFar.add, hreserved, hname, hfresh, hroles, hsavable, hsharing]
    rfl

/-! ### The run -/

/-- The fields that follow others are all taken in, or the run ends at the first that breaks a
rule. The fields read so far stay sound, which carries the induction. -/
theorem foldlM_add (entity : String) : ∀ fs before : List FieldDescription, SoundFields before →
    (SoundFields (before ++ fs) ∧
      fs.foldlM (FieldsSoFar.add entity) (.of before) = .ok (.of (before ++ fs))) ∨
    ∃ middle f after e, fs = middle ++ f :: after ∧ SoundFields (before ++ middle) ∧
      FieldFault entity (before ++ middle) f e ∧
      fs.foldlM (FieldsSoFar.add entity) (.of before) = .error e
  | [], before, h => by
    rw [List.append_nil]
    exact Or.inl ⟨h, rfl⟩
  | f :: fs, before, h => by
    rcases rules_or_fault entity before f with hf | ⟨e, hf⟩
    · -- the field joins the ones before it, and the run goes on from there
      have hstep : (f :: fs).foldlM (FieldsSoFar.add entity) (.of before) =
          fs.foldlM (FieldsSoFar.add entity) (.of (before ++ [f])) := by
        rw [List.foldlM_cons, add_of_rules hf]
        rfl
      rw [hstep, List.append_cons]
      rcases foldlM_add entity fs (before ++ [f]) (soundFields_append_singleton.mpr ⟨h, hf⟩) with
        hrun | ⟨middle, g, after, e, rfl, hmiddle, hg, hrun⟩
      · exact Or.inl hrun
      · rw [← List.append_cons] at hmiddle hg
        exact Or.inr ⟨f :: middle, g, after, e, rfl, hmiddle, hg, hrun⟩
    · refine Or.inr ⟨[], f, fs, e, rfl, by simpa using h, by simpa using hf, ?_⟩
      rw [List.foldlM_cons, add_of_fault hf]
      rfl

/-- **All fields are taken in exactly if they follow the rules.** -/
theorem foldlM_add_ok_iff {fs : List FieldDescription} {found : FieldsSoFar} :
    fs.foldlM (FieldsSoFar.add entity) .none = .ok found ↔ SoundFields fs ∧ found = .of fs := by
  change fs.foldlM (FieldsSoFar.add entity) (.of []) = .ok found ↔ _
  rcases foldlM_add entity fs [] soundFields_nil with ⟨hsound, hrun⟩ |
    ⟨middle, f, after, e, rfl, hmiddle, hf, hrun⟩
  · rw [hrun, Except.ok.injEq]
    exact ⟨fun h => ⟨hsound, h.symm⟩, fun h => h.2.symm⟩
  · rw [hrun]
    refine ⟨fun h => (nomatch h), fun h => ?_⟩
    exact absurd h.1.rules (not_rules_of_fault hf)

end EntityTable.Entity
