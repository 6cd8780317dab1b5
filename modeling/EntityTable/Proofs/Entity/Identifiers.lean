import EntityTable.Proofs.Entity.Schema
import Mathlib.Data.List.Nodup
import Mathlib.Data.List.Pairwise

/-! # The identifiers of a schema

Fields are compared by their names as they are spelled, while generated code uses the identifiers
that the names give; `" title"` and `"title"` give the same one. The column constants keep the
identifiers of stored fields apart. Nothing does so for the other fields, and nothing keeps a field
from having the identifier `id`: `identifiers_nodup_iff` says for which descriptions the identifiers
of a schema are distinct and not reserved. -/

namespace EntityTable.Entity

open Source (identifier?)

/-- The identifiers of all fields. -/
def Schema.identifiers (s : Schema) : List String :=
  s.storable.map StoredField.name ++ s.transient

/-- A field that is not stored shares its identifier with no other field, and no field has the
reserved identifier. -/
structure SeparateNames (fs : List FieldDescription) : Prop where
  apart : ∀ f ∈ fs, ∀ g ∈ fs, g.roles.nonSavable → identifier? f.name = identifier? g.name →
    f.name = g.name
  unreserved : ∀ f ∈ fs, identifier? f.name ≠ some reservedFieldName

/-- The names give no common identifier. -/
def NamesApart (f g : FieldDescription) : Prop :=
  ∀ a, identifier? f.name = some a → ∀ b, identifier? g.name = some b → a ≠ b

instance : Std.Symm NamesApart := ⟨fun _ _ h a ha b hb => (h b hb a ha).symm⟩

variable {fs : List FieldDescription}

theorem mem_names_storedOf {name : String} : name ∈ (storedOf fs).map StoredField.name ↔
    ∃ f ∈ fs, f.isStored ∧ identifier? f.name = some name := by
  simp only [storedOf, FieldDescription.stored?, List.map_filterMap, List.mem_filterMap,
    List.mem_filter, Option.map_map, Option.map_eq_some_iff, and_assoc]
  constructor
  · rintro ⟨f, hf, hstored, identifier, hname, rfl⟩
    exact ⟨f, hf, hstored, hname⟩
  · rintro ⟨f, hf, hstored, hname⟩
    exact ⟨f, hf, hstored, name, hname, rfl⟩

theorem mem_transientOf {name : String} : name ∈ transientOf fs ↔
    ∃ f ∈ fs, f.roles.nonSavable ∧ identifier? f.name = some name := by
  simp [transientOf, FieldDescription.isStored, and_assoc]

section Sound
variable (h : SoundFields fs)
include h

/-- **Stored fields have different identifiers**, since their column constants differ. -/
theorem SoundFields.nodup_names : ((storedOf fs).map StoredField.name).Nodup := by
  have happart := h.apart
  have hmap : (storedOf fs).map StoredField.constant =
      ((storedOf fs).map StoredField.name).map columnConstant := by
    rw [List.map_map]
    rfl
  rw [hmap] at happart
  exact happart.of_map

/-- Fields that are not stored have different identifiers exactly if different names never give the
same one. -/
theorem SoundFields.nodup_transientOf_iff : (transientOf fs).Nodup ↔
    ∀ f ∈ fs, ∀ g ∈ fs, f.roles.nonSavable → g.roles.nonSavable →
      identifier? f.name = identifier? g.name → f.name = g.name := by
  have hnodup : (transientOf fs).Nodup ↔ (fs.filter fun f => !f.isStored).Pairwise NamesApart :=
    List.pairwise_filterMap
  have hmem (f : FieldDescription) : f ∈ fs.filter (fun f => !f.isStored) ↔
      f ∈ fs ∧ f.roles.nonSavable := by
    simp [FieldDescription.isStored]
  rw [hnodup]
  constructor
  · intro hpairs f hf g hg hfsavable hgsavable hsame
    by_contra hne
    obtain ⟨name, hname⟩ := Option.isSome_iff_exists.mp (h.named f hf)
    exact hpairs.forall ((hmem f).mpr ⟨hf, hfsavable⟩) ((hmem g).mpr ⟨hg, hgsavable⟩)
      (fun hfg => hne (congrArg _ hfg)) name hname name (hsame ▸ hname) rfl
  · intro hall
    have hnames : (fs.filter fun f => !f.isStored).Pairwise fun f g => f.name ≠ g.name :=
      (List.pairwise_map.mp h.distinct).filter _
    refine hnames.imp_of_mem fun hf hg hne a ha b hb hab => hne ?_
    obtain ⟨hf, hfsavable⟩ := (hmem _).mp hf
    obtain ⟨hg, hgsavable⟩ := (hmem _).mp hg
    exact hall _ hf _ hg hfsavable hgsavable (by rw [ha, hb, hab])

/-- **The identifiers of sound fields are distinct and not reserved exactly if the names are
separate.** -/
theorem SoundFields.nodup_identifiers_iff :
    (((storedOf fs).map StoredField.name ++ transientOf fs).Nodup ∧
      reservedFieldName ∉ (storedOf fs).map StoredField.name ++ transientOf fs) ↔
    SeparateNames fs := by
  rw [List.nodup_append, h.nodup_transientOf_iff]
  constructor
  · rintro ⟨⟨-, htransient, hdisjoint⟩, hreserved⟩
    refine ⟨fun f hf g hg hsavable hsame => ?_, fun f hf hname => hreserved ?_⟩
    · obtain ⟨name, hname⟩ := Option.isSome_iff_exists.mp (h.named f hf)
      have hg' : name ∈ transientOf fs := mem_transientOf.mpr ⟨g, hg, hsavable, hsame ▸ hname⟩
      cases hstored : f.isStored with
      | false =>
        have hfsavable : f.roles.nonSavable := by simpa [FieldDescription.isStored] using hstored
        exact htransient f hf g hg hfsavable hsavable hsame
      | true =>
        exact absurd rfl (hdisjoint name (mem_names_storedOf.mpr ⟨f, hf, hstored, hname⟩) name hg')
    · rw [List.mem_append, mem_names_storedOf, mem_transientOf]
      cases hstored : f.isStored with
      | false => exact Or.inr ⟨f, hf, by simpa [FieldDescription.isStored] using hstored, hname⟩
      | true => exact Or.inl ⟨f, hf, hstored, hname⟩
  · rintro ⟨hapart, hunreserved⟩
    refine ⟨⟨h.nodup_names, ?_, ?_⟩, ?_⟩
    · exact fun f hf g hg _ hsavable => hapart f hf g hg hsavable
    · -- a common identifier would be that of one field, which cannot be both stored and not
      rintro a ha b hb rfl
      obtain ⟨f, hf, hstored, hfname⟩ := mem_names_storedOf.mp ha
      obtain ⟨g, hg, hsavable, hgname⟩ := mem_transientOf.mp hb
      have hname : f.name = g.name := hapart f hf g hg hsavable (hfname.trans hgname.symm)
      obtain rfl := List.inj_on_of_nodup_map h.distinct hf hg hname
      simp [FieldDescription.isStored, hsavable] at hstored
    · rw [List.mem_append, mem_names_storedOf, mem_transientOf]
      rintro (⟨f, hf, -, hname⟩ | ⟨f, hf, -, hname⟩) <;> exact hunreserved f hf hname

end Sound

/-- The names are separate if each is spelled as its identifier. -/
theorem SoundFields.separateNames_of_spelled (h : SoundFields fs)
    (hspelled : ∀ f ∈ fs, identifier? f.name = some f.name) : SeparateNames fs where
  apart f hf g hg _ hsame := by
    rw [hspelled f hf, hspelled g hg] at hsame
    exact Option.some.inj hsame
  unreserved f hf hname := by
    rw [hspelled f hf] at hname
    exact h.unreserved f hf (Option.some.inj hname)

/-! ### Schemas -/

variable {d : Description} {s : Schema}

theorem nodup_names_of_build (h : Schema.build d = .ok s) :
    (s.storable.map StoredField.name).Nodup := by
  rw [(storable_eq_of_build h).1]
  exact (describes_of_build h).1.fields.nodup_names

/-- **When the identifiers of a schema are distinct and not reserved.** Those of the stored fields
are always distinct. -/
theorem identifiers_nodup_iff (h : Schema.build d = .ok s) :
    (s.storable.map StoredField.name).Nodup ∧
    ((s.identifiers.Nodup ∧ reservedFieldName ∉ s.identifiers) ↔ SeparateNames d.fields) := by
  refine ⟨nodup_names_of_build h, ?_⟩
  rw [Schema.identifiers, (storable_eq_of_build h).1, (storable_eq_of_build h).2]
  exact (describes_of_build h).1.fields.nodup_identifiers_iff

/-- A description whose names are all separate. -/
def article : Description where
  name := "Article"
  home := none
  className := none
  table := none
  hideColumns := false
  fields := [(FieldDescription.plain "uuid" (.word "Uuid")).asPrimaryKey,
    (FieldDescription.plain "title" (.word "String")).asLookupKey,
    (FieldDescription.plain "draft" (.word "bool")).asNonSavable]

theorem identifiers_nodup_article : ∃ s, Schema.build article = .ok s ∧ s.identifiers.Nodup ∧
    reservedFieldName ∉ s.identifiers := by
  have hseparate : SeparateNames article.fields := ⟨by decide, by decide⟩
  have hok : (Schema.build article).toBool = true := by decide
  cases hs : Schema.build article with
  | error e => rw [hs] at hok; cases hok
  | ok s => exact ⟨s, rfl, (identifiers_nodup_iff hs).2.mpr hseparate⟩

/-- The article with names that begin with a blank: one gives the identifier of the key, the other
the reserved one. -/
def spacedArticle : Description where
  name := "Article"
  home := none
  className := none
  table := none
  hideColumns := false
  fields := [(FieldDescription.plain "uuid" (.word "Uuid")).asPrimaryKey,
    (FieldDescription.plain " uuid" (.word "String")).asNonSavable,
    (FieldDescription.plain " id" (.word "String")).asNonSavable]

theorem identifiers_collide : ∃ s, Schema.build spacedArticle = .ok s ∧ ¬ s.identifiers.Nodup ∧
    reservedFieldName ∈ s.identifiers := by
  have hok : (Schema.build spacedArticle).toOption.map Schema.identifiers =
      some ["uuid", "uuid", "id"] := by decide
  obtain ⟨s, hs, hidentifiers⟩ := Option.map_eq_some_iff.mp hok
  cases hbuild : Schema.build spacedArticle with
  | error e => rw [hbuild] at hs; cases hs
  | ok s' =>
    rw [hbuild] at hs
    cases hs
    exact ⟨s, rfl, by rw [hidentifiers]; decide, by rw [hidentifiers]; decide⟩

end EntityTable.Entity
