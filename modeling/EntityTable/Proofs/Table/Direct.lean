import EntityTable.Proofs.Table.Namespaces

/-! # Units of directly converted fields

No filled template is refused where all stored fields are converted directly, so the namespace alone
decides whether planned columns make a unit (`exists_synthesize_iff`). A field without templates of
its own, on a column that is read as a single word, is converted directly, and this can be seen
without filling a template (`exists_generate_of_isSimple`). -/

namespace EntityTable.Entity

open Source Source.Grammar

/-! ### Fields without templates -/

/-- The type is a single word that no comment or keyword can be. -/
def isSimpleType : Ty → Bool
  | .path (.plain (.mk false [.plain w])) => isPlainName w.toList
  | _ => false

theorem isNamed_of_isSimpleType {ty : Ty} (h : isSimpleType ty = true) : ty.IsNamed := by
  unfold isSimpleType at h
  split at h
  · exact isNamed_word (.of_isPlainName h)
  · cases h

/-- The field declares no template, and if its column is read as a type that it names, this is a
single word. -/
def StoredField.isSimple (f : StoredField) : Bool :=
  match f.meaning with
  | .primitive p => !p.isColumnType || isSimpleType f.valueTy
  | .mapped m => m.encode.isNone && m.decode.isNone && isSimpleType m.storeAs
  | .serializable | .unrecognized => true

theorem StoredField.isDirect_of_isSimple {f : StoredField} (h : f.isSimple = true) :
    f.IsDirect := by
  unfold isSimple at h
  unfold IsDirect
  cases hmeaning : f.meaning with
  | primitive p =>
    rw [hmeaning] at h
    dsimp only at h
    intro hcolumn
    rw [hcolumn, Bool.not_true, Bool.false_or] at h
    exact isNamed_of_isSimpleType h
  | mapped m =>
    rw [hmeaning] at h
    obtain ⟨htemplates, hstoreAs⟩ := Bool.and_eq_true_iff.mp h
    obtain ⟨hencode, hdecode⟩ := Bool.and_eq_true_iff.mp htemplates
    rw [Option.isNone_iff_eq_none] at hencode hdecode
    refine ⟨fun text htext => ?_, fun text htext => ?_, fun _ _ _ _ => ?_⟩
    · cases hencode.symm.trans htext
    · cases hdecode.symm.trans htext
    · exact isNamed_of_isSimpleType hstoreAs
  | serializable => trivial
  | unrecognized => trivial

end EntityTable.Entity

namespace EntityTable.Table

open Column (MappingError Plans)
open Entity (Description Schema StoredField)

variable {d : Description} {s : Schema} {plans : Plans}

/-! ### Units -/

/-- **Where all fields are converted directly the namespace decides** whether planned columns make a
unit. -/
theorem exists_synthesize_iff (hs : Schema.build d = .ok s) (hplans : Plans.resolve s = .ok plans)
    (hdirect : ∀ f ∈ s.storable, f.IsDirect) :
    (∃ u, GeneratedUnit.synthesize s plans = .ok u) ↔ s.home.IsImportable := by
  obtain ⟨t, ht⟩ := exists_ofPlans_of_resolve hs hplans
  have hfits := PlannedTable.fits_of_ofPlans hs ht
  have hfillings : PlannedTable.firstFault t.fillings = none := by
    refine List.findSome?_eq_none_iff.mpr fun g hg => (g.error?_expr_eq_none).mpr ?_
    obtain ⟨c, hc, hcolumn⟩ := PlannedTable.exists_column_of_mem_fillings hfits.mem_key hg
    have hf : c.field ∈ s.storable := hfits.fields ▸ List.mem_map_of_mem hc
    have hname : c.field.name = g.field := by rcases hcolumn with rfl | rfl | rfl <;> rfl
    exact hfits.exists_expr hs hplans hg hf hname (hdirect _ hf)
  rw [← error?_eq_none, error?_synthesize ht, hfillings, Option.none_or,
    hfits.error?_imports hs hplans]
  split <;> simp [*]

theorem exists_generate_of_isDirect (hs : Schema.build d = .ok s)
    (hplans : Plans.resolve s = .ok plans) (hdirect : ∀ f ∈ s.storable, f.IsDirect)
    (hhome : s.home.IsImportable) : ∃ u, generate d = .ok u := by
  obtain ⟨u, hu⟩ := (exists_synthesize_iff hs hplans hdirect).mpr hhome
  exact ⟨u, by rw [generate_of_resolve hs hplans, hu]; rfl⟩

/-- The columns of the description are planned and pass the test, and its namespace can be
imported. -/
def isPlanned (d : Description) (test : StoredField → Bool) : Bool :=
  (Schema.build d).toOption.any fun s =>
    (Plans.resolve s).toBool && (decide s.home.IsImportable && s.storable.all test)

theorem exists_of_isPlanned (test : StoredField → Bool) (h : isPlanned d test = true) :
    ∃ s plans, Schema.build d = .ok s ∧ Plans.resolve s = .ok plans ∧ s.home.IsImportable ∧
      ∀ f ∈ s.storable, test f = true := by
  obtain ⟨s, hs, h⟩ := (Option.any_eq_true _ _).mp h
  obtain ⟨hplans, h⟩ := Bool.and_eq_true_iff.mp h
  obtain ⟨hhome, htest⟩ := Bool.and_eq_true_iff.mp h
  obtain ⟨plans, hplans⟩ := exists_ok_of_toBool hplans
  exact ⟨s, plans, toOption_eq_some.mp hs, hplans, of_decide_eq_true hhome,
    List.all_eq_true.mp htest⟩

theorem exists_generate_of_isPlanned (h : isPlanned d (fun _ => true) = true)
    (hdirect : ∀ s, Schema.build d = .ok s → ∀ f ∈ s.storable, f.IsDirect) :
    ∃ u, generate d = .ok u := by
  obtain ⟨s, plans, hs, hplans, hhome, -⟩ := exists_of_isPlanned _ h
  exact exists_generate_of_isDirect hs hplans (hdirect s hs) hhome

/-- **A unit is generated for every description with planned columns and no templates of its own.** -/
theorem exists_generate_of_isSimple (h : isPlanned d StoredField.isSimple = true) :
    ∃ u, generate d = .ok u := by
  obtain ⟨s, plans, hs, hplans, hhome, hsimple⟩ := exists_of_isPlanned _ h
  exact exists_generate_of_isDirect hs hplans
    (fun f hf => StoredField.isDirect_of_isSimple (hsimple f hf)) hhome

example : isPlanned Entity.article StoredField.isSimple = true := by decide +kernel

end EntityTable.Table
