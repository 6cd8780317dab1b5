import EntityTable.Proofs.Table.Planned

/-! # Why a table object is not synthesized

Three things can go wrong with a schema and plans, one after the other: a stored field has no plan,
a filled template is not an expression, or what is to be imported is not a path. The first stored
field without a plan is named before all else (`ofPlans_of_missing`). `PlannedTable.fillings` lists
the filled templates in the order in which they are read, and the first that is not an expression
decides the error (`error?_operations`); imports come last (`error?_synthesize`). -/

namespace EntityTable.Table

open Source
open Column (Direction MappingError Plan Plans)
open Entity (Schema StoredField)

/-! ### Missing plans -/

namespace PlannedTable

variable {s : Schema} {plans : Plans} {t : PlannedTable}

theorem error?_planned (field : StoredField) : error? (planned plans field) =
    if (plans.get? field.name).isSome then none else some (.missingPlan field.name) := by
  unfold planned
  cases plans.get? field.name <;> rfl

/-- **The first stored field without a plan decides.** -/
theorem ofPlans_of_missing {before after : List StoredField} {field : StoredField}
    (hsplit : s.storable = before ++ field :: after)
    (hbefore : ∀ f ∈ before, (plans.get? f.name).isSome) (hfield : plans.get? field.name = none) :
    ofPlans s plans = .error (.missingPlan field.name) := by
  have hfirst : error? (s.storable.mapM (planned plans)) = some (.missingPlan field.name) := by
    have hnone : before.findSome? (fun f => error? (planned plans f)) = none := by
      rw [List.findSome?_eq_none_iff]
      exact fun f hf => by rw [error?_planned, if_pos (hbefore f hf)]
    rw [error?_mapM, hsplit, List.findSome?_append, hnone, Option.none_or, List.findSome?_cons,
      error?_planned, hfield]
    rfl
  rw [ofPlans, error?_eq_some.mp hfirst]
  rfl

theorem mapM_planned_of_isSome : ∀ {fields : List StoredField},
    (∀ f ∈ fields, (plans.get? f.name).isSome) →
      ∃ columns, fields.mapM (planned plans) = .ok columns
  | [], _ => ⟨[], rfl⟩
  | field :: fields, h => by
    obtain ⟨plan, hplan⟩ := Option.isSome_iff_exists.mp (h field (by simp))
    have hfield : planned plans field = .ok ⟨field, plan⟩ := by rw [planned, hplan]
    obtain ⟨columns, hcolumns⟩ :=
      mapM_planned_of_isSome fun f hf => h f (List.mem_cons_of_mem field hf)
    refine ⟨⟨field, plan⟩ :: columns, ?_⟩
    rw [List.mapM_cons]
    exact bind_eq_ok.mpr ⟨_, hfield, bind_eq_ok.mpr ⟨columns, hcolumns, rfl⟩⟩

/-- A table is planned once every stored field has a plan and the key is stored. -/
theorem exists_ofPlans (hkey : s.primaryKey ∈ s.storable)
    (h : ∀ f ∈ s.storable, (plans.get? f.name).isSome) : ∃ t, ofPlans s plans = .ok t := by
  obtain ⟨columns, hcolumns⟩ := mapM_planned_of_isSome h
  obtain ⟨hfields, -⟩ := mapM_planned hcolumns
  obtain ⟨c, hc, hcfield⟩ := List.mem_map.mp (hfields ▸ hkey)
  have hfound : (columns.find? fun c => c.name == s.primaryKey.name).isSome := by
    rw [List.find?_isSome]
    exact ⟨c, hc, by rw [beq_iff_eq, ← hcfield]; rfl⟩
  obtain ⟨key, hkey⟩ := Option.isSome_iff_exists.mp hfound
  exact ⟨⟨s, columns, key⟩, bind_eq_ok.mpr ⟨columns, hcolumns, by rw [hkey]; rfl⟩⟩

end PlannedTable

/-! ### Filled templates -/

/-- A filled template, with the field and the direction that it belongs to. -/
structure Filling where
  field : String
  direction : Direction
  text : String

/-- The expression that a filled template forms. -/
def Filling.expr (f : Filling) : Except MappingError Expr :=
  (Expr.ofText f.text).mapError fun reason =>
    .invalidTemplate f.field f.direction f.text (.filled reason)

namespace PlannedField

/-- The template that stores the field of the entity. -/
def entityFilling (c : PlannedField) : Filling := ⟨c.name, .encode, c.plan.encode c.entitySource⟩

/-- The template that stores a value that is present. -/
def keyFilling (c : PlannedField) : Filling := ⟨c.name, .encode, c.plan.encodeValue "key"⟩

/-- The template that reads the field from a row. -/
def rowFilling (c : PlannedField) : Filling := ⟨c.name, .decode, c.plan.decode (c.plan.read "row")⟩

end PlannedField

namespace PlannedTable

/-- All filled templates of the operations, in the order in which they are read: those that create
and update, those for the key of deleting and getting, those for lookups, those that read rows. -/
def fillings (t : PlannedTable) : List Filling :=
  t.inserted.map PlannedField.entityFilling ++
    (t.columns.map PlannedField.entityFilling ++ ([t.key.entityFilling] ++
      ([t.key.keyFilling] ++ ([t.key.keyFilling] ++
        (t.lookups.map PlannedField.keyFilling ++ t.columns.map PlannedField.rowFilling)))))

/-- The error of the first filled template that is not an expression. -/
def firstFault (fillings : List Filling) : Option MappingError :=
  fillings.findSome? fun f => error? f.expr

theorem firstFault_append (a b : List Filling) :
    firstFault (a ++ b) = (firstFault a).or (firstFault b) := List.findSome?_append

theorem firstFault_singleton (f : Filling) : firstFault [f] = error? f.expr := by
  rw [firstFault, List.findSome?_cons, List.findSome?_nil]
  cases error? f.expr <;> rfl

theorem firstFault_map (g : PlannedField → Filling) (l : List PlannedField) :
    firstFault (l.map g) = l.findSome? fun c => error? (g c).expr := by
  rw [firstFault, List.findSome?_map]
  rfl

variable (t : PlannedTable)

theorem error?_create :
    error? t.create = firstFault (t.inserted.map PlannedField.entityFilling) := by
  have hquery : error? t.createQuery = error? (t.inserted.mapM PlannedField.encodeEntity) :=
    error?_bind_pure
  rw [firstFault_map, ← error?_mapM]
  exact error?_bind_pure.trans hquery

theorem error?_update : error? t.update =
    firstFault (t.columns.map PlannedField.entityFilling ++ [t.key.entityFilling]) := by
  have hquery : error? t.updateQuery =
      (error? (t.columns.mapM PlannedField.encodeEntity)).or (error? t.key.encodeEntity) :=
    error?_bind fun _ _ => error?_bind_pure
  rw [firstFault_append, firstFault_map, firstFault_singleton, ← error?_mapM]
  exact error?_bind_pure.trans hquery

theorem error?_byKey (statement : Statement) :
    error? (t.byKey statement) = firstFault [t.key.keyFilling] := by
  rw [firstFault_singleton]
  exact error?_bind_pure

theorem error?_delete : error? t.delete = firstFault [t.key.keyFilling] :=
  error?_bind_pure.trans (t.error?_byKey _)

theorem error?_get : error? t.get = firstFault [t.key.keyFilling] :=
  error?_bind_pure.trans (t.error?_byKey _)

theorem error?_lookups :
    error? (t.lookups.mapM t.getBy) = firstFault (t.lookups.map PlannedField.keyFilling) := by
  have hgetBy (c : PlannedField) : error? (t.getBy c) = error? c.keyFilling.expr := error?_bind_pure
  rw [error?_mapM, firstFault_map]
  simp only [hgetBy]

theorem error?_transform :
    error? t.transform = firstFault (t.columns.map PlannedField.rowFilling) := by
  have hdecoded : error? (t.columns.mapM PlannedField.decodeRow) =
      t.columns.findSome? fun c => error? c.rowFilling.expr := error?_mapM t.columns
  rw [firstFault_map, ← hdecoded]
  exact error?_bind_pure

/-- **The operations fail exactly for the first filled template that is not an expression.** -/
theorem error?_operations : error? t.operations = firstFault t.fillings := by
  have hstages : error? t.operations = (error? t.create).or ((error? t.update).or
      ((error? t.delete).or ((error? t.get).or ((error? (t.lookups.mapM t.getBy)).or
        (error? t.transform))))) :=
    error?_bind fun _ _ => error?_bind fun _ _ => error?_bind fun _ _ => error?_bind fun _ _ =>
      error?_bind fun _ _ => error?_bind_pure
  rw [hstages, error?_create, error?_update, error?_delete, error?_get, error?_lookups,
    error?_transform, fillings]
  simp only [firstFault_append, Option.or_assoc]

/-! ### Errors of a synthesis -/

theorem exists_filling_of_firstFault {fillings : List Filling} {e : MappingError}
    (h : firstFault fillings = some e) : ∃ f ∈ fillings, ∃ reason,
      e = .invalidTemplate f.field f.direction f.text (.filled reason) := by
  obtain ⟨f, hf, he⟩ := List.exists_of_findSome?_eq_some h
  refine ⟨f, hf, ?_⟩
  unfold Filling.expr at he
  cases hexpr : Expr.ofText f.text with
  | ok expr => rw [hexpr] at he; cases he
  | error reason =>
    rw [hexpr] at he
    cases he
    exact ⟨reason, rfl⟩

theorem error?_importOf {path field : String} {e : MappingError}
    (h : error? (importOf path field) = some e) : e = .invalidImport field path := by
  unfold importOf at h
  split at h <;> cases h
  rfl

/-- The first path that is not an import decides. -/
theorem error?_imports : error? t.imports =
    ((homeGlob t.schema.home :: baseImports).findSome? fun path =>
      error? (importOf path t.entity)).or
      (t.planImports.findSome? fun wanted => error? (importOf wanted.1 wanted.2)) := by
  rw [← error?_mapM, ← error?_mapM]
  exact error?_bind fun _ _ => error?_bind_pure

/-- Imports fail only as imports. -/
theorem exists_path_of_imports {e : MappingError} (h : error? t.imports = some e) :
    ∃ field path, e = .invalidImport field path := by
  rw [error?_imports, Option.or_eq_some_iff] at h
  rcases h with h | ⟨-, h⟩
  · obtain ⟨path, -, hpath⟩ := List.exists_of_findSome?_eq_some h
    exact ⟨_, _, error?_importOf hpath⟩
  · obtain ⟨wanted, -, hwanted⟩ := List.exists_of_findSome?_eq_some h
    exact ⟨_, _, error?_importOf hwanted⟩

end PlannedTable

variable {s : Schema} {plans : Plans} {t : PlannedTable}

/-- **Once a table is planned, filled templates are read first and imports afterwards.** -/
theorem error?_synthesize (h : PlannedTable.ofPlans s plans = .ok t) :
    error? (GeneratedUnit.synthesize s plans) =
      (PlannedTable.firstFault t.fillings).or (error? t.imports) := by
  have htable : error? (TableObject.ofPlanned t) = error? t.operations := error?_bind_pure
  have hrest : error? (TableObject.ofPlanned t >>= fun table => t.imports >>= fun imports =>
      (pure ⟨imports, table⟩ : Except MappingError GeneratedUnit)) =
      (error? (TableObject.ofPlanned t)).or (error? t.imports) :=
    error?_bind fun _ _ => error?_bind_pure
  rw [GeneratedUnit.synthesize, h, ← PlannedTable.error?_operations, ← htable]
  exact hrest

theorem synthesize_ne_missingPlan (h : PlannedTable.ofPlans s plans = .ok t) (field : String) :
    GeneratedUnit.synthesize s plans ≠ .error (.missingPlan field) := by
  intro hmissing
  have herror := error?_synthesize h
  rw [error?_eq_some.mpr hmissing, eq_comm, Option.or_eq_some_iff] at herror
  rcases herror with hfault | ⟨-, himport⟩
  · obtain ⟨f, -, reason, he⟩ := PlannedTable.exists_filling_of_firstFault hfault
    cases he
  · obtain ⟨_, _, he⟩ := t.exists_path_of_imports himport
    cases he

end EntityTable.Table
