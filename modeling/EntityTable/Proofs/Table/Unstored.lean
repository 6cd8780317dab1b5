import EntityTable.Proofs.Entity.Unstored
import EntityTable.Proofs.Table.Binding
import EntityTable.Proofs.Table.Faults

/-! # Units and fields that are not stored

Fields that are not stored only show in the function that turns rows into entities, where each has
an entry for its default value. Two descriptions that differ in such fields fail alike or give units
that agree on everything else (`GeneratedUnit.AgreesExceptDefaults`): a table that is planned from
one gives all calls of the other (`PlannedTable.calls_withTransient`), and the tokens of the last
function are a frame around the entries (`PlannedTable.tokens_of_transform`). -/

namespace EntityTable.Table

open Source
open Column (MappingError Plans)
open Entity (Description FieldDescription FieldEdit FieldEdits Schema article build_of_edits
  storable_eq_of_build transientOf)

/-! ### The function that reads rows -/

/-- The tokens of an entry that gives a field its default value. -/
def defaultEntry (name : String) : List Token :=
  memberTokens name ++ Token.operator ":" ++
    ["core", "default", "Default", "default"].flatMap
      (fun w => Token.operator "::" ++ wordToken w) ++
    [.group .paren []] ++ Token.operator ","

/-- The tokens of the function that turns rows into entities, around the entries of the entity. -/
def transformTokens (entity : String) (entries : List Token) : List Token :=
  wordToken "fn" ++ wordToken "transform" ++
    [.group .paren (wordToken "row" ++ Token.operator ":" ++ Token.operator "&" ++
      wordToken "PgRow")] ++
    Token.operator "->" ++ (resultOf (.word entity)).tokens ++
    [.group .brace (wordToken "Ok" ++ [.group .paren
      ((QualifiedPath.plain (.word entity)).tokens ++ [.group .brace entries])])]

theorem separated_trailing (operator : String) : ∀ groups : List (List Token),
    separated operator true groups = groups.flatMap (· ++ Token.operator operator)
  | [] => rfl
  | [last] => by simp [separated, operatorIf]
  | first :: second :: rest => by
    rw [separated, separated_trailing operator (second :: rest)]
    · rfl
    · exact List.cons_ne_nil second rest

theorem tokensOf_append : ∀ a b : List FieldInit,
    FieldInit.tokensOf (a ++ b) = FieldInit.tokensOf a ++ FieldInit.tokensOf b
  | [], _ => rfl
  | f :: a, b => by
    rw [List.cons_append, FieldInit.tokensOf, tokensOf_append a b, FieldInit.tokensOf,
      List.cons_append]

theorem tokens_default (name : String) :
    (FieldInit.named [] name PlannedTable.defaultValue).tokens ++ Token.operator "," =
      defaultEntry name := by
  have hvalue : PlannedTable.defaultValue.tokens = ["core", "default", "Default", "default"].flatMap
      (fun w => Token.operator "::" ++ wordToken w) ++ [.group .paren []] := by
    simp only [PlannedTable.defaultValue, Expr.apply, Expr.globalWords, Expr.tokens, Expr.tokensOf,
      separated]
    rfl
  rw [FieldInit.tokens, hvalue, defaultEntry, ← List.append_assoc]
  rfl

theorem flatMap_defaults : ∀ names : List String,
    (FieldInit.tokensOf (names.map fun name => .named [] name PlannedTable.defaultValue)).flatMap
      (· ++ Token.operator ",") = names.flatMap defaultEntry
  | [] => rfl
  | name :: names => by
    rw [List.map_cons, FieldInit.tokensOf, List.flatMap_cons, List.flatMap_cons,
      tokens_default, flatMap_defaults names]

namespace PlannedTable

variable {t : PlannedTable} {s : Schema} {plans : Plans} {o : Operation}

/-- **The tokens of the function** are those of the stored fields' entries and of the defaults. -/
theorem tokens_of_transform (h : t.transform = .ok o) :
    ∃ decoded, t.columns.mapM PlannedField.decodeRow = .ok decoded ∧
      o.tokens = transformTokens t.entity
        ((FieldInit.tokensOf ((namesOf t.columns).zipWith (fun name value => .named [] name value)
            decoded)).flatMap (· ++ Token.operator ",") ++
          t.schema.transient.flatMap defaultEntry) := by
  obtain ⟨decoded, hdecoded, h⟩ := bind_eq_ok.mp h
  cases h
  refine ⟨decoded, hdecoded, ?_⟩
  have hentries (stored : List FieldInit) : (FieldInit.tokensOf stored).flatMap
      (· ++ Token.operator ",") ++ t.schema.transient.flatMap defaultEntry =
      separated "," true (FieldInit.tokensOf
        (stored ++ t.schema.transient.map fun name => .named [] name defaultValue)) := by
    rw [← flatMap_defaults, ← List.flatMap_append, ← tokensOf_append, ← separated_trailing]
  rw [hentries]
  simp only [Operation.ofKind, Operation.tokens, methodItem, Item.tokens, Stmt.yields, okOf,
    Stmt.tokensOf, Stmt.tokens, Expr.tokens, Expr.apply, Expr.tokensOf, separated, operatorIf,
    List.append_nil, Bool.false_eq_true, if_false, Expr.optionTokens]
  rfl

/-! ### Other fields that are not stored -/

theorem schema_of_ofPlans (h : ofPlans s plans = .ok t) : t.schema = s := by
  obtain ⟨columns, -, h⟩ := bind_eq_ok.mp h
  split at h
  · cases h
    rfl
  · cases h

/-- The table with other names of fields that are not stored. -/
def withTransient (t : PlannedTable) (names : List String) : PlannedTable :=
  { t with schema := { t.schema with transient := names } }

theorem ofPlans_withTransient (s : Schema) (plans : Plans) (names : List String) :
    ofPlans { s with transient := names } plans =
      (ofPlans s plans).map fun t => t.withTransient names := by
  unfold ofPlans
  cases s.storable.mapM (planned plans) with
  | error e => rfl
  | ok columns =>
    cases hkey : columns.find? fun c => c.name == s.primaryKey.name with
    | none =>
      simp only [bind, Except.bind, hkey]
      rfl
    | some key =>
      simp only [bind, Except.bind, hkey]
      rfl

theorem fillings_withTransient (t : PlannedTable) (names : List String) :
    (t.withTransient names).fillings = t.fillings := rfl

/-- **All operations but the last are the same.** -/
theorem calls_withTransient (t : PlannedTable) (names : List String) :
    (t.withTransient names).calls = t.calls := rfl

theorem imports_withTransient (t : PlannedTable) (names : List String) :
    (t.withTransient names).imports = t.imports := rfl

end PlannedTable

/-! ### Units -/

/-- The units agree on everything but the default values that entities get when they are read: the
first gives them to the fields of one list, the second to those of another. -/
structure GeneratedUnit.AgreesExceptDefaults (u u' : GeneratedUnit) (names names' : List String) :
    Prop where
  imports : u'.imports = u.imports
  table : u'.table = { u.table with operations := u'.table.operations }
  /-- All operations are the same except that the last has another method. -/
  operations : ∃ calls transform method entries,
    u.table.operations = calls ++ [transform] ∧
    u'.table.operations = calls ++ [{ transform with method }] ∧
    transform.kind = .transform ∧
    transform.tokens = transformTokens u.table.entity (entries ++ names.flatMap defaultEntry) ∧
    method.tokens = transformTokens u.table.entity (entries ++ names'.flatMap defaultEntry)

variable {s s' : Schema} {plans : Plans} {t : PlannedTable} {u u' : GeneratedUnit}

/-- The parts of a unit that its planned table is asked for. -/
theorem parts_of_synthesize (ht : PlannedTable.ofPlans s plans = .ok t)
    (hu : GeneratedUnit.synthesize s plans = .ok u) :
    ∃ calls transform imports, t.calls = .ok calls ∧ t.transform = .ok transform ∧
      t.imports = .ok imports ∧ u = ⟨imports, {
        name := t.schema.generated
        entity := t.entity
        tableName := t.tableName
        columns := t.columns.map (.ofPlanned !t.schema.hideColumns)
        primaryKey := ⟨t.key.name, t.keyTy, t.keyColumn⟩
        statements := t.schemaStatements
        operations := calls ++ [transform] }⟩ := by
  obtain ⟨_, ht', hu⟩ := bind_eq_ok.mp hu
  cases ht.symm.trans ht'
  obtain ⟨table, htable, hu⟩ := bind_eq_ok.mp hu
  obtain ⟨imports, himports, hu⟩ := bind_eq_ok.mp hu
  obtain ⟨os, hos, htable⟩ := bind_eq_ok.mp htable
  rw [PlannedTable.operations_eq] at hos
  obtain ⟨calls, hcalls, hos⟩ := bind_eq_ok.mp hos
  obtain ⟨transform, htransform, hos⟩ := bind_eq_ok.mp hos
  cases hu
  cases htable
  cases hos
  exact ⟨calls, transform, imports, hcalls, htransform, himports, rfl⟩

theorem agrees_of_synthesize {names : List String} (ht : PlannedTable.ofPlans s plans = .ok t)
    (ht' : PlannedTable.ofPlans s' plans = .ok (t.withTransient names))
    (hu : GeneratedUnit.synthesize s plans = .ok u)
    (hu' : GeneratedUnit.synthesize s' plans = .ok u') :
    u.AgreesExceptDefaults u' t.schema.transient names := by
  obtain ⟨calls, transform, imports, hcalls, htransform, himports, rfl⟩ :=
    parts_of_synthesize ht hu
  obtain ⟨calls', transform', imports', hcalls', htransform', himports', rfl⟩ :=
    parts_of_synthesize ht' hu'
  cases hcalls.symm.trans hcalls'
  cases himports.symm.trans himports'
  obtain ⟨decoded, hdecoded, htokens⟩ := PlannedTable.tokens_of_transform htransform
  obtain ⟨decoded', hdecoded', htokens'⟩ := PlannedTable.tokens_of_transform htransform'
  cases hdecoded.symm.trans hdecoded'
  obtain ⟨hkind, hquery, hfields⟩ := PlannedTable.transform_eq htransform
  obtain ⟨hkind', hquery', hfields'⟩ := PlannedTable.transform_eq htransform'
  have hlast : transform' = { transform with method := transform'.method } := by
    cases transform
    cases transform'
    cases hkind
    cases hkind'
    cases hquery
    cases hquery'
    cases hfields
    cases hfields'
    rfl
  exact ⟨rfl, rfl, calls, transform, transform'.method, _, rfl, by rw [← hlast], hkind, htokens,
    htokens'⟩

/-- **Units of schemas that differ in fields that are not stored.** -/
theorem synthesize_withTransient (s : Schema) (plans : Plans) (names : List String) :
    (∃ e, GeneratedUnit.synthesize s plans = .error e ∧
      GeneratedUnit.synthesize { s with transient := names } plans = .error e) ∨
    ∃ u u', GeneratedUnit.synthesize s plans = .ok u ∧
      GeneratedUnit.synthesize { s with transient := names } plans = .ok u' ∧
      u.AgreesExceptDefaults u' s.transient names := by
  have hplanned := PlannedTable.ofPlans_withTransient s plans names
  cases ht : PlannedTable.ofPlans s plans with
  | error e =>
    rw [ht] at hplanned
    refine Or.inl ⟨e, ?_, ?_⟩
    · rw [GeneratedUnit.synthesize, ht]
      rfl
    · rw [GeneratedUnit.synthesize, hplanned]
      rfl
  | ok t =>
    rw [ht] at hplanned
    have herror : error? (GeneratedUnit.synthesize { s with transient := names } plans) =
        error? (GeneratedUnit.synthesize s plans) := by
      rw [error?_synthesize ht, error?_synthesize hplanned,
        PlannedTable.fillings_withTransient, PlannedTable.imports_withTransient]
    cases hu : GeneratedUnit.synthesize s plans with
    | error e =>
      rw [hu] at herror
      exact Or.inl ⟨e, rfl, error?_eq_some.mp herror⟩
    | ok u =>
      rw [hu] at herror
      obtain ⟨u', hu'⟩ := error?_eq_none.mp herror
      have hagrees := agrees_of_synthesize ht hplanned hu hu'
      rw [PlannedTable.schema_of_ofPlans ht] at hagrees
      exact Or.inr ⟨u, u', rfl, hu', hagrees⟩

/-- **Changing fields that are not stored changes nothing but their default values.** -/
theorem generate_of_edits {d : Description} {fields : List FieldDescription}
    (hs : Schema.build d = .ok s) (h : FieldEdits d.fields fields) :
    ∃ s', Schema.build { d with fields } = .ok s' ∧ Plans.resolve s' = Plans.resolve s ∧
      ((∃ e, generate d = .error e ∧ generate { d with fields } = .error e) ∨
        ∃ u u', generate d = .ok u ∧ generate { d with fields } = .ok u' ∧
          u.AgreesExceptDefaults u' (transientOf d.fields) (transientOf fields)) := by
  have hs' := build_of_edits hs h
  refine ⟨_, hs', rfl, ?_⟩
  have hresolve : Plans.resolve { s with transient := transientOf fields } = Plans.resolve s := rfl
  cases hplans : Plans.resolve s with
  | error e =>
    exact Or.inl ⟨_, generate_of_resolve_error hs hplans,
      generate_of_resolve_error hs' (hresolve.trans hplans)⟩
  | ok plans =>
    rw [generate_of_resolve hs hplans, generate_of_resolve hs' (hresolve.trans hplans),
      ← (storable_eq_of_build hs).2]
    rcases synthesize_withTransient s plans (transientOf fields) with
      ⟨e, he, he'⟩ | ⟨u, u', hu, hu', hagrees⟩
    · rw [he, he']
      exact Or.inl ⟨.mapping e, rfl, rfl⟩
    · rw [hu, hu']
      exact Or.inr ⟨u, u', rfl, rfl, hagrees⟩

/-- The field that is not stored, at another place and of a type that has no column. -/
def strangeDraft : List FieldDescription :=
  { (FieldDescription.plain "draft" (.word "Strange")).asNonSavable with serializable := true } ::
    article.fields.take 2

theorem generate_of_edits_strangeDraft : ∃ u u', generate article = .ok u ∧
    generate { article with fields := strangeDraft } = .ok u' ∧
    u.AgreesExceptDefaults u' ["draft"] ["draft"] := by
  obtain ⟨u, hu⟩ := exists_generate_article
  obtain ⟨s, -, hs, -, -⟩ := stages_of_generate hu
  have hmoved : FieldEdit article.fields
      ((FieldDescription.plain "draft" (.word "bool")).asNonSavable :: article.fields.take 2) :=
    @FieldEdit.move (article.fields.take 2) [] [] (article.fields.take 2) _ rfl rfl
  have hedits : FieldEdits article.fields strangeDraft :=
    .tail (.single hmoved) (@FieldEdit.redescribe [] _ _ (.word "Strange") true none rfl)
  obtain ⟨s', -, -, hunits⟩ := generate_of_edits hs hedits
  rcases hunits with ⟨e, he, -⟩ | ⟨u, u', hu, hu', hagrees⟩
  · cases hu.symm.trans he
  · have hnames : transientOf article.fields = ["draft"] := by decide
    have hnames' : transientOf strangeDraft = ["draft"] := by decide
    rw [hnames, hnames'] at hagrees
    exact ⟨u, u', hu, hu', hagrees⟩

end EntityTable.Table
