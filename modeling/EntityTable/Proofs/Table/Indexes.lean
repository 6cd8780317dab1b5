import EntityTable.Proofs.Table.Rows

/-! # Indexes of several tables

The indexes of all tables of a database are called by names that must differ, and an index is
created only if none has its name yet. The name joins the table and the column by a `_`, which both
may contain. So two indexes share a name exactly if the name of one table goes on, behind a `_`,
with what the other column begins with (`indexName_eq_iff`), and of two units the one that prepares
its table later lacks exactly the indexes whose names are taken. Main statement:
`indexes_of_generate`. -/

namespace EntityTable.Table

open Entity (Description FieldDescription StoredField nodup_names_of_build storable_eq_of_build
  storedOf)

/-! ### Names of indexes -/

/-- The second table is called as the first, a `_`, and what stands in the first column before a `_`
and the second column. -/
def Continues (table column table' column' : String) : Prop :=
  ∃ middle, table' = table ++ "_" ++ middle ∧ column = middle ++ "_" ++ column'

/-- Names that are joined by a `_` are the same if they are joined at the same `_`, or at two. -/
theorem append_underscore_eq_iff {xs ys xs' ys' : List Char} :
    xs ++ '_' :: ys = xs' ++ '_' :: ys' ↔ (xs = xs' ∧ ys = ys') ∨
      (∃ middle, xs' = xs ++ '_' :: middle ∧ ys = middle ++ '_' :: ys') ∨
      ∃ middle, xs = xs' ++ '_' :: middle ∧ ys' = middle ++ '_' :: ys := by
  rw [List.append_eq_append_iff]
  constructor
  · rintro (⟨between, hxs, hys⟩ | ⟨between, hxs, hys⟩)
    · cases between with
      | nil => exact .inl ⟨(hxs.trans (List.append_nil _)).symm, (List.cons.inj hys).2⟩
      | cons c middle =>
        obtain ⟨rfl, htail⟩ := List.cons.inj hys
        exact .inr (.inl ⟨middle, hxs, htail⟩)
    · cases between with
      | nil => exact .inl ⟨hxs.trans (List.append_nil _), (List.cons.inj hys).2.symm⟩
      | cons c middle =>
        obtain ⟨rfl, htail⟩ := List.cons.inj hys
        exact .inr (.inr ⟨middle, hxs, htail⟩)
  · rintro (⟨rfl, rfl⟩ | ⟨middle, rfl, rfl⟩ | ⟨middle, rfl, rfl⟩)
    · exact .inl ⟨[], (List.append_nil _).symm, rfl⟩
    · exact .inl ⟨'_' :: middle, rfl, rfl⟩
    · exact .inr ⟨'_' :: middle, rfl, rfl⟩

theorem continues_iff {table column table' column' : String} :
    Continues table column table' column' ↔
      ∃ middle, table'.toList = table.toList ++ '_' :: middle ∧
        column.toList = middle ++ '_' :: column'.toList := by
  constructor
  · rintro ⟨middle, rfl, rfl⟩
    exact ⟨middle.toList, by simp, by simp⟩
  · rintro ⟨middle, htable, hcolumn⟩
    exact ⟨String.ofList middle, String.toList_inj.mp (by simp [htable]),
      String.toList_inj.mp (by simp [hcolumn])⟩

theorem Continues.ne {table column table' column' : String}
    (h : Continues table column table' column') : table ≠ table' := by
  rintro rfl
  obtain ⟨middle, htable, -⟩ := continues_iff.mp h
  have hlength := congrArg List.length htable
  rw [List.length_append, List.length_cons] at hlength
  omega

/-- **Two indexes share a name** if they are on the same column of tables of one name, or if one
table's name goes on with what the other column begins with. -/
theorem indexName_eq_iff {table column table' column' : String} :
    indexName table column = indexName table' column' ↔ (table = table' ∧ column = column') ∨
      Continues table column table' column' ∨ Continues table' column' table column := by
  have hlist (table column : String) : (indexName table column).toList =
      "idx_".toList ++ (table.toList ++ '_' :: column.toList) := by
    simp [indexName]
  rw [← String.toList_inj, hlist, hlist, List.append_cancel_left_eq, append_underscore_eq_iff,
    String.toList_inj, String.toList_inj, continues_iff, continues_iff]

/-- On one table, indexes on different columns have different names. -/
theorem indexName_injective (table : String) : Function.Injective (indexName table) := by
  intro column column' h
  have hlist := congrArg String.toList h
  simp only [indexName, String.toList_append, List.append_cancel_left_eq] at hlist
  exact String.toList_inj.mp hlist

/-! ### Indexes of a database -/

/-- An index. -/
structure Index where
  name : String
  table : String
  column : String
  deriving DecidableEq

/-- The index that a statement creates. -/
def Statement.index? : Statement → Option Index
  | createIndex name table column => some ⟨name, table, column⟩
  | _ => none

/-- The indexes of a database once an index is to be created, which is if none has its name. -/
def createIfMissing (made : List Index) (i : Index) : List Index :=
  if i.name ∈ made.map Index.name then made else made ++ [i]

section Database

variable {made indexes : List Index} {i j : Index}

theorem mem_createIfMissing :
    j ∈ createIfMissing made i ↔ j ∈ made ∨ j = i ∧ i.name ∉ made.map Index.name := by
  unfold createIfMissing
  split_ifs with htaken
  · simp only [htaken, not_true_eq_false, and_false, or_false]
  · rw [List.mem_append, List.mem_singleton, and_iff_left htaken]

theorem mem_names_createIfMissing {name : String} :
    name ∈ (createIfMissing made i).map Index.name ↔ name ∈ made.map Index.name ∨ name = i.name := by
  unfold createIfMissing
  split_ifs with htaken
  · exact ⟨.inl, fun h => h.elim id fun hname => hname ▸ htaken⟩
  · rw [List.map_append, List.mem_append, List.map_singleton, List.mem_singleton]

/-- **What indexes there are in the end**: those that there were, and those whose names were free. -/
theorem mem_foldl_createIfMissing (hnodup : (indexes.map Index.name).Nodup) :
    j ∈ indexes.foldl createIfMissing made ↔
      j ∈ made ∨ j ∈ indexes ∧ j.name ∉ made.map Index.name := by
  induction indexes generalizing made with
  | nil => simp
  | cons i indexes ih =>
    obtain ⟨hfirst, hrest⟩ := List.nodup_cons.mp hnodup
    have hother (hj : j ∈ indexes) : j.name ≠ i.name := fun heq =>
      hfirst (heq ▸ List.mem_map_of_mem hj)
    rw [List.foldl_cons, ih hrest, mem_createIfMissing, mem_names_createIfMissing, List.mem_cons]
    constructor
    · rintro ((hmade | ⟨rfl, hfree⟩) | ⟨hj, hfree⟩)
      · exact .inl hmade
      · exact .inr ⟨.inl rfl, hfree⟩
      · exact .inr ⟨.inr hj, fun htaken => hfree (.inl htaken)⟩
    · rintro (hmade | ⟨rfl | hj, hfree⟩)
      · exact .inl (.inl hmade)
      · exact .inl (.inr ⟨rfl, hfree⟩)
      · exact .inr ⟨hj, fun htaken => htaken.elim hfree (hother hj)⟩

end Database

/-! ### Indexes of a unit -/

namespace TableObject

/-- The index on a column of the table. -/
def indexOn (t : TableObject) (column : String) : Index :=
  ⟨indexName t.tableName column, t.tableName, column⟩

/-- The indexes that the statements of the table create. -/
def indexes (t : TableObject) : List Index := t.statements.filterMap Statement.index?

/-- The indexes of a database once the statements have been run. -/
def prepare (t : TableObject) (made : List Index) : List Index :=
  t.indexes.foldl createIfMissing made

end TableObject

namespace GeneratedUnit.From

variable {u u' : GeneratedUnit} {d d' : Description} {s s' : Entity.Schema}
  {plans plans' : Column.Plans} {t t' : PlannedTable} (h : u.From d s plans t)
  (h' : u'.From d' s' plans' t')
include h

theorem indexes_eq : u.table.indexes = u.table.lookupFields.map u.table.indexOn := by
  have hcolumns : (t.columns.map fun c => Statement.addColumn t.tableName c.definition).filterMap
      Statement.index? = [] := by
    rw [List.filterMap_map]
    exact List.filterMap_eq_nil_iff.mpr fun c _ => rfl
  have hlookups : (t.lookups.map fun c => Statement.createIndex
      (indexName t.tableName c.plan.column) t.tableName c.plan.column).filterMap Statement.index? =
      (t.lookups.map fun c => c.plan.column).map u.table.indexOn := by
    rw [List.filterMap_map, List.map_map, ← List.filterMap_eq_map]
    refine List.filterMap_congr fun c _ => ?_
    show some (Index.mk (indexName t.tableName c.plan.column) _ _) = some (u.table.indexOn _)
    rw [TableObject.indexOn, h.tableName]
  have hfields : (t.lookups.map fun c => c.plan.column) = u.table.lookupFields := by
    rw [h.lookupFields_eq, ← h.fits.lookups, List.map_map]
    exact List.map_congr_left fun c hc => h.fits.column (List.mem_filter.mp hc).1
  rw [TableObject.indexes, h.statements, PlannedTable.schemaStatements, h.indexed_eq,
    List.filterMap_append, List.filterMap_cons_none rfl, hcolumns, hlookups, hfields]
  rfl

/-- The indexes of one table have different names. -/
theorem nodup_names_indexes : (u.table.indexes.map Index.name).Nodup := by
  have hnames : u.table.lookupFields.Nodup := by
    rw [h.lookupFields_eq]
    exact (nodup_names_of_build h.build).sublist (List.filter_sublist.map _)
  rw [h.indexes_eq, List.map_map]
  exact hnames.map (indexName_injective u.table.tableName)

/-- In a database without indexes all of them are created. -/
theorem mem_prepare_nil {i : Index} : i ∈ u.table.prepare [] ↔ i ∈ u.table.indexes := by
  rw [TableObject.prepare, mem_foldl_createIfMissing h.nodup_names_indexes]
  simp

include h'

/-- **Which indexes a second unit lacks**: those whose names go on as the first unit's. -/
theorem not_mem_prepare_iff {column' : String} (hcolumn' : column' ∈ u'.table.lookupFields) :
    u'.table.indexOn column' ∉ u'.table.prepare (u.table.prepare []) ↔
      ∃ column ∈ u.table.lookupFields,
        Continues u.table.tableName column u'.table.tableName column' ∨
          Continues u'.table.tableName column' u.table.tableName column := by
  have hcreated : u'.table.indexOn column' ∈ u'.table.indexes := by
    rw [h'.indexes_eq]
    exact List.mem_map_of_mem hcolumn'
  have hmissing : u'.table.indexOn column' ∉ u'.table.prepare (u.table.prepare []) ↔
      u'.table.indexOn column' ∉ u.table.indexes ∧
        ∃ i ∈ u.table.indexes, i.name = (u'.table.indexOn column').name := by
    rw [TableObject.prepare, mem_foldl_createIfMissing h'.nodup_names_indexes, List.mem_map,
      h.mem_prepare_nil, and_iff_right hcreated, not_or, not_not]
    simp only [h.mem_prepare_nil]
  rw [hmissing, h.indexes_eq]
  constructor
  · rintro ⟨hother, i, hi, hname⟩
    obtain ⟨column, hcolumn, rfl⟩ := List.mem_map.mp hi
    refine ⟨column, hcolumn, (indexName_eq_iff.mp hname).resolve_left fun ⟨htable, hsame⟩ => ?_⟩
    have heq : u'.table.indexOn column' = u.table.indexOn column := by
      rw [TableObject.indexOn, TableObject.indexOn, htable, hsame]
    exact hother (heq ▸ hi)
  · rintro ⟨column, hcolumn, hcontinues⟩
    refine ⟨fun hsame => ?_, u.table.indexOn column, List.mem_map_of_mem hcolumn,
      indexName_eq_iff.mpr (.inr hcontinues)⟩
    obtain ⟨_, -, heq⟩ := List.mem_map.mp hsame
    have htable : u.table.tableName = u'.table.tableName := congrArg Index.table heq
    rcases hcontinues with hcontinues | hcontinues
    · exact hcontinues.ne htable
    · exact hcontinues.ne htable.symm

end GeneratedUnit.From

/-- **The indexes of two units in one database.** Each unit creates one index for each lookup, all
with different names. Indexes of two units share a name if they are on the same column of tables of
one name, or if the name of one table goes on with what the other column begins with; in the latter
case the unit that comes second lacks its index, and it lacks no other. -/
theorem indexes_of_generate {d d' : Description} {u u' : GeneratedUnit} (h : generate d = .ok u)
    (h' : generate d' = .ok u') :
    u.table.indexes = u.table.lookupFields.map u.table.indexOn ∧
    (u.table.indexes.map Index.name).Nodup ∧
    (∀ i ∈ u.table.indexes, ∀ j ∈ u'.table.indexes, i.name = j.name ↔
      (i.table = j.table ∧ i.column = j.column) ∨
        Continues i.table i.column j.table j.column ∨
        Continues j.table j.column i.table i.column) ∧
    (∀ i, i ∈ u.table.prepare [] ↔ i ∈ u.table.indexes) ∧
    ∀ column' ∈ u'.table.lookupFields,
      u'.table.indexOn column' ∉ u'.table.prepare (u.table.prepare []) ↔
        ∃ column ∈ u.table.lookupFields,
          Continues u.table.tableName column u'.table.tableName column' ∨
            Continues u'.table.tableName column' u.table.tableName column := by
  obtain ⟨s, plans, t, hfrom⟩ := GeneratedUnit.exists_from h
  obtain ⟨s', plans', t', hfrom'⟩ := GeneratedUnit.exists_from h'
  refine ⟨hfrom.indexes_eq, hfrom.nodup_names_indexes, fun i hi j hj => ?_,
    fun i => hfrom.mem_prepare_nil, fun column' => hfrom.not_mem_prepare_iff hfrom'⟩
  rw [hfrom.indexes_eq] at hi
  rw [hfrom'.indexes_eq] at hj
  obtain ⟨column, -, rfl⟩ := List.mem_map.mp hi
  obtain ⟨column', -, rfl⟩ := List.mem_map.mp hj
  exact indexName_eq_iff

/-- Users, who are looked up by the names of their profiles. -/
def user : Description where
  name := "User"
  home := none
  className := none
  table := none
  hideColumns := false
  fields := [(FieldDescription.plain "uuid" (.word "Uuid")).asPrimaryKey,
    (FieldDescription.plain "profile_name" (.word "String")).asLookupKey]

/-- Profiles of users, which are looked up by their names. -/
def userProfile : Description :=
  { user with
    name := "UserProfile"
    fields := [(FieldDescription.plain "uuid" (.word "Uuid")).asPrimaryKey,
      (FieldDescription.plain "name" (.word "String")).asLookupKey] }

/-- The table of a unit and its lookups, by the description. -/
theorem tableName_and_lookupFields {d : Description} {u : GeneratedUnit} (h : generate d = .ok u) :
    u.table.tableName = d.table.getD (Text.snakeCase d.name) ∧
    u.table.lookupFields =
      ((storedOf d.fields).filter StoredField.isLookupKey).map StoredField.name := by
  obtain ⟨s, plans, t, hfrom⟩ := GeneratedUnit.exists_from h
  rw [hfrom.lookupFields_eq, Entity.Schema.lookups, (storable_eq_of_build hfrom.build).1]
  exact ⟨hfrom.tableName_eq, rfl⟩

theorem exists_generate_user : ∃ u, generate user = .ok u ∧ u.table.tableName = "user" ∧
    u.table.lookupFields = ["profile_name"] := by
  obtain ⟨u, hu⟩ := exists_generate_of_isSimple (d := user) (by decide +kernel)
  obtain ⟨htable, hlookups⟩ := tableName_and_lookupFields hu
  exact ⟨u, hu, htable.trans (by decide), hlookups.trans (by decide)⟩

theorem exists_generate_userProfile : ∃ u, generate userProfile = .ok u ∧
    u.table.tableName = "user_profile" ∧ u.table.lookupFields = ["name"] := by
  obtain ⟨u, hu⟩ := exists_generate_of_isSimple (d := userProfile) (by decide +kernel)
  obtain ⟨htable, hlookups⟩ := tableName_and_lookupFields hu
  exact ⟨u, hu, htable.trans (by decide), hlookups.trans (by decide)⟩

/-- The profiles lack their index once the users have theirs. -/
theorem indexes_of_generate_userProfile : ∃ u u', generate user = .ok u ∧
    generate userProfile = .ok u' ∧ u'.table.lookupFields = ["name"] ∧
    u'.table.indexOn "name" ∉ u'.table.prepare (u.table.prepare []) := by
  obtain ⟨u, hu, htable, hlookups⟩ := exists_generate_user
  obtain ⟨u', hu', htable', hlookups'⟩ := exists_generate_userProfile
  obtain ⟨-, -, -, -, hmissing⟩ := indexes_of_generate hu hu'
  refine ⟨u, u', hu, hu', hlookups', (hmissing "name" ?_).mpr ⟨"profile_name", ?_, .inl ?_⟩⟩
  · rw [hlookups']
    exact List.mem_singleton_self _
  · rw [hlookups]
    exact List.mem_singleton_self _
  · rw [htable, htable']
    exact ⟨"profile", by decide, by decide⟩

/-- Two indexes on different columns of different tables that share a name. -/
theorem indexes_collide : ∃ u u', generate user = .ok u ∧ generate userProfile = .ok u' ∧
    ∃ i ∈ u.table.indexes, ∃ j ∈ u'.table.indexes, i.name = "idx_user_profile_name" ∧
      j.name = i.name ∧ j.table ≠ i.table ∧ j.column ≠ i.column := by
  obtain ⟨u, hu, htable, hlookups⟩ := exists_generate_user
  obtain ⟨u', hu', htable', hlookups'⟩ := exists_generate_userProfile
  obtain ⟨s, plans, t, hfrom⟩ := GeneratedUnit.exists_from hu
  obtain ⟨s', plans', t', hfrom'⟩ := GeneratedUnit.exists_from hu'
  refine ⟨u, u', hu, hu', ⟨"idx_user_profile_name", "user", "profile_name"⟩, ?_,
    ⟨"idx_user_profile_name", "user_profile", "name"⟩, ?_, rfl, rfl, by decide, by decide⟩
  · rw [hfrom.indexes_eq, hlookups, List.map_singleton, List.mem_singleton, TableObject.indexOn,
      htable]
    decide
  · rw [hfrom'.indexes_eq, hlookups', List.map_singleton, List.mem_singleton, TableObject.indexOn,
      htable']
    decide

end EntityTable.Table
