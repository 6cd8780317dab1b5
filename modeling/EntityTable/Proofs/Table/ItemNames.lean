import EntityTable.Proofs.Table.Direct
import EntityTable.Proofs.Table.Generated

/-! # The names of generated items

All items of a generated implementation have different names. Each kind of operation has a name of
its own (`methodName_injective`), the constants of stored fields differ by the rules of the schema,
and no constant has the name of a method. So an operation is found by its name and a column by its
field; nothing is found under other names. A field that is not stored is found as a column all the
same if its identifier is that of a stored field, which its spelling may hide
(`column?_of_shadowed`). -/

namespace EntityTable.Table

open Source
open Column (Plans)
open Entity (columnConstant Description FieldDescription Schema StoredField article
  describes_of_build mem_names_storedOf mem_transientOf nodup_names_of_build storable_eq_of_build)

/-! ### Names of methods -/

namespace OperationKind

/-- The name of a lookup is not one that begins otherwise. -/
theorem methodName_getBy_ne {name : String} (h : name.toList.take 5 ≠ "get_b".toList)
    (field : String) : (getBy field).methodName ≠ name := by
  rintro rfl
  refine h ?_
  rw [methodName, String.toList_append]
  rfl

/-- **No two operations have methods of one name.** -/
theorem methodName_injective : Function.Injective methodName := by
  -- A lookup is recognized by its prefix, whatever the other operation is.
  have hgetBy (field : String) (kind : OperationKind)
      (hname : (getBy field).methodName = kind.methodName) : getBy field = kind := by
    cases kind with
    | getBy other => exact congrArg getBy ((String.append_right_inj "get_by_").mp hname)
    | save | create | update | delete | get | getAll | transform =>
      exact absurd hname (methodName_getBy_ne (by decide) field)
  intro a b h
  cases a with
  | getBy field => exact hgetBy field b h
  | _ =>
    cases b with
    | getBy field => exact (hgetBy field _ h.symm).symm
    | _ => first | rfl | exact absurd h (by decide)

/-- The name of a method is a fixed one or that of a lookup. -/
theorem methodName_ne {name : String} (hlookup : name.toList.take 5 ≠ "get_b".toList)
    (hfixed : name ∉ ["save", "create", "update", "delete", "get", "get_all", "transform"])
    (kind : OperationKind) : kind.methodName ≠ name := by
  cases kind with
  | getBy field => exact methodName_getBy_ne hlookup field
  | _ =>
    rintro rfl
    exact hfixed (by decide)

end OperationKind

/-- The name of a constant is not one that begins otherwise. -/
theorem ColumnConstant.name_ne {name : String} (h : name.toList.take 1 ≠ "C".toList)
    (c : ColumnConstant) : c.name ≠ name := by
  rintro rfl
  refine h ?_
  rw [ColumnConstant.name, columnConstant, String.toList_append]
  rfl

/-- No constant has the name of a method. -/
theorem ColumnConstant.name_ne_methodName (c : ColumnConstant) (kind : OperationKind) :
    c.name ≠ kind.methodName := by
  refine c.name_ne ?_
  cases kind with
  | getBy field =>
    rw [OperationKind.methodName, String.toList_append]
    exact ne_of_beq_false rfl
  | _ => decide

/-- With different names, an element is found by its name and by no other. -/
theorem find?_eq_some_iff_of_nodup {α : Type} {name : α → String} {l : List α}
    (h : (l.map name).Nodup) {given : String} {a : α} :
    l.find? (fun b => name b == given) = some a ↔ a ∈ l ∧ name a = given := by
  constructor
  · exact fun hfound => ⟨List.mem_of_find?_eq_some hfound, by simpa using List.find?_some hfound⟩
  · rintro ⟨ha, rfl⟩
    obtain ⟨b, hb⟩ : ∃ b, l.find? (fun b => name b == name a) = some b :=
      Option.isSome_iff_exists.mp (List.find?_isSome.mpr ⟨a, ha, by simp⟩)
    have hname : name b = name a := by simpa using List.find?_some hb
    rw [hb, List.inj_on_of_nodup_map h (List.mem_of_find?_eq_some hb) ha hname]

/-! ### Names of items -/

/-- The name of an item. -/
def itemName? : Item → Option String
  | .const _ _ name _ _ => some name
  | .fn _ _ signature _ => some signature.name
  | .static _ _ _ name _ _ => some name
  | .struct _ _ name _ => some name
  | .typeAlias _ _ name _ => some name
  | .impl .. | .use .. => none

/-- The items of an implementation. -/
def members : Item → List Item
  | .impl _ _ _ items => items
  | _ => []

/-- The names of the items of an implementation. -/
def memberNames (i : Item) : List String := (members i).filterMap itemName?

theorem PlannedTable.Makes.itemName?_method {t : PlannedTable} {o : Operation} (h : t.Makes o) :
    itemName? o.method = some o.name := by
  cases h with
  | save | getAll => rfl
  | create h | update h | delete h | get h | getBy _ h | transform h =>
    obtain ⟨_, -, h⟩ := bind_eq_ok.mp h
    cases h
    rfl

namespace GeneratedUnit.From

variable {u : GeneratedUnit} {d : Description} {s : Schema} {plans : Plans} {t : PlannedTable}
  (h : u.From d s plans t)
include h

theorem memberNames_implItem : memberNames u.table.implItem =
    ["TABLE_NAME"] ++ u.table.columns.map ColumnConstant.name ++
      ["PRIMARY_KEY", "new", "create_schema"] ++ u.table.operations.map Operation.name := by
  have hcolumns : (u.table.columns.map ColumnConstant.item).filterMap itemName? =
      u.table.columns.map ColumnConstant.name := by
    rw [List.filterMap_map]
    exact congrFun List.filterMap_eq_map _
  have hmethods : (u.table.operations.map Operation.method).filterMap itemName? =
      u.table.operations.map Operation.name := by
    rw [List.filterMap_map, ← List.filterMap_eq_map]
    exact List.filterMap_congr fun o ho => (h.makes ho).itemName?_method
  change List.filterMap itemName? (_ ++ _ ++ _ ++ _) = _
  rw [List.filterMap_append, List.filterMap_append, List.filterMap_append, hcolumns, hmethods]
  rfl

theorem names_operations : u.table.operations.map Operation.name =
    ["save", "create", "update", "delete", "get", "get_all"] ++
      s.lookups.map (fun f => "get_by_" ++ f.name) ++ ["transform"] := by
  have hnames : u.table.operations.map Operation.name =
      (u.table.operations.map Operation.kind).map OperationKind.methodName := by
    rw [List.map_map]
    rfl
  rw [hnames, h.kinds, List.map_append, List.map_append, List.map_map]
  rfl

theorem nodup_kinds : (u.table.operations.map Operation.kind).Nodup := by
  have hlookups : (s.lookups.map fun f => OperationKind.getBy f.name).Nodup := by
    have hnames : (s.lookups.map StoredField.name).Nodup :=
      (nodup_names_of_build h.build).sublist (List.filter_sublist.map _)
    have hkinds := hnames.map (f := OperationKind.getBy) fun _ _ => OperationKind.getBy.inj
    rwa [List.map_map] at hkinds
  rw [h.kinds, List.nodup_append, List.nodup_append]
  refine ⟨⟨by decide, hlookups, ?_⟩, List.nodup_singleton _, ?_⟩
  · rintro kind hkind _ hgetBy rfl
    obtain ⟨f, -, rfl⟩ := List.mem_map.mp hgetBy
    simp at hkind
  · rintro kind hkind _ htransform rfl
    obtain rfl := List.mem_singleton.mp htransform
    simp at hkind

/-- **All operations have different names.** -/
theorem nodup_names_operations : (u.table.operations.map Operation.name).Nodup := by
  have hnames := h.nodup_kinds.map OperationKind.methodName_injective
  rwa [List.map_map] at hnames

/-- The column constants of the stored fields differ, by the rules of the schema. -/
theorem nodup_constants : (s.storable.map StoredField.constant).Nodup := by
  rw [(storable_eq_of_build h.build).1]
  exact (describes_of_build h.build).1.fields.apart

/-- **All column constants have different names.** -/
theorem nodup_names_columns : (u.table.columns.map ColumnConstant.name).Nodup := by
  have hnames : u.table.columns.map ColumnConstant.name = s.storable.map StoredField.constant := by
    rw [h.columns, List.map_map]
    exact h.map_columns fun _ _ => rfl
  rw [hnames]
  exact h.nodup_constants

/-- **All items of the implementation have different names.** -/
theorem nodup_memberNames : (memberNames u.table.implItem).Nodup := by
  rw [h.memberNames_implItem, List.nodup_append, List.nodup_append, List.nodup_append]
  refine ⟨⟨⟨List.nodup_singleton _, h.nodup_names_columns, ?_⟩, by decide, ?_⟩,
    h.nodup_names_operations, ?_⟩
  · rintro _ hname _ hcolumn rfl
    obtain rfl := List.mem_singleton.mp hname
    obtain ⟨c, -, hc⟩ := List.mem_map.mp hcolumn
    exact c.name_ne (by decide) hc
  · rintro _ hname _ hfixed rfl
    rcases List.mem_append.mp hname with hname | hcolumn
    · obtain rfl := List.mem_singleton.mp hname
      exact absurd hfixed (by decide)
    · obtain ⟨c, -, rfl⟩ := List.mem_map.mp hcolumn
      simp only [List.mem_cons, List.not_mem_nil, or_false] at hfixed
      rcases hfixed with hc | hc | hc <;> exact c.name_ne (by decide) hc
  · rintro _ hname _ hmethod rfl
    obtain ⟨o, -, rfl⟩ := List.mem_map.mp hmethod
    rcases List.mem_append.mp hname with hname | hfixed
    · rcases List.mem_append.mp hname with hname | hcolumn
      · exact o.kind.methodName_ne (by decide) (by decide) (List.mem_singleton.mp hname)
      · obtain ⟨c, -, hc⟩ := List.mem_map.mp hcolumn
        exact c.name_ne_methodName o.kind hc
    · simp only [List.mem_cons, List.not_mem_nil, or_false] at hfixed
      rcases hfixed with ho | ho | ho <;> exact o.kind.methodName_ne (by decide) (by decide) ho

/-- A name finds no column exactly if it is the identifier of no stored field. -/
theorem column?_eq_none_iff {name : String} : u.table.column? name = none ↔
    ∀ f ∈ d.fields, f.isStored = true → identifier? f.name ≠ some name := by
  have hfind : u.table.column? name = none ↔ name ∉ u.table.columns.map ColumnConstant.field := by
    simp [TableObject.column?, List.find?_eq_none]
  rw [hfind, h.fields_columns, (storable_eq_of_build h.build).1, mem_names_storedOf]
  simp only [not_exists, not_and, ne_eq]

end GeneratedUnit.From

/-- **No two items clash, and each is found by its name.** What is found as a column under a name
are the stored fields with this identifier, so that the fields that are not stored are never found
exactly if their identifiers are not those of stored fields. -/
theorem names_of_generate {d : Description} {u : GeneratedUnit} (h : generate d = .ok u) :
    ∃ s, Schema.build d = .ok s ∧
      u.table.operations.map Operation.name =
        ["save", "create", "update", "delete", "get", "get_all"] ++
          s.lookups.map (fun f => "get_by_" ++ f.name) ++ ["transform"] ∧
      memberNames u.table.implItem =
        ["TABLE_NAME"] ++ u.table.columns.map ColumnConstant.name ++
          ["PRIMARY_KEY", "new", "create_schema"] ++ u.table.operations.map Operation.name ∧
      (memberNames u.table.implItem).Nodup ∧
      u.table.columns.map ColumnConstant.field = s.storable.map StoredField.name ∧
      (∀ name o, u.table.operation? name = some o ↔ o ∈ u.table.operations ∧ o.name = name) ∧
      (∀ name c, u.table.column? name = some c ↔ c ∈ u.table.columns ∧ c.field = name) ∧
      (∀ name, u.table.column? name = none ↔
        ∀ f ∈ d.fields, f.isStored = true → identifier? f.name ≠ some name) ∧
      ((∀ name ∈ s.transient, u.table.column? name = none) ↔
        ∀ f ∈ d.fields, ∀ g ∈ d.fields, f.isStored = true → g.roles.nonSavable = true →
          identifier? f.name ≠ identifier? g.name) := by
  obtain ⟨s, plans, t, hfrom⟩ := GeneratedUnit.exists_from h
  refine ⟨s, hfrom.build, hfrom.names_operations, hfrom.memberNames_implItem,
    hfrom.nodup_memberNames, hfrom.fields_columns,
    fun name o => find?_eq_some_iff_of_nodup hfrom.nodup_names_operations,
    fun name c => find?_eq_some_iff_of_nodup hfrom.nodup_fields_columns,
    fun name => hfrom.column?_eq_none_iff, ?_⟩
  simp only [(storable_eq_of_build hfrom.build).2, mem_transientOf, hfrom.column?_eq_none_iff]
  constructor
  · intro hnone f hf g hg hstored hsavable hsame
    obtain ⟨name, hname⟩ : ∃ name, identifier? g.name = some name :=
      Option.isSome_iff_exists.mp ((describes_of_build hfrom.build).1.fields.named g hg)
    exact hnone name ⟨g, hg, hsavable, hname⟩ f hf hstored (hsame.trans hname)
  · rintro hapart name ⟨g, hg, hsavable, hname⟩ f hf hstored hfname
    exact hapart f hf g hg hstored hsavable (hfname.trans hname.symm)

theorem names_of_generate_article : ∃ u, generate article = .ok u ∧
    (memberNames u.table.implItem).Nodup ∧ u.table.column? "draft" = none ∧
    (∃ c, u.table.column? "title" = some c) ∧
    ∃ o ∈ u.table.operations, u.table.operation? "get_by_title" = some o := by
  obtain ⟨u, hu⟩ := exists_generate_article
  obtain ⟨s, hs, hnames, -, hnodup, hfields, hoperation, hcolumn, hnone, -⟩ := names_of_generate hu
  have hstored : "title" ∈ u.table.columns.map ColumnConstant.field := by
    rw [hfields, names_of_build_article hs]
    decide
  have hlookup : "get_by_title" ∈ u.table.operations.map Operation.name := by
    have hlookups : s.lookups.map (fun f => "get_by_" ++ f.name) = ["get_by_title"] := by
      rw [Schema.lookups, (storable_eq_of_build hs).1]
      decide
    rw [hnames, hlookups]
    decide
  obtain ⟨c, hc, hcname⟩ := List.mem_map.mp hstored
  obtain ⟨o, ho, honame⟩ := List.mem_map.mp hlookup
  exact ⟨u, hu, hnodup, (hnone "draft").mpr (by decide),
    ⟨c, (hcolumn _ _).mpr ⟨hc, hcname⟩⟩, o, ho, (hoperation _ _).mpr ⟨ho, honame⟩⟩

/-- The article with a key whose name begins with a blank, and without it is that of a field that is
not stored. -/
def shadowedArticle : Description where
  name := "Article"
  home := none
  className := none
  table := none
  hideColumns := false
  fields := [(FieldDescription.plain " uuid" (.word "Uuid")).asPrimaryKey,
    (FieldDescription.plain "uuid" (.word "String")).asNonSavable]

theorem column?_of_shadowed : ∃ u s, generate shadowedArticle = .ok u ∧
    Schema.build shadowedArticle = .ok s ∧ "uuid" ∈ s.transient ∧
    ∃ c, u.table.column? "uuid" = some c := by
  obtain ⟨u, hu⟩ := exists_generate_of_isSimple (d := shadowedArticle) (by decide +kernel)
  obtain ⟨s, plans, t, hfrom⟩ := GeneratedUnit.exists_from hu
  have htransient : s.transient = ["uuid"] := by
    rw [(storable_eq_of_build hfrom.build).2]
    decide
  have hfields : u.table.columns.map ColumnConstant.field = ["uuid"] := by
    rw [hfrom.fields_columns, (storable_eq_of_build hfrom.build).1]
    decide
  obtain ⟨c, hc, hname⟩ := List.mem_map.mp (hfields ▸ List.mem_singleton_self "uuid")
  have hfound : (u.table.column? "uuid").isSome :=
    List.find?_isSome.mpr ⟨c, hc, beq_iff_eq.mpr hname⟩
  exact ⟨u, s, hu, hfrom.build, htransient ▸ List.mem_singleton_self _,
    Option.isSome_iff_exists.mp hfound⟩

end EntityTable.Table
