import EntityTable.Proofs.Column.Imports
import EntityTable.Proofs.Table.Direct
import EntityTable.Proofs.Table.Generated

/-! # Which conversions an operation uses

Whatever stores a field goes through one template, that of the field's plan: on the field of the
entity where a row is written, on the parameter `key` where rows are looked up. A field that may be
null is stored through a match, and a lookup by it takes the key out of its option first. What a row
is read into goes through the template for the other direction, from a column that is read as the
type of the plan. Main statement: `conversions_of_generate`. -/

namespace EntityTable.Table

open Source
open Column (Plan Plans Template)
open Entity (Description FieldDescription Schema StoredField exists_description_of_build)

/-! ### Expected texts -/

/-- A template applied to a value of a field: to the value that is present if the field may be null,
unless nothing changes. -/
def through (f : StoredField) (template : Template) (source : String) : String :=
  if f.isNullable = false ∨ template = .identity then template.fill source
  else
    "match " ++ source ++ " \x7b Some(value) => Some(" ++ template.fill "value" ++
      "), None => None \x7d"

/-- The text that stores the field of the entity. -/
def storedText (plan : StoredField → Plan) (f : StoredField) : String :=
  through f (plan f).conversion.encode ("&entity." ++ f.name)

/-- The text that stores the key that an operation is given. -/
def keyText (plan : StoredField → Plan) (f : StoredField) : String :=
  (plan f).conversion.encode.fill "key"

/-- The text that reads a column from a row as a type, inside `Option` if it may be null. -/
def columnText (isNullable : Bool) (ty name : String) : String :=
  "row.try_get::<" ++ (if isNullable then "Option<" ++ ty ++ ">" else ty) ++ ", _>(" ++
    Literal.quote name ++ ")?"

/-- The text that reads the field from a row. -/
def loadedText (plan : StoredField → Plan) (f : StoredField) : String :=
  through f (plan f).conversion.decode
    (columnText f.isNullable (Token.textList (plan f).conversion.readType.tokens) f.name)

/-- The texts of the values that an operation binds, in order. -/
def boundTexts (s : Schema) (plan : StoredField → Plan) : OperationKind → List String
  | .create => (s.storable.filter fun f => !f.isAutoIncrement).map (storedText plan)
  | .update => s.storable.map (storedText plan) ++
      [(plan s.primaryKey).conversion.encode.fill ("&entity." ++ s.primaryKey.name)]
  | .delete | .get => [keyText plan s.primaryKey]
  | .getBy name => (s.storable.filter fun f => f.name == name).map (keyText plan)
  | _ => []

/-! ### Reading methods -/

/-- The statement takes `key` out of its option; without a key the method returns no entities. -/
def isPresentKey : Stmt → Bool
  | .binding [] (.tupleRecord (.plain (.mk false [.plain "Some"]))
        [.binding false false "key" none] false)
      none (some (.path (.plain (.mk false [.plain "key"]))))
      (some (.block (.plain none) [.expr (.ret (some (.call
        (.path (.plain (.mk false [.plain "Ok"])))
        [.call (.path (.plain (.mk false [.plain "Vec", .plain "new"]))) [] false] false)))
        true])) => true
  | _ => false

/-- The method begins by taking `key` out of its option. -/
def unwrapsKey : Item → Bool
  | .fn _ _ _ (stmt :: _) => isPresentKey stmt
  | _ => false

/-- A field of a record with its value. -/
def memberValue? : FieldInit → Option (String × Expr)
  | .named _ member value => some (member, value)
  | .short .. => none

/-- The fields of the record that a method returns, with their values. -/
def returnedEntries : Item → List (String × Expr)
  | .fn _ _ _ [.expr (.call (.path (.plain (.mk false [.plain "Ok"])))
      [.record _ fields _ _ _] _) false] => fields.filterMap memberValue?
  | _ => []

theorem filterMap_memberValue? (attrs : List Attribute) : ∀ entries : List (String × Expr),
    (entries.map fun e => FieldInit.named attrs e.1 e.2).filterMap memberValue? = entries
  | [] => rfl
  | e :: entries => congrArg (e :: ·) (filterMap_memberValue? attrs entries)

/-! ### Operations -/

/-- The match is there exactly if the field may be null and its template changes something. -/
theorem fillNullable_eq (f : StoredField) (template : Template) (source : String) :
    Plan.fillNullable f.isNullable template source = through f template source := by
  have hsame : (!f.isNullable || template.isIdentity) = true ↔
      f.isNullable = false ∨ template = .identity := by
    rw [Bool.or_eq_true, Bool.not_eq_true', Template.isIdentity_iff]
  exact if_congr hsame rfl rfl

/-- The text of the expression that an operation stores a value of a column by. -/
def OperationKind.bindText : OperationKind → PlannedField → String
  | create, c | update, c => c.plan.encode c.entitySource
  | _, c => c.plan.encodeValue "key"

theorem ofText_bindText {kind : OperationKind} {c : PlannedField} {e : Expr}
    (h : kind.encode c = .ok e) : Expr.ofText (kind.bindText c) = .ok e := by
  cases kind <;> exact mapError_eq_ok.mp h

namespace PlannedTable

variable {t : PlannedTable} {o : Operation} {s : Schema} {plans : Plans}

theorem unwrapsKey_getBy {c : PlannedField} (h : t.getBy c = .ok o) :
    o.kind = .getBy c.name ∧ unwrapsKey o.method = c.field.isNullable := by
  obtain ⟨key, -, h⟩ := bind_eq_ok.mp h
  cases h
  refine ⟨rfl, ?_⟩
  change unwrapsKey (methodItem _ _ _ _ _ _
    ((if c.field.isNullable then [presentKey] else []) ++ _)) = _
  cases c.field.isNullable <;> rfl

/-- Only a lookup takes its key out of an option. -/
theorem Makes.lookup_or (h : t.Makes o) : (∃ c ∈ t.lookups, t.getBy c = .ok o) ∨
    (∀ name, o.kind ≠ .getBy name) ∧ unwrapsKey o.method = false := by
  cases h with
  | save | getAll => exact .inr ⟨nofun, rfl⟩
  | create h | update h | delete h | get h | transform h =>
    obtain ⟨_, -, h⟩ := bind_eq_ok.mp h
    cases h
    exact .inr ⟨nofun, rfl⟩
  | getBy hc h => exact .inl ⟨_, hc, h⟩

theorem Makes.transform_eq_ok (h : t.Makes o) (hkind : o.kind = .transform) :
    t.transform = .ok o := by
  cases h with
  | save | getAll => cases hkind
  | create h | update h | delete h | get h | getBy _ h =>
    obtain ⟨_, -, h⟩ := bind_eq_ok.mp h
    cases h
    cases hkind
  | transform h => exact h

/-- A method without a query of its own runs none. -/
theorem Makes.queries (h : t.Makes o) (hnone : o.query = none) : itemQueries o.method = [] := by
  cases h with
  | save => rfl
  | transform h =>
    obtain ⟨values, -, h⟩ := bind_eq_ok.mp h
    cases h
    rfl
  | create h | update h | delete h | get h | getBy _ h =>
    obtain ⟨_, -, h⟩ := bind_eq_ok.mp h
    cases h
    cases hnone
  | getAll => cases hnone

/-- What the function that reads rows returns: the values read, and the defaults of the others. -/
theorem returnedEntries_transform (h : t.transform = .ok o) :
    ∃ values, t.columns.mapM PlannedField.decodeRow = .ok values ∧
      returnedEntries o.method = (namesOf t.columns).zip values ++
        t.schema.transient.map fun name => (name, defaultValue) := by
  obtain ⟨values, hvalues, h⟩ := bind_eq_ok.mp h
  cases h
  refine ⟨values, hvalues, ?_⟩
  have hstored : (namesOf t.columns).zipWith (fun name value => FieldInit.named [] name value)
      values = ((namesOf t.columns).zip values).map fun e => FieldInit.named [] e.1 e.2 :=
    List.map_uncurry_zip_eq_zipWith.symm
  have hothers : t.schema.transient.map (fun name => FieldInit.named [] name defaultValue) =
      (t.schema.transient.map fun name => (name, defaultValue)).map
        fun e => FieldInit.named [] e.1 e.2 := by
    rw [List.map_map]
    rfl
  change List.filterMap memberValue? (_ ++ _) = _
  rw [hstored, hothers, ← List.map_append, filterMap_memberValue?]

end PlannedTable

namespace GeneratedUnit.From

variable {u : GeneratedUnit} {d : Description} {s : Schema} {plans : Plans} {t : PlannedTable}
  {c : PlannedField} (h : u.From d s plans t)
include h

theorem exists_plan :
    ∃ plan : StoredField → Plan, ∀ f ∈ s.storable, plans.get? f.name = some (plan f) := by
  -- The plan of the key stands in where there is none, which is for no stored field.
  refine ⟨fun f => (plans.get? f.name).getD t.key.plan, fun f hf => ?_⟩
  obtain ⟨c, hc, rfl⟩ := h.exists_column hf
  have hplan : plans.get? c.field.name = some c.plan := h.fits.planned c hc
  exact hplan.trans (congrArg (some <| Option.getD · t.key.plan) hplan).symm

section Plan
variable {plan : StoredField → Plan} (hplan : ∀ f ∈ s.storable, plans.get? f.name = some (plan f))
include hplan

theorem plan_eq (hc : c ∈ t.columns) : plan c.field = c.plan :=
  Option.some.inj ((hplan _ (h.mem_storable hc)).symm.trans (h.fits.planned c hc))

theorem encode_eq (hc : c ∈ t.columns) :
    c.plan.encode c.entitySource = storedText plan c.field := by
  rw [storedText, h.plan_eq hplan hc, ← fillNullable_eq, Plan.encode, (h.planOf hc).isNullable_eq]
  rfl

theorem encodeValue_eq (hc : c ∈ t.columns) :
    c.plan.encodeValue "key" = keyText plan c.field := by
  rw [keyText, h.plan_eq hplan hc]
  rfl

theorem decode_eq (hc : c ∈ t.columns) :
    c.plan.decode (c.plan.read "row") = loadedText plan c.field := by
  have hread : c.plan.read "row" = columnText c.plan.isNullable
      (Token.textList c.plan.conversion.readType.tokens) c.plan.column := rfl
  rw [loadedText, h.plan_eq hplan hc, ← fillNullable_eq, Plan.decode, hread,
    (h.planOf hc).isNullable_eq, (h.planOf hc).column]

/-- The values that an operation binds are written as the expected texts. -/
theorem bound_texts (kind : OperationKind) :
    (t.bound kind).map kind.bindText = boundTexts s plan kind := by
  have hstored : t.columns.map (fun c => c.plan.encode c.entitySource) =
      s.storable.map (storedText plan) := h.map_columns fun _ hc => h.encode_eq hplan hc
  have hkey : t.key.plan.encodeValue "key" = keyText plan s.primaryKey := by
    rw [h.encodeValue_eq hplan h.fits.mem_key, h.fits.key]
  cases kind with
  | create => exact h.map_inserted fun _ hc => h.encode_eq hplan hc
  | update =>
    have hwhere : t.key.plan.encode t.key.entitySource =
        (plan s.primaryKey).conversion.encode.fill ("&entity." ++ s.primaryKey.name) := by
      rw [h.encode_eq hplan h.fits.mem_key, storedText, h.fits.key, through,
        if_pos (Or.inl h.isNullable_key)]
    change (t.columns ++ [t.key]).map (fun c => c.plan.encode c.entitySource) = _
    rw [List.map_append, hstored, List.map_singleton, hwhere]
    rfl
  | delete => exact congrArg (fun text => [text]) hkey
  | get => exact congrArg (fun text => [text]) hkey
  | getBy name =>
    exact h.map_filter (p := fun f => f.name == name) fun _ hc => h.encodeValue_eq hplan hc
  | save => rfl
  | getAll => rfl
  | transform => rfl

/-- **An operation binds the expected expressions**, or it runs no query. -/
theorem binds_texts {o : Operation} (ho : o ∈ u.table.operations) :
    (o.kind = .save ∨ o.kind = .transform) ∧ itemQueries o.method = [] ∨
    ∃ sql binds, o.sql? = some sql ∧ (boundTexts s plan o.kind).mapM Expr.ofText = .ok binds ∧
      itemQueries o.method = [(Literal.quote sql, binds)] := by
  obtain ⟨hkind, hnone⟩ | ⟨q, hq⟩ := (PlannedTable.operations_run h.fits h.operations).2 o ho
  · exact .inl ⟨hkind, (h.makes ho).queries hnone⟩
  · refine .inr ⟨q.statement.text, q.binds, ?_, ?_, hq.method⟩
    · rw [Operation.sql?, hq.query]
      rfl
    · rw [← h.bound_texts hplan]
      exact mapM_map_of_mapM (fun _ _ => ofText_bindText) hq.binds

/-- **The function that reads rows returns the expected expressions.** -/
theorem loads_texts {o : Operation} (ho : o ∈ u.table.operations) (hkind : o.kind = .transform) :
    ∃ values, (s.storable.map (loadedText plan)).mapM Expr.ofText = .ok values ∧
      returnedEntries o.method = (s.storable.map StoredField.name).zip values ++
        s.transient.map fun name => (name, PlannedTable.defaultValue) := by
  obtain ⟨values, hvalues, hentries⟩ :=
    PlannedTable.returnedEntries_transform ((h.makes ho).transform_eq_ok hkind)
  refine ⟨values, ?_, ?_⟩
  · rw [← h.map_columns fun _ hc => h.decode_eq hplan hc]
    exact mapM_map_of_mapM (f := PlannedField.decodeRow) (fun _ _ => mapError_eq_ok.mp) hvalues
  · rw [hentries, h.fits.schema, PlannedTable.namesOf, h.fits.names]

end Plan

/-- A name denotes one stored field. -/
theorem filter_name {f : StoredField} (hf : f ∈ s.storable) :
    s.storable.filter (fun g => g.name == f.name) = [f] := by
  obtain ⟨c, hc, rfl⟩ := h.exists_column hf
  have hfilter := h.map_filter (p := fun g => g.name == c.name) (g := PlannedField.field) (k := id)
    fun _ _ => rfl
  rw [List.map_id] at hfilter
  exact hfilter.symm.trans (congrArg _ (h.fits.bound_getBy hc))

theorem unwrapsKey_iff {o : Operation} (ho : o ∈ u.table.operations) :
    unwrapsKey o.method = true ↔
      ∃ f ∈ s.lookups, o.kind = .getBy f.name ∧ f.isNullable = true := by
  rw [← h.fits.lookups]
  obtain ⟨c, hc, hmade⟩ | ⟨hkind, hno⟩ := (h.makes ho).lookup_or
  · obtain ⟨hkind, hunwraps⟩ := PlannedTable.unwrapsKey_getBy hmade
    rw [hunwraps, hkind]
    refine ⟨fun hnull => ⟨c.field, List.mem_map_of_mem hc, rfl, hnull⟩, ?_⟩
    rintro ⟨f, hf, hname, hnull⟩
    obtain ⟨c', hc', rfl⟩ := List.mem_map.mp hf
    -- Only the name of the field is known from the kind, and it belongs to one column.
    have hname : c.name = c'.name := OperationKind.getBy.inj hname
    obtain rfl := List.inj_on_of_nodup_map h.fits.distinct (List.mem_filter.mp hc).1
      (List.mem_filter.mp hc').1 hname
    exact hnull
  · rw [hno]
    exact ⟨nofun, fun ⟨f, _, hname, _⟩ => absurd hname (hkind f.name)⟩

end GeneratedUnit.From

/-! ### All operations -/

/-- **What is stored and what is looked up go through the same conversions.** Every operation binds
the texts for its kind and no others, the lookups of fields that may be null and only they take the
key out of an option, and rows are read by the conversions of the same plans. -/
theorem conversions_of_generate {d : Description} {u : GeneratedUnit} (h : generate d = .ok u) :
    ∃ (s : Schema) (plans : Plans) (plan : StoredField → Plan), Schema.build d = .ok s ∧
      Plans.resolve s = .ok plans ∧ (∀ f ∈ s.storable, plans.get? f.name = some (plan f)) ∧
      u.table.operations.map Operation.kind =
        [OperationKind.save, .create, .update, .delete, .get, .getAll] ++
          s.lookups.map (fun f => OperationKind.getBy f.name) ++ [OperationKind.transform] ∧
      (∀ f ∈ s.lookups, boundTexts s plan (.getBy f.name) = [keyText plan f]) ∧
      ∀ o ∈ u.table.operations,
        ((o.kind = .save ∨ o.kind = .transform) ∧ itemQueries o.method = [] ∨
          ∃ sql binds, o.sql? = some sql ∧
            (boundTexts s plan o.kind).mapM Expr.ofText = .ok binds ∧
            itemQueries o.method = [(Literal.quote sql, binds)]) ∧
        (unwrapsKey o.method = true ↔
          ∃ f ∈ s.lookups, o.kind = .getBy f.name ∧ f.isNullable = true) ∧
        (o.kind = .transform →
          ∃ values, (s.storable.map (loadedText plan)).mapM Expr.ofText = .ok values ∧
            returnedEntries o.method = (s.storable.map StoredField.name).zip values ++
              s.transient.map fun name => (name, PlannedTable.defaultValue)) := by
  obtain ⟨s, plans, t, hfrom⟩ := GeneratedUnit.exists_from h
  obtain ⟨plan, hplan⟩ := hfrom.exists_plan
  refine ⟨s, plans, plan, hfrom.build, hfrom.resolve, hplan, hfrom.kinds, fun f hf => ?_,
    fun o ho => ⟨hfrom.binds_texts hplan ho, hfrom.unwrapsKey_iff ho, hfrom.loads_texts hplan ho⟩⟩
  exact congrArg (List.map (keyText plan)) (hfrom.filter_name (List.mem_filter.mp hf).1)

/-- Laps, which the database numbers and which are looked up by a time that may be missing. -/
def lap : Description where
  name := "Lap"
  home := none
  className := none
  table := none
  hideColumns := false
  fields := [(FieldDescription.plain "number" (.word "i64")).asPrimaryKey.withAutoIncrement,
    (FieldDescription.plain "time" (.applied "Option" [.word "Time"])).asLookupKey.mappedBy
      ⟨.word "i64", none, some "\x7b\x7d.ms", some "Time(\x7b\x7d)", []⟩]

theorem isDirect_lap {s : Schema} (hs : Schema.build lap = .ok s) : ∀ f ∈ s.storable, f.IsDirect := by
  have hms : IsNameText "ms".toList := .of_isPlainName (by decide)
  have htime : IsNameText "Time".toList := .of_isPlainName (by decide)
  intro f hf
  obtain ⟨given, hgiven, -, name, -, rfl⟩ := exists_description_of_build hs hf
  simp only [lap, List.mem_cons, List.not_mem_nil, or_false] at hgiven
  rcases hgiven with rfl | rfl
  · exact fun _ => isNamed_word (.of_isPlainName (by decide))
  · refine ⟨fun text htext => ?_, fun text htext => ?_, fun _ _ _ _ => ?_⟩
    · cases htext
      refine Template.isDirect_of_ofText ⟨"", ".ms"⟩ (by decide +kernel) fun hole => ?_
      exact (Phrase.hole.operand.field hms).operand.term.expr
    · cases htext
      refine Template.isDirect_of_ofText ⟨"Time(", ")"⟩ (by decide +kernel) fun hole => ?_
      have hcall : Phrase hole .expr _ :=
        (Phrase.call htime.path (.lastArg Phrase.hole.operand.term.expr)).operand.term.expr
      rw [Template.textWith, List.append_assoc]
      exact hcall
    · exact isNamed_word (.of_isPlainName (by decide))

theorem exists_generate_lap : ∃ u, generate lap = .ok u :=
  exists_generate_of_isPlanned (by decide +kernel) fun _ => isDirect_lap

/-- The time is looked up by the template that stores it, once it is known to be there. -/
theorem conversions_of_generate_lap : ∃ u, generate lap = .ok u ∧
    ∃ o ∈ u.table.operations, o.kind = .getBy "time" ∧ unwrapsKey o.method = true ∧
      ∃ sql value, Expr.ofText "key.ms" = .ok value ∧
        itemQueries o.method = [(Literal.quote sql, [value])] := by
  obtain ⟨u, hu⟩ := exists_generate_lap
  obtain ⟨s, plans, plan, hs, hplans, hplan, hkinds, hlookups, hoperations⟩ :=
    conversions_of_generate hu
  have hrun : ((Schema.build lap).toOption.bind fun s =>
      (Plans.resolve s).toOption.bind fun plans => (plans.get? "time").map fun p =>
        (s.lookups.map fun f => (f.name, f.isNullable), p.conversion.encode)) =
      some ([("time", true)], ⟨"", ".ms"⟩) := by decide +kernel
  simp only [hs, hplans, Except.toOption, Option.bind_some] at hrun
  obtain ⟨p, hp, hrun⟩ := Option.map_eq_some_iff.mp hrun
  obtain ⟨hnames, hencode⟩ := Prod.mk.inj hrun
  obtain ⟨f, rest, hf, hname, hrest⟩ := List.map_eq_cons_iff.mp hnames
  obtain ⟨hname, hnull⟩ := Prod.mk.inj hname
  have hmem : f ∈ s.lookups := hf ▸ List.mem_cons_self
  have hkey : keyText plan f = "key.ms" := by
    have hplan := hplan f (List.mem_filter.mp hmem).1
    rw [hname, hp] at hplan
    rw [keyText, ← Option.some.inj hplan, hencode]
    decide
  obtain ⟨o, ho, hkind⟩ : ∃ o ∈ u.table.operations, o.kind = .getBy f.name :=
    List.mem_map.mp (hkinds ▸ by simpa using ⟨f, hmem, rfl⟩)
  obtain ⟨hbinds, hunwraps, -⟩ := hoperations o ho
  refine ⟨u, hu, o, ho, hname ▸ hkind, hunwraps.mpr ⟨f, hmem, hkind, hnull⟩, ?_⟩
  obtain ⟨hother | hother, -⟩ | ⟨sql, binds, -, hvalues, hquery⟩ := hbinds
  · cases hkind.symm.trans hother
  · cases hkind.symm.trans hother
  · rw [hkind, hlookups f hmem, hkey, List.mapM_cons] at hvalues
    obtain ⟨value, hvalue, hvalues⟩ := bind_eq_ok.mp hvalues
    cases hvalues
    exact ⟨sql, value, hvalue, hquery⟩

end EntityTable.Table
