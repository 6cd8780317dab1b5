import EntityTable.Proofs.Table.Conversions

/-! # Events of a generation

The events that a generation leaves are known from the schema alone up to what the plans and the
unit say (`headingsOf`): one for the schema, one or two for each stored field in order, one for
the table and one for the unit. A generation that fails leaves an initial part of them, which ends
right before the events of what failed (`events_of_generate`). -/

namespace EntityTable

open Column (MappingError Plan Plans)
open Entity (Description FieldDescription Schema SchemaError StoredField article
  describes_of_build storable_eq_of_build)
open Table (GeneratedUnit)

variable {d : Description} {s : Schema} {f : StoredField} {plan : Plan}
  {fs before after : List StoredField} {plans : List Plan}

/-! ### Events of fields -/

/-- The events of a field that is planned. -/
def fieldEvents (f : StoredField) (plan : Plan) : List Event :=
  (if isListField f then [.lossyList plan.column] else []) ++ [.columnPlanned plan]

/-- The events of fields that are planned, in order. -/
def plannedEvents (fs : List StoredField) (plans : List Plan) : List Event :=
  (fs.zip plans).flatMap fun (f, plan) => fieldEvents f plan

theorem planningEvents_cons (h : Plan.ofField f = .ok plan) (rest : List StoredField) :
    planningEvents (f :: rest) = fieldEvents f plan ++ planningEvents rest := by
  rw [planningEvents, h, fieldEvents, List.append_assoc]
  rfl

/-- Fields that are planned leave their events, and those of the fields after them follow. -/
theorem planningEvents_append (h : before.mapM Plan.ofField = .ok plans)
    (after : List StoredField) :
    planningEvents (before ++ after) = plannedEvents before plans ++ planningEvents after := by
  induction before generalizing plans with
  | nil =>
    cases h
    rfl
  | cons f before ih =>
    rw [List.mapM_cons] at h
    obtain ⟨plan, hplan, h⟩ := bind_eq_ok.mp h
    obtain ⟨rest, hrest, h⟩ := bind_eq_ok.mp h
    cases h
    rw [List.cons_append, planningEvents_cons hplan, ih hrest, plannedEvents, plannedEvents,
      List.zip_cons_cons, List.flatMap_cons, List.append_assoc]

/-! ### Headings -/

/-- What is known of an event before anything is planned: its level, its message, and the field that
it names. -/
def Event.heading (e : Event) : Level × String × Option String :=
  (e.level, e.message, e.fields.lookup "field")

/-- The headings of the events of a stored field. -/
def fieldHeadings (f : StoredField) : List (Level × String × Option String) :=
  (if isListField f then
    [(.warn, "list column uses bare comma separators, elements containing commas will not " ++
      "round-trip", some f.name)]
  else []) ++ [(.trace, "column planned", some f.name)]

/-- The headings of the events up to those of the given fields. -/
def openingHeadings (fs : List StoredField) : List (Level × String × Option String) :=
  (.debug, "entity schema built", none) :: fs.flatMap fieldHeadings

/-- The headings of all events for a schema. -/
def headingsOf (s : Schema) : List (Level × String × Option String) :=
  openingHeadings s.storable ++
    [(.debug, "table object synthesized", none), (.debug, "unit generated", none)]

theorem openingHeadings_append (before after : List StoredField) :
    openingHeadings (before ++ after) = openingHeadings before ++ after.flatMap fieldHeadings := by
  rw [openingHeadings, List.flatMap_append]
  rfl

theorem headings_fieldEvents (h : Plan.ofField f = .ok plan) :
    (fieldEvents f plan).map Event.heading = fieldHeadings f := by
  have hcolumn : plan.column = f.name := Plan.column_of_ofField h
  unfold fieldEvents fieldHeadings
  rw [← hcolumn]
  cases isListField f <;> rfl

theorem headings_plannedEvents (h : fs.mapM Plan.ofField = .ok plans) :
    (plannedEvents fs plans).map Event.heading = fs.flatMap fieldHeadings := by
  induction fs generalizing plans with
  | nil =>
    cases h
    rfl
  | cons f fs ih =>
    rw [List.mapM_cons] at h
    obtain ⟨plan, hplan, h⟩ := bind_eq_ok.mp h
    obtain ⟨rest, hrest, h⟩ := bind_eq_ok.mp h
    cases h
    rw [plannedEvents, List.zip_cons_cons, List.flatMap_cons, List.map_append,
      headings_fieldEvents hplan, List.flatMap_cons, ← ih hrest, plannedEvents]

/-! ### Ends of a generation -/

section Ends

variable {resolved : Plans} {u : GeneratedUnit}

/-- Without a schema there is no event. -/
theorem events_of_build_error {e : SchemaError} (hs : Schema.build d = .error e) :
    generate d = .error (.schema e) ∧ events d = [] := by
  refine ⟨?_, ?_⟩
  · rw [generate, hs]
    rfl
  · rw [events, hs]

theorem events_of_build (hs : Schema.build d = .ok s) :
    events d = .schemaBuilt s :: planningEvents s.storable ++ synthesisEvents s := by
  rw [events, hs]

/-- The first field that cannot be planned leaves no event. -/
theorem events_of_ofField_error {e : MappingError} (hs : Schema.build d = .ok s)
    (hsplit : s.storable = before ++ f :: after) (hbefore : before.mapM Plan.ofField = .ok plans)
    (hf : Plan.ofField f = .error e) :
    generate d = .error (.mapping e) ∧ events d = .schemaBuilt s :: plannedEvents before plans := by
  have hresolve : Plans.resolve s = .error e := by
    rw [Plans.resolve_eq, hsplit, List.mapM_append, hbefore, List.mapM_cons, hf]
    rfl
  have hstop : planningEvents (f :: after) = [] := by rw [planningEvents, hf]
  have hnone : synthesisEvents s = [] := by rw [synthesisEvents, hresolve]
  refine ⟨Table.generate_of_resolve_error hs hresolve, ?_⟩
  rw [events_of_build hs, hnone, hsplit, planningEvents_append hbefore, hstop, List.append_nil,
    List.append_nil]

theorem planningEvents_of_resolve (hs : Schema.build d = .ok s)
    (hresolve : Plans.resolve s = .ok resolved) :
    planningEvents s.storable = plannedEvents s.storable resolved.toList := by
  have happend := planningEvents_append (Plans.mapM_ofField_of_resolve hs hresolve) []
  rwa [List.append_nil, planningEvents, List.append_nil] at happend

/-- A synthesis that fails leaves no event. -/
theorem events_of_synthesize_error {e : MappingError} (hs : Schema.build d = .ok s)
    (hresolve : Plans.resolve s = .ok resolved)
    (hu : GeneratedUnit.synthesize s resolved = .error e) :
    generate d = .error (.mapping e) ∧
      events d = .schemaBuilt s :: plannedEvents s.storable resolved.toList := by
  have hnone : synthesisEvents s = [] := by simp only [synthesisEvents, hresolve, hu]
  refine ⟨?_, ?_⟩
  · rw [Table.generate_of_resolve hs hresolve, hu]
    rfl
  · rw [events_of_build hs, hnone, planningEvents_of_resolve hs hresolve, List.append_nil]

theorem events_of_synthesize (hs : Schema.build d = .ok s)
    (hresolve : Plans.resolve s = .ok resolved)
    (hu : GeneratedUnit.synthesize s resolved = .ok u) :
    generate d = .ok u ∧
      events d = .schemaBuilt s :: plannedEvents s.storable resolved.toList ++
        [.tableSynthesized u, .unitGenerated s.origin u] := by
  have hlast : synthesisEvents s = [.tableSynthesized u, .unitGenerated s.origin u] := by
    simp only [synthesisEvents, hresolve, hu]
  refine ⟨?_, ?_⟩
  · rw [Table.generate_of_resolve hs hresolve, hu]
    rfl
  · rw [events_of_build hs, hlast, planningEvents_of_resolve hs hresolve]

/-! ### Headings of the events -/

/-- The headings of the events for a schema and for fields that are planned. -/
theorem headings_opening (s : Schema) (h : fs.mapM Plan.ofField = .ok plans) :
    (Event.schemaBuilt s :: plannedEvents fs plans).map Event.heading = openingHeadings fs := by
  rw [List.map_cons, headings_plannedEvents h]
  rfl

theorem headings_resolved (hs : Schema.build d = .ok s)
    (hresolve : Plans.resolve s = .ok resolved) :
    (Event.schemaBuilt s :: plannedEvents s.storable resolved.toList).map Event.heading =
      openingHeadings s.storable := headings_opening s (Plans.mapM_ofField_of_resolve hs hresolve)

/-- **A generation that succeeds leaves all events of its schema.** -/
theorem headings_of_generate (h : generate d = .ok u) (hs : Schema.build d = .ok s) :
    (events d).map Event.heading = headingsOf s := by
  obtain ⟨s', resolved, hs', hresolve, hu⟩ := Table.stages_of_generate h
  obtain rfl := Except.ok.inj (hs.symm.trans hs')
  rw [(events_of_synthesize hs hresolve hu).2, List.map_append, headings_resolved hs hresolve]
  rfl

/-- **The events of a generation are an initial part of those of its schema.** -/
theorem headings_initial (hs : Schema.build d = .ok s) :
    (events d).map Event.heading <+: headingsOf s := by
  cases hresolve : Plans.resolve s with
  | error e =>
    have hrun : s.storable.mapM Plan.ofField = .error e := by
      rw [Plans.resolve_eq] at hresolve
      cases hrun : s.storable.mapM Plan.ofField with
      | ok plans => rw [hrun] at hresolve; cases hresolve
      | error e' => rw [hrun] at hresolve; cases hresolve; rfl
    obtain ⟨before, f, after, plans, hsplit, hbefore, hf⟩ := exists_split_of_mapM_error hrun
    rw [(events_of_ofField_error hs hsplit hbefore hf).2, headings_opening s hbefore, headingsOf,
      hsplit, openingHeadings_append, List.append_assoc]
    exact List.prefix_append _ _
  | ok resolved =>
  cases hu : GeneratedUnit.synthesize s resolved with
  | error e =>
    rw [(events_of_synthesize_error hs hresolve hu).2, headings_resolved hs hresolve]
    exact List.prefix_append _ _
  | ok u =>
    have hall := headings_of_generate (events_of_synthesize hs hresolve hu).1 hs
    exact hall ▸ List.prefix_refl _

end Ends

/-! ### Counts -/

/-- The numbers of fields in a schema are those of the description. -/
theorem lengths_of_build (hs : Schema.build d = .ok s) :
    s.storable.length = d.fields.countP FieldDescription.isStored ∧
    s.transient.length = d.fields.countP (fun f => !f.isStored) ∧
    s.lookups.length = d.fields.countP fun f => f.isStored && f.roles.lookupKey := by
  have hsound := (describes_of_build hs).1.fields
  obtain ⟨hstorable, htransient⟩ := storable_eq_of_build hs
  have hstored := hsound.map_stored?
  rw [← hstorable] at hstored
  refine ⟨?_, ?_, ?_⟩
  · rw [List.countP_eq_length_filter, ← List.length_map FieldDescription.stored?, hstored,
      List.length_map]
  · rw [List.countP_eq_length_filter, ← List.length_map fun f : FieldDescription => Source.identifier? f.name,
      hsound.map_transient, List.length_map, htransient]
  · have hlookup (f : FieldDescription) (hf : f ∈ d.fields.filter FieldDescription.isStored) :
        f.stored?.any StoredField.isLookupKey = f.roles.lookupKey := by
      obtain ⟨name, hname⟩ := Option.isSome_iff_exists.mp (hsound.named f (List.mem_filter.mp hf).1)
      rw [FieldDescription.stored?, hname]
      rfl
    calc s.lookups.length
        = (s.storable.map some).countP (Option.any StoredField.isLookupKey) := by
          rw [Schema.lookups, ← List.countP_eq_length_filter, List.countP_map]
          rfl
      _ = (d.fields.filter FieldDescription.isStored).countP fun f => f.roles.lookupKey := by
          rw [← hstored, List.countP_map]
          exact List.countP_congr fun f hf => by rw [← hlookup f hf]; rfl
      _ = d.fields.countP fun f => f.isStored && f.roles.lookupKey := by
          rw [List.countP_filter]
          exact List.countP_congr fun f _ => by rw [Bool.and_comm]

theorem lengths_of_generate {u : GeneratedUnit} (h : generate d = .ok u)
    (hs : Schema.build d = .ok s) : u.table.columns.length = s.storable.length ∧
      u.table.operations.length = 7 + s.lookups.length := by
  obtain ⟨s', plans, t, hfrom⟩ := GeneratedUnit.exists_from h
  obtain rfl := Except.ok.inj (hs.symm.trans hfrom.build)
  have hcolumns := congrArg List.length hfrom.fields_columns
  have hoperations := congrArg List.length hfrom.kinds
  simp only [List.length_map, List.length_append, List.length_cons, List.length_nil]
    at hcolumns hoperations
  exact ⟨hcolumns, by omega⟩

/-- What the event of a schema counts. -/
theorem counts_schemaBuilt (hs : Schema.build d = .ok s) :
    (Event.schemaBuilt s).fields.lookup "storable" =
      some (toString (d.fields.countP FieldDescription.isStored)) ∧
    (Event.schemaBuilt s).fields.lookup "transient" =
      some (toString (d.fields.countP fun f => !f.isStored)) ∧
    (Event.schemaBuilt s).fields.lookup "lookups" =
      some (toString (d.fields.countP fun f => f.isStored && f.roles.lookupKey)) := by
  obtain ⟨hstorable, htransient, hlookups⟩ := lengths_of_build hs
  rw [← hstorable, ← htransient, ← hlookups]
  exact ⟨rfl, rfl, rfl⟩

/-! ### The events of every generation -/

/-- **The events of a generation.** Without a schema there are none; otherwise they are an initial
part of one sequence that is known from the schema: all of it if there is a unit, the part before the
first field that cannot be planned, or the part up to all fields if the table cannot be synthesized.
What the events count are the fields of the description and the parts of the unit. -/
theorem events_of_generate (d : Description) :
    (∀ e, Schema.build d = .error e → generate d = .error (.schema e) ∧ events d = []) ∧
    ∀ s, Schema.build d = .ok s →
      (events d).map Event.heading <+: headingsOf s ∧
      (∀ before f after e, s.storable = before ++ f :: after →
        (∀ g ∈ before, ∃ plan, Plan.ofField g = .ok plan) → Plan.ofField f = .error e →
        generate d = .error (.mapping e) ∧
          (events d).map Event.heading = openingHeadings before) ∧
      (∀ plans e, Plans.resolve s = .ok plans → GeneratedUnit.synthesize s plans = .error e →
        generate d = .error (.mapping e) ∧
          (events d).map Event.heading = openingHeadings s.storable) ∧
      (∀ u, generate d = .ok u → (events d).map Event.heading = headingsOf s ∧
        (∃ opening, events d = opening ++ [.tableSynthesized u, .unitGenerated s.origin u]) ∧
        (Event.tableSynthesized u).fields.lookup "columns" =
          some (toString u.table.columns.length) ∧
        (Event.tableSynthesized u).fields.lookup "operations" =
          some (toString u.table.operations.length) ∧
        (Event.tableSynthesized u).fields.lookup "imports" = some (toString u.imports.length) ∧
        u.table.columns.length = s.storable.length ∧
        u.table.operations.length = 7 + s.lookups.length) ∧
      (events d).head? = some (.schemaBuilt s) ∧
      (Event.schemaBuilt s).fields.lookup "storable" =
        some (toString (d.fields.countP FieldDescription.isStored)) ∧
      (Event.schemaBuilt s).fields.lookup "transient" =
        some (toString (d.fields.countP fun f => !f.isStored)) ∧
      (Event.schemaBuilt s).fields.lookup "lookups" =
        some (toString (d.fields.countP fun f => f.isStored && f.roles.lookupKey)) := by
  refine ⟨fun e => events_of_build_error, fun s hs => ⟨headings_initial hs, ?_, ?_, ?_, ?_,
    counts_schemaBuilt hs⟩⟩
  · intro before f after e hsplit hbefore hf
    obtain ⟨plans, hplans⟩ := exists_mapM_iff.mpr hbefore
    obtain ⟨hgenerate, hevents⟩ := events_of_ofField_error hs hsplit hplans hf
    exact ⟨hgenerate, hevents ▸ headings_opening s hplans⟩
  · intro plans e hresolve hu
    obtain ⟨hgenerate, hevents⟩ := events_of_synthesize_error hs hresolve hu
    exact ⟨hgenerate, hevents ▸ headings_resolved hs hresolve⟩
  · intro u h
    obtain ⟨s', resolved, hs', hresolve, hu⟩ := Table.stages_of_generate h
    obtain rfl := Except.ok.inj (hs.symm.trans hs')
    exact ⟨headings_of_generate h hs, ⟨_, (events_of_synthesize hs hresolve hu).2⟩, rfl, rfl, rfl,
      lengths_of_generate h hs⟩
  · rw [events_of_build hs]
    rfl

/-- The article leaves one event for each of its stored fields. -/
theorem events_of_generate_article : ∃ u, generate article = .ok u ∧
    (events article).map Event.heading =
      [(.debug, "entity schema built", none), (.trace, "column planned", some "uuid"),
        (.trace, "column planned", some "title"), (.debug, "table object synthesized", none),
        (.debug, "unit generated", none)] ∧
    (Event.tableSynthesized u).fields.lookup "operations" = some "8" := by
  obtain ⟨u, hu⟩ := Table.exists_generate_article
  obtain ⟨s, -, hs, -, -⟩ := Table.stages_of_generate hu
  have hrun : (Schema.build article).toOption.map (fun s => (headingsOf s, s.lookups.length)) =
      some ([(.debug, "entity schema built", none), (.trace, "column planned", some "uuid"),
        (.trace, "column planned", some "title"), (.debug, "table object synthesized", none),
        (.debug, "unit generated", none)], 1) := by decide +kernel
  rw [hs] at hrun
  obtain ⟨hheadings, hlookups⟩ := Prod.mk.inj (Option.some.inj hrun)
  obtain ⟨hall, -, -, hoperations, -, -, hcount⟩ :=
    ((events_of_generate article).2 s hs).2.2.2.1 u hu
  refine ⟨u, hu, hall.trans hheadings, ?_⟩
  rw [hoperations, hcount, hlookups]
  rfl

end EntityTable
