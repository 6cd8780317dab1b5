import EntityTable.Proofs.Column.Forms
import EntityTable.Proofs.Table.Planning

/-! # Filled templates that are no expressions

A user's template is checked with one word in its hole. The synthesis of a table object puts a
reference, a name or the column of a row there, and what it gets need not be an expression:
`{}::new()` is accepted, but `&entity.count::new()` is not one (`synthesize_pathHole`). The
synthesis then ends with the first filled template that is no expression (`synthesize_templates`).
A field that is converted directly never gives one (`PlannedTable.Fits.exists_expr`). -/

namespace EntityTable.Table

open Source Source.Lexer Source.Grammar
open Column (Direction MappingError Plan Plans Template TemplateFault)
open Entity (Description FieldDescription Schema StoredField exists_description_of_build)

variable {d : Description} {s : Schema} {plans : Plans} {t : PlannedTable}

/-! ### Planned columns -/

/-- The name of a stored field is an identifier. -/
theorem isNameText_of_build (hs : Schema.build d = .ok s) {f : StoredField}
    (hf : f ∈ s.storable) : IsNameText f.name.toList := by
  obtain ⟨_, -, -, name, hname, rfl⟩ := exists_description_of_build hs hf
  exact isNameText_of_identifier? hname

/-! ### Direct fields -/

namespace PlannedField

variable {c : PlannedField} (h : c.plan.conversion.Keeps .expr)
include h

theorem spells_entityFilling (hname : IsNameText c.name.toList) :
    Spells EndsNumber c.entityFilling.text.toList IsExpr := by
  have hentity : IsNameText "entity".toList := .of_isPlainName (by decide)
  have hreceiver : Spells EndsNumber "entity".toList IsOperand :=
    hentity.path.operand.before fun _ => And.left
  have hsource : Spells Stops c.entitySource.toList IsOperand := by
    rw [entitySource, String.toList_append]
    exact (hreceiver.field hname).borrow
  exact Plan.spells_encode h hsource

theorem spells_keyFilling : Spells EndsNumber c.keyFilling.text.toList IsExpr := by
  have hkey : IsNameText "key".toList := .of_isPlainName (by decide)
  have hsource : Spells Stops "key".toList IsOperand := hkey.path.operand
  exact Plan.spells_encodeValue h hsource

theorem spells_rowFilling : Spells EndsNumber c.rowFilling.text.toList IsExpr := by
  have hrow : IsNameText "row".toList := .of_isPlainName (by decide)
  exact Plan.spells_decode h hrow

end PlannedField

namespace PlannedTable

/-- Every filled template belongs to a column. -/
theorem exists_column_of_mem_fillings (hkey : t.key ∈ t.columns) {g : Filling}
    (hg : g ∈ t.fillings) :
    ∃ c ∈ t.columns, g = c.entityFilling ∨ g = c.keyFilling ∨ g = c.rowFilling := by
  simp only [fillings, List.mem_append, List.mem_map, List.mem_singleton] at hg
  rcases hg with ⟨c, hc, rfl⟩ | ⟨c, hc, rfl⟩ | rfl | rfl | rfl | ⟨c, hc, rfl⟩ | ⟨c, hc, rfl⟩
  · exact ⟨c, (List.mem_filter.mp hc).1, Or.inl rfl⟩
  · exact ⟨c, hc, Or.inl rfl⟩
  · exact ⟨t.key, hkey, Or.inl rfl⟩
  · exact ⟨t.key, hkey, Or.inr (Or.inl rfl)⟩
  · exact ⟨t.key, hkey, Or.inr (Or.inl rfl)⟩
  · exact ⟨c, (List.mem_filter.mp hc).1, Or.inr (Or.inl rfl)⟩
  · exact ⟨c, hc, Or.inr (Or.inr rfl)⟩

/-- **A filled template of a field that is converted directly is an expression, and one that is
read back once it is printed.** -/
theorem Fits.exists_reads (hfits : t.Fits s plans) (hs : Schema.build d = .ok s)
    (h : Plans.resolve s = .ok plans) {g : Filling} (hg : g ∈ t.fillings) {f : StoredField}
    (hf : f ∈ s.storable) (hname : f.name = g.field) (hdirect : f.IsDirect) :
    ∃ e, Expr.ofText g.text = .ok e ∧ PrintsExpr e := by
  obtain ⟨c, hc, hg⟩ := exists_column_of_mem_fillings hfits.mem_key hg
  have hfield : c.field ∈ s.storable := hfits.fields ▸ List.mem_map_of_mem hc
  have hcname : f.name = c.field.name := by rcases hg with rfl | rfl | rfl <;> exact hname
  obtain rfl := List.inj_on_of_nodup_map (Entity.nodup_names_of_build hs) hf hfield hcname
  have hkeeps := Plan.keeps_of_ofField (hfits.ofField hs h hc) hdirect
  rcases hg with rfl | rfl | rfl
  · exact (PlannedField.spells_entityFilling hkeeps (isNameText_of_build hs hf)).exists_expr
  · exact (PlannedField.spells_keyFilling hkeeps).exists_expr
  · exact (PlannedField.spells_rowFilling hkeeps).exists_expr

theorem Fits.exists_expr (hfits : t.Fits s plans) (hs : Schema.build d = .ok s)
    (h : Plans.resolve s = .ok plans) {g : Filling} (hg : g ∈ t.fillings) {f : StoredField}
    (hf : f ∈ s.storable) (hname : f.name = g.field) (hdirect : f.IsDirect) :
    ∃ e, Expr.ofText g.text = .ok e :=
  (hfits.exists_reads hs h hg hf hname hdirect).imp fun _ => And.left

end PlannedTable

/-! ### Errors -/

/-- A filled template that is no expression is named with its field, direction and text. -/
theorem Filling.error?_expr (g : Filling) {e : MappingError} : error? g.expr = some e ↔
    ∃ reason, Expr.ofText g.text = .error reason ∧
      e = .invalidTemplate g.field g.direction g.text (.filled reason) := by
  simp only [Filling.expr, error?_mapError, Option.map_eq_some_iff, error?_eq_some,
    @eq_comm _ e]

theorem Filling.error?_expr_eq_none (g : Filling) :
    error? g.expr = none ↔ ∃ e, Expr.ofText g.text = .ok e := by
  rw [Filling.expr, error?_mapError, Option.map_eq_none_iff, error?_eq_none]

/-- What `{}::new()` is filled to with a field of the entity. -/
example : (Filling.expr ⟨"count", .encode, "&entity.count::new()"⟩).toBool = false := by
  decide +kernel

namespace PlannedTable

/-- The first filled template that is no expression decides. -/
theorem firstFault_eq_some {fillings : List Filling} {e : MappingError} :
    firstFault fillings = some e ↔ ∃ before g after reason, fillings = before ++ g :: after ∧
      (∀ b ∈ before, ∃ e, Expr.ofText b.text = .ok e) ∧ Expr.ofText g.text = .error reason ∧
      e = .invalidTemplate g.field g.direction g.text (.filled reason) := by
  simp only [firstFault, List.findSome?_eq_some_iff, Filling.error?_expr,
    Filling.error?_expr_eq_none]
  constructor
  · rintro ⟨before, g, after, hsplit, ⟨reason, hreason, he⟩, hbefore⟩
    exact ⟨before, g, after, reason, hsplit, hbefore, hreason, he⟩
  · rintro ⟨before, g, after, reason, hsplit, hbefore, hreason, he⟩
    exact ⟨before, g, after, hsplit, ⟨reason, hreason, he⟩, hbefore⟩

end PlannedTable

/-- Only filled templates fail as templates. -/
theorem synthesize_eq_invalidTemplate (ht : PlannedTable.ofPlans s plans = .ok t) {field : String}
    {direction : Direction} {text : String} {fault : TemplateFault} :
    GeneratedUnit.synthesize s plans = .error (.invalidTemplate field direction text fault) ↔
      PlannedTable.firstFault t.fillings = some (.invalidTemplate field direction text fault) := by
  rw [← error?_eq_some, error?_synthesize ht, Option.or_eq_some_iff]
  refine ⟨fun h => h.resolve_right ?_, Or.inl⟩
  rintro ⟨-, himport⟩
  obtain ⟨_, _, he⟩ := t.exists_path_of_imports himport
  cases he

/-- **When a template of resolved plans ends the synthesis**: exactly if some filled template is no
expression, and then the first of them is named. Those of a field that is converted directly never
are, so a schema that has only such fields is never refused for a template. -/
theorem synthesize_templates (hs : Schema.build d = .ok s) (hplans : Plans.resolve s = .ok plans) :
    ∃ t, PlannedTable.ofPlans s plans = .ok t ∧
      (∀ field direction text fault,
        GeneratedUnit.synthesize s plans = .error (.invalidTemplate field direction text fault) ↔
          ∃ before g after reason, t.fillings = before ++ g :: after ∧
            (∀ b ∈ before, ∃ e, Expr.ofText b.text = .ok e) ∧
            Expr.ofText g.text = .error reason ∧ g = ⟨field, direction, text⟩ ∧
            fault = .filled reason) ∧
      (∀ g ∈ t.fillings, ∃ f ∈ s.storable, f.name = g.field ∧
        (f.IsDirect → ∃ e, Expr.ofText g.text = .ok e)) ∧
      ((∀ f ∈ s.storable, f.IsDirect) → ∀ field direction text fault,
        GeneratedUnit.synthesize s plans ≠
          .error (.invalidTemplate field direction text fault)) := by
  obtain ⟨t, ht⟩ := exists_ofPlans_of_resolve hs hplans
  have hfits := PlannedTable.fits_of_ofPlans hs ht
  have hfaults (field : String) (direction : Direction) (text : String) (fault : TemplateFault) :
      GeneratedUnit.synthesize s plans = .error (.invalidTemplate field direction text fault) ↔
        ∃ before g after reason, t.fillings = before ++ g :: after ∧
          (∀ b ∈ before, ∃ e, Expr.ofText b.text = .ok e) ∧
          Expr.ofText g.text = .error reason ∧ g = ⟨field, direction, text⟩ ∧
          fault = .filled reason := by
    rw [synthesize_eq_invalidTemplate ht, PlannedTable.firstFault_eq_some]
    constructor
    · rintro ⟨before, g, after, reason, hsplit, hbefore, hreason, he⟩
      cases he
      exact ⟨before, g, after, reason, hsplit, hbefore, hreason, rfl, rfl⟩
    · rintro ⟨before, g, after, reason, hsplit, hbefore, hreason, rfl, rfl⟩
      exact ⟨before, _, after, reason, hsplit, hbefore, hreason, rfl⟩
  have hdirect (g : Filling) (hg : g ∈ t.fillings) : ∃ f ∈ s.storable, f.name = g.field ∧
      (f.IsDirect → ∃ e, Expr.ofText g.text = .ok e) := by
    obtain ⟨c, hc, hcolumn⟩ := PlannedTable.exists_column_of_mem_fillings hfits.mem_key hg
    have hf : c.field ∈ s.storable := hfits.fields ▸ List.mem_map_of_mem hc
    have hname : c.field.name = g.field := by rcases hcolumn with rfl | rfl | rfl <;> rfl
    exact ⟨c.field, hf, hname, hfits.exists_expr hs hplans hg hf hname⟩
  refine ⟨t, ht, hfaults, hdirect, fun hall field direction text fault herror => ?_⟩
  obtain ⟨before, g, after, reason, hsplit, -, hreason, -⟩ :=
    (hfaults field direction text fault).mp herror
  obtain ⟨f, hf, -, hexpr⟩ := hdirect g (hsplit ▸ List.mem_append_cons_self)
  obtain ⟨e, he⟩ := hexpr (hall f hf)
  cases he.symm.trans hreason

/-- A field whose template takes its hole for the name of a type. -/
def pathHole : Description where
  name := "Counter"
  home := none
  className := none
  table := none
  hideColumns := false
  fields := [(FieldDescription.plain "uuid" (.word "Uuid")).asPrimaryKey,
    (FieldDescription.plain "count" (.word "Count")).mappedBy
      ⟨.word "i64", none, some "\x7b\x7d::new()", none, []⟩]

/-- The field, direction and text of an error about a filled template. -/
def filledFault? : MappingError → Option (String × Direction × String)
  | .invalidTemplate field direction text (.filled _) => some (field, direction, text)
  | _ => none

theorem filledFault?_eq_some {e : MappingError} {field : String} {direction : Direction}
    {text : String} (h : filledFault? e = some (field, direction, text)) :
    ∃ reason, e = .invalidTemplate field direction text (.filled reason) := by
  unfold filledFault? at h
  split at h
  · cases h
    exact ⟨_, rfl⟩
  · cases h

theorem synthesize_pathHole : ∃ s plans reason, Schema.build pathHole = .ok s ∧
    Plans.resolve s = .ok plans ∧ GeneratedUnit.synthesize s plans =
      .error (.invalidTemplate "count" .encode "&entity.count::new()" (.filled reason)) := by
  have hrun : ((Schema.build pathHole).toOption.bind fun s =>
      (Plans.resolve s).toOption.bind fun plans =>
        (error? (GeneratedUnit.synthesize s plans)).bind filledFault?) =
      some ("count", .encode, "&entity.count::new()") := by decide +kernel
  obtain ⟨s, hs, hrun⟩ := Option.bind_eq_some_iff.mp hrun
  obtain ⟨plans, hplans, hrun⟩ := Option.bind_eq_some_iff.mp hrun
  obtain ⟨e, he, hfault⟩ := Option.bind_eq_some_iff.mp hrun
  obtain ⟨reason, rfl⟩ := filledFault?_eq_some hfault
  exact ⟨s, plans, reason, toOption_eq_some.mp hs, toOption_eq_some.mp hplans,
    error?_eq_some.mp he⟩

/-- A field with templates that call a method and a function, each with a cast. -/
def timed : Description where
  name := "Reading"
  home := none
  className := none
  table := none
  hideColumns := false
  fields := [(FieldDescription.plain "uuid" (.word "Uuid")).asPrimaryKey,
    (FieldDescription.plain "elapsed" (.path (.plain
      (.mk false [.angle "Option" false [.type (.word "Duration")] false])))).mappedBy
      ⟨.word "i64", none, some "\x7b\x7d.as_millis() as i64",
        some "Duration::from_millis(\x7b\x7d as u64)", ["std::time::Duration"]⟩]

theorem isDirect_timed (hs : Schema.build timed = .ok s) : ∀ f ∈ s.storable, f.IsDirect := by
  have hmillis : IsNameText "as_millis".toList := .of_isPlainName (by decide)
  have hduration : IsNameText "Duration".toList := .of_isPlainName (by decide)
  have hfrom : IsNameText "from_millis".toList := .of_isPlainName (by decide)
  have hi64 : IsNameText "i64".toList := .of_isPlainName (by decide)
  have hu64 : IsNameText "u64".toList := .of_isPlainName (by decide)
  intro f hf
  obtain ⟨given, hgiven, -, name, -, rfl⟩ := exists_description_of_build hs hf
  simp only [timed, List.mem_cons, List.not_mem_nil, or_false] at hgiven
  rcases hgiven with rfl | rfl
  · exact fun _ => isNamed_word (.of_isPlainName (by decide))
  · refine ⟨fun text htext => ?_, fun text htext => ?_, fun _ _ _ _ => isNamed_word hi64⟩
    · cases htext
      refine Template.isDirect_of_ofText ⟨"", ".as_millis() as i64"⟩
        (by decide +kernel) fun hole => ?_
      have hcall : Phrase hole .operand _ := (Phrase.hole.operand.method hmillis .noArgs).operand
      have hcast : Phrase hole .expr _ := (hcall.term.cast hi64.path).expr
      rw [List.append_assoc, List.append_assoc] at hcast
      exact hcast
    · cases htext
      refine Template.isDirect_of_ofText ⟨"Duration::from_millis(", " as u64)"⟩
        (by decide +kernel) fun hole => ?_
      have hcast : Phrase hole .expr _ := (Phrase.hole.operand.term.cast hu64.path).expr
      have hpath : IsPathText _ _ := .cons hduration.word (Or.inl hduration.isName) hfrom.path
      have hcall : Phrase hole .expr _ := (Phrase.call hpath (.lastArg hcast)).operand.term.expr
      rw [Template.textWith, List.append_assoc]
      simp only [List.append_assoc] at hcall
      exact hcall

theorem synthesize_templates_timed : ∃ s plans, Schema.build timed = .ok s ∧
    Plans.resolve s = .ok plans ∧ (∀ f ∈ s.storable, f.IsDirect) ∧
    ∀ field direction text fault,
      GeneratedUnit.synthesize s plans ≠ .error (.invalidTemplate field direction text fault) := by
  have hrun : ((Schema.build timed).toOption.bind fun s => (Plans.resolve s).toOption).isSome =
      true := by decide +kernel
  obtain ⟨plans, hplans⟩ := Option.isSome_iff_exists.mp hrun
  obtain ⟨s, hs, hplans⟩ := Option.bind_eq_some_iff.mp hplans
  have hs := toOption_eq_some.mp hs
  have hplans := toOption_eq_some.mp hplans
  obtain ⟨t, -, -, -, hnever⟩ := synthesize_templates hs hplans
  exact ⟨s, plans, hs, hplans, isDirect_timed hs, hnever (isDirect_timed hs)⟩

end EntityTable.Table
