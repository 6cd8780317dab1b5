import EntityTable.Proofs.Source.Files
import EntityTable.Proofs.Table.Generated

/-! # Members of a table object

The constants of a table object and its methods, token by token, are items that are read back. Two
things in a method come from outside: the expressions that fill templates stand in its body, and the
type of a key stands behind a mark in its heading (`PlannedTable.IsMethod`). If the expressions are
read back, so is the method, unless the type is a sum that stands open; then it is no item at all,
whatever its body is. The type of each key is taken so by some operation
(`PlannedTable.exists_isMethod`). -/

namespace EntityTable.Table

open Source Source.Grammar
open Column (MappingError Plans)
open Entity (Description Schema describes_of_build)

/-! ### Names -/

/-- No keyword begins like this, so what does is a name. -/
theorem isName_append {front : String} (hkeyword : ∀ k ∈ Source.keywords, ¬ front.toList <+: k.toList)
    (hdigit : front.toList.head?.any Char.isDigit = false) (hne : front.toList ≠ []) (w : String) :
    IsName (front ++ w) := by
  refine ⟨?_, ?_⟩
  · rw [← Bool.not_eq_true, List.contains_iff_mem]
    intro hmem
    exact hkeyword _ hmem (by rw [String.toList_append]; exact List.prefix_append _ _)
  · obtain ⟨c, cs, hfront⟩ := List.exists_cons_of_ne_nil hne
    rw [String.toList_append, hfront]
    rwa [hfront] at hdigit

/-! ### Statements of methods -/

section Statements
variable {e : Expr} {q : Query}

theorem isPath_word {w : String} (h : IsSegment w) : IsPath [w] [.word w] := .word h

theorem printsExpr_word {w : String} (h : IsSegment w) : PrintsExpr (.word w) :=
  (isPath_word h).printsChain.operand.term.expr

theorem printsExpr_text (value : String) : PrintsExpr (.text value) := by
  have hquotes : (Literal.quote value).toList.head? = some '\x22' := by
    rw [Literal.quote, String.toList_append, String.toList_append]
    rfl
  refine (printsChain_literal fun hmem => ?_).operand.term.expr
  simp only [List.mem_cons, List.not_mem_nil, or_false] at hmem
  rcases hmem with heq | heq <;> rw [heq] at hquotes <;> exact absurd hquotes (by decide)

theorem printsStmt_begin : PrintsStmt beginStmt := by
  have hpool : PrintsHead (.field (.word "self") "pool") :=
    (isPath_word (by decide)).headField (by decide) (by decide)
  have hbegin := (hpool.method (w := "begin") (by decide) printsArgs_nil).awaited
  exact hbegin.expr.bind (printsPat_mutVar (by decide))

theorem printsStmt_commit : PrintsStmt commitStmt := by
  have hcommit : PrintsHead ((Expr.word transaction).method "commit" []) :=
    (isPath_word (by decide)).headMethod (by decide) (by decide)
      printsArgs_nil
  exact hcommit.awaited.run

theorem printsHead_prepared (text : String) : PrintsHead (prepared text) :=
  (IsPath.cons (by decide) false
    (isPath_word (by decide))).headCall (by decide) (printsExpr_text text).args

theorem printsHead_executed {executor : String} (h : PrintsHead e) (hexecutor : IsName executor) :
    PrintsHead (executed e executor) := by
  have htransaction : PrintsOperand (.word transaction) :=
    (isPath_word (by decide)).printsChain.operand
  exact (h.method hexecutor (htransaction.deref.reference true).term.expr.args).awaited

theorem Query.printsHead_bound (h : ∀ e ∈ q.binds, PrintsExpr e) : PrintsHead q.bound := by
  have hall : ∀ (binds : List Expr) (e : Expr), (∀ e ∈ binds, PrintsExpr e) → PrintsHead e →
      PrintsHead (binds.foldl (fun e value => e.method "bind" [value]) e) := by
    intro binds
    induction binds with
    | nil => exact fun _ _ he => he
    | cons value binds ih =>
      intro e hbinds he
      refine ih _ (fun v hv => hbinds v (List.mem_cons_of_mem value hv)) ?_
      exact he.method (by decide) (hbinds value List.mem_cons_self).args
  exact hall q.binds _ h (printsHead_prepared _)

theorem Query.printsHead_run {executor : String} (h : ∀ e ∈ q.binds, PrintsExpr e)
    (hexecutor : IsName executor) : PrintsHead (q.run executor) :=
  printsHead_executed (Query.printsHead_bound h) hexecutor

theorem printsHead_okOf (h : PrintsExpr e) : PrintsHead (okOf e) :=
  (isPath_word (by decide)).headCall (by decide) h.args

theorem printsExpr_transformPath : PrintsExpr transformPath :=
  (IsPath.cons (by decide) false
    (isPath_word (by decide))).printsChain.operand.term.expr

theorem printsHead_transformedRow : PrintsHead transformedRow := by
  have hrow : PrintsHead ((Expr.word "row").method "as_ref" []) :=
    (isPath_word (by decide)).headMethod (by decide) (by decide)
      printsArgs_nil
  exact (hrow.method (by decide) printsExpr_transformPath.args).method
    (by decide) printsArgs_nil

theorem printsHead_transformedRows : PrintsHead transformedRows := by
  have hrows : PrintsHead ((Expr.word "rows").method "iter" []) :=
    (isPath_word (by decide)).headMethod (by decide) (by decide)
      printsArgs_nil
  exact (hrows.method (by decide) printsExpr_transformPath.args).method
    (by decide) printsArgs_nil

theorem printsStmt_presentKey : PrintsStmt PlannedTable.presentKey := by
  have hnew : PrintsHead (.apply (.words ["Vec", "new"]) []) :=
    (IsPath.cons (by decide) false (isPath_word (by decide))).headCall (by decide) printsArgs_nil
  have hreturn : PrintsStmt (.run (.ret (some (okOf (.apply (.words ["Vec", "new"]) []))))) :=
    (printsHead_okOf hnew.expr).expr.ret fun _ => rfl
  have hkey : PrintsExpr (.word "key") := printsExpr_word (by decide)
  have hsome : PrintsPat (.tupleRecord (.plain (.word "Some")) [.var "key"] false) :=
    printsPat_some (by decide)
  exact hkey.bindElse hsome rfl (hreturn.body printsBody_nil)

end Statements

/-! ### Bodies -/

section Bodies
variable {e : Expr} {q : Query}

/-- What runs in a transaction. -/
theorem printsBody_transaction {run : Stmt} {rest : List Stmt} (hrun : PrintsStmt run)
    (hrest : PrintsBody rest) : PrintsBody (beginStmt :: run :: commitStmt :: rest) :=
  printsStmt_begin.body (hrun.body (printsStmt_commit.body hrest))

theorem printsBody_query {executor name : String} {rest : List Stmt}
    (h : ∀ e ∈ q.binds, PrintsExpr e) (hexecutor : IsName executor) (hname : IsName name)
    (hrest : PrintsBody rest) :
    PrintsBody (beginStmt :: .bind (.var name) (q.run executor) :: commitStmt :: rest) :=
  printsBody_transaction ((Query.printsHead_run h hexecutor).expr.bind (printsPat_var hname)) hrest

theorem printsBody_execution {rest : List Stmt} (h : ∀ e ∈ q.binds, PrintsExpr e)
    (hrest : PrintsBody rest) :
    PrintsBody (beginStmt :: .run (q.run "execute") :: commitStmt :: rest) :=
  printsBody_transaction (Query.printsHead_run h (by decide)).run hrest

end Bodies

/-! ### Methods -/

section Methods
variable {ty value : Ty} {w name : String} {docs : List Attribute} {params : List FnParam}
  {body : List Stmt}

/-- A generic type whose arguments are written. -/
theorem isWritten_applied {args : List Ty} (hw : IsSegment w) (hplain : w ∉ pathWords)
    (h : ∀ ty ∈ args, ty.IsWritten) : (Ty.applied w args).IsWritten := by
  refine .path (.mk (List.cons_ne_nil _ _) fun s hs => ?_)
  cases List.mem_singleton.mp hs
  have hargs : ∀ a ∈ args.map GenericArg.type, a.IsWritten := by
    intro a ha
    obtain ⟨ty, hty, rfl⟩ := List.mem_map.mp ha
    exact .type (h ty hty)
  have hsegment : Segment.IsWritten
      (.angle w false (([] : List String).map .lifetime ++ args.map .type) false) :=
    .angle hw hplain hargs fun _ _ => rfl
  exact hsegment

theorem isWritten_option (h : ty.IsWritten) : (Ty.applied "Option" [ty]).IsWritten :=
  isWritten_applied (by decide) (by decide) (List.forall_mem_singleton.mpr h)

theorem isWritten_listOf (hw : IsName w) : (listOf w).IsWritten :=
  isWritten_applied (by decide) (by decide) (List.forall_mem_singleton.mpr (isWritten_word hw))

theorem isWritten_error : (Ty.words ["sqlx", "Error"]).IsWritten := by
  refine .path (.mk (List.cons_ne_nil _ _) fun s hs => ?_)
  simp only [List.map_cons, List.map_nil, List.mem_cons, List.not_mem_nil, or_false] at hs
  rcases hs with rfl | rfl <;> exact .plain (by decide)

theorem isWritten_resultOf (h : value.IsWritten) : (resultOf value).IsWritten :=
  isWritten_applied (by decide) (by decide)
    (List.forall_mem_cons.mpr ⟨h, List.forall_mem_singleton.mpr isWritten_error⟩)

theorem printsParam_shared (hw : IsName w) (h : ty.IsWritten) (hclosed : ty.isOpenSum = false) :
    PrintsParam (sharedParam w ty) :=
  printsParam_typed hw (.reference none false h hclosed)

theorem printsSignature_method (isAsync : Bool) (hname : IsName name)
    (hparams : ∀ p ∈ params, PrintsParam p) (hvalue : value.IsWritten) :
    PrintsSignature (signatureOf isAsync name params (resultOf value)) :=
  printsSignature hname hparams (isWritten_resultOf hvalue)

/-- **A method is read back if its parameters and its body are.** -/
theorem printsMember_method (hdocs : ∀ a ∈ docs, PrintsAttribute a) (isPublic isAsync : Bool)
    (hname : IsName name) (hparams : ∀ p ∈ params, PrintsParam p) (hvalue : value.IsWritten)
    (hbody : PrintsBody body) :
    PrintsMember (methodItem docs isPublic isAsync name params value body) :=
  printsMember_fn hdocs isPublic (printsSignature_method isAsync hname hparams hvalue) hbody

end Methods

theorem printsAttributes_nil : ∀ a ∈ ([] : List Attribute), PrintsAttribute a := nofun

theorem printsAttributes_doc (spelled : String) : ∀ a ∈ [Attribute.doc spelled], PrintsAttribute a :=
  List.forall_mem_singleton.mpr (printsAttribute_doc spelled)

/-! ### Fixed members -/

theorem printsMember_textConstant {attrs : List Attribute} {name : String}
    (hattrs : ∀ a ∈ attrs, PrintsAttribute a) (isPublic : Bool) (hname : IsName name)
    (value : String) : PrintsMember (textConstant attrs isPublic name value) :=
  printsMember_const hattrs isPublic hname
    (.reference (some "static") false (isWritten_word (by decide)) rfl) (printsExpr_text value)

theorem isName_columnConstant (field : String) : IsName (Entity.columnConstant field) :=
  isName_append (by decide) (by decide) (by decide) _

theorem ColumnConstant.printsMember (c : ColumnConstant) : PrintsMember c.item := by
  refine printsMember_textConstant (fun a ha => ?_) c.isPublic (isName_columnConstant c.field) _
  rcases List.mem_cons.mp ha with rfl | ha
  · exact printsAttribute_doc _
  · cases hpublic : c.isPublic with
    | true => simp [hpublic] at ha
    | false =>
      simp only [hpublic, Bool.false_eq_true, if_false, List.mem_singleton] at ha
      exact ha ▸ printsAttribute_listing (by decide) _

theorem printsMember_new : PrintsMember TableObject.newMethod := by
  have hrecord : PrintsExpr (.record (.plain (.word "Self")) [.short [] "pool"] false false none) :=
    (isPath_word (by decide)).printsRecord (List.cons_ne_nil _ _)
      (List.forall_mem_singleton.mpr (printsField_short (by decide)))
  have hcreate : PrintsHead ((Expr.word "table").method "create_schema" []) :=
    (isPath_word (by decide)).headMethod (by decide) (by decide) printsArgs_nil
  have hself : (Ty.word "Self").IsWritten :=
    .path (.mk (List.cons_ne_nil _ _) (List.forall_mem_singleton.mpr (.plain (by decide))))
  have hvalue : PrintsBody [.yields (okOf (.word "table"))] :=
    (printsHead_okOf (printsExpr_word (by decide))).value.body
  exact printsMember_method (printsAttributes_doc _) true true
    (by decide) (List.forall_mem_singleton.mpr (printsParam_typed (by decide)
      (isWritten_word (by decide)))) hself
    ((hrecord.bind (printsPat_var (by decide))).body (hcreate.awaited.run.body hvalue))

theorem printsMember_schema (statements : List String) : PrintsMember (schemaMethod statements) := by
  have hdocs : ∀ a ∈ [Attribute.docLine " Create the table, then add missing columns and indexes.",
      .docLine "", .docLine " Every statement is idempotent, so this runs on each start."],
      PrintsAttribute a := by
    simp only [List.forall_mem_cons]
    exact ⟨printsAttribute_doc _, printsAttribute_doc _, printsAttribute_doc _, nofun⟩
  have hruns : ∀ s ∈ beginStmt :: statements.map (fun text => .run (executed (prepared text)
      "execute")), PrintsStmt s := by
    refine List.forall_mem_cons.mpr ⟨printsStmt_begin, fun s hs => ?_⟩
    obtain ⟨text, -, rfl⟩ := List.mem_map.mp hs
    exact (printsHead_executed (printsHead_prepared text) (by decide)).run
  have hend : PrintsBody [commitStmt, .yields (okOf (.tuple [] false))] :=
    printsStmt_commit.body (printsHead_okOf printsChain_unit.operand.term.expr).value.body
  exact printsMember_method hdocs true true (by decide)
    (List.forall_mem_singleton.mpr printsParam_self) .unit (PrintsBody.append hruns hend)

/-! ### Planned tables -/

namespace PlannedTable

/-- The types that methods take by reference. -/
def sharedTypes (t : PlannedTable) : List Ty := t.keyTy :: t.lookups.map fun c => c.field.ty

/-- Whatever fills the templates of the columns is read back once it is printed. -/
def FillingsPrint (t : PlannedTable) : Prop :=
  ∀ g ∈ t.fillings, ∀ e, Expr.ofText g.text = .ok e → PrintsExpr e

/-- The names of a table are identifiers, and the types of its keys are written. -/
structure IsNamed (t : PlannedTable) : Prop where
  entity : IsName t.entity
  key : IsName t.key.name
  columns : ∀ c ∈ t.columns, IsName c.name
  transient : ∀ name ∈ t.schema.transient, IsName name
  inhabited : t.columns ≠ []
  written : ∀ ty ∈ t.sharedTypes, ty.IsWritten

variable {t : PlannedTable} {o : Operation} {c : PlannedField}

section Names
variable (hnamed : t.IsNamed)
include hnamed

theorem printsParams_entity : ∀ p ∈ [selfParam, t.entityParam], PrintsParam p :=
  List.forall_mem_cons.mpr ⟨printsParam_self, List.forall_mem_singleton.mpr
    (printsParam_shared (by decide) (isWritten_word hnamed.entity) rfl)⟩

theorem printsHead_entityKey : PrintsHead t.entityKey :=
  (isPath_word (by decide)).headField (by decide) hnamed.key

theorem isWritten_keyTy : t.keyTy.IsWritten := hnamed.written _ List.mem_cons_self

theorem isWritten_lookup (hc : c ∈ t.lookups) : c.field.ty.IsWritten :=
  hnamed.written _ (List.mem_cons_of_mem _ (List.mem_map_of_mem hc))

omit hnamed in
theorem printsParams_shared {ty : Ty} (h : ty.IsWritten) (hclosed : ty.isOpenSum = false) :
    ∀ p ∈ [selfParam, sharedParam "key" ty], PrintsParam p :=
  List.forall_mem_cons.mpr ⟨printsParam_self,
    List.forall_mem_singleton.mpr (printsParam_shared (by decide) h hclosed)⟩

end Names

theorem FillingsPrint.printsExpr (h : t.FillingsPrint) {g : Filling} (hg : g ∈ t.fillings) {e : Expr}
    (he : g.expr = .ok e) : PrintsExpr e := by
  refine h g hg e ?_
  cases hread : Expr.ofText g.text with
  | error reason => rw [Filling.expr, hread] at he; cases he
  | ok e' => rw [Filling.expr, hread] at he; cases he; rfl

theorem FillingsPrint.mapM (h : t.FillingsPrint) {columns : List PlannedField}
    (filling : PlannedField → Filling) (hmem : ∀ c ∈ columns, filling c ∈ t.fillings)
    {values : List Expr} (hvalues : columns.mapM (fun c => (filling c).expr) = .ok values) :
    ∀ e ∈ values, PrintsExpr e := by
  intro e he
  obtain ⟨c, hc, hfilled⟩ := exists_of_mem_mapM hvalues he
  exact h.printsExpr (hmem c hc) hfilled

section Fillings

theorem mem_fillings_inserted (hc : c ∈ t.inserted) : c.entityFilling ∈ t.fillings :=
  List.mem_append_left _ (List.mem_map_of_mem hc)

theorem mem_fillings_column (hc : c ∈ t.columns) : c.entityFilling ∈ t.fillings :=
  List.mem_append_right _ (List.mem_append_left _ (List.mem_map_of_mem hc))

theorem mem_fillings_key : t.key.entityFilling ∈ t.fillings ∧ t.key.keyFilling ∈ t.fillings := by
  simp [fillings]

theorem mem_fillings_lookup (hc : c ∈ t.lookups) : c.keyFilling ∈ t.fillings := by
  have hmem : c.keyFilling ∈ t.lookups.map PlannedField.keyFilling := List.mem_map_of_mem hc
  simp only [fillings, List.mem_append, hmem, true_or, or_true]

theorem mem_fillings_row (hc : c ∈ t.columns) : c.rowFilling ∈ t.fillings := by
  have hmem : c.rowFilling ∈ t.columns.map PlannedField.rowFilling := List.mem_map_of_mem hc
  simp only [fillings, List.mem_append, hmem, or_true]

end Fillings

/-! ### Methods of operations -/

/-- The item is a method whose heading can be read, apart from a type that it takes by reference; its
body can be read if what fills the templates is. -/
inductive IsMethod (t : PlannedTable) : Option Ty → Item → Prop
  | plain {docs : List Attribute} {isPublic isAsync : Bool} {name : String} {params : List FnParam}
      {value : Ty} {body : List Stmt} (hdocs : ∀ a ∈ docs, PrintsAttribute a) (hname : IsName name)
      (hparams : ∀ p ∈ params, PrintsParam p) (hvalue : value.IsWritten)
      (hbody : t.FillingsPrint → PrintsBody body) :
      t.IsMethod none (methodItem docs isPublic isAsync name params value body)
  | byKey {docs : List Attribute} {isPublic isAsync : Bool} {name : String} {ty value : Ty}
      {body : List Stmt} (hdocs : ∀ a ∈ docs, PrintsAttribute a) (hname : IsName name)
      (hty : ty.IsWritten) (hvalue : value.IsWritten) (hbody : t.FillingsPrint → PrintsBody body) :
      t.IsMethod (some ty)
        (methodItem docs isPublic isAsync name [selfParam, sharedParam "key" ty] value body)

namespace IsMethod

variable {i : Item} {ty : Ty} {shared : Option Ty} (h : t.IsMethod shared i)
include h

/-- A method with no open sum among its types is read back. -/
theorem printsMember (hprint : t.FillingsPrint) (hclosed : ∀ ty ∈ shared, ty.isOpenSum = false) :
    PrintsMember i := by
  cases h with
  | plain hdocs hname hparams hvalue hbody =>
    exact printsMember_method hdocs _ _ hname hparams hvalue (hbody hprint)
  | byKey hdocs hname hty hvalue hbody =>
    exact printsMember_method hdocs _ _ hname (printsParams_shared hty (hclosed _ rfl)) hvalue
      (hbody hprint)

/-- Whatever its body is, such a method is left behind. -/
theorem leavesMember (hclosed : ∀ ty ∈ shared, ty.isOpenSum = false) : LeavesMember i := by
  cases h with
  | plain hdocs hname hparams hvalue =>
    exact leavesMember_fn hdocs _ (printsSignature_method _ hname hparams hvalue) _
  | byKey hdocs hname hty hvalue =>
    exact leavesMember_fn hdocs _ (printsSignature_method _ hname
      (printsParams_shared hty (hclosed _ rfl)) hvalue) _

end IsMethod

/-- A method that takes a reference to an open sum is no item. -/
theorem IsMethod.failsMember {i : Item} {ty : Ty} (h : t.IsMethod (some ty) i)
    (hopen : ty.isOpenSum = true) : FailsMember i := by
  cases h with
  | byKey hdocs hname hty hvalue => exact failsMember_fn hdocs _ hname (by decide) hty hopen _

/-- A method is left behind, or it is no item. -/
theorem IsMethod.leavesMember_or_failsMember {i : Item} {shared : Option Ty}
    (h : t.IsMethod shared i) : LeavesMember i ∨ FailsMember i := by
  cases shared with
  | none => exact .inl (h.leavesMember nofun)
  | some ty =>
    cases hopen : ty.isOpenSum with
    | true => exact .inr (h.failsMember hopen)
    | false =>
      refine .inl (h.leavesMember ?_)
      rintro _ ⟨⟩
      exact hopen

/-! ### Operations -/

section Operations
variable (hnamed : t.IsNamed)
include hnamed

theorem isMethod_save : t.IsMethod none t.save.method := by
  have hself (name : String) {args : List Expr} (hname : IsName name)
      (hargs : PrintsArgs args false) : PrintsHead ((Expr.word "self").method name args) :=
    (isPath_word (by decide)).headMethod (by decide) hname hargs
  have hentity : PrintsExpr (.word "entity") := printsExpr_word (by decide)
  have hkey : PrintsExpr t.entityKey.shared :=
    ((printsHead_entityKey hnamed).chain.operand.reference false).term.expr
  have hcond := ((hself "get" (by decide) hkey.args).awaited.method (w := "is_none")
    (by decide) printsArgs_nil).chain.operand.term
  have hcreate := (hself "create" (by decide) hentity.args).await.value.body
  have hupdate := ((hself "update" (by decide) hentity.args).await.method (w := "map")
    (by decide) (printsExpr_word (w := "Some") (by decide)).args).value.body
  exact .plain (printsAttributes_doc _) (by decide) (printsParams_entity hnamed)
    (isWritten_option (isWritten_keyTy hnamed)) fun _ => (hcond.ifElse hcreate hupdate).body

theorem isMethod_create (h : t.create = .ok o) : t.IsMethod none o.method := by
  obtain ⟨query, hquery, h⟩ := bind_eq_ok.mp h
  obtain ⟨binds, hbinds, hquery⟩ := bind_eq_ok.mp hquery
  cases hquery
  cases h
  have hcreated : PrintsChain (.word "created") := (isPath_word (by decide)).printsChain
  have hvalue := (hcreated.method (w := "map") (by decide) ((hcreated.field
    hnamed.key).operand.term.closure (w := "created") (by decide)).args).operand.term.expr
  have hrest := (printsHead_transformedRow.question.expr.bind
    (printsPat_var (w := "created") (by decide))).body (printsHead_okOf hvalue).value.body
  refine .plain printsAttributes_nil (by decide) (printsParams_entity hnamed)
    (isWritten_option (isWritten_keyTy hnamed)) fun hprint => ?_
  exact printsBody_query (hprint.mapM PlannedField.entityFilling
    (fun _ => mem_fillings_inserted) hbinds) (by decide) (by decide) hrest

theorem isMethod_update (h : t.update = .ok o) : t.IsMethod none o.method := by
  obtain ⟨query, hquery, h⟩ := bind_eq_ok.mp h
  obtain ⟨binds, hbinds, hquery⟩ := bind_eq_ok.mp hquery
  obtain ⟨key, hkey, hquery⟩ := bind_eq_ok.mp hquery
  cases hquery
  cases h
  have hvalue := (printsHead_entityKey hnamed).method (w := "clone") (by decide) printsArgs_nil
  refine .plain printsAttributes_nil (by decide) (printsParams_entity hnamed)
    (isWritten_keyTy hnamed) fun hprint => ?_
  refine printsBody_execution (fun e he => ?_) (printsHead_okOf hvalue.expr).value.body
  rcases List.mem_append.mp he with he | he
  · exact hprint.mapM PlannedField.entityFilling (fun _ => mem_fillings_column)
      hbinds e he
  · exact List.mem_singleton.mp he ▸ hprint.printsExpr mem_fillings_key.1 hkey

omit hnamed in
/-- What is bound to a query by the key is read back. -/
theorem printsBinds_byKey {statement : Statement} {query : Query} (h : t.byKey statement = .ok query)
    (hprint : t.FillingsPrint) : ∀ e ∈ query.binds, PrintsExpr e := by
  obtain ⟨key, hkey, h⟩ := bind_eq_ok.mp h
  cases h
  exact List.forall_mem_singleton.mpr (hprint.printsExpr mem_fillings_key.2 hkey)

theorem isMethod_delete (h : t.delete = .ok o) : t.IsMethod (some t.keyTy) o.method := by
  obtain ⟨query, hquery, h⟩ := bind_eq_ok.mp h
  cases h
  have hunit : PrintsExpr (.tuple [] false) := printsChain_unit.operand.term.expr
  exact .byKey (printsAttributes_doc _) (by decide) (isWritten_keyTy hnamed) .unit fun hprint =>
    printsBody_execution (printsBinds_byKey hquery hprint) (printsHead_okOf hunit).value.body

theorem isMethod_get (h : t.get = .ok o) : t.IsMethod (some t.keyTy) o.method := by
  obtain ⟨query, hquery, h⟩ := bind_eq_ok.mp h
  cases h
  exact .byKey (printsAttributes_doc _) (by decide) (isWritten_keyTy hnamed)
    (isWritten_option (isWritten_word hnamed.entity)) fun hprint =>
      printsBody_query (printsBinds_byKey hquery hprint) (by decide) (by decide)
        printsHead_transformedRow.value.body

theorem isMethod_getAll : t.IsMethod none t.getAll.method :=
  .plain (printsAttributes_doc _) (by decide) (List.forall_mem_singleton.mpr printsParam_self)
    (isWritten_listOf hnamed.entity) fun _ =>
      printsBody_query nofun (by decide) (by decide) printsHead_transformedRows.value.body

theorem isMethod_getBy (hc : c ∈ t.lookups) (h : t.getBy c = .ok o) :
    t.IsMethod (some c.field.ty) o.method := by
  obtain ⟨key, hkey, h⟩ := bind_eq_ok.mp h
  cases h
  have hfirst : ∀ s ∈ (if c.field.isNullable then [presentKey] else []), PrintsStmt s := by
    intro s hs
    split at hs
    · exact List.mem_singleton.mp hs ▸ printsStmt_presentKey
    · cases hs
  refine .byKey (printsAttributes_doc _) (isName_append (by decide) (by decide) (by decide) c.name)
    (isWritten_lookup hnamed hc) (isWritten_listOf hnamed.entity) fun hprint => ?_
  exact PrintsBody.append hfirst (printsBody_query
    (List.forall_mem_singleton.mpr (hprint.printsExpr (mem_fillings_lookup hc) hkey)) (by decide)
    (by decide) printsHead_transformedRows.value.body)

/-- The record that a row is turned into. -/
theorem printsExpr_transformed {values : List Expr} (hlength : values.length = t.columns.length)
    (hvalues : ∀ e ∈ values, PrintsExpr e) :
    PrintsExpr (.record (.plain (.word t.entity))
      ((namesOf t.columns).zipWith (fun name value => FieldInit.named [] name value) values ++
        t.schema.transient.map fun name => FieldInit.named [] name defaultValue) true false none) := by
  have hdefault : PrintsExpr defaultValue :=
    (IsPath.printsGlobalCall (.cons (by decide) false (.cons (by decide) false
      (.cons (by decide) false (.word (by decide))))) printsArgs_nil).operand.term.expr
  refine (isPath_word (Or.inl hnamed.entity)).printsRecord ?_ fun field hfield => ?_
  · refine List.append_ne_nil_of_left_ne_nil (List.length_pos_iff.mp ?_) _
    rw [List.length_zipWith, namesOf, List.length_map, hlength, min_self]
    exact List.length_pos_iff.mpr hnamed.inhabited
  · rcases List.mem_append.mp hfield with hfield | hfield
    · rw [← List.map_uncurry_zip_eq_zipWith] at hfield
      obtain ⟨⟨name, value⟩, hpair, rfl⟩ := List.mem_map.mp hfield
      obtain ⟨hname, hvalue⟩ := List.of_mem_zip hpair
      obtain ⟨c, hc, rfl⟩ := List.mem_map.mp hname
      exact printsField_named (hnamed.columns c hc) (hvalues value hvalue)
    · obtain ⟨name, hname, rfl⟩ := List.mem_map.mp hfield
      exact printsField_named (hnamed.transient name hname) hdefault

theorem isMethod_transform (h : t.transform = .ok o) : t.IsMethod none o.method := by
  obtain ⟨values, hvalues, h⟩ := bind_eq_ok.mp h
  cases h
  have hrow : PrintsParam (sharedParam "row" (.word "PgRow")) :=
    printsParam_shared (by decide) (isWritten_word (by decide)) rfl
  refine .plain printsAttributes_nil (by decide) (List.forall_mem_singleton.mpr hrow)
    (isWritten_word hnamed.entity) fun hprint => ?_
  exact (printsHead_okOf (printsExpr_transformed hnamed (length_of_mapM hvalues)
    (hprint.mapM PlannedField.rowFilling (fun _ => mem_fillings_row)
      hvalues))).value.body

/-- **The operations are methods**, and the types that they take by reference are those of keys. -/
theorem Makes.isMethod (h : t.Makes o) :
    ∃ shared, t.IsMethod shared o.method ∧ ∀ ty ∈ shared, ty ∈ t.sharedTypes := by
  have hkey : ∀ ty ∈ some t.keyTy, ty ∈ t.sharedTypes := by
    rintro _ ⟨⟩
    exact List.mem_cons_self
  cases h with
  | save => exact ⟨_, isMethod_save hnamed, nofun⟩
  | create h => exact ⟨_, isMethod_create hnamed h, nofun⟩
  | update h => exact ⟨_, isMethod_update hnamed h, nofun⟩
  | delete h => exact ⟨_, isMethod_delete hnamed h, hkey⟩
  | get h => exact ⟨_, isMethod_get hnamed h, hkey⟩
  | getAll => exact ⟨_, isMethod_getAll hnamed, nofun⟩
  | getBy hc h =>
    refine ⟨_, isMethod_getBy hnamed hc h, ?_⟩
    rintro _ ⟨⟩
    exact List.mem_cons_of_mem _ (List.mem_map_of_mem hc)
  | transform h => exact ⟨_, isMethod_transform hnamed h, nofun⟩

/-- **Every such type is taken by a method.** -/
theorem exists_isMethod {os : List Operation} (h : t.operations = .ok os) {ty : Ty}
    (hty : ty ∈ t.sharedTypes) : ∃ o ∈ os, t.IsMethod (some ty) o.method := by
  obtain ⟨create, hcreate, h⟩ := bind_eq_ok.mp h
  obtain ⟨update, hupdate, h⟩ := bind_eq_ok.mp h
  obtain ⟨delete, hdelete, h⟩ := bind_eq_ok.mp h
  obtain ⟨get, hget, h⟩ := bind_eq_ok.mp h
  obtain ⟨lookups, hlookups, h⟩ := bind_eq_ok.mp h
  obtain ⟨transform, htransform, h⟩ := bind_eq_ok.mp h
  cases h
  rcases List.mem_cons.mp hty with rfl | hty
  · exact ⟨delete, by simp, isMethod_delete hnamed hdelete⟩
  · obtain ⟨c, hc, rfl⟩ := List.mem_map.mp hty
    obtain ⟨o, ho, hmade⟩ := exists_mem_of_mapM hlookups hc
    exact ⟨o, by simp [ho], isMethod_getBy hnamed hc hmade⟩

end Operations

end PlannedTable

end EntityTable.Table
