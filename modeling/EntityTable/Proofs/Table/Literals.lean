import EntityTable.Proofs.Source.Literals
import EntityTable.Proofs.Source.Strings.Lexing
import EntityTable.Proofs.Table.Quoting
import EntityTable.Proofs.Table.Rows

/-! # What the literals of a unit denote

The texts of a unit reach its tokens as string literals: the names of the table and the key and the
definitions in constants, the statements as arguments of `sqlx::query`, and the names of columns as
arguments of `try_get`. Every literal denotes the text that it was made from, whatever characters
this has (`Literal.value?_quote`), and the calls of `sqlx::query` stand in the tokens as they are
read off the trees (`Occurs.of_query?`). Main statement: `literals_of_generate`. -/

namespace EntityTable.Table

open Source
open Column (Plan Plans)
open Entity (Description Schema StoredField article describes_of_build)

/-! ### Tokens inside others -/

/-- The tokens stand in a sequence, one after the other, in groups of any depth. -/
inductive Occurs (part : List Token) : List Token → Prop
  | here (before after : List Token) : Occurs part (before ++ part ++ after)
  | inside {body : List Token} (before : List Token) (d : Delimiter) (after : List Token) :
      Occurs part body → Occurs part (before ++ .group d body :: after)

namespace Occurs

variable {part ts : List Token}

theorem within (h : Occurs part ts) (before after : List Token) :
    Occurs part (before ++ ts ++ after) := by
  cases h with
  | here front back =>
    have hsplit : before ++ (front ++ part ++ back) ++ after =
        (before ++ front) ++ part ++ (back ++ after) := by simp
    exact hsplit ▸ here _ _
  | @inside body front d back hbody =>
    have hsplit : before ++ (front ++ .group d body :: back) ++ after =
        (before ++ front) ++ .group d body :: (back ++ after) := by simp
    exact hsplit ▸ inside _ d _ hbody

theorem before (h : Occurs part ts) (after : List Token) : Occurs part (ts ++ after) :=
  h.within [] after

theorem after (h : Occurs part ts) (before : List Token) : Occurs part (before ++ ts) := by
  simpa using h.within before []

theorem self (part : List Token) : Occurs part part := by
  have h : Occurs part ([] ++ part ++ []) := here [] []
  simpa using h

theorem grouped {body : List Token} (h : Occurs part body) (d : Delimiter) :
    Occurs part [.group d body] := inside [] d [] h

theorem trans {whole : List Token} (h : Occurs part ts) (hwhole : Occurs ts whole) :
    Occurs part whole := by
  induction hwhole with
  | here front back => exact h.within front back
  | inside front d back _ ih => exact .inside front d back ih

theorem stmtsOf {stmts : List Stmt} {stmt : Stmt} (hmem : stmt ∈ stmts)
    (h : Occurs part stmt.tokens) : Occurs part (Stmt.tokensOf stmts) := by
  induction hmem with
  | head stmts => exact h.before _
  | tail other _ ih => exact ih.after _

theorem itemsOf {items : List Item} {item : Item} (hmem : item ∈ items)
    (h : Occurs part item.tokens) : Occurs part (Item.tokensOf items) := by
  induction hmem with
  | head items => exact h.before _
  | tail other _ ih => exact ih.after _

end Occurs

/-! ### Constants -/

/-- The name of a constant and the literal that it holds. -/
def constant? : Item → Option (String × String)
  | .const _ _ name _ (.lit literal) => some (name, literal)
  | _ => none

/-- The tokens of a text constant from its name on. -/
def constantTokens (name literal : String) : List Token :=
  wordToken name ++ Token.operator ":" ++ (Ty.reference (some "static") false (.word "str")).tokens ++
    Token.operator "=" ++ [.literal literal] ++ Token.operator ";"

/-- A literal that denotes a text is no word for a truth value. -/
theorem tokens_text (value : String) : (Expr.text value).tokens = [.literal (Literal.quote value)] := by
  have hword {w : String} (hw : w.toList.head? ≠ some '\x22') : Literal.quote value ≠ w := by
    rintro rfl
    exact hw (by simp [Literal.quote])
  rw [Expr.text, Expr.tokens, if_neg (not_or.mpr ⟨hword (by decide), hword (by decide)⟩)]

theorem occurs_textConstant (attrs : List Attribute) (isPublic : Bool) (name value : String) :
    Occurs (constantTokens name (Literal.quote value))
      (textConstant attrs isPublic name value).tokens := by
  have htokens : (textConstant attrs isPublic name value).tokens =
      (attributeTokens attrs ++ (if isPublic then Visibility.everywhere else .inherited).tokens ++
        wordToken "const") ++ constantTokens name (Literal.quote value) := by
    rw [textConstant, Item.tokens, tokens_text, constantTokens]
    simp only [List.append_assoc]
  exact htokens ▸ (Occurs.self _).after _

/-! ### Queries -/

/-- The tokens call `sqlx::query` with the literal as the first argument. -/
def CallsQuery (literal : String) (tokens : List Token) : Prop :=
  ∃ args, Occurs ([.word "sqlx"] ++ Token.operator "::" ++
    [.word "query", .group .paren (.literal literal :: args)]) tokens

namespace CallsQuery

variable {literal : String} {ts : List Token}

theorem within {whole : List Token} (h : CallsQuery literal ts) (hwhole : Occurs ts whole) :
    CallsQuery literal whole := h.imp fun _ hcall => hcall.trans hwhole

theorem before (h : CallsQuery literal ts) (after : List Token) :
    CallsQuery literal (ts ++ after) := h.within ((Occurs.self ts).before after)

theorem prepared (text : String) : CallsQuery (Literal.quote text) (prepared text).tokens := by
  refine ⟨[], ?_⟩
  have htokens : (Table.prepared text).tokens = [.word "sqlx"] ++ Token.operator "::" ++
      [.word "query", .group .paren [.literal (Literal.quote text)]] := by
    rw [Table.prepared, Expr.apply, Expr.tokens, Expr.tokensOf, tokens_text, Expr.tokensOf]
    rfl
  exact htokens ▸ Occurs.self _

theorem method {e : Expr} (h : CallsQuery literal e.tokens) (name : String) (args : List Expr) :
    CallsQuery literal (e.method name args).tokens := by
  rw [Expr.method, Expr.tokens, List.append_assoc, List.append_assoc]
  exact h.before _

theorem executed {e : Expr} (h : CallsQuery literal e.tokens) (executor : String) :
    CallsQuery literal (executed e executor).tokens := by
  rw [Table.executed, Expr.awaited, Expr.tokens, Expr.tokens, List.append_assoc, List.append_assoc]
  exact (h.method _ _).before _

/-- Binding values leaves the call where it is. -/
theorem bound : ∀ (values : List Expr) {e : Expr}, CallsQuery literal e.tokens →
    CallsQuery literal (values.foldl (fun e value => e.method "bind" [value]) e).tokens
  | [], _, h => h
  | value :: values, _, h => bound values (h.method "bind" [value])

theorem run (q : Query) (executor : String) :
    CallsQuery (Literal.quote q.statement.text) (q.run executor).tokens :=
  (bound q.binds (prepared q.statement.text)).executed executor

/-- A statement of the method makes the call. -/
theorem methodItem {docs : List Attribute} {isPublic isAsync : Bool} {name : String}
    {params : List FnParam} {value : Ty} {body : List Stmt} {stmt : Stmt} (hmem : stmt ∈ body)
    (h : CallsQuery literal stmt.tokens) :
    CallsQuery literal (methodItem docs isPublic isAsync name params value body).tokens := by
  rw [Table.methodItem, Item.tokens]
  refine h.within ?_
  exact ((Occurs.stmtsOf hmem (Occurs.self _)).grouped .brace).after _

theorem bind {e : Expr} (h : CallsQuery literal e.tokens) (pat : Pat) :
    CallsQuery literal (Stmt.bind pat e).tokens := by
  have htokens : (Stmt.bind pat e).tokens =
      (wordToken "let" ++ pat.tokens ++ Token.operator "=") ++ e.tokens ++ Token.operator ";" := by
    simp [Stmt.bind, Stmt.tokens, attributeTokens]
  exact htokens ▸ h.within ((Occurs.self _).within _ _)

theorem runStmt {e : Expr} (h : CallsQuery literal e.tokens) :
    CallsQuery literal (Stmt.run e).tokens := by
  rw [Stmt.run, Stmt.tokens]
  exact h.before _

theorem schemaMethod (texts : List String) : ∀ text ∈ texts,
    CallsQuery (Literal.quote text) (schemaMethod texts).tokens := by
  intro text htext
  have hmem : Stmt.run (Table.executed (Table.prepared text) "execute") ∈
      texts.map fun text => Stmt.run (Table.executed (Table.prepared text) "execute") :=
    List.mem_map_of_mem htext
  exact methodItem (.tail _ (List.mem_append_left _ hmem))
    ((prepared text).executed "execute").runStmt

end CallsQuery

namespace PlannedTable

/-- **The method of an operation calls its query.** -/
theorem Makes.callsQuery {t : PlannedTable} {o : Operation} (h : t.Makes o) {q : Query}
    (hq : o.query = some q) : CallsQuery (Literal.quote q.statement.text) o.method.tokens := by
  cases h with
  | save => cases hq
  | create h | get h =>
    obtain ⟨q', -, h⟩ := bind_eq_ok.mp h
    cases h
    cases hq
    exact .methodItem (.tail _ (.head _)) ((CallsQuery.run _ _).bind _)
  | update h | delete h =>
    obtain ⟨q', -, h⟩ := bind_eq_ok.mp h
    cases h
    cases hq
    exact .methodItem (.tail _ (.head _)) (CallsQuery.run _ _).runStmt
  | getAll =>
    cases hq
    exact .methodItem (.tail _ (.head _)) ((CallsQuery.run _ _).bind _)
  | getBy _ h =>
    obtain ⟨key, -, h⟩ := bind_eq_ok.mp h
    cases h
    cases hq
    exact .methodItem (List.mem_append_right _ (.tail _ (.head _))) ((CallsQuery.run _ _).bind _)
  | transform h =>
    obtain ⟨values, -, h⟩ := bind_eq_ok.mp h
    cases h
    cases hq

/-- The method of an operation is no constant. -/
theorem Makes.constant?_method {t : PlannedTable} {o : Operation} (h : t.Makes o) :
    constant? o.method = none := by
  cases h with
  | save | getAll => rfl
  | create h | update h | delete h | get h | getBy _ h | transform h =>
    obtain ⟨_, -, h⟩ := bind_eq_ok.mp h
    cases h
    rfl

end PlannedTable

/-! ### Units -/

/-- The constants of a table object with the texts that they stand for. -/
def TableObject.constants (t : TableObject) : List (String × String) :=
  [("TABLE_NAME", t.tableName)] ++ t.columns.map (fun c => (c.name, c.definition)) ++
    [("PRIMARY_KEY", t.primaryKey.column)]

theorem occurs_member {u : GeneratedUnit} {item : Item} (h : item ∈ members u.table.implItem) :
    Occurs item.tokens u.tokens := by
  have himpl : Occurs item.tokens u.table.implItem.tokens := by
    rw [TableObject.implItem, Item.tokens]
    exact ((Occurs.itemsOf h (Occurs.self _)).grouped .brace).after _
  exact himpl.itemsOf (List.mem_append_right _ (.tail _ (.head _)))

namespace GeneratedUnit.From

variable {u : GeneratedUnit} {d : Description} {s : Schema} {plans : Plans} {t : PlannedTable}
  (h : u.From d s plans t)
include h

/-- **The constants hold literals of the texts of the table.** -/
theorem constants_eq : (members u.table.implItem).filterMap constant? =
    u.table.constants.map fun c => (c.1, Literal.quote c.2) := by
  have hcolumns : (u.table.columns.map ColumnConstant.item).filterMap constant? =
      u.table.columns.map fun c => (c.name, Literal.quote c.definition) := by
    rw [List.filterMap_map]
    exact congrFun List.filterMap_eq_map _
  have hmethods : (u.table.operations.map Operation.method).filterMap constant? = [] := by
    rw [List.filterMap_map, List.filterMap_eq_nil_iff]
    exact fun o ho => (h.makes ho).constant?_method
  have hkey (value : String) : [textConstant [.docText "Primary key column."] true "PRIMARY_KEY" value,
      TableObject.newMethod, schemaMethod (u.table.statements.map Statement.text)].filterMap
        constant? = [("PRIMARY_KEY", Literal.quote value)] := rfl
  have hname (value : String) : [textConstant [.docText "Table name."] true "TABLE_NAME"
      value].filterMap constant? = [("TABLE_NAME", Literal.quote value)] := rfl
  change List.filterMap constant? (_ ++ _ ++ _ ++ _) = _
  rw [List.filterMap_append, List.filterMap_append, List.filterMap_append, hcolumns, hmethods,
    hkey, hname, List.append_nil, TableObject.constants, List.map_append, List.map_append,
    List.map_map]
  rfl

/-- The query of an operation is called in the tokens of the unit. -/
theorem callsQuery_operation {o : Operation} (ho : o ∈ u.table.operations) {sql : String}
    (hsql : o.sql? = some sql) : CallsQuery (Literal.quote sql) u.tokens := by
  obtain ⟨q, hq, rfl⟩ := Option.map_eq_some_iff.mp hsql
  have hmember : o.method ∈ members u.table.implItem :=
    List.mem_append_right _ (List.mem_map_of_mem ho)
  exact ((h.makes ho).callsQuery hq).within (occurs_member hmember)

end GeneratedUnit.From

/-- The statements that prepare the table are called in the tokens of the unit. -/
theorem callsQuery_statement (u : GeneratedUnit) {st : Statement}
    (hst : st ∈ u.table.statements) : CallsQuery (Literal.quote st.text) u.tokens := by
  have hmember : schemaMethod (u.table.statements.map Statement.text) ∈
      members u.table.implItem :=
    List.mem_append_left _ (List.mem_append_right _ (.tail _ (.tail _ (.head _))))
  exact (CallsQuery.schemaMethod _ _ (List.mem_map_of_mem hst)).within (occurs_member hmember)

/-- The constants stand in the tokens of the unit. -/
theorem occurs_constant (u : GeneratedUnit) {name value : String}
    (hmem : (name, value) ∈ u.table.constants) :
    Occurs (constantTokens name (Literal.quote value)) u.tokens := by
  have hitem {attrs : List Attribute} {isPublic : Bool}
      (hmem : textConstant attrs isPublic name value ∈ members u.table.implItem) :
      Occurs (constantTokens name (Literal.quote value)) u.tokens :=
    (occurs_textConstant attrs isPublic name value).trans (occurs_member hmem)
  rcases List.mem_append.mp hmem with hmem | hmem
  · rcases List.mem_append.mp hmem with hmem | hmem
    · cases List.mem_singleton.mp hmem
      exact hitem (List.mem_append_left _ (List.mem_append_left _ (List.mem_append_left _ (.head _))))
    · obtain ⟨c, hc, heq⟩ := List.mem_map.mp hmem
      cases heq
      exact hitem (List.mem_append_left _ (List.mem_append_left _
        (List.mem_append_right _ (List.mem_map_of_mem hc))))
  · cases List.mem_singleton.mp hmem
    exact hitem (List.mem_append_left _ (List.mem_append_right _ (.head _)))

/-! ### All literals -/

/-- The name of a field's column in the value that is read from a text: the literal that stands for
it denotes the name, the literals of the value are those of the text, and this one is among them if
the lexer comes to it, that is unless a template puts it into a comment or into other quotes. -/
structure NamesColumn (text name : String) (value : Expr) : Prop where
  denotes : Literal.value? (Literal.quote name) = some name
  literals : ∃ tokens, Token.ofText? text = some tokens ∧ strings value = strings tokens
  reached : ∀ after, Lexer.Reaches ((Literal.quote name).toList ++ ')' :: after)
    (Lexer.dropByteOrderMark text.toList) → Literal.quote name ∈ strings value

theorem namesColumn_of_ofText {text : String} {value : Expr} (h : Expr.ofText text = .ok value)
    (name : String) : NamesColumn text name value where
  denotes := Literal.value?_quote name
  literals := Expr.strings_of_ofText h
  reached _ := Expr.quote_mem_strings h (Lexer.stops_cons (by decide))

/-- **The literals of a unit denote the texts of its table.** The constants of the implementation
are those of the table, each operation calls `sqlx::query` with its statement and no other, the
method that prepares the table does so with the statements of the table in their order, and the
values that are read from a row are those of the columns' names. -/
theorem literals_of_generate {d : Description} {u : GeneratedUnit} (h : generate d = .ok u) :
    ∃ (s : Schema) (plans : Plans) (plan : StoredField → Plan), Schema.build d = .ok s ∧
      Plans.resolve s = .ok plans ∧ (∀ f ∈ s.storable, plans.get? f.name = some (plan f)) ∧
      ((members u.table.implItem).filterMap constant?).map (fun c => (c.1, Literal.value? c.2)) =
        u.table.constants.map (fun c => (c.1, some c.2)) ∧
      (∀ c ∈ u.table.constants, Occurs (constantTokens c.1 (Literal.quote c.2)) u.tokens) ∧
      (∃ method ∈ members u.table.implItem, itemName? method = some "create_schema" ∧
        (itemQueries method).map (fun q => Literal.value? q.1) =
          u.table.statements.map fun st => some st.text) ∧
      (∀ st ∈ u.table.statements, CallsQuery (Literal.quote st.text) u.tokens) ∧
      ∀ o ∈ u.table.operations,
        (itemQueries o.method).map (fun q => Literal.value? q.1) = o.sql?.toList.map some ∧
        (∀ sql, o.sql? = some sql → CallsQuery (Literal.quote sql) u.tokens) ∧
        (o.kind = .transform →
          ∃ values, (s.storable.map (loadedText plan)).mapM Expr.ofText = .ok values ∧
            returnedEntries o.method = (s.storable.map StoredField.name).zip values ++
              s.transient.map (fun name => (name, PlannedTable.defaultValue)) ∧
            List.Forall₂ (fun f value => NamesColumn (loadedText plan f) f.name value)
              s.storable values) := by
  obtain ⟨s, plans, t, hfrom⟩ := GeneratedUnit.exists_from h
  obtain ⟨plan, hplan⟩ := hfrom.exists_plan
  refine ⟨s, plans, plan, hfrom.build, hfrom.resolve, hplan, ?_, fun c hc => occurs_constant u hc,
    ?_, fun st hst => callsQuery_statement u hst,
    fun o ho => ⟨?_, fun sql hsql => hfrom.callsQuery_operation ho hsql, fun hkind => ?_⟩⟩
  · rw [hfrom.constants_eq, List.map_map]
    exact List.map_congr_left fun c _ => by simp [Literal.value?_quote]
  · obtain ⟨method, hmem, hname, hqueries⟩ := u.table.exists_schemaMethod
    refine ⟨method, hmem, hname, ?_⟩
    rw [hqueries, List.map_map]
    exact List.map_congr_left fun st _ => by simp [Literal.value?_quote]
  · rcases (PlannedTable.operations_run hfrom.fits hfrom.operations).2 o ho with ⟨-, hnone⟩ | ⟨q, hq⟩
    · rw [(hfrom.makes ho).queries hnone, Operation.sql?, hnone]
      rfl
    · rw [hq.method, Operation.sql?, hq.query]
      simp [Literal.value?_quote]
  · obtain ⟨values, hvalues, hentries⟩ := hfrom.loads_texts hplan ho hkind
    refine ⟨values, hvalues, hentries, ?_⟩
    refine (List.forall₂_map_left_iff.mp (forall₂_of_mapM hvalues)).imp ?_
    exact fun f value hvalue => namesColumn_of_ofText hvalue f.name

/-- The quotes and the line break in the name of a table are those of its literal. -/
theorem literals_of_generate_quotedArticle : ∃ u, generate GeneratedUnit.quotedArticle = .ok u ∧
    ∃ literal, ("TABLE_NAME", literal) ∈ (members u.table.implItem).filterMap constant? ∧
      Literal.value? literal = some "a\x22; DROP\n\x22\x22 b" := by
  obtain ⟨_, harticle⟩ := exists_generate_article
  obtain ⟨u, hu⟩ : ∃ u, generate GeneratedUnit.quotedArticle = .ok u :=
    GeneratedUnit.generate_other_table harticle (by decide)
  obtain ⟨s, plans, plan, hs, -, -, hconstants, -⟩ := literals_of_generate hu
  obtain ⟨_, _, t, hfrom⟩ := GeneratedUnit.exists_from hu
  have htable : u.table.tableName = "a\x22; DROP\n\x22\x22 b" := by
    rw [hfrom.tableName, PlannedTable.tableName, hfrom.fits.schema,
      (describes_of_build hfrom.build).2.tableName]
    rfl
  have hmem : ("TABLE_NAME", some "a\x22; DROP\n\x22\x22 b") ∈
      u.table.constants.map fun c => (c.1, some c.2) :=
    htable ▸ List.mem_map_of_mem (List.mem_append_left _ (List.mem_append_left _ (.head _)))
  rw [← hconstants] at hmem
  obtain ⟨⟨name, literal⟩, hc, heq⟩ := List.mem_map.mp hmem
  obtain ⟨rfl, hvalue⟩ := Prod.mk.inj heq
  exact ⟨u, hu, literal, hc, hvalue⟩

end EntityTable.Table
