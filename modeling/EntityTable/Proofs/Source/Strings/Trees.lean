import EntityTable.Proofs.Source.Strings

/-! # String literals of trees

The string literals of a tree are those of its tokens. Each list of trees has the literals of its
elements, and arguments in angle brackets have theirs in the order of the source, although lifetimes
are moved to the front (`strings_angleTokens`). -/

namespace EntityTable.Source

/-! ### Types and attributes -/

instance : HasStrings Binder := ⟨fun b => strings b.tokens⟩

instance : HasNoStrings Binder where
  strings_eq b := by
    have hlifetimes (names : List String) :
        strings (names.map fun name => [Token.lifetime name]) = [] := by
      induction names with
      | nil => rfl
      | cons name names ih => simpa using ih
    change strings b.tokens = []
    simp [Binder.tokens, hlifetimes]

@[simp] theorem strings_binder (b : Binder) : strings b.tokens = [] := strings_eq_nil b

@[simp] theorem strings_binderTokens (binder : Option Binder) :
    strings (binderTokens binder) = [] := by
  cases binder <;> simp [binderTokens]

instance : HasStrings Ty := ⟨fun ty => strings ty.tokens⟩
instance : HasStrings FnPtrParam := ⟨fun param => strings param.tokens⟩
instance : HasStrings Path := ⟨fun path => strings path.tokens⟩
instance : HasStrings QualifiedPath := ⟨fun path => strings path.tokens⟩
instance : HasStrings Segment := ⟨fun segment => strings segment.tokens⟩
instance : HasStrings GenericArg := ⟨fun arg => strings arg.tokens⟩
instance : HasStrings Bound := ⟨fun bound => strings bound.tokens⟩
instance : HasStrings AttributeInput := ⟨fun input => strings input.tokens⟩
instance : HasStrings Attribute := ⟨fun attr => strings attr.tokens⟩

@[simp] theorem strings_ty (ty : Ty) : strings ty = strings ty.tokens := rfl

@[simp] theorem strings_fnPtrParam (param : FnPtrParam) : strings param = strings param.tokens := rfl

@[simp] theorem strings_path (path : Path) : strings path = strings path.tokens := rfl

@[simp] theorem strings_qualifiedPath (path : QualifiedPath) :
    strings path = strings path.tokens := rfl

@[simp] theorem strings_segment (segment : Segment) : strings segment = strings segment.tokens := rfl

@[simp] theorem strings_genericArg (arg : GenericArg) : strings arg = strings arg.tokens := rfl

@[simp] theorem strings_bound (bound : Bound) : strings bound = strings bound.tokens := rfl

@[simp] theorem strings_attributeInput (input : AttributeInput) :
    strings input = strings input.tokens := rfl

@[simp] theorem strings_attribute (attr : Attribute) : strings attr = strings attr.tokens := rfl

@[simp] theorem strings_tokensOf_ty (tys : List Ty) : strings (Ty.tokensOf tys) = strings tys := by
  induction tys with
  | nil => rfl
  | cons ty tys ih => rw [Ty.tokensOf, strings_cons, ih]; rfl

@[simp] theorem strings_tokensOf_fnPtrParam (params : List FnPtrParam) :
    strings (FnPtrParam.tokensOf params) = strings params := by
  induction params with
  | nil => rfl
  | cons param params ih => rw [FnPtrParam.tokensOf, strings_cons, ih]; rfl

@[simp] theorem strings_tokensOf_segment (segments : List Segment) :
    strings (Segment.tokensOf segments) = strings segments := by
  induction segments with
  | nil => rfl
  | cons segment segments ih => rw [Segment.tokensOf, strings_cons, ih]; rfl

@[simp] theorem strings_tokensOf_bound (bounds : List Bound) :
    strings (Bound.tokensOf bounds) = strings bounds := by
  induction bounds with
  | nil => rfl
  | cons bound bounds ih => rw [Bound.tokensOf, strings_cons, ih]; rfl

theorem strings_tokensOf_genericArg (args : List GenericArg) :
    strings (GenericArg.tokensOf args) = strings args ∧
      ∀ a ∈ GenericArg.tokensOf args, a.1 = true → strings a.2 = [] := by
  induction args with
  | nil => exact ⟨rfl, nofun⟩
  | cons arg args ih =>
    cases arg <;>
      simp_all [GenericArg.tokensOf, GenericArg.tokens]

theorem flatMap_mapIdx {α β γ : Type} {k : β → List γ} {f : α → List γ} :
    ∀ {l : List α} {g : Nat → α → β}, (∀ i a, k (g i a) = f a) →
      (l.mapIdx g).flatMap k = l.flatMap f
  | [], _, _ => rfl
  | a :: l, g, h => by
    rw [List.mapIdx_cons, List.flatMap_cons, List.flatMap_cons, h,
      flatMap_mapIdx (l := l) fun i a => h (i + 1) a]

/-- What is moved to the front has no literals, so all are in what stays behind. -/
theorem strings_filter {marked : List (Bool × List Token × Bool)}
    (h : ∀ m ∈ marked, m.1 = true → strings m.2.1 = []) :
    ((marked.filter (·.1)).map (·.2)).flatMap (fun m => strings (m.1 ++ operatorIf m.2 ",")) = [] ∧
      ((marked.filter (!·.1)).map (·.2)).flatMap (fun m => strings (m.1 ++ operatorIf m.2 ",")) =
        marked.flatMap fun m => strings m.2.1 := by
  induction marked with
  | nil => exact ⟨rfl, rfl⟩
  | cons m marked ih =>
    obtain ⟨hmoved, hothers⟩ := ih fun m hm => h m (List.mem_cons_of_mem _ hm)
    have hm := h m List.mem_cons_self
    obtain ⟨isLifetime, tokens, hasComma⟩ := m
    cases isLifetime with
    | true => simp_all
    | false => simp_all

theorem strings_flatMap {α : Type} (f : α → List Token) (l : List α) :
    strings (l.flatMap f) = l.flatMap fun a => strings (f a) := List.flatMap_assoc

/-- Lifetimes are moved to the front, and no literals with them. -/
theorem strings_angleTokens (turbofish trailing : Bool) {args : List (Bool × List Token)}
    (h : ∀ a ∈ args, a.1 = true → strings a.2 = []) :
    strings (angleTokens turbofish trailing args) = strings args := by
  unfold angleTokens
  extract_lets marked write lifetimes others needsComma
  have hmarked : ∀ m ∈ marked, m.1 = true → strings m.2.1 = [] := by
    intro m hm
    obtain ⟨i, hi, rfl⟩ := List.mem_mapIdx.mp hm
    exact h _ (List.getElem_mem hi)
  obtain ⟨hlifetimes, hothers⟩ := strings_filter hmarked
  have hargs : (marked.flatMap fun m => strings m.2.1) = strings args :=
    flatMap_mapIdx fun _ _ => rfl
  have hfront : strings (lifetimes.flatMap write) = [] := by
    rw [strings_flatMap]
    exact hlifetimes
  have hback : strings (others.flatMap write) = strings args := by
    rw [strings_flatMap, ← hargs]
    exact hothers
  simp [hfront, hback]

@[simp] theorem strings_angle (name : String) (turbofish : Bool) (args : List GenericArg)
    (trailing : Bool) :
    strings (Segment.angle name turbofish args trailing).tokens = strings args := by
  obtain ⟨hargs, hlifetimes⟩ := strings_tokensOf_genericArg args
  rw [Segment.tokens, strings_append, strings_wordToken, strings_angleTokens _ _ hlifetimes, hargs]
  rfl

@[simp] theorem strings_outputTokens (output : Option Ty) :
    strings (outputTokens output) = strings output := by
  cases output <;> simp [outputTokens]

@[simp] theorem strings_attributeTokens (attrs : List Attribute) :
    strings (attributeTokens attrs) = strings attrs := strings_flatMap _ attrs

/-! ### Patterns -/

instance : HasStrings Pat := ⟨fun pat => strings pat.tokens⟩
instance : HasStrings PatField := ⟨fun field => strings field.tokens⟩

@[simp] theorem strings_pat (pat : Pat) : strings pat = strings pat.tokens := rfl

@[simp] theorem strings_patField (field : PatField) : strings field = strings field.tokens := rfl

@[simp] theorem strings_tokensOf_pat (pats : List Pat) : strings (Pat.tokensOf pats) = strings pats := by
  induction pats with
  | nil => rfl
  | cons pat pats ih => rw [Pat.tokensOf, strings_cons, ih]; rfl

@[simp] theorem strings_tokensOf_patField (fields : List PatField) :
    strings (PatField.tokensOf fields) = strings fields := by
  induction fields with
  | nil => rfl
  | cons field fields ih => rw [PatField.tokensOf, strings_cons, ih]; rfl

/-- A literal that begins with a digit is a number. -/
theorem kind_ne_string {text : String} (h : text.toList.head?.any Char.isDigit = true) :
    Literal.kind text ≠ .string := by
  unfold Literal.kind
  split
  · rename_i heq
    rw [heq] at h
    cases h
  · rename_i heq
    rw [heq] at h
    cases h
  · exact nofun
  · exact nofun
  · exact nofun
  · exact nofun
  · split <;> exact nofun

@[simp] theorem strings_memberTokens (member : String) : strings (memberTokens member) = [] := by
  unfold memberTokens
  split
  · rename_i hdigit
    simp [strings_literal, kind_ne_string hdigit]
  · rfl

/-! ### Expressions, statements and items -/

instance : HasStrings Expr := ⟨fun e => strings e.tokens⟩
instance : HasStrings FieldInit := ⟨fun field => strings field.tokens⟩
instance : HasStrings Arm := ⟨fun arm => strings arm.tokens⟩
instance : HasStrings Stmt := ⟨fun stmt => strings stmt.tokens⟩
instance : HasStrings Item := ⟨fun item => strings item.tokens⟩
instance : HasStrings ClosureParam := ⟨fun param => strings param.tokens⟩
instance : HasStrings Visibility := ⟨fun visibility => strings visibility.tokens⟩
instance : HasStrings FieldDef := ⟨fun field => strings field.tokens⟩
instance : HasStrings StructBody := ⟨fun body => strings body.tokens⟩
instance : HasStrings FnParam := ⟨fun param => strings param.tokens⟩
instance : HasStrings Signature := ⟨fun signature => strings signature.tokens⟩
instance : HasStrings UseTree := ⟨fun tree => strings tree.tokens⟩

@[simp] theorem strings_expr (e : Expr) : strings e = strings e.tokens := rfl

@[simp] theorem strings_fieldInit (field : FieldInit) : strings field = strings field.tokens := rfl

@[simp] theorem strings_arm (arm : Arm) : strings arm = strings arm.tokens := rfl

@[simp] theorem strings_stmt (stmt : Stmt) : strings stmt = strings stmt.tokens := rfl

@[simp] theorem strings_item (item : Item) : strings item = strings item.tokens := rfl

@[simp] theorem strings_closureParam (param : ClosureParam) :
    strings param = strings param.tokens := rfl

@[simp] theorem strings_visibility (visibility : Visibility) :
    strings visibility = strings visibility.tokens := rfl

@[simp] theorem strings_fieldDef (field : FieldDef) : strings field = strings field.tokens := rfl

@[simp] theorem strings_structBody (body : StructBody) : strings body = strings body.tokens := rfl

@[simp] theorem strings_fnParam (param : FnParam) : strings param = strings param.tokens := rfl

@[simp] theorem strings_signature (signature : Signature) :
    strings signature = strings signature.tokens := rfl

@[simp] theorem strings_useTree (tree : UseTree) : strings tree = strings tree.tokens := rfl

@[simp] theorem strings_optionTokens (e : Option Expr) :
    strings (Expr.optionTokens e) = strings e := by
  cases e <;> rfl

@[simp] theorem strings_tokensOf_expr (es : List Expr) : strings (Expr.tokensOf es) = strings es := by
  induction es with
  | nil => rfl
  | cons e es ih => rw [Expr.tokensOf, strings_cons, ih]; rfl

@[simp] theorem strings_tokensOf_fieldInit (fields : List FieldInit) :
    strings (FieldInit.tokensOf fields) = strings fields := by
  induction fields with
  | nil => rfl
  | cons field fields ih => rw [FieldInit.tokensOf, strings_cons, ih]; rfl

@[simp] theorem strings_tokensOf_arm (arms : List Arm) :
    strings (Arm.tokensOf arms) = strings arms := by
  induction arms with
  | nil => rfl
  | cons arm arms ih => rw [Arm.tokensOf, strings_append, ih]; rfl

@[simp] theorem strings_tokensOf_stmt (stmts : List Stmt) :
    strings (Stmt.tokensOf stmts) = strings stmts := by
  induction stmts with
  | nil => rfl
  | cons stmt stmts ih => rw [Stmt.tokensOf, strings_append, ih]; rfl

@[simp] theorem strings_tokensOf_item (items : List Item) :
    strings (Item.tokensOf items) = strings items := by
  induction items with
  | nil => rfl
  | cons item items ih => rw [Item.tokensOf, strings_append, ih]; rfl

@[simp] theorem strings_tokensOf_useTree (trees : List UseTree) :
    strings (UseTree.tokensOf trees) = strings trees := by
  induction trees with
  | nil => rfl
  | cons tree trees ih => rw [UseTree.tokensOf, strings_cons, ih]; rfl

theorem strings_map {α β : Type} [HasStrings β] (f : α → β) (l : List α) :
    strings (l.map f) = l.flatMap fun a => strings (f a) := List.flatMap_map f strings l

@[simp] theorem strings_map_fieldDef (fields : List FieldDef) :
    strings (fields.map FieldDef.tokens) = strings fields := strings_map _ _

@[simp] theorem strings_map_fnParam (params : List FnParam) :
    strings (params.map FnParam.tokens) = strings params := strings_map _ _

@[simp] theorem strings_map_closureParam (params : List ClosureParam) :
    strings (params.map ClosureParam.tokens) = strings params := strings_map _ _

@[simp] theorem strings_labelTokens (label : Option String) : strings (labelTokens label) = [] := by
  cases label <;> simp [labelTokens]

@[simp] theorem strings_blockKind (kind : BlockKind) : strings kind.tokens = [] := by
  cases kind <;> simp [BlockKind.tokens]

@[simp] theorem strings_closureMarks (marks : ClosureMarks) : strings marks.tokens = [] := by
  simp [ClosureMarks.tokens]

end EntityTable.Source
