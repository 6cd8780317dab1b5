import EntityTable.Proofs.Column.Imports
import EntityTable.Proofs.Column.Resolved
import EntityTable.Proofs.Source.Phrases

/-! # Conversions that keep to expressions

A template keeps to expressions if it is one with every operand in its hole (`Template.Keeps`). This
is not implied by the check of a template, which fills the hole with a single word. Templates that
are phrases around their hole have it, and so do the templates of the text forms; composing two
templates keeps it. A plan whose templates keep to expressions writes an expression for whatever it
is given: a value, a field, a column of a row, each nullable or not. -/

namespace EntityTable.Column

open Source Source.Lexer Source.Grammar

/-! ### Templates -/

namespace Template

variable {t outer inner : Template} {s : Strength} {source : String}

/-- The text of the template with this in its hole. -/
def textWith (t : Template) (hole : List Char) : List Char :=
  t.before.toList ++ hole ++ t.after.toList

/-- With an operand in its hole the template is read as what the strength says. -/
def Keeps (t : Template) (s : Strength) : Prop :=
  ∀ ⦃hole⦄, Spells Stops hole IsOperand → Spells s.follow (t.textWith hole) s.form

/-- The template is a phrase around its hole. -/
def IsDirect (t : Template) : Prop := ∀ hole, Phrase hole .expr (t.textWith hole)

theorem IsDirect.keeps (h : t.IsDirect) : t.Keeps .expr := fun hole hhole => (h hole).spells hhole

/-- A text that is read as a phrase around its hole is read as nothing else. -/
theorem isDirect_of_ofText {text : String} (expected : Template)
    (hread : (ofText text).toOption = some expected) (h : expected.IsDirect) :
    ∀ t, ofText text = .ok t → t.IsDirect := by
  intro t ht
  cases (toOption_eq_some.mp hread).symm.trans ht
  exact h

theorem Keeps.expr (h : t.Keeps .closed) : t.Keeps .expr := fun _ hhole =>
  (h hhole).mono (fun _ => And.left) fun _ hoperand => (IsTerm.operand hoperand).expr

theorem keeps_identity : identity.Keeps .closed := fun hole hhole => by
  have htext : identity.textWith hole = hole := List.append_nil hole
  rw [htext]
  exact hhole

/-! ### Filling -/

/-- Parentheses around a source do not matter. -/
theorem spells_guarded (t : Template) (h : Spells Stops source.toList IsOperand) :
    Spells Stops (t.guarded source).toList IsOperand := by
  unfold guarded
  split
  · have hexpr : Spells EndsNumber source.toList IsExpr :=
      h.mono (fun _ => And.left) fun _ hoperand => (IsTerm.operand hoperand).expr
    have hparen : Spells Stops ('(' :: (source.toList ++ [')'])) IsOperand := hexpr.paren.anywhere
    rw [String.toList_append, String.toList_append]
    exact hparen
  · exact h

theorem toList_fill (t : Template) (source : String) :
    (t.fill source).toList = t.textWith (t.guarded source).toList := by
  rw [fill, String.toList_append, String.toList_append]
  rfl

theorem Keeps.fill (h : t.Keeps s) (hsource : Spells Stops source.toList IsOperand) :
    Spells s.follow (t.fill source).toList s.form := by
  rw [toList_fill]
  exact h (t.spells_guarded hsource)

/-! ### Composing -/

/-- **A template around one that yields operands.** -/
theorem Keeps.around (houter : outer.Keeps .expr) (hinner : inner.Keeps .closed) :
    (outer.around inner).Keeps .expr := by
  intro hole hhole
  unfold Template.around
  split
  · exact houter hhole
  split
  · exact hinner.expr hhole
  split
  · have htext : textWith ⟨outer.before ++ "(" ++ inner.before, inner.after ++ ")" ++ outer.after⟩
        hole = outer.textWith ('(' :: (inner.textWith hole ++ [')'])) := by
      simp [textWith]
    rw [htext]
    exact houter (hinner.expr hhole).paren.anywhere
  · have htext : textWith ⟨outer.before ++ inner.before, inner.after ++ outer.after⟩ hole =
        outer.textWith (inner.textWith hole) := by
      simp [textWith]
    rw [htext]
    exact houter (hinner hhole)

theorem Keeps.around_of_isIdentity (houter : outer.Keeps .expr) (hinner : inner.Keeps .expr)
    (h : outer.isIdentity = true ∨ inner.isIdentity = true) : (outer.around inner).Keeps .expr := by
  unfold Template.around
  split
  · exact houter
  · rename_i hne
    rw [if_pos (h.resolve_right hne)]
    exact hinner

/-- A reference to what a template yields. -/
theorem Keeps.borrowed (h : t.Keeps .expr) :
    Template.Keeps ⟨"&(" ++ t.before, t.after ++ ")"⟩ .closed := by
  intro hole hhole
  have htext : textWith ⟨"&(" ++ t.before, t.after ++ ")"⟩ hole =
      '&' :: '(' :: (t.textWith hole ++ [')']) := by
    simp [textWith]
  rw [htext]
  exact (h hhole).paren.borrow.anywhere

end Template

end EntityTable.Column

namespace EntityTable.Entity

open Column (Template)

/-! ### Fields that are converted directly -/

/-- A primitive value is stored as it is, so its type is that of the column. -/
def Primitive.isColumnType : Primitive → Bool
  | .int32 | .int64 | .uuid | .string | .boolean => true
  | _ => false

/-- The templates of the mapping are phrases around their holes, and if the column is read as the
type that the mapping stores the value as, this is a path. -/
structure TypeMapping.IsDirect (m : TypeMapping) : Prop where
  encode : ∀ text, m.encode = some text → ∀ t, Template.ofText text = .ok t → t.IsDirect
  decode : ∀ text, m.decode = some text → ∀ t, Template.ofText text = .ok t → t.IsDirect
  storeAs : m.columnType = none → ∀ p, Primitive.ofTy? m.storeAs = some p →
    p.isColumnType = true → m.storeAs.IsNamed

/-- A mapping of the field is direct, and if the column is read as the type of the field's values,
this is a path. -/
def StoredField.IsDirect (f : StoredField) : Prop :=
  match f.meaning with
  | .primitive p => p.isColumnType = true → f.valueTy.IsNamed
  | .mapped m => m.IsDirect
  | .serializable | .unrecognized => True

end EntityTable.Entity

namespace EntityTable.Column

open Source Source.Lexer Source.Grammar
open Entity (Primitive StoredField TypeMapping)

/-! ### Text forms -/

namespace TextForm

variable {hole text : List Char}

theorem isNameText_encoder (f : TextForm) : IsNameText f.encoder.toList := by
  rw [encoder, String.toList_append]
  cases f <;> exact .of_isPlainName (by decide)

theorem isNameText_decoder (f : TextForm) : IsNameText f.decoder.toList := by
  rw [decoder, String.toList_append]
  cases f <;> exact .of_isPlainName (by decide)

/-- A failure is passed on after any operand. -/
theorem phrase_onFailure (h : Phrase hole .closed text) {variant : String}
    (hvariant : IsNameText variant.toList) :
    Phrase hole .closed (text ++ (onFailure variant).toList) := by
  have hmap : IsNameText "map_err".toList := .of_isPlainName (by decide)
  have herr : IsNameText "err".toList := .of_isPlainName (by decide)
  have hsqlx : IsNameText "sqlx".toList := .of_isPlainName (by decide)
  have herror : IsNameText "Error".toList := .of_isPlainName (by decide)
  have hbox : IsNameText "Box".toList := .of_isPlainName (by decide)
  have hnew : IsNameText "new".toList := .of_isPlainName (by decide)
  have hboxed : Phrase hole .closed _ := .call (.cons hbox.word (Or.inl hbox.isName) hnew.path)
    (.lastArg (Phrase.path herr.path).operand.term.expr)
  have hwrapped : Phrase hole .closed _ := .call (.cons hsqlx.word (Or.inl hsqlx.isName)
    (.cons herror.word (Or.inl herror.isName) hvariant.path)) (.lastArg hboxed.operand.term.expr)
  have hclosure : Phrase hole .args _ := .lastArg (.closure herr hwrapped.operand.term.blank)
  have hcall := (Phrase.method h.operand hmap hclosure).operand.question
  have htext : onFailure variant =
      ".map_err(|err| sqlx::Error::" ++ variant ++ "(Box::new(err)))?" := rfl
  simp only [htext, String.toList_append, List.append_assoc, List.cons_append] at hcall ⊢
  exact hcall

/-- The template that writes a value yields an operand. -/
theorem phrase_encodeTemplate (f : TextForm) (hole : List Char) :
    Phrase hole .closed (f.encodeTemplate.textWith hole) := by
  have hencode : IsNameText "Encode".toList := .of_isPlainName (by decide)
  have hhole : Phrase hole .operand hole := Phrase.hole.operand
  have hcall {arg : List Char} (harg : Phrase hole .operand arg) :
      Phrase hole .closed (f.encoder.toList ++ '(' :: (arg ++ [')'])) :=
    .call f.isNameText_encoder.path (.lastArg harg.term.expr)
  simp only [Template.textWith, encodeTemplate, String.toList_append, List.append_assoc]
  split
  · rename_i hfloat
    rw [if_neg (by rw [hfloat]; decide)]
    exact hcall hhole.deref
  split
  · have hall := phrase_onFailure (hcall hhole) hencode
    simp only [List.append_assoc, List.cons_append] at hall
    exact hall
  · exact hcall hhole

/-- The template that reads a value yields an operand. -/
theorem phrase_decodeTemplate (f : TextForm) (hole : List Char) :
    Phrase hole .closed (f.decodeTemplate.textWith hole) := by
  have hdecode : IsNameText "Decode".toList := .of_isPlainName (by decide)
  have hcall : Phrase hole .closed (f.decoder.toList ++ '(' :: ('&' :: hole ++ [')'])) :=
    .call f.isNameText_decoder.path (.lastArg Phrase.hole.operand.borrow.term.expr)
  simp only [Template.textWith, decodeTemplate, String.toList_append, List.append_assoc]
  split
  · exact hcall
  · have hall := phrase_onFailure hcall hdecode
    simp only [List.append_assoc, List.cons_append] at hall
    exact hall

end TextForm

/-! ### Conversions -/

/-- Both templates keep to expressions, and the type that is read is a path. -/
structure Conversion.Keeps (c : Conversion) (s : Strength) : Prop where
  encode : c.encode.Keeps s
  decode : c.decode.Keeps s
  readType : c.readType.IsNamed

namespace Conversion

variable {base c : Conversion} {encode decode : Template} {field : String} {m : TypeMapping}

theorem Keeps.expr (h : c.Keeps .closed) : c.Keeps .expr where
  encode := h.encode.expr
  decode := h.decode.expr
  readType := h.readType

theorem keeps_identity (storage : Storage) {ty : Ty} (h : ty.IsNamed) :
    (identity storage ty).Keeps .closed where
  encode := Template.keeps_identity
  decode := Template.keeps_identity
  readType := h

theorem keeps_ofText (f : TextForm) : (ofText f).Keeps .closed where
  encode hole hhole := (f.phrase_encodeTemplate hole).spells hhole
  decode hole hhole := (f.phrase_decodeTemplate hole).spells hhole
  readType := isNamed_word (.of_isPlainName (by decide))

theorem keeps_ofPrimitive (p : Primitive) {ty : Ty} (h : p.isColumnType = true → ty.IsNamed) :
    (ofPrimitive p ty).Keeps .closed := by
  cases p with
  | int32 | int64 | uuid | string | boolean => exact keeps_identity _ (h rfl)
  | dateTime | zonedDateTime | listOfString | float32 => exact keeps_ofText _

/-- **User templates around a conversion that yields operands.** -/
theorem Keeps.within (hbase : base.Keeps .closed) (hencode : encode.Keeps .expr)
    (hdecode : decode.Keeps .expr) (imports : List String) :
    (base.within encode decode imports).Keeps .expr where
  encode := by
    unfold Conversion.within
    by_cases h : base.encode.isIdentity = true ∨ encode.isIdentity = true
    · rw [if_pos (Bool.or_eq_true_iff.mpr h)]
      exact hbase.encode.expr.around_of_isIdentity hencode h
    · rw [if_neg (h ∘ Bool.or_eq_true_iff.mp)]
      exact hbase.encode.expr.around hencode.borrowed
  decode := hdecode.around hbase.decode
  readType := hbase.readType

theorem isNamed_readType (storage : Storage) : storage.readType.IsNamed := by
  have hsqlx : IsNameText "sqlx".toList := .of_isPlainName (by decide)
  have htypes : IsNameText "types".toList := .of_isPlainName (by decide)
  have huuid : IsNameText "Uuid".toList := .of_isPlainName (by decide)
  cases storage with
  | uuid =>
    refine ⟨["sqlx", "types", "Uuid"], rfl, List.cons_ne_nil _ _, ?_⟩
    simp only [List.forall_mem_cons]
    exact ⟨⟨hsqlx.word, Or.inl hsqlx.isName⟩, ⟨htypes.word, Or.inl htypes.isName⟩,
      ⟨huuid.word, Or.inl huuid.isName⟩, nofun⟩
  | integer | bigInt | text | boolean =>
    exact isNamed_word (.of_isPlainName (by decide))

theorem keeps_of_mappingTemplate {direction : Direction} {text : Option String} {t : Template}
    (h : mappingTemplate field direction text = .ok t)
    (htext : ∀ given, text = some given → ∀ t, Template.ofText given = .ok t → t.IsDirect) :
    t.Keeps .expr := by
  cases text with
  | none =>
    cases h
    exact Template.keeps_identity.expr
  | some given =>
    cases hgiven : Template.ofText given with
    | error e => rw [mappingTemplate, hgiven] at h; cases h
    | ok t' =>
      rw [mappingTemplate, hgiven] at h
      cases h
      exact (htext given rfl _ hgiven).keeps

/-- **The conversion of a direct mapping keeps to expressions.** -/
theorem keeps_of_ofMapping (h : ofMapping field m = .ok c) (hm : m.IsDirect) : c.Keeps .expr := by
  obtain ⟨encode, decode, hencode, hdecode, -, hc⟩ := exists_of_ofMapping h
  have hencode := keeps_of_mappingTemplate hencode hm.encode
  have hdecode := keeps_of_mappingTemplate hdecode hm.decode
  unfold ofTemplates? at hc
  split at hc
  · obtain ⟨storage, -, rfl⟩ := Option.map_eq_some_iff.mp hc
    exact ⟨hencode, hdecode, isNamed_readType storage⟩
  · rename_i hcolumn
    obtain ⟨p, hp, rfl⟩ := Option.map_eq_some_iff.mp hc
    exact (keeps_ofPrimitive p (hm.storeAs hcolumn p hp)).within hencode hdecode m.imports

end Conversion

/-! ### Plans -/

namespace Plan

variable {f : StoredField} {p : Plan} {source row : String}

theorem keeps_of_conversionOf {branch : Branch} {c : Conversion}
    (h : conversionOf f = .ok (branch, c)) (hf : f.IsDirect) : c.Keeps .expr := by
  unfold StoredField.IsDirect at hf
  unfold conversionOf at h
  cases hmeaning : f.meaning with
  | mapped m =>
    rw [hmeaning] at h hf
    dsimp only at h hf
    cases hmapped : Conversion.ofMapping f.name m with
    | error e => rw [hmapped] at h; cases h
    | ok c =>
      rw [hmapped] at h
      cases h
      exact Conversion.keeps_of_ofMapping hmapped hf
  | primitive known =>
    rw [hmeaning] at h hf
    cases h
    exact (Conversion.keeps_ofPrimitive known hf).expr
  | serializable =>
    rw [hmeaning] at h
    cases h
    exact (Conversion.keeps_ofText .serialized).expr
  | unrecognized =>
    rw [hmeaning] at h
    cases h

theorem keeps_of_ofField (h : ofField f = .ok p) (hf : f.IsDirect) :
    p.conversion.Keeps .expr := keeps_of_conversionOf (isOf_of_ofField h).conversion hf

/-! ### Expressions of a plan -/

theorem spells_fillNullable {t : Template} (ht : t.Keeps .expr) (isNullable : Bool)
    (h : Spells Stops source.toList IsOperand) :
    Spells EndsNumber (fillNullable isNullable t source).toList IsExpr := by
  have hname : IsNameText "value".toList := .of_isPlainName (by decide)
  have hvalue : Spells EndsNumber (t.fill "value").toList IsExpr := ht.fill hname.path.operand
  have hterm : Spells EndsNumber source.toList IsTerm :=
    h.mono (fun _ => And.left) fun _ => .operand
  unfold fillNullable
  split
  · exact ht.fill h
  · simp only [String.toList_append]
    exact (hterm.nullMatch hvalue).anywhere

section Keeping
variable (h : p.conversion.Keeps .expr)
include h

theorem spells_encodeValue (hsource : Spells Stops source.toList IsOperand) :
    Spells EndsNumber (p.encodeValue source).toList IsExpr := h.encode.fill hsource

theorem spells_encode (hsource : Spells Stops source.toList IsOperand) :
    Spells EndsNumber (p.encode source).toList IsExpr :=
  spells_fillNullable h.encode p.isNullable hsource

/-- The type that is read, under `Option` or not, is an argument in angle brackets. -/
theorem spells_readType (isNullable : Bool) : Spells Stops
    (if isNullable then "Option<" ++ Token.textList p.conversion.readType.tokens ++ ">"
      else Token.textList p.conversion.readType.tokens).toList IsTypeArg := by
  obtain ⟨ws, hpath⟩ := h.readType.isPathText
  split
  · simp only [String.toList_append]
    exact hpath.option.anywhere
  · exact hpath.typeArg

/-- **Reading the column from a row is an operand.** -/
theorem spells_read (hrow : IsNameText row.toList) :
    Spells Stops (p.read row).toList IsOperand := by
  have hget : IsNameText "try_get".toList := .of_isPlainName (by decide)
  have hcolumn : Spells EndsNumber (Literal.quote p.column).toList IsArgs :=
    (spells_quote p.column).mono (fun _ => And.left) fun _ hoperand =>
      .last (IsTerm.operand hoperand).expr
  have hreceiver : Spells EndsNumber row.toList IsOperand :=
    hrow.path.operand.before fun _ => And.left
  have hcall : Spells EndsNumber _ IsOperand :=
    (hreceiver.methodOfTypes hget (spells_readType h p.isNullable) hcolumn).anywhere
  have hread : Spells Stops _ IsOperand := hcall.question.anywhere
  have htext : p.read row = row ++ ".try_get::<" ++
      (if p.isNullable then "Option<" ++ Token.textList p.conversion.readType.tokens ++ ">"
        else Token.textList p.conversion.readType.tokens) ++ ", _>(" ++
      Literal.quote p.column ++ ")?" := rfl
  simp only [htext, String.toList_append, List.append_assoc, List.cons_append] at hread ⊢
  exact hread

theorem spells_decode (hrow : IsNameText row.toList) :
    Spells EndsNumber (p.decode (p.read row)).toList IsExpr :=
  spells_fillNullable h.decode p.isNullable (spells_read h hrow)

end Keeping

end Plan

end EntityTable.Column
