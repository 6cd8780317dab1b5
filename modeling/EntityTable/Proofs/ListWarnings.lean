import EntityTable.Proofs.Column.Mapped
import EntityTable.Proofs.Column.Plannable
import EntityTable.Proofs.Events

/-! # Warnings of lists

A list of strings is written as one text with commas between its elements, so elements with commas
are not told apart when it is read. A field is warned of if the type of its values is such a list
and it declares no mapping (`isListField_ofDescription`). But it is stored as a list also if its mapping names such
a type and no type of the column (`of?_eq_list_iff`), and then there is no warning. Main statement:
`warnings_of_ofField`. -/

namespace EntityTable

open Column (Conversion Plan Template TextForm userText valueTy)
open Entity (FieldDescription Meaning Primitive StoredField)
open Source (Ty)

/-! ### Lists of strings -/

/-- The type is a `Vec` whose item type ends in the word `String`. -/
def IsStringList (ty : Ty) : Prop :=
  ∃ item, ty.listItem? = some item ∧ item.lastWord? = some "String"

theorem ofWord?_ne_listOfString (word : String) :
    Primitive.ofWord? word ≠ some .listOfString := by
  unfold Primitive.ofWord?
  split <;> simp

/-- Only a list of strings means a list of strings. -/
theorem ofTy?_eq_listOfString_iff {ty : Ty} :
    Primitive.ofTy? ty = some .listOfString ↔ IsStringList ty := by
  unfold Primitive.ofTy? IsStringList
  cases hitem : ty.listItem? with
  | none =>
    have hword : ty.lastWord?.bind Primitive.ofWord? ≠ some .listOfString := by
      intro h
      obtain ⟨word, -, hword⟩ := Option.bind_eq_some_iff.mp h
      exact ofWord?_ne_listOfString word hword
    simp [hword]
  | some item => by_cases h : item.lastWord? = some "String" <;> simp [h]

variable {name : String} {d : FieldDescription}

/-- What the values of a described field are. -/
theorem meaning_ofDescription (name : String) (d : FieldDescription) :
    (∃ m, d.mapping = some m ∧ (StoredField.ofDescription name d).meaning = .mapped m) ∨
    (d.mapping = none ∧ ∃ p, Primitive.ofTy? (valueTy d) = some p ∧
      (StoredField.ofDescription name d).meaning = .primitive p) ∨
    (d.mapping = none ∧ Primitive.ofTy? (valueTy d) = none ∧
      ((StoredField.ofDescription name d).meaning = .serializable ∨
        (StoredField.ofDescription name d).meaning = .unrecognized)) := by
  have hmeaning : (StoredField.ofDescription name d).meaning =
      .classify (valueTy d) d.serializable d.mapping := rfl
  rw [hmeaning]
  cases d.mapping with
  | some m => exact .inl ⟨m, rfl, rfl⟩
  | none =>
    right
    cases hty : Primitive.ofTy? (valueTy d) with
    | some p => exact .inl ⟨rfl, p, rfl, by simp only [Meaning.classify, hty]⟩
    | none => cases d.serializable <;> simp [Meaning.classify, hty]

namespace Column.TextForm

theorem ofPrimitive?_eq_list_iff {p : Primitive} :
    ofPrimitive? p = some .list ↔ p = .listOfString := by
  cases p <;> simp [ofPrimitive?]

theorem ofMapping?_eq_list_iff {m : Entity.TypeMapping} :
    ofMapping? m = some .list ↔ m.columnType = none ∧ IsStringList m.storeAs := by
  rw [ofMapping?, ← ofTy?_eq_listOfString_iff]
  cases m.columnType with
  | some name => simp
  | none =>
    simp only [Option.isSome_none, Bool.false_eq_true, if_false, true_and,
      Option.bind_eq_some_iff, ofPrimitive?_eq_list_iff]
    exact ⟨fun ⟨p, hp, hlist⟩ => hlist ▸ hp, fun h => ⟨_, h, rfl⟩⟩

/-- **A field is stored as a list by its type or by its mapping.** -/
theorem of?_eq_list_iff : of? (.ofDescription name d) = some .list ↔
    (d.mapping = none ∧ IsStringList (valueTy d)) ∨
      ∃ m, d.mapping = some m ∧ m.columnType = none ∧ IsStringList m.storeAs := by
  rw [of?, ← ofTy?_eq_listOfString_iff]
  rcases meaning_ofDescription name d with ⟨m, hm, h⟩ | ⟨hm, p, hty, h⟩ | ⟨hm, hty, h | h⟩
  · simp [h, hm, ofMapping?_eq_list_iff]
  · simp [h, hm, hty, ofPrimitive?_eq_list_iff]
  · simp [h, hm, hty]
  · simp [h, hm, hty]

end Column.TextForm

/-! ### Warnings -/

/-- The field is warned of when it is planned. -/
def IsWarned (f : StoredField) : Prop := ∃ event ∈ planningEvents [f], event.level = .warn

variable {f : StoredField} {plan : Plan}

theorem planningEvents_singleton (h : Plan.ofField f = .ok plan) :
    planningEvents [f] = fieldEvents f plan := by
  rw [planningEvents_cons h, planningEvents, List.append_nil]

theorem isWarned_iff_isListField (h : Plan.ofField f = .ok plan) :
    IsWarned f ↔ isListField f = true := by
  rw [IsWarned, planningEvents_singleton h, fieldEvents]
  cases isListField f <;> simp [Event.level]

theorem isListField_ofDescription : isListField (.ofDescription name d) = true ↔
    d.mapping = none ∧ IsStringList (valueTy d) := by
  rw [isListField, ← ofTy?_eq_listOfString_iff]
  rcases meaning_ofDescription name d with ⟨m, hm, h⟩ | ⟨hm, p, hty, h⟩ | ⟨hm, hty, h | h⟩
  · simp [h, hm]
  · cases p <;> simp [h, hm, hty]
  · simp [h, hm, hty]
  · simp [h, hm, hty]

/-- A list of strings that may be missing is a list field. -/
example : isListField (.ofDescription "tags"
    (.plain "tags" (.applied "Option" [.applied "Vec" [.word "String"]]))) = true := by
  decide +kernel

/-- The warnings of fields that are planned: one for each list field, in order. -/
theorem warnings_planningEvents {fs : List StoredField} {plans : List Plan}
    (h : fs.mapM Plan.ofField = .ok plans) :
    ((planningEvents fs).filter fun e => e.level == .warn).map (·.fields.lookup "field") =
      (fs.filter isListField).map fun f => some f.name := by
  induction fs generalizing plans with
  | nil => rfl
  | cons f fs ih =>
    rw [List.mapM_cons] at h
    obtain ⟨plan, hplan, h⟩ := bind_eq_ok.mp h
    obtain ⟨rest, hrest, -⟩ := bind_eq_ok.mp h
    have hname : plan.column = f.name := Plan.column_of_ofField hplan
    rw [planningEvents_cons hplan, List.filter_append, List.map_append, ih hrest, fieldEvents]
    cases hlist : isListField f with
    | true => simp [hlist, Event.level, Event.fields, hname]
    | false => simp [hlist, Event.level]

/-! ### Conversions of lists -/

/-- What is stored as a list goes through the user's template and then through the function that
joins lists, and comes from the function that splits them. -/
theorem fill_of_applies_list {c : Conversion} {encode decode : Template}
    (h : c.Applies (some .list) encode decode) (source : String) :
    c.encode.fill source = "encode_list(" ++ encode.borrowed.fill source ++ ")" ∧
      c.decode.fill source = decode.fill ("decode_list(&" ++ source ++ ")") := by
  have hencode : c.encode = TextForm.list.encodeTemplate.around encode.borrowed := h.encode
  have hdecode : c.decode = decode.around TextForm.list.decodeTemplate := h.decode
  have hplain (t : Template) (hafter : t.after = ")") (source : String) :
      t.fill source = t.before ++ source ++ ")" := by
    have hpostfix : t.isPostfix = false := by
      rw [Template.isPostfix, hafter]
      decide
    rw [Template.fill, Template.guarded, hpostfix, hafter]
    rfl
  have hinner : encode.borrowed = .identity ∨ encode.borrowed.IsClosed := by
    cases hidentity : encode.isIdentity with
    | true =>
      left
      rw [Template.borrowed, if_pos hidentity, Template.isIdentity_iff.mp hidentity]
    | false => exact .inr (Template.isClosed_borrowed hidentity)
  constructor
  · rw [hencode, Template.fill_around hinner, hplain TextForm.list.encodeTemplate (by decide)]
    rfl
  · rw [hdecode, Template.fill_around (.inr TextForm.list.isClosed_decodeTemplate),
      hplain TextForm.list.decodeTemplate (by decide)]
    rfl

/-! ### Main statement -/

/-- **A field that is stored as a list is warned of unless it declares a mapping.** A field that can
be planned leaves one event, or two of which the first is the warning with its name. It is warned of
exactly if it declares no mapping and its values, or what is inside the option, are lists of
strings. It is stored as a list in that case, and else exactly if its mapping names a list of strings
to store the value as and no type of the column. -/
theorem warnings_of_ofField (h : Plan.ofField (.ofDescription name d) = .ok plan) :
    (planningEvents [.ofDescription name d] = [.columnPlanned plan] ∧
        ¬ IsWarned (.ofDescription name d) ∨
      planningEvents [.ofDescription name d] = [.lossyList name, .columnPlanned plan] ∧
        IsWarned (.ofDescription name d)) ∧
    (IsWarned (.ofDescription name d) ↔ d.mapping = none ∧ IsStringList (valueTy d)) ∧
    (TextForm.of? (.ofDescription name d) = some .list ↔ IsWarned (.ofDescription name d) ∨
      ∃ m, d.mapping = some m ∧ m.columnType = none ∧ IsStringList m.storeAs) ∧
    (IsWarned (.ofDescription name d) ↔
      TextForm.of? (.ofDescription name d) = some .list ∧ d.mapping = none) ∧
    (TextForm.of? (.ofDescription name d) = some .list → ∃ encode decode,
      Conversion.mappingTemplate name .encode
        (userText (.ofDescription name d) .encode) = .ok encode ∧
      Conversion.mappingTemplate name .decode
        (userText (.ofDescription name d) .decode) = .ok decode ∧
      ∀ source, plan.encodeValue source = "encode_list(" ++ encode.borrowed.fill source ++ ")" ∧
        plan.decodeValue source = decode.fill ("decode_list(&" ++ source ++ ")")) := by
  have hevents := planningEvents_singleton h
  have hcolumn : plan.column = name := Plan.column_of_ofField h
  have hwarned : IsWarned (.ofDescription name d) ↔ d.mapping = none ∧ IsStringList (valueTy d) :=
    (isWarned_iff_isListField h).trans isListField_ofDescription
  have hlist : TextForm.of? (.ofDescription name d) = some .list ↔ _ := TextForm.of?_eq_list_iff
  refine ⟨?_, hwarned, ?_, ?_, fun hof => ?_⟩
  · rw [isWarned_iff_isListField h, hevents, fieldEvents, hcolumn]
    cases isListField (.ofDescription name d) <;> simp
  · rw [hlist, hwarned]
  · rw [hlist, hwarned]
    constructor
    · rintro ⟨hnone, hty⟩
      exact ⟨.inl ⟨hnone, hty⟩, hnone⟩
    · rintro ⟨⟨hnone, hty⟩ | ⟨m, hm, -⟩, hnone'⟩
      · exact ⟨hnone, hty⟩
      · rw [hnone'] at hm
        cases hm
  · obtain ⟨encode, decode, hencode, hdecode, happlies, -⟩ :=
      Plan.applies_of_conversionOf (Plan.isOf_of_ofField h).conversion
    rw [hof] at happlies
    exact ⟨encode, decode, hencode, hdecode, fill_of_applies_list happlies⟩

/-! ### A list behind a mapping -/

/-- A type of the user's own that is stored as a list of strings. -/
def tagSet : FieldDescription :=
  (FieldDescription.plain "tags" (.word "TagSet")).mappedBy
    ⟨.applied "Vec" [.word "String"], none, some "\x7b\x7d.names()", none, []⟩

theorem warnings_of_ofField_tagSet : ∃ plan,
    Plan.ofField (.ofDescription "tags" tagSet) = .ok plan ∧
    TextForm.of? (.ofDescription "tags" tagSet) = some .list ∧
    ¬ IsWarned (.ofDescription "tags" tagSet) ∧
    ∃ encode : Template, ∀ source,
      plan.encodeValue source = "encode_list(" ++ encode.borrowed.fill source ++ ")" := by
  have hok : (Plan.ofField (.ofDescription "tags" tagSet)).toBool = true := by decide +kernel
  obtain ⟨plan, hplan⟩ := exists_ok_of_toBool hok
  obtain ⟨-, hwarned, hlist, -, hstored⟩ := warnings_of_ofField hplan
  have hof : TextForm.of? (.ofDescription "tags" tagSet) = some .list := rfl
  obtain ⟨encode, _, -, -, hfill⟩ := hstored hof
  refine ⟨plan, hplan, hof, fun h => ?_, encode, fun source => (hfill source).1⟩
  cases (hwarned.mp h).1

/-- **The warning is missing** where a mapping stores its values as a list. -/
theorem not_isWarned_tagSet : ∃ plan, Plan.ofField (.ofDescription "tags" tagSet) = .ok plan ∧
    TextForm.of? (.ofDescription "tags" tagSet) = some .list ∧
    plan.encodeValue "&entity.tags" = "encode_list(&((&entity.tags).names()))" ∧
    ¬ IsWarned (.ofDescription "tags" tagSet) := by
  have hrun : (Plan.ofField (.ofDescription "tags" tagSet)).toOption.map
      (·.encodeValue "&entity.tags") = some "encode_list(&((&entity.tags).names()))" := by
    decide +kernel
  obtain ⟨plan, hplan, hencode⟩ := Option.map_eq_some_iff.mp hrun
  have hplan' := toOption_eq_some.mp hplan
  refine ⟨plan, hplan', rfl, hencode, fun h => ?_⟩
  rw [isWarned_iff_isListField hplan'] at h
  cases h

end EntityTable
