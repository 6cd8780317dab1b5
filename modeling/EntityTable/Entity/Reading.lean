import EntityTable.Entity.AttributeOptions
import EntityTable.Entity.Description
import EntityTable.Entity.SchemaError

/-! # Reading declarations

A description is read from the declaration of a struct. Attributes that mean nothing here are passed
over. The marks of a field are read in order and the first faulty one ends it; the options of an
entity may be spread over several attributes. -/

namespace EntityTable.Entity

open Source Source.Parser

/-! ### Type mappings -/

/-- The options of a type mapping. -/
def mappingOptions : List OptionSpec :=
  [.reading "store_as" false MetaValue.asType, .reading "column_type" false MetaValue.asText,
    .reading "encode" false MetaValue.asText, .reading "decode" false MetaValue.asText,
    .reading "import" true MetaValue.asText]

/-- The type mapping that items describe; the type it is stored as must be given. -/
def TypeMapping.ofItems (items : List MetaItem) : Except AttributeError TypeMapping :=
  let missing :=
    if (valuesOf "store_as" items).isEmpty then [⟨.missingField "store_as", none⟩] else []
  let storeAs? := firstValue? "store_as" MetaValue.asType items
  match optionFaults mappingOptions [] items ++ missing, storeAs? with
  | [], some storeAs => .ok {
      storeAs
      columnType := firstValue? "column_type" MetaValue.asText items
      encode := firstValue? "encode" MetaValue.asText items
      decode := firstValue? "decode" MetaValue.asText items
      imports := (valuesOf "import" items).filterMap fun value => value.asText.toOption }
  | faults, _ => .error ⟨faults⟩

/-- The type mapping that an attribute describes. -/
def TypeMapping.ofInput (input : AttributeInput) : Except AttributeError TypeMapping :=
  match input with
  | .nothing => .error (.single (MetaValue.mismatch .word))
  | .value tokens =>
    match MetaValue.ofTokens tokens with
    | .ok value => .error (.single value.mismatch)
    | .error reason => .error (.single (.broken reason))
  | .group _ body =>
    match MetaItem.listOf body with
    | .ok items => TypeMapping.ofItems items
    | .error reason => .error (.single (.broken reason))

/-! ### Marks of a field -/

/-- A word of any kind inside the options of a key. -/
def keyWord (complaint : SyntaxError) : Parser String := do
  match ← rest with
  | .word name :: tokens => advance tokens; return name
  | _ => throw complaint

/-- The first word of an option of a key. -/
def firstKeyWord : Parser String := do
  let tokens ← rest
  if tokens.isEmpty then
    throw (.expected true ["nested attribute"])
  else if startsLiteral tokens && !startsAnyWord tokens then
    throw (.rule "unexpected literal in nested attribute, expected ident")
  else keyWord (.rule "unexpected token in nested attribute, expected ident")

/-- An option of a key; the result tells whether it is the one that is known. -/
def keyOption : Parser Bool := do
  let isGlobal ← operator? "::"
  let first ← firstKeyWord
  let names ← iterate
    (fun names => do
      if ← operator? "::" then return some (names ++ [← keyWord (.expected (← atEnd) ["ident"])])
      else return none)
    [first]
  return !isGlobal && names == ["auto_increment"]

/-- The options of a key up to the first that is not known; the result tells whether there is one. -/
def keyOptions : Parser Bool := do
  iterate
    (fun (isUnknown : Bool) => do
      if isUnknown || (← atEnd) then return none
      else if ← keyOption then
        if !(← atEnd) then operator ","
        return some false
      else
        advance []
        return some true)
    false

/-- The field with the marks of a key that the options of an attribute ask for. -/
def FieldDescription.withKey (field : FieldDescription) (input : AttributeInput) :
    Except AttributeError FieldDescription :=
  match input with
  | .nothing => .ok field.asPrimaryKey
  | .value _ => .error (.single .keyAsValue)
  | .group _ body =>
    match runAll keyOptions body with
    | .ok true => .error (.single .unknownKeyOption)
    | .ok false =>
      .ok (if body.isEmpty then field.asPrimaryKey else field.asPrimaryKey.withAutoIncrement)
    | .error reason => .error (.single (.broken reason))

/-- A mark that takes no arguments. -/
def bareMark (input : AttributeInput) (field : FieldDescription) :
    Except AttributeError FieldDescription :=
  match input with
  | .nothing => .ok field
  | _ => .error (.single .markWithArguments)

/-- The field with what one attribute says about it. -/
def FieldDescription.withAttribute (field : FieldDescription) (attr : Attribute) :
    Except AttributeError FieldDescription :=
  match attr.path.word? with
  | some "primary_key" => field.withKey attr.input
  | some "lookup_key" => bareMark attr.input field.asLookupKey
  | some "non_savable" => bareMark attr.input field.asNonSavable
  | some "serializable" => bareMark attr.input field.asSerializable
  | some "type_mapping" => (TypeMapping.ofInput attr.input).map field.mappedBy
  | _ => .ok field

/-- The description of a declared field. -/
def FieldDescription.ofField (field : FieldDef) : Except AttributeError FieldDescription :=
  match field.name with
  | some name => field.attrs.foldlM FieldDescription.withAttribute (.plain name field.ty)
  | none => .error (.single .unnamedField)

/-! ### Options of an entity -/

/-- The options of an entity. -/
def entityOptions : List OptionSpec :=
  [.reading "class_name" false MetaValue.asText, .reading "table" false MetaValue.asText,
    .reading "namespace" false MetaValue.asText, .reading "hide_columns" false MetaValue.asTruth]

/-- The items of an attribute of an entity, or what is wrong with it. -/
def entityItems (attr : Attribute) : Except AttributeFault (List MetaItem) :=
  if pathName attr.path = "table_schema" then
    match attr.input with
    | .nothing => .ok []
    | .value _ => .error .optionsAsValue
    | .group _ body => (MetaItem.listOf body).mapError .broken
  else .ok []

/-- The faults of attributes in a row, given the items that have been read before. -/
def entityFaults : List MetaItem → List Attribute → List LocatedFault
  | _, [] => []
  | before, attr :: rest =>
    match entityItems attr with
    | .ok items =>
      let seen := before.filterMap fun
        | .named path _ => some (pathName path)
        | .literal => none
      optionFaults entityOptions seen items ++ entityFaults (before ++ items) rest
    | .error fault => ⟨fault, none⟩ :: entityFaults before rest

/-! ### Entities -/

/-- The description of a declared entity. -/
def Description.ofDeclaration (d : Declaration) : Except SchemaError Description := do
  let items := d.attrs.flatMap fun attr => (entityItems attr).toOption.getD []
  match entityFaults [] d.attrs with
  | [] => pure ()
  | faults => throw (.invalidAttribute d.name ⟨faults⟩)
  match d.body with
  | .unnamed => throw (.malformedEntity d.name .unnamedFields)
  | .enumOrUnion => throw (.malformedEntity d.name .notStruct)
  | .named fields =>
    if d.isGeneric then throw (.malformedEntity d.name .generic)
    let fields ← (fields.mapM FieldDescription.ofField).mapError (.invalidAttribute d.name)
    return {
      name := d.name
      home := firstValue? "namespace" MetaValue.asText items
      className := firstValue? "class_name" MetaValue.asText items
      table := firstValue? "table" MetaValue.asText items
      hideColumns := (firstValue? "hide_columns" MetaValue.asTruth items).getD false
      fields }

end EntityTable.Entity
