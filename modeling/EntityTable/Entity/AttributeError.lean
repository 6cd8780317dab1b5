import EntityTable.Source.SyntaxError

/-! # Attribute errors

What is wrong with the attributes of a declaration. All faults of one set of attributes are reported
together, each with the option it was found at. -/

namespace EntityTable.Entity

open Source (SyntaxError)

/-- A single fault in an attribute. -/
inductive AttributeFault where
  /-- The attribute's own syntax is broken. -/
  | broken (reason : SyntaxError)
  /-- An option is given by a value of the wrong kind. -/
  | unexpectedType (kind : String)
  /-- An option is given in the wrong form: a word, a list, or a literal without a name. -/
  | unexpectedFormat (form : String)
  /-- The text of a value is not understood. -/
  | unknownValue (text : String)
  /-- There is no option of this name; one that looks alike is suggested. -/
  | unknownField (name : String) (suggestion : Option String) (available : List String)
  | duplicateField (name : String)
  | missingField (name : String)
  /-- The options of an entity are given as a value. -/
  | optionsAsValue
  /-- The options of a key are given as a value. -/
  | keyAsValue
  /-- A mark that takes no arguments has some. -/
  | markWithArguments
  /-- An option of a key is not known. -/
  | unknownKeyOption
  /-- The field has no name. -/
  | unnamedField
  deriving Repr

namespace AttributeFault

/-- A name between back quotes. -/
def quoted (name : String) : String := "`" ++ name ++ "`"

/-- The text of a fault. -/
def message : AttributeFault → String
  | broken reason => reason.message
  | unexpectedType kind => "Unexpected type " ++ quoted kind
  | unexpectedFormat form => "Unexpected meta-item format " ++ quoted form
  | unknownValue text => "Unknown value: " ++ quoted text
  | unknownField name (some other) _ =>
    "Unknown field: " ++ quoted name ++ ". Did you mean " ++ quoted other ++ "?"
  | unknownField name none available =>
    "Unknown field: " ++ quoted name ++ ". Available values: " ++
      ", ".intercalate (available.map quoted)
  | duplicateField name => "Duplicate field " ++ quoted name
  | missingField name => "Missing field " ++ quoted name
  | optionsAsValue => "Name-value arguments are not supported. Use #[table_schema(...)]"
  | keyAsValue => "expected #[primary_key] or #[primary_key(auto_increment)]"
  | markWithArguments => "unexpected token in attribute"
  | unknownKeyOption => "unknown primary_key option, expected `auto_increment`"
  | unnamedField => "expected a named field"

end AttributeFault

/-- A fault and the option it was found at. -/
structure LocatedFault where
  fault : AttributeFault
  place : Option String
  deriving Repr

/-- The text of a fault with its place. -/
def LocatedFault.message (f : LocatedFault) : String :=
  match f.place with
  | some place => f.fault.message ++ " at " ++ place
  | none => f.fault.message

/-- The faults of a set of attributes, in the order in which they were found. -/
structure AttributeError where
  faults : List LocatedFault
  deriving Repr

namespace AttributeError

/-- One fault that belongs to no option. -/
def single (fault : AttributeFault) : AttributeError := ⟨[⟨fault, none⟩]⟩

/-- The text of all faults. -/
def message (e : AttributeError) : String :=
  match e.faults with
  | [fault] => fault.message
  | faults => "Multiple errors: (" ++ ", ".intercalate (faults.map LocatedFault.message) ++ ")"

end AttributeError

end EntityTable.Entity
