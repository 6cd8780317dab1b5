import EntityTable.Table.Unit

/-! # Generation

From a description to a unit in three stages: the schema is built, its columns are planned, and the
table object is synthesized. Each stage that is reached leaves events behind, in order. -/

namespace EntityTable

open Column (Branch MappingError Modifier Plan Plans)
open Entity (Description Meaning Schema SchemaError StoredField)
open Source (Literal.quote Token)
open Table (GeneratedUnit)

/-- Why nothing is generated. -/
inductive GenerateError where
  | schema (error : SchemaError)
  | mapping (error : MappingError)
  deriving Repr

namespace GenerateError

/-- The text of an error. -/
def message : GenerateError → String
  | schema error => error.message
  | mapping error => error.message

/-- A call that makes a compiler report a text. -/
def compileErrorCall (text : String) : List Token :=
  Token.operator "::" ++ [.word "core"] ++ Token.operator "::" ++ [.word "compile_error"] ++
    Token.operator "!" ++ [.group .brace [.literal (Literal.quote text)]]

/-- The error as code that does not compile; faults of attributes are reported one by one, each at
its own place in the source. -/
def compileError : GenerateError → List Token
  | schema (.invalidAttribute _ error) =>
    error.faults.flatMap fun f => compileErrorCall f.fault.message
  | error => compileErrorCall error.message

end GenerateError

/-- The unit for a description. -/
def generate (d : Description) : Except GenerateError GeneratedUnit := do
  let schema ← (Schema.build d).mapError .schema
  let plans ← (Plans.resolve schema).mapError .mapping
  (GeneratedUnit.synthesize schema plans).mapError .mapping

/-! ### Events -/

/-- How much an event matters. -/
inductive Level where
  | trace
  | debug
  | warn
  deriving DecidableEq, Repr

/-- Something that happened on the way. -/
inductive Event where
  | schemaBuilt (schema : Schema)
  /-- The elements of a list are not told apart if they contain commas. -/
  | lossyList (field : String)
  | columnPlanned (plan : Plan)
  | tableSynthesized (unit : GeneratedUnit)
  | unitGenerated (entity : String) (unit : GeneratedUnit)

namespace Event

/-- How much the event matters. -/
def level : Event → Level
  | lossyList _ => .warn
  | columnPlanned _ => .trace
  | _ => .debug

/-- What the event says. -/
def message : Event → String
  | schemaBuilt _ => "entity schema built"
  | lossyList _ =>
    "list column uses bare comma separators, elements containing commas will not round-trip"
  | columnPlanned _ => "column planned"
  | tableSynthesized _ => "table object synthesized"
  | unitGenerated .. => "unit generated"

/-- The labels of modifiers in brackets. -/
def modifierList (modifiers : List Modifier) : String :=
  "[" ++ ", ".intercalate (modifiers.map Modifier.label) ++ "]"

/-- The names and texts of what the event is about. -/
def fields : Event → List (String × String)
  | schemaBuilt s =>
    [("entity", s.origin), ("table", s.tableName), ("storable", toString s.storable.length),
      ("transient", toString s.transient.length), ("lookups", toString s.lookups.length)]
  | lossyList field => [("field", field)]
  | columnPlanned p =>
    [("field", p.column), ("storage", p.storage.sql), ("branch", p.branch.name),
      ("modifiers", modifierList p.modifiers), ("encode", p.conversion.encode.text),
      ("decode", p.conversion.decode.text)]
  | tableSynthesized u =>
    [("entity", u.table.entity), ("table_object", u.table.name),
      ("columns", toString u.table.columns.length),
      ("operations", toString u.table.operations.length),
      ("imports", toString u.imports.length)]
  | unitGenerated entity u => [("entity", entity), ("file", u.fileName)]

end Event

/-- The values of the field are lists of strings. -/
def isListField (f : StoredField) : Bool :=
  match f.meaning with
  | .primitive .listOfString => true
  | _ => false

/-- The events of planning fields, up to the first that cannot be planned. -/
def planningEvents : List StoredField → List Event
  | [] => []
  | f :: rest =>
    match Plan.ofField f with
    | .ok plan =>
      (if isListField f then [.lossyList plan.column] else []) ++ .columnPlanned plan ::
        planningEvents rest
    | .error _ => []

/-- The events of synthesizing a table from a schema. -/
def synthesisEvents (schema : Schema) : List Event :=
  match Plans.resolve schema with
  | .error _ => []
  | .ok plans =>
    match GeneratedUnit.synthesize schema plans with
    | .error _ => []
    | .ok unit => [.tableSynthesized unit, .unitGenerated schema.origin unit]

/-- The events of generating the unit for a description. -/
def events (d : Description) : List Event :=
  match Schema.build d with
  | .error _ => []
  | .ok schema => .schemaBuilt schema :: planningEvents schema.storable ++ synthesisEvents schema

end EntityTable
