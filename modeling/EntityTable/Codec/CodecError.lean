import EntityTable.Codec.FloatText
import EntityTable.Codec.Json.Shape
import EntityTable.Codec.ZonedDateTime

/-! # Codec errors

Why a stored text does not give back a value. -/

namespace EntityTable.Codec

/-- The reasons, by the kind of value that was asked for. -/
inductive CodecError where
  | dateTime (error : DateTimeError)
  | float (error : FloatError)
  | serialized (error : Json.SerializedError)
  deriving Repr

/-- The text of an error. -/
def CodecError.message : CodecError → String
  | dateTime error => "invalid date/time text: " ++ error.message
  | float error => "invalid float text: " ++ error.message
  | serialized error => "serialization failed: " ++ error.message

end EntityTable.Codec
