import EntityTable.Codec.Json.Shape

/-! # Addresses

A record of two fields, stored as JSON. -/

namespace EntityTable.Codec

/-- A street and a house number. -/
structure Address where
  street : String
  number : UInt32
  deriving DecidableEq, Repr

/-- How addresses are stored. -/
def Address.shape : Json.Shape Address :=
  (Json.Shape.record "Address" ⟨"street", .text⟩ ⟨"number", .uint32⟩).map
    (fun (street, number) => ⟨street, number⟩) fun a => (a.street, a.number)

end EntityTable.Codec
