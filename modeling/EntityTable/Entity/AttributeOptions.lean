import EntityTable.Entity.MetaItem
import EntityTable.Text.Similarity

/-! # Options

A set of options is described by their names and by how each is read. The faults of a list of items
are all found in one pass, and the values are looked up by name: an option that may be given once has
its first value. -/

namespace EntityTable.Entity

open Source

/-- How an option is read. -/
structure OptionSpec where
  name : String
  isRepeatable : Bool
  /-- Whether the value is accepted. -/
  check : MetaValue → Except AttributeFault Unit

/-- An option that is accepted whenever a reader yields a value. -/
def OptionSpec.reading {α : Type} (name : String) (isRepeatable : Bool)
    (read : MetaValue → Except AttributeFault α) : OptionSpec :=
  ⟨name, isRepeatable, fun value => (read value).map fun _ => ()⟩

/-- A suggestion must be more alike than this. -/
def likeness : Float := 0.8

/-- The name most like the given one, the first of several, if it is alike enough. -/
def suggestion (name : String) (names : List String) : Option String :=
  let best := names.foldl
    (fun (best : Option (Float × String)) candidate =>
      let score := Text.similarity name candidate
      let isBetter := match best with
        | some (top, _) => top < score
        | none => true
      if score > likeness && isBetter then some (score, candidate) else best)
    none
  best.map Prod.snd

/-- The fault of an option that is not in the set. -/
def unknownOption (specs : List OptionSpec) (name : String) : AttributeFault :=
  let names := specs.map OptionSpec.name
  .unknownField name (suggestion name names) (names.mergeSort fun a b => decide (a ≤ b))

/-- The faults of items, given the names read before; a repeatable option is numbered by how often it
has been accepted. -/
def optionFaults (specs : List OptionSpec) : List String → List MetaItem → List LocatedFault
  | _, [] => []
  | seen, .literal :: rest => ⟨.unexpectedFormat "literal", none⟩ :: optionFaults specs seen rest
  | seen, .named path value :: rest =>
    let name := pathName path
    match specs.find? (·.name == name) with
    | none => ⟨unknownOption specs name, none⟩ :: optionFaults specs seen rest
    | some spec =>
      if spec.isRepeatable then
        match spec.check value with
        | .ok () => optionFaults specs (name :: seen) rest
        | .error fault =>
          ⟨fault, some (name ++ "[" ++ toString (seen.count name) ++ "]")⟩ ::
            optionFaults specs seen rest
      else if seen.contains name then
        ⟨.duplicateField name, none⟩ :: optionFaults specs seen rest
      else
        match spec.check value with
        | .ok () => optionFaults specs (name :: seen) rest
        | .error fault => ⟨fault, some name⟩ :: optionFaults specs (name :: seen) rest

/-- The values given to an option, in order. -/
def valuesOf (name : String) (items : List MetaItem) : List MetaValue :=
  items.filterMap fun
    | .named path value => if pathName path = name then some value else none
    | .literal => none

/-- The first value of an option, if there is one that can be read. -/
def firstValue? {α : Type} (name : String) (read : MetaValue → Except AttributeFault α)
    (items : List MetaItem) : Option α :=
  (valuesOf name items).head?.bind fun value => (read value).toOption

end EntityTable.Entity
