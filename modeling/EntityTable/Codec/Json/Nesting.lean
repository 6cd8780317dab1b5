import EntityTable.Codec.Json.Scalar

/-! # Lists and objects of JSON text

Reading of what has parts, for any way to read a part. A text may be nested to a depth of at most
127. Parts of objects that nobody asks for are passed over without any limit of depth. -/

namespace EntityTable.Codec.Json

/-- How deep a text may be nested. -/
def depthLimit : Nat := 127

/-- Goes one level down, if levels are left, in front of an opening bracket. -/
def descend {α : Type} (levels : Nat) (cs : List Char)
    (inner : Nat → List Char → Except Fault α) : Except Fault α :=
  match levels with
  | 0 => .error (.at .tooDeep cs)
  | levels + 1 => inner levels (cs.drop 1)

/-! ### Lists -/

/-- What stands in front of an item: the item itself, or the end of the list and the text behind
it. -/
inductive ItemStart where
  | item (cs : List Char)
  | finished (rest : List Char)

/-- The next item of a list, of which there may or may not have been one before. -/
def nextItem (first : Bool) (cs : List Char) : Except Fault ItemStart :=
  match skipBlanks cs with
  | [] => .error (.before .listUnfinished [])
  | c :: rest =>
    if c = ']' then .ok (.finished rest)
    else if first then .ok (.item (c :: rest))
    else if c = ',' then
      match skipBlanks rest with
      | [] => .error (.before .valueUnfinished [])
      | d :: after =>
        if d = ']' then .error (.at .trailingComma (d :: after)) else .ok (.item (d :: after))
    else .error (.at .expectedListEnd (c :: rest))

/-- The items of a list up to its end; each takes a character or more. -/
def items {α : Type} (item : List Char → Except Fault (α × List Char)) :
    Nat → Bool → List Char → Except Fault (List α × List Char)
  | 0, _, _ => .error (.before .listUnfinished [])
  | fuel + 1, first, cs => do
    match ← nextItem first cs with
    | .finished rest => return ([], rest)
    | .item cs =>
      let (value, rest) ← item cs
      let (more, rest) ← items item fuel false rest
      return (value :: more, rest)

/-- The items of a list behind its opening bracket. -/
def listBody {α : Type} (item : List Char → Except Fault (α × List Char)) (cs : List Char) :
    Except Fault (List α × List Char) := items item (cs.length + 1) true cs

/-- The end of a list that has no further items. -/
def listEnd (cs : List Char) : Except Fault (List Char) :=
  match skipBlanks cs with
  | [] => .error (.before .listUnfinished [])
  | c :: rest =>
    if c = ']' then .ok rest
    else if c = ',' then
      match skipBlanks rest with
      | ']' :: after => .error (.at .trailingComma (']' :: after))
      | after => .error (.at .trailingCharacters after)
    else .error (.at .trailingCharacters (c :: rest))

/-! ### Objects -/

/-- What stands in front of a member: its key behind the opening quote, or the end of the object and
the text behind it. -/
inductive MemberStart where
  | key (cs : List Char)
  | finished (rest : List Char)

/-- The next member of an object, of which there may or may not have been one before. -/
def nextMember (first : Bool) (cs : List Char) : Except Fault MemberStart :=
  match skipBlanks cs with
  | [] => .error (.before .objectUnfinished [])
  | c :: rest =>
    if c = '\x7d' then .ok (.finished rest)
    else if first then
      if c = '\x22' then .ok (.key rest) else .error (.at .keyNotString (c :: rest))
    else if c = ',' then
      match skipBlanks rest with
      | [] => .error (.before .valueUnfinished [])
      | d :: after =>
        if d = '\x22' then .ok (.key after)
        else if d = '\x7d' then .error (.at .trailingComma (d :: after))
        else .error (.at .keyNotString (d :: after))
    else .error (.at .expectedObjectEnd (c :: rest))

/-- The text behind the colon of a member. -/
def colon (cs : List Char) : Except Fault (List Char) :=
  match skipBlanks cs with
  | [] => .error (.before .objectUnfinished [])
  | c :: rest => if c = ':' then .ok rest else .error (.at .expectedColon (c :: rest))

/-- The members of an object up to its end. Each changes a state: the way to read one gets the
state, the key, and the text behind the key. -/
def members {σ : Type} (member : σ → String → List Char → Except Fault (σ × List Char)) :
    Nat → Bool → σ → List Char → Except Fault (σ × List Char)
  | 0, _, _, _ => .error (.before .objectUnfinished [])
  | fuel + 1, first, state, cs => do
    match ← nextMember first cs with
    | .finished rest => return (state, rest)
    | .key cs =>
      let (key, rest) ← stringAfterQuote cs
      let (state, rest) ← member state key rest
      members member fuel false state rest

/-- The members of an object behind its opening brace. -/
def objectBody {σ : Type} (member : σ → String → List Char → Except Fault (σ × List Char))
    (start : σ) (cs : List Char) : Except Fault (σ × List Char) :=
  members member (cs.length + 1) true start cs

/-! ### Values -/

/-- A scalar as a value. -/
def ofScalar : Scalar → Json
  | .null => .null
  | .bool value => .bool value
  | .int value => .int value
  | .float negative pattern => .float negative pattern
  | .string value => .string value

/-- The value at the front of a text, nested no deeper than the given number of levels. -/
def value (levels : Nat) (cs : List Char) : Except Fault (Json × List Char) :=
  match skipBlanks cs with
  | [] => .error (.before .valueUnfinished [])
  | c :: rest =>
    if c = '[' then
      match levels with
      | 0 => .error (.at .tooDeep (c :: rest))
      | levels + 1 => do
        let (items, rest) ← listBody (value levels) rest
        return (.array items, rest)
    else if c = '\x7b' then
      match levels with
      | 0 => .error (.at .tooDeep (c :: rest))
      | levels + 1 => do
        let member := fun (sofar : List (String × Json)) key cs => do
          let (item, rest) ← value levels (← colon cs)
          return (insertMember key item sofar, rest)
        let (members, rest) ← objectBody member [] rest
        return (.object members, rest)
    else do
      let (s, rest) ← scalar (c :: rest)
      return (ofScalar s, rest)

end EntityTable.Codec.Json
