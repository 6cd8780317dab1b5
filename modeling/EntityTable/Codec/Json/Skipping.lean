import EntityTable.Codec.Json.Nesting

/-! # Values passed over

A member that no field of a record asks for is passed over. Its text is checked less closely: the
code units of escapes need not pair, numbers may be of any size, and there is no limit of depth. -/

namespace EntityTable.Codec.Json

/-- The text behind an escape. -/
def skipEscape : List Char → Except Fault (List Char)
  | [] => .error (.before .stringUnfinished [])
  | c :: rest =>
    if c = 'u' then (·.2) <$> codeUnit rest
    else if (namedEscape? c).isSome then .ok rest
    else .error (.at .invalidEscape (c :: rest))

/-- The text behind the closing quote of a string; every step reads a character or more. -/
def skipStringBody : Nat → List Char → Except Fault (List Char)
  | 0, _ | _, [] => .error (.before .stringUnfinished [])
  | fuel + 1, c :: rest =>
    if c = '\x22' then .ok rest
    else if c = '\x5c' then do skipStringBody fuel (← skipEscape rest)
    else if c.toNat < 0x20 then .error (.before .controlCharacter (c :: rest))
    else skipStringBody fuel rest

/-- The text behind a string, given the text behind its opening quote. -/
def skipString (cs : List Char) : Except Fault (List Char) := skipStringBody (cs.length + 1) cs

/-- The text behind an exponent, given the text behind its letter. -/
def skipExponent (cs : List Char) : Except Fault (List Char) :=
  let digits := match cs with
    | '+' :: rest | '-' :: rest => rest
    | rest => rest
  if startsWithDigit digits then .ok (digits.dropWhile Char.isDigit)
  else .error (.at .invalidNumber digits)

/-- The text behind an exponent, if there is one. -/
def skipNumberEnd : List Char → Except Fault (List Char)
  | 'e' :: rest | 'E' :: rest => skipExponent rest
  | rest => .ok rest

/-- The text behind the digits after a point, and an exponent. -/
def skipFraction (cs : List Char) : Except Fault (List Char) :=
  if startsWithDigit cs then skipNumberEnd (cs.dropWhile Char.isDigit)
  else .error (.at .invalidNumber cs)

/-- The text behind a number, given the text behind its sign. -/
def skipNumber (cs : List Char) : Except Fault (List Char) :=
  match cs with
  | [] => .error (.at .invalidNumber [])
  | c :: rest =>
    if c.isDigit then
      if c = '0' ∧ startsWithDigit rest then .error (.at .invalidNumber rest)
      else
        match rest.dropWhile Char.isDigit with
        | '.' :: after => skipFraction after
        | after => skipNumberEnd after
    else .error (.at .invalidNumber (c :: rest))

/-- The text behind a scalar. -/
def skipScalar : List Char → Except Fault (List Char)
  | [] => .error (.before .valueUnfinished [])
  | c :: rest =>
    if c = 'n' then word ['u', 'l', 'l'] rest
    else if c = 't' then word ['r', 'u', 'e'] rest
    else if c = 'f' then word ['a', 'l', 's', 'e'] rest
    else if c = '-' then skipNumber rest
    else if c.isDigit then skipNumber (c :: rest)
    else if c = '\x22' then skipString rest
    else .error (.at .expectedValue (c :: rest))

/-! ### Nesting -/

/-- A bracket that was opened and not yet closed. -/
inductive Bracket where
  | list
  | object
  deriving DecidableEq, Repr

/-- The bracket that closes. -/
def Bracket.closing : Bracket → Char
  | list => ']'
  | object => '\x7d'

/-- The cause if a text ends inside. -/
def Bracket.unfinished : Bracket → Cause
  | list => .listUnfinished
  | object => .objectUnfinished

/-- The cause if something other than a comma or the end follows a part. -/
def Bracket.expectedEnd : Bracket → Cause
  | list => .expectedListEnd
  | object => .expectedObjectEnd

/-- The text behind a key and its colon. -/
def skipKey (cs : List Char) : Except Fault (List Char) :=
  match skipBlanks cs with
  | [] => .error (.before .objectUnfinished [])
  | c :: rest => do
    if c = '\x22' then colon (← skipString rest) else throw (.at .keyNotString (c :: rest))

/-- The text of the next value inside a bracket: in an object, the one behind the key. -/
def Bracket.skipToValue : Bracket → List Char → Except Fault (List Char)
  | list, cs => .ok cs
  | object, cs => skipKey cs

/-- Where to go on: at a value inside open brackets, the innermost first, or behind all of them. -/
inductive SkipState where
  | value (opened : List Bracket) (cs : List Char)
  | finished (rest : List Char)

/-- Where to go on behind a part. -/
def skipClosings : List Bracket → List Char → Except Fault SkipState
  | [], cs => .ok (.finished cs)
  | bracket :: outer, cs =>
    match skipBlanks cs with
    | [] => .error (.before bracket.unfinished [])
    | c :: rest =>
      if c = ',' then do return .value (bracket :: outer) (← bracket.skipToValue rest)
      else if c = bracket.closing then skipClosings outer rest
      else .error (.at bracket.expectedEnd (c :: rest))

/-- Where to go on behind an opening bracket. -/
def skipOpening (bracket : Bracket) (opened : List Bracket) (cs : List Char) :
    Except Fault SkipState :=
  match skipBlanks cs with
  | [] => .error (.before bracket.unfinished [])
  | c :: rest =>
    if c = bracket.closing then skipClosings opened rest
    else do return .value (bracket :: opened) (← bracket.skipToValue (c :: rest))

/-- Where to go on after the front of a value. -/
def skipFront (opened : List Bracket) (cs : List Char) : Except Fault SkipState :=
  match skipBlanks cs with
  | [] => .error (.before .valueUnfinished [])
  | c :: rest => do
    if c = '[' then skipOpening .list opened rest
    else if c = '\x7b' then skipOpening .object opened rest
    else skipClosings opened (← skipScalar (c :: rest))

/-- The text behind all open brackets; every step reads a character or more. -/
def skipAll : Nat → List Bracket → List Char → Except Fault (List Char)
  | 0, _, _ => .error (.before .valueUnfinished [])
  | fuel + 1, opened, cs => do
    match ← skipFront opened cs with
    | .finished rest => return rest
    | .value opened cs => skipAll fuel opened cs

/-- The text behind a value. -/
def skipValue (cs : List Char) : Except Fault (List Char) := skipAll (cs.length + 1) [] cs

end EntityTable.Codec.Json
