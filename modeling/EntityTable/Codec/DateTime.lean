import EntityTable.Codec.Calendar
import EntityTable.Codec.TimeField

/-! # Local dates and times

A date and time without a zone is stored as `2024-01-31T10:00:00.500`. A leap second is the second
after the last one of a minute: its time has 59 seconds and a thousand million or more billionths,
and its text says 60. Years of other than four digits have a sign. -/

namespace EntityTable.Codec

/-- A time of day. -/
structure Time where
  hour : Nat
  minute : Nat
  second : Nat
  /-- Billionths of a second; from a thousand million on, those of a leap second. -/
  nano : Nat
  deriving DecidableEq, Repr

/-- A date and a time of day. -/
structure DateTime where
  date : Date
  time : Time
  deriving DecidableEq, Repr

/-- The number of billionths in a second. -/
def nanosPerSecond : Nat := 1000000000

namespace Time

/-- The time exists; only the last second of a minute may be a leap second. -/
def IsValid (t : Time) : Prop :=
  t.hour < 24 ∧ t.minute < 60 ∧ t.second < 60 ∧ t.nano < 2 * nanosPerSecond ∧
    (nanosPerSecond ≤ t.nano → t.second = 59)

instance (t : Time) : Decidable t.IsValid := inferInstanceAs (Decidable (_ ∧ _ ∧ _ ∧ _ ∧ _))

/-- The whole seconds since midnight. -/
def seconds (t : Time) : Nat := (t.hour * 60 + t.minute) * 60 + t.second

/-- The time so many seconds after midnight. -/
def ofSeconds (seconds nano : Nat) : Time :=
  ⟨seconds / 3600, seconds / 60 % 60, seconds % 60, nano⟩

/-- The text of a time. -/
def text (t : Time) : List Char :=
  TimeField.padded 2 t.hour ++ ':' :: TimeField.padded 2 t.minute ++
    ':' :: TimeField.padded 2 (t.second + t.nano / nanosPerSecond) ++
    TimeField.fraction (t.nano % nanosPerSecond)

/-- The time in the given fields, of which the second may be 60. -/
def ofFields (hour minute second nano : Nat) : Time :=
  if second = 60 then ⟨hour, minute, 59, nano + nanosPerSecond⟩ else ⟨hour, minute, second, nano⟩

end Time

namespace Date

/-- The text of a year. -/
def yearText (year : Int) : List Char :=
  if 0 ≤ year ∧ year ≤ 9999 then TimeField.padded 4 year.natAbs
  else (if year < 0 then '-' else '+') :: TimeField.padded 4 year.natAbs

/-- The text of a date. -/
def text (d : Date) : List Char :=
  yearText d.year ++ '-' :: TimeField.padded 2 d.month ++ '-' :: TimeField.padded 2 d.day

end Date

namespace DateTime

/-- Date and time exist. -/
def IsValid (v : DateTime) : Prop := v.date.IsValid ∧ v.time.IsValid

instance (v : DateTime) : Decidable v.IsValid := inferInstanceAs (Decidable (_ ∧ _))

/-- The characters of a date and time. -/
def text (v : DateTime) : List Char := v.date.text ++ 'T' :: v.time.text

/-- The date and time so many seconds later, or earlier if the number is negative. The part of a
second stays, that of a leap second too. -/
def addSeconds (v : DateTime) (seconds : Int) : DateTime :=
  let total := v.time.seconds + seconds
  ⟨v.date.addDays (total / 86400), .ofSeconds (total % 86400).toNat v.time.nano⟩

end DateTime

/-! ### Storing -/

/-- The text that stores a date and time. -/
def encodeDateTime (v : DateTime) : String := String.ofList v.text

/-- White space before a field is passed over. -/
def afterBlanks {α : Type} (reader : FieldReader α) : FieldReader α := fun cs =>
  reader (Text.trimStart cs)

/-- A year: up to four digits, or a sign and any number of digits. -/
def yearDigits : FieldReader Int := do
  match ← get with
  | '-' :: rest =>
    set rest
    let n ← TimeField.number 1 none
    return -(n : Int)
  | '+' :: rest =>
    set rest
    let n ← TimeField.number 1 none
    return n
  | _ =>
    let n ← TimeField.number 1 (some 4)
    return n

/-- A year that fits in 32 bits. -/
def signedYear : FieldReader Int := do
  let year ← afterBlanks yearDigits
  if -Int.pow 2 31 ≤ year ∧ year < Int.pow 2 31 then return year else throw .outOfRange

/-- A number of one or two digits between two bounds, perhaps with white space before it. -/
def looseField (low high : Nat) : FieldReader Nat :=
  afterBlanks (TimeField.bounded low high (TimeField.number 1 (some 2)))

/-- A date and time in its stored form; the date need not exist. -/
def dateTimeFields : FieldReader DateTime := do
  let year ← signedYear
  let _ ← TimeField.mark ['-']
  let month ← looseField 1 12
  let _ ← TimeField.mark ['-']
  let day ← looseField 1 31
  let _ ← TimeField.mark ['T']
  let hour ← looseField 0 23
  let _ ← TimeField.mark [':']
  let minute ← looseField 0 59
  let _ ← TimeField.mark [':']
  let second ← looseField 0 60
  let nano ← TimeField.nanoseconds
  return ⟨⟨year, month, day⟩, .ofFields hour minute second nano⟩

/-- The date and time that a text stores. -/
def decodeDateTime (text : String) : Except DateTimeError DateTime := do
  let v ← TimeField.all dateTimeFields text
  if v.date.IsValid then return v else throw .outOfRange

end EntityTable.Codec
