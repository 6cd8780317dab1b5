import EntityTable.Codec.DateTime

/-! # Zoned dates and times

A date and time at an offset from universal time is stored as `2024-06-01T08:30:00+02:00`. The
offset is written in hours and minutes, a half minute rounding away from zero. Reading asks for
fields of exact width and a year of four digits, accepts `Z` for no offset, and takes offsets of
less than a day. The date is judged before the time is read, and the time before the offset. -/

namespace EntityTable.Codec

/-- A local date and time, and how many seconds it is ahead of universal time. -/
structure ZonedDateTime where
  localTime : DateTime
  offset : Int
  deriving DecidableEq, Repr

namespace ZonedDateTime

/-- The same instant in universal time. -/
def universal (v : ZonedDateTime) : DateTime := v.localTime.addSeconds (-v.offset)

/-- The same instant with no offset. -/
def toUniversal (v : ZonedDateTime) : ZonedDateTime := ⟨v.universal, 0⟩

/-- The date and time exist, in universal time too, and the offset is less than a day. -/
def IsValid (v : ZonedDateTime) : Prop :=
  v.localTime.IsValid ∧ v.universal.date.IsValid ∧ v.offset.natAbs < 86400

instance (v : ZonedDateTime) : Decidable v.IsValid := inferInstanceAs (Decidable (_ ∧ _ ∧ _))

end ZonedDateTime

/-! ### Writing -/

/-- The text of an offset. -/
def offsetText (offset : Int) : List Char :=
  let minutes := (offset.natAbs + 30) / 60
  (if offset < 0 then '-' else '+') ::
    (TimeField.padded 2 (minutes / 60) ++ ':' :: TimeField.padded 2 (minutes % 60))

/-- The text that stores a zoned date and time. -/
def encodeZonedDateTime (v : ZonedDateTime) : String :=
  String.ofList (v.localTime.text ++ offsetText v.offset)

/-! ### Reading -/

/-- The fewest bytes that a date and a time take. -/
def shortestLength : Nat := 19

/-- A number of exactly two digits. -/
def twoDigits : FieldReader Nat := TimeField.number 2 (some 2)

/-- A date, which has to exist. -/
def dateField : FieldReader Date := do
  let year ← TimeField.number 4 (some 4)
  let _ ← TimeField.mark ['-']
  let month ← twoDigits
  let _ ← TimeField.mark ['-']
  let day ← twoDigits
  let date : Date := ⟨year, month, day⟩
  if date.IsValid then return date else throw .outOfRange

/-- A time, which has to exist. -/
def timeField : FieldReader Time := do
  let hour ← twoDigits
  let _ ← TimeField.mark [':']
  let minute ← twoDigits
  let _ ← TimeField.mark [':']
  let second ← twoDigits
  let nano ← TimeField.nanoseconds
  let time := Time.ofFields hour minute second nano
  if time.IsValid then return time else throw .outOfRange

/-- Hours and minutes of an offset, in seconds; less than a day. -/
def offsetDigits : FieldReader Nat := do
  let hours ← twoDigits
  let _ ← TimeField.mark [':']
  let minutes ← TimeField.bounded 0 59 twoDigits
  if 23 < hours then throw .outOfRange
  return (hours * 60 + minutes) * 60

/-- An offset in seconds; the mathematical minus counts as a sign too. -/
def offsetField : FieldReader Int := do
  let sign ← TimeField.mark ['Z', 'z', '+', '-', '−']
  if sign = 'Z' ∨ sign = 'z' then return 0
  let seconds ← offsetDigits
  return if sign = '+' then (seconds : Int) else -(seconds : Int)

/-- A date, a time and an offset. -/
def zonedFields : FieldReader ZonedDateTime := do
  if TimeField.byteCount (← get) < shortestLength then throw .tooShort
  let date ← dateField
  let _ ← TimeField.mark ['T', 't', ' ']
  let time ← timeField
  let offset ← offsetField
  return ⟨⟨date, time⟩, offset⟩

/-- The zoned date and time that a text stores. -/
def decodeZonedDateTime (text : String) : Except DateTimeError ZonedDateTime :=
  TimeField.all zonedFields text

end EntityTable.Codec
