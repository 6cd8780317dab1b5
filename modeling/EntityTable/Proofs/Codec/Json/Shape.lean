import EntityTable.Codec.Address
import EntityTable.Proofs.Codec.Json.Value

/-! # Stored values that are read back

A shape reads back what it writes if its text is read as the value whatever ends it. This holds of
scalars, and from the parts of a value it passes to lists, to values that may be absent, to records
and to values that correspond one to one. At the end of the whole text nothing is left
(`decodeSerialized_of_reads`). For JSON values themselves the limit of depth decides, and nothing
else: `decodeSerialized_encodeSerialized`. -/

namespace EntityTable.Codec.Json

variable {α β : Type} {shape : Shape α} {levels : Nat} {text : List Char} {s : Scalar} {value : α}

namespace Shape

/-- The shape reads a value back from what it writes, with so many levels left. -/
def ReadsBack (shape : Shape α) (levels : Nat) (value : α) : Prop :=
  Reads (shape.read levels) (shape.write value) value

/-! ### Scalars -/

theorem reads_readScalar {expected : String} {accept : Scalar → Except Cause α}
    (h : ReadsScalar text s) (haccept : accept s = .ok value) :
    Reads (readScalar expected accept) text value := by
  obtain ⟨c, cs, rfl, hc, hlist, hobject⟩ := h.exists_cons
  refine ⟨⟨c, cs, rfl, hc⟩, fun rest hrest => ?_⟩
  have hscalar := h.read rest hrest
  rw [List.cons_append] at hscalar ⊢
  rw [readScalar, skipBlanks_cons hc]
  show (if c = '[' then _ else if c = '\x7b' then _ else scalar (c :: (cs ++ rest)) >>= _) = _
  rw [if_neg hlist, if_neg hobject, hscalar]
  simp only [bind, Except.bind, haccept]
  rfl

theorem readsBack_boolean (b : Bool) : boolean.ReadsBack levels b := by
  unfold ReadsBack boolean
  dsimp only
  exact reads_readScalar (readsScalar_bool b) rfl

theorem readsBack_text (value : String) : Shape.text.ReadsBack levels value := by
  unfold ReadsBack Shape.text
  dsimp only
  exact reads_readScalar (readsScalar_string value) rfl

theorem readsBack_integer {name : String} {low high n : Int} (hfits : Fits n) (hlow : low ≤ n)
    (hhigh : n ≤ high) : (integer name low high).ReadsBack levels n := by
  unfold ReadsBack integer
  dsimp only
  exact reads_readScalar (readsScalar_int hfits) (if_pos ⟨hlow, hhigh⟩)

/-! ### Values with parts -/

theorem readsBack_map {forward : α → β} {backward : β → α} {b : β}
    (h : shape.ReadsBack levels (backward b)) (hback : forward (backward b) = b) :
    (shape.map forward backward).ReadsBack levels b := by
  refine ⟨h.starts, fun rest hrest => ?_⟩
  show Functor.map _ (shape.read levels (shape.write (backward b) ++ rest)) = _
  rw [h.read rest hrest]
  show Except.ok (forward (backward b), rest) = _
  rw [hback]

theorem readsBack_list {values : List α} (h : ∀ value ∈ values, shape.ReadsBack levels value) :
    (list shape).ReadsBack (levels + 1) values := by
  refine ⟨⟨'[', _, rfl, by decide⟩, fun rest _ => ?_⟩
  have hitems : List.Forall₂ (Reads (shape.read levels)) (values.map shape.write) values := by
    rw [List.forall₂_map_left_iff, List.forall₂_same]
    exact h
  show (list shape).read (levels + 1) (listText (values.map shape.write) ++ rest) = _
  rw [listText_append]
  exact listBody_append hitems rest

theorem readsBack_optional_none : (optional shape).ReadsBack levels none :=
  ⟨⟨'n', _, rfl, by decide⟩, fun _ _ => rfl⟩

theorem readsBack_optional_some (h : shape.ReadsBack levels value)
    (hnull : (shape.write value).head? ≠ some 'n') :
    (optional shape).ReadsBack levels (some value) := by
  refine ⟨h.starts, fun rest hrest => ?_⟩
  have hread := h.read rest hrest
  obtain ⟨c, cs, htext, hc⟩ := h.starts
  rw [htext] at hnull
  show (optional shape).read levels (shape.write value ++ rest) = _
  rw [htext, List.cons_append] at hread ⊢
  simp only [optional, skipBlanks_cons hc]
  split
  · rename_i heq
    exact absurd (congrArg some (List.cons.inj heq).1) hnull
  · rw [hread]
    rfl

/-! ### Records -/

section Record

variable {first : Field α} {second : Field β} {a : α} {b : β}

/-- The two members of a record are read in the order in which they are written. -/
theorem takes_record (hne : second.name ≠ first.name) (ha : first.shape.ReadsBack levels a)
    (hb : second.shape.ReadsBack levels b) :
    Takes (recordMember first second levels) (none, none)
      [(first.name, first.shape.write a), (second.name, second.shape.write b)]
      (some a, some b) := by
  have hfirst (rest : List Char) (hrest : Delimited rest) :
      recordMember first second levels (none, none) first.name
        (':' :: (first.shape.write a ++ rest)) = .ok ((some a, none), rest) := by
    rw [recordMember, if_pos rfl]
    show (first.shape.read levels (first.shape.write a ++ rest) >>= _) = _
    rw [ha.read rest hrest]
    rfl
  have hsecond (rest : List Char) (hrest : Delimited rest) :
      recordMember first second levels (some a, none) second.name
        (':' :: (second.shape.write b ++ rest)) = .ok ((some a, some b), rest) := by
    rw [recordMember, if_neg hne, if_pos rfl]
    show (second.shape.read levels (second.shape.write b ++ rest) >>= _) = _
    rw [hb.read rest hrest]
    rfl
  exact .cons hfirst (.cons hsecond (.nil _))

theorem readsBack_record {title : String} (hne : second.name ≠ first.name)
    (ha : first.shape.ReadsBack levels a) (hb : second.shape.ReadsBack levels b) :
    (record title first second).ReadsBack (levels + 1) (a, b) := by
  refine ⟨⟨'\x7b', _, rfl, by decide⟩, fun rest _ => ?_⟩
  have hbody := objectBody_append (takes_record hne ha hb) rest
  show (record title first second).read (levels + 1) (objectText (partTexts
    [(first.name, first.shape.write a), (second.name, second.shape.write b)]) ++ rest) = _
  rw [objectText_append]
  show (objectBody (recordMember first second levels) (none, none)
    (joinCommas (partTexts _) ++ '\x7d' :: rest) >>= _) = _
  rw [hbody]
  rfl

end Record

/-! ### The stored types -/

theorem readsBack_int32 (n : Int32) : int32.ReadsBack levels n := by
  have hlow := n.le_toInt
  have hhigh := n.toInt_lt
  have hpow : Int.pow 2 31 = 2147483648 := rfl
  have hfits : Fits n.toInt := fits_iff.mpr (by omega)
  exact readsBack_map (readsBack_integer hfits (by omega) (by omega)) (Int32.ofInt_toInt n)

theorem readsBack_uint32 (n : UInt32) : uint32.ReadsBack levels n := by
  have hlt := n.toNat_lt
  have hpow : Int.pow 2 32 = 4294967296 := rfl
  have hfits : Fits n.toNat := fits_iff.mpr (by omega)
  refine readsBack_map (readsBack_integer hfits (by omega) (by omega)) ?_
  rw [Int.toNat_natCast, UInt32.ofNat_toNat]

theorem readsBack_address (a : Address) : Address.shape.ReadsBack (levels + 1) a :=
  readsBack_map (readsBack_record (by decide) (readsBack_text a.street) (readsBack_uint32 a.number))
    rfl

end Shape

/-! ### Whole texts -/

theorem decodeSerialized_of_reads (h : shape.ReadsBack depthLimit value) :
    decodeSerialized shape (encodeSerialized shape value) = .ok value := by
  have hread := h.read [] delimited_nil
  rw [List.append_nil] at hread
  have hall : shape.readAll (shape.write value) = .ok value := by
    show (shape.read depthLimit (shape.write value) >>= _) = _
    rw [hread]
    rfl
  rw [decodeSerialized, encodeSerialized, String.toList_ofList, hall]
  rfl

theorem exists_read_of_decodeSerialized {text : String} (h : decodeSerialized shape text = .ok value) :
    ∃ rest, shape.read depthLimit text.toList = .ok (value, rest) := by
  obtain ⟨⟨found, rest⟩, hread, hrest⟩ := bind_eq_ok.mp (mapError_eq_ok.mp h)
  dsimp only at hrest
  split at hrest
  · cases hrest
    exact ⟨rest, hread⟩
  · cases hrest

/-- A whole value is read back exactly if it is nested no deeper than the limit. -/
theorem decodeSerialized_json_iff {v : Json} (h : v.isWhole = true) :
    decodeSerialized .json (encodeSerialized .json v) = .ok v ↔ v.depth ≤ depthLimit := by
  refine ⟨fun hread => ?_, fun hdepth => decodeSerialized_of_reads (reads_text v h hdepth)⟩
  obtain ⟨rest, hread⟩ := exists_read_of_decodeSerialized hread
  exact depth_of_value hread

/-- **Stored values are read back**, of every stored type and whatever characters their texts hold.
A JSON value whose numbers are whole and fit in 64 bits is read back exactly if lists and objects are
nested in it at most 127 deep. -/
theorem decodeSerialized_encodeSerialized :
    (∀ n : Int32, decodeSerialized .int32 (encodeSerialized .int32 n) = .ok n) ∧
    (∀ b : Bool, decodeSerialized .boolean (encodeSerialized .boolean b) = .ok b) ∧
    (∀ s : String, decodeSerialized .text (encodeSerialized .text s) = .ok s) ∧
    (∀ values : List String,
      decodeSerialized (.list .text) (encodeSerialized (.list .text) values) = .ok values) ∧
    (∀ values : List UInt32,
      decodeSerialized (.list .uint32) (encodeSerialized (.list .uint32) values) = .ok values) ∧
    (∀ a : Address, decodeSerialized Address.shape (encodeSerialized Address.shape a) = .ok a) ∧
    (∀ a : Option Address, decodeSerialized (.optional Address.shape)
      (encodeSerialized (.optional Address.shape) a) = .ok a) ∧
    ∀ v : Json, v.isWhole = true →
      (decodeSerialized .json (encodeSerialized .json v) = .ok v ↔ v.depth ≤ 127) := by
  refine ⟨fun n => decodeSerialized_of_reads (Shape.readsBack_int32 n),
    fun b => decodeSerialized_of_reads (Shape.readsBack_boolean b),
    fun s => decodeSerialized_of_reads (Shape.readsBack_text s),
    fun values => decodeSerialized_of_reads
      (Shape.readsBack_list fun s _ => Shape.readsBack_text s),
    fun values => decodeSerialized_of_reads
      (Shape.readsBack_list fun n _ => Shape.readsBack_uint32 n),
    fun a => decodeSerialized_of_reads (Shape.readsBack_address a), ?_,
    fun v h => decodeSerialized_json_iff h⟩
  rintro (_ | a)
  · exact decodeSerialized_of_reads Shape.readsBack_optional_none
  · exact decodeSerialized_of_reads
      (Shape.readsBack_optional_some (Shape.readsBack_address a) (by nofun))

/-- The least and the greatest number in a list beside an empty object, under keys that need
escapes. -/
def escapedLimits : Json :=
  .object [("\x00\x22", .array [.int (-9223372036854775808), .int 18446744073709551615, .null]),
    ("\x5c", .object []), ("é😀", .string "\x7f\n\u2028/")]

theorem decodeSerialized_encodeSerialized_limits :
    escapedLimits.isWhole = true ∧
    decodeSerialized .json (encodeSerialized .json escapedLimits) = .ok escapedLimits := by
  have hwhole : escapedLimits.isWhole = true := by decide
  obtain ⟨-, -, -, -, -, -, -, hjson⟩ := decodeSerialized_encodeSerialized
  exact ⟨hwhole, (hjson escapedLimits hwhole).mpr (by decide)⟩

end EntityTable.Codec.Json
