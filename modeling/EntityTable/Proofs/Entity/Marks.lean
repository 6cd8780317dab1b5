import EntityTable.Entity.Reading
import EntityTable.Proofs.Source.Globs

/-! # Marks of a field

The attributes of a field are read in order, and each changes the description that has been read so
far. The result does not depend on this order: a role is set if some attribute asks for it, and only
of the type mappings it matters which comes last. `FieldDescription.marked` says this for all
attributes at once; one step is `withAttribute_eq_ok_iff`, the run is `foldlM_withAttribute`. Main
statement: `FieldDescription.ofField_of_rearranged`. -/

namespace EntityTable.Source.Parser

variable {α : Type} {input output : Input}

/-- What a parser leaves alone when the operator does not stand there. -/
theorem eq_of_operator? {text : String} (h : (operator? text).run input = .ok (false, output)) :
    output = input := by
  obtain ⟨tokens, middle, hrest, h⟩ := run_bind h
  cases hrest
  split at h
  · cases h
  · cases h
    rfl

variable {move : α → Parser (Option α)} {P : α → Prop} {a b : α}

theorem iterate_go_keeps (hmove : ∀ a b i o, P a → (move a).run i = .ok (some b, o) → P b) :
    ∀ (fuel : Nat) {a : α} {input : Input}, P a →
      (iterate.go move fuel a).run input = .ok (b, output) → P b := by
  intro fuel
  induction fuel with
  | zero =>
    intro a input ha h
    cases h
    exact ha
  | succ fuel ih =>
    intro a input ha h
    obtain ⟨next, middle, hnext, h⟩ := run_bind h
    cases next with
    | none =>
      cases h
      exact ha
    | some c => exact ih (hmove a c input middle ha hnext) h

/-- What every step of a repetition keeps is kept by all of them. -/
theorem iterate_keeps (hmove : ∀ a b i o, P a → (move a).run i = .ok (some b, o) → P b)
    (ha : P a) (h : (iterate move a).run input = .ok (b, output)) : P b :=
  iterate_go_keeps hmove _ ha h

/-- A repetition takes a first step, and what the others keep from there on holds in the end. -/
theorem iterate_first (hmove : ∀ a b i o, P a → (move a).run i = .ok (some b, o) → P b)
    (h : (iterate move a).run input = .ok (b, output)) :
    (∃ o, (move a).run input = .ok (none, o)) ∨
    ∃ c o, (move a).run input = .ok (some c, o) ∧ (P c → P b) := by
  obtain ⟨next, middle, hnext, h⟩ := run_bind (show
    (iterate.go move (input.tokens.length + 1) a).run input = .ok (b, output) from h)
  cases next with
  | none =>
    cases h
    exact .inl ⟨_, hnext⟩
  | some c => exact .inr ⟨c, middle, hnext, fun hc => iterate_go_keeps hmove _ hc h⟩

end EntityTable.Source.Parser

namespace EntityTable.Entity

open Source Source.Parser

/-! ### Options of a key -/

theorem startsWord_iff {name : String} {tokens : List Token} :
    startsWord name tokens = true ↔ ∃ tail, tokens = .word name :: tail := by
  unfold startsWord
  split
  · simp
  · rename_i hne
    simpa using fun tail htail => hne name tail htail

theorem exists_of_keyWord {complaint : SyntaxError} {input output : Input} {name : String}
    (h : (keyWord complaint).run input = .ok (name, output)) :
    ∃ tail, input.tokens = .word name :: tail := by
  obtain ⟨tokens, unread⟩ := input
  cases tokens with
  | nil => cases h
  | cons token tokens =>
    cases token with
    | word w =>
      cases h
      exact ⟨tokens, rfl⟩
    | _ => cases h

theorem exists_of_firstKeyWord {input output : Input} {name : String}
    (h : firstKeyWord.run input = .ok (name, output)) :
    ∃ tail, input.tokens = .word name :: tail := by
  obtain ⟨tokens, middle, htokens, h⟩ := run_bind h
  cases htokens
  split at h
  · cases h
  · split at h
    · cases h
    · exact exists_of_keyWord h

/-- An option that is known begins with its word. -/
theorem startsWord_of_keyOption {input output : Input}
    (h : keyOption.run input = .ok (true, output)) :
    startsWord "auto_increment" input.tokens = true := by
  obtain ⟨isGlobal, afterColons, hglobal, h⟩ := run_bind h
  obtain ⟨first, afterFirst, hfirst, h⟩ := run_bind h
  obtain ⟨names, afterNames, hnames, h⟩ := run_bind h
  have hknown : (!isGlobal && names == ["auto_increment"]) = true :=
    congrArg Prod.fst (Except.ok.inj h)
  rw [Bool.and_eq_true, Bool.not_eq_true', beq_iff_eq] at hknown
  obtain ⟨rfl, rfl⟩ := hknown
  -- a path keeps the word that it begins with
  have hstarts : [first] <+: ["auto_increment"] := by
    refine iterate_keeps (P := ([first] <+: ·)) ?_ (List.prefix_refl _) hnames
    intro names more i o hfirst hmove
    obtain ⟨hasColons, middle, -, hmove⟩ := run_bind hmove
    cases hasColons with
    | false => cases hmove
    | true =>
      obtain ⟨isEnd, _, -, hmove⟩ := run_bind hmove
      obtain ⟨name, _, -, hmove⟩ := run_bind hmove
      cases hmove
      exact hfirst.trans (List.prefix_append _ _)
  obtain ⟨tail, htail⟩ := exists_of_firstKeyWord hfirst
  have hword : first = "auto_increment" := by simpa using hstarts
  rw [eq_of_operator? hglobal, hword] at htail
  exact startsWord_iff.mpr ⟨tail, htail⟩

/-- A step over the options of a key. -/
def keyOptionsStep (isUnknown : Bool) : Parser (Option Bool) := do
  if isUnknown || (← atEnd) then return none
  else if ← keyOption then
    if !(← atEnd) then operator ","
    return some false
  else
    advance []
    return some true

/-- The first step over options, at one of them: it goes on at an option that is known. -/
theorem startsWord_of_first {input output : Input} {next : Option Bool}
    (hinput : input.tokens ≠ []) (h : (keyOptionsStep false).run input = .ok (next, output)) :
    next = some true ∨ startsWord "auto_increment" input.tokens = true := by
  obtain ⟨isEnd, _, hend, h⟩ := run_bind h
  cases hend
  rw [Bool.false_or, if_neg (by simpa using hinput)] at h
  obtain ⟨isKnown, middle, hoption, h⟩ := run_bind h
  cases isKnown with
  | true => exact .inr (startsWord_of_keyOption hoption)
  | false =>
    cases h
    exact .inl rfl

/-- Options that are all known begin with the word of one, if there are any. -/
theorem startsWord_of_keyOptions {body : List Token} (hbody : body ≠ [])
    (h : runAll keyOptions body = .ok false) : startsWord "auto_increment" body = true := by
  obtain ⟨output, hrun⟩ := run_of_runAll h
  -- after an option that is not known nothing is read
  have hunknown : ∀ a b i o, a = true → (keyOptionsStep a).run i = .ok (some b, o) → b = true := by
    rintro a b i o rfl hmove
    cases hmove
  rcases iterate_first hunknown hrun with ⟨o, hfirst⟩ | ⟨unknown, o, hfirst, hkeeps⟩
  · exact (startsWord_of_first hbody hfirst).resolve_left nofun
  · rcases startsWord_of_first hbody hfirst with hnext | hstarts
    · cases hnext
      cases hkeeps rfl
    · exact hstarts

/-! ### Attributes -/

/-- The attribute is the mark of this name. -/
def isMark (mark : String) (a : Attribute) : Bool := a.path.isWord mark

/-- The names of the marks. -/
def markNames : List String :=
  ["primary_key", "lookup_key", "non_savable", "serializable", "type_mapping"]

/-- The attribute is none of the marks. -/
def IsForeign (a : Attribute) : Prop := ∀ mark ∈ markNames, isMark mark a = false

/-- The attribute is the mark of a key that the database assigns. -/
def isNumbering (a : Attribute) : Bool :=
  isMark "primary_key" a && match a.input with
    | .group _ body => startsWord "auto_increment" body
    | _ => false

/-- The attributes that are accepted. Those that are no marks may hold anything. -/
inductive IsReadable (a : Attribute) : Prop where
  | key (hmark : isMark "primary_key" a = true) (hinput : a.input = .nothing)
  | keyOptions (hmark : isMark "primary_key" a = true) {d : Delimiter} {body : List Token}
    (hinput : a.input = .group d body) (hbody : runAll keyOptions body = .ok false)
  | bare {mark : String} (hmem : mark ∈ ["lookup_key", "non_savable", "serializable"])
    (hmark : isMark mark a = true) (hinput : a.input = .nothing)
  | mapping (hmark : isMark "type_mapping" a = true) {m : TypeMapping}
    (hm : TypeMapping.ofInput a.input = .ok m)
  | foreign (h : IsForeign a)

variable {mark : String} {a : Attribute} {before attrs : List Attribute}

theorem isMark_iff : isMark mark a = true ↔ a.path.word? = some mark := by
  simp [isMark, Path.isWord]

theorem isMark_eq_false_iff : isMark mark a = false ↔ a.path.word? ≠ some mark := by
  rw [← Bool.not_eq_true, isMark_iff]

/-- An attribute is one mark at most. -/
theorem isMark_of_isMark (h : isMark mark a = true) (other : String) :
    isMark other a = (mark == other) := by
  simp [isMark, Path.isWord, isMark_iff.mp h]

theorem IsForeign.word?_ne (h : IsForeign a) (hmem : mark ∈ markNames) :
    a.path.word? ≠ some mark := by
  intro hword
  have hmark := h mark hmem
  rw [isMark_iff.mpr hword] at hmark
  exact Bool.noConfusion hmark

theorem isNumbering_of_nothing (h : a.input = .nothing) : isNumbering a = false := by
  simp [isNumbering, h]

theorem isNumbering_of_ne (h : isMark "primary_key" a = false) : isNumbering a = false := by
  simp [isNumbering, h]

/-- A key with options that are all known is numbered if there are any. -/
theorem isNumbering_of_group {d : Delimiter} {body : List Token}
    (hmark : isMark "primary_key" a = true) (hinput : a.input = .group d body)
    (hbody : runAll keyOptions body = .ok false) : isNumbering a = !body.isEmpty := by
  have hstarts : startsWord "auto_increment" body = !body.isEmpty := by
    by_cases hempty : body = []
    · simp [hempty, startsWord]
    · simp [startsWord_of_keyOptions hempty hbody, hempty]
  simp [isNumbering, hmark, hinput, hstarts]

namespace FieldDescription

/-! ### One attribute -/

/-- The field with what one attribute says about it. -/
def markedBy (a : Attribute) (f : FieldDescription) : FieldDescription where
  name := f.name
  ty := f.ty
  roles := {
    primaryKey := f.roles.primaryKey || isMark "primary_key" a
    autoIncrement := f.roles.autoIncrement || isNumbering a
    lookupKey := f.roles.lookupKey || isMark "lookup_key" a
    nonSavable := f.roles.nonSavable || isMark "non_savable" a }
  serializable := f.serializable || isMark "serializable" a
  mapping := if isMark "type_mapping" a = true then (TypeMapping.ofInput a.input).toOption
    else f.mapping

theorem markedBy_of_isForeign (f : FieldDescription) (h : IsForeign a) : f.markedBy a = f := by
  have hmark {mark : String} (hmem : mark ∈ markNames) : isMark mark a = false := h mark hmem
  have hkey : isMark "primary_key" a = false := hmark (by decide)
  have hlookup : isMark "lookup_key" a = false := hmark (by decide)
  have hnonSavable : isMark "non_savable" a = false := hmark (by decide)
  have hserializable : isMark "serializable" a = false := hmark (by decide)
  have hmapping : isMark "type_mapping" a = false := hmark (by decide)
  simp [markedBy, isNumbering_of_ne, *]

/-- **An attribute that can be read adds what it says.** -/
theorem withAttribute_of_isReadable (f : FieldDescription) (h : IsReadable a) :
    f.withAttribute a = .ok (f.markedBy a) := by
  unfold withAttribute
  cases h with
  | key hmark hinput =>
    simp [isMark_iff.mp hmark, hinput, withKey, markedBy, asPrimaryKey, isMark_of_isMark hmark,
      isNumbering_of_nothing hinput]
  | @keyOptions hmark d body hinput hbody =>
    have hnumbering := isNumbering_of_group hmark hinput hbody
    by_cases hempty : body.isEmpty = true <;>
      simp [isMark_iff.mp hmark, hinput, withKey, hbody, hempty, hnumbering, markedBy,
        asPrimaryKey, withAutoIncrement, isMark_of_isMark hmark]
  | @bare mark hmem hmark hinput =>
    have hnumbering := isNumbering_of_nothing hinput
    simp only [List.mem_cons, List.not_mem_nil, or_false] at hmem
    rcases hmem with rfl | rfl | rfl <;>
      simp [isMark_iff.mp hmark, hinput, bareMark, hnumbering, markedBy, asLookupKey,
        asNonSavable, asSerializable, isMark_of_isMark hmark]
  | mapping hmark hm =>
    have hnumbering : isNumbering a = false := isNumbering_of_ne (by simp [isMark_of_isMark hmark])
    simp [isMark_iff.mp hmark, hm, Except.map, Except.toOption, hnumbering, markedBy, mappedBy,
      isMark_of_isMark hmark]
  | foreign h =>
    rw [markedBy_of_isForeign f h]
    split
    case h_6 => rfl
    all_goals exact absurd ‹a.path.word? = some _› (h.word?_ne (by decide))

theorem nothing_of_bareMark {input : AttributeInput} {f g : FieldDescription}
    (h : bareMark input f = .ok g) : input = .nothing := by
  cases input with
  | nothing => rfl
  | group d body => cases h
  | value expr => cases h

/-- What is given to a key that is accepted is nothing or options that are all known. -/
theorem options_of_withKey {input : AttributeInput} {f g : FieldDescription}
    (h : f.withKey input = .ok g) :
    input = .nothing ∨ ∃ d body, input = .group d body ∧ runAll keyOptions body = .ok false := by
  cases input with
  | nothing => exact .inl rfl
  | value expr => cases h
  | group d body =>
    refine .inr ⟨d, body, rfl, ?_⟩
    unfold withKey at h
    dsimp only at h
    split at h
    · cases h
    · assumption
    · cases h

/-- An attribute that is accepted can be read. -/
theorem isReadable_of_withAttribute {f g : FieldDescription} (h : f.withAttribute a = .ok g) :
    IsReadable a := by
  unfold withAttribute at h
  split at h
  · rename_i hword
    rcases options_of_withKey h with hinput | ⟨d, body, hinput, hbody⟩
    · exact .key (isMark_iff.mpr hword) hinput
    · exact .keyOptions (isMark_iff.mpr hword) hinput hbody
  · rename_i hword
    exact .bare (by decide) (isMark_iff.mpr hword) (nothing_of_bareMark h)
  · rename_i hword
    exact .bare (by decide) (isMark_iff.mpr hword) (nothing_of_bareMark h)
  · rename_i hword
    exact .bare (by decide) (isMark_iff.mpr hword) (nothing_of_bareMark h)
  · rename_i hword
    cases hm : TypeMapping.ofInput a.input with
    | error e =>
      rw [hm] at h
      cases h
    | ok m => exact .mapping (isMark_iff.mpr hword) hm
  · rename_i hkey hlookup hnonSavable hserializable hmapping
    refine .foreign ?_
    simpa [IsForeign, markNames, isMark, Path.isWord] using
      ⟨hkey, hlookup, hnonSavable, hserializable, hmapping⟩

theorem withAttribute_eq_ok_iff {f g : FieldDescription} :
    f.withAttribute a = .ok g ↔ IsReadable a ∧ g = f.markedBy a := by
  constructor
  · intro h
    have hreadable := isReadable_of_withAttribute h
    rw [withAttribute_of_isReadable f hreadable] at h
    exact ⟨hreadable, (Except.ok.inj h).symm⟩
  · rintro ⟨hreadable, rfl⟩
    exact withAttribute_of_isReadable f hreadable

/-! ### All attributes -/

/-- A field with what all its attributes say about it. -/
def marked (name : String) (ty : Ty) (attrs : List Attribute) : FieldDescription where
  name
  ty
  roles := {
    primaryKey := attrs.any (isMark "primary_key")
    autoIncrement := attrs.any isNumbering
    lookupKey := attrs.any (isMark "lookup_key")
    nonSavable := attrs.any (isMark "non_savable") }
  serializable := attrs.any (isMark "serializable")
  mapping := (attrs.filter (isMark "type_mapping")).getLast?.bind fun a =>
    (TypeMapping.ofInput a.input).toOption

variable {name : String} {ty : Ty}

theorem marked_append_singleton : marked name ty (before ++ [a]) =
    (marked name ty before).markedBy a := by
  unfold marked markedBy
  by_cases h : isMark "type_mapping" a = true <;> simp [List.any_append, List.filter_append, h]

/-- **All attributes of a field are read exactly if each can be, to what they say together.** -/
theorem foldlM_withAttribute {d : FieldDescription} : ∀ {attrs before : List Attribute},
    attrs.foldlM withAttribute (marked name ty before) = .ok d ↔
      (∀ a ∈ attrs, IsReadable a) ∧ d = marked name ty (before ++ attrs)
  | [], before => by
    rw [List.foldlM_nil, List.append_nil]
    exact ⟨fun h => ⟨nofun, (Except.ok.inj h).symm⟩, fun h => congrArg Except.ok h.2.symm⟩
  | a :: attrs, before => by
    rw [List.foldlM_cons, bind_eq_ok, List.forall_mem_cons, List.append_cons, and_assoc,
      ← foldlM_withAttribute, marked_append_singleton]
    constructor
    · rintro ⟨f, hf, hrest⟩
      obtain ⟨ha, rfl⟩ := withAttribute_eq_ok_iff.mp hf
      exact ⟨ha, hrest⟩
    · rintro ⟨ha, hrest⟩
      exact ⟨_, withAttribute_of_isReadable _ ha, hrest⟩

end FieldDescription

/-! ### Other orders -/

/-- The second attributes are the first with foreign ones anywhere between them, in any order that
keeps that of the type mappings. -/
structure IsRearranged (attrs attrs' : List Attribute) : Prop where
  perm : ∃ foreign, (∀ a ∈ foreign, IsForeign a) ∧ attrs'.Perm (attrs ++ foreign)
  mappings : attrs'.filter (isMark "type_mapping") = attrs.filter (isMark "type_mapping")

/-- The description says what the marks of a field say. -/
structure IsMarkedBy (attrs : List Attribute) (d : FieldDescription) : Prop where
  primaryKey : d.roles.primaryKey = true ↔ ∃ a ∈ attrs, a.path.word? = some "primary_key"
  autoIncrement : d.roles.autoIncrement = true ↔ ∃ a ∈ attrs, a.path.word? = some "primary_key" ∧
    ∃ delimiter tail, a.input = .group delimiter (.word "auto_increment" :: tail)
  lookupKey : d.roles.lookupKey = true ↔ ∃ a ∈ attrs, a.path.word? = some "lookup_key"
  nonSavable : d.roles.nonSavable = true ↔ ∃ a ∈ attrs, a.path.word? = some "non_savable"
  serializable : d.serializable = true ↔ ∃ a ∈ attrs, a.path.word? = some "serializable"
  /-- Of several type mappings the last applies. -/
  mapping : ∀ m, d.mapping = some m ↔ ∃ before a after, attrs = before ++ a :: after ∧
    a.path.word? = some "type_mapping" ∧ (∀ b ∈ after, b.path.word? ≠ some "type_mapping") ∧
    TypeMapping.ofInput a.input = .ok m

variable {name : String} {ty : Ty} {attrs' : List Attribute}

theorem IsRearranged.any_eq (h : IsRearranged attrs attrs') {test : Attribute → Bool}
    (htest : ∀ a, IsForeign a → test a = false) : attrs'.any test = attrs.any test := by
  obtain ⟨foreign, hforeign, hperm⟩ := h.perm
  have hnone : foreign.any test = false := by
    simpa using fun a ha => htest a (hforeign a ha)
  rw [hperm.any_eq, List.any_append, hnone, Bool.or_false]

theorem IsRearranged.isReadable_iff (h : IsRearranged attrs attrs') :
    (∀ a ∈ attrs', IsReadable a) ↔ ∀ a ∈ attrs, IsReadable a := by
  obtain ⟨foreign, hforeign, hperm⟩ := h.perm
  constructor
  · intro hall a ha
    exact hall a (hperm.mem_iff.mpr (List.mem_append_left foreign ha))
  · intro hall a ha
    rcases List.mem_append.mp (hperm.mem_iff.mp ha) with ha | ha
    · exact hall a ha
    · exact .foreign (hforeign a ha)

/-- **The order of the attributes does not matter, but for that of the type mappings.** -/
theorem IsRearranged.marked_eq (h : IsRearranged attrs attrs') :
    FieldDescription.marked name ty attrs' = FieldDescription.marked name ty attrs := by
  have hmark {mark : String} (hmem : mark ∈ markNames) :
      attrs'.any (isMark mark) = attrs.any (isMark mark) :=
    h.any_eq fun a ha => ha mark hmem
  have hnumbering : attrs'.any isNumbering = attrs.any isNumbering :=
    h.any_eq fun a ha => isNumbering_of_ne (ha _ (by decide))
  unfold FieldDescription.marked
  rw [hmark (by decide), hmark (by decide), hmark (by decide), hmark (by decide), hnumbering,
    h.mappings]

theorem any_isMark_iff : attrs.any (isMark mark) = true ↔
    ∃ a ∈ attrs, a.path.word? = some mark := by
  simp only [List.any_eq_true, isMark_iff]

theorem isNumbering_iff : isNumbering a = true ↔ a.path.word? = some "primary_key" ∧
    ∃ delimiter tail, a.input = .group delimiter (.word "auto_increment" :: tail) := by
  rw [isNumbering, Bool.and_eq_true, isMark_iff]
  refine and_congr_right fun _ => ?_
  constructor
  · intro h
    split at h
    · rename_i d body hinput
      obtain ⟨tail, rfl⟩ := startsWord_iff.mp h
      exact ⟨d, tail, hinput⟩
    · cases h
  · rintro ⟨d, tail, hinput⟩
    rw [hinput]
    exact startsWord_iff.mpr ⟨tail, rfl⟩

/-- The last element that a test accepts is one behind which it accepts none. -/
theorem getLast?_filter_eq_some_iff {α : Type} {test : α → Bool} {l : List α} {a : α} :
    (l.filter test).getLast? = some a ↔
      ∃ before after, l = before ++ a :: after ∧ test a = true ∧ ∀ b ∈ after, test b = false := by
  rw [List.getLast?_filter, List.find?_eq_some_iff_append]
  constructor
  · rintro ⟨htest, after, before, hsplit, hafter⟩
    refine ⟨before.reverse, after.reverse, ?_, htest, fun b hb => ?_⟩
    · rw [← l.reverse_reverse, hsplit]
      simp
    · simpa using hafter b (List.mem_reverse.mp hb)
  · rintro ⟨before, after, rfl, htest, hafter⟩
    exact ⟨htest, after.reverse, before.reverse, by simp, by simpa using hafter⟩

theorem isMarkedBy_marked : IsMarkedBy attrs (.marked name ty attrs) where
  primaryKey := any_isMark_iff
  autoIncrement := by simp only [FieldDescription.marked, List.any_eq_true, isNumbering_iff]
  lookupKey := any_isMark_iff
  nonSavable := any_isMark_iff
  serializable := any_isMark_iff
  mapping m := by
    unfold FieldDescription.marked
    rw [Option.bind_eq_some_iff]
    constructor
    · rintro ⟨a, ha, hm⟩
      obtain ⟨before, after, hattrs, hmark, hafter⟩ := getLast?_filter_eq_some_iff.mp ha
      exact ⟨before, a, after, hattrs, isMark_iff.mp hmark,
        fun b hb => isMark_eq_false_iff.mp (hafter b hb), toOption_eq_some.mp hm⟩
    · rintro ⟨before, a, after, hattrs, hmark, hafter, hm⟩
      exact ⟨a, getLast?_filter_eq_some_iff.mpr ⟨before, after, hattrs, isMark_iff.mpr hmark,
        fun b hb => isMark_eq_false_iff.mpr (hafter b hb)⟩, toOption_eq_some.mpr hm⟩

theorem FieldDescription.ofField_eq_ok_iff {field : FieldDef} {d : FieldDescription}
    (hname : field.name = some name) : ofField field = .ok d ↔
      (∀ a ∈ field.attrs, IsReadable a) ∧ d = marked name field.ty field.attrs := by
  have hplain : plain name field.ty = marked name field.ty [] := rfl
  rw [ofField, hname]
  dsimp only
  rw [hplain, foldlM_withAttribute, List.nil_append]

/-- **What a field is described as does not depend on foreign attributes nor on the order of the
marks, but for that of the type mappings, of which the last applies.** -/
theorem FieldDescription.ofField_of_rearranged {field : FieldDef} (hname : field.name = some name)
    (h : IsRearranged field.attrs attrs) :
    (ofField { field with attrs }).toOption = (ofField field).toOption ∧
    ((∃ d, ofField field = .ok d) ↔ ∀ a ∈ field.attrs, IsReadable a) ∧
    ∀ d, ofField field = .ok d → d.name = name ∧ d.ty = field.ty ∧ IsMarkedBy field.attrs d := by
  refine ⟨?_, ?_, ?_⟩
  · refine Option.ext fun d => ?_
    have hname' : ({ field with attrs } : FieldDef).name = some name := hname
    rw [toOption_eq_some, toOption_eq_some, ofField_eq_ok_iff hname, ofField_eq_ok_iff hname',
      h.isReadable_iff, h.marked_eq]
  · simp only [ofField_eq_ok_iff hname, exists_and_left, exists_eq, and_true]
  · intro d hd
    obtain ⟨-, rfl⟩ := (ofField_eq_ok_iff hname).mp hd
    exact ⟨rfl, rfl, isMarkedBy_marked⟩

/-- An attribute of one word and what stands behind it. -/
def attributeOf (word : String) (input : AttributeInput) : Attribute :=
  ⟨false, .mk false [.plain word], input⟩

/-- The mark of a key that the database assigns. -/
def numberedMark : Attribute :=
  attributeOf "primary_key" (.group .paren [.word "auto_increment"])

/-- A type mapping that only names a type, given as a quoted text. -/
def mappingMark (storeAs : String) : Attribute :=
  attributeOf "type_mapping" (.group .paren
    [.word "store_as", .punct '=' false, .literal storeAs])

/-- A key with both forms of its mark and two type mappings. -/
def keyField : FieldDef where
  attrs := [numberedMark, mappingMark "\x22i32\x22", attributeOf "primary_key" .nothing,
    mappingMark "\x22i64\x22"]
  visibility := .everywhere
  name := some "id"
  ty := .word "Millis"

/-- The marks of a key in another order, one without a meaning among them. -/
def reorderedMarks : List Attribute :=
  [attributeOf "primary_key" .nothing, mappingMark "\x22i32\x22", mappingMark "\x22i64\x22",
    numberedMark, attributeOf "serde" (.group .paren [.word "skip"])]

theorem isRearranged_reorderedMarks : IsRearranged keyField.attrs reorderedMarks where
  perm := by
    have hmarks : ([attributeOf "primary_key" .nothing, mappingMark "\x22i32\x22",
        mappingMark "\x22i64\x22"] ++ [numberedMark]).Perm keyField.attrs :=
      (List.perm_append_singleton numberedMark _).trans (.cons _ (.swap _ _ _))
    refine ⟨[attributeOf "serde" (.group .paren [.word "skip"])], ?_, hmarks.append_right _⟩
    simp [IsForeign, isMark, Path.isWord, Path.word?, attributeOf, markNames]
  mappings := rfl

theorem FieldDescription.ofField_of_rearranged_keyField :
    (ofField { keyField with attrs := reorderedMarks }).toOption = (ofField keyField).toOption ∧
    ∃ d, ofField keyField = .ok d ∧ d.roles = .ofAutoIncrement ∧
      d.mapping.map (fun m => m.storeAs.lastWord?) = some (some "i64") := by
  have hfield : keyField.name = some "id" := rfl
  have h := ofField_of_rearranged hfield isRearranged_reorderedMarks
  have hvalues : (ofField keyField).toOption.map
      (fun d => (d.roles, d.mapping.map fun m => m.storeAs.lastWord?)) =
        some (.ofAutoIncrement, some (some "i64")) := by
    decide +kernel
  obtain ⟨d, hd, hvalues⟩ := Option.map_eq_some_iff.mp hvalues
  obtain ⟨hroles, hmapping⟩ := Prod.mk.inj hvalues
  exact ⟨h.1, d, toOption_eq_some.mp hd, hroles, hmapping⟩

end EntityTable.Entity
