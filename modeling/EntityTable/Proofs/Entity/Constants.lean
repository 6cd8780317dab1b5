import EntityTable.Proofs.Entity.Identifiers
import EntityTable.Proofs.Source.Identifier
import EntityTable.Proofs.Text.Letters

/-! # Names and constants of a schema

The names of a schema are the identifiers of the texts that its description declares. A raw one is
among them only if a gap stands before it in its text, since only the very start of a text is looked
at. The constant of a column is the field's name in upper case behind a prefix, so it is an
identifier if the name is not raw, and none otherwise. Main statement: `names_of_build`. -/

namespace EntityTable.Source

open Lexer Text

variable {text name : String} {c : Char}

/-! ### Texts that start with a gap -/

/-- The characters of words and the mark of raw ones. -/
def isRawWordChar (c : Char) : Bool := Identifier.isContinue c || c == '#'

theorem isRawWordChar_of_isStart (h : Identifier.isStart c = true) : isRawWordChar c = true :=
  Bool.or_eq_true_iff.mpr (.inl (isContinue_of_isStart h))

/-- No word has the mark that may stand before the text. -/
theorem isRawWordChar_mark : isRawWordChar '\ufeff' = false := by decide +kernel

theorem dropByteOrderMark_gap {gap w : List Char} (h : IsGap gap)
    (hw : ∀ c ∈ w.head?, c ≠ '\ufeff') : dropByteOrderMark (gap ++ w) = gap ++ w := by
  have hhead : ∀ c ∈ (gap ++ w).head?, c ≠ '\ufeff' := by
    cases h with
    | nil => exact hw
    | blank hc _ =>
      rintro _ ⟨⟩ rfl
      exact absurd hc (by decide)
    | line _ _ => rintro _ ⟨⟩; decide
    | block _ _ => rintro _ ⟨⟩; decide
  unfold dropByteOrderMark
  split
  · rename_i heq
    rw [heq] at hhead
    exact absurd rfl (hhead _ rfl)
  · rfl

/-- Behind a first gap the text goes on with a word. -/
theorem skip_firstGap {front cs : List Char} (hfront : IsFirstGap front)
    (hstart : Identifier.isStart c = true) :
    skip (dropByteOrderMark (front ++ c :: cs)) = c :: cs := by
  have hskip : skip (c :: cs) = c :: cs := skip_cons (startsLeaf_of_isStart hstart).toStartsToken
  cases hfront with
  | gap h =>
    have hmark : c ≠ '\ufeff' := by
      rintro rfl
      have hmark := isRawWordChar_of_isStart hstart
      rw [isRawWordChar_mark] at hmark
      cases hmark
    rw [dropByteOrderMark_gap h (by rintro _ ⟨⟩; exact hmark), skip_gap h, hskip]
  | @mark gap h =>
    show skip (gap ++ c :: cs) = _
    rw [skip_gap h, hskip]

/-- **A text gives a raw identifier exactly if one stands in it behind a gap** that is not empty. -/
theorem isRaw_iff_of_identifier? (h : identifier? text = some name) : IsRaw name ↔
    ∃ front rest, text.toList = front ++ 'r' :: '#' :: rest ∧ IsFirstGap front ∧ front ≠ [] := by
  obtain ⟨hname, front, back, htext, hfront, hback, hraw⟩ := identifier?_eq_some_iff.mp h
  constructor
  · rintro ⟨rest, hrest⟩
    refine ⟨front, rest ++ back, ?_, hfront, hraw ⟨rest, hrest⟩⟩
    rw [htext, ← hrest]
    simp
  · rintro ⟨front', rest, htext', hfront', -⟩
    obtain ⟨c, cs, hcs, hstart⟩ := hname.word.exists_cons
    have hskip : skip (dropByteOrderMark (front ++ c :: (cs ++ back))) = c :: (cs ++ back) :=
      skip_firstGap hfront hstart
    rw [← List.cons_append, ← hcs, ← htext, htext', skip_firstGap hfront' (by decide)] at hskip
    have hstarts : ['r', '#'] <+: [] ++ (name.toList ++ back) := ⟨rest, hskip⟩
    exact ((isPrefix_iff hname.word (.gap .nil) hback).mp hstarts).1

/-! ### Texts of word characters -/

/-- A plain word that is no keyword is an identifier. -/
theorem identifier?_of_isPlainName (h : isPlainName name.toList = true) :
    identifier? name = some name := by
  have hplain : isPlainWord name.toList = true := (Bool.and_eq_true_iff.mp h).1
  refine identifier?_eq_some_iff.mpr ⟨.of_isPlainName h, [], [], by simp, .gap .nil,
    .gap .nil, fun hraw => absurd hraw (not_isRaw_of_isPlainWord hplain)⟩

theorem isContinue_of_isPlainWord {w : List Char} (h : isPlainWord w = true) :
    ∀ c ∈ w, Identifier.isContinue c = true := by
  cases w with
  | nil => cases h
  | cons c cs =>
    obtain ⟨hstart, hrest⟩ := Bool.and_eq_true_iff.mp h
    exact List.forall_mem_cons.mpr ⟨isContinue_of_isStart hstart, List.all_eq_true.mp hrest⟩

theorem notMem_of_isPlainWord {w : List Char} (h : isPlainWord w = true) : '#' ∉ w := by
  have hmark : Identifier.isContinue '#' = false := by decide
  intro hmem
  have hcontinue := isContinue_of_isPlainWord h _ hmem
  rw [hmark] at hcontinue
  cases hcontinue

theorem isRawWordChar_of_isWord {w : List Char} (h : IsWord w) :
    ∀ c ∈ w, isRawWordChar c = true := by
  have hplain {c : Char} {cs : List Char} (hstart : Identifier.isStart c = true)
      (hrest : ∀ d ∈ cs, Identifier.isContinue d = true) :
      ∀ d ∈ c :: cs, isRawWordChar d = true := by
    have hword : isPlainWord (c :: cs) = true :=
      Bool.and_eq_true_iff.mpr ⟨hstart, List.all_eq_true.mpr hrest⟩
    exact fun d hd => Bool.or_eq_true_iff.mpr (.inl (isContinue_of_isPlainWord hword d hd))
  cases h with
  | plain hstart hrest => exact hplain hstart hrest
  | raw hstart hrest _ =>
    exact List.forall_mem_cons.mpr ⟨by decide,
      List.forall_mem_cons.mpr ⟨by decide, hplain hstart hrest⟩⟩

theorem Lexer.EndsWord.eq_nil {cs : List Char} (h : EndsWord cs)
    (hchars : ∀ c ∈ cs, isRawWordChar c = true) : cs = [] := by
  cases cs with
  | nil => rfl
  | cons c cs =>
    obtain ⟨hcontinue, hmark⟩ := h c rfl
    have hc := hchars c List.mem_cons_self
    rw [isRawWordChar, hcontinue, Bool.false_or, beq_iff_eq] at hc
    subst hc
    exact absurd (by decide) hmark

/-- No such character stands in a gap. -/
theorem Lexer.IsFirstGap.eq_nil {front : List Char} (h : IsFirstGap front)
    (hchars : ∀ c ∈ front, isRawWordChar c = true) : front = [] := by
  cases h with
  | gap h =>
    have hends : EndsWord (front ++ []) := h.endsWord_append (by rintro _ ⟨⟩)
    rw [List.append_nil] at hends
    exact hends.eq_nil hchars
  | mark h =>
    have hmark := hchars _ List.mem_cons_self
    rw [isRawWordChar_mark] at hmark
    cases hmark

/-- A text of such characters is no identifier if there is a mark, but no raw word. -/
theorem identifier?_eq_none (hchars : ∀ c ∈ text.toList, isRawWordChar c = true)
    (hmark : '#' ∈ text.toList) (hraw : ¬ IsRaw text) : identifier? text = none := by
  rw [Option.eq_none_iff_forall_ne_some]
  intro name h
  obtain ⟨hname, front, back, htext, hfront, hback, -⟩ := identifier?_eq_some_iff.mp h
  rw [htext] at hchars hmark
  have hnil : front = [] := hfront.eq_nil fun c hc => hchars c (by simp [hc])
  have hnil' : back = [] := hback.endsWord.eq_nil fun c hc => hchars c (by simp [hc])
  rw [hnil, hnil', List.nil_append, List.append_nil] at htext hmark
  rw [IsRaw, htext] at hraw
  exact notMem_of_isPlainWord (isPlainWord_of_not_isRaw hname.word hraw) hmark

end EntityTable.Source

namespace EntityTable.Entity

open Source (IsNameText IsRaw identifier? identifier?_eq_some_iff isNameText_of_identifier?
  isPlainName isRaw_iff_of_identifier? isRawWordChar keywords)
open Source.Lexer (IsFirstGap IsLastGap IsWord)
open Text

variable {d : Description} {s : Schema} {field : String}

/-! ### Constants -/

theorem toList_columnConstant (field : String) : (columnConstant field).toList =
    'C' :: ("OLUMN_".toList ++ (upperSnakeCase field).toList) := by
  rw [columnConstant, String.toList_append]
  rfl

theorem not_isRaw_columnConstant (field : String) : ¬ IsRaw (columnConstant field) := by
  rintro ⟨rest, heq⟩
  rw [toList_columnConstant] at heq
  cases heq

/-- No keyword has the prefix of the constants. -/
theorem notMem_keywords_columnConstant (field : String) : columnConstant field ∉ keywords := by
  have hkeywords : ∀ w ∈ keywords, ¬ "COLUMN_".toList <+: w.toList := by decide
  intro hmem
  exact hkeywords _ hmem ⟨(upperSnakeCase field).toList, (toList_columnConstant field).symm⟩

/-- What holds of the prefix and of the characters of the name in upper case. -/
theorem forall_mem_columnConstant {P : Char → Prop} (hletters : ∀ c ∈ "OLUMN_".toList, P c)
    (hfield : ∀ c ∈ field.toList, ∀ d ∈ upperOf c, P d) :
    ∀ c ∈ "OLUMN_".toList ++ (upperSnakeCase field).toList, P c := by
  intro c hc
  rcases List.mem_append.mp hc with hc | hc
  · exact hletters c hc
  · rcases mem_of_mem_upperSnakeCase hc with rfl | ⟨e, he, hc⟩
    · exact hletters '_' (by decide)
    · exact hfield e he c hc

/-- **The constant of a plain name is an identifier.** -/
theorem identifier?_columnConstant (hword : IsWord field.toList) (hraw : ¬ IsRaw field) :
    identifier? (columnConstant field) = some (columnConstant field) := by
  have hplain := Source.isPlainWord_of_not_isRaw hword hraw
  have hchars := Source.isContinue_of_isPlainWord hplain
  have hall := forall_mem_columnConstant (P := fun c => Identifier.isContinue c = true)
    (List.all_iff_forall_prop.mp (by decide))
    fun c hc d hd => isContinue_of_mem_upperOf (hchars c hc) hd
  have hfirst : Identifier.isStart 'C' = true := by decide
  have hword : Source.Lexer.isPlainWord (columnConstant field).toList = true := by
    rw [toList_columnConstant, Source.Lexer.isPlainWord, hfirst, Bool.true_and]
    exact List.all_eq_true.mpr hall
  refine Source.identifier?_of_isPlainName ?_
  rw [isPlainName, hword, Bool.true_and, String.ofList_toList, List.contains_eq_mem,
    Bool.not_eq_true', decide_eq_false_iff_not]
  exact notMem_keywords_columnConstant field

example : identifier? (columnConstant "type_id") = some "COLUMN_TYPE_ID" := by decide +kernel

/-- **The constant of a raw name is none**, since the mark is kept in upper case. -/
theorem identifier?_columnConstant_of_isRaw (hword : IsWord field.toList) (hraw : IsRaw field) :
    identifier? (columnConstant field) = none := by
  have hmark : upperOf '#' = ['#'] := by decide
  have hchars := Source.isRawWordChar_of_isWord hword
  refine Source.identifier?_eq_none ?_ ?_ (not_isRaw_columnConstant field)
  · rw [toList_columnConstant]
    refine List.forall_mem_cons.mpr ⟨by decide, forall_mem_columnConstant ?_ ?_⟩
    · exact List.all_iff_forall_prop.mp (by decide)
    · intro c hc d hd
      rcases Bool.or_eq_true_iff.mp (hchars c hc) with hc | hc
      · exact Bool.or_eq_true_iff.mpr (.inl (isContinue_of_mem_upperOf hc hd))
      · rw [eq_of_beq hc, hmark] at hd
        rw [List.mem_singleton.mp hd]
        decide
  · rw [toList_columnConstant]
    have hmem : '#' ∈ field.toList := hraw.subset (by decide)
    have hupper := mem_upperSnakeCase hmem (by decide) (hmark ▸ List.mem_singleton_self '#')
    exact List.mem_cons_of_mem _ (List.mem_append_right _ hupper)

/-! ### Names of a schema -/

/-- The texts that the names of a schema are taken from. -/
def Description.nameTexts (d : Description) : List String :=
  d.name :: d.className.getD (d.name ++ generatedSuffix) :: d.fields.map FieldDescription.name

theorem exists_nameText (h : Schema.build d = .ok s) {name : String}
    (hname : name ∈ s.origin :: s.generated :: s.identifiers) :
    ∃ text ∈ d.nameTexts, identifier? text = some name := by
  have hdescribes := (describes_of_build h).2
  rcases List.mem_cons.mp hname with rfl | hname
  · exact ⟨d.name, List.mem_cons_self, hdescribes.origin⟩
  rcases List.mem_cons.mp hname with rfl | hname
  · exact ⟨_, List.mem_cons_of_mem _ List.mem_cons_self, hdescribes.generated⟩
  · obtain ⟨f, hf, hfname⟩ : ∃ f ∈ d.fields, identifier? f.name = some name := by
      rw [Schema.identifiers, (storable_eq_of_build h).1, (storable_eq_of_build h).2,
        List.mem_append, mem_names_storedOf, mem_transientOf] at hname
      rcases hname with ⟨f, hf, -, hfname⟩ | ⟨f, hf, -, hfname⟩ <;> exact ⟨f, hf, hfname⟩
    exact ⟨f.name, List.mem_cons_of_mem _ (List.mem_cons_of_mem _ (List.mem_map_of_mem hf)), hfname⟩

/-- **What the names and constants of a schema are.** A text gives a name exactly if one word that
is no keyword stands between gaps, and not a raw word at the very start. The names of a schema are
given by the texts of its description; a raw one is among them exactly if it stands behind a gap in
its text. The constant of a stored field is an identifier if the name is not raw, and else none. -/
theorem names_of_build (h : Schema.build d = .ok s) :
    (∀ text name, identifier? text = some name ↔ IsNameText name.toList ∧
      ∃ front back, text.toList = front ++ (name.toList ++ back) ∧ IsFirstGap front ∧
        IsLastGap back ∧ (IsRaw name → front ≠ [])) ∧
    (∀ name ∈ s.origin :: s.generated :: s.identifiers, IsNameText name.toList ∧
      ∃ text ∈ d.nameTexts, identifier? text = some name ∧ (IsRaw name ↔ ∃ front rest,
        text.toList = front ++ 'r' :: '#' :: rest ∧ IsFirstGap front ∧ front ≠ [])) ∧
    ∀ f ∈ s.storable, (¬ IsRaw f.name → identifier? f.constant = some f.constant) ∧
      (IsRaw f.name → identifier? f.constant = none) := by
  refine ⟨fun _ _ => identifier?_eq_some_iff, fun name hname => ?_, fun f hf => ?_⟩
  · obtain ⟨text, htext, hidentifier⟩ := exists_nameText h hname
    exact ⟨isNameText_of_identifier? hidentifier, text, htext, hidentifier,
      isRaw_iff_of_identifier? hidentifier⟩
  · have hmem : f.name ∈ s.origin :: s.generated :: s.identifiers :=
      List.mem_cons_of_mem _ (List.mem_cons_of_mem _
        (List.mem_append_left _ (List.mem_map_of_mem hf)))
    obtain ⟨text, -, hidentifier⟩ := exists_nameText h hmem
    have hword := (isNameText_of_identifier? hidentifier).word
    exact ⟨identifier?_columnConstant hword, identifier?_columnConstant_of_isRaw hword⟩

/-- An entity whose name is raw behind a blank. -/
def rawArticle : Description := { article with name := " r#type" }

theorem exists_build_rawArticle : ∃ s, Schema.build rawArticle = .ok s ∧ s.origin = "r#type" ∧
    s.generated = "r#typeTable" ∧ s.storable.map StoredField.name = ["uuid", "title"] := by
  have hok : (Schema.build rawArticle).toOption.map (fun s =>
      (s.origin, s.generated, s.storable.map StoredField.name)) =
        some ("r#type", "r#typeTable", ["uuid", "title"]) := by decide +kernel
  obtain ⟨s, hs, hvalues⟩ := Option.map_eq_some_iff.mp hok
  obtain ⟨horigin, hrest⟩ := Prod.mk.inj hvalues
  exact ⟨s, toOption_eq_some.mp hs, horigin, Prod.mk.inj hrest⟩

theorem names_of_build_rawArticle : ∃ s, Schema.build rawArticle = .ok s ∧
    IsNameText s.origin.toList ∧ ∀ f ∈ s.storable, identifier? f.constant = some f.constant := by
  obtain ⟨s, hs, -, -, hstorable⟩ := exists_build_rawArticle
  obtain ⟨-, hnames, hconstants⟩ := names_of_build hs
  have hplain : ∀ name ∈ ["uuid", "title"], ¬ ['r', '#'] <+: name.toList := by decide
  refine ⟨s, hs, (hnames s.origin List.mem_cons_self).1, fun f hf => ?_⟩
  have hname : f.name ∈ ["uuid", "title"] := hstorable ▸ List.mem_map_of_mem hf
  exact (hconstants f hf).1 (hplain f.name hname)

theorem isRaw_of_build : identifier? " r#type" = some "r#type" ∧
    ∃ s, Schema.build rawArticle = .ok s ∧ IsRaw s.origin ∧ IsRaw s.generated := by
  obtain ⟨s, hs, horigin, hgenerated, -⟩ := exists_build_rawArticle
  have hraw : ∀ name ∈ ["r#type", "r#typeTable"], ['r', '#'] <+: name.toList := by decide
  refine ⟨by decide, s, hs, ?_, ?_⟩
  · rw [horigin]
    exact hraw _ List.mem_cons_self
  · rw [hgenerated]
    exact hraw _ (List.mem_cons_of_mem _ List.mem_cons_self)

end EntityTable.Entity
