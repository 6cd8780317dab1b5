import EntityTable.Proofs.Text.CodePointSet
import EntityTable.Source.Lexer
import Mathlib.Data.Bool.AllAny
import Mathlib.Data.List.TakeWhile
import Mathlib.Data.Nat.Digits.Defs

/-! # Tokens at the start of a text

What the lexer cuts off a text that starts with a word, a punctuation character, a number or a
quoted text. A word or a number is read as far as its characters go, so `Stops` says how a text may
go on: with one of the characters that end words in expressions. A point after a number would be
that of a float, which `EndsNumber` excludes. -/

namespace EntityTable.Source.Lexer

open EntityTable.Text

/-! ### Characters -/

/-- The characters by which a text may go on after a word. -/
def stops : List Char := [' ', '(', ')', ',', '.', ':', '<', '>', '?', '|']

/-- The text ends or goes on with such a character. -/
def Stops (text : List Char) : Prop := ∀ c ∈ text.head?, c ∈ stops

theorem stops_nil : Stops [] := fun _ h => by cases h

theorem stops_cons {c : Char} {rest : List Char} (h : c ∈ stops) : Stops (c :: rest) :=
  fun d hd => by cases hd; exact h

theorem not_continue_of_stop : ∀ c ∈ stops, Identifier.isContinue c = false :=
  List.all_iff_forall_prop.mp (by decide)

theorem not_start_of_stop : ∀ c ∈ stops, Identifier.isStart c = false :=
  List.all_iff_forall_prop.mp (by decide)

variable {c : Char} {cs rest : List Char}

/-- Neither a blank nor a mark of direction starts a word. -/
theorem isSeparator_eq_false_of_isStart (h : Identifier.isStart c = true) :
    isSeparator c = false := by
  have hspans : ∀ p ∈ CodePointSet.spans blankTable.changes, ∀ n < p.2 - p.1,
      Identifier.isStart (Char.ofNat (p.1 + n)) = false := by decide +kernel
  have hmark (n : Nat) (hn : Identifier.isStart (Char.ofNat n) = false) :
      (c.toNat == n) = false := by
    refine beq_false_of_ne fun heq => ?_
    rw [← heq, Char.ofNat_toNat, h] at hn
    cases hn
  have hblank : isBlank c = false := by
    by_contra hblank
    obtain ⟨p, hp, hfirst, hlast⟩ := CodePointSet.exists_span_of_contains (by decide) (by decide)
      (Bool.not_eq_false _ ▸ hblank : (CodePointSet.mk blankTable.changes).contains c = true)
    have hstart := hspans p hp (c.toNat - p.1) (by omega)
    rw [Nat.add_sub_cancel' hfirst, Char.ofNat_toNat, h] at hstart
    cases hstart
  rw [isSeparator, hblank, hmark 0x200e (by decide +kernel), hmark 0x200f (by decide +kernel)]
  rfl

/-! ### Words -/

/-- A word as it is spelled, plain or raw. -/
inductive IsWord : List Char → Prop
  | plain {c : Char} {cs : List Char} (hstart : Identifier.isStart c = true)
      (hrest : ∀ d ∈ cs, Identifier.isContinue d = true) : IsWord (c :: cs)
  | raw {c : Char} {cs : List Char} (hstart : Identifier.isStart c = true)
      (hrest : ∀ d ∈ cs, Identifier.isContinue d = true)
      (hraw : neverRaw.contains (String.ofList (c :: cs)) = false) : IsWord ('r' :: '#' :: c :: cs)

/-- The text is a plain word, as its characters tell. -/
def isPlainWord : List Char → Bool
  | [] => false
  | c :: cs => Identifier.isStart c && cs.all Identifier.isContinue

theorem IsWord.of_isPlainWord {w : List Char} (h : isPlainWord w = true) : IsWord w := by
  cases w with
  | nil => cases h
  | cons c cs =>
    obtain ⟨hstart, hrest⟩ := Bool.and_eq_true_iff.mp h
    exact .plain hstart (List.all_eq_true.mp hrest)

theorem IsWord.exists_cons {w : List Char} (h : IsWord w) :
    ∃ c cs, w = c :: cs ∧ Identifier.isStart c = true := by
  cases h with
  | plain hstart _ => exact ⟨_, _, rfl, hstart⟩
  | raw _ _ _ => exact ⟨_, _, rfl, rfl⟩

theorem word?_eq_some {w : List Char} (h : word? cs = some (w, rest)) : ∃ c tail, w = c :: tail ∧
    Identifier.isStart c = true ∧ ∀ d ∈ tail, Identifier.isContinue d = true := by
  cases cs with
  | nil => cases h
  | cons c cs =>
    rw [word?] at h
    split at h
    · rename_i hstart
      cases h
      exact ⟨c, _, rfl, hstart, fun d hd => List.mem_takeWhile_imp hd⟩
    · cases h

/-- **What is read as an identifier is a word.** -/
theorem isWord_of_identifier? {name : String} (h : identifier? cs = some (name, rest)) :
    IsWord name.toList := by
  rw [identifier?] at h
  split at h
  · cases h
  · unfold anyWord? at h
    split at h
    · obtain ⟨⟨w, after⟩, hword, h⟩ := Option.bind_eq_some_iff.mp h
      obtain ⟨c, tail, rfl, hstart, htail⟩ := word?_eq_some hword
      have hname : (if neverRaw.contains (String.ofList (c :: tail)) then none
          else some ("r#" ++ String.ofList (c :: tail), after)) = some (name, rest) := h
      by_cases hraw : neverRaw.contains (String.ofList (c :: tail)) = true
      · rw [if_pos hraw] at hname
        cases hname
      · rw [if_neg hraw] at hname
        cases hname
        rw [String.toList_append, String.toList_ofList, String.toList_ofList]
        exact .raw hstart htail (Bool.eq_false_of_not_eq_true hraw)
    · obtain ⟨⟨w, after⟩, hword, h⟩ := Option.map_eq_some_iff.mp h
      obtain ⟨c, tail, rfl, hstart, htail⟩ := word?_eq_some hword
      cases h
      rw [String.toList_ofList]
      exact .plain hstart htail

/-- The characters that make something else of the letters before them. -/
def literalMarks : List Char := ['\x22', '\x27', '#']

/-- The text does not go on with a word, nor so that the letters before it are no word. -/
def EndsWord (text : List Char) : Prop :=
  ∀ c ∈ text.head?, Identifier.isContinue c = false ∧ c ∉ literalMarks

theorem Stops.endsWord (h : Stops rest) : EndsWord rest := by
  have hstops : ∀ c ∈ stops, Identifier.isContinue c = false ∧ c ∉ literalMarks :=
    List.all_iff_forall_prop.mp (by decide)
  exact fun c hc => hstops c (h c hc)

/-- The letters of a word after its first one, and what follows it. -/
def WordTail (text : List Char) : Prop :=
  ∃ cs rest, text = cs ++ rest ∧ (∀ d ∈ cs, Identifier.isContinue d = true) ∧ EndsWord rest

theorem WordTail.ne (h : WordTail (c :: rest)) {d : Char} (hd : d ∈ literalMarks) : c ≠ d := by
  have hmarks : ∀ d ∈ literalMarks, Identifier.isContinue d = false :=
    List.all_iff_forall_prop.mp (by decide)
  rintro rfl
  obtain ⟨cs, after, heq, hcs, hends⟩ := h
  cases cs with
  | nil => exact (hends c (by rw [← List.nil_append after, ← heq]; rfl)).2 hd
  | cons e cs =>
    cases heq
    have hcontinue := hmarks c hd
    rw [hcs c List.mem_cons_self] at hcontinue
    cases hcontinue

theorem WordTail.tail (h : WordTail (c :: rest)) (hc : Identifier.isContinue c = true) :
    WordTail rest := by
  obtain ⟨cs, after, heq, hcs, hends⟩ := h
  cases cs with
  | nil =>
    have hfalse := (hends c (by rw [← List.nil_append after, ← heq]; rfl)).1
    rw [hc] at hfalse
    cases hfalse
  | cons e cs =>
    cases heq
    exact ⟨cs, after, rfl, fun d hd => hcs d (List.mem_cons_of_mem _ hd), hends⟩

theorem raw?_eq_none {form : QuotedForm}
    (h : ∀ d ∈ (cs.dropWhile (· == '#')).head?, d ≠ '\x22') : raw? form cs = none := by
  unfold raw?
  split
  · rename_i body heq
    rw [heq] at h
    exact absurd rfl (h _ rfl)
  · rfl

theorem WordTail.raw?_eq_none (h : WordTail rest) {form : QuotedForm} : raw? form rest = none := by
  refine Lexer.raw?_eq_none fun d hd => ?_
  cases rest with
  | nil => cases hd
  | cons c rest =>
    have hmark : (c == '#') = false := beq_false_of_ne (h.ne (by decide))
    rw [List.dropWhile_cons_of_neg (by simp [hmark])] at hd
    cases hd
    exact h.ne (by decide)

theorem digits?_eq_none (h : c.isDigit = false) : digits? 10 true (c :: rest) = none := by
  have hdigit : ¬ ('0' ≤ c ∧ c ≤ '9') := by
    simpa [Char.isDigit, Char.le_def] using h
  unfold digits?
  split
  · rfl
  · unfold Literal.hexValue?
    rw [if_neg hdigit]
    split
    · rename_i digit heq
      have hten : 10 ≤ digit := by
        split at heq
        · rename_i hletter
          cases heq
          have : 'a'.toNat ≤ c.toNat := hletter.1
          have h97 : 'a'.toNat = 97 := rfl
          omega
        · split at heq
          · rename_i hletter
            cases heq
            have : 'A'.toNat ≤ c.toNat := hletter.1
            have h65 : 'A'.toNat = 65 := rfl
            omega
          · cases heq
      rw [if_neg (by omega), if_neg (by omega)]
      rfl
    · rfl

/-- A number starts with a digit. -/
theorem number_eq_none (h : c.isDigit = false) :
    (float? (c :: rest) <|> int? (c :: rest)) = none := by
  have hfloat : float? (c :: rest) = none := by
    rw [float?, floatDigits?, h]
    rfl
  have hint : int? (c :: rest) = none := by
    unfold int?
    split
    · rename_i heq; cases heq; cases h
    · rename_i heq; cases heq; cases h
    · rename_i heq; cases heq; cases h
    · rw [digits?_eq_none h]; rfl
  rw [hfloat, hint]
  rfl

theorem isDigit_eq_false_of_isStart (h : Identifier.isStart c = true) : c.isDigit = false := by
  have hdigits : ∀ n < 10, Identifier.isStart (Char.ofNat (48 + n)) = false := by decide
  by_contra hdigit
  simp only [Bool.not_eq_false, Char.isDigit, Bool.and_eq_true, decide_eq_true_eq, ge_iff_le,
    UInt32.le_iff_toNat_le] at hdigit
  have hvalue : 48 ≤ c.toNat ∧ c.toNat ≤ 57 := hdigit
  have hstart := hdigits (c.toNat - 48) (by omega)
  rw [Nat.add_sub_cancel' hvalue.1, Char.ofNat_toNat, h] at hstart
  cases hstart

/-- The characters that start tokens other than words and numbers. -/
def otherStarts : List Char :=
  '\x22' :: '(' :: ')' :: '[' :: ']' :: '\x7b' :: '\x7d' :: punctuation

theorem mem_otherStarts (h : c ∈ punctuation) : c ∈ otherStarts :=
  List.mem_append_right ['\x22', '(', ')', '[', ']', '\x7b', '\x7d'] h

theorem ne_of_isStart (h : Identifier.isStart c = true) : ∀ d ∈ otherStarts, c ≠ d := by
  have hothers : ∀ d ∈ otherStarts, Identifier.isStart d = false :=
    List.all_iff_forall_prop.mp (by decide)
  rintro d hd rfl
  rw [hothers c hd] at h
  cases h

theorem afterLiteral?_word (hstart : Identifier.isStart c = true) (htail : WordTail rest) :
    afterLiteral? (c :: rest) = none := by
  unfold afterLiteral?
  split
  · rename_i heq; cases heq; cases hstart
  · rename_i heq; cases heq; exact htail.raw?_eq_none
  · rename_i heq; cases heq; exact absurd rfl (htail.ne (by decide))
  · rename_i heq; cases heq; exact (htail.tail (by decide)).raw?_eq_none
  · rename_i heq; cases heq; exact absurd rfl (htail.ne (by decide))
  · rename_i heq; cases heq; exact absurd rfl (htail.ne (by decide))
  · rename_i heq; cases heq; exact (htail.tail (by decide)).raw?_eq_none
  · rename_i heq; cases heq; cases hstart
  · exact number_eq_none (isDigit_eq_false_of_isStart hstart)

theorem punct?_word (hstart : Identifier.isStart c = true) : punct? (c :: rest) = none := by
  have hpunct : startsPunct (c :: rest) = false := by
    have hne := ne_of_isStart hstart
    unfold startsPunct
    split
    · rfl
    · rfl
    · rename_i heq
      cases heq
      rw [List.contains_eq_mem, decide_eq_false_iff_not]
      exact fun hmem => hne c (mem_otherStarts hmem) rfl
    · rfl
  unfold punct?
  rw [hpunct]
  rfl

theorem WordTail.not_isPrefixOf (h : WordTail rest) {d : Char} (hd : d ∈ literalMarks)
    (ds : List Char) : (d :: ds).isPrefixOf rest = false := by
  cases rest with
  | nil => rfl
  | cons c rest =>
    rw [List.isPrefixOf_cons_cons, Bool.and_eq_false_iff]
    exact Or.inl (beq_false_of_ne (h.ne hd).symm)

/-- Neither a mark nor a quote follows the letters of a word. -/
theorem noLiteral_word (htail : WordTail rest) :
    literalStarts.any (List.isPrefixOf · (c :: rest)) = false := by
  have hquote := htail.not_isPrefixOf (d := '\x22') (by decide)
  have hsingle := htail.not_isPrefixOf (d := '\x27') (by decide)
  have hmark := htail.not_isPrefixOf (d := '#') (by decide)
  have hsecond (d : Char) (hd : d ∈ literalMarks) (ds : List Char) :
      ('r' :: d :: ds).isPrefixOf rest = false := by
    cases rest with
    | nil => rfl
    | cons e rest =>
      rw [List.isPrefixOf_cons_cons, Bool.and_eq_false_iff]
      by_cases he : 'r' = e
      · subst he
        exact Or.inr ((htail.tail (by decide)).not_isPrefixOf hd ds)
      · exact Or.inl (beq_false_of_ne he)
  have hquote' := hsecond '\x22' (by decide)
  have hmark' := hsecond '#' (by decide)
  simp only [literalStarts, List.map_cons, List.map_nil, List.any_cons, List.any_nil]
  simp [List.isPrefixOf_cons_cons, hquote, hsingle, hmark, hquote', hmark']

theorem takeWhile_word (hcs : ∀ d ∈ cs, Identifier.isContinue d = true) (hends : EndsWord rest) :
    (cs ++ rest).takeWhile Identifier.isContinue = cs ∧
      (cs ++ rest).dropWhile Identifier.isContinue = rest := by
  have hend : rest.takeWhile Identifier.isContinue = [] ∧
      rest.dropWhile Identifier.isContinue = rest := by
    cases rest with
    | nil => exact ⟨rfl, rfl⟩
    | cons c rest =>
      have hc : Identifier.isContinue c = false := (hends c rfl).1
      exact ⟨List.takeWhile_cons_of_neg (by simp [hc]), List.dropWhile_cons_of_neg (by simp [hc])⟩
  rw [List.takeWhile_append_of_pos hcs, List.dropWhile_append_of_pos hcs, hend.1, hend.2,
    List.append_nil]
  exact ⟨rfl, rfl⟩

theorem word?_append (hstart : Identifier.isStart c = true)
    (hcs : ∀ d ∈ cs, Identifier.isContinue d = true) (hends : EndsWord rest) :
    word? (c :: cs ++ rest) = some (c :: cs, rest) := by
  obtain ⟨htake, hdrop⟩ := takeWhile_word hcs hends
  rw [List.cons_append, word?, if_pos hstart, htake, hdrop]

theorem identifier?_word {w : List Char} (hw : IsWord w) (hends : EndsWord rest) :
    identifier? (w ++ rest) = some (String.ofList w, rest) := by
  cases hw with
  | @plain c cs hstart hcs =>
    have htail : WordTail (cs ++ rest) := ⟨cs, rest, rfl, hcs, hends⟩
    have hany : anyWord? (c :: (cs ++ rest)) = (word? (c :: (cs ++ rest))).map
        fun found => (String.ofList found.1, found.2) := by
      unfold anyWord?
      split
      · rename_i heq
        obtain ⟨-, hmark⟩ := List.cons.inj heq
        rw [hmark] at htail
        exact absurd rfl (htail.ne (by decide))
      · rfl
    rw [identifier?, List.cons_append, noLiteral_word htail, hany]
    rw [← List.cons_append, word?_append hstart hcs hends]
    rfl
  | @raw c cs hstart hcs hraw =>
    have hne := ne_of_isStart hstart
    have hliteral :
        literalStarts.any (List.isPrefixOf · ('r' :: '#' :: c :: (cs ++ rest))) = false := by
      have hquote : c ≠ '\x22' := hne _ (by decide)
      have hmark : c ≠ '#' := hne _ (by decide)
      simp only [literalStarts, List.map_cons, List.map_nil, List.any_cons, List.any_nil]
      simp [List.isPrefixOf_cons_cons, hquote.symm, hmark.symm]
    have hword := word?_append hstart hcs hends
    rw [identifier?, List.cons_append, List.cons_append, List.cons_append, hliteral]
    show (word? (c :: cs ++ rest)).bind _ = _
    rw [hword]
    show (if neverRaw.contains (String.ofList (c :: cs)) then none else _) = _
    have hmark : "r#" = String.ofList ['r', '#'] := rfl
    rw [hraw, if_neg Bool.false_ne_true, hmark, ← String.ofList_append]
    rfl

theorem leaf?_word {w : List Char} (hw : IsWord w) (hends : EndsWord rest) :
    leaf? (w ++ rest) = some (.word (String.ofList w), rest) := by
  have hliteral : afterLiteral? (w ++ rest) = none ∧ punct? (w ++ rest) = none := by
    cases hw with
    | @plain c cs hstart hcs =>
      exact ⟨afterLiteral?_word hstart ⟨cs, rest, rfl, hcs, hends⟩, punct?_word hstart⟩
    | @raw c cs hstart hcs hraw =>
      refine ⟨raw?_eq_none fun d hd => ?_, punct?_word rfl⟩
      have hmark : (c == '#') = false := beq_false_of_ne (ne_of_isStart hstart _ (by decide))
      have hdrop : ('#' :: c :: (cs ++ rest)).dropWhile (· == '#') = c :: (cs ++ rest) := by
        rw [List.dropWhile_cons_of_pos rfl, List.dropWhile_cons_of_neg (by simp [hmark])]
      have hc : d ∈ (('#' :: c :: (cs ++ rest)).dropWhile (· == '#')).head? := hd
      rw [hdrop] at hc
      cases hc
      exact ne_of_isStart hstart _ (by decide)
  rw [leaf?, hliteral.1, hliteral.2]
  show (identifier? (w ++ rest)).map _ = _
  rw [identifier?_word hw hends]
  rfl

/-! ### Punctuation -/

theorem afterLiteral?_eq_none {c : Char} (hdigit : c.isDigit = false)
    (hquote : c ≠ '\x22' ∧ c ≠ '\x27') (hletter : c ≠ 'r' ∧ c ≠ 'b' ∧ c ≠ 'c') :
    afterLiteral? (c :: rest) = none := by
  obtain ⟨hdouble, hsingle⟩ := hquote
  obtain ⟨hr, hb, hc⟩ := hletter
  unfold afterLiteral?
  split <;> first | (rename_i heq; cases heq; contradiction) | exact number_eq_none hdigit

theorem leaf?_punct {c : Char} (hc : c ∈ punctuation) (hquote : c ≠ '\x27') (hslash : c ≠ '/') :
    leaf? (c :: rest) = some (.punct c (startsPunct rest), rest) := by
  have hfacts : ∀ d ∈ punctuation,
      d.isDigit = false ∧ d ≠ '\x22' ∧ d ≠ 'r' ∧ d ≠ 'b' ∧ d ≠ 'c' :=
    List.all_iff_forall_prop.mp (by decide)
  obtain ⟨hdigit, htext, hletter⟩ := hfacts c hc
  have hliteral : afterLiteral? (c :: rest) = none :=
    afterLiteral?_eq_none hdigit ⟨htext, hquote⟩ hletter
  have hstarts : startsPunct (c :: rest) = true := by
    unfold startsPunct
    split
    · rename_i heq; cases heq; exact absurd rfl hslash
    · rename_i heq; cases heq; exact absurd rfl hslash
    · rename_i heq; cases heq; exact List.contains_iff_mem.mpr hc
    · rename_i heq; cases heq
  have hpunct : punct? (c :: rest) = some (.punct c (startsPunct rest), rest) := by
    unfold punct?
    rw [hstarts, if_pos rfl]
    split
    · rename_i heq; cases heq; exact absurd rfl hquote
    · rename_i heq; cases heq; rfl
    · rename_i heq; cases heq
  rw [leaf?, hliteral, hpunct]

/-! ### Numbers -/

/-- A number without a point. -/
structure IsNumber (cs : List Char) : Prop where
  ne_nil : cs ≠ []
  digits : ∀ d ∈ cs, d.isDigit = true

/-- A text that goes on after a number: not with a point, unless a word follows it. -/
def EndsNumber (text : List Char) : Prop :=
  Stops text ∧ ∀ after, text = '.' :: after → ∃ c ∈ after.head?, Identifier.isStart c = true

theorem digits?_append : ∀ {cs : List Char} {empty : Bool}, (∀ d ∈ cs, d.isDigit = true) →
    (empty = true → cs ≠ []) → Stops rest → digits? 10 empty (cs ++ rest) = some rest
  | [], empty, _, hempty, hstops => by
    cases empty with
    | true => exact absurd rfl (hempty rfl)
    | false =>
      cases rest with
      | nil => rfl
      | cons c rest =>
        have hstop : ∀ d ∈ stops, d ≠ '_' ∧ Literal.hexValue? d = none :=
          List.all_iff_forall_prop.mp (by decide)
        obtain ⟨hline, hhex⟩ := hstop c (hstops c rfl)
        rw [List.nil_append, digits?, if_neg hline, hhex]
        rfl
  | d :: cs, empty, hdigits, _, hstops => by
    have hd : '0' ≤ d ∧ d ≤ '9' := by
      simpa [Char.isDigit, Char.le_def] using hdigits d List.mem_cons_self
    have hline : d ≠ '_' := by
      rintro rfl
      exact absurd hd.2 (by decide)
    have hvalue : d.toNat - 48 < 10 := by
      have : d.toNat ≤ '9'.toNat := hd.2
      have h57 : '9'.toNat = 57 := rfl
      omega
    rw [List.cons_append, digits?, if_neg hline, Literal.hexValue?, if_pos hd]
    show (if d.toNat - 48 < 10 then _ else _) = _
    rw [if_pos hvalue]
    exact digits?_append (fun e he => hdigits e (List.mem_cons_of_mem _ he)) (by simp) hstops

theorem readBefore_append (cs rest : List Char) : readBefore (cs ++ rest) rest = cs := by
  rw [readBefore, List.length_append, Nat.add_sub_cancel, List.take_left]

theorem head_of_digits (hdigits : ∀ d ∈ cs, d.isDigit = true) (hstops : Stops rest) :
    ∀ d ∈ (cs ++ rest).head?, d.isDigit = true ∨ d ∈ stops := by
  cases cs with
  | nil => exact fun d hd => Or.inr (hstops d hd)
  | cons c cs =>
    intro d hd
    cases hd
    exact Or.inl (hdigits c List.mem_cons_self)

theorem dropSuffix_of_stops (hstops : Stops rest) : dropSuffix rest = rest := by
  cases rest with
  | nil => rfl
  | cons c rest =>
    rw [dropSuffix, word?, not_start_of_stop c (hstops c rfl), if_neg Bool.false_ne_true]

theorem int?_append (hcs : IsNumber cs) (hstops : Stops rest) :
    int? (cs ++ rest) = some rest := by
  have hbase : ∀ d ∈ ['x', 'o', 'b'], d.isDigit = false ∧ d ∉ stops :=
    List.all_iff_forall_prop.mp (by decide)
  have hsecond (c d : Char) (after : List Char) (hd : d ∈ ['x', 'o', 'b']) :
      cs ++ rest ≠ c :: d :: after := by
    obtain ⟨e, tail, rfl⟩ := List.exists_cons_of_ne_nil hcs.ne_nil
    intro heq
    have htail : tail ++ rest = d :: after := (List.cons.inj heq).2
    obtain ⟨hdigit, hstop⟩ := hbase d hd
    rcases head_of_digits (fun d hd => hcs.digits d (List.mem_cons_of_mem _ hd)) hstops d
      (by rw [htail]; rfl) with h | h
    · rw [hdigit] at h; cases h
    · exact hstop h
  have hend : endNumber? rest = some rest := by
    cases rest with
    | nil => rfl
    | cons c rest =>
      rw [endNumber?, dropSuffix_of_stops hstops, wordBreak?,
        not_continue_of_stop c (hstops c rfl), if_neg Bool.false_ne_true]
  unfold int?
  split
  · rename_i heq; exact absurd heq (hsecond _ _ _ (by decide))
  · rename_i heq; exact absurd heq (hsecond _ _ _ (by decide))
  · rename_i heq; exact absurd heq (hsecond _ _ _ (by decide))
  · rw [digits?_append hcs.digits (fun _ => hcs.ne_nil) hstops]
    exact hend

theorem float?_append (hcs : IsNumber cs) (hend : EndsNumber rest) :
    float? (cs ++ rest) = none := by
  have hdrop : (cs ++ rest).dropWhile isDigitOrLine = rest := by
    rw [List.dropWhile_append_of_pos fun d hd => by simp [isDigitOrLine, hcs.digits d hd]]
    cases rest with
    | nil => rfl
    | cons c rest =>
      have hstop : ∀ d ∈ stops, isDigitOrLine d = false :=
        List.all_iff_forall_prop.mp (by decide)
      exact List.dropWhile_cons_of_neg (by simp [hstop c (hend.1 c rfl)])
  have hletter : ∀ d ∈ stops, d ≠ 'e' ∧ d ≠ 'E' :=
    List.all_iff_forall_prop.mp (by decide)
  obtain ⟨c, tail, rfl⟩ := List.exists_cons_of_ne_nil hcs.ne_nil
  have hfloat : floatDigits? (c :: tail ++ rest) = none := by
    rw [List.cons_append, floatDigits?, hcs.digits c List.mem_cons_self, if_pos rfl,
      ← List.cons_append, hdrop]
    split
    · obtain ⟨d, hd, hstart⟩ := hend.2 _ rfl
      rw [hd, Option.any_some, hstart, Bool.or_true]
      rfl
    · exact absurd rfl (hletter _ (hend.1 _ rfl)).1
    · exact absurd rfl (hletter _ (hend.1 _ rfl)).2
    · rfl
  rw [float?, hfloat]
  rfl

theorem leaf?_number (hcs : IsNumber cs) (hend : EndsNumber rest) :
    leaf? (cs ++ rest) = some (.literal (String.ofList cs), rest) := by
  have hliteral : afterLiteral? (cs ++ rest) = some rest := by
    obtain ⟨c, tail, rfl⟩ := List.exists_cons_of_ne_nil hcs.ne_nil
    have hc := hcs.digits c List.mem_cons_self
    unfold afterLiteral?
    split <;> first | (rename_i heq; obtain ⟨rfl, -⟩ := List.cons.inj heq; cases hc) | skip
    rw [float?_append hcs hend]
    exact int?_append hcs hend.1
  rw [leaf?, hliteral]
  show some (Token.literal (String.ofList (readBefore (cs ++ rest) rest)), rest) = _
  rw [readBefore_append]

/-! ### Quoted texts -/

theorem hexValue?_digitChar : ∀ d < 16, Literal.hexValue? (Nat.digitChar d) = some d ∧
    Nat.digitChar d ≠ '_' ∧ Nat.digitChar d ≠ '\x7d' := by
  decide

/-- A digit that is read changes the value read so far. -/
theorem afterCodePoint?_digitChar {d digits value : Nat} (hd : d < 16) (hdigits : digits < 6) :
    afterCodePoint? digits value (Nat.digitChar d :: rest) =
      afterCodePoint? (digits + 1) (value * 16 + d) rest := by
  obtain ⟨hvalue, hline, hclose⟩ := hexValue?_digitChar d hd
  rw [afterCodePoint?.eq_def]
  split
  · rename_i heq; cases heq
  · rename_i heq; exact absurd (List.cons.inj heq).1 hline
  · rename_i heq; exact absurd (List.cons.inj heq).1 hclose
  · rename_i heq
    obtain ⟨rfl, rfl⟩ := List.cons.inj heq
    rw [hvalue]
    show (if digits = 6 then none else _) = _
    rw [if_neg (by omega)]

theorem afterCodePoint?_hexDigits {n digits : Nat}
    (hlength : digits + (Literal.hexDigits n).length ≤ 6) :
    afterCodePoint? digits 0 (Literal.hexDigits n ++ rest) =
      afterCodePoint? (digits + (Literal.hexDigits n).length) n rest := by
  induction n using Nat.strong_induction_on generalizing rest with
  | h n ih =>
    unfold Literal.hexDigits at *
    rcases Nat.lt_or_ge n 16 with hn | hn
    · rw [Nat.toDigits_of_lt_base hn] at hlength ⊢
      simp only [List.length_singleton, List.singleton_append] at hlength ⊢
      rw [afterCodePoint?_digitChar hn (by omega), Nat.zero_mul, Nat.zero_add]
    · rw [Nat.toDigits_of_base_le (by decide) hn] at hlength ⊢
      simp only [List.length_append, List.length_singleton] at hlength ⊢
      rw [List.append_assoc, ih (n / 16) (by omega) (by omega), List.singleton_append,
        afterCodePoint?_digitChar (Nat.mod_lt _ (by decide)) (by omega), Nat.div_add_mod']
      rfl

theorem afterEscape?_escapeCode (c : Char) (rest : List Char) :
    afterEscape? .text ('u' :: '\x7b' :: (Literal.hexDigits c.toNat ++ '\x7d' :: rest)) =
      some rest := by
  have hvalid : c.toNat < 0xd800 ∨ 0xdfff < c.toNat ∧ c.toNat < 0x110000 := c.valid
  have hlength : (Literal.hexDigits c.toNat).length ≤ 6 :=
    Nat.toDigits_length 16 _ 6 (by decide) (by omega)
  have hpos : (Literal.hexDigits c.toNat).length ≠ 0 := Nat.length_toDigits_pos.ne'
  have hcode : afterCodePoint? 0 0 (Literal.hexDigits c.toNat ++ '\x7d' :: rest) =
      some (c.toNat, rest) := by
    rw [afterCodePoint?_hexDigits (by omega), afterCodePoint?, if_pos ⟨by omega, hvalid⟩]
  show (afterCodePoint? 0 0 _).bind _ = _
  rw [hcode]
  rfl

theorem afterQuoted?_escapeChar (fuel : Nat) (c : Char) (rest : List Char) :
    afterQuoted? .text (fuel + 1) (Literal.escapeChar c ++ rest) =
      afterQuoted? .text fuel rest := by
  unfold Literal.escapeChar
  split
  · rename_i hc
    rcases hc with rfl | rfl <;> rfl
  split
  · rfl
  split
  · rfl
  split
  · rfl
  split
  · have hcode : Literal.escapeCode c ++ rest =
        '\x5c' :: 'u' :: '\x7b' :: (Literal.hexDigits c.toNat ++ '\x7d' :: rest) := by
      simp [Literal.escapeCode]
    rw [hcode]
    show (afterEscape? _ _).bind _ = _
    rw [afterEscape?_escapeCode]
    rfl
  · rw [List.singleton_append, afterQuoted?.eq_def]
    split <;> simp_all [QuotedForm.admits, QuotedForm.text]

theorem afterQuoted?_escape : ∀ {cs rest : List Char} {fuel : Nat}, cs.length < fuel →
    afterQuoted? .text fuel (Literal.escape cs ++ '\x22' :: rest) = some rest
  | [], _, fuel + 1, _ => rfl
  | c :: cs, rest, fuel + 1, hfuel => by
    have hrest : afterQuoted? .text fuel (Literal.escape cs ++ '\x22' :: rest) = some rest :=
      afterQuoted?_escape (Nat.lt_of_succ_lt_succ hfuel)
    rw [Literal.escape, List.append_assoc, ← hrest]
    split
    · split <;> rfl
    · exact afterQuoted?_escapeChar fuel c _

theorem length_le_escape : ∀ cs : List Char, cs.length ≤ (Literal.escape cs).length
  | [] => Nat.le_refl 0
  | c :: cs => by
    have hchar : 1 ≤ (Literal.escapeChar c).length := by
      unfold Literal.escapeChar Literal.escapeCode
      split_ifs <;> simp
    have hrest := length_le_escape cs
    rw [Literal.escape, List.length_append, List.length_cons]
    split_ifs
    · simp only [List.length_cons]
      omega
    · simp only [List.length_cons]
      omega
    · omega

theorem leaf?_quote (text : String) (hstops : Stops rest) :
    leaf? ((Literal.quote text).toList ++ rest) = some (.literal (Literal.quote text), rest) := by
  have htext : (Literal.quote text).toList ++ rest =
      '\x22' :: (Literal.escape text.toList ++ '\x22' :: rest) := by
    simp [Literal.quote]
  have hlength := length_le_escape text.toList
  have hliteral :
      afterLiteral? ('\x22' :: (Literal.escape text.toList ++ '\x22' :: rest)) = some rest := by
    show (afterQuoted? .text _ _).map dropSuffix = _
    rw [afterQuoted?_escape (by simp only [List.length_append]; omega), Option.map_some,
      dropSuffix_of_stops hstops]
  rw [leaf?, htext, hliteral, ← htext]
  show some (Token.literal (String.ofList (readBefore _ rest)), rest) = _
  rw [readBefore_append, String.ofList_toList]

end EntityTable.Source.Lexer
