import EntityTable.Proofs.Source.Comments

/-! # Gaps between tokens

What the lexer drops before a token is a gap: blanks, lines of comment with their ends, and block
comments, in which others may be nested. Documentation comments are none of these. Behind the last
token a line of comment may also lack its end. The scanner drops exactly these texts (`skip_gap` and
`exists_gap`, `skip_eq_nil_iff`). -/

namespace EntityTable.Source.Lexer

open EntityTable.Text

/-! ### Comments -/

/-- What stands in a block comment from behind its opening to its end. -/
inductive IsBlockBody : List Char → Prop
  | close : IsBlockBody ['*', '/']
  | nested {inner rest : List Char} (hinner : IsBlockBody inner) (hrest : IsBlockBody rest) :
      IsBlockBody ('/' :: '*' :: (inner ++ rest))
  | char {c : Char} {rest : List Char} (hopen : ¬ ['/', '*'] <+: c :: rest)
      (hclose : ¬ ['*', '/'] <+: c :: rest) (hrest : IsBlockBody rest) : IsBlockBody (c :: rest)

/-- What stands in a line behind two slashes is no documentation. -/
def IsPlainLine (line : List Char) : Prop :=
  '\n' ∉ line ∧ ¬ ['!'] <+: line ∧ (['/'] <+: line → ['/', '/'] <+: line)

/-- What stands in a block comment behind its opening is no documentation. -/
def IsPlainBody (body : List Char) : Prop :=
  IsBlockBody body ∧ ¬ ['!'] <+: body ∧
    (['*'] <+: body → ['*', '*'] <+: body ∨ ['*', '/'] <+: body)

/-- The text that separates tokens: blanks and comments that are no documentation. -/
inductive IsGap : List Char → Prop
  | nil : IsGap []
  | blank {c : Char} {rest : List Char} (hc : isSeparator c = true) (hrest : IsGap rest) :
      IsGap (c :: rest)
  | line {line rest : List Char} (hline : IsPlainLine line) (hrest : IsGap rest) :
      IsGap ('/' :: '/' :: (line ++ '\n' :: rest))
  | block {body rest : List Char} (hbody : IsPlainBody body) (hrest : IsGap rest) :
      IsGap ('/' :: '*' :: (body ++ rest))

/-- The text that may stand behind the last token. -/
inductive IsLastGap : List Char → Prop
  | gap {text : List Char} (h : IsGap text) : IsLastGap text
  | line {text line : List Char} (h : IsGap text) (hline : IsPlainLine line) :
      IsLastGap (text ++ '/' :: '/' :: line)

variable {c : Char} {cs rest body line gap : List Char} {depth : Nat}

/-! ### Block comments -/

theorem afterBlockComment_open :
    afterBlockComment depth ('/' :: '*' :: rest) = afterBlockComment (depth + 1) rest := by
  rw [afterBlockComment]

theorem afterBlockComment_close : afterBlockComment depth ('*' :: '/' :: rest) =
    if depth ≤ 1 then some rest else afterBlockComment (depth - 1) rest := by
  rw [afterBlockComment]

theorem afterBlockComment_char (hopen : ¬ ['/', '*'] <+: c :: cs)
    (hclose : ¬ ['*', '/'] <+: c :: cs) :
    afterBlockComment depth (c :: cs) = afterBlockComment depth cs := by
  rw [afterBlockComment]
  · rintro rest rfl rfl
    exact hopen ⟨rest, rfl⟩
  · rintro rest rfl rfl
    exact hclose ⟨rest, rfl⟩

theorem IsBlockBody.two_le_length (h : IsBlockBody body) : 2 ≤ body.length := by
  cases h with
  | close => exact Nat.le_refl 2
  | nested => simp
  | char hopen hclose hrest =>
    cases hrest <;> simp

theorem IsBlockBody.prefix_iff (h : IsBlockBody body) (rest : List Char) (a b : Char) :
    [a, b] <+: body ++ rest ↔ [a, b] <+: body :=
  ⟨fun hab => List.prefix_of_prefix_length_le hab (List.prefix_append ..) h.two_le_length,
    fun hab => hab.trans (List.prefix_append ..)⟩

/-- **A block comment is left behind its body**, for the comment around it if there is one. -/
theorem afterBlockComment_append (h : IsBlockBody body) :
    ∀ depth rest, afterBlockComment (depth + 1) (body ++ rest) =
      if depth = 0 then some rest else afterBlockComment depth rest := by
  induction h with
  | close =>
    intro depth rest
    rw [List.cons_append, List.cons_append, List.nil_append, afterBlockComment_close]
    simp
  | @nested inner rest _ _ ihinner ihrest =>
    intro depth after
    rw [List.cons_append, List.cons_append, List.append_assoc, afterBlockComment_open, ihinner,
      if_neg (Nat.succ_ne_zero depth), ihrest]
  | @char c body hopen hclose hrest ih =>
    intro depth rest
    have hbody : IsBlockBody (c :: body) := .char hopen hclose hrest
    rw [List.cons_append, afterBlockComment_char, ih]
    · rwa [← List.cons_append, hbody.prefix_iff]
    · rwa [← List.cons_append, hbody.prefix_iff]

/-- **What is left of a block comment begins with the rest of its body.** -/
theorem exists_blockBody : ∀ {cs : List Char} {depth : Nat},
    afterBlockComment (depth + 1) cs = some rest → ∃ body after, cs = body ++ after ∧
      IsBlockBody body ∧ (if depth = 0 then some after else afterBlockComment depth after) =
        some rest
  | [], depth, h => by cases h
  | [c], depth, h => by
    rw [afterBlockComment_char (by simp) (by simp)] at h
    cases h
  | c :: d :: cs, depth, h => by
    by_cases hopen : ['/', '*'] <+: c :: d :: cs
    · obtain ⟨rfl, rfl⟩ : '/' = c ∧ '*' = d := by simpa using hopen
      rw [afterBlockComment_open] at h
      obtain ⟨inner, middle, rfl, hinner, h⟩ := exists_blockBody h
      rw [if_neg (Nat.succ_ne_zero depth)] at h
      have hlength := hinner.two_le_length
      obtain ⟨body, after, rfl, hbody, h⟩ := exists_blockBody h
      exact ⟨'/' :: '*' :: (inner ++ body), after, by simp, .nested hinner hbody, h⟩
    · by_cases hclose : ['*', '/'] <+: c :: d :: cs
      · obtain ⟨rfl, rfl⟩ : '*' = c ∧ '/' = d := by simpa using hclose
        rw [afterBlockComment_close] at h
        exact ⟨['*', '/'], cs, rfl, .close, by simpa using h⟩
      · rw [afterBlockComment_char hopen hclose] at h
        obtain ⟨body, after, heq, hbody, h⟩ := exists_blockBody h
        have hstarts (a b : Char) : [a, b] <+: c :: body → [a, b] <+: c :: d :: cs := by
          rw [heq]
          exact fun hab => hab.trans ⟨after, rfl⟩
        exact ⟨c :: body, after, by rw [heq]; rfl,
          .char (fun hab => hopen (hstarts _ _ hab)) (fun hab => hclose (hstarts _ _ hab)) hbody, h⟩
termination_by cs => cs.length

theorem length_of_afterBlockComment : ∀ {cs : List Char} {depth : Nat},
    afterBlockComment depth cs = some rest → rest.length < cs.length
  | [], depth, h => by
    rw [afterBlockComment] at h
    cases h
  | [c], depth, h => by
    rw [afterBlockComment_char (by simp) (by simp), afterBlockComment] at h
    cases h
  | c :: d :: cs, depth, h => by
    simp only [List.length_cons]
    by_cases hopen : ['/', '*'] <+: c :: d :: cs
    · obtain ⟨rfl, rfl⟩ : '/' = c ∧ '*' = d := by simpa using hopen
      rw [afterBlockComment_open] at h
      have hlength := length_of_afterBlockComment h
      omega
    · by_cases hclose : ['*', '/'] <+: c :: d :: cs
      · obtain ⟨rfl, rfl⟩ : '*' = c ∧ '/' = d := by simpa using hclose
        rw [afterBlockComment_close] at h
        split_ifs at h
        · cases h
          omega
        · have hlength := length_of_afterBlockComment h
          omega
      · rw [afterBlockComment_char hopen hclose] at h
        have hlength := length_of_afterBlockComment h
        rw [List.length_cons] at hlength
        omega

/-! ### What begins a comment -/

theorem singleton_prefix_iff : [c] <+: cs ↔ ∃ tail, cs = c :: tail := by
  rw [List.prefix_iff_eq_append, eq_comm]
  exact ⟨fun h => ⟨_, h⟩, by rintro ⟨tail, rfl⟩; rfl⟩

theorem startsLineComment_iff : startsLineComment ('/' :: '/' :: line) = true ↔
    ¬ ['!'] <+: line ∧ (['/'] <+: line → ['/', '/'] <+: line) := by
  cases line with
  | nil => simp [startsLineComment]
  | cons a line =>
    unfold startsLineComment
    split <;> simp_all [singleton_prefix_iff]

theorem startsBlockComment_iff : startsBlockComment ('/' :: '*' :: body) = true ↔
    ¬ ['!'] <+: body ∧ (['*'] <+: body → ['*', '*'] <+: body ∨ ['*', '/'] <+: body) := by
  cases body with
  | nil => simp [startsBlockComment]
  | cons a body =>
    unfold startsBlockComment
    split <;> simp_all [singleton_prefix_iff]

/-- The end of a line does not tell whether the line is documentation. -/
theorem startsLineComment_append (line rest : List Char) :
    startsLineComment ('/' :: '/' :: (line ++ '\n' :: rest)) =
      startsLineComment ('/' :: '/' :: line) := by
  rw [Bool.eq_iff_iff, startsLineComment_iff, startsLineComment_iff]
  match line with
  | [] | [_] | _ :: _ :: _ => simp [List.cons_prefix_cons]

/-- What follows a block comment does not tell whether it is documentation. -/
theorem startsBlockComment_append (h : IsBlockBody body) (rest : List Char) :
    startsBlockComment ('/' :: '*' :: (body ++ rest)) =
      startsBlockComment ('/' :: '*' :: body) := by
  have hlength := h.two_le_length
  have hfirst (c : Char) : [c] <+: body ++ rest ↔ [c] <+: body :=
    ⟨fun hc => List.prefix_of_prefix_length_le hc (List.prefix_append ..) (by simp; omega),
      fun hc => hc.trans (List.prefix_append ..)⟩
  rw [Bool.eq_iff_iff, startsBlockComment_iff, startsBlockComment_iff, hfirst, hfirst,
    h.prefix_iff, h.prefix_iff]

theorem exists_of_startsLineComment (h : startsLineComment cs = true) :
    ∃ line, cs = '/' :: '/' :: line := by
  unfold startsLineComment at h
  split at h
  · exact ⟨_, rfl⟩
  · cases h
  · cases h
  · exact ⟨_, rfl⟩
  · cases h

theorem exists_of_startsBlockComment (h : startsBlockComment cs = true) :
    ∃ body, cs = '/' :: '*' :: body := by
  unfold startsBlockComment at h
  split at h
  · exact ⟨_, rfl⟩
  · exact ⟨_, rfl⟩
  · cases h
  · cases h
  · exact ⟨_, rfl⟩
  · cases h

/-! ### Lines -/

/-- A text without an end of line is one line. -/
theorem restOfLine_of_not_mem : ∀ {cs : List Char}, '\n' ∉ cs → (restOfLine cs).2 = []
  | [], _ => rfl
  | c :: cs, h => by
    have ih := restOfLine_of_not_mem (List.not_mem_of_not_mem_cons h)
    unfold restOfLine
    split
    · rfl
    · rename_i heq
      cases heq
      exact absurd List.mem_cons_self h
    · rename_i heq
      cases heq
      exact absurd (List.mem_cons_of_mem _ List.mem_cons_self) h
    · rename_i heq
      cases heq
      exact ih

theorem restOfLine_append (h : '\n' ∉ cs) (rest : List Char) :
    (restOfLine (cs ++ '\n' :: rest)).2 = '\n' :: rest := by
  obtain ⟨read, hread, -⟩ := exists_restOfLine h rest
  rw [hread]

theorem length_restOfLine (cs : List Char) : (restOfLine cs).2.length ≤ cs.length := by
  by_cases h : '\n' ∈ cs
  · obtain ⟨line, rest, rfl, hline⟩ := List.eq_append_cons_of_mem h
    rw [restOfLine_append hline]
    simp
  · simp [restOfLine_of_not_mem h]

theorem length_restOfLine_comment (line : List Char) :
    (restOfLine ('/' :: '/' :: line)).2.length ≤ line.length := by
  have hsame : (restOfLine ('/' :: '/' :: line)).2 = (restOfLine line).2 := rfl
  rw [hsame]
  exact length_restOfLine line

/-! ### The scanner -/

theorem dropBlanks_nil (fuel : Nat) : dropBlanks fuel [] = [] := by
  cases fuel <;> rfl

/-- More fuel than there are characters makes no difference. -/
theorem dropBlanks_congr : ∀ {fuel fuel' : Nat} {cs : List Char}, cs.length ≤ fuel →
    cs.length ≤ fuel' → dropBlanks fuel cs = dropBlanks fuel' cs
  | _, _, [], _, _ => by rw [dropBlanks_nil, dropBlanks_nil]
  | fuel + 1, fuel' + 1, c :: cs, h, h' => by
    rw [dropBlanks, dropBlanks]
    rw [List.length_cons] at h h'
    split_ifs with hline hblock hblank
    · obtain ⟨line, heq⟩ := exists_of_startsLineComment hline
      have hlength := length_restOfLine_comment line
      rw [← heq] at hlength
      cases heq
      rw [List.length_cons] at h h'
      exact dropBlanks_congr (by omega) (by omega)
    · cases hafter : afterBlockComment 0 (c :: cs) with
      | none => rfl
      | some rest =>
        have hlength := length_of_afterBlockComment hafter
        rw [List.length_cons] at hlength
        exact dropBlanks_congr (by omega) (by omega)
    · exact dropBlanks_congr (by omega) (by omega)
    · rfl

theorem dropBlanks_eq_skip {fuel : Nat} (h : cs.length ≤ fuel) : dropBlanks fuel cs = skip cs :=
  dropBlanks_congr h (Nat.le_refl _)

theorem skip_of_isSeparator (hc : isSeparator c = true) : skip (c :: rest) = skip rest := by
  have hslash : c ≠ '/' := by
    rintro rfl
    exact absurd hc (by decide)
  rw [skip, List.length_cons, dropBlanks, startsLineComment_cons hslash,
    startsBlockComment_cons hslash]
  show (if isSeparator c = true then dropBlanks rest.length rest else c :: rest) = _
  rw [if_pos hc, skip]

theorem skip_of_startsLineComment (h : startsLineComment ('/' :: '/' :: line) = true) :
    skip ('/' :: '/' :: line) = skip (restOfLine ('/' :: '/' :: line)).2 := by
  have hlength := length_restOfLine_comment line
  rw [skip, List.length_cons, dropBlanks, if_pos h]
  exact dropBlanks_eq_skip (by rw [List.length_cons]; omega)

theorem not_mem_comment (h : '\n' ∉ line) : '\n' ∉ '/' :: '/' :: line := by
  simpa using h

theorem skip_line (hline : IsPlainLine line) (rest : List Char) :
    skip ('/' :: '/' :: (line ++ '\n' :: rest)) = skip rest := by
  obtain ⟨hend, hmark⟩ := hline
  have hstarts : startsLineComment ('/' :: '/' :: (line ++ '\n' :: rest)) = true := by
    rw [startsLineComment_append]
    exact startsLineComment_iff.mpr hmark
  rw [skip_of_startsLineComment hstarts, ← List.cons_append, ← List.cons_append,
    restOfLine_append (not_mem_comment hend), skip_of_isSeparator (by decide)]

theorem skip_lastLine (hline : IsPlainLine line) : skip ('/' :: '/' :: line) = [] := by
  obtain ⟨hend, hmark⟩ := hline
  rw [skip_of_startsLineComment (startsLineComment_iff.mpr hmark),
    restOfLine_of_not_mem (not_mem_comment hend)]
  rfl

theorem skip_block (hbody : IsPlainBody body) (rest : List Char) :
    skip ('/' :: '*' :: (body ++ rest)) = skip rest := by
  obtain ⟨hbody, hmark⟩ := hbody
  have hstarts : startsBlockComment ('/' :: '*' :: (body ++ rest)) = true := by
    rw [startsBlockComment_append hbody]
    exact startsBlockComment_iff.mpr hmark
  have hafter : afterBlockComment 0 ('/' :: '*' :: (body ++ rest)) = some rest := by
    rw [afterBlockComment_open, afterBlockComment_append hbody, if_pos rfl]
  have hline : startsLineComment ('/' :: '*' :: (body ++ rest)) = false := rfl
  rw [skip, List.length_cons, dropBlanks, hline, hstarts, hafter]
  exact dropBlanks_eq_skip (by simp; omega)

/-- **A gap is dropped.** -/
theorem skip_gap (h : IsGap gap) (rest : List Char) : skip (gap ++ rest) = skip rest := by
  induction h with
  | nil => rfl
  | blank hc _ ih => rw [List.cons_append, skip_of_isSeparator hc, ih]
  | line hline _ ih =>
    rw [List.cons_append, List.cons_append, List.append_assoc, List.cons_append,
      skip_line hline, ih]
  | block hbody _ ih =>
    rw [List.cons_append, List.cons_append, List.append_assoc, skip_block hbody, ih]

theorem IsLastGap.skip (h : IsLastGap cs) : skip cs = [] := by
  cases h with
  | @gap text h =>
    have hskip := skip_gap h []
    rwa [List.append_nil] at hskip
  | line h hline => rw [skip_gap h, skip_lastLine hline]

theorem IsGap.append {more : List Char} (h : IsGap gap) (hmore : IsGap more) :
    IsGap (gap ++ more) := by
  induction h with
  | nil => exact hmore
  | blank hc _ ih => exact .blank hc ih
  | line hline _ ih =>
    rw [List.cons_append, List.cons_append, List.append_assoc, List.cons_append]
    exact .line hline ih
  | block hbody _ ih =>
    rw [List.cons_append, List.cons_append, List.append_assoc]
    exact .block hbody ih

/-- The scanner drops a gap, or all of the text if that is a last one. -/
def DropsGap (cs : List Char) : Prop :=
  (∃ gap, IsGap gap ∧ cs = gap ++ skip cs) ∨ (skip cs = [] ∧ IsLastGap cs)

theorem DropsGap.append (h : DropsGap rest) (hgap : IsGap gap) : DropsGap (gap ++ rest) := by
  have hskip := skip_gap hgap rest
  rcases h with ⟨more, hmore, hrest⟩ | ⟨hrest, hlast⟩
  · refine .inl ⟨gap ++ more, hgap.append hmore, ?_⟩
    rw [hskip, List.append_assoc, ← hrest]
  · refine .inr ⟨hskip.trans hrest, ?_⟩
    cases hlast with
    | gap hmore => exact .gap (hgap.append hmore)
    | line hmore hline =>
      rw [← List.append_assoc]
      exact .line (hgap.append hmore) hline

/-- Where neither a blank nor a comment begins, nothing is dropped. -/
theorem skip_eq_self (hline : startsLineComment cs = false)
    (hblock : startsBlockComment cs = true → afterBlockComment 0 cs = none)
    (hblank : ∀ c ∈ cs.head?, isSeparator c = false) : skip cs = cs := by
  cases cs with
  | nil => rfl
  | cons c cs =>
    rw [skip, List.length_cons, dropBlanks, hline, if_neg Bool.false_ne_true]
    by_cases h : startsBlockComment (c :: cs) = true
    · rw [if_pos h, hblock h]
    · rw [if_neg h]
      show (if isSeparator c = true then _ else _) = _
      rw [hblank c rfl, if_neg Bool.false_ne_true]

/-- **What is dropped is a gap**, or a last one if nothing is left. -/
theorem dropsGap : ∀ cs : List Char, DropsGap cs
  | [] => .inl ⟨[], .nil, rfl⟩
  | c :: cs => by
    by_cases hline : startsLineComment (c :: cs) = true
    · obtain ⟨line, heq⟩ := exists_of_startsLineComment hline
      cases heq
      by_cases hend : '\n' ∈ line
      · obtain ⟨first, rest, rfl, hfirst⟩ := List.eq_append_cons_of_mem hend
        rw [startsLineComment_append, startsLineComment_iff] at hline
        have hdrops := (dropsGap rest).append (.line ⟨hfirst, hline⟩ .nil)
        simpa using hdrops
      · have hplain : IsPlainLine line := ⟨hend, startsLineComment_iff.mp hline⟩
        exact .inr ⟨skip_lastLine hplain, .line .nil hplain⟩
    rw [Bool.not_eq_true] at hline
    by_cases hblock : startsBlockComment (c :: cs) = true
    · obtain ⟨text, heq⟩ := exists_of_startsBlockComment hblock
      cases heq
      cases hafter : afterBlockComment 0 ('/' :: '*' :: text) with
      | none =>
        refine .inl ⟨[], .nil, ?_⟩
        rw [skip_eq_self hline (fun _ => hafter) (by rintro _ ⟨⟩; decide), List.nil_append]
      | some rest =>
        rw [afterBlockComment_open] at hafter
        obtain ⟨body, after, rfl, hbody, -⟩ := exists_blockBody hafter
        rw [startsBlockComment_append hbody, startsBlockComment_iff] at hblock
        have hdrops := (dropsGap after).append (.block ⟨hbody, hblock⟩ .nil)
        simpa using hdrops
    by_cases hc : isSeparator c = true
    · exact (dropsGap cs).append (.blank hc .nil)
    · refine .inl ⟨[], .nil, ?_⟩
      rw [skip_eq_self hline (fun h => absurd h hblock) (by rintro _ ⟨⟩; simpa using hc),
        List.nil_append]
termination_by cs => cs.length

theorem exists_gap_of_skip {w : List Char} (h : skip cs = w) (hw : w ≠ []) :
    ∃ gap, IsGap gap ∧ cs = gap ++ w := by
  rcases dropsGap cs with ⟨gap, hgap, hcs⟩ | ⟨hnil, -⟩
  · exact ⟨gap, hgap, h ▸ hcs⟩
  · exact absurd (h.symm.trans hnil) hw

/-- **Nothing is left exactly of a last gap.** -/
theorem skip_eq_nil_iff : skip cs = [] ↔ IsLastGap cs := by
  refine ⟨fun h => ?_, IsLastGap.skip⟩
  rcases dropsGap cs with ⟨gap, hgap, hcs⟩ | ⟨-, hlast⟩
  · rw [h, List.append_nil] at hcs
    exact .gap (hcs ▸ hgap)
  · exact hlast

end EntityTable.Source.Lexer
