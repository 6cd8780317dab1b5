import EntityTable.Proofs.Layout.Written
import EntityTable.Proofs.Source.Comments
import EntityTable.Proofs.Source.Literals
import Mathlib.Data.List.DropRight

/-! # Documentation as comments

A documentation attribute is written as a comment if its text can stand in one. The lexer reads the
comment as that text again, without the blanks at the ends of its lines, unless a carriage return
stands in it that no line feed follows: such a comment is no token at all
(`doc?_docComment`). In a file of imports and a struct the comment of the struct is the first one,
and no quotes stand before it (`exists_fileText`). -/

namespace EntityTable.Layout

open Source
open Source.Lexer (IsRefused IsWord afterBlockComment blockCommentBody docTokens doc?
  exists_restOfLine hasBareReturn isQuiet readBefore_append restOfLine startsBlockComment
  startsLineComment)

variable {cs text rest : List Char} {depth depth' : Nat}

/-! ### Nesting -/

/-- The two characters mark the start or the end of a block comment. -/
def isMark (c d : Char) : Bool := c == '/' && d == '*' || c == '*' && d == '/'

/-- A character that forms no mark with the next one has no effect on the depth. -/
theorem commentDepth?_cons {c d : Char} (h : isMark c d = false) (rest : List Char) (depth : Nat) :
    commentDepth? depth (c :: d :: rest) = commentDepth? depth (d :: rest) := by
  rw [commentDepth?] <;> simp_all [isMark]


theorem isMark_eq_false {c d : Char} (hopening : c = '/' → d ≠ '*') (hclosing : c = '*' → d ≠ '/') :
    isMark c d = false := by
  simpa [isMark] using And.intro hopening hclosing

theorem afterBlockComment_cons {c d : Char} (h : isMark c d = false) (rest : List Char)
    (depth : Nat) :
    afterBlockComment depth (c :: d :: rest) = afterBlockComment depth (d :: rest) := by
  rw [afterBlockComment] <;> simp_all [isMark]



/-- A character that marks no comment separates what stands before it from what follows. -/
theorem commentDepth?_separated {c : Char} (hslash : c ≠ '/') (hstar : c ≠ '*') (rest : List Char) :
    commentDepth? depth (cs ++ c :: rest) =
      (commentDepth? depth cs).bind fun depth => commentDepth? depth rest := by
  fun_induction commentDepth? depth cs with
  | case1 depth =>
    rw [List.nil_append, commentDepth?] <;> simp_all
  | case2 depth rest ih => rw [List.cons_append, List.cons_append, commentDepth?, ih]
  | case3 rest => rfl
  | case4 depth rest ih => rw [List.cons_append, List.cons_append, commentDepth?, ih]
  | case5 depth d cs hopening hclosing hinner ih =>
    rw [← ih, List.cons_append]
    cases cs with
    | nil => exact commentDepth?_cons (by simp [isMark, hslash, hstar]) rest depth
    | cons e cs =>
      refine commentDepth?_cons (isMark_eq_false ?_ ?_) _ depth
      · exact fun hd he => hopening cs hd (he ▸ rfl)
      · cases depth with
        | zero => exact fun hd he => hclosing cs rfl hd (he ▸ rfl)
        | succ depth => exact fun hd he => hinner depth cs rfl hd (he ▸ rfl)

/-- **A block comment is closed where its text ends.** -/
theorem afterBlockComment_append (h : commentDepth? depth text = some depth')
    (hlast : text.getLast? ≠ some '/') (rest : List Char) :
    afterBlockComment (depth + 1) (text ++ '*' :: '/' :: rest) =
      afterBlockComment (depth' + 1) ('*' :: '/' :: rest) := by
  have hlater {cs : List Char} {c : Char} (hlast : (c :: cs).getLast? ≠ some '/') :
      cs.getLast? ≠ some '/' := by
    cases cs <;> simp_all
  fun_induction commentDepth? depth text with
  | case1 depth => cases h; rfl
  | case2 depth text ih =>
    rw [List.cons_append, List.cons_append, afterBlockComment]
    exact ih h (hlater (hlater hlast))
  | case3 text => cases h
  | case4 depth text ih =>
    rw [List.cons_append, List.cons_append, afterBlockComment, if_neg (by omega)]
    exact ih h (hlater (hlater hlast))
  | case5 depth c text hopening hclosing hinner ih =>
    rw [← ih h (hlater hlast), List.cons_append]
    cases text with
    | nil =>
      have hc : c ≠ '/' := fun hc => hlast (hc ▸ rfl)
      exact afterBlockComment_cons (by simp [isMark, hc]) _ _
    | cons d text =>
      refine afterBlockComment_cons (isMark_eq_false ?_ ?_) _ _
      · exact fun hc hd => hopening text hc (hd ▸ rfl)
      · cases depth with
        | zero => exact fun hc hd => hclosing text rfl hc (hd ▸ rfl)
        | succ depth => exact fun hc hd => hinner depth text rfl hc (hd ▸ rfl)

/-! ### Blanks at the ends of lines -/

theorem dropFinalBlanks_prefix (line : List Char) : dropFinalBlanks line <+: line :=
  List.rdropWhile_prefix _ line

theorem commentDepth?_dropFinalBlanks (depth : Nat) (line : List Char) :
    commentDepth? depth (dropFinalBlanks line) = commentDepth? depth line := by
  induction line using List.reverseRecOn with
  | nil => rfl
  | append_singleton line c ih =>
    have hdrop : dropFinalBlanks (line ++ [c]) =
        if c == ' ' then dropFinalBlanks line else line ++ [c] :=
      List.rdropWhile_concat (· == ' ') line c
    rw [hdrop]
    split
    · rename_i hblank
      rw [ih, eq_of_beq hblank, commentDepth?_separated (by decide) (by decide)]
      cases commentDepth? depth line <;> rfl
    · rfl

theorem dropFinalBlanks_of_getLast? {line : List Char} {c : Char} (h : line.getLast? = some c)
    (hc : c ≠ ' ') : dropFinalBlanks line = line := by
  refine List.rdropWhile_eq_self_iff.mpr fun hne => ?_
  rw [List.getLast?_eq_some_getLast hne] at h
  simpa [Option.some.inj h] using hc

/-- A text of one line stays. -/
theorem dropInnerBlanks_line {line : List Char} (h : '\n' ∉ line) : dropInnerBlanks line = line := by
  rw [dropInnerBlanks, List.splitOn_eq_singleton h]
  exact List.append_nil line

/-- A line that others follow loses the blanks at its end. -/
theorem dropInnerBlanks_lines {line : List Char} (h : '\n' ∉ line) (rest : List Char) :
    dropInnerBlanks (line ++ '\n' :: rest) =
      dropFinalBlanks line ++ '\n' :: dropInnerBlanks rest := by
  rw [dropInnerBlanks, dropInnerBlanks, List.splitOn_append_cons_self_of_not_mem h]
  cases hrest : rest.splitOn '\n' with
  | nil => exact absurd hrest (List.splitOn_ne_nil _ _)
  | cons first lines =>
    dsimp only
    rw [List.dropLast_cons_of_ne_nil (List.cons_ne_nil _ _), List.getLast?_cons_cons, List.map_cons,
      List.cons_append, List.intercalate_cons_of_ne_nil (by simp [List.getLast?_cons])]
    simp

/-- Induction on the lines of a text. -/
theorem lines_induction {motive : List Char → Prop}
    (last : ∀ line, '\n' ∉ line → motive line)
    (more : ∀ line rest, '\n' ∉ line → motive rest → motive (line ++ '\n' :: rest))
    (text : List Char) : motive text := by
  by_cases h : '\n' ∈ text
  · obtain ⟨line, rest, rfl, hline⟩ := List.eq_append_cons_of_mem h
    exact more line rest hline (lines_induction last more rest)
  · exact last text h
termination_by text.length
decreasing_by simp only [*, List.length_append, List.length_cons]; omega

theorem commentDepth?_dropInnerBlanks (text : List Char) :
    ∀ depth, commentDepth? depth (dropInnerBlanks text) = commentDepth? depth text := by
  induction text using lines_induction with
  | last line hline => intro depth; rw [dropInnerBlanks_line hline]
  | more line rest hline ih =>
    intro depth
    rw [dropInnerBlanks_lines hline, commentDepth?_separated (by decide) (by decide),
      commentDepth?_separated (by decide) (by decide), commentDepth?_dropFinalBlanks]
    simp only [ih]

theorem getLast?_dropInnerBlanks (text : List Char) :
    (dropInnerBlanks text).getLast? = text.getLast? := by
  induction text using lines_induction with
  | last line hline => rw [dropInnerBlanks_line hline]
  | more line rest hline ih =>
    rw [dropInnerBlanks_lines hline, List.getLast?_append, List.getLast?_append,
      List.getLast?_cons, List.getLast?_cons, ih]
    rfl

/-- The first character stays, unless the first line is blank. -/
theorem head?_dropInnerBlanks (text : List Char) : (dropInnerBlanks text).head? = text.head? ∨
    (dropInnerBlanks text).head? = some '\n' := by
  by_cases h : '\n' ∈ text
  · obtain ⟨line, rest, rfl, hline⟩ := List.eq_append_cons_of_mem h
    rw [dropInnerBlanks_lines hline]
    cases hdrop : dropFinalBlanks line with
    | nil => exact .inr rfl
    | cons c cs =>
      obtain ⟨blanks, hblanks⟩ := hdrop ▸ dropFinalBlanks_prefix line
      exact .inl (by rw [← hblanks]; rfl)
  · exact .inl (by rw [dropInnerBlanks_line h])

theorem exists_head_dropInnerBlanks {text : List Char} (hne : text ≠ [])
    (hstar : text.head? ≠ some '*') (hslash : text.head? ≠ some '/') :
    ∃ c ∈ (dropInnerBlanks text).head?, c ≠ '*' ∧ c ≠ '/' := by
  rcases head?_dropInnerBlanks text with hsame | hline
  · rw [hsame]
    obtain ⟨c, cs, rfl⟩ := List.exists_cons_of_ne_nil hne
    exact ⟨c, rfl, fun hc => hstar (hc ▸ rfl), fun hc => hslash (hc ▸ rfl)⟩
  · exact ⟨'\n', hline, by decide⟩

/-! ### Comments -/

/-- The forms of a comment: a line, or a block whose marks its text does not disturb. -/
theorem docComment?_eq_some {text comment : String} (h : docComment? text = some comment) :
    '\n' ∉ text.toList ∧ text.toList.head? ≠ some '/' ∧
        comment.toList = '/' :: '/' :: '/' :: dropFinalBlanks text.toList ∨
      commentDepth? 0 text.toList = some 0 ∧ text.toList.getLast? ≠ some '/' ∧
        text.toList.head? ≠ some '*' ∧ text.toList.head? ≠ some '/' ∧
        comment.toList = '/' :: '*' :: '*' :: (dropInnerBlanks text.toList ++ ['*', '/']) := by
  have hstarts {marks : List Char} (h : (!text.toList.head?.any marks.contains) = true) :
      ∀ c ∈ marks, text.toList.head? ≠ some c := by
    intro c hc heq
    simp [heq, hc] at h
  unfold docComment? at h
  dsimp only at h
  split at h
  · rename_i hform
    cases h
    obtain ⟨hline, hhead⟩ := Bool.and_eq_true_iff.mp hform
    refine .inl ⟨by simpa using hline, hstarts hhead '/' List.mem_cons_self, ?_⟩
    simp [String.toList_append]
  · split at h
    · rename_i hform
      cases h
      obtain ⟨hfits, hhead⟩ := Bool.and_eq_true_iff.mp hform
      obtain ⟨hdepth, hlast⟩ := Bool.and_eq_true_iff.mp hfits
      refine .inr ⟨eq_of_beq hdepth, bne_iff_ne.mp hlast, hstarts hhead '*' (by simp),
        hstarts hhead '/' (by simp), ?_⟩
      simp [String.toList_append]
    · cases h

/-- A line that does not start with a slash can stand in a comment. -/
theorem isSome_docComment? {text : String} (hline : '\n' ∉ text.toList)
    (hhead : text.toList.head? ≠ some '/') : (docComment? text).isSome = true := by
  have hstart : text.toList.head?.any ['/'].contains = false := by
    cases hfirst : text.toList.head? with
    | none => rfl
    | some c =>
      have hc : c ≠ '/' := fun hc => hhead (hc ▸ hfirst)
      simp [hc]
  unfold docComment?
  dsimp only
  rw [if_pos (by simp [hstart, hline])]
  rfl

/-- In a line every carriage return is bare. -/
theorem hasBareReturn_line {line : List Char} (h : '\n' ∉ line) :
    hasBareReturn line = true ↔ '\r' ∈ line := by
  fun_induction hasBareReturn line with
  | case1 line ih => simp at h
  | case2 line hnext => simp
  | case3 c line hnext hreturn ih =>
    rw [ih (List.not_mem_of_not_mem_cons h), List.mem_cons, or_iff_right fun hc => hreturn hc.symm]
  | case4 => simp

/-- A block comment whose text does not disturb its marks is read up to its end. -/
theorem docComment?_block {text : List Char} (hdepth : commentDepth? 0 text = some 0)
    (hlast : text.getLast? ≠ some '/') (hhead : ∃ c ∈ text.head?, c ≠ '*' ∧ c ≠ '/')
    (rest : List Char) : Lexer.docComment? ('/' :: '*' :: '*' :: (text ++ '*' :: '/' :: rest)) =
      some (text, false, rest) := by
  obtain ⟨c, hc, hstar, hslash⟩ := hhead
  cases text with
  | nil => cases hc
  | cons d text =>
    cases hc
    have hafter : afterBlockComment 0 ('/' :: '*' :: '*' :: (c :: text ++ '*' :: '/' :: rest)) =
        some rest := by
      rw [afterBlockComment, List.cons_append,
        afterBlockComment_cons (isMark_eq_false (by simp) fun _ => hslash), ← List.cons_append,
        afterBlockComment_append hdepth hlast, afterBlockComment, if_pos (by omega)]
    have hbody : blockCommentBody ('/' :: '*' :: '*' :: (c :: text ++ '*' :: '/' :: rest)) rest =
        c :: text := by
      have hread := readBefore_append ('/' :: '*' :: '*' :: (c :: text ++ ['*', '/'])) rest
      simp only [List.cons_append, List.append_assoc, List.nil_append] at hread
      have hmarks : c :: (text ++ ['*', '/']) = c :: text ++ ['*'] ++ ['/'] := by simp
      rw [blockCommentBody, List.cons_append, hread, hmarks]
      simp only [List.drop_succ_cons, List.drop_zero, List.dropLast_concat]
    show (if (c :: text ++ '*' :: '/' :: rest).head? = some '*' then none
      else (afterBlockComment 0 ('/' :: '*' :: '*' :: (c :: text ++ '*' :: '/' :: rest))).map
        fun rest => (blockCommentBody _ rest, false, rest)) = _
    rw [if_neg (by simpa using hstar), hafter, Option.map_some, hbody]

/-- **The lexer reads the comment as the text** that the attribute has, without the blanks at the
ends of its lines, or refuses it for a carriage return. -/
theorem doc?_docComment {text comment : String} (h : docComment? text = some comment)
    (hlast : text.toList.getLast? = some '.') (rest : List Char) :
    doc? (comment.toList ++ '\n' :: rest) =
      if hasBareReturn (dropInnerBlanks text.toList) then none
      else some (docTokens false (dropInnerBlanks text.toList), '\n' :: rest) := by
  rcases docComment?_eq_some h with ⟨hline, hhead, hcomment⟩ |
    ⟨hdepth, hclosed, hstar, hslash, hcomment⟩
  · rw [dropInnerBlanks_line hline]
    rw [dropFinalBlanks_of_getLast? hlast (by decide)] at hcomment
    obtain ⟨read, hread, hsame⟩ := exists_restOfLine hline rest
    rw [hsame (by rw [hlast]; decide)] at hread
    have hnext : (text.toList ++ '\n' :: rest).head? ≠ some '/' := by
      rw [List.head?_append]
      cases hfirst : text.toList.head? <;> simp_all
    have hdoc : Lexer.docComment? (comment.toList ++ '\n' :: rest) =
        some (text.toList, false, '\n' :: rest) := by
      rw [hcomment]
      show (if (text.toList ++ '\n' :: rest).head? = some '/' then none
        else some ((restOfLine (text.toList ++ '\n' :: rest)).1, false,
          (restOfLine (text.toList ++ '\n' :: rest)).2)) = _
      rw [if_neg hnext, hread]
    rw [doc?, hdoc]
  · rw [hcomment, doc?]
    have hfirst := exists_head_dropInnerBlanks (by rintro hnil; simp [hnil] at hlast) hstar hslash
    have hdoc := docComment?_block ((commentDepth?_dropInnerBlanks _ 0).trans hdepth)
      (by rwa [getLast?_dropInnerBlanks]) hfirst ('\n' :: rest)
    simp only [List.cons_append, List.append_assoc, List.nil_append]
    rw [hdoc]

/-- **The lexer refuses a comment with a bare carriage return.** -/
theorem exists_isRefused {text comment : String} (h : docComment? text = some comment)
    (hlast : text.toList.getLast? = some '.')
    (hbare : hasBareReturn (dropInnerBlanks text.toList) = true) (rest : List Char) :
    ∃ tail, comment.toList ++ '\n' :: rest = '/' :: tail ∧ IsRefused tail := by
  have hdoc := doc?_docComment h hlast rest
  rw [if_pos hbare] at hdoc
  have hne : text.toList ≠ [] := fun hnil => by simp [hnil] at hlast
  rcases docComment?_eq_some h with ⟨-, hhead, hcomment⟩ | ⟨-, -, hstar, hslash, hcomment⟩
  · rw [dropFinalBlanks_of_getLast? hlast (by decide)] at hcomment
    rw [hcomment] at hdoc ⊢
    refine ⟨_, rfl, ⟨_, _, rfl, .inl rfl⟩, ?_, rfl, hdoc⟩
    obtain ⟨c, cs, htext⟩ := List.exists_cons_of_ne_nil hne
    have hc : c ≠ '/' := fun hc => hhead (by rw [htext, hc]; rfl)
    rw [htext]
    simp [startsLineComment, hc]
  · rw [hcomment] at hdoc ⊢
    refine ⟨_, rfl, ⟨_, _, rfl, .inr rfl⟩, rfl, ?_, hdoc⟩
    obtain ⟨c, hc, hc'⟩ := exists_head_dropInnerBlanks hne hstar hslash
    cases htext : dropInnerBlanks text.toList with
    | nil => simp [htext] at hc
    | cons d cs =>
      simp only [htext, List.head?_cons, Option.mem_some_iff] at hc
      simp [startsBlockComment, hc, hc']

/-! ### What stands before a comment -/

/-- The characters of the pieces are quiet. -/
abbrev QuietPieces (pieces : Pieces) : Prop := Within (isQuiet · = true) pieces

/-- The characters of a word. -/
theorem form_of_mem_isWord {w : List Char} (h : IsWord w) {c : Char} (hc : c ∈ w) :
    Text.Identifier.isStart c = true ∨ Text.Identifier.isContinue c = true ∨ c = '#' := by
  have hplain {d : Char} {cs : List Char} (hstart : Text.Identifier.isStart d = true)
      (hrest : ∀ e ∈ cs, Text.Identifier.isContinue e = true) (hc : c ∈ d :: cs) :
      Text.Identifier.isStart c = true ∨ Text.Identifier.isContinue c = true ∨ c = '#' := by
    rcases List.mem_cons.mp hc with rfl | hc
    · exact .inl hstart
    · exact .inr (.inl (hrest c hc))
  cases h with
  | plain hstart hrest => exact hplain hstart hrest hc
  | raw hstart hrest =>
    rcases List.mem_cons.mp hc with rfl | hc
    · exact .inl (by decide)
    · rcases List.mem_cons.mp hc with rfl | hc
      · exact .inr (.inr rfl)
      · exact hplain hstart hrest hc

theorem isQuiet_of_isWord {w : List Char} (h : IsWord w) : ∀ c ∈ w, isQuiet c = true := by
  intro c hc
  rw [isQuiet, Bool.not_eq_true', ← Bool.not_eq_true]
  intro hmem
  simp only [List.contains_iff_mem, List.mem_cons, List.not_mem_nil, or_false] at hmem
  have hform := form_of_mem_isWord h hc
  rcases hmem with rfl | rfl | rfl <;> exact absurd hform (by decide)

namespace QuietPieces

variable {ps qs : Pieces}

theorem nil : QuietPieces [] := List.forall_mem_nil _

theorem append (h : QuietPieces ps) (h' : QuietPieces qs) : QuietPieces (ps ++ qs) :=
  fun p hp => (List.mem_append.mp hp).elim (h p) (h' p)

theorem word {s : String} (h : ∀ c ∈ s.toList, isQuiet c = true) : QuietPieces (word s) :=
  List.forall_mem_singleton.mpr (.text h)

/-- A fixed word, as its characters tell. -/
theorem mark {s : String} (h : s.toList.all isQuiet = true) : QuietPieces (Layout.word s) :=
  .word (List.all_eq_true.mp h)

/-- A break that writes nothing but blanks. -/
theorem plainBreak (blanks : Nat) : QuietPieces [.brk (.ofBlanks blanks)] :=
  List.forall_mem_singleton.mpr (.brk nofun nofun nofun)

theorem dropLast (h : QuietPieces ps) : QuietPieces ps.dropLast :=
  fun p hp => h p (List.dropLast_subset ps hp)

theorem boxed (h : QuietPieces ps) (isConsistent : Bool) (indent : Int) :
    QuietPieces (boxed isConsistent indent ps) := by
  unfold Layout.boxed
  split
  · exact .nil
  · split
    · exact List.forall_mem_singleton.mpr (.box (h.dropLast.append
        (List.forall_mem_singleton.mpr (.brk nofun nofun nofun))))
    · exact List.forall_mem_singleton.mpr (.box h)
  · exact List.forall_mem_singleton.mpr (.box h)

theorem outdent (h : QuietPieces ps) : QuietPieces (outdent ps) := by
  unfold Layout.outdent
  split
  · rename_i b hlast
    have hb := h _ (List.mem_of_getLast? hlast)
    cases hb with
    | brk hend hstart hline =>
      exact h.dropLast.append (List.forall_mem_singleton.mpr (.brk hend hstart hline))
  · exact h

/-- The layout of trees in braces. -/
theorem useGroup (h : QuietPieces ps) : QuietPieces (useGroup ps) := by
  have hcomma : QuietPieces (comma true) :=
    List.forall_mem_singleton.mpr (.brk (List.all_eq_true.mp (by decide)) nofun nofun)
  have hinside : QuietPieces (zero ++ ibox 0 ps ++ comma true) :=
    ((plainBreak 0).append (h.boxed false 0)).append hcomma
  exact (((mark (by decide)).append hinside.outdent).append (mark (by decide))).boxed true _

end QuietPieces

mutual

/-- The layout of a tree of words is quiet. -/
theorem quietPieces_useTree : ∀ {tree : UseTree}, (∀ w ∈ tree.names, IsWord w.toList) →
    QuietPieces (useTreePieces tree)
  | .path name rest, h => by
    rw [useTreePieces]
    have hname := QuietPieces.word (isQuiet_of_isWord (h name List.mem_cons_self))
    exact (hname.append (.mark (by decide))).append
      (quietPieces_useTree fun w hw => h w (List.mem_cons_of_mem name hw))
  | .leaf name, h => by
    rw [useTreePieces]
    exact .word (isQuiet_of_isWord (h name (List.mem_singleton_self name)))
  | .rename name newName, h => by
    have has : ∀ c ∈ " as ".toList, isQuiet c = true := List.all_eq_true.mp (by decide)
    rw [useTreePieces]
    refine .word fun c hc => ?_
    rw [String.toList_append, String.toList_append] at hc
    rcases List.mem_append.mp hc with hc | hc
    · rcases List.mem_append.mp hc with hc | hc
      · exact isQuiet_of_isWord (h name List.mem_cons_self) c hc
      · exact has c hc
    · exact isQuiet_of_isWord (h newName (List.mem_cons_of_mem _ List.mem_cons_self)) c hc
  | .glob, _ => by
    rw [useTreePieces]
    exact .mark (by decide)
  | .group trees _, h => by
    have htrees : QuietPieces (useTreesPieces trees) := quietPieces_useTrees h
    rw [useTreePieces]
    split
    · exact .mark (by decide)
    · split
      · exact htrees
      · exact htrees.useGroup

/-- The layout of trees of words is quiet. -/
theorem quietPieces_useTrees : ∀ {trees : List UseTree},
    (∀ w ∈ UseTree.namesOf trees, IsWord w.toList) → QuietPieces (useTreesPieces trees)
  | [], _ => .nil
  | [last], h => by
    rw [useTreesPieces]
    exact quietPieces_useTree fun w hw => h w (List.mem_append_left _ hw)
  | tree :: next :: rest, h => by
    rw [useTreesPieces.eq_3 tree (next :: rest) (List.cons_ne_nil next rest)]
    have htree := quietPieces_useTree fun w hw => h w (List.mem_append_left _ hw)
    have hrest := quietPieces_useTrees fun w hw => h w (List.mem_append_right _ hw)
    refine .append (.append (.append htree (.mark (by decide))) ?_) hrest
    split <;> exact .plainBreak _

end

/-- The layout of imports of words is quiet. -/
theorem quietPieces_uses : ∀ {trees : List UseTree},
    (∀ tree ∈ trees, ∀ w ∈ tree.names, IsWord w.toList) →
      QuietPieces (itemsPieces constantPieces (trees.map (.use [] .inherited false)))
  | [], _ => .nil
  | tree :: trees, h => by
    have hitem : QuietPieces (itemPieces constantPieces (.use [] .inherited false tree)) := by
      rw [itemPieces]
      exact .append (.append (.append (.append (.append (.append .nil .nil) (.mark (by decide)))
        .nil) (quietPieces_useTree (h tree List.mem_cons_self))) (.mark (by decide))) (.plainBreak _)
    rw [List.map_cons, itemsPieces]
    exact hitem.append (quietPieces_uses fun tree htree => h tree (List.mem_cons_of_mem _ htree))

theorem itemsPieces_append (items more : List Item) : itemsPieces constantPieces (items ++ more) =
    itemsPieces constantPieces items ++ itemsPieces constantPieces more := by
  induction items with
  | nil => rfl
  | cons i items ih => rw [List.cons_append, itemsPieces, itemsPieces, ih, List.append_assoc]

/-- **Behind imports the comment of a struct is the first one in a file**, and it ends its line. -/
theorem exists_fileText {trees : List UseTree} {text comment name : String} {attrs : List Attribute}
    {visibility : Visibility} {body : StructBody} {more : List Item} {file : File}
    (hfile : file.items = trees.map (.use [] .inherited false) ++
      .struct (.docText text :: attrs) visibility name body :: more)
    (hwords : ∀ tree ∈ trees, ∀ w ∈ tree.names, IsWord w.toList)
    (h : docComment? text = some comment) : ∃ before after,
      (fileText file).toList = before ++ comment.toList ++ '\n' :: after ∧
        ∀ c ∈ before, isQuiet c = true := by
  have hdoc : attributePieces constantPieces (.docText text) = word comment ++ hard := by
    have htext : docText? (.docText text) = some text := Literal.value?_quote text
    rw [attributePieces, htext, Option.bind_some, h]
  have hpieces : ∃ rest, itemsPieces constantPieces file.items =
      itemsPieces constantPieces (trees.map (.use [] .inherited false)) ++
        (word comment ++ (hard ++ rest)) := by
    rw [hfile, itemsPieces_append, itemsPieces, itemPieces, attributesPieces, List.flatMap_cons,
      hdoc]
    simp only [List.append_assoc]
    exact ⟨_, rfl⟩
  obtain ⟨rest, hpieces⟩ := hpieces
  rw [fileText, filePieces, hpieces]
  exact exists_textOf_line (by decide) (by decide) (quietPieces_uses hwords) comment rest

end EntityTable.Layout
