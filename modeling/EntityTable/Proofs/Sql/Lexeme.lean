import EntityTable.Sql.Clause

/-! # Lexemes of SQL

The reader of SQL texts that clauses are judged by. A text is cut into words, parameters `$n`, marks
and quoted identifiers; blanks separate and are dropped. A quoted identifier runs from one double
quote to the next, except that a doubled quote stands for one quote of the name and does not end it.
The reader takes one character at a time: `ScanState` is what is known of a token that may go on,
and `ScanState.step` is one step. `lexemes` has no value if a character cannot start a token or the
text ends inside a name.

Two relations say how a piece of text is read wherever it stands: `Closes` if no token is open after
it, `Reads` if the last token may go on. Pieces are put together by `Closes.reads` and, if a
delimiter stands between them, by `Reads.append`. -/

namespace EntityTable.Sql

/-- A token of an SQL text, with what stands for a name left open. -/
inductive Lexeme (ν : Type) where
  /-- A keyword or the name of a type. -/
  | word (text : String)
  /-- The name that a quoted identifier denotes. -/
  | name (value : ν)
  /-- A parameter by its number. -/
  | parameter (index : Nat)
  | mark (char : Char)
  deriving DecidableEq, Repr

/-- The token with another name in it. -/
def Lexeme.map {ν μ : Type} (f : ν → μ) : Lexeme ν → Lexeme μ
  | word text => word text
  | name value => name (f value)
  | parameter index => parameter index
  | mark char => mark char

/-- What has been read of a token that may go on. -/
inductive ScanState where
  | between
  | inWord (read : List Char)
  | inName (read : List Char)
  /-- After a quote that ends the name unless another one follows. -/
  | afterQuote (read : List Char)
  | inParameter (digits : List Char)
  deriving DecidableEq, Repr

/-- The characters that are tokens by themselves. -/
def marks : List Char := ['(', ')', ',', '=', ';', '.', '*', '+', '-', '<', '>']

/-- A character that a word may consist of after its first one. -/
def isWordPart (c : Char) : Bool := c.isAlphanum || c == '_' || c == '$'

namespace ScanState

/-- The state after one more character of the same token. -/
def extend? : ScanState → Char → Option ScanState
  | between, _ => none
  | inWord read, c => if isWordPart c then some (inWord (read ++ [c])) else none
  | inName read, c => some (if c = '\x22' then afterQuote read else inName (read ++ [c]))
  | afterQuote read, c => if c = '\x22' then some (inName (read ++ [c])) else none
  | inParameter digits, c => if c.isDigit then some (inParameter (digits ++ [c])) else none

/-- The token that is complete if nothing more belongs to it. -/
def finish? : ScanState → Option (List (Lexeme String))
  | between => some []
  | inWord read => some [.word (String.ofList read)]
  | inName _ => none
  | afterQuote read => some [.name (String.ofList read)]
  | inParameter digits =>
    if digits.isEmpty then none else some [.parameter (Nat.ofDigitChars 10 digits 0)]

/-- A character that belongs to no token before it. -/
def open? (c : Char) : Option (List (Lexeme String) × ScanState) :=
  if c.isWhitespace then some ([], between)
  else if c = '\x22' then some ([], inName [])
  else if c = '$' then some ([], inParameter [])
  else if marks.contains c then some ([.mark c], between)
  else if c.isAlpha || c == '_' then some ([], inWord [c])
  else none

/-- The tokens that a character completes, and the state after it. -/
def step (s : ScanState) (c : Char) : Option (List (Lexeme String) × ScanState) :=
  match s.extend? c with
  | some next => some ([], next)
  | none => do
    let last ← s.finish?
    let (out, next) ← open? c
    return (last ++ out, next)

/-- The tokens that a text completes, and the state after it. -/
def run : ScanState → List Char → Option (List (Lexeme String) × ScanState)
  | s, [] => some ([], s)
  | s, c :: rest => do
    let (out, next) ← s.step c
    let (more, last) ← run next rest
    return (out ++ more, last)

end ScanState

/-- The tokens of a whole text. -/
def readAll (text : List Char) : Option (List (Lexeme String)) := do
  let (out, s) ← ScanState.between.run text
  return out ++ (← s.finish?)

/-- The tokens of an SQL text. -/
def lexemes (text : String) : Option (List (Lexeme String)) := readAll text.toList

/-! ### Pieces of text -/

open ScanState

/-- A text between tokens is read as these, and none is open after it. -/
def Closes (text : List Char) (out : List (Lexeme String)) : Prop :=
  between.run text = some (out, between)

/-- A text between tokens is read as these, if nothing more belongs to the last one. -/
def Reads (text : List Char) (out : List (Lexeme String)) : Prop := readAll text = some out

instance (text : List Char) (out : List (Lexeme String)) : Decidable (Closes text out) :=
  inferInstanceAs (Decidable (between.run text = some (out, between)))

instance (text : List Char) (out : List (Lexeme String)) : Decidable (Reads text out) :=
  inferInstanceAs (Decidable (readAll text = some out))

variable {a b : List Char} {x y : List (Lexeme String)}

theorem reads_iff : Reads a x ↔
    ∃ most s last, between.run a = some (most, s) ∧ s.finish? = some last ∧ most ++ last = x := by
  unfold Reads readAll
  rcases h : between.run a with _ | ⟨out, s⟩
  · simp
  · simp only [Option.bind_eq_bind, Option.bind_some, Option.some.injEq, Prod.mk.injEq]
    rcases hs : s.finish? with _ | last
    · simp [hs]
    · simp only [Option.bind_some, Option.pure_def, Option.some.injEq]
      constructor
      · rintro rfl; exact ⟨out, s, last, ⟨rfl, rfl⟩, hs, rfl⟩
      · rintro ⟨_, _, _, ⟨rfl, rfl⟩, hs', rfl⟩
        rw [Option.some.inj (hs.symm.trans hs')]

theorem run_append (s : ScanState) (a b : List Char) :
    s.run (a ++ b) = (s.run a).bind fun (x, next) =>
      (next.run b).map fun (y, last) => (x ++ y, last) := by
  induction a generalizing s with
  | nil => simp [run]
  | cons c a ih =>
    simp only [List.cons_append, run, ih]
    rcases s.step c with _ | ⟨out, next⟩
    · rfl
    · rcases h : next.run a with _ | ⟨x, mid⟩
      · simp [h]
      · rcases hb : mid.run b with _ | ⟨y, last⟩ <;> simp [h, hb]

/-- After a piece that leaves no token open the next one is read as if it stood alone. -/
theorem Closes.reads (ha : Closes a x) (hb : Reads b y) : Reads (a ++ b) (x ++ y) := by
  obtain ⟨most, s, last, hrun, hlast, rfl⟩ := reads_iff.mp hb
  refine reads_iff.mpr ⟨x ++ most, s, last, ?_, hlast, by simp⟩
  rw [run_append, ha]
  simp [hrun]

/-! ### Delimiters -/

/-- A character that ends every token before it and is none of its first characters. -/
def isDelimiter (c : Char) : Bool := c.isWhitespace || marks.contains c

theorem not_isWordPart_of_isDelimiter {c : Char} (h : isDelimiter c = true) :
    isWordPart c = false ∧ c ≠ '\x22' ∧ c.isDigit = false := by
  simp only [isDelimiter, Char.isWhitespace, marks, Bool.or_eq_true, decide_eq_true_eq,
    List.contains_eq_mem, List.mem_cons, List.not_mem_nil, or_false] at h
  rcases h with (((rfl | rfl) | rfl) | rfl) | h
  · decide
  · decide
  · decide
  · decide
  · rcases h with rfl | rfl | rfl | rfl | rfl | rfl | rfl | rfl | rfl | rfl | rfl <;> decide

/-- At a delimiter a state with a complete token gives it up. -/
theorem step_of_isDelimiter {s : ScanState} {c : Char} {last : List (Lexeme String)}
    (hc : isDelimiter c = true) (hs : s.finish? = some last) :
    s.step c = (between.step c).map fun (out, next) => (last ++ out, next) := by
  obtain ⟨hword, hquote, hdigit⟩ := not_isWordPart_of_isDelimiter hc
  have hext : s.extend? c = none := by
    cases s with
    | between => rfl
    | inWord read => simp [extend?, hword]
    | inName read => simp [finish?] at hs
    | afterQuote read => simp [extend?, hquote]
    | inParameter digits => simp [extend?, hdigit]
  have hbetween : between.step c = open? c := by
    simp only [step, extend?, finish?]
    rcases open? c with _ | ⟨out, next⟩ <;> simp
  rw [hbetween, step, hext, hs]
  rcases open? c with _ | ⟨out, next⟩ <;> simp

theorem run_of_isDelimiter {s : ScanState} {c : Char} {last : List (Lexeme String)}
    (hc : isDelimiter c = true) (hs : s.finish? = some last) :
    s.run (c :: b) = (between.run (c :: b)).map fun (out, next) => (last ++ out, next) := by
  simp only [run, step_of_isDelimiter hc hs]
  rcases between.step c with _ | ⟨out, next⟩
  · rfl
  · rcases h : next.run b with _ | ⟨y, final⟩ <;> simp [h]

/-- The text starts with a delimiter. -/
def startsFree (text : List Char) : Bool := text.head?.any isDelimiter

theorem startsFree_append (h : startsFree a = true) : startsFree (a ++ b) = true := by
  cases a with
  | nil => simp [startsFree] at h
  | cons c a => simpa [startsFree] using h

theorem run_of_startsFree {s : ScanState} {last : List (Lexeme String)} (hb : startsFree b = true)
    (hs : s.finish? = some last) :
    s.run b = (between.run b).map fun (out, next) => (last ++ out, next) := by
  cases b with
  | nil => simp [startsFree] at hb
  | cons c b => exact run_of_isDelimiter (by simpa [startsFree] using hb) hs

/-- **A delimiter ends the token before it.** -/
theorem Reads.append (ha : Reads a x) (hb : Reads b y) (hfree : startsFree b = true) :
    Reads (a ++ b) (x ++ y) := by
  obtain ⟨most, s, last, hrun, hlast, rfl⟩ := reads_iff.mp ha
  obtain ⟨most', s', last', hrun', hlast', rfl⟩ := reads_iff.mp hb
  refine reads_iff.mpr ⟨most ++ (last ++ most'), s', last', ?_, hlast', by simp⟩
  rw [run_append, hrun]
  simp [run_of_startsFree hfree hlast, hrun']

/-- A part that may be left out. -/
theorem Reads.append_optional {p : Prop} [Decidable p] {text : String} (ha : Reads a x)
    (hb : Reads text.toList y) (hfree : startsFree text.toList = true) :
    Reads (a ++ (if p then text else "").toList) (x ++ if p then y else []) := by
  by_cases hp : p
  · simp only [hp, if_true]; exact ha.append hb hfree
  · simpa [hp] using ha

end EntityTable.Sql
