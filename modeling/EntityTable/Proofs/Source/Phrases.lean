import EntityTable.Proofs.Source.Spelling

/-! # Phrases around a hole

A phrase is the text of an expression in which an operand is left open. Its forms are those that a
conversion is written in: calls, methods, fields, references, casts and closures, with names, paths,
numbers and quoted texts between them. Whatever operand the hole is filled with, the text spells an
expression (`Phrase.spells`); no rule of a phrase looks into the hole. -/

namespace EntityTable.Source

open Lexer Grammar

/-- What a phrase can be a part of, from the strongest to the weakest. -/
inductive Strength where
  /-- An operand that a point with a number may follow. -/
  | closed
  /-- An operand. -/
  | operand
  /-- An operand with casts. -/
  | term
  /-- An expression. -/
  | expr
  /-- Arguments between parentheses. -/
  | args

/-- What may follow a phrase. -/
def Strength.follow : Strength → List Char → Prop
  | closed => Stops
  | _ => EndsNumber

/-- What a phrase is read as. -/
def Strength.form : Strength → List Token → Prop
  | closed | operand => IsOperand
  | term => IsTerm
  | expr => IsExpr
  | args => IsArgs

/-- The texts of phrases, given the text in the hole. -/
inductive Phrase (hole : List Char) : Strength → List Char → Prop
  | hole : Phrase hole .closed hole
  | path {ws : List String} {text : List Char} (h : IsPathText ws text) : Phrase hole .closed text
  | quoted (text : String) : Phrase hole .closed (Literal.quote text).toList
  | number {digits : List Char} (h : IsNumber digits) : Phrase hole .operand digits
  | paren {text : List Char} (h : Phrase hole .expr text) :
      Phrase hole .closed ('(' :: (text ++ [')']))
  | call {ws : List String} {path args : List Char} (hpath : IsPathText ws path)
      (hargs : Phrase hole .args args) : Phrase hole .closed (path ++ '(' :: (args ++ [')']))
  | field {text w : List Char} (h : Phrase hole .operand text) (hw : IsNameText w) :
      Phrase hole .closed (text ++ '.' :: w)
  | method {text w args : List Char} (h : Phrase hole .operand text) (hw : IsNameText w)
      (hargs : Phrase hole .args args) :
      Phrase hole .closed (text ++ '.' :: (w ++ '(' :: (args ++ [')'])))
  | index {text : List Char} {d : Char} (h : Phrase hole .closed text) (hd : d ∈ digitChars) :
      Phrase hole .operand (text ++ ['.', d])
  | question {text : List Char} (h : Phrase hole .operand text) :
      Phrase hole .closed (text ++ ['?'])
  | borrow {text : List Char} (h : Phrase hole .operand text) : Phrase hole .operand ('&' :: text)
  | deref {text : List Char} (h : Phrase hole .operand text) : Phrase hole .operand ('*' :: text)
  | cast {ws : List String} {text path : List Char} (h : Phrase hole .term text)
      (hpath : IsPathText ws path) : Phrase hole .term (text ++ " as ".toList ++ path)
  | closure {text w : List Char} (hw : IsNameText w) (h : Phrase hole .term text) :
      Phrase hole .expr ('|' :: (w ++ '|' :: text))
  | noArgs : Phrase hole .args []
  | lastArg {text : List Char} (h : Phrase hole .expr text) : Phrase hole .args text
  | moreArgs {text args : List Char} (h : Phrase hole .expr text) (hargs : Phrase hole .args args) :
      Phrase hole .args (text ++ ',' :: args)
  | blank {s : Strength} {text : List Char} (h : Phrase hole s text) : Phrase hole s (' ' :: text)
  | blankAfter {s : Strength} {text : List Char} (h : Phrase hole s text) :
      Phrase hole s (text ++ [' '])
  | operand {text : List Char} (h : Phrase hole .closed text) : Phrase hole .operand text
  | term {text : List Char} (h : Phrase hole .operand text) : Phrase hole .term text
  | expr {text : List Char} (h : Phrase hole .term text) : Phrase hole .expr text

theorem Strength.follow_blank (s : Strength) (rest : List Char) : s.follow (' ' :: rest) := by
  cases s with
  | closed => exact stops_cons (by decide)
  | operand | term | expr | args => exact endsNumber_cons (by decide) (by decide)

/-- **Filled with an operand, a phrase is read as what its strength says.** -/
theorem Phrase.spells {hole text : List Char} {s : Strength}
    (hhole : Spells Stops hole IsOperand) (h : Phrase hole s text) :
    Spells s.follow text s.form := by
  induction h with
  | hole => exact hhole
  | path h => exact h.operand
  | quoted text => exact spells_quote text
  | number h => exact spells_number h
  | paren _ ih => exact ih.paren.anywhere
  | call hpath _ ih => exact (hpath.call ih).anywhere
  | field _ hw ih => exact ih.field hw
  | method _ hw _ ih ihargs => exact (ih.method hw ihargs).anywhere
  | index _ hd ih => exact ih.index hd
  | question _ ih => exact ih.question.anywhere
  | borrow _ ih => exact ih.borrow
  | deref _ ih => exact ih.deref
  | cast _ hpath ih => exact (ih.cast hpath).before fun _ => And.left
  | closure hw _ ih => exact ih.closure hw
  | noArgs => exact (Spells.nil.as fun _ hts => hts ▸ .nil).anywhere
  | lastArg _ ih => exact ih.as fun _ => .last
  | moreArgs _ _ ih ihargs => exact ih.moreArgs ihargs
  | blank _ ih => exact ih.blank
  | @blankAfter s _ _ ih => exact (ih.blankAfter s.follow_blank).anywhere
  | operand _ ih => exact ih.before fun _ => And.left
  | term _ ih => exact ih.as fun _ => .operand
  | expr _ ih => exact ih.as fun _ => IsTerm.expr

end EntityTable.Source
