/-! # Pieces

Laid out text is made of pieces: texts, places where a line may end, and boxes around pieces. A box
that does not fit on its line is broken. In a consistent box all breaks then end their line; in
another box each of them does so only if what follows, up to the next break, does not fit. A break
that ends its line starts the next one at the indentation of its box.

Widths are counted in bytes. What follows a box or a break up to the next break counts towards its
width, because it will stand on the same line. -/

namespace EntityTable.Layout

/-- The columns of a line. -/
def margin : Int := 89

/-- The width that a line has at least, however deep it starts. -/
def leastWidth : Int := 60

/-- The columns of one level. -/
def indentation : Int := 4

/-- A width that fits nowhere. -/
def endless : Nat := 0xffff

/-- A place where a line may end. -/
structure Break where
  /-- The blanks that stand here if the line goes on. -/
  blanks : Nat
  /-- Added to the indentation of the next line. -/
  offset : Int
  /-- Written before the line ends. -/
  atEnd : String
  /-- Written where the next line starts. -/
  atStart : String
  /-- Written if the line goes on. -/
  inLine : String
  /-- The line never ends here. -/
  isNever : Bool
  /-- The break is dropped if its box ends right after it. -/
  isTentative : Bool
  deriving DecidableEq, Repr

/-- A piece of text. -/
inductive Piece where
  | text (text : String)
  | brk (place : Break)
  | box (isConsistent : Bool) (indent : Int) (body : List Piece)
  /-- Nothing, but as wide as what never fits. -/
  | force

/-- Pieces in a row. -/
abbrev Pieces := List Piece

/-! ### Building -/

/-- A text. -/
def word (text : String) : Pieces := [.text text]

/-- A break of so many blanks. -/
def Break.ofBlanks (blanks : Nat) : Break := ⟨blanks, 0, "", "", "", false, false⟩

/-- A break without blanks. -/
def zero : Pieces := [.brk (.ofBlanks 0)]

/-- A break that is a blank in a line. -/
def space : Pieces := [.brk (.ofBlanks 1)]

/-- The end of a line. -/
def hard : Pieces := [.brk (.ofBlanks endless)]

/-- A blank, unless the box ends here. -/
def spaceIfMore : Pieces := [.brk { Break.ofBlanks 1 with isTentative := true }]

/-- The end of a line, unless the box ends here. -/
def hardIfMore : Pieces := [.brk { Break.ofBlanks endless with isTentative := true }]

/-- A point that only ends what is measured before it. -/
def never : Pieces := [.brk { Break.ofBlanks 0 with isNever := true }]

/-- After an element: a comma and a blank, or a comma only if the line ends. -/
def comma (isLast : Bool) : Pieces :=
  if isLast then [.brk { Break.ofBlanks 0 with atEnd := "," }] else word "," ++ space

/-- The same with a blank after the last element. -/
def commaOrSpace (isLast : Bool) : Pieces :=
  if isLast then [.brk { Break.ofBlanks 1 with atEnd := "," }] else word "," ++ space

/-- The last break one level further out. -/
def outdent (pieces : Pieces) : Pieces :=
  match pieces.getLast? with
  | some (.brk b) => pieces.dropLast ++ [.brk { b with offset := b.offset - indentation }]
  | _ => pieces

/-- A box. One that holds a single break is nothing, and a tentative break at its end is dropped. -/
def boxed (isConsistent : Bool) (indent : Int) (body : Pieces) : Pieces :=
  match body, body.getLast? with
  | [.brk _], _ => []
  | _, some (.brk b) =>
    if b.isTentative then [.box isConsistent indent (body.dropLast ++ never)]
    else [.box isConsistent indent body]
  | _, _ => [.box isConsistent indent body]

/-- A consistent box. -/
def cbox (indent : Int) (body : Pieces) : Pieces := boxed true indent body

/-- An inconsistent box. -/
def ibox (indent : Int) (body : Pieces) : Pieces := boxed false indent body

/-- Elements, each with what follows it. -/
def rows (after : Bool → Pieces) : List Pieces → Pieces
  | [] => []
  | [last] => last ++ after true
  | first :: rest => first ++ after false ++ rows after rest

/-- Elements with pieces between them. -/
def between (separator : Pieces) (elements : List Pieces) : Pieces :=
  rows (fun isLast => if isLast then [] else separator) elements

/-- Elements separated by commas in a box of their own, each on a line if they do not fit. -/
def commaBox (elements : List Pieces) : Pieces :=
  cbox indentation (outdent (zero ++ rows comma elements))

/-! ### Widths -/

mutual
/-- The width of a piece in one line. -/
def Piece.width : Piece → Nat
  | .text s => s.utf8ByteSize
  | .brk b => b.blanks
  | .box _ _ body => widthOf body
  | .force => endless
/-- The width of pieces in one line. -/
def widthOf : List Piece → Nat
  | [] => 0
  | p :: rest => p.width + widthOf rest
end

/-- The width up to the next break, given what follows the pieces. -/
def ahead (after : Nat) : Pieces → Nat
  | [] => after
  | .brk _ :: _ => 0
  | p :: rest => p.width + ahead after rest

/-- A box that is also broken if it is wider than a limit. -/
def limitedBox (limit : Nat) (indent : Int) (body : Pieces) : Pieces :=
  cbox indent (if widthOf body > limit then body ++ [.force] else body)

/-! ### Writing -/

/-- Where the writing stands. -/
structure Cursor where
  written : String
  /-- The columns left on the line. -/
  room : Int
  /-- The indentation of the innermost broken box. -/
  indent : Int
  /-- Blanks that are written only if text follows on the line. -/
  pending : Nat

/-- How the innermost box is written. -/
inductive Frame where
  | fits
  | consistent
  | inconsistent
  deriving DecidableEq, Repr

namespace Cursor

/-- The start of a text. -/
def start : Cursor := ⟨"", margin, 0, 0⟩

/-- Writes the pending blanks and a text, without counting them. -/
def put (c : Cursor) (text : String) : Cursor :=
  { c with written := c.written.pushn ' ' c.pending ++ text, pending := 0 }

/-- Writes a text. -/
def write (c : Cursor) (text : String) : Cursor :=
  { c.put text with room := c.room - text.utf8ByteSize }

/-- Goes on in the same line. -/
def goOn (c : Cursor) (b : Break) : Cursor :=
  { c with
    written := c.written ++ b.inLine
    pending := c.pending + b.blanks
    room := c.room - b.blanks - b.inLine.utf8ByteSize }

/-- Ends the line. -/
def endLine (c : Cursor) (b : Break) : Cursor :=
  let c := if b.atEnd.isEmpty then c else c.put b.atEnd
  let indent := c.indent + b.offset
  let c : Cursor :=
    { c with
      written := c.written.push '\n'
      pending := indent.toNat
      room := max (margin - indent) leastWidth }
  if b.atStart.isEmpty then c else c.write b.atStart

/-- A break of a given width up to the next one. -/
def meet (c : Cursor) (frame : Frame) (b : Break) (width : Nat) : Cursor :=
  let goesOn := b.isNever || match frame with
    | .fits => true
    | .consistent => false
    | .inconsistent => decide ((width : Int) ≤ c.room)
  if goesOn then c.goOn b else c.endLine b

end Cursor

/-- The frame of a box that is wider than the room. -/
def brokenFrame (isConsistent : Bool) : Frame := if isConsistent then .consistent else .inconsistent

mutual
/-- Writes a piece, given the width of what follows it up to the next break. -/
def Piece.write (frame : Frame) (after : Nat) : Piece → Cursor → Cursor
  | .text s, c => c.write s
  | .brk b, c => c.meet frame b (b.blanks + after)
  | .box isConsistent indent body, c =>
    if (widthOf body + after : Int) > c.room then
      let inner := writeAll (brokenFrame isConsistent) after body
        { c with indent := c.indent + indent }
      { inner with indent := c.indent }
    else writeAll .fits after body c
  | .force, c => c
/-- Writes pieces, given the width of what follows them up to the next break. -/
def writeAll (frame : Frame) (after : Nat) : List Piece → Cursor → Cursor
  | [], c => c
  | p :: rest, c => writeAll frame after rest (p.write frame (ahead after rest) c)
end

/-- The text of pieces. -/
def textOf (pieces : Pieces) : String := (writeAll .inconsistent 0 pieces .start).written

end EntityTable.Layout
