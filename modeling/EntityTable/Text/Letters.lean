import EntityTable.Text.CaseTable
import EntityTable.Text.Grapheme

/-! # Upper and lower case of texts

The full case mappings of the Unicode standard: one character may become several, and a capital
sigma at the end of a word becomes the final small sigma. The ASCII part is decided directly. -/

namespace EntityTable.Text

/-- The full mapping given by runs and by the code points that become several. -/
def mapCase (runs : List CaseRun) (sequences : List (Nat × List Nat)) (c : Char) : List Char :=
  match sequences.lookup c.toNat with
  | some ns => ns.map Char.ofNat
  | none =>
    match runs.findSome? (CaseRun.map? · c.toNat) with
    | some n => [Char.ofNat n]
    | none => [c]

/-- The upper case of a character. -/
def upperOf (c : Char) : List Char :=
  if c.toNat < 0x80 then [c.toUpper] else mapCase upperRuns upperSequences c

/-- The lower case of a character that stands alone. -/
def lowerOf (c : Char) : List Char :=
  if c.toNat < 0x80 then [c.toLower] else mapCase lowerRuns lowerSequences c

/-- The upper case of a text. -/
def upper (cs : List Char) : List Char := cs.flatMap upperOf

/-! ### The final sigma -/

/-- A character that has an upper and a lower form. -/
def isCased (c : Char) : Bool := upperOf c != lowerOf c

/-- A mark or punctuation that the search for a cased neighbour passes over. -/
def isCaseIgnorable (c : Char) : Bool :=
  extendsCluster c || [0x27, 0x2e, 0x3a, 0x5e, 0x60, 0xa8, 0xad, 0xaf, 0xb4, 0xb7, 0xb8, 0x2019,
    0x200b, 0x200c, 0x200d, 0x2060].contains c.toNat

/-- The first character that is not passed over is cased. -/
def startsCased (cs : List Char) : Bool :=
  match cs.dropWhile isCaseIgnorable with
  | c :: _ => isCased c
  | [] => false

/-- Lower case of the rest of a text, given what stands before it in reverse. -/
def lowerAfter : List Char → List Char → List Char
  | _, [] => []
  | before, c :: rest =>
    let image :=
      if c.toNat = 0x3a3 then
        [Char.ofNat (if startsCased before && !startsCased rest then 0x3c2 else 0x3c3)]
      else lowerOf c
    image ++ lowerAfter (c :: before) rest

/-- The lower case of a text. -/
def lower (cs : List Char) : List Char := lowerAfter [] cs

end EntityTable.Text
