import EntityTable.Text.Letters

/-! # Words of a name

A name is cut into words at every low line, hyphen and space, which are dropped, and without
dropping anything between a lower and an upper case character, between letters and digits, and
before the last capital of a run of capitals that a lower case character follows. The words are
then joined in one of three styles. Empty words are kept, so a low line at either end survives in
the styles that join with low lines. -/

namespace EntityTable.Text

/-- What a cluster means to the rules that cut words. -/
inductive WordSign where
  | separator
  | upper
  | lower
  | digit
  | other
  deriving DecidableEq, Repr

/-- A cluster is upper or lower case if the case mappings tell its two forms apart. -/
def WordSign.of (cluster : List Char) : WordSign :=
  match cluster with
  | ['_'] | ['-'] | [' '] => .separator
  | _ =>
    let up := Text.upper cluster
    let low := Text.lower cluster
    if cluster.all Char.isDigit then .digit
    else if up == low then .other
    else if cluster == up then .upper
    else if cluster == low then .lower
    else .other

/-- A word ends after a cluster with the first sign when clusters with the other signs follow. -/
def WordSign.endsWord : WordSign → List WordSign → Bool
  | .lower, .upper :: _ => true
  | .upper, .upper :: .lower :: _ => true
  | .lower, .digit :: _ => true
  | .upper, .digit :: _ => true
  | .digit, .lower :: _ => true
  | .digit, .upper :: _ => true
  | _, _ => false

/-- The words of a text that is cut into clusters with their signs. -/
def wordsOf : List (List Char × WordSign) → List (List Char)
  | [] => [[]]
  | (cluster, sign) :: rest =>
    let words := wordsOf rest
    if sign = .separator then [] :: words
    else if sign.endsWord (rest.map Prod.snd) then cluster :: words
    else
      match words with
      | word :: more => (cluster ++ word) :: more
      | [] => [cluster]

/-- The words of a name. -/
def words (name : String) : List (List Char) :=
  wordsOf ((clusters name.toList).map fun cluster => (cluster, WordSign.of cluster))

/-- A word with its first cluster in upper case and the rest in lower case. -/
def capitalize (word : List Char) : List Char :=
  match clusters word with
  | first :: rest => upper first ++ lower rest.flatten
  | [] => []

/-- Lower case words joined by low lines: `tag_line`. -/
def snakeCase (name : String) : String :=
  String.ofList (['_'].intercalate ((words name).map lower))

/-- Upper case words joined by low lines: `TAG_LINE`. -/
def upperSnakeCase (name : String) : String :=
  String.ofList (['_'].intercalate ((words name).map upper))

/-- Capitalized words joined by nothing: `TagLine`. -/
def pascalCase (name : String) : String :=
  String.ofList ((words name).map capitalize).flatten

end EntityTable.Text
