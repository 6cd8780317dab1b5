/-! # Similarity of words

The measure of Jaro and Winkler: how much of two words agrees in nearly the same places, with a bonus
for a common start. It lies between 0 and 1. -/

namespace EntityTable.Text

/-- The first place of a character in a word, at one of the given places that is not taken. -/
def findFree (word : List Char) (taken : List Nat) (low high : Nat) (c : Char) : Option Nat :=
  (List.range word.length).find? fun j =>
    decide (low ≤ j) && decide (j < high) && word[j]? == some c && !taken.contains j

/-- The pairs of places at which two words agree: each character of the first word takes the first
free place in the second one that is at most `reach` away. -/
def agreements (reach : Nat) (word : List Char) :
    Nat → List Nat → List Char → List (Nat × Char)
  | _, _, [] => []
  | i, taken, c :: rest =>
    match findFree word taken (i - reach) (i + reach + 1) c with
    | some j => (j, c) :: agreements reach word (i + 1) (j :: taken) rest
    | none => agreements reach word (i + 1) taken rest

/-- The characters of a word at the places that have been taken, from left to right. -/
def takenCharacters (word : List Char) (taken : List Nat) : List Char :=
  (List.range word.length).filterMap fun j => if taken.contains j then word[j]? else none

/-- The part of two words that agrees, less half of the agreeing characters that are out of order. -/
def jaro (a b : List Char) : Float :=
  if a.isEmpty && b.isEmpty then 1.0
  else if a.isEmpty || b.isEmpty then 0.0
  else
    let pairs := agreements (max a.length b.length / 2 - 1) b 0 [] a
    let matching := pairs.length
    let inOrderOfB := takenCharacters b (pairs.map Prod.fst)
    let displaced := ((pairs.map Prod.snd).zip inOrderOfB).countP fun (x, y) => x != y
    if matching = 0 then 0.0
    else
      let part := fun (n d : Nat) => Float.ofNat n / Float.ofNat d
      (part matching a.length + part matching b.length +
        part (matching - displaced / 2) matching) / 3.0

/-- The length of the common start of two words, up to four. -/
def commonStart (a b : List Char) : Nat :=
  ((a.zip b).take 4).takeWhile (fun (x, y) => x == y) |>.length

/-- The similarity of two words. -/
def similarity (a b : String) : Float :=
  let sim := jaro a.toList b.toList
  if sim > 0.7 then sim + 0.1 * Float.ofNat (commonStart a.toList b.toList) * (1.0 - sim) else sim

end EntityTable.Text
