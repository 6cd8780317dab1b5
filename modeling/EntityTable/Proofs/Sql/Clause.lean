import EntityTable.Proofs.Sql.Lexeme

/-! # How clauses are read

A quoted name is read as one token that denotes exactly this name, whatever characters it holds
(`reads_quoteName`), so it never ends early. A placeholder is read as the parameter of its number,
and a list is read as its parts with commas between them (`reads_commaSeparated`). -/

namespace EntityTable.Sql

open ScanState

/-! ### Names -/

theorem run_inName_doubleQuotes : ∀ (name read : List Char),
    (inName read).run (doubleQuotes name) = some ([], inName (read ++ name))
  | [], read => by simp [doubleQuotes, run]
  | c :: name, read => by
    have ih := run_inName_doubleQuotes name (read ++ [c])
    by_cases hc : c = '\x22'
    · subst hc
      simp [doubleQuotes, run, step, extend?, ih]
    · simp [doubleQuotes, hc, run, step, extend?, ih]

/-- **A quoted name is one token**, and the token denotes the name. -/
theorem reads_quoteName (name : String) : Reads (quoteName name).toList [.name name] := by
  have hname : (inName []).run (doubleQuotes name.toList ++ ['\x22']) =
      some ([], afterQuote name.toList) := by
    rw [run_append, run_inName_doubleQuotes]
    simp [run, step, extend?]
  refine reads_iff.mpr ⟨[], afterQuote name.toList, [.name name], ?_, by simp [finish?], by simp⟩
  have hopen : between.step '\x22' = some ([], inName []) := rfl
  have htext : (quoteName name).toList = '\x22' :: (doubleQuotes name.toList ++ ['\x22']) := by
    simp only [quoteName, String.toList_append, String.toList_ofList, List.append_assoc]
    rfl
  rw [htext, run, hopen]
  simp [hname]

example : lexemes "\x22a; \x22\x22b\x22 = $12" =
    some [.name "a; \x22b", .mark '=', .parameter 12] := by decide

/-! ### Parameters -/

theorem run_inParameter : ∀ (more digits : List Char), (∀ c ∈ more, c.isDigit = true) →
    (inParameter digits).run more = some ([], inParameter (digits ++ more))
  | [], digits, _ => by simp [run]
  | c :: more, digits, h => by
    have hc : c.isDigit = true := h c (by simp)
    have ih := run_inParameter more (digits ++ [c]) fun d hd => h d (by simp [hd])
    simp [run, step, extend?, hc, ih]

theorem reads_placeholder (index : Nat) :
    Reads (placeholder index).toList [.parameter index] := by
  have hdigits : ∀ c ∈ Nat.toDigits 10 index, c.isDigit = true := fun c hc =>
    Nat.isDigit_of_mem_toDigits (by decide) (by decide) hc
  have htext : (placeholder index).toList = '$' :: Nat.toDigits 10 index := by
    simp only [placeholder, String.toList_append, Nat.toString_eq_ofList_toDigits,
      String.toList_ofList]
    rfl
  have hopen : between.step '$' = some ([], inParameter []) := rfl
  refine reads_iff.mpr ⟨[], inParameter (Nat.toDigits 10 index), [.parameter index], ?_, ?_,
    by simp⟩
  · rw [htext, run, hopen]
    simp [run_inParameter _ _ hdigits]
  · simp [finish?, Nat.toDigits_ne_nil, Nat.ofDigitChars_ten_toDigits]

/-! ### Lists -/

/-- Groups of tokens with commas between them. -/
def separated {ν : Type} (groups : List (List (Lexeme ν))) : List (Lexeme ν) :=
  [Lexeme.mark ','].intercalate groups

theorem commaSeparated_cons_cons (p q : String) (parts : List String) :
    commaSeparated (p :: q :: parts) = p ++ ", " ++ commaSeparated (q :: parts) := by
  simp [commaSeparated, String.intercalate_cons_cons]

theorem separated_cons_cons {ν : Type} (x y : List (Lexeme ν)) (groups : List (List (Lexeme ν))) :
    separated (x :: y :: groups) = x ++ [.mark ','] ++ separated (y :: groups) := by
  simp [separated, List.intercalate_cons_cons]

theorem reads_commaSeparated {α : Type} (text : α → String) (out : α → List (Lexeme String)) :
    ∀ l : List α, (∀ a ∈ l, Reads (text a).toList (out a)) →
      Reads (commaSeparated (l.map text)).toList (separated (l.map out))
  | [], _ => rfl
  | [a], h => by simpa [commaSeparated, separated] using h a (by simp)
  | a :: b :: l, h => by
    have ih := reads_commaSeparated text out (b :: l) fun c hc => h c (by simp [hc])
    have hcomma : Closes ", ".toList [.mark ','] := by decide
    simp only [List.map_cons, commaSeparated_cons_cons, separated_cons_cons, String.toList_append,
      List.append_assoc] at ih ⊢
    exact (h a (by simp)).append (hcomma.reads ih) (startsFree_append (by decide))

theorem reads_nameList (names : List String) :
    Reads (nameList names).toList (separated (names.map fun name => [.name name])) :=
  reads_commaSeparated quoteName _ names fun name _ => reads_quoteName name

theorem reads_placeholders (count : Nat) :
    Reads (placeholders count).toList
      (separated ((List.range' 1 count).map fun i => [.parameter i])) := by
  have h : (List.range count).map (fun i => placeholder (i + 1)) =
      (List.range' 1 count).map placeholder := by
    simp [List.range'_eq_map_range, Nat.add_comm]
  rw [placeholders, h]
  exact reads_commaSeparated placeholder _ _ fun i _ => reads_placeholder i

theorem reads_equality (name : String) (index : Nat) :
    Reads (equality name index).toList [.name name, .mark '=', .parameter index] := by
  have heq : Closes " = ".toList [.mark '='] := by decide
  simp only [equality, String.toList_append, List.append_assoc]
  exact (reads_quoteName name).append (heq.reads (reads_placeholder index))
    (startsFree_append (by decide))

theorem reads_assignments (names : List String) :
    Reads (assignments names).toList (separated
      ((names.zipIdx 1).map fun p => [.name p.1, .mark '=', .parameter p.2])) := by
  have h := reads_commaSeparated (fun p : String × Nat => equality p.1 p.2)
    (fun p => [.name p.1, .mark '=', .parameter p.2]) (names.zipIdx 1)
    fun p _ => reads_equality p.1 p.2
  have htext : names.mapIdx (fun i name => equality name (i + 1)) =
      (names.zipIdx 1).map fun p => equality p.1 p.2 := by
    simp [List.mapIdx_eq_zipIdx_map, List.zipIdx_succ]
  rw [assignments, htext]
  exact h

end EntityTable.Sql
