import EntityTable.Proofs.Source.Lexing
import EntityTable.Proofs.Source.Strings.Items

/-! # String literals of a text

A literal in a text is a token of it wherever the lexer comes to its first character, which it does
unless the character stands in a comment or in another literal (`Lexer.Reaches`). It is then a
literal of every expression that is read from the text (`Expr.quote_mem_strings`). -/

namespace EntityTable.Source

namespace Lexer

/-- What follows the first token of a text; here the ends of a group are tokens of their own. -/
def next? (text : List Char) : Option (List Char) :=
  let cs := skip text
  match doc? cs with
  | some (_, rest) => some rest
  | none =>
    match cs with
    | [] => none
    | c :: rest =>
      if (Delimiter.ofOpening? c).isSome || (Delimiter.ofClosing? c).isSome then some rest
      else (leaf? cs).map (·.2)

/-- Reading token by token, the lexer comes from the text to the target. -/
inductive Reaches (target : List Char) : List Char → Prop
  | here {text : List Char} : skip text = target → Reaches target text
  | step {text rest : List Char} : next? text = some rest → Reaches target rest →
      Reaches target text

variable {cs rest final target : List Char} {tokens : List Token}

theorem kind_quote (text : String) : Literal.kind (Literal.quote text) = .string := by
  have htext : (Literal.quote text).toList = '\x22' :: (Literal.escape text.toList ++ ['\x22']) := by
    simp [Literal.quote]
  rw [Literal.kind, htext]
  rfl

theorem strings_quote (text : String) :
    strings (Token.literal (Literal.quote text)) = [Literal.quote text] := by
  rw [strings_literal, if_pos (kind_quote text)]

theorem exists_quote (text : String) (rest : List Char) :
    ∃ tail, (Literal.quote text).toList ++ rest = '\x22' :: tail :=
  ⟨Literal.escape text.toList ++ ['\x22'] ++ rest, by simp [Literal.quote]⟩

/-- A closing delimiter is a token of its own. -/
theorem next?_closing (d : Delimiter) (rest : List Char) :
    skip (d.closing :: rest) = d.closing :: rest ∧ next? (d.closing :: rest) = some rest := by
  have hstarts : StartsToken d.closing := ⟨by cases d <;> decide, by cases d <;> decide⟩
  have hclosing : (Delimiter.ofClosing? d.closing).isSome = true := by cases d <;> decide
  refine ⟨skip_cons hstarts, ?_⟩
  rw [next?, skip_cons hstarts, doc?_cons hstarts.noComment]
  simp [hclosing]

/-- **A literal that the lexer comes to is among the tokens**, or it stands behind the group that
these are in. -/
theorem mem_strings_or_reaches {text : String} (hstops : Stops rest) :
    ∀ {fuel : Nat} {cs final : List Char} {tokens : List Token},
      sequence fuel cs = some (tokens, final) →
      Reaches ((Literal.quote text).toList ++ rest) cs →
      Literal.quote text ∈ strings tokens ∨ Reaches ((Literal.quote text).toList ++ rest) final
  | 0, _, _, _, h, _ => by cases h
  | fuel + 1, cs, final, tokens, h, hreaches => by
    obtain ⟨tail, htail⟩ := exists_quote text rest
    have ih {cs final : List Char} {tokens : List Token}
        (h : sequence fuel cs = some (tokens, final))
        (hreaches : Reaches ((Literal.quote text).toList ++ rest) cs) :
        Literal.quote text ∈ strings tokens ∨
          Reaches ((Literal.quote text).toList ++ rest) final :=
      mem_strings_or_reaches hstops h hreaches
    rw [sequence] at h
    split at h
    · -- A documentation comment.
      rename_i doc after hdoc
      obtain ⟨⟨more, last⟩, hmore, heq⟩ := Option.bind_eq_some_iff.mp h
      cases heq
      cases hreaches with
      | here hskip =>
        rw [hskip, htail, doc?_cons (by decide)] at hdoc
        cases hdoc
      | step hnext hrest =>
        have hafter : next? cs = some after := by rw [next?, hdoc]
        obtain rfl := Option.some.inj (hnext.symm.trans hafter)
        refine (ih hmore hrest).imp (fun hmem => ?_) id
        rw [strings_append]
        exact List.mem_append_right _ hmem
    · rename_i hdoc
      split at h
      · -- The end of the text.
        rename_i hend
        cases hreaches with
        | here hskip =>
          rw [hend, htail] at hskip
          cases hskip
        | step hnext hrest =>
          rw [next?, hdoc, hend] at hnext
          cases hnext
      · rename_i c after hcs
        split at h
        · -- A group.
          rename_i d hopening
          obtain ⟨⟨body, behind⟩, hbody, heq⟩ := Option.bind_eq_some_iff.mp h
          dsimp only at heq
          split at heq
          · rename_i e behind
            split at heq
            · rename_i hclosing
              obtain ⟨⟨more, last⟩, hmore, heq⟩ := Option.bind_eq_some_iff.mp heq
              cases heq
              have hinside : Reaches ((Literal.quote text).toList ++ rest) after := by
                cases hreaches with
                | here hskip =>
                  rw [hcs, htail] at hskip
                  cases hskip
                  cases hopening
                | step hnext hrest =>
                  have hafter : next? cs = some after := by
                    rw [next?, hdoc, hcs]
                    simp [hopening]
                  exact Option.some.inj (hnext.symm.trans hafter) ▸ hrest
              rw [strings_cons, strings_group]
              rcases ih hbody hinside with hmem | hbehind
              · exact .inl (List.mem_append_left _ hmem)
              · -- Not inside the group, so behind its end.
                subst hclosing
                obtain ⟨hskip', hnext'⟩ := next?_closing d behind
                have hrest : Reaches ((Literal.quote text).toList ++ rest) behind := by
                  cases hbehind with
                  | here hskip =>
                    rw [hskip', htail] at hskip
                    cases d <;> cases hskip
                  | step hnext hrest => exact Option.some.inj (hnext.symm.trans hnext') ▸ hrest
                exact (ih hmore hrest).imp (List.mem_append_right _) id
            · cases heq
          · cases heq
        · rename_i hopening
          split at h
          · -- The end of a group around the text.
            rename_i hclosing
            cases h
            obtain ⟨d, hd⟩ := Option.isSome_iff_exists.mp hclosing
            obtain rfl : d.closing = c := by simpa using List.find?_some hd
            cases hreaches with
            | here hskip =>
              rw [hcs, htail] at hskip
              cases d <;> cases hskip
            | step hnext hrest =>
              have hafter : next? cs = some after := by
                rw [next?, hdoc, hcs]
                simp [hclosing]
              obtain rfl := Option.some.inj (hnext.symm.trans hafter)
              rw [hcs]
              exact .inr (.step (next?_closing d _).2 hrest)
          · rename_i hclosing
            obtain ⟨⟨token, behind⟩, hleaf, heq⟩ := Option.bind_eq_some_iff.mp h
            obtain ⟨⟨more, last⟩, hmore, heq⟩ := Option.bind_eq_some_iff.mp heq
            cases heq
            rw [strings_cons]
            cases hreaches with
            | here hskip =>
              rw [hskip, leaf?_quote text hstops] at hleaf
              cases hleaf
              exact .inl (List.mem_append_left _ (by simp [strings_quote]))
            | step hnext hrest =>
              have hbehind : next? cs = some behind := by
                rw [hcs] at hleaf
                rw [next?, hdoc, hcs]
                simp [hopening, hclosing, hleaf]
              obtain rfl := Option.some.inj (hnext.symm.trans hbehind)
              exact (ih hmore hrest).imp (List.mem_append_right _) id

/-- Nothing is reached from the end of a text. -/
theorem not_reaches_nil (hstart : ∃ tail, target = '\x22' :: tail) : ¬ Reaches target [] := by
  obtain ⟨tail, rfl⟩ := hstart
  intro hreaches
  cases hreaches with
  | here hskip => cases hskip
  | step hnext hrest => cases hnext

end Lexer

/-- **A literal that the lexer comes to is one of the expression** that is read from the text. -/
theorem Expr.quote_mem_strings {source text : String} {rest : List Char} {e : Expr}
    (h : Expr.ofText source = .ok e) (hstops : Lexer.Stops rest)
    (hreaches : Lexer.Reaches ((Literal.quote text).toList ++ rest)
      (Lexer.dropByteOrderMark source.toList)) : Literal.quote text ∈ strings e := by
  obtain ⟨tokens, htokens, hstrings⟩ := Expr.strings_of_ofText h
  rw [hstrings]
  unfold Token.ofText? at htokens
  split at htokens
  · rename_i heq
    cases htokens
    rcases Lexer.mem_strings_or_reaches hstops heq hreaches with hmem | hend
    · exact hmem
    · exact absurd hend (Lexer.not_reaches_nil (Lexer.exists_quote text rest))
  · cases htokens

end EntityTable.Source
