import EntityTable.Codec.Json.Nesting
import EntityTable.Proofs.Codec.Json.Scalar
import EntityTable.Proofs.Outcome
import Mathlib.Data.List.Forall2

/-! # Lists and objects that are read back

If the text of every part is read as that part whatever ends it (`Reads`), the texts with commas
between them are read as a list of the parts (`listBody_append`). The members of an object are read
one after another, each changing a state (`Takes`, `objectBody_append`). Both hold for any way to
read a part. What a list holds was read by that way (`exists_of_mem_items`), and what every member
keeps of the state an object keeps (`invariant_of_members`). -/

namespace EntityTable.Codec.Json

variable {α σ : Type} {cs rest text : List Char} {texts : List (List Char)} {c : Char}

/-- The text is read as the value, whatever ends it. -/
structure Reads (reader : List Char → Except Fault (α × List Char)) (text : List Char)
    (value : α) : Prop where
  starts : ∃ c cs, text = c :: cs ∧ c ∉ surroundings
  read : ∀ rest, Delimited rest → reader (text ++ rest) = .ok (value, rest)

/-! ### Commas -/

/-- Several texts with a comma before each. -/
def afterCommas (texts : List (List Char)) : List Char := texts.flatMap fun text => ',' :: text

theorem joinCommas_cons : ∀ (text : List Char) (texts : List (List Char)),
    joinCommas (text :: texts) = text ++ afterCommas texts
  | text, [] => (List.append_nil text).symm
  | text, next :: texts => by
    rw [joinCommas, joinCommas_cons next texts, afterCommas, afterCommas, List.flatMap_cons]
    · rfl
    · exact List.cons_ne_nil _ _

theorem length_le_afterCommas (texts : List (List Char)) :
    texts.length ≤ (afterCommas texts).length := by
  induction texts with
  | nil => exact le_rfl
  | cons text texts ih =>
    simp only [afterCommas, List.flatMap_cons, List.length_append, List.length_cons] at ih ⊢
    omega

theorem length_le_joinCommas (texts : List (List Char)) :
    texts.length ≤ (joinCommas texts).length + 1 := by
  cases texts with
  | nil => exact Nat.zero_le _
  | cons text texts =>
    have h := length_le_afterCommas texts
    rw [joinCommas_cons, List.length_append, List.length_cons]
    omega

theorem delimited_afterCommas (texts : List (List Char)) (hc : c ∈ endMarks) (rest : List Char) :
    Delimited (afterCommas texts ++ c :: rest) := by
  cases texts with
  | nil => exact delimited_cons hc
  | cons text texts => exact delimited_cons (by decide)

theorem listText_append (texts : List (List Char)) (rest : List Char) :
    listText texts ++ rest = '[' :: (joinCommas texts ++ ']' :: rest) := by
  rw [listText, List.cons_append, List.cons_append, List.append_assoc, List.singleton_append]

theorem objectText_append (texts : List (List Char)) (rest : List Char) :
    objectText texts ++ rest = '\x7b' :: (joinCommas texts ++ '\x7d' :: rest) := by
  rw [objectText, List.cons_append, List.cons_append, List.append_assoc, List.singleton_append]

/-! ### Items -/

section Items

variable {item : List Char → Except Fault (α × List Char)} {values : List α} {value : α}

theorem nextItem_first (h : Reads item text value) (rest : List Char) :
    nextItem true (text ++ rest) = .ok (.item (text ++ rest)) := by
  obtain ⟨c, cs, rfl, hc⟩ := h.starts
  rw [List.cons_append, nextItem, skipBlanks_cons hc]
  show (if c = ']' then _ else _) = _
  rw [if_neg (ne_of_notMem hc (by decide)), if_pos rfl]

theorem nextItem_comma (h : Reads item text value) (rest : List Char) :
    nextItem false (',' :: (text ++ rest)) = .ok (.item (text ++ rest)) := by
  obtain ⟨c, cs, rfl, hc⟩ := h.starts
  have hcomma : skipBlanks (',' :: c :: (cs ++ rest)) = ',' :: c :: (cs ++ rest) := rfl
  have hend : c ≠ ']' := ne_of_notMem hc (by decide)
  rw [List.cons_append, nextItem, hcomma]
  simp [skipBlanks_cons hc, hend]

/-- One item is read, and then the others. -/
theorem items_step {first : Bool} (hnext : nextItem first cs = .ok (.item text))
    (hitem : item text = .ok (value, rest)) (fuel : Nat) : items item (fuel + 1) first cs =
      (fun (more, rest) => (value :: more, rest)) <$> items item fuel false rest := by
  rw [items, hnext]
  show (item text >>= _) = _
  rw [hitem]
  rfl

theorem items_afterCommas (h : List.Forall₂ (Reads item) texts values) (rest : List Char) :
    ∀ {fuel : Nat}, texts.length < fuel →
      items item fuel false (afterCommas texts ++ ']' :: rest) = .ok (values, rest) := by
  induction h with
  | nil =>
    intro fuel hfuel
    obtain ⟨fuel, rfl⟩ := Nat.exists_eq_succ_of_ne_zero (Nat.ne_zero_of_lt hfuel)
    rfl
  | @cons text value texts values hread _ ih =>
    intro fuel hfuel
    obtain ⟨fuel, rfl⟩ := Nat.exists_eq_succ_of_ne_zero (Nat.ne_zero_of_lt hfuel)
    have hitem := hread.read _ (delimited_afterCommas texts (c := ']') (by decide) rest)
    rw [afterCommas, List.flatMap_cons, ← afterCommas, List.append_assoc, List.cons_append,
      items_step (nextItem_comma hread _) hitem, ih (Nat.lt_of_succ_lt_succ hfuel)]
    rfl

/-- **A list is read back** if its items are. -/
theorem listBody_append (h : List.Forall₂ (Reads item) texts values) (rest : List Char) :
    listBody item (joinCommas texts ++ ']' :: rest) = .ok (values, rest) := by
  have hfuel : texts.length < (joinCommas texts ++ ']' :: rest).length + 1 := by
    have := length_le_joinCommas texts
    rw [List.length_append, List.length_cons]
    omega
  unfold listBody
  generalize (joinCommas texts ++ ']' :: rest).length + 1 = fuel at hfuel
  obtain ⟨fuel, rfl⟩ := Nat.exists_eq_succ_of_ne_zero (Nat.ne_zero_of_lt hfuel)
  cases h with
  | nil => rfl
  | @cons text value texts values hread hmore =>
    have hitem := hread.read _ (delimited_afterCommas texts (c := ']') (by decide) rest)
    rw [joinCommas_cons, List.append_assoc, items_step (nextItem_first hread _) hitem,
      items_afterCommas hmore rest (Nat.lt_of_succ_lt_succ hfuel)]
    rfl

/-- What a list is read to hold was read as an item. -/
theorem exists_of_mem_items : ∀ {fuel : Nat} {first : Bool} {cs : List Char} {values : List α},
    items item fuel first cs = .ok (values, rest) → ∀ value ∈ values,
      ∃ text rest, item text = .ok (value, rest)
  | 0, _, _, _, h => by cases h
  | fuel + 1, first, cs, values, h => by
    obtain ⟨start, -, h⟩ := bind_eq_ok.mp h
    cases start with
    | finished rest =>
      cases h
      exact fun value hvalue => absurd hvalue List.not_mem_nil
    | item text =>
      obtain ⟨⟨value, after⟩, hitem, h⟩ := bind_eq_ok.mp h
      obtain ⟨⟨more, final⟩, hmore, h⟩ := bind_eq_ok.mp h
      cases h
      intro other hother
      rcases List.mem_cons.mp hother with rfl | hother
      · exact ⟨text, after, hitem⟩
      · exact exists_of_mem_items hmore other hother

end Items

/-! ### Members -/

section Members

variable {member : σ → String → List Char → Except Fault (σ × List Char)}
  {parts : List (String × List Char)} {state final : σ}

/-- Members, each with its key and the text of its value, take one state to another. -/
inductive Takes (member : σ → String → List Char → Except Fault (σ × List Char)) :
    σ → List (String × List Char) → σ → Prop where
  | nil (state : σ) : Takes member state [] state
  | cons {state next final : σ} {key : String} {text : List Char}
      {parts : List (String × List Char)} :
    (∀ rest, Delimited rest → member state key (':' :: (text ++ rest)) = .ok (next, rest)) →
    Takes member next parts final → Takes member state ((key, text) :: parts) final

/-- The texts of members. -/
def partTexts (parts : List (String × List Char)) : List (List Char) :=
  parts.map fun (key, text) => memberText key text

theorem memberText_append (key : String) (text rest : List Char) : memberText key text ++ rest =
    '\x22' :: (key.toList.flatMap escapeChar ++ '\x22' :: ':' :: (text ++ rest)) := by
  rw [memberText, List.append_assoc, stringText_append, List.cons_append]

/-- One member is read, and then the others. -/
theorem members_step {first : Bool} {key : String} {next : σ}
    (hnext : nextMember first cs =
      .ok (.key (key.toList.flatMap escapeChar ++ '\x22' :: ':' :: text)))
    (hmember : member state key (':' :: text) = .ok (next, rest)) (fuel : Nat) :
    members member (fuel + 1) first state cs = members member fuel false next rest := by
  rw [members, hnext]
  show (stringAfterQuote _ >>= _) = _
  rw [stringAfterQuote_append]
  show (member state key (':' :: text) >>= _) = _
  rw [hmember]
  rfl

theorem members_afterCommas (h : Takes member state parts final) (rest : List Char) :
    ∀ {fuel : Nat}, parts.length < fuel →
      members member fuel false state (afterCommas (partTexts parts) ++ '\x7d' :: rest) =
        .ok (final, rest) := by
  induction h with
  | nil state =>
    intro fuel hfuel
    obtain ⟨fuel, rfl⟩ := Nat.exists_eq_succ_of_ne_zero (Nat.ne_zero_of_lt hfuel)
    rfl
  | @cons state next final key text parts hread _ ih =>
    intro fuel hfuel
    obtain ⟨fuel, rfl⟩ := Nat.exists_eq_succ_of_ne_zero (Nat.ne_zero_of_lt hfuel)
    have hmember := hread _ (delimited_afterCommas (partTexts parts) (c := '\x7d') (by decide) rest)
    have htexts : afterCommas (partTexts ((key, text) :: parts)) ++ '\x7d' :: rest =
        ',' :: (memberText key text ++ (afterCommas (partTexts parts) ++ '\x7d' :: rest)) := by
      rw [partTexts, List.map_cons, ← partTexts, afterCommas, List.flatMap_cons, ← afterCommas,
        List.append_assoc]
      rfl
    rw [htexts, memberText_append, members_step rfl hmember, ih (Nat.lt_of_succ_lt_succ hfuel)]

/-- **An object is read back** if its members are. -/
theorem objectBody_append (h : Takes member state parts final) (rest : List Char) :
    objectBody member state (joinCommas (partTexts parts) ++ '\x7d' :: rest) =
      .ok (final, rest) := by
  have hfuel : parts.length < (joinCommas (partTexts parts) ++ '\x7d' :: rest).length + 1 := by
    have := length_le_joinCommas (partTexts parts)
    rw [partTexts, List.length_map, ← partTexts] at this
    rw [List.length_append, List.length_cons]
    omega
  unfold objectBody
  generalize (joinCommas (partTexts parts) ++ '\x7d' :: rest).length + 1 = fuel at hfuel
  obtain ⟨fuel, rfl⟩ := Nat.exists_eq_succ_of_ne_zero (Nat.ne_zero_of_lt hfuel)
  cases h with
  | nil => rfl
  | @cons _ next _ key text parts hread hmore =>
    have hmember := hread _ (delimited_afterCommas (partTexts parts) (c := '\x7d') (by decide) rest)
    rw [partTexts, List.map_cons, ← partTexts, joinCommas_cons, List.append_assoc,
      memberText_append, members_step rfl hmember,
      members_afterCommas hmore rest (Nat.lt_of_succ_lt_succ hfuel)]

/-- **What every member keeps of the state an object keeps.** -/
theorem invariant_of_members (Invariant : σ → Prop)
    (hstep : ∀ {state key cs next rest}, Invariant state → member state key cs = .ok (next, rest) →
      Invariant next) : ∀ {fuel : Nat} {first : Bool} {state : σ} {cs : List Char},
    Invariant state → members member fuel first state cs = .ok (final, rest) → Invariant final
  | 0, _, _, _, _, h => by cases h
  | fuel + 1, first, state, cs, hstate, h => by
    obtain ⟨start, -, h⟩ := bind_eq_ok.mp h
    cases start with
    | finished rest =>
      cases h
      exact hstate
    | key cs =>
      obtain ⟨⟨key, after⟩, -, h⟩ := bind_eq_ok.mp h
      obtain ⟨⟨next, behind⟩, hmember, h⟩ := bind_eq_ok.mp h
      exact invariant_of_members Invariant hstep (hstep hstate hmember) h

end Members

end EntityTable.Codec.Json
