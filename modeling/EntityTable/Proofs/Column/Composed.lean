import EntityTable.Proofs.Column.Imports
import EntityTable.Proofs.Source.Lexing
import Mathlib.Data.List.TakeWhile

/-! # Composed templates

Templates are composed on their texts, before any source is known. What the composition writes for a
source is what its two stages write one after the other, up to parentheses around a single word
(`Template.fill_around_eq`): whatever follows the hole of the composition is an operator exactly if
it is one in the inner template (`Template.isPostfix_around`), so the order of composing does not
matter (`Template.around_assoc`). Where the texts meet no hole is lost, since no expression begins with
a closing brace; one more is made exactly if the inner template ends in an opening brace, in a comment
then, and a closing one follows the outer hole (`Template.hasOneHole_around_iff`). -/

namespace EntityTable.Column

/-! ### Texts with holes -/

/-- The text of a hole. -/
def holeText : List Char := ['\x7b', '\x7d']

/-- No hole is in the text. -/
def IsSolid (text : List Char) : Prop := ¬ holeText <:+: text

section Pieces

variable {c : Char} {text piece before after : List Char}

theorem isSolid_nil : IsSolid [] := fun hhole => nomatch List.eq_nil_of_infix_nil hhole

theorem holePieces_ne_nil (text : List Char) : holePieces text ≠ [] := by
  fun_cases holePieces text <;> simp

theorem holePieces_cons (h : ¬ holeText <+: c :: text) :
    holePieces (c :: text) = (holePieces text).modifyHead (c :: ·) := by
  rw [holePieces.eq_3]
  · cases hpieces : holePieces text with
    | nil => exact absurd hpieces (holePieces_ne_nil text)
    | cons piece pieces => rfl
  · rintro rest rfl rfl
    exact h ⟨rest, rfl⟩

/-- The pieces are the parts between the holes. -/
theorem intercalate_holePieces (text : List Char) :
    holeText.intercalate (holePieces text) = text := by
  fun_induction holePieces text with
  | case1 => rfl
  | case2 rest ih =>
    rw [List.intercalate_cons_of_ne_nil (holePieces_ne_nil rest), ih]
    rfl
  | case3 c rest hno piece pieces hpieces ih =>
    rw [hpieces] at ih
    rw [← ih]
    cases pieces <;> simp [List.intercalate, List.intersperse]
  | case4 c rest hno hpieces ih => exact absurd hpieces (holePieces_ne_nil rest)

theorem prefix_of_holePieces {pieces : List (List Char)} (h : holePieces text = piece :: pieces) :
    piece <+: text := by
  rw [← intercalate_holePieces text, h]
  cases pieces with
  | nil => simp [List.intercalate]
  | cons next pieces => simp [List.intercalate, List.intersperse]

/-- No piece has a hole in it. -/
theorem isSolid_of_mem_holePieces (h : piece ∈ holePieces text) : IsSolid piece := by
  fun_induction holePieces text generalizing piece with
  | case1 =>
    rw [List.mem_singleton.mp h]
    exact isSolid_nil
  | case2 rest ih =>
    rcases List.mem_cons.mp h with rfl | h
    · exact isSolid_nil
    · exact ih h
  | case3 c rest hno first pieces hpieces ih =>
    rw [hpieces] at ih
    rcases List.mem_cons.mp h with rfl | h
    · intro hhole
      rcases List.infix_cons_iff.mp hhole with ⟨tail, htail⟩ | hhole
      · -- A hole at the start of the piece would be one at the start of the text.
        obtain ⟨rfl, rfl⟩ := List.cons.inj htail
        obtain ⟨tail', htail'⟩ := prefix_of_holePieces hpieces
        exact hno (tail ++ tail') rfl htail'.symm
      · exact ih List.mem_cons_self hhole
    · exact ih (List.mem_cons_of_mem _ h)
  | case4 c rest hno hpieces ih => exact absurd hpieces (holePieces_ne_nil rest)

theorem holePieces_of_isSolid (h : IsSolid text) : holePieces text = [text] := by
  induction text with
  | nil => rfl
  | cons c text ih =>
    rw [holePieces_cons fun hprefix => h hprefix.isInfix,
      ih fun hhole => h (List.infix_cons_iff.mpr (Or.inr hhole))]
    rfl

theorem holePieces_append_of_isSolid (h : IsSolid before) (after : List Char) :
    holePieces (before ++ (holeText ++ after)) = before :: holePieces after := by
  induction before with
  | nil => rfl
  | cons c before ih =>
    have hsolid : IsSolid before := fun hhole => h (List.infix_cons_iff.mpr (Or.inr hhole))
    have hno : ¬ holeText <+: c :: (before ++ (holeText ++ after)) := by
      rintro ⟨tail, htail⟩
      obtain ⟨rfl, hrest⟩ := List.cons.inj htail
      -- The closing brace is in the text before the hole, since the hole begins with another.
      cases before with
      | nil => cases hrest
      | cons c' before =>
        obtain ⟨rfl, -⟩ := List.cons.inj hrest
        exact h ⟨[], before, rfl⟩
    rw [List.cons_append, holePieces_cons hno, ih hsolid]
    rfl

/-- No brace is in the text. -/
def IsBraceless (text : List Char) : Prop := '\x7b' ∉ text ∧ '\x7d' ∉ text

instance (text : List Char) : Decidable (IsBraceless text) := inferInstanceAs (Decidable (_ ∧ _))

theorem IsBraceless.isSolid (h : IsBraceless text) : IsSolid text := fun hhole =>
  h.1 (hhole.subset List.mem_cons_self)

theorem IsBraceless.append (hbefore : IsBraceless before) (hafter : IsBraceless after) :
    IsBraceless (before ++ after) := by
  simp only [IsBraceless, List.mem_append, not_or]
  exact ⟨⟨hbefore.1, hafter.1⟩, hbefore.2, hafter.2⟩

/-- The two braces of a hole come together where the texts meet. -/
def MakesHole (before after : List Char) : Prop :=
  before.getLast? = some '\x7b' ∧ after.head? = some '\x7d'

/-- **One text after another has no hole** if neither has one and none is made where they meet. -/
theorem isSolid_append_iff :
    IsSolid (before ++ after) ↔ IsSolid before ∧ IsSolid after ∧ ¬ MakesHole before after := by
  constructor
  · intro h
    refine ⟨fun hhole => h (hhole.trans (List.prefix_append before after).isInfix),
      fun hhole => h (hhole.trans (List.suffix_append before after).isInfix), ?_⟩
    rintro ⟨hlast, hhead⟩
    obtain ⟨before', rfl⟩ := List.getLast?_eq_some_iff.mp hlast
    obtain ⟨after', rfl⟩ := List.head?_eq_some_iff.mp hhead
    exact h ⟨before', after', by simp [holeText]⟩
  · rintro ⟨hbefore, hafter, hseam⟩ hhole
    rcases List.infix_append_iff.mp hhole with hhole | hhole | ⟨l, l', heq, hl, hl'⟩
    · exact hbefore hhole
    · exact hafter hhole
    · match l, heq with
      | [], heq =>
        obtain rfl : holeText = l' := heq
        exact hafter hl'.isInfix
      | [_], heq =>
        -- Each text has one of the two braces.
        obtain ⟨rfl, rfl⟩ := List.cons.inj heq
        obtain ⟨before', rfl⟩ := hl
        obtain ⟨after', rfl⟩ := hl'
        exact hseam ⟨List.getLast?_concat, rfl⟩
      | [_, _], heq =>
        obtain ⟨rfl, hrest⟩ := List.cons.inj heq
        obtain ⟨rfl, -⟩ := List.cons.inj hrest
        exact hbefore hl.isInfix
      | _ :: _ :: _ :: _, heq => cases heq

/-- Where two texts meet there is no hole unless both have braces. -/
theorem not_makesHole (h : IsBraceless before ∨ IsBraceless after) : ¬ MakesHole before after := by
  rintro ⟨hlast, hhead⟩
  rcases h with h | h
  · exact h.1 (List.mem_of_getLast? hlast)
  · exact h.2 (List.mem_of_head? hhead)

theorem IsSolid.append (hbefore : IsSolid before) (hafter : IsSolid after)
    (h : IsBraceless before ∨ IsBraceless after) : IsSolid (before ++ after) :=
  isSolid_append_iff.mpr ⟨hbefore, hafter, not_makesHole h⟩

/-- A hole that is made where two texts meet is the only one in them. -/
theorem holePieces_append_of_makesHole (hbefore : IsSolid before) (hafter : IsSolid after)
    (h : MakesHole before after) : ∃ front back, before = front ++ ['\x7b'] ∧
      after = '\x7d' :: back ∧ holePieces (before ++ after) = [front, back] := by
  obtain ⟨front, rfl⟩ := List.getLast?_eq_some_iff.mp h.1
  obtain ⟨back, rfl⟩ := List.head?_eq_some_iff.mp h.2
  have hfront : IsSolid front := fun hhole =>
    hbefore (hhole.trans (List.prefix_append front _).isInfix)
  have hback : IsSolid back := fun hhole => hafter (List.infix_cons_iff.mpr (Or.inr hhole))
  refine ⟨front, back, rfl, rfl, ?_⟩
  rw [List.append_assoc]
  show holePieces (front ++ (holeText ++ back)) = _
  rw [holePieces_append_of_isSolid hfront, holePieces_of_isSolid hback]

end Pieces

/-! ### Templates with one hole -/

namespace Template

variable {t outer inner : Template} {source : String}

/-- The text of the template has one hole, and it is between the two texts of the template. -/
def HasOneHole (t : Template) : Prop :=
  holePieces t.text.toList = [t.before.toList, t.after.toList]

theorem toList_text (t : Template) :
    t.text.toList = t.before.toList ++ (holeText ++ t.after.toList) := by
  rw [text, String.toList_append, String.toList_append, List.append_assoc]
  rfl

theorem hasOneHole_iff : t.HasOneHole ↔ IsSolid t.before.toList ∧ IsSolid t.after.toList := by
  constructor
  · intro h
    exact ⟨isSolid_of_mem_holePieces (h ▸ List.mem_cons_self),
      isSolid_of_mem_holePieces (h ▸ List.mem_cons_of_mem _ List.mem_cons_self)⟩
  · rintro ⟨hbefore, hafter⟩
    rw [HasOneHole, toList_text, holePieces_append_of_isSolid hbefore, holePieces_of_isSolid hafter]

theorem hasOneHole_identity : identity.HasOneHole := rfl

/-- A text that is a template is the text of the template, and an expression once its hole is
filled. -/
theorem isExpr_of_ofText {text : String} (h : ofText text = .ok t) :
    holePieces text.toList = [t.before.toList, t.after.toList] ∧
      ∃ e, Source.Expr.ofText (t.fill sampleSource) = .ok e := by
  unfold ofText at h
  split at h
  · rename_i before after hpieces
    cases hexpr : Source.Expr.ofText (fill ⟨.ofList before, .ofList after⟩ sampleSource) with
    | error e =>
      simp only [hexpr] at h
      cases h
    | ok e =>
      simp only [hexpr] at h
      cases h
      rw [String.toList_ofList, String.toList_ofList]
      exact ⟨hpieces, e, hexpr⟩
  · cases h

theorem text_of_ofText {text : String} (h : ofText text = .ok t) : t.text = text := by
  rw [← String.toList_inj, toList_text, ← intercalate_holePieces text.toList,
    (isExpr_of_ofText h).1]
  simp [List.intercalate, List.intersperse]

theorem hasOneHole_of_ofText {text : String} (h : ofText text = .ok t) : t.HasOneHole := by
  rw [HasOneHole, text_of_ofText h]
  exact (isExpr_of_ofText h).1

/-- No hole is made where a text meets the beginning of a template: no expression begins with a
closing brace. -/
theorem not_makesHole_of_ofText {text : String} (h : ofText text = .ok t) (before : List Char) :
    ¬ MakesHole before t.before.toList := by
  rintro ⟨-, hhead⟩
  obtain ⟨cs, hcs⟩ := List.head?_eq_some_iff.mp hhead
  obtain ⟨-, e, hexpr⟩ := isExpr_of_ofText h
  have hfill : (t.fill sampleSource).toList =
      '\x7d' :: (cs ++ (t.guarded sampleSource ++ t.after).toList) := by
    rw [fill, String.append_assoc, String.toList_append, hcs]
    rfl
  have htokens : Source.Token.ofText? (t.fill sampleSource) = none :=
    Source.Lexer.ofText?_closing .brace hfill
  rw [Source.Expr.ofText, Source.Parser.runText, htokens] at hexpr
  cases hexpr

/-! ### Composing templates -/

theorem fill_identity (source : String) : identity.fill source = source := by
  have hguarded : identity.guarded source = source :=
    if_neg (by simp [isPostfix, identity, Text.trimStart])
  rw [fill, hguarded]
  simp [identity]

/-- A text that does not start with an operator leaves the operator after the hole as it is. -/
theorem isPostfix_append {before before' rest : String} (h : isPostfix ⟨before', rest⟩ = false)
    (t : Template) : isPostfix ⟨before, t.after ++ rest⟩ = t.isPostfix := by
  simp only [isPostfix, Text.trimStart, String.toList_append, List.dropWhile_append] at h ⊢
  cases t.after.toList.dropWhile Text.isBlank with
  | nil => exact h
  | cons c cs => rfl

/-- Neither does a closing delimiter. -/
theorem isPostfix_closing (d : Source.Delimiter) (before : String) {rest : String}
    {cs : List Char} (h : rest.toList = d.closing :: cs) : isPostfix ⟨before, rest⟩ = false := by
  simp only [isPostfix, Text.trimStart, h]
  cases d <;> rfl

/-- Parentheses around a template leave the operator after its hole as it is. -/
theorem isPostfix_enclose (t : Template) (opening : String) :
    isPostfix ⟨opening ++ t.before, t.after ++ ")"⟩ = t.isPostfix :=
  isPostfix_append (isPostfix_closing .paren t.before rfl) t

theorem fill_enclose (t : Template) (opening source : String) :
    fill ⟨opening ++ t.before, t.after ++ ")"⟩ source = opening ++ t.fill source ++ ")" := by
  rw [fill, guarded, isPostfix_enclose, fill, guarded]
  simp only [String.append_assoc]

theorem fill_borrowed (h : t.isIdentity = false) (source : String) :
    t.borrowed.fill source = "&(" ++ t.fill source ++ ")" := by
  rw [borrowed, h, if_neg Bool.false_ne_true, fill_enclose]

/-- The inner template in parentheses if an operator follows the hole of the outer one. -/
def under (inner outer : Template) : Template :=
  if outer.isPostfix then ⟨"(" ++ inner.before, inner.after ++ ")"⟩ else inner

/-- **Composing puts the inner template into the hole**, in parentheses if need be. -/
theorem around_eq (hinner : inner.isIdentity = false) : outer.around inner =
    ⟨outer.before ++ (inner.under outer).before, (inner.under outer).after ++ outer.after⟩ := by
  unfold around under
  rw [hinner, if_neg Bool.false_ne_true]
  cases houter : outer.isIdentity with
  | true =>
    rw [isIdentity_iff.mp houter, if_pos rfl, if_neg (by decide)]
    simp [identity]
  | false =>
    rw [if_neg Bool.false_ne_true]
    split <;> simp only [String.append_assoc]

theorem isPostfix_under : (inner.under outer).isPostfix = inner.isPostfix := by
  unfold under
  split
  · exact inner.isPostfix_enclose "("
  · rfl

theorem fill_under (source : String) : (inner.under outer).fill source =
    if outer.isPostfix then "(" ++ inner.fill source ++ ")" else inner.fill source := by
  unfold under
  split
  · exact inner.fill_enclose "(" source
  · rfl

/-- **The operator after the hole of the inner template stays the one after the hole.** -/
theorem isPostfix_around (hinner : inner.isIdentity = false) :
    (outer.around inner).isPostfix = inner.isPostfix := by
  rw [around_eq hinner]
  unfold under
  split
  · have hafter : inner.after ++ ")" ++ outer.after = inner.after ++ (")" ++ outer.after) :=
      String.append_assoc
    have hclosing : (")" ++ outer.after).toList = ')' :: outer.after.toList := by
      rw [String.toList_append]
      rfl
    dsimp only
    rw [hafter]
    exact isPostfix_append (isPostfix_closing .paren outer.before hclosing) inner
  · rename_i hoperator
    exact isPostfix_append (Bool.not_eq_true _ |>.mp hoperator) inner

/-- **What the composition of two templates writes**: the inner one is filled, and put into
parentheses if an operator follows the hole of the outer one. -/
theorem fill_around_eq (hinner : inner.isIdentity = false) (source : String) :
    (outer.around inner).fill source = outer.before ++
      (if outer.isPostfix then "(" ++ inner.fill source ++ ")" else inner.fill source) ++
        outer.after := by
  rw [← fill_under, fill, guarded, isPostfix_around hinner, around_eq hinner, fill, guarded,
    isPostfix_under]
  simp only [String.append_assoc]

/-- **Composed templates are filled in two stages** if the first one yields no plain source. -/
theorem fill_around_of_not_plain
    (h : inner = identity ∨ isPlainSource (inner.fill source) = false) :
    (outer.around inner).fill source = outer.fill (inner.fill source) := by
  cases hinner : inner.isIdentity with
  | true => rw [isIdentity_iff.mp hinner, around_identity, fill_identity]
  | false =>
    have hsource : isPlainSource (inner.fill source) = false := h.resolve_left fun heq =>
      Bool.false_ne_true (hinner.symm.trans (isIdentity_iff.mpr heq))
    rw [fill_around_eq hinner]
    show _ = outer.before ++ outer.guarded (inner.fill source) ++ outer.after
    rw [guarded, hsource, Bool.not_false, Bool.and_true]

/-- A parenthesis closes after the hole. -/
def IsClosed (t : Template) : Prop := ')' ∈ t.after.toList

/-- What a closed template yields is in parentheses wherever an operator follows. -/
theorem IsClosed.isPlainSource_fill (h : t.IsClosed) (source : String) :
    isPlainSource (t.fill source) = false := by
  have hmem : ')' ∈ (t.fill source).toList := by
    rw [fill, String.toList_append]
    exact List.mem_append_right _ h
  rw [isPlainSource, Bool.and_eq_false_iff]
  right
  rw [List.all_eq_false]
  exact ⟨')', hmem, by decide⟩

theorem isClosed_borrowed (h : t.isIdentity = false) : t.borrowed.IsClosed := by
  rw [borrowed, h, if_neg Bool.false_ne_true, IsClosed, String.toList_append]
  exact List.mem_append_right _ List.mem_cons_self

theorem fill_around (hinner : inner = identity ∨ inner.IsClosed) (source : String) :
    (outer.around inner).fill source = outer.fill (inner.fill source) :=
  fill_around_of_not_plain (hinner.imp_right fun h => h.isPlainSource_fill source)

theorem isIdentity_around (hinner : inner.isIdentity = false) :
    (outer.around inner).isIdentity = false := by
  have hunder : (inner.under outer).isIdentity = false := by
    unfold under
    split
    · simp [isIdentity]
    · exact hinner
  rw [around_eq hinner]
  rw [isIdentity, Bool.and_eq_false_iff] at hunder ⊢
  simp only [String.isEmpty_eq_false_iff, ne_eq, String.append_eq_empty_iff] at hunder ⊢
  tauto

theorem under_around (t : Template) (hinner : inner.isIdentity = false) :
    (outer.around inner).under t = ⟨(outer.under t).before ++ (inner.under outer).before,
      (inner.under outer).after ++ (outer.under t).after⟩ := by
  rw [around_eq hinner, under]
  conv_rhs => rw [under.eq_1 outer t]
  split <;> simp only [String.append_assoc]

/-- **The order in which templates are composed does not matter.** -/
theorem around_assoc (t u v : Template) : (t.around u).around v = t.around (u.around v) := by
  cases hv : v.isIdentity with
  | true => rw [isIdentity_iff.mp hv, around_identity, around_identity]
  | false =>
  cases hu : u.isIdentity with
  | true => rw [isIdentity_iff.mp hu, around_identity, identity_around]
  | false =>
    have hv' : v.under (t.around u) = v.under u := by rw [under, isPostfix_around hu, under]
    rw [around_eq hv, around_eq (isIdentity_around hv), hv', around_eq hu, under_around t hv]
    simp only [String.append_assoc]

/-! ### Holes of composed templates -/

/-- No brace is in the texts of the template. -/
def IsBraceless (t : Template) : Prop :=
  Column.IsBraceless t.before.toList ∧ Column.IsBraceless t.after.toList

theorem IsBraceless.hasOneHole (h : t.IsBraceless) : t.HasOneHole :=
  hasOneHole_iff.mpr ⟨h.1.isSolid, h.2.isSolid⟩

/-- Texts without braces around a template make no hole. -/
theorem HasOneHole.enclose (h : t.HasOneHole) {opening closing : String}
    (hopening : Column.IsBraceless opening.toList) (hclosing : Column.IsBraceless closing.toList) :
    HasOneHole ⟨opening ++ t.before, t.after ++ closing⟩ := by
  obtain ⟨hbefore, hafter⟩ := hasOneHole_iff.mp h
  rw [hasOneHole_iff, String.toList_append, String.toList_append]
  exact ⟨hopening.isSolid.append hbefore (Or.inl hopening),
    hafter.append hclosing.isSolid (Or.inr hclosing)⟩

theorem HasOneHole.borrowed (h : t.HasOneHole) : t.borrowed.HasOneHole := by
  unfold Template.borrowed
  split
  · exact h
  · exact h.enclose (by decide) (by decide)

theorem HasOneHole.under (h : inner.HasOneHole) (outer : Template) :
    (inner.under outer).HasOneHole := by
  unfold Template.under
  split
  · exact h.enclose (by decide) (by decide)
  · exact h

/-- Parentheses do not matter for the holes that are made: no brace follows them. -/
theorem makesHole_after_under : MakesHole (inner.under outer).after.toList outer.after.toList ↔
    MakesHole inner.after.toList outer.after.toList := by
  unfold under
  split
  · rename_i hoperator
    have hhead : outer.after.toList.head? ≠ some '\x7d' := fun hhead => by
      obtain ⟨cs, hcs⟩ := List.head?_eq_some_iff.mp hhead
      rw [isPostfix_closing .brace outer.before hcs] at hoperator
      cases hoperator
    exact ⟨fun h => absurd h.2 hhead, fun h => absurd h.2 hhead⟩
  · rfl

theorem not_makesHole_before_under (h : ¬ MakesHole outer.before.toList inner.before.toList) :
    ¬ MakesHole outer.before.toList (inner.under outer).before.toList := by
  unfold under
  split
  · rintro ⟨-, hhead⟩
    rw [String.toList_append] at hhead
    cases hhead
  · exact h

section Holes
variable (houter : outer.HasOneHole) (hinner : inner.HasOneHole)
  (hseam : ¬ MakesHole outer.before.toList inner.before.toList)
include houter hinner hseam

/-- The hole between the texts of the composition is the first one. -/
theorem isSolid_before_around : IsSolid (outer.around inner).before.toList := by
  cases hidentity : inner.isIdentity with
  | true =>
    rw [isIdentity_iff.mp hidentity, around_identity]
    exact (hasOneHole_iff.mp houter).1
  | false =>
    rw [around_eq hidentity, String.toList_append, isSolid_append_iff]
    exact ⟨(hasOneHole_iff.mp houter).1, (hasOneHole_iff.mp (hinner.under outer)).1,
      not_makesHole_before_under hseam⟩

/-- **Composed templates have one hole unless another is made behind it.** -/
theorem hasOneHole_around_iff :
    (outer.around inner).HasOneHole ↔ ¬ MakesHole inner.after.toList outer.after.toList := by
  have hbefore := isSolid_before_around houter hinner hseam
  rw [hasOneHole_iff, and_iff_right hbefore]
  cases hidentity : inner.isIdentity with
  | true =>
    rw [isIdentity_iff.mp hidentity, around_identity]
    exact iff_of_true (hasOneHole_iff.mp houter).2 fun h => nomatch h.1
  | false =>
    have hunder := (hasOneHole_iff.mp (hinner.under outer)).2
    rw [around_eq hidentity, String.toList_append, isSolid_append_iff, makesHole_after_under,
      and_iff_right hunder, and_iff_right (hasOneHole_iff.mp houter).2]

/-- Of the two holes that a composition has otherwise, the second is where the texts meet behind the
first. -/
theorem holePieces_around (h : MakesHole inner.after.toList outer.after.toList) :
    ∃ front back, inner.after.toList = front ++ ['\x7b'] ∧ outer.after.toList = '\x7d' :: back ∧
      holePieces (outer.around inner).text.toList =
        [(outer.around inner).before.toList, front, back] := by
  have hbefore := isSolid_before_around houter hinner hseam
  have hidentity : inner.isIdentity = false := by
    cases hidentity : inner.isIdentity with
    | true => rw [isIdentity_iff.mp hidentity] at h; cases h.1
    | false => rfl
  have hoperator : outer.isPostfix = false := by
    obtain ⟨cs, hcs⟩ := List.head?_eq_some_iff.mp h.2
    exact isPostfix_closing .brace outer.before hcs
  have hunder : inner.under outer = inner := by rw [under, hoperator, if_neg Bool.false_ne_true]
  obtain ⟨front, back, hfront, hback, hpieces⟩ := holePieces_append_of_makesHole
    (hasOneHole_iff.mp hinner).2 (hasOneHole_iff.mp houter).2 h
  refine ⟨front, back, hfront, hback, ?_⟩
  rw [toList_text, holePieces_append_of_isSolid hbefore, ← hpieces, ← String.toList_append,
    around_eq hidentity, hunder]

end Holes

theorem HasOneHole.around (houter : outer.HasOneHole) (hinner : inner.HasOneHole)
    (h : outer.IsBraceless ∨ inner.IsBraceless) : (outer.around inner).HasOneHole :=
  (hasOneHole_around_iff houter hinner (not_makesHole (h.imp And.left And.left))).mpr
    (not_makesHole (h.symm.imp And.right And.right))

/-! ### Templates from texts -/

/-- **Composing two templates is filling them one after the other.** The composition has the hole of
the outer template where that of the inner one is; a second hole appears only behind it, where a
closing brace follows the last character of the inner template. For every source it writes what the
two stages write, or parentheses around the one word that the first stage yields. The identity is
neutral, and the order of composing does not matter. -/
theorem around_of_ofText {outerText innerText : String} (houter : ofText outerText = .ok outer)
    (hinner : ofText innerText = .ok inner) :
    ((outer.around inner).HasOneHole ∧ ¬ MakesHole inner.after.toList outer.after.toList ∨
      MakesHole inner.after.toList outer.after.toList ∧ ∃ front back,
        holePieces (outer.around inner).text.toList =
          [(outer.around inner).before.toList, front, back]) ∧
    (∀ source, (outer.around inner).fill source = outer.fill (inner.fill source) ∨
      isPlainSource (inner.fill source) = true ∧
        outer.fill (inner.fill source) = outer.before ++ inner.fill source ++ outer.after ∧
        (outer.around inner).fill source =
          outer.before ++ ("(" ++ inner.fill source ++ ")") ++ outer.after) ∧
    outer.around identity = outer ∧ identity.around outer = outer ∧
    ∀ third, (outer.around inner).around third = outer.around (inner.around third) := by
  have hone := hasOneHole_of_ofText houter
  have hone' := hasOneHole_of_ofText hinner
  have hseam := not_makesHole_of_ofText hinner outer.before.toList
  have hiff := hasOneHole_around_iff hone hone' hseam
  refine ⟨?_, fun source => ?_, around_identity outer, identity_around outer,
    around_assoc outer inner⟩
  · by_cases hmakes : MakesHole inner.after.toList outer.after.toList
    · obtain ⟨front, back, -, -, hpieces⟩ := holePieces_around hone hone' hseam hmakes
      exact Or.inr ⟨hmakes, front, back, hpieces⟩
    · exact Or.inl ⟨hiff.mpr hmakes, hmakes⟩
  · cases hplain : isPlainSource (inner.fill source) with
    | false => exact Or.inl (fill_around_of_not_plain (Or.inr hplain))
    | true =>
    cases hidentity : inner.isIdentity with
    | true => exact Or.inl (fill_around_of_not_plain (Or.inl (isIdentity_iff.mp hidentity)))
    | false =>
      have houterFill : outer.fill (inner.fill source) =
          outer.before ++ inner.fill source ++ outer.after := by
        rw [fill, guarded, hplain, Bool.not_true, Bool.and_false, if_neg Bool.false_ne_true]
      have hfill : (outer.around inner).fill source = _ := fill_around_eq hidentity source
      cases hoperator : outer.isPostfix with
      | false =>
        rw [hoperator, if_neg Bool.false_ne_true] at hfill
        exact Or.inl (hfill.trans houterFill.symm)
      | true =>
        rw [hoperator, if_pos rfl] at hfill
        exact Or.inr ⟨rfl, houterFill, hfill⟩

/-- A method of what a function returns: the reference is inside of the parentheses. -/
theorem around_of_ofText_method : ∃ outer inner, ofText "\x7b\x7d.value()" = .ok outer ∧
    ofText "decode_float(&\x7b\x7d)?" = .ok inner ∧ (outer.around inner).HasOneHole ∧
    (outer.around inner).fill "raw" = outer.fill (inner.fill "raw") ∧
    (outer.around inner).fill "raw" = "(decode_float(&raw)?).value()" := by
  have houter : ofText "\x7b\x7d.value()" = .ok ⟨"", ".value()"⟩ :=
    toOption_eq_some.mp (by decide +kernel)
  have hinner : ofText "decode_float(&\x7b\x7d)?" = .ok ⟨"decode_float(&", ")?"⟩ :=
    toOption_eq_some.mp (by decide +kernel)
  obtain ⟨hhole, hfill, -⟩ := around_of_ofText houter hinner
  have hnone : ¬ MakesHole ")?".toList ".value()".toList := fun h => nomatch h.1
  have hword : isPlainSource (fill ⟨"decode_float(&", ")?"⟩ "raw") ≠ true := by decide +kernel
  exact ⟨_, _, houter, hinner, (hhole.resolve_right fun h => hnone h.1).1,
    (hfill "raw").resolve_right fun h => hword h.1, by decide +kernel⟩

/-- The comment at the end of the inner template goes on with the rest of the block around it, and the
two make a second hole. -/
theorem length_holePieces_around_comment : ∃ outer inner,
    ofText "\x7b\x7b\x7d\x7d" = .ok outer ∧ ofText "\x7b\x7d // \x7b" = .ok inner ∧
      (outer.around inner).text = "\x7b\x7b\x7d // \x7b\x7d" ∧
      (holePieces (outer.around inner).text.toList).length = 3 :=
  ⟨⟨"\x7b", "\x7d"⟩, ⟨"", " // \x7b"⟩, toOption_eq_some.mp (by decide +kernel),
    toOption_eq_some.mp (by decide +kernel), by decide +kernel, by decide +kernel⟩

end Template

end EntityTable.Column
