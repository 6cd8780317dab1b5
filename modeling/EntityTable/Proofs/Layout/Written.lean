import EntityTable.Layout.Code
import EntityTable.Proofs.Source.UseNames

/-! # What is written

Laid out pieces are written one after the other: nothing that has been written is changed, and what
is added are the characters of the pieces, blanks and line ends (`Piece.Within.write`). So a text of
which it is known what characters stand before it is found again in what is written, and where it
is to end a line it does (`exists_textOf_line`). -/

namespace EntityTable.Layout

/-- All characters of the piece have the property. -/
inductive Piece.Within (P : Char → Prop) : Piece → Prop
  | text {s : String} (h : ∀ c ∈ s.toList, P c) : Piece.Within P (.text s)
  | brk {b : Break} (hend : ∀ c ∈ b.atEnd.toList, P c) (hstart : ∀ c ∈ b.atStart.toList, P c)
      (hline : ∀ c ∈ b.inLine.toList, P c) : Piece.Within P (.brk b)
  | box {isConsistent : Bool} {indent : Int} {body : Pieces} (h : ∀ p ∈ body, Piece.Within P p) :
      Piece.Within P (.box isConsistent indent body)
  | force : Piece.Within P .force

/-- All characters of the pieces have the property. -/
def Within (P : Char → Prop) (pieces : Pieces) : Prop := ∀ p ∈ pieces, p.Within P

/-- From one cursor to another only characters with the property are written. -/
def Cursor.Adds (P : Char → Prop) (c c' : Cursor) : Prop :=
  ∃ added, c'.written.toList = c.written.toList ++ added ∧ ∀ x ∈ added, P x

section
variable {P : Char → Prop} {c c' c'' : Cursor}

namespace Cursor.Adds

theorem refl (P : Char → Prop) (c : Cursor) : c.Adds P c := ⟨[], by simp, nofun⟩

theorem trans (h : c.Adds P c') (h' : c'.Adds P c'') : c.Adds P c'' := by
  obtain ⟨added, hadded, hP⟩ := h
  obtain ⟨added', hadded', hP'⟩ := h'
  refine ⟨added ++ added', by rw [hadded', hadded, List.append_assoc], fun x hx => ?_⟩
  exact (List.mem_append.mp hx).elim (hP x) (hP' x)

end Cursor.Adds

theorem toList_pushn (s : String) (n : Nat) :
    (s.pushn ' ' n).toList = s.toList ++ List.replicate n ' ' := by
  induction n with
  | zero => simp [String.pushn, Nat.repeat]
  | succ n ih =>
    have hpush : s.pushn ' ' (n + 1) = (s.pushn ' ' n).push ' ' := rfl
    rw [hpush, String.toList_push, ih, List.replicate_succ', List.append_assoc]

/-- Pieces in a row add what each of them adds. -/
theorem adds_writeAll {pieces : Pieces} (h : ∀ p ∈ pieces, ∀ frame after c,
    Cursor.Adds P c (p.write frame after c)) (frame : Frame) (after : Nat) (c : Cursor) :
    c.Adds P (writeAll frame after pieces c) := by
  induction pieces generalizing c with
  | nil => exact .refl P c
  | cons p pieces ih =>
    rw [writeAll]
    exact (h p List.mem_cons_self frame _ c).trans
      (ih (fun q hq => h q (List.mem_cons_of_mem p hq)) _)

variable (hblank : P ' ')
include hblank

theorem Cursor.adds_put (c : Cursor) {s : String} (hs : ∀ x ∈ s.toList, P x) :
    c.Adds P (c.put s) := by
  refine ⟨List.replicate c.pending ' ' ++ s.toList, ?_, fun x hx => ?_⟩
  · rw [Cursor.put, String.toList_append, toList_pushn, List.append_assoc]
  · rcases List.mem_append.mp hx with hx | hx
    · exact (List.eq_of_mem_replicate hx) ▸ hblank
    · exact hs x hx

theorem Cursor.adds_write (c : Cursor) {s : String} (hs : ∀ x ∈ s.toList, P x) :
    c.Adds P (c.write s) := c.adds_put hblank hs

variable (hline : P '\n')
include hline

theorem Cursor.adds_endLine (c : Cursor) {b : Break} (hend : ∀ x ∈ b.atEnd.toList, P x)
    (hstart : ∀ x ∈ b.atStart.toList, P x) : c.Adds P (c.endLine b) := by
  have hfirst : c.Adds P (if b.atEnd.isEmpty then c else c.put b.atEnd) := by
    split
    · exact .refl P c
    · exact c.adds_put hblank hend
  have hnew (c : Cursor) (indent : Int) : c.Adds P { c with
      written := c.written.push '\n'
      pending := indent.toNat
      room := max (margin - indent) leastWidth } :=
    ⟨['\n'], String.toList_push .., fun x hx => (List.mem_singleton.mp hx) ▸ hline⟩
  unfold Cursor.endLine
  dsimp only
  generalize (if b.atEnd.isEmpty then c else c.put b.atEnd) = d at hfirst ⊢
  refine (hfirst.trans (hnew d (d.indent + b.offset))).trans ?_
  split
  · exact .refl P _
  · exact Cursor.adds_write hblank _ hstart

theorem Cursor.adds_meet (c : Cursor) (frame : Frame) {b : Break} (width : Nat)
    (h : Piece.Within P (.brk b)) : c.Adds P (c.meet frame b width) := by
  cases h with
  | brk hend hstart hinline =>
    have hcases : c.meet frame b width = c.goOn b ∨ c.meet frame b width = c.endLine b :=
      ite_eq_or_eq ..
    rcases hcases with hmeet | hmeet
    · rw [hmeet]
      exact ⟨b.inLine.toList, by simp [Cursor.goOn, String.toList_append], hinline⟩
    · rw [hmeet]
      exact c.adds_endLine hblank hline hend hstart

/-- **A piece adds its characters, blanks and line ends.** -/
theorem Piece.Within.write {p : Piece} (h : p.Within P) :
    ∀ frame after c, Cursor.Adds P c (p.write frame after c) := by
  induction h with
  | text h =>
    intro frame after c
    rw [Piece.write]
    exact c.adds_write hblank h
  | brk hend hstart hinline =>
    intro frame after c
    rw [Piece.write]
    exact c.adds_meet hblank hline frame _ (.brk hend hstart hinline)
  | box h ih =>
    intro frame after c
    rw [Piece.write]
    split
    · exact adds_writeAll ih _ after { c with indent := _ }
    · exact adds_writeAll ih _ after c
  | force =>
    intro frame after c
    rw [Piece.write]
    exact .refl P c

end

/-! ### Pieces in a row -/

theorem widthOf_append (ps qs : Pieces) : widthOf (ps ++ qs) = widthOf ps + widthOf qs := by
  induction ps with
  | nil => rw [List.nil_append, widthOf, Nat.zero_add]
  | cons p ps ih => rw [List.cons_append, widthOf, widthOf, ih, Nat.add_assoc]

theorem ahead_append (after : Nat) (ps qs : Pieces) :
    ahead after (ps ++ qs) = ahead (ahead after qs) ps := by
  induction ps with
  | nil => rfl
  | cons p ps ih => cases p <;> simp only [List.cons_append, ahead, ih]

theorem writeAll_append (frame : Frame) (after : Nat) (ps qs : Pieces) (c : Cursor) :
    writeAll frame after (ps ++ qs) c =
      writeAll frame after qs (writeAll frame (ahead after qs) ps c) := by
  induction ps generalizing c with
  | nil => rfl
  | cons p ps ih => rw [List.cons_append, writeAll, writeAll, ih, ahead_append]

mutual

theorem Piece.within_true : ∀ p : Piece, p.Within fun _ => True
  | .text _ => .text fun _ _ => trivial
  | .brk _ => .brk (fun _ _ => trivial) (fun _ _ => trivial) (fun _ _ => trivial)
  | .box _ _ body => .box (within_true body)
  | .force => .force

theorem within_true : ∀ ps : List Piece, Within (fun _ => True) ps
  | [] => nofun
  | p :: ps => List.forall_mem_cons.mpr ⟨p.within_true, within_true ps⟩

end

/-- The box of a file holds its pieces, apart from a break at the end. -/
theorem exists_cbox (front rest : Pieces) (s : String) : ∃ rest',
    cbox 0 (front ++ (word s ++ (hard ++ rest))) =
      [.box true 0 (front ++ (word s ++ (hard ++ rest')))] := by
  unfold cbox boxed
  split
  · rename_i heq
    have hlength := congrArg List.length heq
    simp only [word, hard, List.length_append, List.length_cons, List.length_nil] at hlength
    omega
  · rename_i b hlast _
    split
    · rename_i htentative
      obtain ⟨q, rest, rfl⟩ : ∃ q qs, rest = q :: qs := by
        refine List.exists_cons_of_ne_nil ?_
        rintro rfl
        simp only [List.append_nil, hard, List.getLast?_append, List.getLast?_singleton,
          Option.some_or, Option.some.injEq, Piece.brk.injEq] at hlast
        rw [← hlast] at htentative
        cases htentative
      refine ⟨(q :: rest).dropLast ++ never, ?_⟩
      rw [← List.append_assoc, ← List.append_assoc, List.dropLast_append_of_ne_nil (by simp)]
      simp only [List.append_assoc]
    · exact ⟨rest, rfl⟩
  · exact ⟨rest, rfl⟩

/-- A box that fits nowhere is broken. -/
theorem textOf_box {body : Pieces} (h : endless ≤ widthOf body) :
    textOf [.box true 0 body] = (writeAll .consistent 0 body .start).written := by
  have hwide : (widthOf body + (ahead 0 [] : Nat) : Int) > Cursor.start.room := by
    have hroom : Cursor.start.room = 89 := rfl
    rw [hroom]
    unfold endless at h
    omega
  rw [textOf, writeAll, writeAll, Piece.write, if_pos hwide]
  rfl

/-- **A text stands in what is written where the pieces before it end, and its line ends there.** -/
theorem exists_textOf_line {P : Char → Prop} (hblank : P ' ') (hline : P '\n') {front : Pieces}
    (hfront : Within P front) (s : String) (rest : Pieces) : ∃ before after,
      (textOf (cbox 0 (front ++ (word s ++ (hard ++ rest))))).toList =
        before ++ s.toList ++ '\n' :: after ∧ ∀ x ∈ before, P x := by
  obtain ⟨rest', hbox⟩ := exists_cbox front rest s
  have hwide : endless ≤ widthOf (front ++ (word s ++ (hard ++ rest'))) := by
    rw [widthOf_append, widthOf_append, widthOf_append]
    have hhard : widthOf hard = endless := rfl
    omega
  rw [hbox, textOf_box hwide, writeAll_append, writeAll_append, writeAll_append]
  obtain ⟨before, hbefore, hP⟩ := adds_writeAll (fun p hp => (hfront p hp).write hblank hline)
    .consistent (ahead 0 (word s ++ (hard ++ rest'))) .start
  generalize writeAll .consistent (ahead 0 (word s ++ (hard ++ rest'))) front .start = c at hbefore ⊢
  obtain ⟨after, hafter, -⟩ := adds_writeAll
    (fun p hp => (within_true rest' p hp).write trivial trivial) .consistent 0
    (writeAll .consistent (ahead 0 rest') hard (c.write s))
  have hend : (writeAll .consistent (ahead 0 rest') hard (c.write s)).written =
      (c.written.pushn ' ' c.pending ++ s).push '\n' := rfl
  refine ⟨before ++ List.replicate c.pending ' ', after, ?_, fun x hx => ?_⟩
  · show (writeAll .consistent 0 rest' _).written.toList = _
    have hstart : Cursor.start.written.toList = [] := rfl
    rw [hstart, List.nil_append] at hbefore
    refine hafter.trans ?_
    rw [hend, String.toList_push, String.toList_append, toList_pushn, hbefore]
    simp
  · rcases List.mem_append.mp hx with hx | hx
    · exact hP x hx
    · exact (List.eq_of_mem_replicate hx) ▸ hblank

end EntityTable.Layout
