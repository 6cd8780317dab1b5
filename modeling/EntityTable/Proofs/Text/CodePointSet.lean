import EntityTable.Text.CodePointSet
import Mathlib.Data.List.Pairwise
import Mathlib.Data.List.TakeWhile

/-! # Intervals of code points

A set that is given by its changes is a union of intervals, each from a change to the next. So what
holds of all members is checked on the intervals (`exists_span_of_contains`), and a code point in
one of them is a member (`contains_of_mem_spans`). Two sets are compared by their intervals, too. -/

namespace EntityTable.Text.CodePointSet

/-- The intervals of members. -/
def spans : List Nat → List (Nat × Nat)
  | first :: last :: rest => (first, last) :: spans rest
  | _ => []

theorem exists_span_of_contains {c : Char} : ∀ {changes : List Nat}, changes.length % 2 = 0 →
    (∀ p ∈ spans changes, p.1 ≤ p.2) → (CodePointSet.mk changes).contains c = true →
    ∃ p ∈ spans changes, p.1 ≤ c.toNat ∧ c.toNat < p.2
  | [], _, _, h => by cases h
  | [_], heven, _, _ => by cases heven
  | first :: last :: rest, heven, hordered, h => by
    by_cases hspan : first ≤ c.toNat ∧ c.toNat < last
    · exact ⟨(first, last), List.mem_cons_self, hspan⟩
    · have hle : first ≤ last := hordered (first, last) List.mem_cons_self
      have hrest : (CodePointSet.mk rest).contains c = true := by
        simp only [contains, List.countP_cons, decide_eq_true_eq, beq_iff_eq] at h ⊢
        split at h <;> split at h <;> omega
      obtain ⟨p, hp, hin⟩ := exists_span_of_contains
        (by simp only [List.length_cons] at heven; omega)
        (fun p hp => hordered p (List.mem_cons_of_mem _ hp)) hrest
      exact ⟨p, List.mem_cons_of_mem _ hp, hin⟩

theorem mem_of_mem_spans {p : Nat × Nat} : ∀ {changes : List Nat}, p ∈ spans changes →
    p.1 ∈ changes
  | [], h => by cases h
  | [_], h => by cases h
  | first :: last :: rest, h => by
    rcases List.mem_cons.mp h with rfl | h
    · exact List.mem_cons_self
    · exact List.mem_cons_of_mem _ (List.mem_cons_of_mem _ (mem_of_mem_spans h))

/-- **What lies in an interval is a member**, if the changes are in order. -/
theorem contains_of_mem_spans {c : Char} {p : Nat × Nat} : ∀ {changes : List Nat},
    changes.Pairwise (· < ·) → p ∈ spans changes → p.1 ≤ c.toNat → c.toNat < p.2 →
    (CodePointSet.mk changes).contains c = true
  | [], _, h, _, _ => by cases h
  | [_], _, h, _, _ => by cases h
  | first :: last :: rest, hordered, h, hfirst, hlast => by
    obtain ⟨hhead, hordered⟩ := List.pairwise_cons.mp hordered
    obtain ⟨htail, hordered⟩ := List.pairwise_cons.mp hordered
    simp only [contains, List.countP_cons, decide_eq_true_eq, beq_iff_eq]
    rcases List.mem_cons.mp h with rfl | h
    · have hnone : rest.countP (fun n => decide (n ≤ c.toNat)) = 0 := by
        rw [List.countP_eq_zero]
        intro n hn
        have hless := htail n hn
        simp only [decide_eq_true_eq]
        omega
      rw [hnone, if_pos hfirst, if_neg (by omega)]
    · have hrest := contains_of_mem_spans hordered h hfirst hlast
      simp only [contains, beq_iff_eq] at hrest
      have hbefore := htail p.1 (mem_of_mem_spans h)
      have hfirst' := hhead last List.mem_cons_self
      rw [if_pos (by omega), if_pos (by omega)]
      omega

/-- One interval holds both code points and so all between them. -/
def covers (s : CodePointSet) (first last : Nat) : Bool :=
  (spans s.changes).any fun p => Nat.ble p.1 first && Nat.blt last p.2

/-- No interval holds a code point from the first to the last. -/
def avoids (s : CodePointSet) (first last : Nat) : Bool :=
  (spans s.changes).all fun p => Nat.blt last p.1 || Nat.ble p.2 first

theorem exists_span_of_covers {s : CodePointSet} {first last : Nat}
    (h : s.covers first last = true) : ∃ p ∈ spans s.changes, p.1 ≤ first ∧ last < p.2 := by
  obtain ⟨p, hp, hin⟩ := List.any_eq_true.mp h
  exact ⟨p, hp, by simpa [Nat.blt, Nat.succ_le_iff] using hin⟩

theorem outside_of_avoids {s : CodePointSet} {first last : Nat} (h : s.avoids first last = true)
    {p : Nat × Nat} (hp : p ∈ spans s.changes) : last < p.1 ∨ p.2 ≤ first := by
  simpa [Nat.blt, Nat.succ_le_iff] using List.all_eq_true.mp h p hp

/-- Intervals in order lie within others in order: those within the first are dropped, and so on. -/
def spansWithin : List (Nat × Nat) → List (Nat × Nat) → Bool
  | [], inner => inner.isEmpty
  | p :: outer, inner =>
    spansWithin outer (inner.dropWhile fun q => Nat.ble p.1 q.1 && Nat.ble q.2 p.2)

theorem exists_span_of_spansWithin {q : Nat × Nat} : ∀ {outer inner : List (Nat × Nat)},
    spansWithin outer inner = true → q ∈ inner → ∃ p ∈ outer, p.1 ≤ q.1 ∧ q.2 ≤ p.2
  | [], inner, h, hq => by
    rw [List.isEmpty_iff.mp h] at hq
    cases hq
  | p :: outer, inner, h, hq => by
    rw [spansWithin] at h
    rw [← List.takeWhile_append_dropWhile (p := fun q => Nat.ble p.1 q.1 && Nat.ble q.2 p.2)
      (l := inner)] at hq
    rcases List.mem_append.mp hq with hq | hq
    · exact ⟨p, List.mem_cons_self, by simpa using List.mem_takeWhile_imp hq⟩
    · obtain ⟨p', hp', hin⟩ := exists_span_of_spansWithin h hq
      exact ⟨p', List.mem_cons_of_mem p hp', hin⟩

end EntityTable.Text.CodePointSet
