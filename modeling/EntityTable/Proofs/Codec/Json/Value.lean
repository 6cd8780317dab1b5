import EntityTable.Proofs.Codec.Json.Nesting
import Mathlib.Data.List.Pairwise
import Mathlib.Data.String.Basic

/-! # JSON values that are read back

How deep a value is nested (`depth`), and the values that text keeps exactly (`isWhole`): their
numbers are whole and fit in 64 bits, and their objects hold each key once and in order. The members
of such an object are put in one behind the other (`insertMember_append`), and so the text of such a
value is read as that value if it is not nested deeper than levels are left (`reads_text`). Whatever
is read is nested no deeper than that (`depth_of_value`). -/

namespace EntityTable.Codec.Json

variable {levels : Nat} {cs rest text : List Char} {s : Scalar}

/-! ### Depth -/

mutual

/-- How deep lists and objects are nested in a value. -/
def depth : Json → Nat
  | array items => depthOfItems items + 1
  | object members => depthOfMembers members + 1
  | _ => 0

/-- How deep the deepest item is nested. -/
def depthOfItems : List Json → Nat
  | [] => 0
  | item :: rest => max (depth item) (depthOfItems rest)

/-- How deep the deepest member is nested. -/
def depthOfMembers : List (String × Json) → Nat
  | [] => 0
  | (_, value) :: rest => max (depth value) (depthOfMembers rest)

end

theorem depthOfItems_le_iff {items : List Json} :
    depthOfItems items ≤ levels ↔ ∀ item ∈ items, depth item ≤ levels := by
  induction items with
  | nil => simp [depthOfItems]
  | cons item rest ih => simp [depthOfItems, ih]

theorem depthOfMembers_le_iff {members : List (String × Json)} :
    depthOfMembers members ≤ levels ↔ ∀ m ∈ members, depth m.2 ≤ levels := by
  induction members with
  | nil => simp [depthOfMembers]
  | cons m rest ih => simp [depthOfMembers, ih]

/-! ### Whole values -/

/-- The keys of members are in order and differ. -/
def KeysAscend (members : List (String × Json)) : Prop :=
  members.Pairwise fun m n => m.1 < n.1

instance (members : List (String × Json)) : Decidable (KeysAscend members) :=
  inferInstanceAs (Decidable (List.Pairwise _ _))

mutual

/-- Numbers are whole and fit in 64 bits, and objects have their members in the order of the keys. -/
def isWhole : Json → Bool
  | int value => decide (Fits value)
  | float _ _ => false
  | array items => itemsWhole items
  | object members => decide (KeysAscend members) && membersWhole members
  | _ => true

/-- All items are whole. -/
def itemsWhole : List Json → Bool
  | [] => true
  | item :: rest => isWhole item && itemsWhole rest

/-- The values of all members are whole. -/
def membersWhole : List (String × Json) → Bool
  | [] => true
  | (_, value) :: rest => isWhole value && membersWhole rest

end

/-! ### Members in their order -/

/-- A member whose key comes behind all others is put in at the end. -/
theorem insertMember_append {key : String} (value : Json) : ∀ {members : List (String × Json)},
    (∀ m ∈ members, m.1 < key) → insertMember key value members = members ++ [(key, value)]
  | [], _ => rfl
  | (k, v) :: rest, h => by
    have hk : k < key := h (k, v) List.mem_cons_self
    rw [insertMember, if_neg hk.ne', if_neg hk.not_gt,
      insertMember_append value fun m hm => h m (List.mem_cons_of_mem _ hm)]
    rfl

theorem mem_insertMember {key : String} {value : Json} {m : String × Json} :
    ∀ {members : List (String × Json)}, m ∈ insertMember key value members →
      m = (key, value) ∨ m ∈ members
  | [], h => .inl (List.mem_singleton.mp h)
  | (k, v) :: rest, h => by
    unfold insertMember at h
    split_ifs at h
    · rcases List.mem_cons.mp h with rfl | h
      · exact .inl rfl
      · exact .inr (List.mem_cons_of_mem _ h)
    · rcases List.mem_cons.mp h with rfl | h
      · exact .inl rfl
      · exact .inr h
    · rcases List.mem_cons.mp h with rfl | h
      · exact .inr List.mem_cons_self
      · exact (mem_insertMember h).imp_right (List.mem_cons_of_mem _)

/-- Reads a member of an object that may hold any values. -/
def readMember (levels : Nat) (sofar : List (String × Json)) (key : String) (cs : List Char) :
    Except Fault (List (String × Json) × List Char) := do
  let (item, rest) ← value levels (← colon cs)
  return (insertMember key item sofar, rest)

/-! ### One value -/

theorem reads_scalar (h : ReadsScalar text s) : Reads (value levels) text (ofScalar s) := by
  obtain ⟨c, cs, rfl, hc, hlist, hobject⟩ := h.exists_cons
  refine ⟨⟨c, cs, rfl, hc⟩, fun rest hrest => ?_⟩
  have hscalar := h.read rest hrest
  rw [List.cons_append] at hscalar ⊢
  rw [value, skipBlanks_cons hc]
  show (if c = '[' then _ else if c = '\x7b' then _ else scalar (c :: (cs ++ rest)) >>= _) = _
  rw [if_neg hlist, if_neg hobject, hscalar]
  rfl

theorem reads_array {texts : List (List Char)} {items : List Json}
    (h : List.Forall₂ (Reads (value levels)) texts items) :
    Reads (value (levels + 1)) (listText texts) (.array items) := by
  refine ⟨⟨'[', _, rfl, by decide⟩, fun rest _ => ?_⟩
  rw [listText_append]
  show (listBody (value levels) (joinCommas texts ++ ']' :: rest) >>= _) = _
  rw [listBody_append h]
  rfl

theorem reads_object {parts : List (String × List Char)} {members : List (String × Json)}
    (h : Takes (readMember levels) [] parts members) :
    Reads (value (levels + 1)) (objectText (partTexts parts)) (.object members) := by
  refine ⟨⟨'\x7b', _, rfl, by decide⟩, fun rest _ => ?_⟩
  rw [objectText_append]
  show (objectBody (readMember levels) [] (joinCommas (partTexts parts) ++ '\x7d' :: rest) >>= _) = _
  rw [objectBody_append h]
  rfl

/-! ### All values -/

/-- The keys of members with the texts of their values. -/
def memberParts (members : List (String × Json)) : List (String × List Char) :=
  members.map fun (key, value) => (key, value.text)

theorem memberTexts_eq : ∀ members : List (String × Json),
    memberTexts members = partTexts (memberParts members)
  | [] => rfl
  | (key, value) :: rest => by
    rw [memberTexts, memberTexts_eq rest]
    rfl

mutual

/-- **The text of a whole value is read as that value** if levels enough are left. -/
theorem reads_text : ∀ {levels : Nat} (v : Json), v.isWhole = true → v.depth ≤ levels →
    Reads (value levels) v.text v
  | _, null, _, _ => reads_scalar readsScalar_null
  | _, bool b, _, _ => reads_scalar (readsScalar_bool b)
  | _, int n, h, _ => reads_scalar (readsScalar_int (of_decide_eq_true h))
  | _, float _ _, h, _ => by cases h
  | _, string s, _, _ => reads_scalar (readsScalar_string s)
  | 0, array items, _, hdepth => absurd hdepth (Nat.not_succ_le_zero _)
  | _ + 1, array items, h, hdepth =>
    reads_array (reads_itemTexts items h (Nat.le_of_succ_le_succ hdepth))
  | 0, object members, _, hdepth => absurd hdepth (Nat.not_succ_le_zero _)
  | _ + 1, object members, h, hdepth => by
    obtain ⟨hkeys, hmembers⟩ := (Bool.and_eq_true _ _).mp h
    rw [text, memberTexts_eq]
    exact reads_object (takes_memberParts [] members (of_decide_eq_true hkeys) hmembers
      (Nat.le_of_succ_le_succ hdepth))

theorem reads_itemTexts : ∀ {levels : Nat} (items : List Json), itemsWhole items = true →
    depthOfItems items ≤ levels → List.Forall₂ (Reads (value levels)) (itemTexts items) items
  | _, [], _, _ => .nil
  | _, item :: rest, h, hdepth =>
    have ⟨hitem, hrest⟩ := (Bool.and_eq_true _ _).mp h
    have ⟨hitemDepth, hrestDepth⟩ := max_le_iff.mp hdepth
    .cons (reads_text item hitem hitemDepth) (reads_itemTexts rest hrest hrestDepth)

theorem takes_memberParts : ∀ {levels : Nat} (sofar members : List (String × Json)),
    KeysAscend (sofar ++ members) → membersWhole members = true →
    depthOfMembers members ≤ levels →
      Takes (readMember levels) sofar (memberParts members) (sofar ++ members)
  | _, sofar, [], _, _, _ => by
    rw [List.append_nil]
    exact .nil sofar
  | levels, sofar, (key, v) :: rest, hkeys, h, hdepth => by
    obtain ⟨hvalue, hrest⟩ := (Bool.and_eq_true _ _).mp h
    obtain ⟨hvalueDepth, hrestDepth⟩ := max_le_iff.mp hdepth
    have hread := reads_text v hvalue hvalueDepth
    have hlast : ∀ m ∈ sofar, m.1 < key := fun m hm =>
      (List.pairwise_append.mp hkeys).2.2 m hm (key, v) List.mem_cons_self
    have hmember (behind : List Char) (hbehind : Delimited behind) :
        readMember levels sofar key (':' :: (v.text ++ behind)) =
          .ok (sofar ++ [(key, v)], behind) := by
      show (value levels (v.text ++ behind) >>= _) = _
      rw [hread.read behind hbehind]
      show Except.ok (insertMember key v sofar, behind) = _
      rw [insertMember_append v hlast]
    rw [List.append_cons] at hkeys ⊢
    exact .cons hmember (takes_memberParts _ rest hkeys hrest hrestDepth)

end

/-! ### What is read -/

theorem depth_ofScalar (s : Scalar) : (ofScalar s).depth = 0 := by
  cases s <;> rfl

/-- What is read is a scalar, or a list or an object of what is read with one level less. -/
theorem cases_of_value {v : Json} (h : value levels cs = .ok (v, rest)) :
    (∃ s, v = ofScalar s) ∨
    ∃ inner, levels = inner + 1 ∧
      ((∃ items body, v = .array items ∧ listBody (value inner) body = .ok (items, rest)) ∨
        ∃ members body, v = .object members ∧
          objectBody (readMember inner) [] body = .ok (members, rest)) := by
  unfold value at h
  split at h
  · cases h
  · rename_i c body _
    by_cases hlist : c = '['
    · rw [if_pos hlist] at h
      cases levels with
      | zero => cases h
      | succ inner =>
        obtain ⟨⟨items, after⟩, hitems, h⟩ := bind_eq_ok.mp h
        cases h
        exact .inr ⟨inner, rfl, .inl ⟨items, body, rfl, hitems⟩⟩
    · rw [if_neg hlist] at h
      by_cases hobject : c = '\x7b'
      · rw [if_pos hobject] at h
        cases levels with
        | zero => cases h
        | succ inner =>
          obtain ⟨⟨members, after⟩, hmembers, h⟩ := bind_eq_ok.mp h
          cases h
          exact .inr ⟨inner, rfl, .inr ⟨members, body, rfl, hmembers⟩⟩
      · rw [if_neg hobject] at h
        obtain ⟨⟨s, after⟩, -, h⟩ := bind_eq_ok.mp h
        cases h
        exact .inl ⟨s, rfl⟩

/-- **What is read is nested no deeper than levels are left.** -/
theorem depth_of_value : ∀ {levels : Nat} {cs rest : List Char} {v : Json},
    value levels cs = .ok (v, rest) → v.depth ≤ levels := by
  intro levels
  induction levels with
  | zero =>
    intro cs rest v h
    rcases cases_of_value h with ⟨s, rfl⟩ | ⟨inner, hlevels, -⟩
    · exact (depth_ofScalar s).le
    · cases hlevels
  | succ levels ih =>
    intro cs rest v h
    rcases cases_of_value h with ⟨s, rfl⟩ | ⟨inner, hlevels, hparts⟩
    · rw [depth_ofScalar]
      exact Nat.zero_le _
    · obtain rfl : levels = inner := Nat.succ.inj hlevels
      rcases hparts with ⟨items, body, rfl, hitems⟩ | ⟨members, body, rfl, hmembers⟩
      · refine Nat.succ_le_succ (depthOfItems_le_iff.mpr fun item hitem => ?_)
        obtain ⟨_, _, hread⟩ := exists_of_mem_items hitems item hitem
        exact ih hread
      · refine Nat.succ_le_succ (depthOfMembers_le_iff.mpr ?_)
        refine invariant_of_members (fun members => ∀ m ∈ members, depth m.2 ≤ levels) ?_
          (fun m hm => absurd hm List.not_mem_nil) hmembers
        -- a member that is put in was read with these levels, and the others were there before
        intro sofar key cs next rest hsofar hread m hm
        obtain ⟨body, -, hread⟩ := bind_eq_ok.mp hread
        obtain ⟨⟨item, after⟩, hitem, hread⟩ := bind_eq_ok.mp hread
        cases hread
        rcases mem_insertMember hm with rfl | hm
        · exact ih hitem
        · exact hsofar m hm

end EntityTable.Codec.Json
