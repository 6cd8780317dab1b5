import EntityTable.Codec.StringList

/-! # What a stored list keeps

Cutting a text and joining pieces are those of the standard library (`splitPieces_eq`,
`joinPieces_eq`), so every text is the one that stores the list it reads as. A list comes back if
none of its elements holds the separator, for no piece of a text does; only the list of one empty
string is lost besides, since its text is that of the empty list. -/

namespace EntityTable.Codec

variable {cs piece : List Char} {pieces : List (List Char)}

/-! ### Cutting and joining -/

theorem splitPieces_ne_nil (cs : List Char) : splitPieces cs ≠ [] := by
  unfold splitPieces
  split
  · exact List.cons_ne_nil _ _
  · split
    · exact List.cons_ne_nil _ _
    · split <;> exact List.cons_ne_nil _ _

theorem splitPieces_eq (cs : List Char) : splitPieces cs = cs.splitOn listSeparator := by
  induction cs with
  | nil => rfl
  | cons c rest ih =>
    rw [splitPieces, List.splitOn_cons_eq_if_modifyHead, ← ih]
    by_cases hc : c = listSeparator
    · rw [if_pos hc, if_pos (beq_iff_eq.mpr hc)]
    · rw [if_neg hc, if_neg (fun h => hc (beq_iff_eq.mp h))]
      cases hrest : splitPieces rest with
      | nil => exact absurd hrest (splitPieces_ne_nil rest)
      | cons piece pieces => rfl

theorem joinPieces_eq (pieces : List (List Char)) :
    joinPieces pieces = [listSeparator].intercalate pieces := by
  induction pieces with
  | nil => rfl
  | cons piece pieces ih =>
    cases pieces with
    | nil => rw [joinPieces, List.intercalate_singleton]
    | cons next pieces =>
      rw [joinPieces, ih, List.intercalate_cons_cons, List.append_assoc, List.singleton_append]
      exact List.cons_ne_nil _ _

theorem joinPieces_splitPieces (cs : List Char) : joinPieces (splitPieces cs) = cs := by
  rw [joinPieces_eq, splitPieces_eq, List.intercalate_splitOn]

theorem splitPieces_joinPieces (hne : pieces ≠ []) (h : ∀ piece ∈ pieces, listSeparator ∉ piece) :
    splitPieces (joinPieces pieces) = pieces := by
  rw [joinPieces_eq, splitPieces_eq, List.splitOn_intercalate _ h hne]

theorem notMem_of_mem_splitPieces (h : piece ∈ splitPieces cs) : listSeparator ∉ piece := by
  induction cs generalizing piece with
  | nil =>
    rw [splitPieces, List.mem_singleton] at h
    rw [h]
    exact List.not_mem_nil
  | cons c rest ih =>
    rw [splitPieces] at h
    split at h
    · rcases List.mem_cons.mp h with rfl | h
      · exact List.not_mem_nil
      · exact ih h
    · rename_i hc
      split at h
      · rename_i first pieces hrest
        rw [hrest] at ih
        rcases List.mem_cons.mp h with rfl | h
        · exact List.not_mem_cons_of_ne_of_not_mem (Ne.symm hc) (ih List.mem_cons_self)
        · exact ih (List.mem_cons_of_mem _ h)
      · rename_i hrest
        exact absurd hrest (splitPieces_ne_nil rest)

theorem joinPieces_eq_nil_iff : joinPieces pieces = [] ↔ pieces = [] ∨ pieces = [[]] := by
  constructor
  · intro h
    cases pieces with
    | nil => exact .inl rfl
    | cons piece rest =>
      cases rest with
      | nil => exact .inr (congrArg (fun cs => [cs]) h)
      | cons next rest => simp [joinPieces] at h
  · rintro (rfl | rfl) <;> rfl

/-! ### Lists and texts -/

theorem toList_encodeList (values : List String) :
    (encodeList values).toList = joinPieces (values.map String.toList) := String.toList_ofList

theorem decodeList_of_ne_nil {text : String} (h : text.toList ≠ []) :
    decodeList text = (splitPieces text.toList).map String.ofList := by
  unfold decodeList
  split
  · contradiction
  · rfl

theorem encodeList_decodeList (text : String) : encodeList (decodeList text) = text := by
  by_cases h : text.toList = []
  · rw [String.toList_eq_nil_iff.mp h]
    rfl
  · rw [decodeList_of_ne_nil h, encodeList, List.map_map]
    have hpieces : String.toList ∘ String.ofList = id := funext fun _ => String.toList_ofList
    rw [hpieces, List.map_id, joinPieces_splitPieces, String.ofList_toList]

theorem notMem_of_mem_decodeList {text s : String} (h : s ∈ decodeList text) :
    listSeparator ∉ s.toList := by
  by_cases hne : text.toList = []
  · rw [String.toList_eq_nil_iff.mp hne] at h
    cases h
  · rw [decodeList_of_ne_nil hne] at h
    obtain ⟨piece, hpiece, rfl⟩ := List.mem_map.mp h
    rw [String.toList_ofList]
    exact notMem_of_mem_splitPieces hpiece

theorem decodeList_encodeList {values : List String} (hone : values ≠ [""])
    (h : ∀ s ∈ values, listSeparator ∉ s.toList) : decodeList (encodeList values) = values := by
  by_cases hnil : values = []
  · rw [hnil]
    rfl
  · have hpieces : ∀ piece ∈ values.map String.toList, listSeparator ∉ piece := by
      intro piece hpiece
      obtain ⟨s, hs, rfl⟩ := List.mem_map.mp hpiece
      exact h s hs
    have htext : (encodeList values).toList ≠ [] := by
      rw [toList_encodeList, Ne, joinPieces_eq_nil_iff, List.map_eq_nil_iff, not_or]
      refine ⟨hnil, fun heq => hone ?_⟩
      obtain ⟨s, rfl, hs⟩ := List.map_eq_singleton_iff.mp heq
      rw [String.toList_eq_nil_iff.mp hs]
    rw [decodeList_of_ne_nil htext, toList_encodeList,
      splitPieces_joinPieces (mt List.map_eq_nil_iff.mp hnil) hpieces, List.map_map]
    have hstrings : String.ofList ∘ String.toList = id := funext fun _ => String.ofList_toList
    rw [hstrings, List.map_id]

/-- **What storing a list loses**: the list of one empty string and lists with a separator in an
element, and no others. Storing what a text reads as loses nothing. -/
theorem decodeList_encodeList_eq_iff :
    (∀ values : List String, decodeList (encodeList values) = values ↔
      values ≠ [""] ∧ ∀ s ∈ values, listSeparator ∉ s.toList) ∧
    ∀ text : String, encodeList (decodeList text) = text := by
  refine ⟨fun values => ⟨fun h => ⟨?_, fun s hs => ?_⟩, fun h => decodeList_encodeList h.1 h.2⟩,
    encodeList_decodeList⟩
  · rintro rfl
    cases h
  · rw [← h] at hs
    exact notMem_of_mem_decodeList hs

end EntityTable.Codec
