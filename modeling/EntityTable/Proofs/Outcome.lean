import Mathlib.Data.List.Forall2

/-! # Outcomes

Generating goes through stages that give a value or an error. A stage after another succeeds if both
do (`bind_eq_ok`), and the first that fails decides the error (`error?_bind`, `error?_mapM`). -/

namespace EntityTable

variable {ε α β : Type}

/-! ### Values -/

theorem bind_eq_ok {x : Except ε α} {f : α → Except ε β} {b : β} :
    x >>= f = .ok b ↔ ∃ a, x = .ok a ∧ f a = .ok b := by
  cases x <;> simp [bind, Except.bind]

theorem mapError_eq_ok {ε' : Type} {f : ε → ε'} {x : Except ε α} {a : α} :
    x.mapError f = .ok a ↔ x = .ok a := by
  cases x with
  | error e => exact ⟨nofun, nofun⟩
  | ok b => exact ⟨fun h => by cases h; rfl, fun h => by cases h; rfl⟩

theorem toOption_eq_some {x : Except ε α} {a : α} : x.toOption = some a ↔ x = .ok a := by
  cases x <;> simp [Except.toOption]

theorem exists_ok_of_toBool {x : Except ε α} (h : x.toBool = true) : ∃ a, x = .ok a := by
  cases x with
  | error e => cases h
  | ok a => exact ⟨a, rfl⟩

theorem mapM_congr {f g : α → Except ε β} : ∀ {l : List α},
    (∀ a ∈ l, f a = g a) → l.mapM f = l.mapM g
  | [], _ => rfl
  | a :: l, h => by
    rw [List.mapM_cons, List.mapM_cons, h a (List.mem_cons_self ..),
      mapM_congr fun b hb => h b (List.mem_cons_of_mem a hb)]

/-- A function that succeeds on what is taken from the elements whenever another does on these. -/
theorem mapM_map_of_mapM {ε' γ : Type} {f : α → Except ε β} {g : α → γ} {k : γ → Except ε' β}
    (hk : ∀ a b, f a = .ok b → k (g a) = .ok b) : ∀ {l : List α} {bs : List β},
      l.mapM f = .ok bs → (l.map g).mapM k = .ok bs
  | [], bs, h => by
    cases h
    rfl
  | a :: l, bs, h => by
    rw [List.mapM_cons] at h
    obtain ⟨b, hb, h⟩ := bind_eq_ok.mp h
    obtain ⟨rest, hrest, h⟩ := bind_eq_ok.mp h
    cases h
    rw [List.map_cons, List.mapM_cons, hk a b hb, mapM_map_of_mapM hk hrest]
    rfl

theorem mapM_singleton {f : α → Except ε β} {a : α} {b : β} (h : f a = .ok b) :
    [a].mapM f = .ok [b] := by
  rw [List.mapM_cons, h]
  rfl

theorem mapM_append_singleton {f : α → Except ε β} {l : List α} {bs : List β}
    {a : α} {b : β} (hl : l.mapM f = .ok bs) (h : f a = .ok b) :
    (l ++ [a]).mapM f = .ok (bs ++ [b]) := by
  rw [List.mapM_append, hl, mapM_singleton h]
  rfl

/-- The values of a run over a list, one for each element. -/
theorem forall₂_of_mapM {f : α → Except ε β} : ∀ {l : List α} {bs : List β},
    l.mapM f = .ok bs → List.Forall₂ (fun a b => f a = .ok b) l bs
  | [], bs, h => by
    cases h
    exact .nil
  | a :: l, bs, h => by
    rw [List.mapM_cons] at h
    obtain ⟨b, hb, h⟩ := bind_eq_ok.mp h
    obtain ⟨rest, hrest, h⟩ := bind_eq_ok.mp h
    cases h
    exact .cons hb (forall₂_of_mapM hrest)

theorem length_of_mapM {f : α → Except ε β} {l : List α} {bs : List β} (h : l.mapM f = .ok bs) :
    bs.length = l.length := (forall₂_of_mapM h).length_eq.symm

/-- In related lists each element is related to one. -/
theorem exists_related {R : α → β → Prop} {l : List α} {bs : List β} (h : List.Forall₂ R l bs)
    {a : α} (ha : a ∈ l) : ∃ b ∈ bs, R a b := by
  induction h with
  | nil => cases ha
  | cons hab _ ih =>
    rcases List.mem_cons.mp ha with rfl | ha
    · exact ⟨_, List.mem_cons_self, hab⟩
    · obtain ⟨b, hb, hrelated⟩ := ih ha
      exact ⟨b, List.mem_cons_of_mem _ hb, hrelated⟩

theorem exists_mem_of_mapM {f : α → Except ε β} {a : α} {l : List α} {bs : List β}
    (h : l.mapM f = .ok bs) (ha : a ∈ l) : ∃ b ∈ bs, f a = .ok b :=
  exists_related (forall₂_of_mapM h) ha

theorem exists_of_mem_mapM {f : α → Except ε β} {b : β} {l : List α} {bs : List β}
    (h : l.mapM f = .ok bs) (hb : b ∈ bs) : ∃ a ∈ l, f a = .ok b :=
  exists_related (forall₂_of_mapM h).flip hb

/-- A function that succeeds exactly with what another finds. -/
theorem mapM_eq_ok_iff {f : α → Except ε β} {g : α → Option β}
    (hfg : ∀ a b, f a = .ok b ↔ g a = some b) : ∀ {l : List α} {bs : List β},
      l.mapM f = .ok bs ↔ l.map g = bs.map some
  | [], bs => by
    rw [List.mapM_nil, List.map_nil, eq_comm (a := []), List.map_eq_nil_iff]
    exact ⟨fun h => (Except.ok.inj h).symm, fun h => congrArg Except.ok h.symm⟩
  | a :: l, bs => by
    rw [List.mapM_cons, bind_eq_ok]
    constructor
    · rintro ⟨b, hb, h⟩
      obtain ⟨rest, hrest, h⟩ := bind_eq_ok.mp h
      cases h
      rw [List.map_cons, List.map_cons, (hfg a b).mp hb, (mapM_eq_ok_iff hfg).mp hrest]
    · intro h
      obtain ⟨b, rest, rfl, hb, hrest⟩ := List.map_eq_cons_iff.mp h.symm
      exact ⟨b, (hfg a b).mpr hb.symm,
        bind_eq_ok.mpr ⟨rest, (mapM_eq_ok_iff hfg).mpr hrest.symm, rfl⟩⟩

/-! ### Errors -/

/-- The error of a result that is one. -/
def error? {ε α : Type} : Except ε α → Option ε
  | .error e => some e
  | .ok _ => none

@[simp] theorem error?_error (e : ε) : error? (.error e : Except ε α) = some e := rfl

@[simp] theorem error?_ok (a : α) : error? (.ok a : Except ε α) = none := rfl

theorem error?_eq_some {x : Except ε α} {e : ε} : error? x = some e ↔ x = .error e := by
  cases x <;> simp

theorem error?_eq_none {x : Except ε α} : error? x = none ↔ ∃ a, x = .ok a := by
  cases x <;> simp

theorem error?_mapError {ε' : Type} {f : ε → ε'} {x : Except ε α} :
    error? (x.mapError f) = (error? x).map f := by
  cases x <;> rfl

/-- Of two stages the first that fails decides, if it does not depend on the first what the second
fails with. -/
theorem error?_bind {x : Except ε α} {f : α → Except ε β} {e : Option ε}
    (h : ∀ a, x = .ok a → error? (f a) = e) : error? (x >>= f) = (error? x).or e := by
  cases x with
  | error e' => rfl
  | ok a => exact h a rfl

theorem error?_bind_pure {x : Except ε α} {g : α → β} :
    error? (x >>= fun a => pure (g a)) = error? x := by
  cases x <;> rfl

/-- A run over a list that fails has come to an element that fails, past those before it. -/
theorem exists_split_of_mapM_error {f : α → Except ε β} {e : ε} : ∀ {l : List α},
    l.mapM f = .error e → ∃ before a after bs, l = before ++ a :: after ∧
      before.mapM f = .ok bs ∧ f a = .error e
  | [], h => by cases h
  | a :: l, h => by
    rw [List.mapM_cons] at h
    cases ha : f a with
    | error e' =>
      rw [ha] at h
      cases h
      exact ⟨[], a, l, [], rfl, rfl, ha⟩
    | ok b =>
      cases hl : l.mapM f with
      | ok bs =>
        rw [ha, hl] at h
        cases h
      | error e' =>
        rw [ha, hl] at h
        cases h
        obtain ⟨before, a', after, bs, rfl, hbefore, ha'⟩ := exists_split_of_mapM_error hl
        refine ⟨a :: before, a', after, b :: bs, rfl, ?_, ha'⟩
        rw [List.mapM_cons, ha, hbefore]
        rfl

theorem findSome?_cons_eq_or (f : α → Option β) (a : α) (l : List α) :
    (a :: l).findSome? f = (f a).or (l.findSome? f) := by
  rw [List.findSome?_cons]
  cases f a <;> rfl

theorem error?_mapM {f : α → Except ε β} : ∀ l : List α,
    error? (l.mapM f) = l.findSome? fun a => error? (f a)
  | [] => rfl
  | a :: l => by
    have hrest (b : β) : error? ((l.mapM f) >>= fun bs => pure (b :: bs)) =
        l.findSome? fun a => error? (f a) := error?_bind_pure.trans (error?_mapM l)
    rw [List.mapM_cons, error?_bind fun b _ => hrest b, findSome?_cons_eq_or]

/-- A run over a list succeeds exactly if every element does. -/
theorem exists_mapM_iff {f : α → Except ε β} {l : List α} :
    (∃ bs, l.mapM f = .ok bs) ↔ ∀ a ∈ l, ∃ b, f a = .ok b := by
  rw [← error?_eq_none, error?_mapM, List.findSome?_eq_none_iff]
  simp only [error?_eq_none]

end EntityTable
