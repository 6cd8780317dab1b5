import EntityTable.Proofs.Outcome
import EntityTable.Source.Parser.Basic
import EntityTable.Source.Tree.TypeTokens

/-! # Parsers on given tokens

What a parser does on tokens of a known form is found by following it from step to step: `Yields`
says what it returns and which tokens it leaves, and there is a lemma for each combinator. A step
that is repeated is followed by `Repeats`, which leaves the fuel out, since every step reads a token
or more. -/

namespace EntityTable.Source.Parser

variable {α β : Type}

/-- On the tokens the parser yields a value and leaves the rest. -/
def Yields (p : Parser α) (tokens : List Token) (a : α) (rest : List Token) : Prop :=
  ∀ unread, p.run ⟨tokens, unread⟩ = .ok (a, ⟨rest, unread⟩)

variable {p q : Parser α} {f : α → Parser β} {tokens middle final : List Token} {a : α} {b : β}

theorem Yields.bind (hp : Yields p tokens a middle) (hf : Yields (f a) middle b final) :
    Yields (p >>= f) tokens b final := by
  intro unread
  show (p.run _ >>= fun r => (f r.1).run r.2) = _
  rw [hp unread]
  exact hf unread

/-- As `Yields.bind`, for a first parser that is followed by evaluation. -/
theorem Yields.via (a : α) (middle : List Token) (hp : Yields p tokens a middle)
    (hf : Yields (f a) middle b final) : Yields (p >>= f) tokens b final := hp.bind hf

theorem yields_pure (a : α) (tokens : List Token) : Yields (pure a) tokens a tokens := fun _ => rfl

theorem Yields.map (f : α → β) (hp : Yields p tokens a middle) :
    Yields (f <$> p) tokens (f a) middle := by
  rw [map_eq_pure_bind]
  exact hp.bind (yields_pure _ _)

theorem Yields.ite_pos {c : Prop} [Decidable c] (hc : c) (hp : Yields p tokens a final) :
    Yields (if c then p else q) tokens a final := by
  rwa [if_pos hc]

theorem Yields.ite_neg {c : Prop} [Decidable c] (hc : ¬ c) (hq : Yields q tokens a final) :
    Yields (if c then p else q) tokens a final := by
  rwa [if_neg hc]

theorem Yields.ite_false {c : Bool} (hc : c = false) (hq : Yields q tokens a final) :
    Yields (if c = true then p else q) tokens a final := by
  rwa [hc]

/-! ### Failures -/

/-- On the tokens the parser yields no value. -/
def Fails (p : Parser α) (tokens : List Token) : Prop :=
  ∀ unread, ∃ e, p.run ⟨tokens, unread⟩ = .error e

theorem fails_throw (e : SyntaxError) (tokens : List Token) : Fails (throw e : Parser α) tokens :=
  fun _ => ⟨e, rfl⟩

theorem fails_expected (alternatives : List String) (tokens : List Token) :
    Fails (expected alternatives : Parser α) tokens := fun _ => ⟨_, rfl⟩

theorem Fails.first (hp : Fails p tokens) : Fails (p >>= f) tokens := by
  intro unread
  obtain ⟨e, he⟩ := hp unread
  refine ⟨e, ?_⟩
  show (p.run _ >>= fun r => (f r.1).run r.2) = _
  rw [he]
  rfl

/-- What follows on a value that has been read fails. -/
theorem Yields.fails (hp : Yields p tokens a middle) (hf : Fails (f a) middle) :
    Fails (p >>= f) tokens := by
  intro unread
  obtain ⟨e, he⟩ := hf unread
  refine ⟨e, ?_⟩
  show (p.run _ >>= fun r => (f r.1).run r.2) = _
  rw [hp unread]
  exact he

theorem Fails.ite_pos {c : Prop} [Decidable c] (hc : c) (hp : Fails p tokens) :
    Fails (if c then p else q) tokens := by
  rwa [if_pos hc]

theorem Fails.ite_false {c : Bool} (hc : c = false) (hq : Fails q tokens) :
    Fails (if c = true then p else q) tokens := by
  rwa [hc]

theorem Fails.runAll (h : Fails p tokens) (a : α) : Parser.runAll p tokens ≠ .ok a := by
  obtain ⟨e, he⟩ := h none
  intro hok
  obtain ⟨r, hr, -⟩ := bind_eq_ok.mp hok
  cases he.symm.trans hr

/-- Where the parser yields a value on the tokens, it leaves the rest. -/
def Leaves (p : Parser α) (tokens rest : List Token) : Prop :=
  ∀ unread a out, p.run ⟨tokens, unread⟩ = .ok (a, out) → out.tokens = rest

theorem Yields.leaves (h : Yields p tokens a final) : Leaves p tokens final := by
  intro unread b out hrun
  cases (h unread).symm.trans hrun
  rfl

theorem Fails.leaves (h : Fails p tokens) (rest : List Token) : Leaves p tokens rest := by
  intro unread b out hrun
  obtain ⟨e, he⟩ := h unread
  cases he.symm.trans hrun

theorem leaves_pure (a : α) (tokens : List Token) : Leaves (pure a) tokens tokens :=
  (yields_pure a tokens).leaves

theorem Leaves.bind (hp : Leaves p tokens middle) (hf : ∀ a, Leaves (f a) middle final) :
    Leaves (p >>= f) tokens final := by
  intro unread b out hrun
  obtain ⟨⟨a, input⟩, hfirst, hrest⟩ := bind_eq_ok.mp hrun
  obtain ⟨left, unread⟩ := input
  obtain rfl : left = middle := hp _ _ _ hfirst
  exact hf a unread b out hrest

theorem Yields.bind_leaves (hp : Yields p tokens a middle) (hf : Leaves (f a) middle final) :
    Leaves (p >>= f) tokens final := by
  intro unread b out hrun
  obtain ⟨⟨c, input⟩, hfirst, hrest⟩ := bind_eq_ok.mp hrun
  cases (hp unread).symm.trans hfirst
  exact hf unread b out hrest

/-- What follows on the tokens that are left fails. -/
theorem Leaves.fails (hp : Leaves p tokens middle) (hf : ∀ a, Fails (f a) middle) :
    Fails (p >>= f) tokens := by
  intro unread
  show ∃ e, (p.run _ >>= fun r => (f r.1).run r.2) = _
  cases hrun : p.run ⟨tokens, unread⟩ with
  | error e => exact ⟨e, rfl⟩
  | ok r =>
    obtain ⟨a, left, unread⟩ := r
    obtain rfl : left = middle := hp _ _ _ hrun
    exact hf a unread

/-- What goes on as another parser yields and leaves what that one does. -/
theorem Yields.of_run (h : ∀ unread, p.run ⟨tokens, unread⟩ = q.run ⟨middle, unread⟩)
    (hq : Yields q middle a final) : Yields p tokens a final :=
  fun unread => (h unread).trans (hq unread)

theorem Fails.of_run (h : ∀ unread, p.run ⟨tokens, unread⟩ = q.run ⟨middle, unread⟩)
    (hq : Fails q middle) : Fails p tokens :=
  fun unread => (hq unread).imp fun _ he => (h unread).trans he

/-- What follows on a value that has been read goes on from what is left. -/
theorem Yields.run_bind (hp : Yields p tokens a middle) (unread : Option Delimiter) :
    (p >>= f).run ⟨tokens, unread⟩ = (f a).run ⟨middle, unread⟩ := by
  show (p.run _ >>= fun r => (f r.1).run r.2) = _
  rw [hp unread]
  rfl

theorem Leaves.of_run (h : ∀ unread, p.run ⟨tokens, unread⟩ = q.run ⟨middle, unread⟩)
    (hq : Leaves q middle final) : Leaves p tokens final :=
  fun unread b out hrun => hq unread b out ((h unread).symm.trans hrun)

/-! ### Looking and reading -/

theorem yields_rest (tokens : List Token) : Yields rest tokens tokens tokens := fun _ => rfl

theorem yields_peek (test : List Token → Bool) (tokens : List Token) :
    Yields (peek test) tokens (test tokens) tokens := fun _ => rfl

theorem yields_peekAfter (count : Nat) (test : List Token → Bool) (tokens : List Token) :
    Yields (peekAfter count test) tokens (test (tokens.drop count)) tokens := fun _ => rfl

theorem yields_ident {w : String} (h : keywords.contains w = false) (rest : List Token) :
    Yields ident (.word w :: rest) w rest := by
  intro unread
  show (if keywords.contains w then _ else _ : Parser String).run _ = _
  rw [h]
  rfl

theorem fails_operator {text : String} (h : startsOperator text tokens = false) :
    Fails (operator text) tokens := by
  refine (yields_rest tokens).fails ?_
  unfold startsOperator at h
  cases hdrop : dropOperator? text tokens with
  | none => exact fails_throw _ tokens
  | some more => rw [hdrop] at h; cases h

theorem yields_operator?_false {text : String} (h : startsOperator text tokens = false) :
    Yields (operator? text) tokens false tokens := by
  refine (yields_rest tokens).bind ?_
  unfold startsOperator at h
  cases hdrop : dropOperator? text tokens with
  | none => exact yields_pure false tokens
  | some more => rw [hdrop] at h; cases h

theorem yields_word?_false {name : String} (h : startsWord name tokens = false) :
    Yields (word? name) tokens false tokens := by
  refine (yields_rest tokens).bind ?_
  match tokens, h with
  | [], _ | .punct .. :: _, _ | .lifetime .. :: _, _ | .literal .. :: _, _ | .group .. :: _, _ =>
    exact yields_pure false _
  | .word w :: rest, h => exact .ite_neg (ne_of_beq_false h) (yields_pure false _)

/-- The tokens of an operator are read as that operator. -/
theorem dropOperator?_operator (text : String) (ts : List Token) :
    dropOperator? text (Token.operator text ++ ts) = some ts := by
  unfold dropOperator? Token.operator
  induction text.toList with
  | nil => rfl
  | cons c cs ih =>
    cases cs with
    | nil => simp [dropOperator?.go, Token.operator.go]
    | cons d cs => simpa [dropOperator?.go, Token.operator.go] using ih

theorem yields_operator (text : String) (ts : List Token) :
    Yields (operator text) (Token.operator text ++ ts) () ts := by
  refine (yields_rest _).bind ?_
  rw [dropOperator?_operator]
  exact fun _ => rfl

theorem yields_operator? (text : String) (ts : List Token) :
    Yields (operator? text) (Token.operator text ++ ts) true ts := by
  refine (yields_rest _).bind ?_
  rw [dropOperator?_operator]
  exact fun _ => rfl

theorem yields_lifetime?_none (h : startsLifetime tokens = false) :
    Yields lifetime? tokens none tokens := by
  refine (yields_rest tokens).bind ?_
  match tokens, h with
  | [], _ | .punct .. :: _, _ | .word .. :: _, _ | .literal .. :: _, _ | .group .. :: _, _ =>
    exact yields_pure none _

/-- What a group holds is read by itself, and what is left there is remembered. -/
theorem run_inGroup (p : Parser α) (d : Delimiter) (body rest : List Token)
    (unread : Option Delimiter) :
    (inGroup d p).run ⟨.group d body :: rest, unread⟩ =
      p.run ⟨body, unread⟩ >>= fun r => .ok (r.1,
        ⟨rest, r.2.unread.or (if r.2.tokens.isEmpty then none else some d)⟩) := by
  show (if d = d then _ else _ : Parser α).run _ = _
  rw [if_pos rfl]
  show StateT.run (liftM (StateT.run p ⟨body, unread⟩) >>= _) _ = _
  cases StateT.run p ⟨body, unread⟩ <;> rfl

/-- **What reads all that a group holds reads the group.** -/
theorem Yields.inGroup {d : Delimiter} {body rest : List Token} (hp : Yields p body a []) :
    Yields (Parser.inGroup d p) (.group d body :: rest) a rest := by
  intro unread
  rw [run_inGroup, hp unread]
  show Except.ok (a, { tokens := rest, unread := unread.or none : Input }) = _
  rw [Option.or_none]

/-- What fails inside a group fails at the group. -/
theorem Fails.inGroup {d : Delimiter} {body rest : List Token} (h : Fails p body) :
    Fails (Parser.inGroup d p) (.group d body :: rest) := by
  intro unread
  obtain ⟨e, he⟩ := h unread
  exact ⟨e, by rw [run_inGroup, he]; rfl⟩

/-- A group is left behind, whatever is read inside. -/
theorem leaves_inGroup (p : Parser α) (d : Delimiter) (body rest : List Token) :
    Leaves (inGroup d p) (.group d body :: rest) rest := by
  intro unread a out hrun
  rw [run_inGroup] at hrun
  obtain ⟨r, -, hout⟩ := bind_eq_ok.mp hrun
  cases hout
  rfl

/-! ### Repetition -/

/-- A step is taken again and again, and each time it reads a token or more. -/
inductive Repeats (move : α → Parser (Option α)) : List Token → α → List Token → α → Prop
  | done {tokens : List Token} {a : α} : Repeats move tokens a tokens a
  | next {tokens middle final : List Token} {a b c : α} (h : Yields (move a) tokens (some b) middle)
      (hlength : middle.length < tokens.length) (hmore : Repeats move middle b final c) :
      Repeats move tokens a final c

section Repetition
variable {move : α → Parser (Option α)} {b : α}

theorem Repeats.snoc {c : α} (h : Repeats move tokens a middle b)
    (hlast : Yields (move b) middle (some c) final) (hlength : final.length < middle.length) :
    Repeats move tokens a final c := by
  induction h with
  | done => exact .next hlast hlength .done
  | next hfirst hshorter _ ih => exact .next hfirst hshorter (ih hlast hlength)

theorem Repeats.go (h : Repeats move tokens a middle b)
    (hstop : Yields (move b) middle none final) {fuel : Nat} (hfuel : tokens.length < fuel) :
    Yields (iterate.go move fuel a) tokens b final := by
  induction h generalizing fuel with
  | done =>
    obtain ⟨fuel, rfl⟩ := Nat.exists_eq_add_of_lt (Nat.zero_lt_of_lt hfuel)
    rw [Nat.zero_add]
    exact hstop.bind (yields_pure _ final)
  | next hfirst hshorter _ ih =>
    obtain ⟨fuel, rfl⟩ := Nat.exists_eq_add_of_lt (Nat.zero_lt_of_lt hfuel)
    rw [Nat.zero_add]
    exact hfirst.bind (ih hstop (by omega))

/-- **An iteration ends with the first step that yields nothing.** -/
theorem Repeats.iterate (h : Repeats move tokens a middle b)
    (hstop : Yields (move b) middle none final) : Yields (Parser.iterate move a) tokens b final :=
  (yields_rest tokens).bind (h.go hstop (Nat.lt_succ_self _))

end Repetition

/-! ### Lists -/

section List
variable {stop : List Token → Bool} {separator : String} {fuel : Nat}

theorem yields_listUntil_stop (h : stop tokens = true) :
    Yields (listUntil.go stop separator p (fuel + 1)) tokens ([], false) tokens :=
  (yields_peek stop tokens).bind (.ite_pos h (yields_pure _ tokens))

theorem Yields.listUntil_last (hp : Yields p tokens a final) (htokens : stop tokens = false)
    (hstop : stop final = true) :
    Yields (listUntil.go stop separator p (fuel + 1)) tokens ([a], false) final :=
  (yields_peek stop tokens).bind (.ite_false htokens
    (hp.bind ((yields_peek stop final).bind (.ite_pos hstop (yields_pure _ final)))))

theorem Yields.listUntil_cons {next : List Token} {as : List α} {trailing : Bool}
    (hp : Yields p tokens a middle) (htokens : stop tokens = false) (hmiddle : stop middle = false)
    (hseparator : Yields (operator separator) middle () next)
    (hmore : Yields (listUntil.go stop separator p fuel) next (as, trailing) final) :
    Yields (listUntil.go stop separator p (fuel + 1)) tokens
      (a :: as, trailing || as.isEmpty) final :=
  (yields_peek stop tokens).bind (.ite_false htokens
    (hp.bind ((yields_peek stop middle).bind (.ite_false hmiddle
      (hseparator.bind (hmore.bind (yields_pure _ final)))))))

/-- A list does not go on where neither its end nor a separator stands. -/
theorem Leaves.listUntil_fails (hp : Leaves p tokens middle) (htokens : stop tokens = false)
    (hmiddle : stop middle = false) (hseparator : startsOperator separator middle = false) :
    Fails (listUntil.go stop separator p (fuel + 1)) tokens :=
  (yields_peek stop tokens).fails (.ite_false htokens (hp.fails fun _ =>
    (yields_peek stop middle).fails (.ite_false hmiddle (fails_operator hseparator).first)))

theorem Yields.listUntil_fails {next : List Token} (hp : Yields p tokens a middle)
    (htokens : stop tokens = false) (hmiddle : stop middle = false)
    (hseparator : Yields (operator separator) middle () next)
    (hmore : Fails (listUntil.go stop separator p fuel) next) :
    Fails (listUntil.go stop separator p (fuel + 1)) tokens :=
  (yields_peek stop tokens).fails (.ite_false htokens (hp.fails
    ((yields_peek stop middle).fails (.ite_false hmiddle (hseparator.fails hmore.first)))))

/-- The tokens of elements with an operator between them, and maybe behind the last. -/
theorem separated_cons (operator : String) (trailing : Bool) (x : List Token)
    (xs : List (List Token)) : separated operator trailing (x :: xs) =
      x ++ xs.flatMap (Token.operator operator ++ ·) ++ operatorIf trailing operator := by
  induction xs generalizing x with
  | nil => rw [separated, List.flatMap_nil, List.append_nil]
  | cons y ys ih =>
    rw [separated, ih y, List.flatMap_cons]
    · simp only [List.append_assoc]
    · exact List.cons_ne_nil y ys

/-- Elements that a separator follows, unless it is the last and there is no separator behind it. -/
theorem separated_cons_cons (operator : String) (trailing : Bool) (x y : List Token)
    (ys : List (List Token)) : separated operator trailing (x :: y :: ys) =
      x ++ (Token.operator operator ++ separated operator trailing (y :: ys)) := by
  rw [separated, List.append_assoc]
  exact List.cons_ne_nil y ys

/-- What stands behind the last element stands behind all. -/
theorem separated_append_last (operator : String) (xs : List (List Token)) (x tail : List Token) :
    separated operator false (xs ++ [x ++ tail]) = separated operator false (xs ++ [x]) ++ tail := by
  cases xs with
  | nil => simp [separated, operatorIf]
  | cons y ys => simp [separated_cons, operatorIf]

variable {f : α → List Token} {trailing : Bool}

theorem yields_listUntil_go (hseparator : ∀ ts, stop (Token.operator separator ++ ts) = false)
    (hfinal : stop final = true) : ∀ {xs : List α} {fuel : Nat}, (xs = [] → trailing = false) →
    xs.length ≤ fuel →
    (∀ x ∈ xs, ∀ rest, (rest = final ∨ ∃ ts, rest = Token.operator separator ++ ts) →
      stop (f x ++ rest) = false ∧ Yields p (f x ++ rest) x rest) →
    Yields (listUntil.go stop separator p fuel) (separated separator trailing (xs.map f) ++ final)
      (xs, trailing) final
  | [], 0, htrailing, _, _ => by
    rw [htrailing rfl]
    exact yields_pure _ _
  | [], fuel + 1, htrailing, _, _ => by
    rw [htrailing rfl]
    exact yields_listUntil_stop hfinal
  | [x], fuel + 1, _, _, hread => by
    cases trailing with
    | false =>
      obtain ⟨hstop, hx⟩ := hread x (List.mem_singleton_self x) final (Or.inl rfl)
      rw [List.map_singleton, separated, operatorIf, if_neg Bool.false_ne_true, List.append_nil]
      exact hx.listUntil_last hstop hfinal
    | true =>
      obtain ⟨hstop, hx⟩ := hread x (List.mem_singleton_self x) _ (Or.inr ⟨final, rfl⟩)
      have hmore : Yields (listUntil.go stop separator p fuel) final ([], false) final := by
        cases fuel with
        | zero => exact yields_pure _ _
        | succ fuel => exact yields_listUntil_stop hfinal
      rw [List.map_singleton, separated, operatorIf, if_pos rfl, List.append_assoc]
      exact hx.listUntil_cons hstop (hseparator final) (yields_operator separator final) hmore
  | x :: y :: xs, fuel + 1, _, hfuel, hread => by
    have hmore : Yields (listUntil.go stop separator p fuel)
        (separated separator trailing ((y :: xs).map f) ++ final) (y :: xs, trailing) final :=
      yields_listUntil_go hseparator hfinal nofun (Nat.le_of_succ_le_succ hfuel)
        fun z hz => hread z (List.mem_cons_of_mem x hz)
    obtain ⟨hstop, hx⟩ := hread x List.mem_cons_self _ (Or.inr ⟨_, rfl⟩)
    have hall := hx.listUntil_cons hstop (hseparator _) (yields_operator separator _) hmore
    rw [List.isEmpty_cons, Bool.or_false] at hall
    rw [List.map_cons, List.map_cons, separated_cons_cons, List.append_assoc, List.append_assoc]
    exact hall

theorem length_le_separated (trailing : Bool) (hseparator : separator.toList ≠ []) :
    ∀ xs : List (List Token), xs.length ≤ (separated separator trailing xs).length + 1
  | [] => Nat.zero_le _
  | [x] => Nat.le_add_left _ _
  | x :: y :: xs => by
    have hmore := length_le_separated trailing hseparator (y :: xs)
    have hpos : 0 < (Token.operator separator).length := by
      unfold Token.operator
      match separator.toList, hseparator with
      | [c], _ => exact Nat.one_pos
      | c :: d :: cs, _ => exact Nat.succ_pos _
    rw [separated_cons_cons, List.length_append, List.length_append, List.length_cons]
    omega

/-- **Elements with a separator between them are read up to what stops the list.** -/
theorem yields_listUntil {xs : List α} (hseparator : separator.toList ≠ [])
    (hmore : ∀ ts, stop (Token.operator separator ++ ts) = false) (hfinal : stop final = true)
    (htrailing : xs = [] → trailing = false)
    (hread : ∀ x ∈ xs, ∀ rest, (rest = final ∨ ∃ ts, rest = Token.operator separator ++ ts) →
      stop (f x ++ rest) = false ∧ Yields p (f x ++ rest) x rest) :
    Yields (listUntil stop separator p) (separated separator trailing (xs.map f) ++ final)
      (xs, trailing) final := by
  refine (yields_rest _).bind (yields_listUntil_go hmore hfinal htrailing ?_ hread)
  have hlength := length_le_separated trailing hseparator (xs.map f)
  rw [List.length_map] at hlength
  rw [List.length_append]
  omega

/-- **Elements with commas between them are read to the end.** -/
theorem yields_commaList {xs : List α} (htrailing : xs = [] → trailing = false)
    (hread : ∀ x ∈ xs, ∀ rest, (rest = [] ∨ ∃ ts, rest = .punct ',' false :: ts) →
      f x ++ rest ≠ [] ∧ Yields p (f x ++ rest) x rest) :
    Yields (commaList p) (separated "," trailing (xs.map f)) (xs, trailing) [] := by
  have hlist : Yields (commaList p) (separated "," trailing (xs.map f) ++ []) (xs, trailing) [] :=
    yields_listUntil (by decide) (fun _ => rfl) rfl htrailing fun x hx rest hrest => by
      obtain ⟨hne, hx⟩ := hread x hx rest hrest
      exact ⟨List.isEmpty_eq_false_iff.mpr hne, hx⟩
  rwa [List.append_nil] at hlist

end List

/-! ### Whole token sequences -/

theorem Yields.runAll (h : Yields p tokens a []) : Parser.runAll p tokens = .ok a := by
  show (p.run _ >>= _) = _
  rw [h none]
  rfl

end EntityTable.Source.Parser
