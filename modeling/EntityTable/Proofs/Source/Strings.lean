import EntityTable.Proofs.Source.Remainders
import EntityTable.Source.Tree.ExprTokens

/-! # String literals that parsers keep

A parse moves lifetimes, drops separators and writes numbers anew, but the string literals of a tree
are those that were read, in their order. `Kept` says so of a parser that starts with some literals
already read, and there is a lemma for each combinator. What is left unread in a group is read by no
tree, so the statement is about parses that leave nothing there; a whole parse is one of them
(`Keeps.runAll`). -/

namespace EntityTable.Source

mutual

/-- The string literals in a token tree. -/
def Token.strings : Token → List String
  | .literal text => if Literal.kind text = .string then [text] else []
  | .group _ body => Token.stringsOf body
  | .word _ => []
  | .punct _ _ => []
  | .lifetime _ => []

/-- The string literals in a token sequence. -/
def Token.stringsOf : List Token → List String
  | [] => []
  | t :: rest => t.strings ++ Token.stringsOf rest

end

/-- What is written with string literals. -/
class HasStrings (α : Type) where
  /-- The string literals that are written, in order. -/
  strings : α → List String

export HasStrings (strings)

/-- What is written without string literals. -/
class HasNoStrings (α : Type) [HasStrings α] : Prop where
  strings_eq : ∀ a : α, strings a = []

@[simp] theorem strings_eq_nil {α : Type} [HasStrings α] [HasNoStrings α] (a : α) :
    strings a = [] := HasNoStrings.strings_eq a

instance : HasStrings Unit := ⟨fun _ => []⟩
instance : HasNoStrings Unit := ⟨fun _ => rfl⟩
instance : HasStrings Bool := ⟨fun _ => []⟩
instance : HasNoStrings Bool := ⟨fun _ => rfl⟩
/-- A word or a lifetime. -/
instance : HasStrings String := ⟨fun _ => []⟩
instance : HasNoStrings String := ⟨fun _ => rfl⟩
instance : HasStrings Delimiter := ⟨fun _ => []⟩
instance : HasNoStrings Delimiter := ⟨fun _ => rfl⟩

instance {α : Type} [HasStrings α] : HasStrings (Option α) := ⟨fun o => (o.map strings).getD []⟩
instance {α : Type} [HasStrings α] : HasStrings (List α) := ⟨fun l => l.flatMap strings⟩
instance {α β : Type} [HasStrings α] [HasStrings β] : HasStrings (α × β) :=
  ⟨fun p => strings p.1 ++ strings p.2⟩
instance : HasStrings Token := ⟨Token.strings⟩

section Structure
variable {α β : Type} [HasStrings α] [HasStrings β]

@[simp] theorem strings_none : strings (none : Option α) = [] := rfl

@[simp] theorem strings_some (a : α) : strings (some a) = strings a := rfl

@[simp] theorem strings_nil : strings ([] : List α) = [] := rfl

@[simp] theorem strings_cons (a : α) (l : List α) : strings (a :: l) = strings a ++ strings l := rfl

@[simp] theorem strings_append (l m : List α) : strings (l ++ m) = strings l ++ strings m :=
  List.flatMap_append

@[simp] theorem strings_pair (a : α) (b : β) : strings (a, b) = strings a ++ strings b := rfl

instance [HasNoStrings α] : HasNoStrings (Option α) where
  strings_eq o := by cases o <;> simp

instance [HasNoStrings α] : HasNoStrings (List α) where
  strings_eq l := by induction l <;> simp_all

instance [HasNoStrings α] [HasNoStrings β] : HasNoStrings (α × β) where
  strings_eq p := by simp [strings]

end Structure

/-! ### Tokens -/

@[simp] theorem strings_word (w : String) : strings (Token.word w) = [] := rfl

@[simp] theorem strings_punct (c : Char) (joint : Bool) : strings (Token.punct c joint) = [] := rfl

@[simp] theorem strings_lifetime (name : String) : strings (Token.lifetime name) = [] := rfl

theorem stringsOf_eq (ts : List Token) : Token.stringsOf ts = strings ts := by
  induction ts with
  | nil => rfl
  | cons t ts ih => rw [Token.stringsOf, ih]; rfl

@[simp] theorem strings_group (d : Delimiter) (body : List Token) :
    strings (Token.group d body) = strings body := stringsOf_eq body

theorem strings_literal (text : String) :
    strings (Token.literal text) = if Literal.kind text = .string then [text] else [] := rfl

@[simp] theorem strings_operator (text : String) : strings (Token.operator text) = [] := by
  unfold Token.operator
  induction text.toList with
  | nil => rfl
  | cons c cs ih =>
    cases cs with
    | nil => rfl
    | cons d ds => rw [Token.operator.go]; exact ih; simp

@[simp] theorem strings_wordToken (name : String) : strings (wordToken name) = [] := rfl

@[simp] theorem strings_wordIf (condition : Bool) (name : String) :
    strings (wordIf condition name) = [] := by
  cases condition <;> rfl

@[simp] theorem strings_operatorIf (condition : Bool) (text : String) :
    strings (operatorIf condition text) = [] := by
  cases condition <;> simp [operatorIf]

@[simp] theorem strings_lifetimeTokens (name : Option String) :
    strings (lifetimeTokens name) = [] := by
  cases name <;> rfl

@[simp] theorem strings_nameTokens (name : Option String) : strings (nameTokens name) = [] := by
  cases name <;> simp [nameTokens]

@[simp] theorem strings_separated (operator : String) (trailing : Bool) (parts : List (List Token)) :
    strings (separated operator trailing parts) = strings parts := by
  induction parts with
  | nil => rfl
  | cons first parts ih =>
    cases parts with
    | nil => simp [separated]
    | cons second parts => rw [separated]; simp [ih]; simp

/-! ### Parsers -/

namespace Parser

variable {α β : Type}

/-- On the tokens, what the parser returns has the literals `before` and then those that it reads,
unless something is left unread in a group. What is kept of a value is given by `keep`. -/
def KeptOn (keep : α → List String) (before : List String) (p : Parser α) (tokens : List Token) :
    Prop :=
  ∀ ⦃unread : Option Delimiter⦄ ⦃out : Input⦄ ⦃a : α⦄, p.run ⟨tokens, unread⟩ = .ok (a, out) →
    ∃ read, tokens = read ++ out.tokens ∧
      (out.unread = none → unread = none ∧ keep a = before ++ strings read)

/-- Whatever the tokens are, the literals are kept. -/
def Kept (keep : α → List String) (before : List String) (p : Parser α) : Prop :=
  ∀ tokens, KeptOn keep before p tokens

/-- The parser returns the string literals that it reads. -/
class Keeps [HasStrings α] (p : Parser α) : Prop where
  kept : Kept strings [] p

variable {keep : α → List String} {before : List String} {p q : Parser α}
  {tokens more : List Token}

theorem Kept.on (hp : Kept keep before p) (tokens : List Token) : KeptOn keep before p tokens :=
  hp tokens

/-! ### Steps -/

theorem kept_pure {a : α} (h : keep a = before) : Kept keep before (pure a) := by
  intro tokens unread out b hrun
  cases hrun
  exact ⟨[], rfl, fun hunread => ⟨hunread, by simpa using h⟩⟩

theorem kept_throw (e : SyntaxError) : Kept keep before (throw e : Parser α) := by
  intro tokens unread out a hrun
  cases hrun

/-- What the first parser keeps is there before the second. -/
theorem Kept.bind {keep' : β → List String} {f : α → Parser β} (hp : Kept keep before p)
    (hf : ∀ a, Kept keep' (keep a) (f a)) : Kept keep' before (p >>= f) := by
  intro tokens unread out b hrun
  obtain ⟨a, middle, hfirst, hrest⟩ := run_bind hrun
  obtain ⟨read, hread, hkeep⟩ := hp _ hfirst
  obtain ⟨more, hmore, hkeep'⟩ := hf a _ hrest
  refine ⟨read ++ more, by rw [hread, hmore, List.append_assoc], fun hunread => ?_⟩
  obtain ⟨hmiddle, hb⟩ := hkeep' hunread
  obtain ⟨hinput, ha⟩ := hkeep hmiddle
  exact ⟨hinput, by rw [hb, ha, strings_append, List.append_assoc]⟩

/-- What was read earlier is kept, too. -/
theorem Kept.prepend (hp : Kept keep before p) (earlier : List String) :
    Kept (fun a => earlier ++ keep a) (earlier ++ before) p := by
  intro tokens unread out a hrun
  obtain ⟨read, hread, hkeep⟩ := hp _ hrun
  refine ⟨read, hread, fun hunread => ⟨(hkeep hunread).1, ?_⟩⟩
  rw [List.append_assoc]
  exact congrArg _ (hkeep hunread).2

/-- A parser that keeps its literals comes first. -/
theorem kept_bind [HasStrings α] {keep' : β → List String} {f : α → Parser β} [hp : Keeps p]
    (hf : ∀ a, Kept keep' (before ++ strings a) (f a)) : Kept keep' before (p >>= f) :=
  Kept.bind (by simpa using hp.kept.prepend before) hf

/-- A parser that returns no literals comes first. -/
theorem kept_skip [HasStrings α] [HasNoStrings α] {keep' : β → List String} {f : α → Parser β}
    [Keeps p] (hf : ∀ a, Kept keep' before (f a)) : Kept keep' before (p >>= f) :=
  kept_bind fun a => by simpa using hf a

theorem kept_ite {c : Prop} [Decidable c] (hp : Kept keep before p) (hq : Kept keep before q) :
    Kept keep before (if c then p else q) := by
  split
  · exact hp
  · exact hq

instance keepsPure [HasStrings α] [HasNoStrings α] (a : α) : Keeps (pure a : Parser α) :=
  ⟨kept_pure (strings_eq_nil a)⟩

instance keepsNone [HasStrings α] : Keeps (pure none : Parser (Option α)) := ⟨kept_pure rfl⟩

/-! ### Looking at tokens -/

instance keepsPeek (test : List Token → Bool) : Keeps (peek test) where
  kept tokens unread out a hrun := by
    cases hrun
    exact ⟨[], rfl, fun hunread => ⟨hunread, rfl⟩⟩

instance keepsPeekAfter (count : Nat) (test : List Token → Bool) : Keeps (peekAfter count test) :=
  keepsPeek fun tokens => test (tokens.drop count)

instance keepsAtEnd : Keeps atEnd := keepsPeek _

theorem kept_expected (alternatives : List String) :
    Kept keep before (expected alternatives : Parser α) := by
  intro tokens unread out a hrun
  obtain ⟨_, _, -, hrun⟩ := run_bind hrun
  cases hrun

/-- The tokens that are looked at are those that are read on. -/
theorem kept_of_rest {f : List Token → Parser α}
    (h : ∀ tokens, KeptOn keep before (f tokens) tokens) : Kept keep before (rest >>= f) :=
  fun tokens _ _ _ hrun => h tokens hrun

/-- It does not matter which tokens are looked at. -/
theorem kept_rest {f : List Token → Parser α} (h : ∀ tokens, Kept keep before (f tokens)) :
    Kept keep before (rest >>= f) := kept_of_rest fun tokens => h tokens tokens

theorem keptOn_ite {c : Prop} [Decidable c] (hp : c → KeptOn keep before p tokens)
    (hq : ¬ c → KeptOn keep before q tokens) : KeptOn keep before (if c then p else q) tokens := by
  split
  · exact hp ‹_›
  · exact hq ‹_›

/-- Going on behind the tokens `first`, which have been looked at. -/
theorem Kept.advance (first : List Token) (hp : Kept keep (before ++ strings first) p) :
    KeptOn keep before (Parser.advance more >>= fun _ => p) (first ++ more) := by
  intro unread out a hrun
  obtain ⟨_, middle, hmiddle, hrest⟩ := run_bind hrun
  cases hmiddle
  obtain ⟨read, hread, hkeep⟩ := hp _ hrest
  refine ⟨first ++ read, by rw [List.append_assoc]; exact congrArg _ hread, fun hunread => ?_⟩
  exact ⟨(hkeep hunread).1, by rw [(hkeep hunread).2, strings_append, List.append_assoc]⟩

/-- Going on behind tokens without literals. -/
theorem Kept.skip (first : List Token) (hfirst : strings first = []) (hp : Kept keep before p) :
    KeptOn keep before (Parser.advance more >>= fun _ => p) (first ++ more) := by
  have hp : Kept keep (before ++ strings first) p := by rwa [hfirst, List.append_nil]
  exact Kept.advance first hp

/-! ### Operators and words -/

theorem exists_of_dropOperator? {text : String} {tokens ts : List Token}
    (h : dropOperator? text tokens = some ts) :
    ∃ first, tokens = first ++ ts ∧ strings first = [] := by
  unfold dropOperator? at h
  generalize text.toList = cs at h
  induction cs generalizing tokens with
  | nil =>
    cases h
    exact ⟨[], rfl, rfl⟩
  | cons c cs ih =>
    unfold dropOperator?.go at h
    split at h
    · rename_i heq
      cases heq
    · split at h
      · cases h
        exact ⟨[_], rfl, rfl⟩
      · cases h
    · rename_i heq
      cases heq
      split at h
      · obtain ⟨first, rfl, hfirst⟩ := ih h
        exact ⟨_ :: first, rfl, hfirst⟩
      · cases h
    · cases h

/-- Reading one token without literals. -/
theorem keptOn_one {t : Token} {a : α} (ht : strings t = []) (ha : keep a = before) :
    KeptOn keep before (advance more >>= fun _ => pure a) (t :: more) :=
  Kept.skip [t] (by rw [strings_cons, ht]; rfl) (kept_pure ha)

instance keepsOperator? (text : String) : Keeps (operator? text) where
  kept := kept_of_rest fun tokens => by
    split
    · rename_i heq
      obtain ⟨first, rfl, hfirst⟩ := exists_of_dropOperator? heq
      exact Kept.skip first hfirst (kept_pure rfl)
    · exact kept_pure rfl _

instance keepsOperator (text : String) : Keeps (operator text) where
  kept := kept_of_rest fun tokens => by
    split
    · rename_i heq
      obtain ⟨first, rfl, hfirst⟩ := exists_of_dropOperator? heq
      exact Kept.skip first hfirst (kept_pure rfl)
    · exact kept_throw _ _

instance keepsWord (name : String) : Keeps (word name) where
  kept := kept_of_rest fun tokens => by
    split
    · exact keptOn_ite (fun _ => keptOn_one rfl rfl) fun _ => kept_expected _ _
    · exact kept_expected _ _

instance keepsWord? (name : String) : Keeps (word? name) where
  kept := kept_of_rest fun tokens => by
    split
    · exact keptOn_ite (fun _ => keptOn_one rfl rfl) fun _ => kept_pure rfl _
    · exact kept_pure rfl _

instance keepsAnyWord : Keeps anyWord where
  kept := kept_of_rest fun tokens => by
    split
    · exact keptOn_one rfl rfl
    · exact kept_expected _ _

instance keepsIdent : Keeps ident where
  kept := kept_of_rest fun tokens => by
    split
    · exact keptOn_ite (fun _ => kept_throw _ _) fun _ => keptOn_one rfl rfl
    · exact kept_expected _ _

instance keepsLifetime : Keeps lifetime where
  kept := kept_of_rest fun tokens => by
    split
    · exact keptOn_one rfl rfl
    · exact kept_expected _ _

instance keepsLifetime? : Keeps lifetime? where
  kept := kept_of_rest fun tokens => by
    split
    · exact keptOn_one rfl rfl
    · exact kept_pure rfl _

/-! ### Groups, lists and repetitions -/

/-- What is read inside a group is all that there is, since nothing is left. -/
theorem Kept.inGroup (d : Delimiter) (hp : Kept keep before p) :
    Kept keep before (inGroup d p) := by
  intro tokens unread out a hrun
  obtain ⟨_, _, hget, hrun⟩ := run_bind hrun
  cases hget
  dsimp only at hrun
  split at hrun
  · rename_i d' body more _
    split at hrun
    · obtain ⟨⟨b, inner⟩, middle, hinner, hrun⟩ := run_bind hrun
      obtain ⟨⟨_, _⟩, hcontents, hmiddle⟩ := bind_eq_ok.mp hinner
      cases hmiddle
      cases hrun
      obtain ⟨read, hread, hkeep⟩ := hp _ hcontents
      refine ⟨[.group d' body], rfl, fun hunread => ?_⟩
      obtain ⟨hinner, hleft⟩ := Option.or_eq_none_iff.mp hunread
      have hempty : inner.tokens = [] := by
        cases htokens : inner.tokens with
        | nil => rfl
        | cons t ts =>
          rw [htokens] at hleft
          cases hleft
      obtain ⟨hinput, hb⟩ := hkeep hinner
      rw [hempty, List.append_nil] at hread
      exact ⟨hinput, by simpa [hread] using hb⟩
    · exact kept_expected _ _ hrun
  · exact kept_expected _ _ hrun

instance keepsInGroup [HasStrings α] (d : Delimiter) (p : Parser α) [hp : Keeps p] :
    Keeps (inGroup d p) := ⟨hp.kept.inGroup d⟩

instance keepsSome [HasStrings α] (p : Parser α) [Keeps p] : Keeps (some <$> p) where
  kept := by
    rw [map_eq_pure_bind]
    exact kept_bind fun a => kept_pure rfl

theorem keeps_listUntil_go [HasStrings α] (stop : List Token → Bool) (separator : String)
    (p : Parser α) [Keeps p] (fuel : Nat) : Keeps (listUntil.go stop separator p fuel) := by
  induction fuel with
  | zero => exact ⟨kept_pure rfl⟩
  | succ fuel hmore =>
    unfold listUntil.go
    refine ⟨kept_skip fun _ => kept_ite (kept_pure rfl) ?_⟩
    refine kept_bind fun first => kept_skip fun _ => kept_ite (kept_pure (by simp)) ?_
    refine kept_skip fun _ => kept_bind fun more => kept_pure ?_
    simp [strings]

instance keepsListUntil [HasStrings α] (stop : List Token → Bool) (separator : String)
    (p : Parser α) [Keeps p] : Keeps (listUntil stop separator p) where
  kept := kept_rest fun _ => (keeps_listUntil_go stop separator p _).kept

instance keepsCommaList [HasStrings α] (p : Parser α) [Keeps p] : Keeps (commaList p) :=
  keepsListUntil _ _ p

/-- One more round of a repetition: what is kept of the next value, or of the last one. -/
def KeptStep (keep : α → List String) (step : α → Parser (Option α)) : Prop :=
  ∀ a, Kept (fun next => keep (next.getD a)) (keep a) (step a)

theorem kept_iterate_go {step : α → Parser (Option α)} (hstep : KeptStep keep step) :
    ∀ fuel a, Kept keep (keep a) (iterate.go step fuel a) := by
  intro fuel
  induction fuel with
  | zero => exact fun _ => kept_pure rfl
  | succ fuel ih =>
    intro a
    refine (hstep a).bind fun next => ?_
    cases next with
    | some next => exact ih next
    | none => exact kept_pure rfl

theorem kept_iterate {step : α → Parser (Option α)} (keep : α → List String) {a : α}
    (ha : keep a = before) (hstep : KeptStep keep step) : Kept keep before (iterate step a) :=
  ha ▸ kept_rest fun _ => kept_iterate_go hstep _ a

/-- **A whole parse keeps its string literals.** -/
theorem Keeps.runAll [HasStrings α] [hp : Keeps p] {tokens : List Token} {a : α}
    (h : runAll p tokens = .ok a) : strings a = strings tokens := by
  obtain ⟨⟨a, out⟩, hrun, h⟩ := bind_eq_ok.mp h
  obtain ⟨read, hread, hkeep⟩ := hp.kept _ hrun
  dsimp only at h
  split at h
  · cases h
  · cases h
  · rename_i hunread htokens
    cases h
    rw [(hkeep hunread).2, List.nil_append]
    rw [htokens, List.append_nil] at hread
    exact congrArg strings hread.symm

end Parser

end EntityTable.Source
