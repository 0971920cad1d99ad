import FlipperBlocks.Proofs.C.Occurrences
import FlipperBlocks.Proofs.Draft.Moves

/-! Where the function of a button is handed over.

It is handed over together with the application, as the last two arguments of a call that is a statement. Some
tokens cannot be part of such a place, whatever stands around them: it is enough that a name of the two is
not among them, or has other neighbours. -/
namespace FlipperBlocks.C

open Token (word call mark)

def callback (number : Nat) : String := "app_button_cb_" ++ toString number

theorem callback_injective : Function.Injective callback :=
  fun n m same => @Draft.numbered_inj "app_button_cb" n m same

/-- The tokens by which the function of a button is handed over, up to the end of the statement. -/
def registrationRun (number : Nat) : List Token :=
  [word (callback number).toList, mark [','], word ['a', 'p', 'p'], mark [')'], mark [';']]

theorem tokens_registration (number : Nat) :
    tokens (callback number ++ ", app);") = registrationRun number := by
  have named : Identifier.isIdentifier (callback number) = true :=
    @Identifier.isIdentifier_numbered "app_button_cb" (by decide) number
  have ends : Closes ", app);" [mark [','], word ['a', 'p', 'p'], mark [')'], mark [';']] := by decide
  exact ((Reads.name named).append_closes ⟨',', by decide, rfl⟩ ends).reads.tokens_eq

/-! Tokens with other neighbours. -/

/-- The lists differ where both go on. -/
def Diverges : List Token → List Token → Prop
  | a :: as, b :: bs => a ≠ b ∨ Diverges as bs
  | _, _ => False

theorem Diverges.append {a b : List Token} (diverges : Diverges a b) (more : List Token) :
    Diverges (a ++ more) b := by
  induction a generalizing b with
  | nil => exact diverges.elim
  | cons first rest ih =>
    cases b with
    | nil => exact diverges.elim
    | cons other others => exact diverges.imp_right ih

theorem Diverges.not_start {a b : List Token} (diverges : Diverges a b) : ¬ b <+: a := by
  induction a generalizing b with
  | nil => exact diverges.elim
  | cons first rest ih =>
    cases b with
    | nil => exact diverges.elim
    | cons other others =>
      rw [List.cons_prefix_cons]
      rintro ⟨same, starts⟩
      exact diverges.elim (fun differs => differs same.symm) fun later => ih later starts

/-- Wherever the token is among the others, not all that should stand before it and after it does. -/
def Clear (left : List Token) (anchor : Token) (right tokens : List Token) : Prop :=
  ∀ before after, tokens = before ++ anchor :: after →
    Diverges before.reverse left.reverse ∨ Diverges after right

namespace Clear

variable {left right a b rest : List Token} {anchor token next : Token}

theorem nil : Clear left anchor right [] := by
  intro before after split
  simp at split

theorem append (first : Clear left anchor right a) (second : Clear left anchor right b) :
    Clear left anchor right (a ++ b) := by
  have later {before after : List Token} (split : b = before ++ anchor :: after) :
      Diverges (a ++ before).reverse left.reverse ∨ Diverges after right := by
    rw [List.reverse_append]
    exact (second before after split).imp_left fun diverges => diverges.append _
  intro before after split
  rcases List.append_eq_append_iff.1 split with ⟨between, rfl, inSecond⟩ | ⟨between, inFirst, rest⟩
  · exact later inSecond
  · cases between with
    | nil =>
      rw [List.append_nil] at inFirst
      rw [← inFirst]
      exact List.append_nil a ▸ later rest.symm
    | cons token between =>
      rw [List.cons_append, List.cons.injEq] at rest
      obtain ⟨rfl, rfl⟩ := rest
      exact (first before between inFirst).imp_right fun diverges => diverges.append _

theorem cons (here : token = anchor → Diverges rest right) (clear : Clear left anchor right rest) :
    Clear left anchor right (token :: rest) := by
  intro before after split
  cases before with
  | nil =>
    obtain ⟨same, rfl⟩ := List.cons.inj split
    exact .inr (here same)
  | cons first before =>
    obtain ⟨rfl, later⟩ := List.cons.inj split
    rw [List.reverse_cons]
    exact (clear before after later).imp_left fun diverges => diverges.append _

theorem of_not_mem (absent : anchor ∉ a) : Clear left anchor right a := by
  rintro before after rfl
  simp at absent

theorem pair (first : token = anchor → Diverges [next] right)
    (second : next = anchor → Diverges [token] left.reverse) : Clear left anchor right [token, next] := by
  intro before after split
  simp only [List.cons_eq_append_iff, List.nil_eq_append_iff] at split
  rcases split with ⟨rfl, split⟩ | ⟨_, rfl, ⟨rfl, split⟩ | ⟨_, rfl, rfl, split⟩⟩
  · obtain ⟨same, rfl⟩ := List.cons.inj split
    exact .inr (first same.symm)
  · obtain ⟨same, _⟩ := List.cons.inj split
    exact .inl (second same.symm)
  · simp at split

theorem not_around (clear : Clear left anchor right a) {before after : List Token}
    (split : a = before ++ anchor :: after) (front more : List Token)
    (ends : left <:+ front ++ before) : ¬ right <+: after ++ more := by
  rcases clear before after split with diverges | diverges
  · have apart := (diverges.append front.reverse).not_start
    rw [← List.reverse_append, List.reverse_prefix] at apart
    exact absurd ends apart
  · exact (diverges.append more).not_start

theorem occurrences_eq {run before after : List Token} (clear : Clear left anchor right a)
    (split : run = before ++ (left ++ anchor :: right) ++ after) : occurrences run a = 0 := by
  apply occurrences_eq_zero
  rintro front _ rfl _ ⟨rest, rfl⟩
  have parts : front ++ (run ++ rest) =
      front ++ before ++ left ++ anchor :: (right ++ (after ++ rest)) := by simp [split]
  refine clear.not_around parts [] [] (List.suffix_append _ _) ?_
  rw [List.append_nil]
  exact List.prefix_append _ _

end Clear

/-! Tokens that hand over no function. -/

/-- Neither name is where it would have to be: not that of the application, unless a variable is called so,
and not that of the function, unless a variable is called so. -/
structure Silent (names : List String) (number : Nat) (tokens : List Token) : Prop where
  app : "app" ∉ names → Clear [mark [',']] (word ['a', 'p', 'p']) [mark [')']] tokens
  function : callback number ∉ names →
    Clear [] (word (callback number).toList) [mark [','], word ['a', 'p', 'p'], mark [')']] tokens

namespace Silent

variable {names : List String} {number : Nat} {a b rest : List Token} {token : Token}

theorem nil : Silent names number [] := ⟨fun _ => .nil, fun _ => .nil⟩

theorem append (first : Silent names number a) (second : Silent names number b) :
    Silent names number (a ++ b) :=
  ⟨fun free => (first.app free).append (second.app free),
    fun free => (first.function free).append (second.function free)⟩

theorem cons (other : ∀ text, token ≠ word text) (silent : Silent names number rest) :
    Silent names number (token :: rest) :=
  ⟨fun free => .cons (fun same => absurd same (other _)) (silent.app free),
    fun free => .cons (fun same => absurd same (other _)) (silent.function free)⟩

theorem mark_cons (text : List Char) (silent : Silent names number rest) :
    Silent names number (mark text :: rest) :=
  silent.cons (by simp)

theorem call_cons (function : List Char) (silent : Silent names number rest) :
    Silent names number (call function :: rest) :=
  silent.cons (by simp)

theorem word_cons {text : List Char} (first : "app" ∉ names → text ≠ ['a', 'p', 'p'])
    (second : callback number ∉ names → text ≠ (callback number).toList)
    (silent : Silent names number rest) : Silent names number (word text :: rest) := by
  constructor
  · intro free
    refine .cons (fun same => absurd ?_ (first free)) (silent.app free)
    injection same
  · intro free
    refine .cons (fun same => absurd ?_ (second free)) (silent.function free)
    injection same

theorem fixed_cons {text : List Char} (other : text.head? ≠ some 'a')
    (silent : Silent names number rest) : Silent names number (word text :: rest) := by
  refine silent.word_cons (fun _ same => other ?_) fun _ same => other ?_
  · rw [same]
    rfl
  · rw [same, callback, String.toList_append]
    rfl

theorem between {left right : List Char} (first : left ≠ [',']) (second : right ≠ [',']) (text : List Char) :
    Silent names number [mark left, word text, mark right] := by
  have before : mark left ≠ mark [','] := by simpa using first
  have after : mark right ≠ mark [','] := by simpa using second
  constructor
  · intro _
    have start : Clear [mark [',']] (word ['a', 'p', 'p']) [mark [')']]
        [mark left, word text] :=
      .pair (by simp) fun _ => Or.inl before
    exact start.append (.of_not_mem (by simp))
  · intro _
    exact .cons (by simp) (.pair (fun _ => Or.inl after) (by simp))

theorem listed (text : List Char) (silent : Silent names number rest)
    (goesOn : Diverges rest [word ['a', 'p', 'p'], mark [')']]) :
    Silent names number (word text :: mark [','] :: rest) where
  app free := .cons (fun _ => .inl (by simp)) (.cons (by simp) (silent.app free))
  function free := .cons (fun _ => .inr goesOn) (.cons (by simp) (silent.function free))

variable (distinct : "app" ∈ names → callback number ∉ names)

include distinct

theorem occurrences_eq (silent : Silent names number a) : occurrences (registrationRun number) a = 0 := by
  by_cases taken : "app" ∈ names
  · exact (silent.function (distinct taken)).occurrences_eq
      (show registrationRun number = [] ++ _ ++ [mark [';']] from rfl)
  · exact (silent.app taken).occurrences_eq
      (show registrationRun number = [_] ++ _ ++ [mark [';']] from rfl)

/-- Where nothing has been handed over before, the last function that is handed over is the only one. -/
theorem occurrences_registration (silent : Silent names number a) (other : Nat) :
    occurrences (registrationRun number) (a ++ registrationRun other) = if number = other then 1 else 0 := by
  have last : occurrences (registrationRun number) (registrationRun other) =
      if number = other then 1 else 0 := by
    by_cases same : number = other
    · simp [occurrences, registrationRun, same]
    · have differs : (callback number).toList ≠ (callback other).toList := fun equal =>
        same (callback_injective (String.toList_inj.1 equal))
      simp_all [occurrences, registrationRun]
  rw [occurrences_append_of_free, last]
  rintro before after rfl nonempty starts
  by_cases taken : "app" ∈ names
  · -- The name of the function is among the tokens.
    obtain ⟨first, after, rfl⟩ := List.exists_cons_of_ne_nil nonempty
    rw [registrationRun, List.cons_append, List.cons_prefix_cons] at starts
    obtain ⟨rfl, starts⟩ := starts
    refine (silent.function (distinct taken)).not_around rfl [] (registrationRun other) List.nil_suffix ?_
    exact List.IsPrefix.trans ⟨[mark [';']], rfl⟩ starts
  · -- The name of the application is that of the last function, or among the tokens.
    rcases after with _ | ⟨first, _ | ⟨second, _ | ⟨third, after⟩⟩⟩
    · exact nonempty rfl
    · simp [registrationRun] at starts
    · have apart : ['a', 'p', 'p'] ≠ (callback other).toList := by simp [callback]
      simp [registrationRun, apart] at starts
    · simp only [registrationRun, List.cons_append, List.cons_prefix_cons] at starts
      obtain ⟨rfl, rfl, rfl, starts⟩ := starts
      have split : before ++ word (callback number).toList :: mark [','] ::
          word ['a', 'p', 'p'] :: after =
            before ++ [word (callback number).toList, mark [',']] ++
              word ['a', 'p', 'p'] :: after := by simp
      refine (silent.app taken).not_around split [] (registrationRun other) ?_ ?_
      · exact ⟨before ++ [word (callback number).toList], by simp⟩
      · exact List.IsPrefix.trans ⟨[mark [';']], rfl⟩ starts

end Silent

end FlipperBlocks.C
