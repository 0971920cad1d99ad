import FlipperBlocks.Proofs.Lowering.Values

/-! Blocks that stand for statements give fit code. -/
namespace FlipperBlocks.Lowering

open C.Identifier
open C (Code Expr Line)
open C.Identifier (isIdentifier)

variable {outcome : Outcome} {phase : Phase} {site : Site} {last : Draft}
  {function : String} {value : Value} {storage : Storage}

/-! Code into which no input comes. -/

private theorem fits_element (listed : (function, []) ∈ vocabulary) {arguments : List Expr}
    (holds : Expr.HoldAll (Allowed last) arguments) : (element function arguments).Fits last :=
  .run ⟨allowed_free listed, ⟨by decide, by decide, fun _ => Draft.widget_mem_members⟩, holds⟩

@[grind norm] private theorem calls_element (function : String) (arguments : List Expr) :
    (element function arguments).calls = function :: Expr.callsOf arguments := by
  simp [element]

private theorem holds_alignment (site : Site) : Expr.HoldAll (Allowed last) (alignment site) :=
  ⟨isIdentifier_symbolOr _ (by decide),
    isIdentifier_symbolOr _ (by decide), trivial⟩

@[grind norm] private theorem callsOf_alignment (site : Site) : Expr.callsOf (alignment site) = [] := rfl

private def Draws (outcome : Outcome) (phase : Phase) (action : Expr → Expr → Lowering Code) : Prop :=
  ∀ known owed x y, (known → x.Holds (Allowed outcome.last)) →
    (known → y.Holds (Allowed outcome.last)) →
      Lowers outcome phase known (y.calls ++ (x.calls ++ owed)) (action x y)
        (Code.Fits outcome.last) fun code => code.calls ++ owed

private theorem draws_dot : Draws outcome phase fun x y => return drawDot x y := by
  intro known owed x y first second
  refine .pure (fun facts => ?_) fun _ _ _ => .inl (by unfold drawDot; grind)
  exact fits_element (by simp [vocabulary]) ⟨first facts, second facts, allowed_number (by decide), trivial,
    trivial⟩

theorem lowers_code {code : Code} (fits : code.Fits outcome.last) : LowersCode outcome phase (return code) :=
  fun _ _ => .done (fun _ => fits) fun _ _ => List.mem_append_right _

theorem fits_redraw : (Code.run redraw).Fits last :=
  .run ⟨allowed_free (by simp [vocabulary]),
    ⟨by decide, by decide, fun _ => Draft.view_dispatcher_mem_members⟩, allowed_name (by decide),
    trivial⟩

theorem lowers_notify (site : Site) : LowersCode outcome phase (notify site) := by
  intro known owed
  refine .bind (.enabling [] (by decide) (by decide)) fun _ =>
    .done (fun facts => ?_) fun _ _ => List.mem_append_right _
  have notif := Draft.notif_mem_members (facts.2 .notifications (List.mem_singleton_self _))
  refine .run ⟨⟨_, by simp [vocabulary], facts.2⟩, ⟨by decide, by decide, fun _ => notif⟩,
    ⟨fun _ => rfl, ?_⟩, trivial⟩
  exact isIdentifier_symbolOr _ (by decide)

private structure Branching (last : Draft) (before : List Char → List Char) (code : Code) : Prop where
  holds : code.Holds (Allowed last)
  opens : ∀ opened rest, C.nest (before opened) (code.tokens ++ rest) = C.nest ('{' :: opened) rest

private def beforeBranch (number : Nat) (opened : List Char) : List Char :=
  if number = 0 then opened else '{' :: opened

private theorem Branching.append {before : List Char → List Char}
    {code more : Code} (first : Branching last before code)
    (second : Branching last ('{' :: ·) more) : Branching last before (code ++ more) := by
  refine ⟨Code.holds_append.2 ⟨first.holds, second.holds⟩, fun opened rest => ?_⟩
  rw [Code.tokens_append, List.append_assoc, first.opens, second.opens]

private theorem branching_branch {test : Expr} {body : Code} (number : Nat)
    (holds : test.Holds (Allowed last)) (fits : body.Fits last) :
    Branching last (beforeBranch number) (Code.line
      (if number = 0 then .openBranch test else .nextBranch test) ++ body.indent) := by
  constructor
  · refine Code.holds_append.2 ⟨Code.holds_line.2 ?_, Code.holds_indent.2 fits.holds⟩
    split <;> exact holds
  · intro opened rest
    rw [Code.tokens_append, Code.tokens_line, List.append_assoc]
    unfold beforeBranch
    split
    · rw [Line.nest_opening rfl, fits.balanced.indent]
    · rw [Line.nest_nextBranch, fits.balanced.indent]

private theorem le_branchEnd (site : Site) : ∀ fuel number, number ≤ branchEnd site fuel number
  | 0, number => Nat.le_refl number
  | fuel + 1, number => by
    unfold branchEnd
    split
    · exact Nat.le_of_succ_le (le_branchEnd site fuel (number + 1))
    · exact Nat.le_refl number

private theorem branching_last {otherwise : Code} (fits : otherwise.Fits last) : Branching last ('{' :: ·)
      (if otherwise.isEmpty then [] else Code.line .lastBranch ++ otherwise.indent) := by
  split
  · exact ⟨Code.holds_nil, fun _ _ => rfl⟩
  · constructor
    · exact Code.holds_append.2 ⟨Code.holds_line.2 trivial, Code.holds_indent.2 fits.holds⟩
    · intro opened rest
      rw [Code.tokens_append, Code.tokens_line, List.append_assoc, Line.nest_lastBranch, fits.balanced.indent]

private theorem holds_formatArguments (lead : String) (fits : value.Fits last) :
    Expr.HoldAll (Allowed last) (formatArguments lead value) := by
  unfold formatArguments
  split
  · exact ⟨trivial, trivial⟩
  · exact ⟨trivial, fits.holds, trivial⟩
  · exact ⟨trivial, ⟨.inr rfl, fits.holds⟩, trivial⟩
  · exact ⟨trivial, ⟨allowed_int, fits.holds⟩, trivial⟩
  · exact ⟨trivial, ⟨allowed_int, fits.holds⟩, trivial⟩

private theorem mem_callsOf_formatArguments (lead : String) (called : function ∈ value.expr.calls) :
    function ∈ Expr.callsOf (formatArguments lead value) := by
  unfold formatArguments
  split
  · rename_i same
    rw [same, Expr.calls_quoted] at called
    contradiction
  all_goals grind

private theorem listed_logFunction (level : Option String) : (logFunction level, []) ∈ vocabulary := by
  unfold logFunction
  split <;> simp [vocabulary]

private theorem fits_copyText {text : Expr} (fits : storage.Fits last) (holds : text.Holds (Allowed last)) :
    (copyText storage text).Fits last := by
  have size : (storage.place.sizeOf).Holds (Allowed last) :=
    ⟨allowed_free (by simp [vocabulary]), holds_place fits, trivial⟩
  refine .append (.run ⟨allowed_free (by simp [vocabulary]), holds_place fits, holds, ⟨size, ?_⟩,
    trivial⟩) (.run ⟨⟨fits.named, size, ?_⟩, trivial⟩)
  · exact allowed_number (by decide)
  · exact allowed_number (by decide)

private theorem lowers_store {known : Prop} {owed : List String}
    (declared : known → storage.Fits outcome.last) (fits : known → value.Fits outcome.last) :
    Lowers outcome phase known (value.expr.calls ++ owed) (store storage value)
      (Code.Fits outcome.last) fun code => code.calls ++ owed := by
  unfold store
  split
  · split
    · refine .pure (fun facts => fits_copyText (declared facts) (fits facts).holds)
        fun _ _ _ => .inl ?_
      unfold copyText
      grind
    · refine .done (fun facts => .run ?_) (by grind)
      exact holds_printInto (declared facts).named allowed_int (fits facts).holds
  · refine .bind (.toNumber fits) fun number => .done (fun facts => .run ?_) (by grind)
    exact ⟨holds_place (declared facts.1), facts.2.1.holds⟩

variable (fits : site.Fits outcome phase)

include fits

/-! Elements of the screen. -/

private theorem lowers_measure (input : String) {default : String}
    (numeral : C.isNumeral default.toList = true) (known : Prop) (owed : List String) :
    Lowers outcome phase known owed (measure site input default)
      (Expr.Holds (Allowed outcome.last)) fun e => e.calls ++ owed :=
  .bind (fits.number input numeral known owed) fun _ => .pure (fun facts => facts.2.holds) fun _ _ => .inl

private theorem lowers_coordinate (input : String) (known : Prop) (owed : List String) :
    Lowers outcome phase known owed (coordinate site input)
      (Expr.Holds (Allowed outcome.last)) fun e => e.calls ++ owed :=
  lowers_measure fits input (by decide) known owed

private theorem draws_text : Draws outcome phase (drawText site) := by
  intro known owed x y first second
  refine .bind (fits.shown "TEXT" "Hello" _ _) fun text => .done (fun facts => ?_) (by grind)
  exact fits_element (by simp [vocabulary]) ⟨first facts.1, second facts.1, allowed_name (by decide),
    allowed_name (by decide), allowed_name (by decide), facts.2.holds, trivial⟩

private theorem draws_alignedText : Draws outcome phase (drawAlignedText site) := by
  intro known owed x y first second
  refine .bind (fits.shown "TEXT" "" _ _) fun text => .done (fun facts => ?_) (by grind)
  refine fits_element (by simp [vocabulary]) (Expr.holdAll_append.2 ⟨Expr.holdAll_append.2 ⟨?_,
    holds_alignment site⟩, allowed_name (by decide), facts.2.holds, trivial⟩)
  exact ⟨first facts.1, second facts.1, trivial⟩

private theorem draws_rectangle (rounded filled : Bool) :
    Draws outcome phase (drawRectangle site rounded filled) := by
  intro known owed x y first second
  have drawn (facts : Prop) (width height radius : Expr) (owed rest : List String)
      (holds : facts → Expr.HoldAll (Allowed outcome.last) [x, y, width, height, radius])
      (accounts : ∀ function ∈ owed,
        function ∈ Expr.callsOf [x, y, width, height, radius] ∨ function ∈ rest) :
      Lowers outcome phase facts owed
        (return element "widget_add_rect_element" [x, y, width, height, radius, .truth filled])
        (Code.Fits outcome.last) fun code => code.calls ++ rest := by
    refine .pure (fun known => fits_element (by simp [vocabulary]) ?_) fun _ function member => .inl ?_
    · obtain ⟨x, y, width, height, radius, _⟩ := holds known
      exact ⟨x, y, width, height, radius, trivial, trivial⟩
    · have accounted := accounts function member
      grind
  refine .bind (lowers_coordinate fits "W" _ _) fun width =>
    .bind (lowers_coordinate fits "H" _ _) fun height => ?_
  cases rounded with
  | true =>
    refine .bind (lowers_measure fits "R" (by decide) _ _) fun radius =>
      drawn _ _ _ _ _ _ (fun facts => ?_) (by grind)
    exact ⟨first facts.1.1.1, second facts.1.1.1, facts.1.1.2, facts.1.2, facts.2, trivial⟩
  | false =>
    refine drawn _ _ _ _ _ _ (fun facts => ?_) (by grind)
    exact ⟨first facts.1.1, second facts.1.1, facts.1.2, facts.2, allowed_zero, trivial⟩

private theorem draws_circle (filled : Bool) : Draws outcome phase (drawCircle site filled) := by
  intro known owed x y first second
  refine .bind (lowers_coordinate fits "R" _ _) fun radius => .done (fun facts => ?_) (by grind)
  exact fits_element (by simp [vocabulary]) ⟨first facts.1, second facts.1, facts.2, trivial, trivial⟩

private theorem draws_textBox : Draws outcome phase (textBox site) := by
  intro known owed x y first second
  refine .bind (lowers_coordinate fits "W" _ _) fun width =>
    .bind (lowers_coordinate fits "H" _ _) fun height => .bind (fits.shown "TEXT" "" _ _) fun text =>
      .done (fun facts => ?_) (by grind)
  refine fits_element (by simp [vocabulary]) (Expr.holdAll_append.2 ⟨Expr.holdAll_append.2 ⟨?_,
    holds_alignment site⟩, facts.2.holds, trivial, trivial⟩)
  exact ⟨first facts.1.1.1, second facts.1.1.1, facts.1.1.2, facts.1.2, trivial⟩

private theorem draws_scrollingText : Draws outcome phase (scrollingText site) := by
  intro known owed x y first second
  refine .bind (lowers_coordinate fits "W" _ _) fun width =>
    .bind (lowers_coordinate fits "H" _ _) fun height => .bind (fits.shown "TEXT" "" _ _) fun text =>
      .done (fun facts => ?_) (by grind)
  exact fits_element (by simp [vocabulary]) ⟨first facts.1.1.1, second facts.1.1.1, facts.1.1.2,
    facts.1.2, facts.2.holds, trivial⟩

private theorem lowers_drawLine : LowersCode outcome phase (drawLine site) := by
  intro known owed
  refine .bind (lowers_coordinate fits "X1" _ _) fun x₁ =>
    .bind (lowers_coordinate fits "Y1" _ _) fun y₁ => .bind (lowers_coordinate fits "X2" _ _) fun x₂ =>
      .bind (lowers_coordinate fits "Y2" _ _) fun y₂ => .done (fun facts => ?_) (by grind)
  exact fits_element (by simp [vocabulary]) ⟨facts.1.1.1.2, facts.1.1.2, facts.1.2, facts.2, trivial⟩

private theorem lowers_corner (input : String) (known : Prop) (owed : List String) :
    Lowers outcome phase known owed (coordinate site input) (fun e => e.Holds (Allowed outcome.last) ∧
        (site.kind = .drawLine → input ∈ site.kind.idleInputs →
          ∀ function ∈ e.calls, outcome.leftOut function)) fun e => e.calls ++ owed := by
  refine .bind (fits.yielded input (by decide) known owed) fun value =>
    .pure (fun facts => ⟨facts.2.1.holds, fun kind idle => ?_⟩) fun _ _ => .inl
  have other : site.kind ≠ .streamLength := by
    rw [kind]
    exact nofun
  exact leftOut_of_idle fits idle other facts.2

theorem lowers_drawing : LowersCode outcome phase (drawing site) := by
  intro known owed
  refine .bind (lowers_corner fits "X" _ _) fun x => .bind (lowers_corner fits "Y" _ _) fun y => ?_
  split
  · exact draws_text fits _ _ _ _ (·.1.2.1) (·.2.1)
  · exact draws_alignedText fits _ _ _ _ (·.1.2.1) (·.2.1)
  · exact draws_rectangle fits false true _ _ _ _ (·.1.2.1) (·.2.1)
  · exact draws_rectangle fits false false _ _ _ _ (·.1.2.1) (·.2.1)
  · exact draws_rectangle fits true true _ _ _ _ (·.1.2.1) (·.2.1)
  · exact draws_rectangle fits true false _ _ _ _ (·.1.2.1) (·.2.1)
  · rename_i kind
    -- A line goes by its two ends, and nothing comes of its corner.
    have idle : "X" ∈ site.kind.idleInputs ∧ "Y" ∈ site.kind.idleInputs := by
      rw [kind]
      decide
    refine (lowers_drawLine fits _ _).imp (fun _ _ => id) fun code facts _ function member => ?_
    have horizontal := facts.1.2.2 kind idle.1 function
    have vertical := facts.2.2 kind idle.2 function
    unfold Outcome.Accounts
    grind
  · exact draws_circle fits false _ _ _ _ (·.1.2.1) (·.2.1)
  · exact draws_circle fits true _ _ _ _ (·.1.2.1) (·.2.1)
  · exact draws_dot _ _ _ _ (·.1.2.1) (·.2.1)
  · exact draws_textBox fits _ _ _ _ (·.1.2.1) (·.2.1)
  · exact draws_scrollingText fits _ _ _ _ (·.1.2.1) (·.2.1)

theorem lowers_button (kind : site.kind = .button) : LowersCode outcome phase (button site) := by
  intro known owed
  have belongs : site.kind.bodyPhase "DO" phase = .button := by rw [kind]; rfl
  have drawn (facts : Prop) (label : Value) (callback : List Expr) (owed rest : List String)
      (fit : facts → label.Fits outcome.last)
      (holds : facts → Expr.HoldAll (Allowed outcome.last) callback)
      (accounts : facts → ∀ function ∈ owed,
        function ∈ label.expr.calls ++ rest ∨ function ∈ outcome.last.calls) :
      Lowers outcome phase facts owed
        (pure (element "widget_add_button_element"
          ([.name (symbolOr (site.head.field? "BTN") "GuiButtonTypeLeft"), label.expr] ++
            callback))) (Code.Fits outcome.last) fun code => code.calls ++ rest := by
    refine .pure (fun known => fits_element (by simp [vocabulary]) ⟨?_, (fit known).holds, holds known⟩)
      fun known function member => ?_
    · exact isIdentifier_symbolOr _ (by decide)
    · have accounted := accounts known function member
      unfold Outcome.Accounts
      grind
  refine .bind (fits.shown "LABEL" "Btn" _ _) fun label =>
    .bind (Lowers.inPhase (fits.statements belongs _ _)) fun body => ?_
  dsimp only
  split
  · rename_i empty
    rw [List.isEmpty_iff.1 empty]
    refine drawn _ _ _ _ _ (fun facts => facts.1.2) (fun _ => ?_) fun _ _ _ => by grind
    exact ⟨allowed_name (by decide), allowed_name (by decide), trivial⟩
  · refine .bind (.addButton fun facts => facts.2) fun number =>
      drawn _ _ _ _ _ (fun facts => facts.1.1.2) (fun _ => ⟨?_, ?_⟩) fun facts _ _ => ?_
    · exact isIdentifier_append (by decide) (isPart_toString number)
    · exact ⟨allowed_name (by decide), trivial⟩
    · have kept := facts.2
      grind

/-! Sections, branches and loops. -/

private theorem lowers_fillSection (kind : site.kind = .app)
    {part : String × Phase} (member : part ∈ sections) (known : Prop) (owed : List String) :
    Lowers outcome phase known owed (fillSection site part) (fun _ => True) fun _ => owed := by
  have belongs : site.kind.bodyPhase part.1 phase = part.2 := by
    rw [kind]
    simp only [sections, List.mem_cons, List.not_mem_nil, or_false] at member
    rcases member with rfl | rfl | rfl | rfl <;> rfl
  have isSection : part.2 ∈ [Phase.setup, .draw, .input, .loop] := List.mem_map_of_mem (f := Prod.snd) member
  refine .bind (Lowers.inPhase (fits.statements belongs _ _)) fun code => ?_
  refine (Lowers.append isSection And.right).imp (fun _ _ _ => trivial) fun _ _ kept function there => ?_
  rcases List.mem_append.1 there with called | before
  · exact .inr (.inl (kept function called))
  · exact .inl before

omit fits in
private theorem lowers_fillSections (fits : site.Fits outcome phase) (kind : site.kind = .app) :
    ∀ (parts : List (String × Phase)), (∀ part ∈ parts, part ∈ sections) → ∀ known owed,
      Lowers outcome phase known owed (fillSections site parts) (fun _ => True) fun _ => owed
  | [], _, _, _ => .pure (fun _ => trivial) fun _ _ => .inl
  | part :: rest, members, _, _ =>
    .bind (lowers_fillSection fits kind (members part List.mem_cons_self) _ _) fun _ =>
      lowers_fillSections fits kind rest (fun other there => members other (List.mem_cons_of_mem _ there)) _ _

theorem lowers_application (kind : site.kind = .app) :
    LowersCode outcome phase (application site) := fun _ _ =>
  .bind (lowers_fillSections fits kind sections (fun _ => id) _ _) fun _ =>
    .pure (fun _ => .nil) fun _ _ => .inl

theorem lowers_sleep : LowersCode outcome phase (sleep site) := by
  intro known owed
  refine .bind (fits.numeric "MS" (by decide) _ _) fun milliseconds => .done (fun facts => ?_) (by grind)
  exact .run ⟨allowed_free (by simp [vocabulary]), facts.2.holds, trivial⟩

theorem lowers_onKey (kind : site.kind = .onKey) : LowersCode outcome phase (onKey site) := by
  intro known owed
  have belongs : site.kind.bodyPhase "DO" phase = phase := by rw [kind]; rfl
  refine .bind .currentPhase fun current => ?_
  split
  · refine .bind (fits.statements belongs _ _) fun body => .done (fun facts => ?_) (by grind)
    have event {field : String} (named : isIdentifier field = true) :
        Allowed outcome.last (.member "event" field) :=
      ⟨by decide, named, fun same => absurd same (by decide)⟩
    refine .braced rfl ⟨⟨event (by decide), ?_⟩, event (by decide), ?_⟩
      (facts.2.append (.run ⟨allowed_name (by decide), trivial⟩))
    · exact isIdentifier_symbolOr _ (by decide)
    · exact isIdentifier_symbolOr _ (by decide)
  · exact .bind (.degrade _) fun _ => lowers_code (.comment _) _ _

theorem lowers_timer (kind : site.kind = .timer) : LowersCode outcome phase (timer site) := by
  intro known owed
  have belongs : site.kind.bodyPhase "DO" phase = .timer := by rw [kind]; rfl
  refine .bind (Lowers.inPhase (fits.statements belongs _ _)) fun body =>
    .bind (.enabling [] (by decide) (by decide)) fun _ =>
      .bind (.addTimer fun facts => facts.1.2) fun _ => .pure (fun _ => .nil) ?_
  intro facts function member
  rw [List.nil_append] at member
  rcases List.mem_append.1 member with called | before
  · exact .inr (.inl (facts.2 function called))
  · exact .inl before

theorem lowers_repeated (kind : site.kind = .repeated) : LowersCode outcome phase (repeated site) := by
  intro known owed
  have belongs : site.kind.bodyPhase "DO" phase = phase := by rw [kind]; rfl
  refine .bind (fits.numeric "TIMES" (by decide) _ _) fun times =>
    .bind (.fresh (by decide)) fun counter => .bind (fits.statements belongs _ _) fun body =>
      .done (fun facts => ?_) (by grind)
  exact .braced rfl ⟨facts.1.2.2, Expr.holds_rightOperand _ facts.1.1.2.holds⟩ facts.2

theorem lowers_whileUntil (kind : site.kind = .whileUntil) : LowersCode outcome phase (whileUntil site) := by
  intro known owed
  have belongs : site.kind.bodyPhase "DO" phase = phase := by rw [kind]; rfl
  refine .bind (fits.truth "BOOL" false _ _) fun condition => ?_
  dsimp only
  refine .bind (fits.statements belongs _ _) fun body => .pure (fun facts => .braced rfl ?_ facts.2)
    fun _ _ _ => .inl ?_
  · change Expr.Holds _ (if _ then _ else _)
    split
    · exact ⟨nofun, Expr.holds_operand _ facts.1.2.holds⟩
    · exact facts.1.2.holds
  · split <;> grind

private theorem lowers_branch (kind : site.kind = .conditional)
    (number : Nat) (known : Prop) (owed : List String) : Lowers outcome phase known owed (branch site number)
      (Branching outcome.last (beforeBranch number)) fun code => code.calls ++ owed := by
  have belongs (input : String) : site.kind.bodyPhase input phase = phase := by rw [kind]; rfl
  refine .bind (fits.truth _ false _ _) fun test => .bind (fits.statements (belongs _) _ _) fun body =>
    .pure (fun facts => branching_branch number facts.1.2.holds facts.2) fun _ _ _ => .inl ?_
  split <;> grind

omit fits in
private theorem lowers_branches (fits : site.Fits outcome phase) (kind : site.kind = .conditional) :
    ∀ (numbers : List Nat), 0 ∉ numbers → ∀ known owed,
      Lowers outcome phase known owed (branches site numbers)
        (Branching outcome.last ('{' :: ·)) fun code => code.calls ++ owed
  | [], _, _, _ => .pure (fun _ => ⟨Code.holds_nil, fun _ _ => rfl⟩) fun _ _ => .inl
  | number :: rest, positive, known, owed => by
    rw [List.mem_cons, not_or] at positive
    have later : beforeBranch number = ('{' :: ·) := by
      funext opened
      exact if_neg (Ne.symm positive.1)
    refine .bind (lowers_branch fits kind number _ _) fun code =>
      .bind (lowers_branches fits kind rest positive.2 _ _) fun more => .done (fun facts => ?_) (by grind)
    exact (later ▸ facts.1.2).append facts.2

theorem lowers_conditional (kind : site.kind = .conditional) :
    LowersCode outcome phase (conditional site) := by
  intro known owed
  have belongs (input : String) : site.kind.bodyPhase input phase = phase := by rw [kind]; rfl
  obtain ⟨count, counted⟩ := Nat.exists_eq_add_of_le'
    (le_branchEnd site (site.values.length + site.bodies.length) 1)
  have first : List.range (branchCount site) = 0 :: (List.range count).map Nat.succ := by
    rw [branchCount, counted, List.range_succ_eq_map]
  have positive : 0 ∉ (List.range count).map Nat.succ := by simp
  unfold conditional
  rw [first]
  have whole : Lowers outcome phase known owed
      (branches site (0 :: (List.range count).map Nat.succ))
      (Branching outcome.last id) fun code => code.calls ++ owed :=
    .bind (lowers_branch fits kind 0 _ _) fun code =>
      .bind (lowers_branches fits kind _ positive _ _) fun more =>
        .done (fun facts => facts.1.2.append facts.2) (by grind)
  refine .bind whole fun code => .bind (fits.statements (belongs _) _ _) fun otherwise =>
    .pure (fun facts => ⟨?_, fun opened rest => ?_⟩) fun _ function member => .inl ?_
  · have chain := facts.1.2.append (branching_last facts.2)
    exact Code.holds_append.2 ⟨chain.holds, Code.holds_line.2 trivial⟩
  · have chain := facts.1.2.append (branching_last facts.2)
    rw [Code.tokens_append, List.append_assoc]
    exact (chain.opens opened _).trans (by rw [Code.tokens_line, Line.nest_close])
  · split
    · rename_i empty
      rw [List.isEmpty_iff.1 empty] at member
      grind
    · grind

/-! Messages, variables and files. -/

theorem lowers_log : LowersCode outcome phase (log site) := by
  intro known owed
  refine .bind (fits.shown "TAG" "APP" _ _) fun tag => .bind (fits.text "MSG" "" _ _) fun message =>
    .pure (fun facts => ?_) fun _ function member => .inl ?_
  · exact .run ⟨allowed_free (listed_logFunction _), facts.1.2.holds,
      holds_formatArguments "" facts.2⟩
  · have called : function ∈ message.expr.calls →
      function ∈ Expr.callsOf (formatArguments "" message) := mem_callsOf_formatArguments ""
    grind

theorem lowers_print : LowersCode outcome phase (print site) := by
  intro known owed
  refine .bind (fits.text "TEXT" "" _ _) fun value => .pure (fun facts => ?_) fun _ function member => .inl ?_
  · exact .run ⟨allowed_free (by simp [vocabulary]), trivial, holds_formatArguments _ facts.2⟩
  · have called : function ∈ value.expr.calls →
      function ∈ Expr.callsOf (formatArguments "Print: " value) := mem_callsOf_formatArguments _
    grind

theorem lowers_setVariable : LowersCode outcome phase (setVariable site) := by
  intro known owed
  refine .bind (fits.scalar? "VALUE" (.number (by decide)) _ _) fun found => ?_
  cases found with
  | some value =>
    exact .bind (lowers_resolve site _ _ _) fun storage =>
      lowers_store (fun facts => facts.2) fun facts => facts.1.2 value rfl
  | none => exact .bind (.degrade _) fun _ => lowers_code (.comment _) _ _

theorem lowers_changeVariable : LowersCode outcome phase (changeVariable site) := by
  intro known owed
  refine .bind (lowers_resolve site _ _ _) fun storage => ?_
  split
  · refine .bind (fits.numeric "DELTA" (by decide) _ _) fun delta => .done (fun facts => .run ?_) (by grind)
    exact ⟨holds_place facts.1.2, facts.2.holds⟩
  · exact .bind (.degrade _) fun _ => lowers_code (.comment _) _ _

theorem lowers_writeFile : LowersCode outcome phase (writeFile site) := by
  intro known owed
  refine .bind (.enabling ["storage_simple_write"] (by decide) (by decide)) fun _ =>
    .bind (lowers_filePath fits _ _) fun path => .bind (fits.shown "DATA" "" _ _) fun contents =>
      .done (fun facts => .run ?_) (by grind)
  exact ⟨⟨_, by simp [vocabulary], facts.1.1.2⟩, facts.1.2.holds, facts.2.holds, trivial⟩

theorem lowers_createFile : LowersCode outcome phase (createFile site) := by
  intro known owed
  refine .bind (.enabling ["storage_simple_create"] (by decide) (by decide)) fun _ =>
    .bind (lowers_filePath fits _ _) fun path => .done (fun facts => .run ?_) (by grind)
  exact ⟨⟨_, by simp [vocabulary], facts.1.2⟩, facts.2.holds, trivial⟩

theorem lowers_deleteFile : LowersCode outcome phase (deleteFile site) := by
  intro known owed
  refine .bind (.enabling ["storage_simple_delete"] (by decide) (by decide)) fun _ =>
    .bind (lowers_filePath fits _ _) fun path => .done (fun facts => .run ?_) (by grind)
  exact ⟨⟨_, by simp [vocabulary], facts.1.2⟩, facts.2.holds, trivial⟩

end FlipperBlocks.Lowering
