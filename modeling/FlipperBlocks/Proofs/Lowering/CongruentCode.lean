import FlipperBlocks.Proofs.Lowering.CongruentValues

/-! Blocks as statements, under a relation that is handed on, and so all blocks. -/
namespace FlipperBlocks

open C (Code Expr Line)
open C.Identifier (isIdentifier)
open Lowering

variable {rules : Rules} {head : BlockHead} {R : CodeConcord rules head} {phase : Phase} {draft : Draft}

structure CodeCounterparts (R : CodeConcord rules head) extends Counterparts R.toConcord where
  written : ∀ name ∈ head.symbolNames, rules.isSymbol name
  statements {phase known} {input : String} : head.kind.takesStatements input = true →
    R.holds phase known (Fact.code phase) (Site.statements ⟨head, values, bodies⟩ input)
      (Site.statements ⟨{ head with id := id }, values', bodies'⟩ input)
  hasInput (name : String) : Site.hasInput ⟨head, values, bodies⟩ name =
    Site.hasInput ⟨{ head with id := id }, values', bodies'⟩ name
  size : values.length + bodies.length = values'.length + bodies'.length

/-! Pieces of code that meet what is asked. -/

namespace Rules

@[simp] private theorem meets_pin (pin : Pin) : pin.symbol.Meets (rules.code phase draft) :=
  (rules.meets_symbol pin).allowed

@[simp] private theorem use_channel (output : PwmOutput) :
    (rules.code phase draft).use (.read output.channel) := by
  cases output <;> exact code_use_read (by decide)

private theorem meets_setup (setup : PinSetup) : (Code.line setup.line).Meets (rules.code phase draft) := by
  have mode : (rules.code phase draft).use (.read setup.mode.symbol) := by
    cases setup.mode <;> exact code_use_read (by decide)
  have pull : (rules.code phase draft).use (.read setup.pull.symbol) := by
    cases setup.pull <;> exact code_use_read (by decide)
  simp +decide [PinSetup.line, mode, pull]

variable {function : String} {arguments : List Expr} {storage : Storage} {output : PwmOutput}
  {transfer : Transfer}

@[simp] private theorem meets_element (plain : C.unreadArgument? function = none) :
    (element function arguments).Meets (rules.code phase draft) ↔
      ∀ e ∈ arguments, e.Meets (rules.code phase draft) := by
  simp +decide [element, plain]

private theorem meets_formatArguments (lead : String) {value : Value}
    (meets : value.expr.Meets (rules.code phase draft)) :
    ∀ e ∈ formatArguments lead value, e.Meets (rules.code phase draft) := by
  unfold formatArguments
  split <;> simp_all

private theorem unreadArgument?_logFunction (level : Option String) :
    C.unreadArgument? (logFunction level) = none := by
  unfold logFunction
  split <;> decide

private theorem meets_place (isVariable : rules.isVariable storage.name) :
    storage.place.Meets (rules.code phase draft) := by
  have allowed : (rules.code phase draft).use (.read storage.name) := .inl (rules.reads (.inr isVariable))
  unfold Storage.place
  split <;> simpa using allowed

private theorem meets_copyText {text : Expr} (isVariable : rules.isVariable storage.name)
    (meets : text.Meets (rules.code phase draft)) :
    (copyText storage text).Meets (rules.code phase draft) := by
  have place := @meets_place _ phase draft _ isVariable
  -- The size is that of the text which is filled, so that it need not be an array of bytes.
  have last : (Expr.binary .subtract storage.place.sizeOf (.number "1")).Uses
      (C.Use.Besides (some storage.name) (rules.code phase draft).use) := by
    simp [storage.storage?_place]
  have atoms : storage.place.sizeOf.Holds fun _ => True := ⟨trivial, place.atoms, trivial⟩
  have into : (Expr.call "strncpy" [storage.place, text, .binary .subtract storage.place.sizeOf
      (.number "1")]).destination? = some storage.name := storage.storage?_place
  have copied : (Expr.call "strncpy" [storage.place, text, .binary .subtract storage.place.sizeOf
      (.number "1")]).Meets (rules.code phase draft) := by
    refine ⟨⟨trivial, place.atoms, meets.atoms, ⟨atoms, trivial⟩, trivial⟩, (Expr.uses_call_into rfl into).2
      ⟨.inl (rules.fills isVariable (@fetchesBlock_eq_false _ 's' (by simp [Expr.code]) (by decide))), ?_⟩, ?_⟩
    · simpa using ⟨meets.uses.imp fun _ => .inl, by simpa using last⟩
    · intro clear
      simpa using ⟨place.clear clear, meets.clear clear, place.clear clear⟩
  have ended : (Expr.assign .set (.index storage.name (.binary .subtract storage.place.sizeOf (.number "1")))
      .nul).Meets (rules.code phase draft) := by
    refine Expr.meets_assign_set.2 ⟨⟨⟨trivial, atoms, trivial⟩, Expr.uses_place_index.2 last, ?_⟩, nofun, Expr.meets_nul⟩
    exact fun clear => by simpa using place.clear clear
  simpa [copyText] using ⟨copied, ended⟩

private theorem meets_driveOutput {frequency duty : Expr} {state : Expr × Expr}
    (first : frequency.Meets (rules.code phase draft)) (second : duty.Meets (rules.code phase draft))
    (third : state.1.Meets (rules.code phase draft)) (fourth : state.2.Meets (rules.code phase draft)) :
    (driveOutput output frequency duty state).Meets (rules.code phase draft) := by
  simp +decide [driveOutput, clampLocal, isRunning, channel, byteOf, Expr.meets_assign_set, Expr.destination?,
    first, second, third.place, fourth.place]

private theorem meets_turnServo {angle : Expr} (meets : angle.Meets (rules.code phase draft)) :
    (turnServo output angle).Meets (rules.code phase draft) := by
  cases output <;>
    simp +decide [turnServo, moveServo, servoFrequency, clampLocal, isRunning, channel, byteOf,
      Expr.meets_assign_set, Expr.destination?, meets]

private theorem meets_transfer (plain : C.unreadArgument? function = none)
    (given : transfer.address.Meets (rules.value phase draft) ∧ transfer.timeout.Meets (rules.value phase draft)) :
    (transfer.call function arguments).Meets (rules.code phase draft) ↔
      ∀ e ∈ arguments, e.Meets (rules.code phase draft) := by
  rw [Transfer.call, Expr.meets_call plain, List.forall_mem_append, List.forall_mem_append]
  simp [Transfer.device, Transfer.busNumber, Transfer.patience, given.1.allowed, given.2.allowed]

private theorem meets_byteArgument {e : Expr} :
    (byteArgument e).Meets (rules.code phase draft) ↔ e.Meets (rules.code phase draft) := by
  simp [byteArgument]

private theorem meets_replaceBits {register mask value : Expr}
    (given : transfer.address.Meets (rules.value phase draft) ∧ transfer.timeout.Meets (rules.value phase draft))
    (first : register.Meets (rules.code phase draft)) (second : mask.Meets (rules.code phase draft))
    (third : value.Meets (rules.code phase draft)) :
    (replaceBits transfer register mask value).Meets (rules.code phase draft) := by
  have parts (arguments : List Expr) (meets : ∀ e ∈ arguments, e.Meets (rules.code phase draft)) :
      ∀ e ∈ transfer.device ++ arguments ++ [transfer.patience], e.Meets (rules.code phase draft) := by
    rw [List.forall_mem_append, List.forall_mem_append]
    simpa [Transfer.device, Transfer.busNumber, Transfer.patience, given.1.allowed, given.2.allowed] using meets
  have all := parts [byteArgument register, .unary .address (.name "_tmp")] (by simp +decide [meets_byteArgument, first])
  have read : (transfer.call "kb_i2c_read_reg8" [byteArgument register, .unary .address (.name "_tmp")]).Meets
      (rules.code phase draft) :=
    (Expr.meets_call_at rfl).2 ⟨trivial, fun e member => ⟨(all e member).atoms, (all e member).clear⟩,
      fun _ found => absurd found (Option.some_ne_none _).symm,
      fun e member => (all e (List.mem_of_mem_eraseIdx member)).uses.imp fun _ => .inl⟩
  have write : (transfer.call "kb_i2c_write_reg8" [byteArgument register, .name "_tmp"]).Meets
      (rules.code phase draft) :=
    (meets_transfer (by decide) given).2 (by simp +decide [meets_byteArgument, first])
  have none (place e : Expr) : (Expr.assign .set place (byteArgument e)).destination? = none := rfl
  simp +decide [replaceBits, read, write, meets_byteArgument, Expr.meets_assign_set, none, second, third]

end Rules

open Rules

namespace CodeCounterparts

variable (pair : CodeCounterparts R) {known : Fact rules}

abbrev Writes (phase : Phase) (known : Fact rules) (handler : Site → Lowering Code) : Prop :=
  R.holds phase known (Fact.code phase) (handler pair.first) (handler pair.second)

include pair in
private theorem use_symbol {field default : String} (named : field ∈ symbolFields)
    (other : default.toList.take 2 ∉ slotStarts) :
    (rules.code phase draft).use (.read (C.Identifier.symbolOr (head.field? field) default)) := by
  unfold C.Identifier.symbolOr
  split
  · rename_i text found
    split
    · obtain ⟨held, there, rfl⟩ := Option.map_eq_some_iff.1 (Option.filter_eq_some_iff.1 found).1
      refine .inr ⟨_, pair.written _ (List.mem_map.2 ⟨_, List.mem_filter.2 ⟨Entries.mem_of_get? there, ?_⟩, rfl⟩), rfl⟩
      exact decide_eq_true named
    · exact code_use_read other
  · exact code_use_read other

/-! Sections, branches, loops and timers. -/

theorem fillSections (kind : head.kind = .app) {parts : List (String × Phase)}
    (inputs : ∀ part ∈ parts, BlockKind.takesStatements .app part.1 = true) :
    R.holds phase known (fun _ => .of True) (Lowering.fillSections pair.first parts)
      (Lowering.fillSections pair.second parts) := by
  induction parts with
  | nil => exact R.pure fun _ _ => trivial
  | cons part rest ih =>
    have takes : head.kind.takesStatements part.1 = true := by
      rw [kind]
      exact inputs part List.mem_cons_self
    have filled : R.holds phase known (fun _ => .of True) (fillSection pair.first part)
        (fillSection pair.second part) :=
      R.bind (R.inPhase (pair.statements takes)) fun _ => R.append kind fun _ => And.right
    exact R.next filled fun _ => ih fun other member => inputs other (List.mem_cons_of_mem _ member)

theorem application (kind : head.kind = .app) : pair.Writes phase known Lowering.application :=
  R.next (pair.fillSections kind (by decide)) fun _ => R.pure fun _ _ => Code.meets_nil

theorem notify : pair.Writes phase known Lowering.notify :=
  R.next (R.enable _) fun _ => R.pure fun draft _ => by simp +decide [pair.use_symbol]

theorem sleep : pair.Writes phase known Lowering.sleep :=
  R.bind (pair.numeric rfl (by decide)) fun _ => R.pure fun draft facts => by simp +decide [facts.2.allowed]

theorem onKey (kind : head.kind = .onKey) : pair.Writes phase known Lowering.onKey := by
  refine R.next R.currentPhase fun current => ?_
  split
  · refine R.bind (pair.statements (by rw [kind]; rfl)) fun body => R.pure fun draft facts => ?_
    simpa +decide [pair.use_symbol, Expr.meets_assign_set, Expr.destination?] using facts.2
  · exact R.bind (R.degrade rfl (.inr rfl)) fun _ => R.pure fun _ facts =>
      Code.meets_comment facts.2 (Line.composed_comment (by decide))

theorem timer (kind : head.kind = .timer) : pair.Writes phase known Lowering.timer :=
  R.bind (R.inPhase (pair.statements (by rw [kind]; rfl))) fun _ => R.next (R.enable _) fun _ =>
    R.next (R.addTimer fun _ => And.right) fun _ => R.pure fun _ _ => Code.meets_nil

theorem branchCount : Lowering.branchCount pair.first = Lowering.branchCount pair.second := by
  have ends (fuel number : Nat) :
      branchEnd pair.first fuel number = branchEnd pair.second fuel number := by
    induction fuel generalizing number with
    | zero => rfl
    | succ fuel ih =>
      unfold branchEnd hasBranch
      rw [pair.hasInput, pair.hasInput, ih]
  unfold Lowering.branchCount
  rw [ends]
  dsimp only
  rw [pair.size]

theorem branches (kind : head.kind = .conditional) (numbers : List Nat) :
    pair.Writes phase known fun site => Lowering.branches site numbers := by
  induction numbers generalizing known with
  | nil => exact R.pure fun _ _ => Code.meets_nil
  | cons number rest ih =>
    have takes : head.kind.takesStatements ("DO" ++ toString number) = true := by
      rw [kind]
      exact BlockKind.takesStatements_body number
    have branch : pair.Writes phase known fun site => Lowering.branch site number := by
      refine R.bind (pair.truth false (namesValue_test number)) fun test =>
        R.bind (pair.statements takes) fun body => R.pure fun draft facts => ?_
      dsimp only
      split <;> simpa using ⟨facts.1.2.allowed, facts.2⟩
    exact R.bind branch fun _ => R.bind ih fun _ => R.pure fun draft facts =>
      Code.meets_append.2 ⟨facts.1.2, facts.2⟩

theorem conditional (kind : head.kind = .conditional) : pair.Writes phase known Lowering.conditional := by
  unfold Writes Lowering.conditional
  rw [pair.branchCount]
  refine R.bind (pair.branches kind _) fun code =>
    R.bind (pair.statements (by rw [kind]; rfl)) fun otherwise => R.pure fun draft facts => ?_
  dsimp only
  split
  · simpa using facts.1.2
  · simpa using ⟨facts.1.2, facts.2⟩

theorem repeated (kind : head.kind = .repeated) : pair.Writes phase known Lowering.repeated :=
  R.bind (pair.numeric rfl (by decide)) fun _ => R.next (R.count "i") fun _ =>
    R.bind (pair.statements (by rw [kind]; rfl)) fun _ => R.pure fun draft facts => by
      simpa using ⟨facts.1.2.allowed, facts.2⟩

theorem whileUntil (kind : head.kind = .whileUntil) : pair.Writes phase known Lowering.whileUntil := by
  refine R.bind (pair.truth false rfl) fun test =>
    R.bind (pair.statements (by rw [kind]; rfl)) fun body => R.pure fun draft facts => ?_
  dsimp only
  split <;> simpa using ⟨facts.1.2.allowed, facts.2⟩

/-! The screen, files and messages. -/

theorem measure {input default : String} (names : namesValue input = true)
    (numeral : C.isNumeral default.toList = true) :
    R.holds phase known (Fact.expr phase) (Lowering.measure pair.first input default)
      (Lowering.measure pair.second input default) :=
  R.bind (pair.number names numeral) fun _ => R.pure fun _ facts => facts.2.expr

section

variable {x y : Expr}
  (spot : ∀ draft, known.holds draft → x.Meets (rules.value phase draft) ∧ y.Meets (rules.value phase draft))

include spot

theorem drawText : pair.Writes phase known fun site => Lowering.drawText site x y := by
  refine R.bind (pair.shown "Hello" rfl) fun text => R.pure fun draft facts => ?_
  obtain ⟨left, top⟩ := spot draft facts.1
  simp +decide [left.allowed, top.allowed, facts.2.allowed]

theorem drawAlignedText : pair.Writes phase known fun site => Lowering.drawAlignedText site x y := by
  refine R.bind (pair.shown "" rfl) fun text => R.pure fun draft facts => ?_
  obtain ⟨left, top⟩ := spot draft facts.1
  simp +decide [alignment, pair.use_symbol, left.allowed, top.allowed, facts.2.allowed]

theorem drawRectangle (rounded filled : Bool) :
    pair.Writes phase known fun site => Lowering.drawRectangle site rounded filled x y := by
  refine R.bind (pair.measure rfl (by decide)) fun width => R.bind (pair.measure rfl (by decide)) fun height => ?_
  cases rounded with
  | false =>
    refine R.pure fun draft facts => ?_
    obtain ⟨left, top⟩ := spot draft facts.1.1
    simp +decide [left.allowed, top.allowed, facts.1.2.allowed, facts.2.allowed]
  | true =>
    refine R.bind (pair.measure rfl (by decide)) fun radius => R.pure fun draft facts => ?_
    obtain ⟨left, top⟩ := spot draft facts.1.1.1
    simp +decide [left.allowed, top.allowed, facts.1.1.2.allowed, facts.1.2.allowed, facts.2.allowed]

theorem drawCircle (filled : Bool) :
    pair.Writes phase known fun site => Lowering.drawCircle site filled x y := by
  refine R.bind (pair.measure rfl (by decide)) fun radius => R.pure fun draft facts => ?_
  obtain ⟨left, top⟩ := spot draft facts.1
  simp +decide [left.allowed, top.allowed, facts.2.allowed]

theorem textBox : pair.Writes phase known fun site => Lowering.textBox site x y := by
  refine R.bind (pair.measure rfl (by decide)) fun width => R.bind (pair.measure rfl (by decide)) fun height =>
    R.bind (pair.shown "" rfl) fun text => R.pure fun draft facts => ?_
  obtain ⟨left, top⟩ := spot draft facts.1.1.1
  simp +decide [alignment, pair.use_symbol, left.allowed, top.allowed, facts.1.1.2.allowed, facts.1.2.allowed,
    facts.2.allowed]

theorem scrollingText : pair.Writes phase known fun site => Lowering.scrollingText site x y := by
  refine R.bind (pair.measure rfl (by decide)) fun width => R.bind (pair.measure rfl (by decide)) fun height =>
    R.bind (pair.shown "" rfl) fun text => R.pure fun draft facts => ?_
  obtain ⟨left, top⟩ := spot draft facts.1.1.1
  simp +decide [left.allowed, top.allowed, facts.1.1.2.allowed, facts.1.2.allowed, facts.2.allowed]

end

theorem drawLine : pair.Writes phase known Lowering.drawLine := by
  refine R.bind (pair.measure rfl (by decide)) fun x₁ => R.bind (pair.measure rfl (by decide)) fun y₁ =>
    R.bind (pair.measure rfl (by decide)) fun x₂ => R.bind (pair.measure rfl (by decide)) fun y₂ =>
      R.pure fun draft facts => ?_
  simp +decide [facts.1.1.1.2.allowed, facts.1.1.2.allowed, facts.1.2.allowed, facts.2.allowed]

theorem drawing : pair.Writes phase known Lowering.drawing := by
  refine R.bind (pair.measure rfl (by decide)) fun x => R.bind (pair.measure rfl (by decide)) fun y => ?_
  have spot (draft : Draft) (facts : ((known.and (.expr phase x)).and (.expr phase y)).holds draft) :
      x.Meets (rules.value phase draft) ∧ y.Meets (rules.value phase draft) := ⟨facts.1.2, facts.2⟩
  dsimp only [Site.kind]
  split
  · exact pair.drawText spot
  · exact pair.drawAlignedText spot
  iterate 4 · exact pair.drawRectangle spot _ _
  · exact pair.drawLine
  iterate 2 · exact pair.drawCircle spot _
  · exact R.pure fun draft facts => by simp +decide [drawDot, facts.1.2.allowed, facts.2.allowed]
  · exact pair.textBox spot
  · exact pair.scrollingText spot

theorem button (kind : head.kind = .button) : pair.Writes phase known Lowering.button := by
  refine R.bind (pair.shown "Btn" rfl) fun label =>
    R.bind (R.inPhase (pair.statements (by rw [kind]; rfl))) fun body => ?_
  split
  · exact R.pure fun draft facts => by simp +decide [pair.use_symbol, facts.1.2.allowed]
  · exact R.next (R.addButton fun _ => And.right) fun _ => R.pure fun draft facts => by
      simp +decide [pair.use_symbol, facts.1.2.allowed]

theorem writeFile : pair.Writes phase known Lowering.writeFile :=
  R.next (R.enable _) fun _ => R.bind pair.filePath fun _ => R.bind (pair.shown "" rfl) fun _ =>
    R.pure fun draft facts => by simp +decide [facts.1.2.allowed, facts.2.allowed]

theorem createFile : pair.Writes phase known Lowering.createFile :=
  R.next (R.enable _) fun _ => R.bind pair.filePath fun _ =>
    R.pure fun draft facts => by simp +decide [facts.2.allowed]

theorem deleteFile : pair.Writes phase known Lowering.deleteFile :=
  R.next (R.enable _) fun _ => R.bind pair.filePath fun _ =>
    R.pure fun draft facts => by simp +decide [facts.2.allowed]

theorem log : pair.Writes phase known Lowering.log := by
  refine R.bind (pair.shown "APP" rfl) fun tag => R.bind (pair.text "" rfl) fun message =>
    R.pure fun draft facts => Code.meets_run.2 ((Expr.meets_call (unreadArgument?_logFunction _)).2 ⟨trivial, ?_⟩)
  exact List.forall_mem_cons.2 ⟨facts.1.2.allowed, meets_formatArguments "" facts.2.allowed⟩

theorem print : pair.Writes phase known Lowering.print := by
  refine R.bind (pair.text "" rfl) fun value =>
    R.pure fun draft facts => Code.meets_run.2 ((Expr.meets_call (by decide)).2 ⟨trivial, ?_⟩)
  exact List.forall_mem_cons.2 ⟨Expr.meets_quoted _, meets_formatArguments _ facts.2.allowed⟩

/-! Variables. -/

private theorem store {storage : Storage} {value : Value}
    (given : ∀ draft, known.holds draft → rules.isVariable storage.name ∧ isIdentifier storage.name = true)
    (meets : ∀ draft, known.holds draft → value.Meets (rules.value phase draft)) :
    R.holds phase known (Fact.code phase) (Lowering.store storage value) (Lowering.store storage value) := by
  unfold Lowering.store
  split
  · split
    · exact R.pure fun draft facts => meets_copyText (given draft facts).1 (meets draft facts).allowed
    · refine R.pure fun draft facts => Code.meets_run.2 ?_
      have shown := (meets draft facts).allowed
      refine (Expr.meets_call_at rfl).2 ⟨trivial, ?_, fun name found => .inl (rules.fills ?_ ?_), ?_⟩
      · simpa [Expr.Holds, Expr.sizeOf, Expr.HoldAll, Expr.castGroup] using ⟨shown.atoms, shown.clear⟩
      · exact Option.some.inj found ▸ (given draft facts).1
      · exact @fetchesBlock_eq_false _ 's' (by simp [Expr.code]) (by decide)
      · have into : (printInto storage.name "%d" "int" value.expr).destination? = some storage.name := rfl
        rw [← printInto, into]
        simpa [Expr.storage?] using shown.uses.imp fun _ => .inl
  · refine R.bind (R.toNumber meets) fun number => R.pure fun draft facts => Code.meets_run.2 ?_
    obtain ⟨isVariable, named⟩ := given draft facts.1
    refine Expr.meets_assign_set.2 ⟨(meets_place isVariable).place, fun name found => ?_, facts.2.allowed⟩
    refine .inl (rules.fills ?_ (fetchesBlock_assign named _))
    rw [← Option.some.inj (storage.storage?_place.symm.trans (Expr.storage?_of_assign found))]
    exact isVariable

theorem setVariable (kind : head.kind = .setVariable) : pair.Writes phase known Lowering.setVariable := by
  refine R.bind (pair.scalar? rfl fun _ => .number (by decide)) fun found => ?_
  cases found with
  | none =>
    exact R.bind (R.degrade rfl (.inl rfl)) fun _ => R.pure fun _ facts =>
      Code.meets_comment facts.2 (Line.composed_naming (C.Identifier.isIdentifier_sanitize _))
  | some value =>
    exact R.bind (pair.resolve (by simp [kind]) _) fun storage => store (fun _ facts => facts.2.1) fun _ facts => facts.1.2

theorem changeVariable (kind : head.kind = .changeVariable) :
    pair.Writes phase known Lowering.changeVariable := by
  refine R.bind (pair.resolve (by simp [kind]) false) fun storage => ?_
  split
  · refine R.bind (pair.numeric rfl (by decide)) fun delta => R.pure fun draft facts => ?_
    simpa using ⟨meets_place facts.1.2.1.1, facts.2.allowed⟩
  · exact R.bind (R.degrade rfl (.inl rfl)) fun _ => R.pure fun _ facts =>
      Code.meets_comment facts.2 (Line.composed_naming facts.1.2.1.2)

/-! Pins and outputs. -/

theorem setupPin : pair.Writes phase known Lowering.setupPin :=
  R.next (R.enable _) fun _ => R.next (R.usePin _ _) fun _ => R.pure fun _ _ => meets_setup _

theorem writePin : pair.Writes phase known Lowering.writePin :=
  R.next (R.enable _) fun _ => R.pure fun draft _ => by simp +decide

theorem startPwm (label : String) : pair.Writes phase known (Lowering.startPwm label) := by
  refine R.bind (pair.pwmOutput? _) fun output => ?_
  cases output with
  | none => exact R.pure fun _ facts => Code.meets_comment facts.2 (Line.composed_comment (by decide))
  | some output =>
    exact R.bind (pair.numeric rfl (by decide)) fun _ => R.bind (pair.numeric rfl (by decide)) fun _ =>
      R.next (R.enable _) fun _ => R.next (R.usePwm output) fun _ =>
        R.bind (Counterparts.pwmState output) fun _ => R.pure fun _ facts =>
          meets_driveOutput facts.1.1.2.allowed facts.1.2.allowed facts.2.1.allowed facts.2.2.allowed

theorem haltOutput (output : PwmOutput) : pair.Writes phase known fun _ => Lowering.haltOutput output :=
  R.next (R.enable _) fun _ => R.pure fun draft _ => by simp +decide [isRunning, stopOutput, channel]

theorem stopPwm : pair.Writes phase known Lowering.stopPwm := by
  refine R.bind (pair.pwmOutput? _) fun output => ?_
  cases output with
  | none => exact R.pure fun _ facts => Code.meets_comment facts.2 (Line.composed_comment (by decide))
  | some output => exact pair.haltOutput output

theorem unlockServo : pair.Writes phase known Lowering.unlockServo := by
  refine R.bind (pair.pwmOutput? _) fun output => ?_
  cases output with
  | none => exact R.pure fun _ facts => Code.meets_comment facts.2 (Line.composed_comment (by decide))
  | some output => exact pair.haltOutput output

theorem servo : pair.Writes phase known Lowering.servo := by
  refine R.bind (pair.pwmOutput? _) fun output => ?_
  cases output with
  | none => exact R.pure fun _ facts => Code.meets_comment facts.2 (Line.composed_comment (by decide))
  | some output =>
    exact R.bind (pair.numeric rfl (by decide)) fun _ => R.next (R.enable _) fun _ =>
      R.next (R.usePwm output) fun _ => R.next (R.enable _) fun _ =>
        R.pure fun _ facts => meets_turnServo facts.2.allowed

/-! Devices. -/

theorem writeRegister (width : RegisterWidth) : pair.Writes phase known (Lowering.writeRegister width) := by
  have plain : C.unreadArgument? width.writer = none := by cases width <;> decide
  refine R.bind pair.transfer fun _ => R.bind (pair.numeric rfl (by decide)) fun _ =>
    R.bind (pair.numeric rfl (by decide)) fun _ => R.next (R.enable _) fun _ => R.pure fun draft facts => ?_
  simp [meets_transfer plain facts.1.1.2, byteArgument, facts.1.2.allowed, facts.2.allowed]

theorem writeBytes : pair.Writes phase known Lowering.writeBytes := by
  refine R.bind (pair.streamIn? rfl) fun found => ?_
  cases found with
  | none => exact R.pure fun _ facts => Code.meets_comment facts.2 fun last => absurd last (by decide)
  | some stream =>
    refine R.bind pair.transfer fun _ => R.bind (pair.numeric rfl (by decide)) fun _ =>
      R.next (R.enable _) fun _ => R.pure fun draft facts => ?_
    obtain ⟨named, size⟩ := facts.1.1.2.array
    have array := (Expr.meets_name.1 named.allowed).2
    have sized : (rules.code phase draft).use (.size stream.array) := .inl size
    simpa +decide [meets_transfer _ facts.1.2, byteArgument, array, sized, facts.2.allowed] using
      fun read member => (facts.1.1.2.read read member).allowed

theorem updateBits : pair.Writes phase known Lowering.updateBits :=
  R.bind pair.transfer fun _ => R.bind (pair.numeric rfl (by decide)) fun _ =>
    R.bind (pair.numeric rfl (by decide)) fun _ => R.bind (pair.numeric rfl (by decide)) fun _ =>
      R.next (R.enable _) fun _ => R.pure fun _ facts =>
        meets_replaceBits facts.1.1.1.2 facts.1.1.2.allowed facts.1.2.allowed facts.2.allowed

/-! All statements. -/

theorem addManifest : pair.Writes phase known Lowering.addManifest :=
  R.next (R.addManifest _) fun _ => R.pure fun _ _ => Code.meets_nil

theorem asStatement : pair.Writes phase known Site.asStatement := by
  unfold Writes Site.asStatement
  dsimp only [Site.kind]
  split
  · exact pair.application ‹_›
  · exact pair.addManifest
  iterate 5 · exact R.pure fun _ _ => Code.meets_nil
  iterate 12 · exact pair.drawing
  · exact pair.button ‹_›
  · exact pair.onKey ‹_›
  · exact R.pure fun draft _ => by simp +decide [redraw]
  · exact pair.notify
  · exact pair.sleep
  · exact pair.log
  · exact pair.print
  · exact pair.timer ‹_›
  · exact pair.conditional ‹_›
  · exact pair.repeated ‹_›
  · exact pair.whileUntil ‹_›
  · exact pair.setVariable ‹_›
  · exact pair.changeVariable ‹_›
  · exact pair.writeFile
  · exact pair.createFile
  · exact pair.deleteFile
  · exact pair.setupPin
  · exact pair.writePin
  iterate 2 · exact pair.startPwm _
  · exact pair.stopPwm
  · exact pair.servo
  · exact pair.unlockServo
  iterate 2 · exact pair.writeRegister _
  · exact pair.writeBytes
  · exact pair.updateBits
  · rename_i kind
    exact R.bind (R.degrade rfl (.inr (by rw [kind]; rfl))) fun _ =>
      R.pure fun _ facts => Code.meets_placeholder facts.2 _
  · exact R.bind (R.degrade rfl (.inr rfl)) fun _ => R.pure fun _ facts =>
      Code.meets_comment facts.2 (Line.composed_comment (by decide))

end CodeCounterparts

end FlipperBlocks
