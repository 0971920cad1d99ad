import FlipperBlocks.Proofs.Lowering.EnteredValues

/-! Blocks that stand for statements keep every ledger.

Most code is plain. The lines that are not come from the blocks for outputs, pins, buttons and loops, and each
of these blocks puts on record what its line is about. -/
namespace FlipperBlocks

open C (Code Expr Granted Harmless Line PlainType)
open Lowering

variable {names : List String} {known : Site → Prop} {ledger : Ledger names known} {phase : Phase}
  {loose : Multiset Line}

def Ledger.KeepsLines (ledger : Ledger names known) (action : Lowering Code) : Prop :=
  ∀ phase loose, ledger.Keeps phase loose action (Code.Plain names phase) fun _ => loose

theorem Ledger.KeepsLines.code {action : Lowering Code} (keeps : ledger.KeepsLines action) :
    ledger.KeepsCode action := by
  intro phase loose c inPhase reached holds
  obtain ⟨leads, kept, plain⟩ := keeps phase loose c inPhase reached holds
  refine ⟨leads, ?_, plain.orderly⟩
  dsimp only at kept ⊢
  rw [add_assoc]
  exact ledger.plains plain kept

/-- Code is put together from plain lines and from orderly ones that were loose before. -/
theorem Ledger.Keeps.assemble {code : Code} {before : Multiset Line} (more taken : Multiset Line)
    (plain : ∀ line ∈ more, line.Plain names phase)
    (orderly : ∀ line ∈ taken, line.Orderly phase.objects) (split : code.lines = more + taken)
    (given : before = taken + loose) :
    ledger.Keeps phase before (return code) (fun code => code.Orderly phase.objects)
      fun code => code.lines + loose := by
  refine .pure more (Code.orderly_iff.2 fun line member => ?_) plain ?_
  · rw [split, Multiset.mem_add] at member
    exact member.elim (fun new => .inr (plain line new).ordinary) (orderly line)
  · rw [split, given, add_assoc]

namespace Ledger.KeepsCode

theorem nil : ledger.KeepsCode (return []) := KeepsLines.code fun _ _ => .returns (by simp)

theorem append {first rest : Lowering Code} (here : ledger.KeepsCode first) (later : ledger.KeepsCode rest) :
    ledger.KeepsCode (do let code ← first; return code ++ (← rest)) := by
  intro phase loose
  refine .bind (here _ _) fun code orderly => .bind (later _ _) fun more orderlyToo => ?_
  refine .assemble 0 (code ++ more).lines (by simp)
    (Code.orderly_iff.1 (Code.orderly_append.2 ⟨orderly, orderlyToo⟩)) (zero_add _).symm ?_
  rw [Code.lines_append]
  abel

theorem braced {body inner : Code} {opening : Line} (more : Multiset Line)
    (orderly : body.Orderly phase.objects) (first : opening.Plain names phase)
    (second : ∀ line ∈ more, line.Plain names phase) (same : inner.lines = body.lines + more) :
    ledger.Keeps phase (body.lines + loose) (return Code.braced opening inner)
      (fun code => code.Orderly phase.objects) fun code => code.lines + loose := by
  refine .assemble ({opening} + more + {.close}) body.lines ?_ (Code.orderly_iff.1 orderly) ?_ rfl
  · simpa [or_imp, forall_and] using ⟨first, second⟩
  · rw [Code.lines_braced, same]
    abel

end Ledger.KeepsCode

namespace Meaning

theorem entered_following {meanings : List Meaning} (entered : ∀ meaning ∈ meanings, meaning.Entered ledger) :
    ledger.KeepsCode (following meanings) := by
  induction meanings with
  | nil => exact .nil
  | cons next rest ih =>
    obtain ⟨here, later⟩ := List.forall_mem_cons.1 entered
    exact fun _ _ => .within (Ledger.KeepsCode.append here.statement (ih later) _ _) _

theorem entered_chain {meanings : List Meaning}
    (entered : ∀ meaning ∈ meanings, meaning.Entered ledger) : ledger.KeepsCode (chain meanings) := by
  cases meanings with
  | nil => exact .nil
  | cons first rest =>
    obtain ⟨here, later⟩ := List.forall_mem_cons.1 entered
    exact .append here.statement (entered_following later)

end Meaning

namespace Site.Entered

variable {site : Site}

/-! Statements without a body. -/

theorem plainCode {code : Code} (plain : ∀ phase, code.Plain names phase) : ledger.KeepsLines (return code) :=
  fun phase _ => .returns (plain phase)

theorem setupPin (pins : ledger.pins) (site : Site) : ledger.KeepsCode (Lowering.setupPin site) := by
  intro phase loose
  refine .bind (.enable _) fun _ _ => .bind (.usePin pins _) fun _ _ => ?_
  exact .assemble 0 {_} (by simp) (by simpa using .inl ⟨_, rfl⟩) (zero_add _).symm rfl

theorem writePin (site : Site) : ledger.KeepsLines (Lowering.writePin site) := fun _ _ =>
  .bind (.enable _) fun _ _ => .returns (by simp +decide)

theorem notify (site : Site) : ledger.KeepsLines (Lowering.notify site) := fun _ _ =>
  .bind (.enable _) fun _ _ => .returns (by simp [Line.plain_notification])

theorem degradedStatement {degradation : Degradation} {line : Line}
    (other : degradation.isPinConflict = false) (plain : ∀ phase, line.Plain names phase) :
    ledger.KeepsLines (Lowering.degradedStatement degradation line) := fun phase _ =>
  .bind (.degrade other) fun _ _ => .returns (Code.plain_line.2 (plain phase))

theorem plain_channel (output : PwmOutput) : (channel output).Plain names := by
  refine C.granted_of_free ?_
  cases output <;> decide

theorem haltOutput (output : PwmOutput) : ledger.KeepsLines (Lowering.haltOutput output) := fun _ _ =>
  .bind (.enable _) fun _ _ => .returns (by simp +decide [isRunning, stopOutput, plain_channel])

theorem stopPwm (site : Site) : ledger.KeepsLines (Lowering.stopPwm site) := by
  intro phase loose
  refine .bind (pwmOutput? site _) fun found _ => ?_
  cases found with
  | some output => exact haltOutput output _ _
  | none => exact .returns (by simp)

theorem unlockServo (site : Site) : ledger.KeepsLines (Lowering.unlockServo site) := by
  intro phase loose
  refine .bind (pwmOutput? site _) fun found _ => ?_
  cases found with
  | some output => exact haltOutput output _ _
  | none => exact .returns (by simp)

private theorem plain_formatArguments (lead : String) {value : Value} (plain : value.expr.Plain names) :
    ∀ e ∈ formatArguments lead value, e.Plain names := by
  unfold formatArguments
  split <;> simp +decide [plain]

private theorem harmless_logFunction (level : Option String) : Harmless (logFunction level) := by
  unfold logFunction
  split <;> decide

private theorem plain_replaceBits {transfer : Transfer} {register mask value : Expr}
    (given : transfer.address.Plain names ∧ transfer.timeout.Plain names)
    (first : register.Plain names) (second : mask.Plain names) (third : value.Plain names) :
    (replaceBits transfer register mask value).Plain names phase := by
  simp +decide [replaceBits, plain_transfer given, byteArgument, first, second, third]

private theorem store {storage : Storage} {value : Value} (listed : Granted names storage.name)
    (plain : value.Plain names) : ledger.Keeps phase loose (Lowering.store storage value)
      (Code.Plain names phase) fun _ => loose := by
  have place := storage.plain_place listed
  unfold Lowering.store
  split
  · split
    · exact .returns (by simp +decide [copyText, place, listed, plain.expr])
    · exact .returns (by simp +decide [printInto, listed, plain.expr])
  · exact .bind (.toNumber plain) fun _ number => .returns (by simp +decide [place, number.expr])

section

variable (entered : site.Entered ledger)

include entered

theorem sleep : ledger.KeepsLines (Lowering.sleep site) := fun _ _ =>
  .bind (entered.numeric "MS" (by decide) _ _) fun _ plain => .returns (by simp +decide [plain.expr])

theorem log : ledger.KeepsLines (Lowering.log site) := by
  intro phase loose
  refine .bind (entered.shown "TAG" "APP" _ _) fun tag first => .bind (entered.text "MSG" "" _ _)
    fun message second => .returns ?_
  refine Code.plain_run.2 (Line.plain_run ((Expr.plain_call _).2 ⟨harmless_logFunction _, ?_⟩))
  exact List.forall_mem_cons.2 ⟨first.expr, plain_formatArguments "" second.expr⟩

theorem print : ledger.KeepsLines (Lowering.print site) := by
  intro phase loose
  refine .bind (entered.text "TEXT" "" _ _) fun value plain => .returns ?_
  refine Code.plain_run.2 (Line.plain_run ((Expr.plain_call _).2 ⟨by decide, ?_⟩))
  exact List.forall_mem_cons.2 ⟨trivial, plain_formatArguments "Print: " plain.expr⟩

theorem setVariable (named : variableName site ∈ site.head.variableNames) :
    ledger.KeepsLines (Lowering.setVariable site) := by
  intro phase loose
  refine .bind (entered.scalar? "VALUE" (.number (by decide))) fun found given => ?_
  cases found with
  | some value => exact .bind (entered.resolve named _) fun _ listed => store listed (given value rfl)
  | none => exact .bind (.degrade rfl) fun _ _ => .returns (by simp)

theorem changeVariable (named : variableName site ∈ site.head.variableNames) :
    ledger.KeepsLines (Lowering.changeVariable site) := by
  intro phase loose
  refine .bind (entered.resolve named _) fun storage listed => ?_
  have place := storage.plain_place listed
  split
  · refine .bind (entered.numeric "DELTA" (by decide) _ _) fun _ plain => .returns ?_
    simp +decide [place, plain.expr]
  · exact .bind (.degrade rfl) fun _ _ => .returns (by simp)

theorem writeFile : ledger.KeepsLines (Lowering.writeFile site) := by
  intro phase loose
  refine .bind (.enable _) fun _ _ => .bind (entered.filePath _ _) fun path first =>
    .bind (entered.shown "DATA" "" _ _) fun contents second => .returns ?_
  simp +decide [first.expr, second.expr]

theorem createFile : ledger.KeepsLines (Lowering.createFile site) := fun _ _ =>
  .bind (.enable _) fun _ _ => .bind (entered.filePath _ _) fun _ plain =>
    .returns (by simp +decide [plain.expr])

theorem deleteFile : ledger.KeepsLines (Lowering.deleteFile site) := fun _ _ =>
  .bind (.enable _) fun _ _ => .bind (entered.filePath _ _) fun _ plain =>
    .returns (by simp +decide [plain.expr])

theorem writeRegister (width : RegisterWidth) : ledger.KeepsLines (Lowering.writeRegister width site) := by
  have known : Harmless width.writer ∧ PlainType width.typeName := by cases width <;> decide
  intro phase loose
  refine .bind entered.transfer fun transfer given => .bind (entered.numeric "REG" (by decide) _ _)
    fun register first => .bind (entered.numeric "VALUE" (by decide) _ _) fun value second =>
      .bind (.enable _) fun _ _ => .returns ?_
  simp +decide [plain_transfer given, byteArgument, first.expr, second.expr, known]

theorem writeBytes : ledger.KeepsLines (Lowering.writeBytes site) := by
  intro phase loose
  refine .bind (entered.streamIn? "DATA") fun found given => ?_
  cases found with
  | some stream =>
    obtain ⟨named, reads⟩ := given stream rfl
    refine .bind entered.transfer fun transfer given => .bind (entered.numeric "MEM" (by decide) _ _)
      fun memory plain => .bind (.enable _) fun _ _ => .returns (Code.plain_append.2 ⟨?_, ?_⟩)
    · simp only [Code.plain_ofLines, List.forall_mem_map, Option.mem_toList]
      exact fun read present => Line.plain_run (reads read present)
    · simp +decide [plain_transfer given, byteArgument, named, plain.expr]
  | none => exact .returns (by simp)

theorem updateBits : ledger.KeepsLines (Lowering.updateBits site) := fun _ _ =>
  .bind entered.transfer fun _ given => .bind (entered.numeric "REG" (by decide) _ _) fun _ first =>
    .bind (entered.numeric "MASK" (by decide) _ _) fun _ second =>
      .bind (entered.numeric "VALUE" (by decide) _ _) fun _ third => .bind (.enable _) fun _ _ =>
        .returns (plain_replaceBits given first.expr second.expr third.expr)

/-! Elements of the screen. -/

theorem measure (input : String) {default : String} (numeral : C.isNumeral default.toList = true) :
    ledger.Keeps phase loose (Lowering.measure site input default) (Expr.Plain names) fun _ => loose :=
  .bind (entered.number input numeral _ _) fun _ plain => .returns plain.expr

theorem drawLine : ledger.KeepsLines (Lowering.drawLine site) := by
  intro phase loose
  refine .bind (entered.measure "X1" (by decide)) fun x₁ first =>
    .bind (entered.measure "Y1" (by decide)) fun y₁ second =>
      .bind (entered.measure "X2" (by decide)) fun x₂ third =>
        .bind (entered.measure "Y2" (by decide)) fun y₂ fourth => .returns ?_
  simp +decide [element, first, second, third, fourth]

section

variable {x y : Expr} (first : x.Plain names) (second : y.Plain names)

include first second

theorem drawText : ledger.Keeps phase loose (Lowering.drawText site x y)
    (Code.Plain names phase) fun _ => loose :=
  .bind (entered.shown "TEXT" "Hello" _ _) fun _ third =>
    .returns (by simp +decide [element, first, second, third.expr])

theorem drawAlignedText : ledger.Keeps phase loose (Lowering.drawAlignedText site x y)
    (Code.Plain names phase) fun _ => loose := by
  refine .bind (entered.shown "TEXT" "" _ _) fun text third => .returns (Code.plain_run.2 ?_)
  exact @Line.plain_symbols names _ [.member "app" "widget", x, y] [] _ (.name "FontPrimary") text.expr
    [_, _] (by decide) (by simp +decide [first, second]) (by simp +decide [third.expr])

theorem drawRectangle (rounded filled : Bool) :
    ledger.Keeps phase loose (Lowering.drawRectangle site rounded filled x y)
      (Code.Plain names phase) fun _ => loose := by
  refine .bind (entered.measure "W" (by decide)) fun width third =>
    .bind (entered.measure "H" (by decide)) fun height fourth => ?_
  cases rounded with
  | false => exact .returns (by simp +decide [element, first, second, third, fourth])
  | true =>
    refine .bind (entered.measure "R" (by decide)) fun radius fifth => .returns ?_
    simp +decide [element, first, second, third, fourth, fifth]

theorem drawCircle (filled : Bool) : ledger.Keeps phase loose (Lowering.drawCircle site filled x y)
    (Code.Plain names phase) fun _ => loose :=
  .bind (entered.measure "R" (by decide)) fun _ third =>
    .returns (by simp +decide [element, first, second, third])

theorem textBox : ledger.Keeps phase loose (Lowering.textBox site x y)
    (Code.Plain names phase) fun _ => loose := by
  refine .bind (entered.measure "W" (by decide)) fun width third =>
    .bind (entered.measure "H" (by decide)) fun height fourth =>
      .bind (entered.shown "TEXT" "" _ _) fun text fifth => .returns (Code.plain_run.2 ?_)
  exact @Line.plain_symbols names _ [.member "app" "widget", x, y, width, height] [] _ text.expr
    (.truth _) [_, _] (by decide) (by simp +decide [first, second, third, fourth])
    (by simp [fifth.expr])

theorem scrollingText : ledger.Keeps phase loose (Lowering.scrollingText site x y)
    (Code.Plain names phase) fun _ => loose := by
  refine .bind (entered.measure "W" (by decide)) fun width third =>
    .bind (entered.measure "H" (by decide)) fun height fourth =>
      .bind (entered.shown "TEXT" "" _ _) fun text fifth => .returns ?_
  simp +decide [element, first, second, third, fourth, fifth.expr]

end

theorem drawing : ledger.KeepsLines (Lowering.drawing site) := by
  intro phase loose
  refine .bind (entered.measure "X" (by decide)) fun x first =>
    .bind (entered.measure "Y" (by decide)) fun y second => ?_
  split
  · exact entered.drawText first second
  · exact entered.drawAlignedText first second
  iterate 4 · exact entered.drawRectangle first second _ _
  · exact entered.drawLine _ _
  iterate 2 · exact entered.drawCircle first second _
  · exact .returns (by simp +decide [drawDot, element, first, second])
  · exact entered.textBox first second
  · exact entered.scrollingText first second

end

/-! Outputs. -/

/-- Of the lines that drive an output one starts it. -/
private theorem exists_lines_driveOutput (output : PwmOutput) {frequency duty : Expr}
    {state : Expr × Expr} (first : frequency.Plain names) (second : duty.Plain names)
    (third : state.1.Plain names ∧ state.2.Plain names) : ∃ more : Code, more.Plain names phase ∧
      (driveOutput output frequency duty state).lines =
        more.lines + {.starting output (.name "_f") (byteOf "_d")} := by
  let before : Code :=
    Code.ofLines
      [.run (.declare "uint32_t" "_f" (.castGroup "uint32_t" frequency)),
        clampLocal "_f" .equal "0" "1",
        .run (.declare "int" "_d" (.castGroup "int" duty)),
        clampLocal "_d" .less "0" "0",
        clampLocal "_d" .greater "100" "100",
        .openIf (isRunning output)] ++
    Code.run (.call "furi_hal_pwm_set_params" [channel output, .name "_f", byteOf "_d"]) ++
    Code.line .lastBranch
  let after : Code := Code.ofLines
    [.close,
      .run (.assign .set state.1 (.name "_f")),
      .run (.assign .set state.2 (byteOf "_d"))]
  refine ⟨Code.framed .openBlock (before ++ after), ?_, ?_⟩
  · simp +decide [before, after, clampLocal, isRunning, plain_channel, byteOf, first, second, third]
  · simp only [driveOutput, before, after, channel, Line.starting, Code.lines_framed, Code.lines_append,
      Code.lines_inset, Code.lines_run]
    abel

private theorem exists_lines_turnServo (output : PwmOutput) {angle : Expr}
    (plain : angle.Plain names) : ∃ more : Code, more.Plain names phase ∧ (turnServo output angle).lines =
        more.lines + {.starting output servoFrequency (.number "7")} := by
  let before : Code :=
    Code.ofLines
      [.run (.declare "int" "_angle" (.castGroup "int" angle)),
        clampLocal "_angle" .less "0" "0",
        clampLocal "_angle" .greater "180" "180"] ++
    Code.line (.openIf (.unary .not (isRunning output)))
  let after : Code := Code.line .close ++ moveServo output
  refine ⟨Code.framed .openBlock (before ++ after), ?_, ?_⟩
  · cases output <;>
      simp +decide [before, after, moveServo, servoFrequency, clampLocal, isRunning, plain_channel, byteOf,
        plain]
  · simp only [turnServo, before, after, channel, Line.starting, Code.lines_framed, Code.lines_append,
      Code.lines_line, Code.lines_run]
    abel

section

variable (entered : site.Entered ledger)

include entered

theorem startPwm (label : String) : ledger.KeepsCode (Lowering.startPwm label site) := by
  intro phase loose
  refine .bind (pwmOutput? site _) fun found _ => ?_
  cases found with
  | some output =>
    have parameters : (Expr.name "_f").Plain names ∧ (byteOf "_d").Plain names := by simp +decide [byteOf]
    refine .bind (entered.numeric "FREQ" (by decide) _ _) fun frequency first =>
      .bind (entered.numeric "DUTY" (by decide) _ _) fun duty second => .bind (.enable _) fun _ _ =>
        .bind (.usePwm output parameters.1 parameters.2) fun _ _ =>
          .bind (pwmState output) fun state third => ?_
    obtain ⟨more, plain, split⟩ := exists_lines_driveOutput output first.expr second.expr third
    exact .assemble more.lines {_} plain
      (by simpa using .inr (Line.ordinary_starting parameters.1 parameters.2 output _)) split rfl
  | none => exact Ledger.KeepsLines.code (plainCode fun _ => Code.plain_comment _) _ _

theorem servo : ledger.KeepsCode (Lowering.servo site) := by
  intro phase loose
  refine .bind (pwmOutput? site _) fun found _ => ?_
  cases found with
  | some output =>
    have parameters : servoFrequency.Plain names ∧ (Expr.number "7").Plain names := by
      simp +decide [servoFrequency]
    refine .bind (entered.numeric "ANGLE" (by decide) _ _) fun angle given => .bind (.enable _)
      fun _ _ => .bind (.usePwm output parameters.1 parameters.2) fun _ _ => .bind (.enable _) fun _ _ => ?_
    obtain ⟨more, plain, split⟩ := exists_lines_turnServo output given.expr
    exact .assemble more.lines {_} plain
      (by simpa using .inr (Line.ordinary_starting parameters.1 parameters.2 output _)) split rfl
  | none => exact Ledger.KeepsLines.code (plainCode fun _ => Code.plain_comment _) _ _

/-! Statements with a body. -/

theorem statements (input : String) : ledger.KeepsCode (site.statements input) := by
  intro phase loose
  unfold Site.statements
  split
  · rename_i first rest found
    exact .within (Meaning.entered_chain (entered.bodies input _ found) _ _) _
  · exact Ledger.KeepsCode.nil _ _

theorem fillSections {parts : List (String × Phase)} (listed : parts ⊆ sections) :
    ledger.Keeps phase loose (Lowering.fillSections site parts) (fun _ => True) fun _ => loose := by
  induction parts with
  | nil => exact .returns trivial
  | cons part rest ih =>
    obtain ⟨here, later⟩ := List.cons_subset.1 listed
    have filled : ledger.Keeps phase loose (fillSection site part) (fun _ => True) fun _ => loose := by
      refine .bind (.inPhase (entered.statements part.1 part.2 loose)) fun code orderly => ?_
      exact .append (List.mem_map_of_mem here) orderly
    exact .bind filled fun _ _ => ih later

theorem application : ledger.KeepsLines (Lowering.application site) := fun _ _ =>
  .bind (entered.fillSections (List.Subset.refl _)) fun _ _ => .returns Code.plain_nil

theorem timer : ledger.KeepsLines (Lowering.timer site) := by
  intro phase loose
  refine .bind (.inPhase (entered.statements "DO" .timer loose)) fun body orderly =>
    .bind (.enable _) fun _ _ => ?_
  exact .bind (.addTimer ⟨_, body⟩ orderly) fun _ _ => .returns Code.plain_nil

theorem onKey : ledger.KeepsCode (Lowering.onKey site) := by
  intro phase loose
  refine .bind .currentPhase fun current same => ?_
  subst same
  split
  · rename_i input
    subst input
    refine .bind (entered.statements "DO" _ _) fun body orderly => ?_
    exact Ledger.KeepsCode.braced {.run (.assign .set (.name "consumed") (.truth true))} orderly
      (Line.plain_keyTest _ _) (by simp +decide) (by simp)
  · exact Ledger.KeepsLines.code (fun _ _ => .bind (.degrade rfl) fun _ _ =>
      .returns (Code.plain_comment _)) _ _

theorem branch (number : Nat) : ledger.KeepsCode (Lowering.branch site number) := by
  intro phase loose
  refine .bind (entered.truth _ false _ _) fun test plain => .bind (entered.statements _ _ _)
    fun body orderly => ?_
  have opening : (if number = 0 then Line.openBranch test.expr else .nextBranch test.expr).Plain
      names phase := by
    split <;> simp +decide [plain.expr]
  refine .assemble {_} body.lines (by simpa using opening) (Code.orderly_iff.1 orderly) ?_ rfl
  rw [Code.lines_append, Code.lines_line, Code.lines_indent]

theorem branches : ∀ numbers : List Nat, ledger.KeepsCode (Lowering.branches site numbers)
  | [] => .nil
  | number :: rest => .append (entered.branch number) (branches rest)

theorem conditional : ledger.KeepsCode (Lowering.conditional site) := by
  intro phase loose
  refine .bind (entered.branches _ _ _) fun code orderly => .bind (entered.statements "ELSE" _ _)
    fun otherwise orderlyToo => ?_
  have both := Code.orderly_iff.1 (Code.orderly_append.2 ⟨orderly, orderlyToo⟩)
  have given : otherwise.lines + (code.lines + loose) = (code ++ otherwise).lines + loose := by
    rw [Code.lines_append]
    abel
  dsimp only
  split
  · rename_i empty
    refine .assemble {.close} _ (by simp) both ?_ given
    rw [List.isEmpty_iff.1 empty]
    simp only [Code.lines_append, Code.lines_line, Code.lines_nil]
    abel
  · refine .assemble ({.lastBranch} + {.close}) _ (by simp) both ?_ given
    simp only [Code.lines_append, Code.lines_line, Code.lines_indent]
    abel

theorem repeated : ledger.KeepsCode (Lowering.repeated site) := by
  intro phase loose
  refine .bind (entered.numeric "TIMES" (by decide) _ _) fun times plain => ?_
  have bound : (times.expr.rightOperand .relational).Plain names := (Expr.plain_rightOperand _).2 plain.expr
  refine .bind (.count bound) fun counter _ => .bind (entered.statements "DO" _ _) fun body orderly => ?_
  refine .assemble {.close} (body.lines + {.openFor counter _}) (by simp) ?_ ?_ (add_assoc _ _ _).symm
  · have opening : (Line.openFor counter (times.expr.rightOperand .relational)).Orderly phase.objects :=
      .inr ((Line.ordinary_openFor counter).2 (bound.ordinary phase))
    intro line member
    rw [Multiset.mem_add, Multiset.mem_singleton] at member
    rcases member with there | rfl
    · exact Code.orderly_iff.1 orderly line there
    · exact opening
  · rw [Code.lines_braced]
    abel

theorem whileUntil : ledger.KeepsCode (Lowering.whileUntil site) := by
  intro phase loose
  refine .bind (entered.truth "BOOL" false _ _) fun test plain => .bind (entered.statements "DO" _ _)
    fun body orderly => Ledger.KeepsCode.braced 0 orderly ?_ (by simp) (add_zero _).symm
  split <;> simp +decide [plain.expr]

end

/-! Buttons. -/

private theorem run_button (site : Site) (c : Compilation) : let label := (site.shown "LABEL" "Btn" c).1
    let body := site.buttonBody c
    let type := C.Identifier.symbolOr (site.head.field? "BTN") "GuiButtonTypeLeft"
    Lowering.button site c =
      if body.1.isEmpty then
        (element "widget_add_button_element" [.name type, label.expr, .name "NULL", .name "NULL"], body.2)
      else
        (Code.line (.registering type label.expr body.2.draft.buttons.length),
          { body.2 with draft := body.2.draft.addButton body.1 }) := by
  intro label body type
  have run : Lowering.button site c = (do
      let callback : List Expr ←
        if body.1.isEmpty then
          pure [.name "NULL", .name "NULL"]
        else do
          let number ← addButton body.1
          pure [.name ("app_button_cb_" ++ toString number), .name "app"]
      return element "widget_add_button_element" ([.name type, label.expr] ++ callback) :
        Lowering Code) body.2 := rfl
  rw [run]
  split <;> rfl

theorem button (entered : site.Entered ledger) (known : known site) (kind : site.kind = .button) :
    ledger.KeepsCode (Lowering.button site) := by
  intro phase loose c inPhase reached holds
  have label := (entered.shown "LABEL" "Btn" phase loose c inPhase reached holds).2.2
  have body : ledger.Keeps phase loose site.buttonBody
      (fun code => code.Orderly Phase.button.objects) fun code => code.lines + loose :=
    .bind (entered.shown "LABEL" "Btn" _ _) fun _ _ => .inPhase (entered.statements "DO" .button _)
  obtain ⟨leads, kept, orderly⟩ := body c inPhase reached holds
  have lowered : site.asStatement = Lowering.button site := by rw [Site.asStatement, kind]
  have run := run_button site c
  dsimp only at run kept orderly ⊢
  generalize C.Identifier.symbolOr (site.head.field? "BTN") "GuiButtonTypeLeft" = type at run
  split at run
  · rename_i empty
    rw [run]
    have plain := @Line.plain_symbols names phase [.member "app" "widget"] [.name "NULL"]
      "widget_add_button_element" _ (.name "NULL") [type] (by decide) (by simp +decide)
      (List.forall_mem_cons.2 ⟨label.expr, by simp +decide⟩)
    refine ⟨leads, ?_, Code.Plain.orderly (Code.plain_run.2 plain)⟩
    rw [List.isEmpty_iff.1 empty, Code.lines_nil, zero_add] at kept
    dsimp only
    rw [element, Code.lines_run, add_assoc]
    exact ledger.plain plain kept
  · have registers : site.Registers c
        (.registering type (site.shown "LABEL" "Btn" c).1.expr (site.buttonBody c).2.draft.buttons.length)
        (site.buttonBody c).2.draft.buttons.length (site.buttonBody c).1
        ((site.buttonBody c).2.draft.addButton (site.buttonBody c).1) := by
      refine ⟨kind, rfl, rfl, ?_, ⟨_, _, rfl⟩, ?_, ?_⟩
      · rw [lowered, run]
        rfl
      · rw [lowered, run]
      · rw [lowered, run]
        exact .refl _
    have entry := @ledger.register _ _ _ _ type _ _ known registers label.expr orderly kept
    have adds := (Agree.addButton (site.buttonBody c).1).leadsTo (reached.trans leads.moves)
    rw [run]
    refine ⟨leads.trans adds, ?_, Code.orderly_iff.2 ?_⟩
    · dsimp only
      rw [(Draft.gains_addButton _).lines, Code.lines_line]
      convert entry using 1
      abel
    · simpa using .inr (Line.ordinary_registering label.expr type _ phase)

theorem asStatement (entered : site.Entered ledger) (known : known site) :
    ledger.KeepsCode site.asStatement := by
  unfold Site.asStatement
  cases kind : site.kind with
  | app => exact entered.application.code
  | manifest =>
    exact Ledger.KeepsLines.code fun _ _ => .bind (.addManifest _) fun _ _ => .returns Code.plain_nil
  | viewportSetup | clearCanvas | setFont | setColor | exitOnBack => exact .nil
  | drawText | drawAlignedText | drawBox | drawFrame | drawRoundedBox | drawRoundedFrame | drawLine
  | drawCircle | drawDisc | drawDot | textBox | scrollingText => exact entered.drawing.code
  | button => exact entered.button known kind
  | onKey => exact entered.onKey
  | redraw => exact (plainCode fun _ => by simp +decide [redraw]).code
  | notify => exact (notify site).code
  | sleep => exact entered.sleep.code
  | log => exact entered.log.code
  | print => exact entered.print.code
  | timer => exact entered.timer.code
  | conditional => exact entered.conditional
  | repeated => exact entered.repeated
  | whileUntil => exact entered.whileUntil
  | setVariable =>
    exact (entered.setVariable (BlockHead.mem_variableNames (by simp [← kind, Site.kind]))).code
  | changeVariable =>
    exact (entered.changeVariable (BlockHead.mem_variableNames (by simp [← kind, Site.kind]))).code
  | writeFile => exact entered.writeFile.code
  | createFile => exact entered.createFile.code
  | deleteFile => exact entered.deleteFile.code
  | setupPin =>
    refine setupPin ((ledger.asks known).resolve_left ?_) site
    rw [setup?_eq, kind]
    exact Option.some_ne_none _
  | writePin => exact (writePin site).code
  | startPwm | setPwm => exact entered.startPwm _
  | stopPwm => exact (stopPwm site).code
  | servo => exact entered.servo
  | unlockServo => exact (unlockServo site).code
  | writeRegister8 | writeRegister16 => exact (entered.writeRegister _).code
  | writeBytes => exact entered.writeBytes.code
  | updateBits => exact entered.updateBits.code
  | unknown name => exact (degradedStatement rfl (by simp)).code
  | _ => exact (degradedStatement rfl (by simp)).code

theorem meaning (entered : site.Entered ledger) (known : known site) : site.meaning.Entered ledger :=
  ⟨entered.asValue known, entered.asStatement known⟩

end Site.Entered

end FlipperBlocks
