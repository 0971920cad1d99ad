import FlipperBlocks.Proofs.Lowering.SplicedValues

/-! How often a statement splices the code of its inputs. -/
namespace FlipperBlocks

open Alongside
open C (Code Expr)
open Lowering

theorem Alongside.spliced {input : String} {names : List String} {run run' : Code × Compilation}
    (alongside : Alongside (Code.Marked input names) run run') :
    Alongside (Code.Spliced input names) run run' :=
  ⟨alongside.state, alongside.result.spliced⟩

namespace Site.Holding

variable {site : Site} {input : String} {first : Meaning} {rest : List Meaning}
  (holding : site.Holding input first rest) (c : Compilation)

include holding

/-! Elements of the screen. -/

theorem measure (name default : String) :
    Alongside (Expr.Marked input [name]) (Lowering.measure site name default c)
      (Lowering.measure (site.sealing input) name default c) :=
  (holding.value name (.number default) c).bind fun _ _ marked => ⟨rfl, marked.expr⟩

section

variable {x x' y y' : Expr} (atX : x.Marked input ["X"] x') (atY : y.Marked input ["Y"] y')

include atX atY

theorem drawText (listed : "TEXT" ∈ site.kind.shownInputs) :
    Alongside (Code.Marked input ["X", "Y", "TEXT"]) (Lowering.drawText site x y c)
      (Lowering.drawText (site.sealing input) x' y' c) := by
  unfold Lowering.drawText
  refine (holding.shown listed _ c).bind fun text text' marked => ⟨rfl, .run (.call _ ?_)⟩
  exact .cons (.refl _) (.cons atX (.cons atY (.cons (.refl _) (.cons (.refl _) (.cons (.refl _)
    (.cons marked.expr .nil))))))

theorem drawAlignedText (listed : "TEXT" ∈ site.kind.shownInputs) :
    Alongside (Code.Marked input ["X", "Y", "TEXT"]) (Lowering.drawAlignedText site x y c)
      (Lowering.drawAlignedText (site.sealing input) x' y' c) := by
  unfold Lowering.drawAlignedText
  refine (holding.shown listed _ c).bind fun text text' marked => ⟨rfl, .run (.call _ ?_)⟩
  exact .cons (.refl _) (.cons atX (.cons atY (.cons (.refl _) (.cons (.refl _) (.cons (.refl _)
    (.cons marked.expr .nil))))))

theorem drawRectangle (rounded filled : Bool) :
    Alongside (Code.Marked input (if rounded then ["X", "Y", "W", "H", "R"] else ["X", "Y", "W", "H"]))
      (Lowering.drawRectangle site rounded filled x y c)
        (Lowering.drawRectangle (site.sealing input) rounded filled x' y' c) := by
  unfold Lowering.drawRectangle
  refine (holding.measure c "W" "0").bind fun w w' width => ?_
  refine (holding.measure _ "H" "0").bind fun h h' height => ?_
  cases rounded with
  | true =>
    change Alongside (Code.Marked input ["X", "Y", "W", "H", "R"]) _ _
    refine (holding.measure _ "R" "3").bind fun r r' radius => ⟨rfl, .run (.call _ ?_)⟩
    exact .cons (.refl _) (.cons atX (.cons atY (.cons width (.cons height (.cons radius
      (.cons (.refl _) .nil))))))
  | false =>
    change Alongside (Code.Marked input ["X", "Y", "W", "H"]) _ _
    refine ⟨rfl, .run (.call _ ?_)⟩
    exact .cons (.refl _) (.cons atX (.cons atY (.cons width (.cons height (.cons (.refl _)
      (.cons (.refl _) .nil))))))

theorem drawCircle (filled : Bool) :
    Alongside (Code.Marked input ["X", "Y", "R"]) (Lowering.drawCircle site filled x y c)
      (Lowering.drawCircle (site.sealing input) filled x' y' c) := by
  unfold Lowering.drawCircle
  refine (holding.measure c "R" "0").bind fun r r' radius => ⟨rfl, .run (.call _ ?_)⟩
  exact .cons (.refl _) (.cons atX (.cons atY (.cons radius (.cons (.refl _) .nil))))

omit holding in
theorem drawDot : Code.Marked input ["X", "Y"] (Lowering.drawDot x y) (Lowering.drawDot x' y') :=
  .run (.call _ (.cons (.refl _) (.cons atX (.cons atY (.cons (.refl _) (.cons (.refl _) .nil))))))

theorem textBox (listed : "TEXT" ∈ site.kind.shownInputs) :
    Alongside (Code.Marked input ["X", "Y", "W", "H", "TEXT"]) (Lowering.textBox site x y c)
      (Lowering.textBox (site.sealing input) x' y' c) := by
  unfold Lowering.textBox
  refine (holding.measure c "W" "0").bind fun w w' width => ?_
  refine (holding.measure _ "H" "0").bind fun h h' height => ?_
  refine (holding.shown listed _ _).bind fun text text' marked => ⟨rfl, .run (.call _ ?_)⟩
  exact .cons (.refl _) (.cons atX (.cons atY (.cons width (.cons height (.cons (.refl _)
    (.cons (.refl _) (.cons marked.expr (.cons (.refl _) .nil))))))))

theorem scrollingText (listed : "TEXT" ∈ site.kind.shownInputs) :
    Alongside (Code.Marked input ["X", "Y", "W", "H", "TEXT"]) (Lowering.scrollingText site x y c)
      (Lowering.scrollingText (site.sealing input) x' y' c) := by
  unfold Lowering.scrollingText
  refine (holding.measure c "W" "0").bind fun w w' width => ?_
  refine (holding.measure _ "H" "0").bind fun h h' height => ?_
  refine (holding.shown listed _ _).bind fun text text' marked => ⟨rfl, .run (.call _ ?_)⟩
  exact .cons (.refl _) (.cons atX (.cons atY (.cons width (.cons height (.cons marked.expr .nil)))))

end

theorem drawLine : site.Splices input c ["X1", "Y1", "X2", "Y2"] Lowering.drawLine := by
  unfold Splices Lowering.drawLine
  refine (holding.measure c "X1" "0").bind fun x₁ x₁' first => ?_
  refine (holding.measure _ "Y1" "0").bind fun y₁ y₁' second => ?_
  refine (holding.measure _ "X2" "0").bind fun x₂ x₂' third => ?_
  refine (holding.measure _ "Y2" "0").bind fun y₂ y₂' fourth => ⟨rfl, .run (.call _ ?_)⟩
  exact .cons (.refl _) (.cons first (.cons second (.cons third (.cons fourth .nil))))

theorem drawing (drawn : site.kind.measures ≠ []) :
    site.Splices input c site.kind.splicedInputs Lowering.drawing := by
  have kept : (site.sealing input).kind = site.kind := rfl
  unfold Splices Lowering.drawing
  refine (holding.measure c "X" "0").bind fun x x' atX => ?_
  refine (holding.measure _ "Y" "0").bind fun y y' atY => ?_
  rw [kept]
  cases kind : site.kind with
  | drawText => exact holding.drawText _ atX atY (by rw [kind]; decide)
  | drawAlignedText => exact holding.drawAlignedText _ atX atY (by rw [kind]; decide)
  | drawBox => exact holding.drawRectangle _ atX atY false true
  | drawFrame => exact holding.drawRectangle _ atX atY false false
  | drawRoundedBox => exact holding.drawRectangle _ atX atY true true
  | drawRoundedFrame => exact holding.drawRectangle _ atX atY true false
  | drawLine => exact holding.drawLine _
  | drawCircle => exact holding.drawCircle _ atX atY false
  | drawDisc => exact holding.drawCircle _ atX atY true
  | drawDot => exact ⟨rfl, drawDot atX atY⟩
  | textBox => exact holding.textBox _ atX atY (by rw [kind]; decide)
  | scrollingText => exact holding.scrollingText _ atX atY (by rw [kind]; decide)
  | _ => exact absurd (by rw [kind]; rfl) drawn

theorem button (kind : site.kind = .button) : site.Splices input c ["LABEL"] Lowering.button := by
  have listed : "LABEL" ∈ site.kind.shownInputs := by rw [kind]; decide
  unfold Splices Lowering.button
  refine (holding.shown listed _ c).bind fun label label' marked => step fun body => ?_
  have added (type : Expr) (callback : List Expr) : Code.Marked input ["LABEL"]
      (element "widget_add_button_element" ([type, label.expr] ++ callback))
        (element "widget_add_button_element" ([type, label'.expr] ++ callback)) :=
    .run (.call _ (.cons (.refl _) (.cons (.refl _) (.cons marked.expr (.all callback)))))
  split
  · exact ⟨rfl, added _ _⟩
  · exact ⟨rfl, added _ _⟩

/-! Pauses, messages and files. -/

theorem sleep : site.Splices input c ["MS"] Lowering.sleep := by
  unfold Splices Lowering.sleep
  refine (holding.numeric "MS" _ c).bind fun time time' marked => ?_
  exact ⟨rfl, .run (.call _ (.single marked.expr))⟩

omit holding in
theorem formatArguments (lead : String) {names : List String} {value value' : Value}
    (marked : value.Marked input names value') :
    ∃ others, Expr.AllMarked input others (Lowering.formatArguments lead value)
      (Lowering.formatArguments lead value') ∧ others.count input = names.count input := by
  cases literal : value.isLiteral with
  | true =>
    obtain ⟨same, absent⟩ := marked.eq_of_literal literal
    rw [same]
    exact ⟨[], .all _, (List.count_eq_zero.2 absent).symm⟩
  | false =>
    refine ⟨names, ?_, rfl⟩
    obtain ⟨expr, kind, array⟩ := value
    obtain ⟨expr', kind', array'⟩ := value'
    have literal' := marked.isLiteral.trans literal
    obtain ⟨inner, sameKind, -⟩ := marked
    dsimp only at inner sameKind
    rw [sameKind] at literal' ⊢
    cases kind with
    | text =>
      have directive (e : Expr) (array : Option String) (changing : e.isLiteral = false) :
          Lowering.formatArguments lead ⟨e, .text, array⟩ = [.quoted (lead ++ "%s"), e] := by
        cases e <;> first | rfl | cases changing
      rw [directive expr array literal, directive expr' array' literal']
      exact .cons (.refl _) (.single inner)
    | bytes => exact .cons (.refl _) (.single (inner.cast _))
    | number | truth => exact .cons (.refl _) (.single (inner.castGroup _))

theorem log (kind : site.kind = .log) : site.Splices input c ["TAG", "MSG"] Lowering.log := by
  have listed : "TAG" ∈ site.kind.shownInputs := by rw [kind]; decide
  unfold Splices Lowering.log
  refine (holding.shown listed _ c).bind fun tag tag' first => ?_
  refine (holding.value "MSG" _ _).bind fun message message' second => ?_
  obtain ⟨names, printed, count⟩ := formatArguments "" second
  have counted : (["TAG"] ++ names).count input = ["TAG", "MSG"].count input := by
    rw [List.count_append, count, ← List.count_append]
    rfl
  exact ⟨rfl, .run ((Expr.Marked.call _ (.cons first.expr printed)).of_count counted)⟩

theorem print : site.Splices input c ["TEXT"] Lowering.print := by
  unfold Splices Lowering.print
  refine (holding.value "TEXT" _ c).bind fun value value' marked => ?_
  obtain ⟨names, printed, count⟩ := formatArguments "Print: " marked
  have whole := Expr.Marked.call "FURI_LOG_I" (.cons (.refl (.quoted "APP")) printed)
  exact ⟨rfl, .run (whole.of_count count)⟩

theorem writeFile (kind : site.kind = .writeFile) :
    site.Splices input c ["PATH", "DATA"] Lowering.writeFile := by
  have path : "PATH" ∈ site.kind.shownInputs := by rw [kind]; decide
  have data : "DATA" ∈ site.kind.shownInputs := by rw [kind]; decide
  unfold Splices Lowering.writeFile filePath
  refine step fun _ => (holding.shown path _ _).bind fun path path' first => ?_
  refine (holding.shown data _ _).bind fun contents contents' second => ?_
  exact ⟨rfl, .run (.call _ (.cons first.expr (.cons second.expr .nil)))⟩

theorem createFile (kind : site.kind = .createFile) : site.Splices input c ["PATH"] Lowering.createFile := by
  have listed : "PATH" ∈ site.kind.shownInputs := by rw [kind]; decide
  unfold Splices Lowering.createFile filePath
  refine step fun _ => (holding.shown listed _ _).bind fun path path' marked => ?_
  exact ⟨rfl, .run (.call _ (.single marked.expr))⟩

theorem deleteFile (kind : site.kind = .deleteFile) : site.Splices input c ["PATH"] Lowering.deleteFile := by
  have listed : "PATH" ∈ site.kind.shownInputs := by rw [kind]; decide
  unfold Splices Lowering.deleteFile filePath
  refine step fun _ => (holding.shown listed _ _).bind fun path path' marked => ?_
  exact ⟨rfl, .run (.call _ (.single marked.expr))⟩

/-! Branches and loops. -/

omit holding in
theorem branchCount_changing (change : Value → Value) :
    branchCount (site.changing input change) = branchCount site := by
  have has (number : Nat) : hasBranch (site.changing input change) number = hasBranch site number := by
    unfold hasBranch changing
    rw [hasInput_passing, hasInput_passing]
  have ends (fuel number : Nat) :
      branchEnd (site.changing input change) fuel number = branchEnd site fuel number := by
    induction fuel generalizing number with
    | zero => rfl
    | succ fuel ih => rw [branchEnd, branchEnd, has, ih]
  unfold branchCount
  rw [ends]
  congr 2
  exact List.length_map _

theorem branch (number : Nat) :
    Alongside (Code.Marked input ["IF" ++ toString number]) (Lowering.branch site number c)
      (Lowering.branch (site.sealing input) number c) := by
  unfold Lowering.branch
  refine (holding.value _ _ c).bind fun test test' marked => step fun body => ⟨rfl, ?_⟩
  refine (Code.Marked.line ?_).followed _
  split
  · exact .openBranch marked.expr
  · exact .nextBranch marked.expr

theorem branches (numbers : List Nat) :
    Alongside (Code.Marked input (numbers.map fun n => "IF" ++ toString n))
      (Lowering.branches site numbers c) (Lowering.branches (site.sealing input) numbers c) := by
  induction numbers generalizing c with
  | nil => exact ⟨rfl, .nil⟩
  | cons number more ih =>
    unfold Lowering.branches
    refine (holding.branch c number).bind fun code code' marked => ?_
    exact (ih _).bind fun rest rest' following => ⟨rfl, marked.append following⟩

theorem conditional :
    site.Splices input c ((List.range (branchCount site)).map fun n => "IF" ++ toString n) Lowering.conditional := by
  unfold Splices Lowering.conditional
  rw [sealing, branchCount_changing]
  refine (holding.branches c _).bind fun code code' marked => step fun otherwise => ?_
  exact ⟨rfl, (marked.followed _).followed _⟩

theorem repeated : site.Splices input c ["TIMES"] Lowering.repeated := by
  unfold Splices Lowering.repeated
  refine (holding.numeric "TIMES" _ c).bind fun times times' marked => step fun counter => ?_
  refine step fun body => ⟨rfl, ?_⟩
  exact .braced (.openFor (marked.expr.rightOperand _) counter) body

theorem whileUntil : site.Splices input c ["BOOL"] Lowering.whileUntil := by
  unfold Splices Lowering.whileUntil
  refine (holding.value "BOOL" _ c).bind fun test test' marked => ?_
  rw [head_sealing]
  refine step fun body => ⟨rfl, .braced (.openWhile ?_) body⟩
  split
  · exact .unary _ (marked.expr.operand _)
  · exact marked.expr

/-! Variables. -/

omit holding in
theorem store (storage : Storage) {names : List String} {value value' : Value}
    (marked : value.Marked input names value') (c : Compilation) :
    Alongside (Code.Marked input names) (Lowering.store storage value c)
      (Lowering.store storage value' c) := by
  unfold Lowering.store
  rw [marked.kind]
  split
  · split
    · exact ⟨rfl, (Code.Marked.run (.call _ (.cons (.refl _) (.followed marked.expr _)))).followed _⟩
    · exact ⟨rfl, .run (marked.expr.printInto _ _ _)⟩
  · exact (marked.toNumber c).bind fun number number' marked => ⟨rfl, .run (marked.expr.assign _ _)⟩

theorem setVariable (proper : (site.value "VALUE" (.number "0") c).1.kind ≠ .bytes) :
    site.Splices input c ["VALUE"] Lowering.setVariable := by
  obtain ⟨value, value', d, here, there, marked⟩ := holding.scalar? proper
  unfold Splices Lowering.setVariable
  rw [bind_of_run here, bind_of_run there]
  dsimp only
  rw [marked.kind]
  exact step fun storage => store storage marked _

theorem changeVariable {storage : Storage} {d : Compilation}
    (resolved : resolve site false c = (storage, d)) (number : storage.kind = .number) :
    site.Splices input c ["DELTA"] Lowering.changeVariable := by
  have there : resolve (site.sealing input) false c = (storage, d) := resolved
  unfold Splices Lowering.changeVariable
  rw [bind_of_run resolved, bind_of_run there, if_pos number, if_pos number]
  exact (holding.numeric "DELTA" _ d).bind fun delta delta' marked => ⟨rfl, .run (marked.expr.assign _ _)⟩

/-! Outputs. -/

omit holding in
theorem pwmOutput?_of_fit {output : PwmOutput} (fit : (pinOf site).pwm? = some output)
    (purpose : String) (c : Compilation) : pwmOutput? site purpose c = (some output, c) := by
  unfold pwmOutput?
  rw [fit]
  rfl

omit holding in
theorem driveOutput (output : PwmOutput) {frequency frequency' duty duty' : Expr}
    (first : frequency.Marked input ["FREQ"] frequency') (second : duty.Marked input ["DUTY"] duty')
    (state : Expr × Expr) :
    Code.Marked input ["FREQ", "DUTY"] (Lowering.driveOutput output frequency duty state)
      (Lowering.driveOutput output frequency' duty' state) := by
  unfold Lowering.driveOutput
  have lines : Code.Marked input ["FREQ", "DUTY"] _ _ :=
    .cons 0 0 (.run ((first.castGroup "uint32_t").declare "uint32_t" "_f"))
      (.cons 0 0 (.refl (clampLocal "_f" .equal "0" "1"))
        (.cons 0 0 (.run ((second.castGroup "int").declare "int" "_d"))
          (.refl (Code.ofLines [clampLocal "_d" .less "0" "0", clampLocal "_d" .greater "100" "100",
            .openIf (isRunning output)]))))
  exact .framed (.refl _) ((((lines.followed _).followed _).followed _).followed _)

theorem startPwm {output : PwmOutput} (fit : (pinOf site).pwm? = some output) (label : String) :
    site.Splices input c ["FREQ", "DUTY"] (Lowering.startPwm label) := by
  have here := pwmOutput?_of_fit fit "hardware PWM" c
  have there : pwmOutput? (site.sealing input) "hardware PWM" c = (some output, c) :=
    pwmOutput?_of_fit fit "hardware PWM" c
  unfold Splices Lowering.startPwm
  rw [bind_of_run here, bind_of_run there]
  refine (holding.numeric "FREQ" _ c).bind fun frequency frequency' first => ?_
  refine (holding.numeric "DUTY" _ _).bind fun duty duty' second => ?_
  refine step fun _ => step fun _ => step fun state => ?_
  exact ⟨rfl, driveOutput output first.expr second.expr state⟩

theorem servo {output : PwmOutput} (fit : (pinOf site).pwm? = some output) :
    site.Splices input c ["ANGLE"] Lowering.servo := by
  have here := pwmOutput?_of_fit fit "servo control" c
  have there : pwmOutput? (site.sealing input) "servo control" c = (some output, c) :=
    pwmOutput?_of_fit fit "servo control" c
  unfold Splices Lowering.servo
  rw [bind_of_run here, bind_of_run there]
  refine (holding.numeric "ANGLE" _ c).bind fun angle angle' marked => ?_
  refine step fun _ => step fun _ => step fun _ => ⟨rfl, ?_⟩
  have lines : Code.Marked input ["ANGLE"] _ _ :=
    .cons 0 0 (.run ((marked.expr.castGroup "int").declare "int" "_angle"))
      (.refl (Code.ofLines [clampLocal "_angle" .less "0" "0", clampLocal "_angle" .greater "180" "180"]))
  exact .framed (.refl _) ((lines.followed _).followed _)

/-! Devices on the buses. -/

theorem writeRegister (width : RegisterWidth) :
    site.Splices input c ["ADDR", "REG", "VALUE", "TIMEOUT"] (Lowering.writeRegister width) := by
  unfold Splices Lowering.writeRegister
  refine (holding.transfer c).bind fun transfer transfer' marked => ?_
  refine (holding.numeric "REG" _ _).bind fun register register' place => ?_
  refine (holding.numeric "VALUE" _ _).bind fun value value' given => step fun _ => ?_
  have arguments := Expr.AllMarked.cons (place.expr.castGroup "uint8_t")
    (.single (given.expr.castGroup width.typeName))
  exact ⟨rfl, .run (marked.call _ arguments)⟩

theorem writeBytes (kind : site.kind = .writeBytes) (found : (site.number "DATA" "0" c).1.array ≠ none) :
    Alongside (Code.Spliced input ["DATA", "ADDR", "MEM", "TIMEOUT"]) (Lowering.writeBytes site c)
      (Lowering.writeBytes (site.sealing input) c) := by
  obtain ⟨stream, stream', d, names, here, there, array, reads, count⟩ := holding.streamIn? found
  have listed : "DATA" ∈ site.kind.streamInputs := by rw [kind]; decide
  unfold Lowering.writeBytes
  rw [bind_of_run here, bind_of_run there]
  dsimp only
  rw [array]
  refine (holding.transfer d).bind fun transfer transfer' marked => ?_
  refine (holding.numeric "MEM" _ _).bind fun memory memory' place => step fun _ => ⟨rfl, ?_⟩
  have arguments := Expr.AllMarked.followed (place.expr.castGroup "uint8_t")
    [.name stream.array, .sizeOf (.name stream.array)]
  have whole := (Code.Marked.runs reads).append (.run (marked.call "kb_i2c_write_mem_bytes" arguments))
  refine ⟨whole.text, whole.seals.trans ?_⟩
  rw [List.count_append, count listed, ← List.count_append]
  rfl

omit holding in
theorem replaceBits {transfer transfer' : Transfer} (marked : transfer.Marked input transfer')
    {register register' mask mask' value value' : Expr} (place : register.Marked input ["REG"] register')
    (bits : mask.Marked input ["MASK"] mask') (given : value.Marked input ["VALUE"] value') :
    Code.Marked input ["ADDR", "REG", "TIMEOUT", "MASK", "VALUE", "ADDR", "REG", "TIMEOUT"]
      (Lowering.replaceBits transfer register mask value)
        (Lowering.replaceBits transfer' register' mask' value') := by
  have asked := marked.call "kb_i2c_read_reg8"
    (.followed (place.castGroup "uint8_t") [.unary .address (.name "_tmp")])
  have told := marked.call "kb_i2c_write_reg8" (.followed (place.castGroup "uint8_t") [.name "_tmp"])
  have asking : C.Line.Marked input ["ADDR", "REG", "TIMEOUT"] _ _ := .openIf asked
  have telling : Code.Marked input ["ADDR", "REG", "TIMEOUT"] _ _ := .run told
  unfold Lowering.replaceBits
  refine .framed (.refl _) (.cons 0 0 (.refl _) (.framed asking ?_))
  refine (Code.Marked.run ((bits.castGroup _).declare _ _)).append (.framed (.refl _) ?_)
  refine .append ((Code.Marked.run ((given.castGroup _).declare _ _)).followed _) ?_
  exact .cons 0 0 (.refl _) (.cons 0 0 (.refl _) telling)

theorem updateBits :
    site.Splices input c ["ADDR", "REG", "TIMEOUT", "MASK", "VALUE", "ADDR", "REG", "TIMEOUT"] Lowering.updateBits := by
  unfold Splices Lowering.updateBits
  refine (holding.transfer c).bind fun transfer transfer' marked => ?_
  refine (holding.numeric "REG" _ _).bind fun register register' place => ?_
  refine (holding.numeric "MASK" _ _).bind fun mask mask' bits => ?_
  refine (holding.numeric "VALUE" _ _).bind fun value value' given => step fun _ => ?_
  exact ⟨rfl, replaceBits marked place.expr bits.expr given.expr⟩

omit holding in
private theorem exists_number (kind : site.kind = .changeVariable)
    (kept : ∀ reason, ¬ site.RejectedAsStatement c reason) : (resolve site false c).1.kind = .number := by
  cases declared : c.draft.lookup? (variableName site) with
  | some storage =>
    rw [resolve_of_declared declared]
    by_contra other
    exact kept _ (.text kind declared other)
  | none =>
    unfold resolve
    generalize variableName site = name at declared ⊢
    change (((c.draft.declare ⟨name, .int⟩).lookup? name).getD ⟨name, .int⟩).kind = .number
    rw [Draft.lookup?_declare, if_pos rfl, declared]
    rfl

omit holding in
private theorem exists_output {purpose : String} (driven : (site.kind, purpose) ∈ outputPurposes)
    (kept : ∀ reason, ¬ site.RejectedAsStatement c reason) : ∃ output, (pinOf site).pwm? = some output :=
  Option.ne_none_iff_exists'.1 fun unfit => kept _ (.pin driven unfit)

/-- The code of a statement that is not rejected splices the inputs that are listed for its kind. -/
theorem asStatement (kept : ∀ reason, ¬ site.RejectedAsStatement c reason) :
    Alongside (Code.Spliced input site.spliced) (site.asStatement c)
      ((site.sealing input).asStatement c) := by
  have same : (site.sealing input).kind = site.kind := rfl
  unfold Site.asStatement
  rw [same]
  by_cases branches : site.kind = .conditional
  · unfold Site.spliced
    rw [branches]
    exact (holding.conditional c).spliced
  have names : site.spliced = site.kind.splicedInputs := if_neg branches
  rw [names]
  cases kind : site.kind with
  | conditional => exact absurd kind branches
  | drawText | drawAlignedText | drawBox | drawFrame | drawRoundedBox | drawRoundedFrame | drawLine
  | drawCircle | drawDisc | drawDot | textBox | scrollingText =>
    have drawn := holding.drawing c (by rw [kind]; decide)
    rw [kind] at drawn
    exact drawn.spliced
  | button => exact (holding.button c kind).spliced
  | sleep => exact (holding.sleep c).spliced
  | log => exact (holding.log c kind).spliced
  | print => exact (holding.print c).spliced
  | repeated => exact (holding.repeated c).spliced
  | whileUntil => exact (holding.whileUntil c).spliced
  | setVariable => exact (holding.setVariable c fun bytes => kept _ (.bytes kind bytes)).spliced
  | changeVariable => exact (holding.changeVariable c rfl (exists_number c kind kept)).spliced
  | writeFile => exact (holding.writeFile c kind).spliced
  | createFile => exact (holding.createFile c kind).spliced
  | deleteFile => exact (holding.deleteFile c kind).spliced
  | startPwm | setPwm =>
    obtain ⟨output, fit⟩ := @exists_output site c "hardware PWM" (by rw [kind]; decide) kept
    exact (holding.startPwm c fit _).spliced
  | servo =>
    obtain ⟨output, fit⟩ := @exists_output site c "servo control" (by rw [kind]; decide) kept
    exact (holding.servo c fit).spliced
  | writeRegister8 | writeRegister16 => exact (holding.writeRegister c _).spliced
  | writeBytes => exact holding.writeBytes c kind fun none => kept _ (.stream kind none)
  | updateBits => exact (holding.updateBits c).spliced
  | app | manifest | viewportSetup | clearCanvas | setFont | setColor | exitOnBack | onKey | redraw
  | notify | timer | setupPin | writePin | stopPwm | unlockServo =>
    -- Nothing counts but the fields of the block and the statements in it.
    exact .of_eq rfl (Code.Marked.refl _).spliced
  | unknown name => exact absurd (.unknown kind) (kept _)
  | _ => exact absurd (.value (by rw [kind]; rfl)) (kept _)

end Site.Holding

theorem Site.nodup_spliced (site : Site) (other : site.kind ≠ .updateBits) : site.spliced.Nodup := by
  unfold spliced
  split
  · exact Draft.nodup_numbered "IF" _
  · cases kind : site.kind with
    | updateBits => exact absurd kind other
    | unknown name => exact List.nodup_nil
    | _ => decide

end FlipperBlocks
