import FlipperBlocks.Proofs.Lowering.Rejection
import FlipperBlocks.Proofs.Lowering.Sealing

/-! How often the value of a block splices the code of its inputs. -/
namespace FlipperBlocks

open Alongside
open C (Code Expr)
open Lowering

/-- The inputs whose code a block splices, as often as it does and in the order of its own code. -/
def BlockKind.splicedInputs : BlockKind → List String
  | compare | logical | arithmetic | bitAnd | bitOr | bitXor => ["A", "B"]
  | negate | whileUntil => ["BOOL"]
  | bitNot => ["A"]
  | textToNumber | textLength => ["STRING"]
  | numberToText => ["NUMBER"]
  | randomNumber => ["MIN", "MAX"]
  | readFile | fileExists | createFile | deleteFile => ["PATH"]
  | writeFile => ["PATH", "DATA"]
  | deviceReady => ["ADDR", "TIMEOUT"]
  | readRegister8 | readRegister16 => ["ADDR", "REG", "TIMEOUT"]
  | writeRegister8 | writeRegister16 => ["ADDR", "REG", "VALUE", "TIMEOUT"]
  | readBytes => ["ADDR", "MEM", "TIMEOUT"]
  | writeBytes => ["DATA", "ADDR", "MEM", "TIMEOUT"]
  | updateBits => ["ADDR", "REG", "TIMEOUT", "MASK", "VALUE", "ADDR", "REG", "TIMEOUT"]
  | streamByte => ["STREAM", "INDEX"]
  | drawText | drawAlignedText => ["X", "Y", "TEXT"]
  | drawBox | drawFrame => ["X", "Y", "W", "H"]
  | drawRoundedBox | drawRoundedFrame => ["X", "Y", "W", "H", "R"]
  | drawLine => ["X1", "Y1", "X2", "Y2"]
  | drawCircle | drawDisc => ["X", "Y", "R"]
  | drawDot => ["X", "Y"]
  | textBox | scrollingText => ["X", "Y", "W", "H", "TEXT"]
  | button => ["LABEL"]
  | sleep => ["MS"]
  | log => ["TAG", "MSG"]
  | print => ["TEXT"]
  | repeated => ["TIMES"]
  | setVariable => ["VALUE"]
  | changeVariable => ["DELTA"]
  | startPwm | setPwm => ["FREQ", "DUTY"]
  | servo => ["ANGLE"]
  | _ => []

/-- The inputs whose code a block splices; those of a conditional are the tests of its branches. -/
def Site.spliced (site : Site) : List String :=
  if site.kind = .conditional then (List.range (branchCount site)).map fun n => "IF" ++ toString n
  else site.kind.splicedInputs

namespace Site.Holding

variable {site : Site} {input : String} {first : Meaning} {rest : List Meaning}
  (holding : site.Holding input first rest) (c : Compilation)

include holding

/-! Values. -/

theorem comparison : site.Copies input c ["A", "B"] Lowering.comparison := by
  unfold Copies Lowering.comparison
  refine (holding.value "A" _ c).bind fun a a' left => ?_
  refine (holding.value "B" _ _).bind fun b b' right => ?_
  rw [left.kind, right.kind]
  split
  · exact ⟨rfl, .of_expr (.binary _ (.call _ (.cons left.expr (.cons right.expr .nil))) (.refl _)) _⟩
  · refine (left.toNumber _).bind fun a a' left => ?_
    refine (right.toNumber _).bind fun b b' right => ?_
    exact ⟨rfl, .of_expr (.binary _ (left.expr.operand _) (right.expr.operand _)) _⟩

theorem logical : site.Copies input c ["A", "B"] Lowering.logical := by
  unfold Copies Lowering.logical
  refine (holding.value "A" _ c).bind fun a a' left => ?_
  refine (holding.value "B" _ _).bind fun b b' right => ?_
  exact ⟨rfl, .of_expr (.binary _ (left.expr.operand _) (right.expr.operand _)) _⟩

theorem negation : site.Copies input c ["BOOL"] Lowering.negation := by
  unfold Copies Lowering.negation
  refine (holding.value "BOOL" _ c).bind fun a a' marked => ?_
  exact ⟨rfl, .of_expr (.unary _ (marked.expr.operand _)) _⟩

theorem arithmetic : site.Copies input c ["A", "B"] Lowering.arithmetic := by
  unfold Copies Lowering.arithmetic
  refine (holding.numeric "A" _ c).bind fun a a' left => ?_
  refine (holding.numeric "B" _ _).bind fun b b' right => ?_
  rw [head_sealing]
  dsimp only
  split
  · exact ⟨rfl, .of_expr (.call _ (.cons left.expr (.cons right.expr .nil))) _⟩
  · exact ⟨rfl, .of_expr (.binary _ (left.expr.operand _) (right.expr.rightOperand _)) _⟩

theorem bitwise (op : C.BinaryOp) : site.Copies input c ["A", "B"] (Lowering.bitwise op) := by
  unfold Copies Lowering.bitwise
  refine (holding.numeric "A" _ c).bind fun a a' left => ?_
  refine (holding.numeric "B" _ _).bind fun b b' right => ?_
  exact ⟨rfl, .of_expr (.binary _ (left.expr.operand _) (right.expr.operand _)) _⟩

theorem complement : site.Copies input c ["A"] Lowering.complement := by
  unfold Copies Lowering.complement
  refine (holding.numeric "A" _ c).bind fun a a' marked => ?_
  exact ⟨rfl, .of_expr (.unary _ (marked.expr.operand _)) _⟩

theorem textToNumber : site.Copies input c ["STRING"] Lowering.textToNumber :=
  (holding.value "STRING" _ c).bind fun _ _ marked => marked.toNumber _

theorem numberToText : Emits input ["NUMBER"] (Lowering.numberToText site c)
    (Lowering.numberToText (site.sealing input) c) := by
  unfold Lowering.numberToText
  refine (holding.value "NUMBER" _ c).bind fun value value' marked => ?_
  rw [marked.kind, marked.isLiteral, marked.code]
  split
  · exact .inPlace marked
  · split
    · rename_i literal
      exact .inPlace (.of_absent (marked.eq_of_literal literal).2 _)
    · exact step fun buffer => .deferred (marked.expr.printInto _ _ _) _ _

theorem textLength (kind : site.kind = .textLength) : site.Copies input c ["STRING"] Lowering.textLength := by
  have listed : "STRING" ∈ site.kind.shownInputs := by rw [kind]; decide
  unfold Copies Lowering.textLength
  refine (holding.shown listed _ c).bind fun text text' marked => ?_
  exact ⟨rfl, .of_expr (.cast _ (.call _ (.single marked.expr))) _⟩

theorem randomNumber : site.Copies input c ["MIN", "MAX"] Lowering.randomNumber := by
  unfold Copies Lowering.randomNumber
  refine (holding.numeric "MIN" _ c).bind fun a a' left => ?_
  refine (holding.numeric "MAX" _ _).bind fun b b' right => step fun _ => ?_
  exact ⟨rfl, .of_expr (.call _ (.cons left.expr (.cons right.expr .nil))) _⟩

theorem readFile (kind : site.kind = .readFile) :
    Emits input ["PATH"] (Lowering.readFile site c) (Lowering.readFile (site.sealing input) c) := by
  have listed : "PATH" ∈ site.kind.shownInputs := by rw [kind]; decide
  unfold Lowering.readFile filePath
  refine step fun _ => (holding.shown listed _ _).bind fun path path' marked => ?_
  refine step fun buffer => .deferred ?_ _ _
  exact .call _ (.cons (.refl _) (.cons (.refl _) (.single marked.expr)))

theorem fileExists (kind : site.kind = .fileExists) : site.Copies input c ["PATH"] Lowering.fileExists := by
  have listed : "PATH" ∈ site.kind.shownInputs := by rw [kind]; decide
  unfold Copies Lowering.fileExists filePath
  refine step fun _ => (holding.shown listed _ _).bind fun path path' marked => ?_
  exact ⟨rfl, .of_expr (.call _ (.single marked.expr)) _⟩

end Site.Holding

structure Lowering.Transfer.Marked (input : String) (transfer transfer' : Transfer) : Prop where
  bus : transfer'.bus = transfer.bus
  address : transfer.address.Marked input ["ADDR"] transfer'.address
  timeout : transfer.timeout.Marked input ["TIMEOUT"] transfer'.timeout

theorem Lowering.Transfer.Marked.call {input : String} {transfer transfer' : Transfer}
    (marked : transfer.Marked input transfer') (function : String) {names : List String}
    {arguments arguments' : List Expr} (between : Expr.AllMarked input names arguments arguments') :
    (transfer.call function arguments).Marked input ("ADDR" :: names ++ ["TIMEOUT"])
      (transfer'.call function arguments') := by
  unfold Transfer.call Transfer.device Transfer.patience Transfer.busNumber
  rw [marked.bus]
  have device := Expr.AllMarked.cons (.refl (.ofNat transfer.bus.index))
    (.single (marked.address.castGroup "uint8_t"))
  exact .call _ ((device.append between).append (.single (marked.timeout.castGroup _)))

namespace Site.Holding

variable {site : Site} {input : String} {first : Meaning} {rest : List Meaning}
  (holding : site.Holding input first rest) (c : Compilation)

include holding

theorem transfer : Alongside (Transfer.Marked input) (Transfer.ofSite site c)
    (Transfer.ofSite (site.sealing input) c) := by
  unfold Transfer.ofSite
  refine (holding.numeric "ADDR" _ c).bind fun a a' address => ?_
  refine (holding.numeric "TIMEOUT" _ _).bind fun b b' timeout => ?_
  exact ⟨rfl, rfl, address.expr, timeout.expr⟩

theorem deviceReady : site.Copies input c ["ADDR", "TIMEOUT"] Lowering.deviceReady := by
  unfold Copies Lowering.deviceReady
  refine (holding.transfer c).bind fun transfer transfer' marked => step fun _ => ?_
  exact ⟨rfl, .of_expr (marked.call _ .nil) _⟩

theorem readRegister (width : RegisterWidth) :
    Emits input ["ADDR", "REG", "TIMEOUT"] (Lowering.readRegister width site c)
      (Lowering.readRegister width (site.sealing input) c) := by
  unfold Lowering.readRegister
  refine (holding.transfer c).bind fun transfer transfer' marked => ?_
  refine (holding.numeric "REG" _ _).bind fun register register' place => step fun _ => ?_
  rw [marked.bus, marked.address.code, marked.timeout.code, place.code]
  refine step fun storage => ?_
  have arguments := Expr.AllMarked.cons (place.expr.castGroup "uint8_t")
    (.single (.refl (.unary .address storage.place)))
  exact .deferred (marked.call _ arguments) _ _

theorem readBytes : Emits input ["ADDR", "MEM", "TIMEOUT"] (Lowering.readBytes site c)
    (Lowering.readBytes (site.sealing input) c) := by
  unfold Lowering.readBytes
  refine (holding.transfer c).bind fun transfer transfer' marked => ?_
  refine (holding.numeric "MEM" _ _).bind fun memory memory' place => ?_
  refine (holding.value "LEN" _ _).bind fun length length' measured => step fun _ => ?_
  have same : blockLength length' = blockLength length := by
    unfold blockLength
    rw [measured.integer?]
  rw [same, marked.bus, marked.address.code, marked.timeout.code, place.code]
  refine step fun array => ?_
  have arguments := Expr.AllMarked.cons (place.expr.castGroup "uint8_t")
    (.cons (.refl (.name array)) (.single (.refl (.ofNat (blockLength length)))))
  exact .deferred (marked.call _ arguments) _ _

end Site.Holding

theorem Lowering.Stream.marked_byteAt {input : String} {names others : List String}
    {stream stream' : Stream} {position position' : Value} (array : stream'.array = stream.array)
    (reads : Expr.AllMarked input names stream.read.toList stream'.read.toList)
    (placed : position.Marked input others position') :
    (byteAt stream position).Marked input (names ++ others) (byteAt stream' position') := by
  obtain ⟨array, read⟩ := stream
  obtain ⟨array', read'⟩ := stream'
  dsimp only at array reads
  unfold byteAt
  rw [placed.integer?, array]
  cases spelled : position.integer? with
  | some n =>
    have absent := (placed.eq_of_literal (position.isLiteral_of_integer? spelled)).2
    have count : (names ++ others).count input = names.count input := by
      rw [List.count_append, List.count_eq_zero.2 absent, Nat.add_zero]
    refine Expr.Marked.of_count ?_ count.symm
    cases read with
    | none =>
      cases read' with
      | none =>
        cases reads
        exact .refl _
      | some other => cases reads
    | some read =>
      cases read' with
      | none => cases reads
      | some other => exact ((reads.of_single.cast "void").before _).group
  | none =>
    refine .steps ((reads.map fun _ _ _ marked => marked.cast "void").append ?_)
    exact .followed ((placed.expr.castGroup "int").declare "int" "_ix") _

namespace Site.Holding

variable {site : Site} {input : String} {first : Meaning} {rest : List Meaning}
  (holding : site.Holding input first rest) (c : Compilation)

include holding

theorem streamLength (found : (site.number "STREAM" "0" c).1.array ≠ none) :
    site.Copies input c [] Lowering.streamLength := by
  obtain ⟨stream, stream', d, names, here, there, array, -, -⟩ := holding.streamIn? found
  unfold Copies Lowering.streamLength
  rw [bind_of_run here, bind_of_run there]
  dsimp only
  rw [array]
  exact ⟨rfl, .of_expr (.refl _) _⟩

theorem streamByte (kind : site.kind = .streamByte) (found : (site.number "STREAM" "0" c).1.array ≠ none) :
    site.Copies input c ["STREAM", "INDEX"] Lowering.streamByte := by
  obtain ⟨stream, stream', d, names, here, there, array, reads, count⟩ := holding.streamIn? found
  have listed : "STREAM" ∈ site.kind.streamInputs := by rw [kind]; decide
  have counted : (names ++ ["INDEX"]).count input = ["STREAM", "INDEX"].count input := by
    rw [List.count_append, count listed, ← List.count_append]
    rfl
  unfold Copies Lowering.streamByte
  rw [bind_of_run here, bind_of_run there]
  refine (holding.numeric "INDEX" _ d).bind fun position position' placed => ?_
  exact ⟨rfl, .of_expr ((Stream.marked_byteAt array reads placed).of_count counted) _⟩

/-- The value of a block that is not rejected splices the inputs that are listed for its kind. -/
theorem asValue (kept : ∀ reason, ¬ site.RejectedAsValue c reason) (wantsText : Bool) :
    Emits input site.spliced (site.asValue wantsText c) ((site.sealing input).asValue wantsText c) := by
  have other : site.kind ≠ .conditional := fun kind =>
    kept _ (.statement (by rw [kind]; rfl) (by rw [kind]; rfl))
  have same : (site.sealing input).kind = site.kind := rfl
  unfold spliced Site.asValue
  rw [if_neg other, same]
  cases kind : site.kind with
  | compare => exact .of_alongside (holding.comparison c)
  | logical => exact .of_alongside (holding.logical c)
  | negate => exact .of_alongside (holding.negation c)
  | arithmetic => exact .of_alongside (holding.arithmetic c)
  | bitAnd | bitOr | bitXor => exact .of_alongside (holding.bitwise c _)
  | bitNot => exact .of_alongside (holding.complement c)
  | textToNumber => exact .of_alongside (holding.textToNumber c)
  | numberToText => exact holding.numberToText c
  | textLength => exact .of_alongside (holding.textLength c kind)
  | randomNumber => exact .of_alongside (holding.randomNumber c)
  | readFile => exact holding.readFile c kind
  | fileExists => exact .of_alongside (holding.fileExists c kind)
  | deviceReady => exact .of_alongside (holding.deviceReady c)
  | readRegister8 | readRegister16 => exact holding.readRegister c _
  | readBytes => exact holding.readBytes c
  | streamLength =>
    exact .of_alongside (holding.streamLength c fun none => kept _ (.stream (by simp [kind]) none))
  | streamByte =>
    exact .of_alongside (holding.streamByte c kind fun none => kept _ (.stream (by simp [kind]) none))
  | canvasWidth | canvasHeight | truth | number | hexNumber | text | getVariable | readPin | readAnalog
  | potentiometer | readPwm | distance | motion | temperature | humidity | byteStream =>
    -- Nothing but the fields of the block counts.
    exact .of_alongside (.of_eq rfl (.of_absent List.not_mem_nil _))
  | unknown name => exact absurd (.unknown kind) (kept _)
  | _ => exact absurd (.statement (by rw [kind]; rfl) (by rw [kind]; rfl)) (kept _)

end Site.Holding

end FlipperBlocks
