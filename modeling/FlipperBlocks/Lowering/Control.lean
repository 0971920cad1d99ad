import FlipperBlocks.Lowering.Conversion

/-! Sections, branches, loops and timers. -/
namespace FlipperBlocks.Lowering

open C (Code Expr)

variable (site : Site)

/-- The inputs of an application and the phases they belong to. -/
def sections : List (String × Phase) :=
  [("SETUP", .setup), ("DRAW", .draw), ("INPUT", .input), ("LOOP", .loop)]

def fillSection (part : String × Phase) : Lowering Unit := do
  let code ← inPhase part.2 (site.statements part.1)
  modifyDraft (Draft.append part.2 code)

def fillSections (site : Site) : List (String × Phase) → Lowering Unit
  | [] => return
  | part :: rest => do
    fillSection site part
    fillSections site rest

def application : Lowering Code := do
  fillSections site sections
  return []

def redraw : Expr :=
  .call "view_dispatcher_send_custom_event"
    [.member "app" "view_dispatcher", .name "CustomEventTypeRedraw"]

def notify : Lowering Code := do
  enable [.notifications]
  let sequence := C.Identifier.symbolOr (site.head.field? "SEQ") "sequence_success"
  return Code.run
    (.call "notification_message" [.member "app" "notif", .unary .address (.name sequence)])

def sleep : Lowering Code := do
  let milliseconds ← site.numeric "MS" "0"
  return Code.run (.call "furi_delay_ms" [milliseconds.expr])

/-- What to do on a key. Events are known only while input is handled. -/
def onKey : Lowering Code := do
  if (← phase) = .input then
    let body ← site.statements "DO"
    let type := C.Identifier.symbolOr (site.head.field? "TYPE") "InputTypeShort"
    let key := C.Identifier.symbolOr (site.head.field? "KEY") "InputKeyOk"
    let test : Expr :=
      .binary .and (.binary .equal (.member "event" "type") (.name type))
        (.binary .equal (.member "event" "key") (.name key))
    return Code.braced (.openIf test)
      (body ++ Code.run (.assign .set (.name "consumed") (.truth true)))
  else
    degrade (.wrongPhase site.kind.name Phase.input.describe)
    return Code.comment (site.kind.name ++ " ignored outside the input section")

/-- A body that runs again and again, at least once in a millisecond and at most once in as many
as fit 32 bits. -/
def timer : Lowering Code := do
  let interval := ((site.head.numberField? "INTERVAL").map (Binary64.clampWhole 1 (twoTo 32 - 1))).getD 500
  let body ← inPhase .timer (site.statements "DO")
  enable [.timer]
  let _ ← addTimer ⟨interval, body⟩
  return []

def hasBranch (number : Nat) : Bool :=
  site.hasInput ("IF" ++ toString number) || site.hasInput ("DO" ++ toString number)

/-- The first number from the given one on without a branch, looking at as many numbers as the
fuel says. -/
def branchEnd (site : Site) : Nat → Nat → Nat
  | 0, number => number
  | fuel + 1, number =>
    if hasBranch site number then branchEnd site fuel (number + 1) else number

/-- The number of branches: the first one is always there, and the others follow without a gap.
There are no more of them than inputs. -/
def branchCount : Nat := branchEnd site (site.values.length + site.bodies.length) 1

def branch (number : Nat) : Lowering Code := do
  let test ← site.truth ("IF" ++ toString number) false
  let body ← site.statements ("DO" ++ toString number)
  let opening : C.Line := if number = 0 then .openBranch test.expr else .nextBranch test.expr
  return Code.line opening ++ body.indent

def branches (site : Site) : List Nat → Lowering Code
  | [] => return []
  | number :: rest => do
    let code ← branch site number
    return code ++ (← branches site rest)

/-- A chain of branches, with a last one for all other cases if it has any code. -/
def conditional : Lowering Code := do
  let code ← branches site (List.range (branchCount site))
  let otherwise ← site.statements "ELSE"
  let last := if otherwise.isEmpty then [] else Code.line .lastBranch ++ otherwise.indent
  return code ++ last ++ Code.line .close

def repeated : Lowering Code := do
  let times ← site.numeric "TIMES" "1"
  let counter ← fresh "i"
  let body ← site.statements "DO"
  return Code.braced (.openFor counter (times.expr.rightOperand .relational)) body

def whileUntil : Lowering Code := do
  let condition ← site.truth "BOOL" false
  let test : Expr :=
    if site.head.field? "MODE" = some "UNTIL" then .unary .not (condition.expr.operand .atomic)
    else condition.expr
  let body ← site.statements "DO"
  return Code.braced (.openWhile test) body

end FlipperBlocks.Lowering
