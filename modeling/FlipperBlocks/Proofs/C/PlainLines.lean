import FlipperBlocks.Proofs.C.PinSetups
import FlipperBlocks.Proofs.C.Registrations

/-! Lines that start an output, lines that hand over what a button does, and all others. -/
namespace FlipperBlocks.C

open Identifier (isIdentifier)
open Token (word call mark)

def startRun (output : PwmOutput) : List Token :=
  [call "furi_hal_pwm_start".toList, mark ['('], word output.channel.toList, mark [',']]

theorem tokens_start (output : PwmOutput) :
    tokens ("furi_hal_pwm_start(" ++ output.channel ++ ",") = startRun output := by
  cases output <;> decide

/-! Code made of silent atoms. -/

def Atom.Silent (names : List String) (button : Nat) : Atom → Prop
  | number digits => C.Silent names button (numberTokens digits.toList)
  | name text | counter text => C.Silent names button [word text.toList]
  | member object field => C.Silent names button [word object.toList, mark ['-', '>'], word field.toList]
  | type text => C.Silent names button (Expr.typeTokens text)
  | call _ | remark _ => True

variable {names : List String} {button : Nat}

namespace Expr

theorem silent_call {arguments : List Expr} (function : String)
    (silent : C.Silent names button (listTokens arguments)) :
    C.Silent names button (Expr.call function arguments).tokens :=
  ((silent.append (.mark_cons _ .nil)).mark_cons _).call_cons _

mutual

theorem Holds.silent : ∀ e : Expr, e.Holds (Atom.Silent names button) → C.Silent names button e.tokens
  | number _, holds | name _, holds | member .., holds => holds
  | quoted _, _ | nul, _ => .cons (by simp) .nil
  | truth true, _ => .fixed_cons (by decide) .nil
  | truth false, _ => .fixed_cons (by decide) .nil
  | unary _ operand, holds => (Holds.silent operand holds.2).mark_cons _
  | binary _ left right, holds | assign _ left right, holds | sequence left right, holds =>
    (Holds.silent left holds.1).append ((Holds.silent right holds.2).mark_cons _)
  | conditional test yes no, holds =>
    (Holds.silent test holds.1).append
      (((Holds.silent yes holds.2.1).append ((Holds.silent no holds.2.2).mark_cons _)).mark_cons _)
  | group inner, holds => ((Holds.silent inner holds).append (.mark_cons _ .nil)).mark_cons _
  | Expr.call function arguments, holds => silent_call function (HoldAll.silent_list arguments holds.2)
  | cast _ operand, holds =>
    (C.Silent.append holds.1 ((Holds.silent operand holds.2).mark_cons _)).mark_cons _
  | index _ position, holds =>
    C.Silent.append holds.1 (((Holds.silent position holds.2).append (.mark_cons _ .nil)).mark_cons _)
  | increment place, holds => (Holds.silent place holds.2).append (.mark_cons _ .nil)
  | declare _ _ value, holds =>
    C.Silent.append holds.1 (C.Silent.append holds.2.1 ((Holds.silent value holds.2.2).mark_cons _))
  | steps list, holds =>
    (((HoldAll.silent_steps list holds).append ((C.Silent.mark_cons _ .nil).mark_cons _)).mark_cons
      _).mark_cons _
  | remark _ inner, holds => (Holds.silent inner holds.2).cons (by simp)
  | verbatim .., holds => holds.elim

theorem HoldAll.silent_list : ∀ list : List Expr, HoldAll (Atom.Silent names button) list →
    C.Silent names button (listTokens list)
  | [], _ => .nil
  | [last], holds => Holds.silent last holds.1
  | first :: second :: rest, holds =>
    (Holds.silent first holds.1).append ((HoldAll.silent_list (second :: rest) holds.2).mark_cons _)

theorem HoldAll.silent_steps : ∀ list : List Expr, HoldAll (Atom.Silent names button) list →
    C.Silent names button (stepTokens list)
  | [], _ => .nil
  | first :: rest, holds =>
    (Holds.silent first holds.1).append ((HoldAll.silent_steps rest holds.2).mark_cons _)

end

end Expr

theorem Line.Holds.silent {line : Line} (holds : line.Holds (Atom.Silent names button)) :
    Silent names button line.tokens := by
  have tested {test : Expr} (holds : test.Holds (Atom.Silent names button)) :
      Silent names button (testTokens test) :=
    ((Expr.Holds.silent test holds).append ((Silent.mark_cons _ .nil).mark_cons _)).mark_cons _
  cases line with
  | run action => exact (Expr.Holds.silent action holds).append (.mark_cons _ .nil)
  | guarded test action =>
    refine .call_cons _ (.mark_cons _ ((Expr.Holds.silent test holds.1).append (.mark_cons _ ?_)))
    exact (Expr.Holds.silent action holds.2).append (.mark_cons _ .nil)
  | reserve type name => exact Silent.append holds.1 (Silent.append holds.2 (.mark_cons _ .nil))
  | comment | placeholder => exact .cons (by simp) .nil
  | openBlock | close => exact .mark_cons _ .nil
  | openIf test | openWhile test => exact .call_cons _ (tested holds)
  | openBranch test => exact .fixed_cons (by decide) (tested holds)
  | nextBranch test => exact .mark_cons _ (.fixed_cons (by decide) (.fixed_cons (by decide) (tested holds)))
  | lastBranch => exact .mark_cons _ (.fixed_cons (by decide) (.mark_cons _ .nil))
  | openFor counter bound =>
    have counted : Silent names button [word counter.toList] := holds.1
    refine .call_cons _ (.mark_cons _ (.fixed_cons (by decide) (counted.append (.mark_cons _ ?_))))
    refine .fixed_cons (by decide) (.mark_cons _ (counted.append (.mark_cons _ ?_)))
    refine (Expr.Holds.silent bound holds.2).append (.mark_cons _ (counted.append ?_))
    exact .mark_cons _ (.mark_cons _ (.mark_cons _ .nil))
  | verbatim _ => exact holds.elim

/-! Plain code. -/

def Reserved (text : String) : Prop := text = "app" ∨ "app_button_cb_".toList <+: text.toList

instance : DecidablePred Reserved := fun _ => inferInstanceAs (Decidable (_ ∨ _))

theorem reserved_callback (number : Nat) : Reserved (callback number) := by
  refine .inr ?_
  rw [callback, String.toList_append]
  exact List.prefix_append _ _

def Free (text : String) : Prop := isIdentifier text = true ∧ ¬ Reserved text

instance : DecidablePred Free := fun _ => inferInstanceAs (Decidable (_ ∧ _))

def Granted (names : List String) (text : String) : Prop :=
  isIdentifier text = true ∧ (Reserved text → text ∈ names)

@[simp] theorem granted_of_free {text : String} (free : Free text) : Granted names text :=
  ⟨free.1, fun reserved => absurd reserved free.2⟩

/-- The functions that neither start an output nor set up a pin. -/
def Harmless (function : String) : Prop :=
  isIdentifier function = true ∧ function ≠ "furi_hal_pwm_start" ∧ function ≠ "furi_hal_gpio_init"

instance : DecidablePred Harmless := fun _ => inferInstanceAs (Decidable (_ ∧ _))

def PlainType (text : String) : Prop := (isIdentifier text = true ∨ text = "void*") ∧ ¬ Reserved text

instance : DecidablePred PlainType := fun _ => inferInstanceAs (Decidable (_ ∧ _))

theorem Granted.silent_cons {text : String} {rest : List Token} (granted : Granted names text)
    (silent : Silent names button rest) : Silent names button (word text.toList :: rest) := by
  refine silent.word_cons (fun free same => free ?_) fun free same => free ?_
  · obtain rfl : text = "app" := String.toList_inj.1 same
    exact granted.2 (.inl rfl)
  · obtain rfl := String.toList_inj.1 same
    exact granted.2 (reserved_callback button)

/-- The atoms of code that can be read, starts no output, sets up no pin, counts no loop, reaches into nothing
but the application, and has the reserved names for variables only. -/
def Atom.Plain (names : List String) : Atom → Prop
  | number digits => isNumeral digits.toList = true
  | name text => Granted names text
  | member object field => object = "app" ∧ Granted names field
  | type text => PlainType text
  | call function => Harmless function
  | counter _ => False
  | remark text => '*' ∉ text.toList ∧ '\n' ∉ text.toList ∧ '\r' ∉ text.toList

private theorem silent_numberTokens {digits : String} (numeral : isNumeral digits.toList = true) :
    Silent names button (numberTokens digits.toList) := by
  have number : (unsigned digits.toList).head? ≠ some 'a' := by
    intro same
    rw [isNumeral, same] at numeral
    simp at numeral
  unfold unsigned at number
  unfold numberTokens
  split at number
  · exact .mark_cons _ (.fixed_cons number .nil)
  · exact .fixed_cons number .nil

theorem silent_member {object field : String} (known : object = "app" ∨ object = "event")
    (granted : Granted names field) :
    Silent names button [word object.toList, mark ['-', '>'], word field.toList] := by
  have apart : word object.toList ≠ word (callback button).toList := by
    rcases known with rfl | rfl <;> simp [callback]
  have rest : Silent names button [mark ['-', '>'], word field.toList] :=
    .mark_cons _ (granted.silent_cons .nil)
  exact ⟨fun free => .cons (fun _ => Or.inl (by simp)) (rest.app free),
    fun free => .cons (fun same => absurd same apart) (rest.function free)⟩

variable {atom : Atom}

theorem Atom.Plain.silent (plain : atom.Plain names) : atom.Silent names button := by
  cases atom with
  | number => exact silent_numberTokens plain
  | name => exact plain.silent_cons .nil
  | member => exact silent_member (.inl plain.1) plain.2
  | type text =>
    change C.Silent names button (Expr.typeTokens text)
    unfold Expr.typeTokens
    split
    · exact .fixed_cons (by decide) (.mark_cons _ .nil)
    · rename_i other
      exact (granted_of_free ⟨plain.1.resolve_right other, plain.2⟩).silent_cons .nil
  | counter => exact plain.elim
  | call | remark => trivial

theorem Atom.Plain.spelled (plain : atom.Plain names) : atom.Spelled := by
  cases atom with
  | number | remark => exact plain
  | name => exact plain.1
  | member object field =>
    obtain ⟨rfl, granted⟩ := plain
    exact ⟨by decide, granted.1⟩
  | type => exact plain.1
  | call => exact plain.1
  | counter => exact plain.elim

theorem Atom.Plain.ordinary (plain : atom.Plain names) (phase : Phase) : atom.Ordinary phase.objects := by
  cases atom with
  | member object field =>
    obtain ⟨rfl, _⟩ := plain
    exact phase.app_mem_objects
  | call => exact plain.2.2
  | _ => trivial

namespace Expr

def Plain (names : List String) (e : Expr) : Prop := e.Holds (Atom.Plain names)

variable {e left right : Expr} {list : List Expr}

theorem Plain.silent (plain : e.Plain names) : C.Silent names button e.tokens :=
  Holds.silent e (plain.imp fun _ => Atom.Plain.silent)

theorem Plain.spelled (plain : e.Plain names) : e.Holds Atom.Spelled := plain.imp fun _ => Atom.Plain.spelled

theorem Plain.ordinary (plain : e.Plain names) (phase : Phase) : e.Ordinary phase.objects :=
  plain.imp fun _ plain => plain.ordinary phase

theorem Plain.not_mem_calls (plain : e.Plain names) : "furi_hal_pwm_start" ∉ e.calls :=
  fun called => (Holds.call e plain _ called).2.1 rfl

private theorem holdAll_plain : HoldAll (Atom.Plain names) list ↔ ∀ e ∈ list, e.Plain names := by
  induction list with
  | nil => simp [HoldAll]
  | cons first rest ih => simp only [HoldAll, ih, List.forall_mem_cons, Plain]

@[simp] theorem plain_number (digits : String) :
    (number digits).Plain names ↔ isNumeral digits.toList = true := Iff.rfl

@[simp] theorem plain_quoted (contents : String) : (quoted contents).Plain names := trivial

@[simp] theorem plain_truth (value : Bool) : (truth value).Plain names := trivial

@[simp] theorem plain_nul : nul.Plain names := trivial

@[simp] theorem plain_name (text : String) : (name text).Plain names ↔ Granted names text := Iff.rfl

@[simp] theorem plain_member (object field : String) : (member object field).Plain names ↔
    object = "app" ∧ Granted names field := Iff.rfl

@[simp] theorem plain_unary {op : UnaryOp} (other : op ≠ .address) :
    (unary op e).Plain names ↔ e.Plain names :=
  ⟨And.right, fun plain => ⟨fun address => absurd address other, plain⟩⟩

@[simp] theorem plain_address : (unary .address e).Plain names ↔ e.isPlace = true ∧ e.Plain names :=
  ⟨fun plain => ⟨plain.1 rfl, plain.2⟩, fun both => ⟨fun _ => both.1, both.2⟩⟩

@[simp] theorem plain_binary (op : BinaryOp) :
    (binary op left right).Plain names ↔ left.Plain names ∧ right.Plain names := Iff.rfl

@[simp] theorem plain_conditional : (conditional e left right).Plain names ↔
    e.Plain names ∧ left.Plain names ∧ right.Plain names := Iff.rfl

@[simp] theorem plain_group : e.group.Plain names ↔ e.Plain names := Iff.rfl

@[simp] theorem plain_call (function : String) : (Expr.call function list).Plain names ↔
    Harmless function ∧ ∀ e ∈ list, e.Plain names :=
  and_congr_right fun _ => holdAll_plain

@[simp] theorem plain_cast (type : String) :
    (cast type e).Plain names ↔ PlainType type ∧ e.Plain names := Iff.rfl

@[simp] theorem plain_castGroup (type : String) :
    (e.castGroup type).Plain names ↔ PlainType type ∧ e.Plain names := Iff.rfl

@[simp] theorem plain_sizeOf : e.sizeOf.Plain names ↔ e.Plain names := by simp +decide [sizeOf]

@[simp] theorem plain_ofNat (n : Nat) : (ofNat n).Plain names := isNumeral_toString n

@[simp] theorem plain_index (array : String) :
    (index array e).Plain names ↔ Granted names array ∧ e.Plain names := Iff.rfl

@[simp] theorem plain_assign (op : AssignOp) :
    (assign op left right).Plain names ↔ left.Plain names ∧ right.Plain names := Iff.rfl

@[simp] theorem plain_increment : (increment e).Plain names ↔ e.isPlace = true ∧ e.Plain names := Iff.rfl

@[simp] theorem plain_declare (type label : String) : (declare type label e).Plain names ↔
    PlainType type ∧ Granted names label ∧ e.Plain names := Iff.rfl

@[simp] theorem plain_operand (context : Level) : (e.operand context).Plain names ↔ e.Plain names := by
  unfold operand
  split <;> rfl

@[simp] theorem plain_rightOperand (context : Level) :
    (e.rightOperand context).Plain names ↔ e.Plain names := by
  unfold rightOperand
  split <;> rfl

@[simp] theorem plain_symbol (pin : Pin) : pin.symbol.Plain names := by
  refine plain_address.2 ⟨rfl, granted_of_free ?_⟩
  cases pin <;> decide

end Expr

namespace Line

def counter? : Line → Option String
  | openFor counter _ => some counter
  | _ => none

/-- A line that starts no output and no loop, and that hands over no function, unless variables have the names
for it. -/
structure Inert (names : List String) (line : Line) : Prop where
  starts : "furi_hal_pwm_start" ∉ line.calls
  silent : ∀ button, Silent names button line.tokens
  once : line.counter? = none

structure Plain (names : List String) (phase : Phase) (line : Line) : Prop extends Inert names line where
  ordinary : line.Ordinary phase.objects

variable {phase : Phase} {line : Line} {test action : Expr}

theorem plain_of_holds (plain : line.Holds (Atom.Plain names)) (once : line.counter? = none) :
    line.Plain names phase where
  starts called := by
    rcases Holds.call plain called with keyword | call
    · exact absurd keyword (by decide)
    · exact call.2.1 rfl
  silent _ := Holds.silent (plain.imp fun _ => Atom.Plain.silent)
  once := once
  ordinary := plain.imp fun _ plain => plain.ordinary phase

@[simp] theorem plain_run (plain : action.Plain names) : (run action).Plain names phase :=
  plain_of_holds plain rfl

@[simp] theorem plain_guarded (first : test.Plain names) (second : action.Plain names) :
    (guarded test action).Plain names phase :=
  plain_of_holds ⟨first, second⟩ rfl

@[simp] theorem plain_reserve {type name : String} (first : PlainType type)
    (second : Free name) : (reserve type name).Plain names phase :=
  plain_of_holds ⟨first, granted_of_free second⟩ rfl

@[simp] theorem plain_comment (text : String) : (comment text).Plain names phase := plain_of_holds trivial rfl

@[simp] theorem plain_placeholder (kind : String) : (placeholder kind).Plain names phase :=
  plain_of_holds trivial rfl

@[simp] theorem plain_openBlock : openBlock.Plain names phase := plain_of_holds trivial rfl

@[simp] theorem plain_lastBranch : lastBranch.Plain names phase := plain_of_holds trivial rfl

@[simp] theorem plain_close : close.Plain names phase := plain_of_holds trivial rfl

@[simp] theorem plain_openIf (plain : test.Plain names) : (openIf test).Plain names phase :=
  plain_of_holds plain rfl

@[simp] theorem plain_openBranch (plain : test.Plain names) : (openBranch test).Plain names phase :=
  plain_of_holds plain rfl

@[simp] theorem plain_nextBranch (plain : test.Plain names) : (nextBranch test).Plain names phase :=
  plain_of_holds plain rfl

@[simp] theorem plain_openWhile (plain : test.Plain names) : (openWhile test).Plain names phase :=
  plain_of_holds plain rfl

theorem inert_setup (setup : PinSetup) : setup.line.Inert names where
  starts := by simp [PinSetup.line, Pin.symbol]
  silent button := by
    have mode : Free setup.mode.symbol := by cases setup.mode <;> decide
    have pull : Free setup.pull.symbol := by cases setup.pull <;> decide
    have arguments : Expr.HoldAll (Atom.Plain names)
        [setup.pin.symbol, .name setup.mode.symbol, .name setup.pull.symbol, .name "GpioSpeedVeryHigh"] :=
      Expr.holdAll_plain.2 (by simp +decide [mode, pull])
    exact (Expr.silent_call _ (Expr.HoldAll.silent_list _
      (arguments.imp fun _ => Atom.Plain.silent))).append (.mark_cons _ .nil)
  once := rfl

/-! Lines with words from the fields of blocks, which may be any words. -/

variable {before more : List Expr} {function : String} {frequency duty : Expr}

private theorem silent_before {rest : List Expr} (plain : ∀ e ∈ before, e.Plain names)
    (later : Silent names button (Expr.listTokens rest)) :
    Silent names button (Expr.listTokens (before ++ rest)) := by
  induction before with
  | nil => exact later
  | cons first before ih =>
    obtain ⟨here, others⟩ := List.forall_mem_cons.1 plain
    rw [List.cons_append]
    cases others : before ++ rest with
    | nil => exact here.silent
    | cons second more => exact here.silent.append ((others ▸ ih ‹_›).mark_cons _)

private theorem goesOn (argument : Expr) (rest : List Token) :
    Diverges (argument.tokens ++ mark [','] :: rest) [word ['a', 'p', 'p'], mark [')']] := by
  have nested := argument.nest_tokens [] []
  rw [List.append_nil] at nested
  generalize argument.tokens = own at nested ⊢
  rcases own with _ | ⟨start, _ | ⟨next, rest⟩⟩
  · exact .inl (by simp)
  · exact .inr (.inl (by simp))
  · by_cases app : start = word ['a', 'p', 'p']
    · refine .inr (.inl ?_)
      rintro rfl
      simp [app, nest, isOpener, opener?] at nested
    · exact .inl app

private theorem silent_symbols (symbols : List String) {first second : Expr}
    (later : Silent names button (Expr.listTokens (first :: second :: more))) :
    Silent names button (Expr.listTokens (symbols.map Expr.name ++ first :: second :: more)) := by
  induction symbols with
  | nil => exact later
  | cons symbol symbols ih =>
    obtain ⟨head, next, tail, split⟩ : ∃ head next tail,
        symbols.map Expr.name ++ first :: second :: more = head :: next :: tail := by
      rcases symbols with _ | ⟨_, _ | ⟨_, rest⟩⟩ <;> exact ⟨_, _, _, rfl⟩
    rw [split] at ih
    rw [List.map_cons, List.cons_append, split]
    exact ih.listed _ (goesOn head _)

theorem plain_symbols {next last : Expr} (symbols : List String) (other : Harmless function)
    (first : ∀ e ∈ before, e.Plain names) (second : ∀ e ∈ next :: last :: more, e.Plain names) :
    (run (.call function (before ++ (symbols.map Expr.name ++ next :: last :: more)))).Plain names phase where
  starts called := by
    have uncalled {list : List Expr} (plain : ∀ e ∈ list, e.Plain names) :
        "furi_hal_pwm_start" ∉ Expr.callsOf list := fun member => by
      obtain ⟨e, there, called⟩ := List.mem_flatMap.1 member
      exact (plain e there).not_mem_calls called
    have none : Expr.callsOf (symbols.map Expr.name) = [] := by simp [Expr.callsOf, List.flatMap_map]
    simp only [calls_run, Expr.calls_call, Expr.callsOf_append, none, List.nil_append, List.mem_cons,
      List.mem_append] at called
    rcases called with same | inFirst | inSecond
    · exact other.2.1 same.symm
    · exact uncalled first inFirst
    · exact uncalled second inSecond
  silent button := by
    have after : Silent names button (Expr.listTokens (next :: last :: more)) :=
      Expr.HoldAll.silent_list _ ((Expr.holdAll_plain.2 second).imp fun _ => Atom.Plain.silent)
    have all := silent_before first (silent_symbols symbols after)
    exact (Expr.silent_call function all).append (.mark_cons _ .nil)
  once := rfl
  ordinary := by
    simp only [ordinary_run, Expr.ordinary_call, List.forall_mem_append, List.forall_mem_map]
    exact ⟨other.2.2, fun e member => (first e member).ordinary phase, fun _ _ => trivial,
      fun e member => (second e member).ordinary phase⟩

theorem plain_notification (sequence : String) : (run (.call "notification_message"
      [.member "app" "notif", .unary .address (.name sequence)])).Plain names phase where
  starts := by simp
  silent button := by
    have notif : Granted names "notif" := granted_of_free (by decide)
    refine .call_cons _ (.mark_cons _ ((silent_member (.inl rfl) notif).append (.mark_cons _ ?_)))
    exact (Silent.between (by decide) (by decide) sequence.toList).append (.mark_cons _ .nil)
  once := rfl
  ordinary := by simp [Expr.isPlace]

theorem plain_keyTest (type key : String) :
    (openIf (.binary .and (.binary .equal (.member "event" "type") (.name type))
      (.binary .equal (.member "event" "key") (.name key)))).Plain names .input where
  starts := by simp
  silent button := by
    have field {name : String} (free : Free name) :
        Silent names button [word "event".toList, mark ['-', '>'], word name.toList] :=
      silent_member (.inr rfl) (granted_of_free free)
    have compared {after : List Char} (other : after ≠ [',']) (text : List Char) :
        Silent names button [mark ['=', '='], word text, mark after] :=
      .between (by decide) other text
    refine .call_cons _ (.mark_cons _ ?_)
    exact ((field (by decide)).append (compared (by decide) _)).append
      ((field (by decide)).append ((compared (by decide) _).append (.mark_cons _ .nil)))
  once := rfl
  ordinary := by simp [Phase.objects]

/-! Lines that start an output. -/

def starting (output : PwmOutput) (frequency duty : Expr) : Line :=
  run (.call "furi_hal_pwm_start" [.name output.channel, frequency, duty])

private theorem call_not_mem {list : List Token}
    (absent : function ∉ callsIn list) : call function.toList ∉ list := by
  intro member
  refine absent (List.mem_filterMap.2 ⟨_, member, ?_⟩)
  simp

theorem Inert.occurrences_start (inert : line.Inert names) (output : PwmOutput) :
    occurrences (startRun output) line.tokens = 0 :=
  occurrences_of_not_mem List.mem_cons_self (call_not_mem inert.starts)

theorem occurrences_start_openFor (plain : test.Plain names) (counter : String) (output : PwmOutput) :
    occurrences (startRun output) (openFor counter test).tokens = 0 := by
  refine occurrences_of_not_mem List.mem_cons_self (call_not_mem ?_)
  have keyword : "furi_hal_pwm_start" ≠ "for" := by decide
  change _ ∉ (openFor counter test).calls
  simp [plain.not_mem_calls, keyword]

theorem occurrences_starting (first : frequency.Plain names)
    (second : duty.Plain names) (output other : PwmOutput) :
    occurrences (startRun output) (starting other frequency duty).tokens =
      if output = other then 1 else 0 := by
  -- Behind the first token the call does not come again.
  let rest := mark ['('] :: word other.channel.toList :: mark [','] ::
    (frequency.tokens ++ mark [','] :: (duty.tokens ++ [mark [')'], mark [';']]))
  have split : (starting other frequency duty).tokens =
      call "furi_hal_pwm_start".toList :: rest := by
    simp [starting, tokens, Expr.tokens, Expr.listTokens, rest]
  have later : occurrences (startRun output) rest = 0 := by
    refine occurrences_of_not_mem List.mem_cons_self ?_
    have inFirst := call_not_mem first.not_mem_calls
    have inSecond := call_not_mem second.not_mem_calls
    simp_all [rest]
  rw [split, occurrences, later, Nat.add_zero]
  cases output <;> cases other <;> simp [startRun, rest, PwmOutput.channel]

theorem ordinary_starting (first : frequency.Plain names)
    (second : duty.Plain names) (output : PwmOutput) (phase : Phase) :
    (starting output frequency duty).Ordinary phase.objects := by
  simp [starting, first.ordinary phase, second.ordinary phase]

theorem silent_starting (first : frequency.Plain names) (second : duty.Plain names) (output : PwmOutput) :
    Silent names button (starting output frequency duty).tokens := by
  have channel : Free output.channel := by cases output <;> decide
  have arguments : Silent names button (Expr.listTokens [.name output.channel, frequency, duty]) :=
    (granted_of_free channel).silent_cons
      ((first.silent.append (second.silent.mark_cons _)).mark_cons _)
  exact (Expr.silent_call _ arguments).append (.mark_cons _ .nil)

theorem silent_openFor {counter : String} (plain : test.Plain names) (free : Free counter) :
    Silent names button (openFor counter test).tokens :=
  Holds.silent ⟨(granted_of_free free).silent_cons .nil, plain.imp fun _ => Atom.Plain.silent⟩

/-! Lines that hand over what a button does. -/

def registering (type : String) (label : Expr) (number : Nat) : Line :=
  run (.call "widget_add_button_element"
    [.member "app" "widget", .name type, label, .name (callback number), .name "app"])

section

variable {label : Expr} (plain : label.Plain names) (type : String) (number : Nat)

include plain

theorem occurrences_start_registering (output : PwmOutput) :
    occurrences (startRun output) (registering type label number).tokens = 0 := by
  refine occurrences_of_not_mem List.mem_cons_self (call_not_mem ?_)
  have other : "furi_hal_pwm_start" ≠ "widget_add_button_element" := by decide
  change _ ∉ (registering type label number).calls
  simp [registering, plain.not_mem_calls, other]

theorem ordinary_registering (phase : Phase) : (registering type label number).Ordinary phase.objects := by
  simp [registering, plain.ordinary phase]

omit plain in
private theorem tokens_registering (label : Expr) : (registering type label number).tokens =
      call "widget_add_button_element".toList :: mark ['('] ::
        ([word "app".toList, mark ['-', '>'], word "widget".toList] ++ mark [','] ::
          (word type.toList :: mark [','] :: (label.tokens ++ [mark [',']]))) ++ registrationRun number := by
  simp [registering, tokens, Expr.tokens, Expr.listTokens, registrationRun]

theorem occurrences_registering (other : Nat) (distinct : "app" ∈ names → callback other ∉ names) :
    occurrences (registrationRun other) (registering type label number).tokens =
      if other = number then 1 else 0 := by
  rw [tokens_registering]
  refine Silent.occurrences_registration distinct ?_ number
  have widget : Granted names "widget" := granted_of_free (by decide)
  refine .call_cons _ (.mark_cons _ ((silent_member (.inl rfl) widget).append (.mark_cons _ ?_)))
  exact (plain.silent.append (.mark_cons _ .nil)).listed _ (goesOn label [])

omit plain in
theorem occurrences_registering_pos (label : Expr) :
    0 < occurrences (registrationRun number) (registering type label number).tokens := by
  rw [tokens_registering]
  exact occurrences_pos (List.prefix_refl _) (List.cons_ne_nil _ _)

end

end Line

namespace Code

def Plain (names : List String) (phase : Phase) (code : Code) : Prop :=
  ∀ line ∈ code.lines, line.Plain names phase

variable {phase : Phase} {a b code : Code} {line : Line}

@[simp] theorem plain_nil : Plain names phase [] := by simp [Plain]

@[simp] theorem plain_append : Plain names phase (a ++ b) ↔ Plain names phase a ∧ Plain names phase b := by
  simp only [Plain, lines_append, Multiset.mem_add, or_imp, forall_and]

@[simp] theorem plain_line : Plain names phase (Code.line line) ↔ line.Plain names phase := by simp [Plain]

@[simp] theorem plain_run {action : Expr} : Plain names phase (Code.run action) ↔ (Line.run action).Plain names phase :=
  plain_line

@[simp] theorem plain_comment (text : String) : Plain names phase (Code.comment text) :=
  plain_line.2 (Line.plain_comment text)

@[simp] theorem plain_ofLines {list : List Line} :
    Plain names phase (ofLines list) ↔ ∀ line ∈ list, line.Plain names phase := by
  simp [Plain]

@[simp] theorem plain_inset : Plain names phase code.inset ↔ Plain names phase code := by simp [Plain]

@[simp] theorem plain_framed :
    Plain names phase (framed line code) ↔ line.Plain names phase ∧ Plain names phase code := by
  simp [framed]

theorem orderly_iff {objects : List String} :
    code.Orderly objects ↔ ∀ line ∈ code.lines, line.Orderly objects := by
  simp [Orderly, lines]

theorem Plain.orderly (plain : Plain names phase code) : code.Orderly phase.objects :=
  orderly_iff.2 fun line member => .inr (plain line member).ordinary

end Code

end FlipperBlocks.C
