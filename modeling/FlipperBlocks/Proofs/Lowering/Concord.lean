import FlipperBlocks.Proofs.Lowering.PinRequests
import FlipperBlocks.Proofs.Lowering.Reads
import FlipperBlocks.Proofs.Lowering.Standards

/-! What a block hands on.

Many properties of lowering are of one form: they relate two runs of it, with blocks that differ in their ids or in
what their inputs mean, or they are about one run; and they hold of a block because they hold of the steps that it is
lowered by. Such a property may speak about the expressions and the code that steps give. -/
namespace FlipperBlocks

open C.Identifier
open C (Atom Code Expr Free Harmless PlainType Use)
open C.Identifier (isIdentifier)
open Lowering

def BlockHead.variableNames (head : BlockHead) : List String :=
  match head.kind with
  | .getVariable | .setVariable | .changeVariable => [sanitize (head.fieldOr "VAR" fallback)]
  | _ => []

theorem BlockHead.mem_variableNames {head : BlockHead}
    (kind : head.kind ∈ [.getVariable, .setVariable, .changeVariable]) :
    sanitize (head.fieldOr "VAR" fallback) ∈ head.variableNames := by
  simp only [List.mem_cons, List.not_mem_nil, or_false] at kind
  unfold variableNames
  rcases kind with kind | kind | kind <;> rw [kind] <;> exact List.mem_singleton_self _

def symbolFields : List String := ["HALIGN", "VALIGN", "BTN", "SEQ", "TYPE", "KEY"]

def BlockHead.symbolNames (head : BlockHead) : List String :=
  (head.fields.filter fun field => field.1 ∈ symbolFields).map fun field => field.2.toText

def Degradation.kind? : Degradation → Option String
  | unknownKind kind | valueAsStatement kind | statementAsValue kind | wrongPhase kind _
  | detached kind => some kind
  | _ => none

/-! Names that are free. -/

theorem Draft.free_numbered {stem : String} (named : isIdentifier stem = true)
    (other : stem.toList.head? ≠ some 'a') (number : Nat) : Free (Draft.numbered stem number) := by
  have start : (Draft.numbered stem number).toList.head? ≠ some 'a' := by
    rw [Draft.numbered, String.append_assoc, String.toList_append, List.head?_append]
    cases found : stem.toList.head? with
    | none => simp
    | some c => rwa [found] at other
  refine ⟨isIdentifier_numbered named number, ?_⟩
  rintro (same | starts)
  · exact start (same ▸ rfl)
  · obtain ⟨rest, whole⟩ := starts
    exact start (whole ▸ rfl)

theorem PwmOutput.free_state {output : PwmOutput} {storage : Storage}
    (remembered : storage ∈ output.states) : Free storage.name := by
  revert storage
  cases output <;> decide

theorem GeneratedName.free {name : String} (generated : GeneratedName name) : Free name := by
  cases generated with
  | buffer shared =>
    have each : ∀ name ∈ ["display_buffer", "storage_buffer"], Free name := by decide
    exact each name shared
  | @numbered stem listed number =>
    have each : ∀ stem ∈ generatedStems,
        C.Identifier.isIdentifier stem = true ∧ stem.toList.head? ≠ some 'a' := by decide
    exact Draft.free_numbered (each stem listed).1 (each stem listed).2 number
  | state remembered => exact PwmOutput.free_state remembered

/-! What is asked of code while it is lowered. -/

/-- What is asked of the code of a program: of its atoms, and of what it does with storage in a phase. What may be done
once may be done later on too. Anything may be asked of slots, but plain atoms, storage that is no slot and the names
that the program gives are to be had. -/
structure Rules where
  moves : Draft → Draft → Prop
  isVariable : String → Prop
  isSymbol : String → Prop
  atom : Atom → Prop
  permits : Phase → Draft → Use → Prop
  /-- There are to be no comments. -/
  clear : Prop
  stays {phase : Phase} {a b : Draft} {use : Use} : moves a b → permits phase a use → permits phase b use
  plain {atom' : Atom} : atom'.Plain [] → atom atom'
  named {name : String} : isVariable name → isIdentifier name = true →
    atom (.name name) ∧ atom (.member "app" name)
  reads {phase : Phase} {draft : Draft} {name : String} : ¬ SlotName name ∨ isVariable name →
    permits phase draft (.read name)
  fills {phase : Phase} {draft : Draft} {name text : String} : isVariable name → fetchesBlock text = false →
    permits phase draft (.fill name text)

namespace Rules

variable {rules : Rules} {phase : Phase} {draft : Draft}

def value (rules : Rules) (phase : Phase) (draft : Draft) : C.Standard :=
  ⟨rules.atom, rules.permits phase draft, rules.clear⟩

/-- What is asked of code, which may also read the constants that fields name. -/
def code (rules : Rules) (phase : Phase) (draft : Draft) : C.Standard where
  atom _ := True
  use use := rules.permits phase draft use ∨ ∃ name, rules.isSymbol name ∧ use = .read name
  clear := rules.clear

@[simp] theorem clear_value : (rules.value phase draft).clear = rules.clear := rfl

@[simp] theorem atom_number {digits : String} (numeral : C.isNumeral digits.toList = true) :
    (rules.value phase draft).atom (.number digits) :=
  rules.plain numeral

@[simp] theorem atom_repr (n : Nat) : (rules.value phase draft).atom (.number n.repr) :=
  rules.plain (C.isNumeral_toString n)

@[simp] theorem atom_call {function : String} (harmless : Harmless function) :
    (rules.value phase draft).atom (.call function) :=
  rules.plain harmless

@[simp] theorem atom_type {text : String} (plain : PlainType text) :
    (rules.value phase draft).atom (.type text) :=
  rules.plain plain

abbrev Names (rules : Rules) (text : String) : Prop := rules.atom (.name text) ∧ rules.atom (.member "app" text)

theorem named_of_free {text : String} (free : Free text) : rules.Names text :=
  ⟨rules.plain (C.granted_of_free free), rules.plain ⟨rfl, C.granted_of_free free⟩⟩

@[simp] theorem atom_name {text : String} (free : Free text) : (rules.value phase draft).atom (.name text) :=
  (rules.named_of_free free).1

@[simp] theorem atom_remark {text : String} (plain : '*' ∉ text.toList ∧ '\n' ∉ text.toList ∧ '\r' ∉ text.toList) :
    (rules.value phase draft).atom (.remark text) :=
  rules.plain plain

theorem use_read {name : String} (other : name.toList.take 2 ∉ slotStarts) : rules.permits phase draft (.read name) :=
  rules.reads (.inl fun slot => other slot.start)

@[simp] theorem value_use_read {name : String} (other : name.toList.take 2 ∉ slotStarts) :
    (rules.value phase draft).use (.read name) :=
  use_read other

@[simp] theorem code_atom (atom : Atom) : (rules.code phase draft).atom atom := trivial

@[simp] theorem code_use_read {name : String} (other : name.toList.take 2 ∉ slotStarts) :
    (rules.code phase draft).use (.read name) :=
  .inl (use_read other)

theorem use_pin (pin : Pin) : rules.permits phase draft (.read pin.object) :=
  rules.reads (.inl fun slot => by cases pin <;> exact absurd slot.start (by decide))

@[simp] theorem meets_symbol (pin : Pin) : pin.symbol.Meets (rules.value phase draft) :=
  Expr.meets_unary.2 ⟨fun _ => rfl,
    Expr.meets_name.2 ⟨rules.plain (C.granted_of_free (by cases pin <;> decide)), use_pin pin⟩⟩

end Rules

section

variable {rules : Rules} {phase : Phase} {a b draft : Draft}

theorem C.Expr.Meets.stays {e : Expr} (meets : e.Meets (rules.value phase a)) (moves : rules.moves a b) :
    e.Meets (rules.value phase b) :=
  ⟨meets.atoms, meets.uses.imp fun _ => rules.stays moves, meets.clear⟩

theorem C.Expr.Meets.allowed {e : Expr} (meets : e.Meets (rules.value phase draft)) :
    e.Meets (rules.code phase draft) :=
  ⟨meets.atoms.imp fun _ _ => trivial, meets.uses.imp fun _ => .inl, meets.clear⟩

theorem C.Code.Meets.stays {code : Code} (meets : code.Meets (rules.code phase a)) (moves : rules.moves a b) :
    code.Meets (rules.code phase b) :=
  ⟨meets.atoms, meets.uses.imp fun _ => .imp_left (rules.stays moves), meets.clear, meets.composed⟩

structure Value.Meets (standard : C.Standard) (value : Value) : Prop where
  expr : value.expr.Meets standard
  array : ∀ array, value.array = some array → (Expr.name array).Meets standard ∧ standard.use (.size array)

namespace Value.Meets

theorem stays {value : Value} (meets : value.Meets (rules.value phase a)) (moves : rules.moves a b) :
    value.Meets (rules.value phase b) :=
  ⟨meets.expr.stays moves, fun array found => (meets.array array found).imp (·.stays moves) (rules.stays moves)⟩

theorem allowed {value : Value} (meets : value.Meets (rules.value phase draft)) :
    value.expr.Meets (rules.code phase draft) :=
  meets.expr.allowed

theorem of_expr {expr : Expr} {kind : ValueKind} (meets : expr.Meets (rules.value phase draft)) :
    (Value.mk expr kind none).Meets (rules.value phase draft) :=
  ⟨meets, fun _ found => by simp at found⟩

theorem number {digits : String} (numeral : C.isNumeral digits.toList = true) :
    (Value.number digits).Meets (rules.value phase draft) :=
  .of_expr (Expr.meets_number.2 (Rules.atom_number numeral))

theorem text (contents : String) : (Value.text contents).Meets (rules.value phase draft) :=
  .of_expr (Expr.meets_quoted contents)

theorem truth (value : Bool) : (Value.truth value).Meets (rules.value phase draft) :=
  .of_expr (Expr.meets_truth value)

theorem bytes {array : String} (meets : (Expr.name array).Meets (rules.value phase draft))
    (sized : rules.permits phase draft (.size array)) : (Value.bytes array).Meets (rules.value phase draft) :=
  ⟨meets, fun _ same => Option.some.inj same ▸ ⟨meets, sized⟩⟩

end Value.Meets

theorem Storage.eq_bytes_of_array {storage : Storage} {array : String} (found : storage.value.array = some array) :
    ∃ length initial, storage = ⟨array, .bytes length initial⟩ := by
  obtain ⟨name, type⟩ := storage
  cases type with
  | bytes length initial => exact ⟨length, initial, Option.some.inj found ▸ rfl⟩
  | _ => contradiction

section

variable {storage : Storage} (named : rules.Names storage.name)
  (permitted : rules.permits phase draft (.read storage.name))

include named permitted

theorem Storage.meets_place : storage.place.Meets (rules.value phase draft) := by
  unfold Storage.place
  split
  · exact Expr.meets_member.2 ⟨named.2, permitted⟩
  · exact Expr.meets_name.2 ⟨named.1, permitted⟩

theorem Storage.meets_value (sized : storage.value.array = some storage.name →
    rules.permits phase draft (.size storage.name)) : storage.value.Meets (rules.value phase draft) := by
  refine ⟨storage.meets_place named permitted, fun array found => ?_⟩
  obtain ⟨length, initial, rfl⟩ := Storage.eq_bytes_of_array found
  exact ⟨Expr.meets_name.2 ⟨named.1, permitted⟩, sized found⟩

end

structure Lowering.Stream.Meets (standard : C.Standard) (stream : Stream) : Prop where
  array : (Expr.name stream.array).Meets standard ∧ standard.use (.size stream.array)
  read : ∀ read ∈ stream.read, read.Meets standard

theorem Lowering.Stream.Meets.ofValue? {value : Value} {stream : Stream} (meets : value.Meets (rules.value phase draft))
    (found : Stream.ofValue? value = some stream) : stream.Meets (rules.value phase draft) := by
  obtain ⟨array, isArray, rfl⟩ := Option.map_eq_some_iff.1 found
  refine ⟨meets.array array isArray, fun read member => ?_⟩
  split at member
  · contradiction
  · exact Option.some.inj member ▸ meets.expr

end

structure Fact (rules : Rules) where
  holds : Draft → Prop
  stays : ∀ {a b : Draft}, rules.moves a b → holds a → holds b

namespace Fact

variable {rules : Rules} {α : Type}

@[reducible] def of (fact : Prop) : Fact rules := ⟨fun _ => fact, fun _ => id⟩

@[reducible] def and (first second : Fact rules) : Fact rules where
  holds draft := first.holds draft ∧ second.holds draft
  stays moves both := ⟨first.stays moves both.1, second.stays moves both.2⟩

@[reducible] def ofSome (post : α → Fact rules) : Option α → Fact rules
  | some a => post a
  | none => .of True

theorem holds_ofSome {post : α → Fact rules} {found : Option α} {draft : Draft} :
    (ofSome post found).holds draft ↔ ∀ a ∈ found, (post a).holds draft := by
  cases found <;> simp

/-- What a result is said to be that is missing only if there may be comments. -/
@[reducible] def found (post : α → Fact rules) : Option α → Fact rules
  | some a => post a
  | none => .of (¬ rules.clear)

@[reducible] def expr (phase : Phase) (e : Expr) : Fact rules :=
  ⟨fun draft => e.Meets (rules.value phase draft), fun moves meets => meets.stays moves⟩

@[reducible] def value (phase : Phase) (value : Value) : Fact rules :=
  ⟨fun draft => value.Meets (rules.value phase draft), fun moves meets => meets.stays moves⟩

@[reducible] def sized (phase : Phase) (array : Option String) : Fact rules where
  holds draft := ∀ name, array = some name → rules.permits phase draft (.size name)
  stays moves permitted name same := rules.stays moves (permitted name same)

@[reducible] def stream (phase : Phase) (stream : Stream) : Fact rules where
  holds draft := stream.Meets (rules.value phase draft)
  stays moves meets := ⟨meets.array.imp (·.stays moves) (rules.stays moves),
    fun read member => (meets.read read member).stays moves⟩

@[reducible] def code (phase : Phase) (code : Code) : Fact rules :=
  ⟨fun draft => code.Meets (rules.code phase draft), fun moves meets => meets.stays moves⟩

end Fact

/-- Nothing is asked for but, perhaps, that there are no comments. -/
def Rules.lax (clear : Prop) : Rules where
  moves _ _ := True
  isVariable _ := True
  isSymbol _ := True
  atom _ := True
  permits _ _ _ := True
  clear := clear
  stays _ _ := trivial
  plain _ := trivial
  named _ _ := ⟨trivial, trivial⟩
  reads _ := trivial
  fills _ _ := trivial

abbrev C.Expr.Lax (clear : Prop) (e : Expr) : Prop := e.Meets ((Rules.lax clear).value .detached {})

abbrev Value.Lax (clear : Prop) (value : Value) : Prop := value.Meets ((Rules.lax clear).value .detached {})

namespace C.Expr

variable {clear : Prop}

end C.Expr

/-! Steps. -/

def Read.fetch (read : Read) : Lowering Value :=
  match read with
  | .number _ => do
    let buffer ← namedSlot read.key read.stem read.type
    deferred (read.action buffer) ⟨.name buffer, .text, none⟩
  | .shown _ => do
    let buffer ← sharedBuffer "display_buffer" 64
    return ⟨doing (read.action buffer) (.name buffer), .text, none⟩
  | .file _ => do
    let buffer ← sharedBuffer "storage_buffer" 1024
    deferred (read.action buffer) ⟨.name buffer, .text, none⟩
  | .climate quantity _ pin => do
    let storage ← readSlot read.key read.stem read.type
    deferred (.assign .set storage.place (.call quantity.reader [pin.symbol])) ⟨storage.place, .number, none⟩
  | .register width transfer index => do
    let storage ← readSlot read.key read.stem read.type
    deferred (transfer.call width.reader [byteArgument index, .unary .address storage.place])
      ⟨storage.place, .number, none⟩
  | .block .. => do
    let array ← namedSlot read.key read.stem read.type
    deferred (read.action array) (.bytes array)

/-- A relation between steps of lowering in a phase, told from what is known about the steps before, and with what is
then known about the result. -/
structure Bond (rules : Rules) where
  holds : {α : Type} → Phase → Fact rules → (α → Fact rules) → Lowering α → Lowering α → Prop
  pure {α : Type} {phase known} {post : α → Fact rules} {a : α} :
    (∀ draft, known.holds draft → (post a).holds draft) → holds phase known post (Pure.pure a) (Pure.pure a)
  bind {α β : Type} {phase known} {mid : α → Fact rules} {post : β → Fact rules}
    {a b : Lowering α} {f g : α → Lowering β} : holds phase known mid a b →
      (∀ x, holds phase (known.and (mid x)) post (f x) (g x)) → holds phase known post (a >>= f) (b >>= g)
  tentatively {α : Type} {phase known} {post : α → Fact rules} {a b : Lowering (Option α)} :
    holds phase known (Fact.ofSome post) a b →
      holds phase known (Fact.ofSome post) (Lowering.tentatively a) (Lowering.tentatively b)

/-- A step that is related to itself. -/
abbrev Bond.Keeps {rules : Rules} (R : Bond rules) {α : Type} (phase : Phase) (known : Fact rules)
    (post : α → Fact rules) (a : Lowering α) : Prop := R.holds phase known post a a

/-- Storage may be used in any way, and the steps that slots for reads come from are related to themselves. -/
structure Bond.Slots {rules : Rules} (R : Bond rules) (phase : Phase) : Prop where
  permitted {draft : Draft} (use : Use) : rules.permits phase draft use
  named {known : Fact rules} (read : Read) : R.Keeps phase known (fun slot => .of (rules.Names slot))
    (namedSlot read.key read.stem read.type)
  shared {known : Fact rules} {name : String} (size : Nat) : name ∈ ["display_buffer", "storage_buffer"] →
    R.Keeps phase known (fun slot => .of (rules.Names slot)) (sharedBuffer name size)
  read {known : Fact rules} (read : Read) : R.Keeps phase known (fun storage => .of (rules.Names storage.name))
    (readSlot read.key read.stem read.type)
  deferred {known : Fact rules} {read : Expr} {result : Value} :
    (∀ draft, known.holds draft → read.Meets (rules.value phase draft) ∧ result.Meets (rules.value phase draft)) →
      R.Keeps phase known (Fact.value phase) (Lowering.deferred read result)

theorem Bond.Slots.fetch {rules : Rules} {R : Bond rules} {phase : Phase} {known : Fact rules} (slots : R.Slots phase)
    (read : Read) (meets : ∀ draft, known.holds draft → ∀ e ∈ read.inputs, e.Meets (rules.value phase draft)) :
    R.holds phase known (Fact.value phase) read.fetch read.fetch := by
  have any (draft : Draft) (use : Use) : (rules.value phase draft).use use := slots.permitted use
  have called (draft : Draft) {function : String} {list : List Expr} := @Expr.meets_call_of_lenient
    (rules.value phase draft) list function (any draft)
  have place (draft : Draft) {storage : Storage} (named : rules.Names storage.name) :
      storage.place.Meets (rules.value phase draft) := storage.meets_place named (slots.permitted _)
  have transferred (draft : Draft) {transfer : Transfer} {function : String} {list : List Expr}
      (given : transfer.address.Meets (rules.value phase draft) ∧ transfer.timeout.Meets (rules.value phase draft)) :
      (transfer.call function list).Meets (rules.value phase draft) ↔
        (rules.value phase draft).atom (.call function) ∧ ∀ e ∈ list, e.Meets (rules.value phase draft) := by
    rw [Transfer.call, called]
    simp +decide [Transfer.device, Transfer.busNumber, Transfer.patience, given, or_imp, forall_and]
  cases read with
  | number value =>
    refine R.bind (slots.named (.number value)) fun slot => slots.deferred fun draft facts => ?_
    refine ⟨?_, .of_expr (Expr.meets_name.2 ⟨facts.2.1, any ..⟩)⟩
    simpa +decide [Read.action, printInto, called, any] using ⟨facts.2.1, meets draft facts.1 value (.head _)⟩
  | shown value =>
    refine R.bind (slots.shared 64 (by simp)) fun slot => R.pure fun draft facts => .of_expr ?_
    simpa +decide [doing, Read.action, printInto, called, any] using
      ⟨⟨facts.2.1, meets draft facts.1 value (.head _)⟩, facts.2.1⟩
  | file path =>
    refine R.bind (slots.shared 1024 (by simp)) fun slot => slots.deferred fun draft facts => ?_
    refine ⟨?_, .of_expr (Expr.meets_name.2 ⟨facts.2.1, any ..⟩)⟩
    simpa +decide [Read.action, called, any] using ⟨facts.2.1, meets draft facts.1 path (.head _)⟩
  | climate quantity measured pin =>
    have harmless : Harmless quantity.reader := by rcases List.mem_pair.1 measured with rfl | rfl <;> decide
    refine R.bind (slots.read (.climate quantity measured pin)) fun storage => slots.deferred fun draft facts => ?_
    exact ⟨Expr.meets_assign_set.2 ⟨(place draft facts.2).place, fun _ _ => any .., by simp [called, harmless]⟩,
      .of_expr (place draft facts.2)⟩
  | register width transfer index =>
    have harmless : Harmless width.reader := by cases width <;> decide
    refine R.bind (slots.read (.register width transfer index)) fun storage => slots.deferred fun draft facts => ?_
    obtain ⟨address, register, timeout⟩ : transfer.address.Meets _ ∧ index.Meets _ ∧ transfer.timeout.Meets _ := by
      simpa [Read.inputs] using meets draft facts.1
    refine ⟨(transferred draft ⟨address, timeout⟩).2 ⟨Rules.atom_call harmless, ?_⟩, .of_expr (place draft facts.2)⟩
    simp +decide [byteArgument, register, storage.isPlace_place, place draft facts.2]
  | block transfer memory length =>
    refine R.bind (slots.named (.block transfer memory length)) fun slot => slots.deferred fun draft facts => ?_
    obtain ⟨address, spot, timeout⟩ : transfer.address.Meets _ ∧ memory.Meets _ ∧ transfer.timeout.Meets _ := by
      simpa [Read.inputs] using meets draft facts.1
    have named : (Expr.name slot).Meets (rules.value phase draft) := Expr.meets_name.2 ⟨facts.2.1, any ..⟩
    refine ⟨(transferred draft ⟨address, timeout⟩).2 ⟨Rules.atom_call (by decide), ?_⟩, .bytes named (any ..)⟩
    simp +decide [byteArgument, spot, Expr.meets_name.1 named]

/-- A relation that is closed under everything that blocks are lowered by as values. -/
structure Concord (rules : Rules) (head : BlockHead) extends Bond rules where
  given {α : Type} {phase : Phase} {known more : Fact rules} {post : α → Fact rules} {a b : Lowering α} :
    (∀ draft, more.holds draft → known.holds draft) → holds phase known post a b → holds phase more post a b
  degrade {phase known} {degradation : Degradation} : degradation.isPinConflict = false →
    (degradation.kind? = none ∨ degradation.kind? = some head.kind.name) →
      toBond.Keeps phase known (fun _ => .of (¬ rules.clear)) (Lowering.degrade degradation)
  enable {phase known} (features : List Feature) :
    toBond.Keeps phase known (fun _ => .of True) (Lowering.enable features)
  configurePin {phase known} {setup : PinSetup} : head.setup? = some setup →
    setup.pull = .none →
      toBond.Keeps phase known (fun _ => .of True) (Lowering.configurePin setup)
  resolve {phase known} {name : String} : C.Identifier.Usable name →
    name ∈ head.variableNames → ∀ asText : Bool,
      toBond.Keeps phase known (fun storage => (Fact.of (storage.name = name)).and (.sized phase storage.value.array))
        (Lowering.declare ⟨name, if asText then .text 256 else .int⟩)
  state {phase known} {output : PwmOutput} {storage : Storage} : storage ∈ output.states →
    toBond.Keeps phase known (fun found => .of (found.name = storage.name)) (Lowering.declare storage)
  byteStream {phase known} (site : Site) :
    toBond.Keeps phase known (fun value => (Fact.of (∃ number, value = .bytes (Draft.numbered "byte_stream" number))).and
        (.sized phase value.array))
      (Lowering.byteStream site)
  fetch {phase known} (read : Read) :
    (∀ draft, known.holds draft → ∀ e ∈ read.inputs, e.Meets (rules.value phase draft)) →
      (∀ length, read.type = .bytes length none → 1 ≤ length ∧ length ≤ 64) →
        holds phase known (Fact.value phase) read.fetch read.fetch

/-- A relation that is also closed under what blocks are lowered by as statements. -/
structure CodeConcord (rules : Rules) (head : BlockHead) extends Concord rules head where
  currentPhase {phase known} :
    holds phase known (fun _ => .of True) Lowering.phase Lowering.phase
  inPhase {α : Type} {phase inner : Phase} {known : Fact rules} {post : α → Fact rules} {a b : Lowering α} :
    holds inner known post a b → holds phase known post (Lowering.inPhase inner a) (Lowering.inPhase inner b)
  usePwm {phase known} (output : PwmOutput) :
    toConcord.Keeps phase known (fun _ => .of True) (Lowering.usePwm output)
  usePin {phase known} (pin : Pin) (mode : PinMode) :
    toConcord.Keeps phase known (fun _ => .of True) (Lowering.usePin pin mode)
  count {phase known} (stem : String) :
    toConcord.Keeps phase known (fun _ => .of True) (Lowering.fresh stem)
  addTimer {phase known} {timer : Timer} :
    (∀ draft, known.holds draft → timer.body.Meets (rules.code .timer draft)) →
      toConcord.Keeps phase known (fun _ => .of True) (Lowering.addTimer timer)
  addButton {phase known} {body : Code} :
    (∀ draft, known.holds draft → body.Meets (rules.code .button draft)) →
      toConcord.Keeps phase known (fun _ => .of True) (Lowering.addButton body)
  addManifest {phase known} (source : BlockHead) :
    toConcord.Keeps phase known (fun _ => .of True) (Lowering.modifyDraft (Draft.addManifest (.ofHead source)))
  append {phase part : Phase} {known : Fact rules} {code : Code} : head.kind = .app →
    (∀ draft, known.holds draft → code.Meets (rules.code part draft)) →
      toConcord.Keeps phase known (fun _ => .of True) (Lowering.modifyDraft (Draft.append part code))

namespace Concord

variable {rules : Rules} {head : BlockHead} (R : Concord rules head) {phase : Phase}
  {known : Fact rules}

theorem next {α β : Type} {mid : α → Fact rules} {post : β → Fact rules} {a b : Lowering α} {f g : α → Lowering β}
    (first : R.holds phase known mid a b) (second : ∀ x, R.holds phase known post (f x) (g x)) :
    R.holds phase known post (a >>= f) (b >>= g) :=
  R.bind first fun x => R.given (fun _ => And.left) (second x)

theorem imp {α : Type} {post weaker : α → Fact rules} {a b : Lowering α} (related : R.holds phase known post a b)
    (step : ∀ x draft, known.holds draft → (post x).holds draft → (weaker x).holds draft) :
    R.holds phase known weaker a b :=
  R.bind related fun x => R.pure fun draft told => step x draft told.1 told.2

theorem toNumber {value : Value} (meets : ∀ draft, known.holds draft → value.Meets (rules.value phase draft)) :
    R.Keeps phase known (Fact.value phase) (Lowering.toNumber value) := by
  unfold Lowering.toNumber
  split
  · exact R.next (R.enable _) fun _ => R.pure fun draft facts =>
      .of_expr (by simp +decide [(meets draft facts).expr])
  · exact R.pure meets

theorem toText {value : Value} (meets : ∀ draft, known.holds draft → value.Meets (rules.value phase draft)) :
    R.Keeps phase known (Fact.value phase) (Lowering.toText value) := by
  unfold Lowering.toText
  split
  · exact R.pure meets
  · split
    · exact R.pure fun _ _ => .text _
    · exact R.fetch (.shown value.expr)
        (fun draft facts => List.forall_mem_singleton.2 (meets draft facts).expr) nofun

end Concord

end FlipperBlocks
