import FlipperBlocks.Lowering.Control
import FlipperBlocks.Lowering.Bytes
import FlipperBlocks.Proofs.Lowering.Judgement

/-! Inputs of blocks, and the conversions of their values. -/
namespace FlipperBlocks

open C (Code Expr)
open C.Identifier (isIdentifier)

def LowersValue (outcome : Outcome) (phase : Phase) (action : Lowering Value) : Prop :=
  ∀ known owed, Lowers outcome phase known owed action (Value.Fits outcome.last)
    fun value => value.expr.calls ++ owed

def LowersCode (outcome : Outcome) (phase : Phase) (action : Lowering Code) : Prop :=
  ∀ known owed, Lowers outcome phase known owed action (Code.Fits outcome.last)
    fun code => code.calls ++ owed

structure Meaning.Fits (outcome : Outcome) (phase : Phase) (meaning : Meaning) : Prop where
  value : ∀ wantsText, LowersValue outcome phase (meaning.value wantsText)
  statement : LowersCode outcome phase meaning.statement

namespace BlockKind

/-- The phase that the statements in an input of a block belong to. -/
def bodyPhase (kind : BlockKind) (input : String) (phase : Phase) : Phase :=
  match kind with
  | app => (Lowering.sections.lookup input).getD phase
  | timer => .timer
  | button => .button
  | _ => phase

/-- The inputs that a block lowers without any use for their code. -/
def idleInputs : BlockKind → List String
  | drawLine => ["X", "Y"]
  | readBytes => ["LEN"]
  | streamLength => ["STREAM"]
  | _ => []

end BlockKind

/-- The block in an input has this value when it is lowered in a state that is reached, and what it leaves
in the draft is in the last draft. -/
def Site.Yields (site : Site) (reached : Compilation → Prop) (last : Draft) (input : String)
    (value : Value) : Prop :=
  ∃ first rest, site.values.get? input = some (first :: rest) ∧ ∃ c, reached c ∧
    (first.value (site.kind.takesText input) c).1 = value ∧
      (first.value (site.kind.takesText input) c).2.draft.Extends last

/-- A function is left out if it is called in the code of an input that the block has no use for. The
length of a stream takes no code from an input that is a stream, and undoes any other. -/
def Site.LeavesOut (site : Site) (reached : Compilation → Prop) (last : Draft) (function : String) : Prop :=
  ∃ input ∈ site.kind.idleInputs, ∃ value, site.Yields reached last input value ∧
    function ∈ C.calls value.code ∧ (site.kind = .streamLength → value.array.isSome = true)

structure Site.Fits (outcome : Outcome) (phase : Phase) (site : Site) : Prop where
  values : ∀ input first rest, site.values.get? input = some (first :: rest) →
    first.Fits outcome phase
  bodies : ∀ input chain, site.bodies.get? input = some chain →
    ∀ meaning ∈ chain, meaning.Fits outcome (site.kind.bodyPhase input phase)
  leftOut : ∀ function, site.LeavesOut (·.phase = phase) outcome.last function → outcome.leftOut function

theorem Value.calls_of_isLiteral {value : Value} (literal : value.isLiteral = true) :
    value.expr.calls = [] := by
  unfold Value.isLiteral Expr.isLiteral at literal
  split at literal
  · rename_i same
    rw [same, Expr.calls_number]
  · rename_i same
    rw [same, Expr.calls_quoted]
  · rename_i same
    rw [same, Expr.calls_truth]
  · contradiction

namespace Value.Fits

variable {last : Draft}

theorem number {digits : String} (numeral : C.isNumeral digits.toList = true) :
    (Value.number digits).Fits last :=
  .of_holds _ numeral

theorem text (contents : String) : (Value.text contents).Fits last := .of_holds _ trivial

theorem truth (value : Bool) : (Value.truth value).Fits last := .of_holds _ trivial

theorem bytes {array : String} (named : isIdentifier array = true) : (Value.bytes array).Fits last :=
  ⟨named, fun name same => by injection same with same; rw [← same]; exact named⟩

end Value.Fits

namespace Lowers

variable {outcome : Outcome} {phase : Phase} {known : Prop} {owed : List String}

theorem toNumber {value : Value} (fits : known → value.Fits outcome.last) :
    Lowers outcome phase known owed (Lowering.toNumber value) (fun result => result.Fits outcome.last ∧
        ∀ function ∈ value.expr.calls, function ∈ result.expr.calls)
      fun result => result.expr.calls ++ owed := by
  unfold Lowering.toNumber
  split
  · refine (enabling ["extract_number_from_string"] (by decide) (by decide)).bind fun _ => .pure ?_ ?_
    · rintro ⟨facts, has⟩
      refine ⟨.of_holds _ ⟨⟨_, by simp [vocabulary], has⟩, (fits facts).holds, trivial⟩, ?_⟩
      grind
    · exact fun _ function member => .inl (by grind)
  · refine .pure (fun facts => ⟨fits facts, fun _ => id⟩) fun _ function member => ?_
    exact .inl (List.mem_append_right _ member)

theorem sharedBuffer {name : String} (named : isIdentifier name = true) (size : Nat) :
    Lowers outcome phase known owed (Lowering.sharedBuffer name size)
      (fun buffer => isIdentifier buffer = true) fun _ => owed := by
  have remembered (facts : Prop) (buffer : String) (ok : facts → isIdentifier buffer = true) :
      Lowers outcome phase facts owed (do
        let _ ← Lowering.declare ⟨buffer, .text size⟩
        Lowering.rememberSlot ("buffer:" ++ name) buffer
        return buffer) (fun buffer => isIdentifier buffer = true) fun _ => owed :=
    .bind (declare ok) fun _ => .bind (rememberSlot fun facts => ok facts.1) fun _ =>
      .pure (fun facts => ok facts.1.1) fun _ _ => .inl
  have same (facts : Prop) : Lowers outcome phase facts owed (Pure.pure name)
      (fun buffer => isIdentifier buffer = true) fun _ => owed :=
    .pure (fun _ => named) fun _ _ => .inl
  refine .bind (slot? _) fun found => ?_
  cases found with
  | some buffer => exact .pure (fun facts => facts.2 buffer rfl) fun _ _ => .inl
  | none =>
    refine .bind (lookup? name) fun other => ?_
    dsimp only
    split
    · exact .bind (fresh named) fun buffer => remembered _ buffer fun facts => facts.2.1
    · exact .bind (same _) fun buffer => remembered _ buffer And.right

theorem namedSlot {key stem : String} (named : isIdentifier stem = true) (type : StorageType) :
    Lowers outcome phase known owed (Lowering.namedSlot key stem type)
      (fun name => isIdentifier name = true) fun _ => owed := by
  refine (slot? _).bind fun found => ?_
  cases found with
  | some name => exact .pure (fun facts => facts.2 name rfl) fun _ _ => .inl
  | none =>
    exact .bind (fresh named) fun name => .bind (declare fun facts => facts.2.1) fun _ =>
      .bind (rememberSlot fun facts => facts.1.2.1) fun _ =>
        .pure (fun facts => facts.1.1.2.1) fun _ _ => .inl

theorem readSlot {key stem : String} (named : isIdentifier stem = true) (type : StorageType) :
    Lowers outcome phase known owed (Lowering.readSlot key stem type) (Storage.Fits outcome.last)
      fun _ => owed := by
  refine (slot? _).bind fun found => getDraft.bind fun draft => ?_
  dsimp only
  split
  · rename_i storage same
    refine .pure (fun facts => ?_) fun _ _ => .inl
    obtain ⟨name, _, present⟩ := Option.bind_eq_some_iff.1 same
    exact facts.2.1.lookup facts.2.2 present
  · exact .bind (fresh named) fun name => .bind (rememberSlot fun facts => facts.2.1) fun _ =>
      declare fun facts => facts.1.2.1

end Lowers

namespace Lowering

variable {last : Draft} {buffer format type : String} {value read result : Expr}

theorem holds_printInto (named : isIdentifier buffer = true) (typed : Allowed last (.type type))
    (holds : value.Holds (Allowed last)) : (printInto buffer format type value).Holds (Allowed last) :=
  ⟨allowed_free (by simp [vocabulary]), named, ⟨allowed_free (by simp [vocabulary]), named, trivial⟩,
    trivial, ⟨typed, holds⟩, trivial⟩

@[grind norm] theorem calls_printInto :
    (printInto buffer format type value).calls = "snprintf" :: "sizeof" :: value.calls := by
  simp [printInto]

@[grind norm] theorem calls_doing : (doing read result).calls = read.calls ++ result.calls := by simp [doing]

end Lowering

namespace Lowers

variable {outcome : Outcome} {phase : Phase} {known : Prop} {owed : List String}

/-- While drawing, the code that a read needs is kept before the drawing; elsewhere it is part of the
result. -/
theorem deferred {read : Expr} {result : Value} {rest : List String}
    (holds : known → read.Holds (Allowed outcome.last)) (fits : known → result.Fits outcome.last)
    (accounts : known → ∀ function ∈ owed, function ∈ read.calls ∨ function ∈ rest) :
    Lowers outcome phase known owed (Lowering.deferred read result)
      (Value.Fits outcome.last) fun value => value.expr.calls ++ rest := by
  refine .bind currentPhase fun current => ?_
  split
  · refine .bind (hoist fun facts => holds facts.1) fun _ => .pure (fun facts => fits facts.1.1)
      fun facts function member => ?_
    rcases accounts facts.1.1 function member with there | later
    · exact .inr (.inl (facts.2 function there))
    · exact .inl (List.mem_append_right _ later)
  · refine .pure (fun facts => ⟨⟨holds facts.1, (fits facts.1).holds⟩, (fits facts.1).array⟩)
      fun facts function member => .inl ?_
    have there := accounts facts.1 function member
    grind

theorem toText {value : Value} (fits : known → value.Fits outcome.last) :
    Lowers outcome phase known owed (Lowering.toText value) (fun result => result.Fits outcome.last ∧
        ∀ function ∈ value.expr.calls, function ∈ result.expr.calls)
      fun result => result.expr.calls ++ owed := by
  have typed : Allowed outcome.last (.type "int") := .inl (by decide)
  unfold Lowering.toText
  split
  · exact .pure (fun facts => ⟨fits facts, fun _ => id⟩) fun _ _ member =>
      .inl (List.mem_append_right _ member)
  · split
    · rename_i literal
      refine .pure (fun _ => ⟨.text _, fun function called => ?_⟩) fun _ _ member =>
        .inl (List.mem_append_right _ member)
      rw [Value.calls_of_isLiteral literal] at called
      contradiction
    · refine .bind (sharedBuffer (by decide) 64) fun buffer =>
        .done (fun facts => ⟨.of_holds _ ?_, ?_⟩) fun _ _ => List.mem_append_right _
      · exact ⟨Lowering.holds_printInto facts.2 typed (fits facts.1).holds, facts.2⟩
      · grind

end Lowers

namespace Site.Fits

variable {outcome : Outcome} {phase : Phase} {site : Site}

variable (fits : site.Fits outcome phase)

include fits

theorem value (input : String) {default : Value} (usable : default.Fits outcome.last) :
    LowersValue outcome phase (site.value input default) := by
  intro known owed
  unfold Site.value
  split
  · rename_i first rest found
    exact ((fits.values input first rest found).value _ known owed).within _
  · exact .done (fun _ => usable) fun _ _ => List.mem_append_right _

theorem number (input : String) {default : String} (numeral : C.isNumeral default.toList = true) :
    LowersValue outcome phase (site.number input default) :=
  fits.value input (.number numeral)

/-- A number that calls anything is the value of a block in the input. -/
theorem yielded (input : String) {default : String}
    (numeral : C.isNumeral default.toList = true) (known : Prop) (owed : List String) :
    Lowers outcome phase known owed (site.number input default) (fun value => value.Fits outcome.last ∧
        (value.expr.calls ≠ [] → site.Yields (·.phase = phase) outcome.last input value))
      fun value => value.expr.calls ++ owed := by
  unfold Site.number Site.value
  split
  · rename_i first rest found
    intro before inPhase
    obtain ⟨grows, stays, ends⟩ :=
      ((fits.values input first rest found).value _ known owed).within ⟨input, first.id⟩ before inPhase
    refine ⟨grows, stays, fun leads facts sound => ?_⟩
    have gives := ends leads facts sound
    exact ⟨gives.sound, ⟨gives.post, fun _ => ⟨first, rest, found,
      { before with steps := ⟨input, first.id⟩ :: before.steps }, inPhase, rfl, leads⟩⟩, gives.serves⟩
  · exact .pure (fun _ => ⟨.number numeral, absurd (Expr.calls_number default)⟩) fun _ _ member =>
      .inl (List.mem_append_right _ member)

theorem text (input default : String) : LowersValue outcome phase (site.text input default) :=
  fits.value input (.text default)

theorem truth (input : String) (default : Bool) : LowersValue outcome phase (site.truth input default) :=
  fits.value input (.truth default)

theorem numeric (input : String) {default : String} (numeral : C.isNumeral default.toList = true) :
    LowersValue outcome phase (site.numeric input default) := by
  intro known owed
  refine .bind (fits.number input numeral _ _) fun value => ?_
  refine (Lowers.toNumber And.right).imp (fun _ _ => And.left) fun result _ converted function member =>
    .inl ?_
  have included := converted.2 function
  grind

/-- A scalar that is there is fit; one that is not leaves nothing behind. -/
theorem scalar? (input : String) {default : Value}
    (usable : default.Fits outcome.last) (known : Prop) (owed : List String) :
    Lowers outcome phase known owed (site.scalar? input default)
      (fun found => ∀ value, found = some value → value.Fits outcome.last)
      fun found => (found.elim [] fun value => value.expr.calls) ++ owed := by
  refine .tentatively (fits.value input usable known owed) (fun value result passed _ fit => ?_)
    fun _ => ⟨nofun, fun _ => .inl⟩
  split at passed
  · contradiction
  · injection passed with same
    subst same
    exact ⟨fun _ same => by injection same with same; exact same ▸ fit, fun _ => .inl⟩

theorem shown (input default : String) : LowersValue outcome phase (site.shown input default) := by
  intro known owed
  refine .bind (fits.scalar? input (.text default) _ _) fun found => ?_
  cases found with
  | some value =>
    refine (Lowers.toText fun facts => facts.2 value rfl).imp (fun _ _ => And.left)
      fun result _ converted function member => .inl ?_
    have included := converted.2 function
    simp only [Option.elim_some] at member
    grind
  | none => exact .bind (Lowers.degrade _) fun _ => .pure (fun _ => .text _) fun _ _ => .inl

end Site.Fits

theorem Value.Fits.calls_code {last : Draft} {value : Value} (fits : value.Fits last) :
    C.calls value.code = value.expr.calls := by
  have reads := value.expr.reads (Expr.Holds.imp (fun _ => Allowed.spelled) _ fits.holds)
  rw [C.calls, Value.code, reads.tokens_eq]
  rfl

namespace Lowering.Stream

def calls (stream : Stream) : List String := Expr.callsOf stream.read.toList

structure Fits (last : Draft) (stream : Stream) : Prop where
  named : isIdentifier stream.array = true
  read : ∀ read ∈ stream.read, read.Holds (Allowed last)

theorem fits_ofValue? {last : Draft} {value : Value} {stream : Stream}
    (fits : value.Fits last) (found : ofValue? value = some stream) :
    stream.Fits last ∧ value.array.isSome = true ∧ value.expr.calls = stream.calls := by
  obtain ⟨array, isArray, rfl⟩ := Option.map_eq_some_iff.1 found
  have named := fits.array array isArray
  refine ⟨⟨named, ?_⟩, Option.isSome_of_eq_some isArray, ?_⟩
  · intro read member
    split at member
    · contradiction
    · rw [← Option.some.inj member]
      exact fits.holds
  · unfold calls
    dsimp only
    split
    · rename_i same
      rw [← fits.calls_code, C.calls, same, (C.Reads.name named).tokens_eq]
      rfl
    · simp

end Lowering.Stream

namespace Site.Fits

variable {outcome : Outcome} {phase : Phase} {site : Site}

/-- A fit stream, the calls of whose read stand in the code of an input. -/
structure StreamFits (outcome : Outcome) (phase : Phase) (site : Site) (input : String)
    (stream : Lowering.Stream) : Prop where
  fits : stream.Fits outcome.last
  called : ∀ function ∈ stream.calls, ∃ value, site.Yields (·.phase = phase) outcome.last input value ∧
    function ∈ C.calls value.code ∧ value.array.isSome = true

theorem streamIn? (fits : site.Fits outcome phase) (input : String) (known : Prop) (owed : List String) :
    Lowers outcome phase known owed (Lowering.streamIn? site input)
      (fun found => ∀ stream, found = some stream → StreamFits outcome phase site input stream)
      fun found => found.elim [] Lowering.Stream.calls ++ owed := by
  have undone : Lowers outcome phase known owed
      (Lowering.tentatively do return Lowering.Stream.ofValue? (← site.number input "0"))
      (fun found => ∀ stream, found = some stream → StreamFits outcome phase site input stream)
      fun found => found.elim [] Lowering.Stream.calls ++ owed := by
    refine .tentatively (fits.yielded input (by decide) known owed) ?_
      fun _ => ⟨nofun, fun _ => .inl⟩
    intro value stream passed _ ⟨fit, yields⟩
    obtain ⟨streamFits, isArray, called⟩ := Lowering.Stream.fits_ofValue? fit passed
    rw [called] at yields ⊢
    refine ⟨fun other equal => ?_, fun _ => .inl⟩
    injection equal with equal
    subst equal
    refine ⟨streamFits, fun function member => ⟨value, yields (List.ne_nil_of_mem member), ?_, isArray⟩⟩
    rw [fit.calls_code, called]
    exact member
  refine .bind undone fun found => ?_
  split
  · exact .bind (.degrade _) fun _ => .pure (fun facts => facts.1.2) fun _ _ => .inl
  · exact .pure (fun facts => facts.2) fun _ _ => .inl

end Site.Fits

namespace Meaning

variable {outcome : Outcome} {phase : Phase}

theorem lowers_following : ∀ (chain : List Meaning), (∀ meaning ∈ chain, meaning.Fits outcome phase) →
    LowersCode outcome phase (following chain)
  | [], _ => fun _ _ => .pure (fun _ => .nil) fun _ _ => .inl
  | next :: rest, fits => by
    intro known owed
    have later := lowers_following rest fun meaning member => fits meaning (List.mem_cons_of_mem _ member)
    refine Lowers.within _ (.bind ((fits next List.mem_cons_self).statement _ _) fun code =>
      .bind (later _ _) fun more => .pure (fun facts => facts.1.2.append facts.2) ?_)
    exact fun _ function member => .inl (by grind)

theorem lowers_chain (chain : List Meaning) (fits : ∀ meaning ∈ chain, meaning.Fits outcome phase) :
    LowersCode outcome phase (Meaning.chain chain) := by
  intro known owed
  cases chain with
  | nil => exact .pure (fun _ => .nil) fun _ _ => .inl
  | cons first rest =>
    have later := lowers_following rest fun meaning member => fits meaning (List.mem_cons_of_mem _ member)
    refine .bind ((fits first List.mem_cons_self).statement _ _) fun code =>
      .bind (later _ _) fun more => .pure (fun facts => facts.1.2.append facts.2) ?_
    exact fun _ function member => .inl (by grind)

end Meaning

/-- The statements in an input are fit in the phase that the input belongs to. -/
theorem Site.Fits.statements {outcome : Outcome} {phase inner : Phase} {site : Site}
    (fits : site.Fits outcome phase) {input : String} (belongs : site.kind.bodyPhase input phase = inner) :
    LowersCode outcome inner (site.statements input) := by
  intro known owed
  unfold Site.statements
  split
  · rename_i first rest found
    exact (Meaning.lowers_chain _ (belongs ▸ fits.bodies input _ found) known owed).within _
  · exact .pure (fun _ => .nil) fun _ _ => .inl

end FlipperBlocks
