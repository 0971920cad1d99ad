import FlipperBlocks.Proofs.Lowering.Ledgers
import FlipperBlocks.Proofs.Lowering.Twins
import FlipperBlocks.Proofs.Lowering.Values

/-! Blocks that stand for values leave every ledger as it is, and their values are plain. -/
namespace FlipperBlocks

open C (Atom Code Expr Free Granted Harmless Line PlainType)
open Lowering

variable {names : List String} {known : Site → Prop} {ledger : Ledger names known} {phase : Phase}
  {loose : Multiset Line}

structure Value.Plain (names : List String) (value : Value) : Prop where
  expr : value.expr.Plain names
  array : ∀ array, value.array = some array → Granted names array

def Ledger.KeepsValue (ledger : Ledger names known) (action : Lowering Value) : Prop :=
  ∀ phase loose, ledger.Keeps phase loose action (Value.Plain names) fun _ => loose

def Ledger.KeepsCode (ledger : Ledger names known) (action : Lowering Code) : Prop :=
  ∀ phase loose, ledger.Keeps phase loose action (fun code => code.Orderly phase.objects)
    fun code => code.lines + loose

structure Meaning.Entered (ledger : Ledger names known) (meaning : Meaning) : Prop where
  value : ∀ wantsText, ledger.KeepsValue (meaning.value wantsText)
  statement : ledger.KeepsCode meaning.statement

structure Site.Entered (ledger : Ledger names known) (site : Site) : Prop where
  values : ∀ input first rest, site.values.get? input = some (first :: rest) → first.Entered ledger
  bodies : ∀ input meanings, site.bodies.get? input = some meanings →
    ∀ meaning ∈ meanings, meaning.Entered ledger
  listed : site.head.variableNames ⊆ names

namespace Value.Plain

theorem of_expr {expr : Expr} {kind : ValueKind} (plain : expr.Plain names) :
    (Value.mk expr kind none).Plain names :=
  ⟨plain, fun _ found => by simp at found⟩

theorem number {digits : String} (numeral : C.isNumeral digits.toList = true) :
    (Value.number digits).Plain names :=
  of_expr numeral

theorem text (contents : String) : (Value.text contents).Plain names := of_expr trivial

theorem truth (value : Bool) : (Value.truth value).Plain names := of_expr trivial

theorem bytes {array : String} (free : Free array) : (Value.bytes array).Plain names := by
  refine ⟨C.granted_of_free free, fun found same => ?_⟩
  rw [← Option.some.inj same]
  exact C.granted_of_free free

end Value.Plain

theorem Storage.plain_place {storage : Storage} (listed : Granted names storage.name) :
    storage.place.Plain names := by
  unfold Storage.place
  split
  · exact ⟨rfl, listed⟩
  · exact listed

theorem Storage.plain_slot {storage : Storage} (free : Free storage.name) : storage.place.Plain names :=
  storage.plain_place (C.granted_of_free free)

theorem C.Granted.mono {text : String} (granted : Granted [] text) : Granted names text :=
  ⟨granted.1, fun taken => absurd (granted.2 taken) (List.not_mem_nil)⟩

def Rules.ofPlain (names : List String) : Rules where
  moves _ _ := True
  isVariable name := name ∈ names
  isSymbol _ := True
  atom := Atom.Plain names
  permits _ _ _ := True
  clear := False
  stays _ _ := trivial
  plain {atom} plain := by
    cases atom with
    | name => exact plain.mono
    | member => exact ⟨plain.1, plain.2.mono⟩
    | _ => exact plain
  named listed named := ⟨⟨named, fun _ => listed⟩, rfl, named, fun _ => listed⟩
  reads _ := trivial
  fills _ _ := trivial

theorem Value.Meets.plain {value : Value} {draft : Draft}
    (meets : value.Meets ((Rules.ofPlain names).value phase draft)) : value.Plain names :=
  ⟨meets.expr.atoms, fun array found => (meets.array array found).1.atoms⟩

theorem Value.Plain.meets {value : Value} {draft : Draft} (plain : value.Plain names) :
    value.Meets ((Rules.ofPlain names).value phase draft) :=
  ⟨⟨plain.expr, fun _ _ => trivial, False.elim⟩,
    fun array found => ⟨⟨plain.array array found, fun _ _ => trivial, False.elim⟩, trivial⟩⟩

theorem Site.Entered.plain_transfer {transfer : Transfer} {function : String} {arguments : List Expr}
    (given : transfer.address.Plain names ∧ transfer.timeout.Plain names) :
    (transfer.call function arguments).Plain names ↔ Harmless function ∧ ∀ e ∈ arguments, e.Plain names := by
  rw [Transfer.call, Expr.plain_call, List.forall_mem_append, List.forall_mem_append]
  simp +decide [Transfer.device, Transfer.busNumber, Transfer.patience, given.1, given.2]

namespace Ledger.Keeps

open Site.Entered (plain_transfer)

variable {value : Value}

theorem toNumber (plain : value.Plain names) :
    ledger.Keeps phase loose (Lowering.toNumber value) (Value.Plain names) fun _ => loose := by
  unfold Lowering.toNumber
  split
  · exact .bind (.enable _) fun _ _ => .returns (.of_expr (by simp +decide [plain.expr]))
  · exact .returns plain

private theorem plain_printInto {buffer type : String} {e : Expr} (free : Free buffer)
    (typed : PlainType type) (plain : e.Plain names) (format : String) :
    (printInto buffer format type e).Plain names := by
  simp +decide [printInto, free, typed, plain]

theorem toText (plain : value.Plain names) :
    ledger.Keeps phase loose (Lowering.toText value) (Value.Plain names) fun _ => loose := by
  unfold Lowering.toText
  split
  · exact .returns plain
  · split
    · exact .returns (.text _)
    · refine .bind (.sharedBuffer (by decide) _) fun buffer free => .returns (.of_expr ?_)
      exact ⟨plain_printInto free (by decide) plain.expr _, C.granted_of_free free⟩

theorem deferred {read : Expr} {result : Value} (first : read.Plain names) (second : result.Plain names) :
    ledger.Keeps phase loose (Lowering.deferred read result) (Value.Plain names) fun _ => loose := by
  refine .bind .currentPhase fun current _ => ?_
  split
  · exact .bind (.hoist first) fun _ _ => .returns second
  · exact .returns ⟨⟨first, second.expr⟩, second.array⟩

def bond (ledger : Ledger names known) : Bond (.ofPlain names) where
  holds phase known post a _ :=
    known.holds {} → ∀ loose, ledger.Keeps phase loose a (fun x => (post x).holds {}) fun _ => loose
  pure gives facts _ := .returns (gives {} facts)
  bind first second facts loose := .bind (first facts loose) fun x told => second x ⟨facts, told⟩ loose
  tentatively keeps facts loose :=
    (Ledger.Keeps.tentatively ((keeps facts loose).imp fun _ => Fact.holds_ofSome.1)).imp fun _ => Fact.holds_ofSome.2

theorem slots (ledger : Ledger names known) (phase : Phase) : (bond ledger).Slots phase where
  permitted _ := trivial
  named read _ _ := (Keeps.namedSlot read.stem_mem_generatedStems _ _).imp fun _ => Rules.named_of_free
  shared _ listed _ _ := (Keeps.sharedBuffer listed _).imp fun _ => Rules.named_of_free
  read read _ _ := (Keeps.readSlot read.stem_mem_generatedStems _ _).imp fun _ => Rules.named_of_free
  deferred given facts _ :=
    (Keeps.deferred (given {} facts).1.atoms (given {} facts).2.plain).imp fun _ => Value.Plain.meets

def concord {head : BlockHead} (asks : head.setup? = none ∨ ledger.pins) (listed : head.variableNames ⊆ names) :
    Concord (.ofPlain names) head where
  toBond := bond ledger
  given imp keeps facts := keeps (imp {} facts)
  degrade other _ _ _ := (Ledger.Keeps.degrade other).imp fun _ _ => id
  enable features _ _ := .enable features
  configurePin setup unpulled _ _ := .configurePin (asks.resolve_left (by simp [setup])) unpulled
  resolve usable named asText _ _ :=
    (Keeps.declare (.resolve usable (listed named) asText)).imp fun _ same => ⟨same, fun _ _ => trivial⟩
  state remembered _ _ := .declare (.state remembered)
  byteStream site _ _ := .still (.byteStream site)
    (fun _ => (Draft.still_advance (by decide) _).trans (Draft.still_declare _)) (fun _ => rfl) fun _ _ _ =>
      ⟨⟨_, rfl⟩, fun _ _ => trivial⟩
  fetch read meets _ := (slots ledger _).fetch read meets

end Ledger.Keeps

namespace Site.Entered

section

variable {site : Site} (entered : site.Entered ledger)

include entered

theorem value (input : String) {default : Value} (plain : default.Plain names) :
    ledger.KeepsValue (site.value input default) := by
  intro phase loose
  unfold Site.value
  split
  · rename_i first rest found
    exact ((entered.values input first rest found).value _ _ _).within _
  · exact .returns plain

theorem number (input : String) {default : String} (numeral : C.isNumeral default.toList = true) :
    ledger.KeepsValue (site.number input default) :=
  entered.value input (.number numeral)

theorem text (input default : String) : ledger.KeepsValue (site.text input default) :=
  entered.value input (.text default)

theorem truth (input : String) (default : Bool) : ledger.KeepsValue (site.truth input default) :=
  entered.value input (.truth default)

theorem numeric (input : String) {default : String} (numeral : C.isNumeral default.toList = true) :
    ledger.KeepsValue (site.numeric input default) := fun _ _ =>
  .bind (entered.number input numeral _ _) fun _ => .toNumber

theorem scalar? (input : String) {default : Value} (plain : default.Plain names) :
    ledger.Keeps phase loose (site.scalar? input default) (fun found => ∀ value ∈ found, value.Plain names)
      fun _ => loose := by
  refine .tentatively (.bind (entered.value input plain _ _) fun value given => .returns ?_)
  intro other found
  split at found
  · contradiction
  · exact Option.some.inj found ▸ given

theorem shown (input default : String) : ledger.KeepsValue (site.shown input default) := by
  intro phase loose
  refine .bind (entered.scalar? input (.text default)) fun found given => ?_
  cases found with
  | some value => exact .toText (given value rfl)
  | none => exact .bind (.degrade rfl) fun _ _ => .returns (.text _)

theorem filePath : ledger.KeepsValue (Lowering.filePath site) := entered.shown "PATH" _

theorem resolve (named : variableName site ∈ site.head.variableNames) (asText : Bool) :
    ledger.Keeps phase loose (Lowering.resolve site asText)
      (fun storage => Granted names storage.name) fun _ => loose := by
  have listed : variableName site ∈ names := entered.listed named
  have usable : C.Identifier.Usable (variableName site) := C.Identifier.usable_sanitize _
  unfold Lowering.resolve
  generalize variableName site = name at listed usable
  refine (Ledger.Keeps.declare (.resolve usable listed asText)).imp fun storage same => ?_
  rw [same]
  exact ⟨usable.1, fun _ => listed⟩

end

/-! Pins and outputs. -/

private theorem plain_measurement {sampling : String} (free : Free sampling) (pin : Pin) :
    (measurement pin sampling).Plain names := by
  simp +decide [measurement, analogScale, free]

private theorem plain_millivolts {raw : Expr} (plain : raw.Plain names) : (millivolts raw).Plain names := by
  simp +decide [millivolts, analogScale, plain]

private theorem exists_measurement (names : List String) (site : Site) : ∃ result : Pin → Expr,
    (∀ pin, (result pin).Plain names) ∧ Lowering.readAnalog site = Lowering.analog site result := by
  refine ⟨_, fun pin => ?_, rfl⟩
  have raw : (measurement pin "FuriHalAdcSamplingtime92_5").Plain names := plain_measurement (by decide) pin
  dsimp only
  split
  · exact plain_millivolts raw
  · exact raw

private theorem exists_position (names : List String) (site : Site) : ∃ result : Pin → Expr,
    (∀ pin, (result pin).Plain names) ∧ Lowering.potentiometer site = Lowering.analog site result := by
  refine ⟨_, fun pin => ?_, rfl⟩
  have raw : (measurement pin (sampling (resistance site))).Plain names := by
    refine plain_measurement ?_ pin
    unfold sampling
    split
    · decide
    · split <;> decide
  dsimp only
  split
  · exact plain_millivolts raw
  · simp +decide [percent, raw]
  · exact raw

theorem pwmOutput? (site : Site) (purpose : String) :
    ledger.Keeps phase loose (Lowering.pwmOutput? site purpose) (fun _ => True) fun _ => loose := by
  unfold Lowering.pwmOutput?
  dsimp only
  split
  · exact .returns trivial
  · exact .bind (.degrade rfl) fun _ _ => .returns trivial

theorem pwmState (output : PwmOutput) : ledger.Keeps phase loose (Lowering.pwmState output)
      (fun state => state.1.Plain names ∧ state.2.Plain names) fun _ => loose := by
  have place {storage found : Storage} (remembered : storage ∈ output.states)
      (same : found.name = storage.name) : found.place.Plain names :=
    found.plain_slot (same ▸ PwmOutput.free_state remembered)
  exact .bind (.declare (.state (.head _))) fun _ first =>
    .bind (.declare (.state (.tail _ (.head _)))) fun _ second =>
      .returns ⟨place (.head _) first, place (.tail _ (.head _)) second⟩

theorem degradedValue {degradation : Degradation} (other : degradation.isPinConflict = false) :
    ledger.KeepsValue (Lowering.degradedValue degradation) := fun _ _ =>
  .bind (.degrade other) fun _ _ => .returns (.number (by decide))

section

variable {site : Site} (entered : site.Entered ledger)

include entered

theorem streamIn? (input : String) : ledger.Keeps phase loose (Lowering.streamIn? site input)
    (fun found => ∀ stream ∈ found, Granted names stream.array ∧
      ∀ read ∈ stream.read, read.Plain names) fun _ => loose := by
  have undone : ledger.Keeps phase loose (tentatively do return Stream.ofValue? (← site.number input "0"))
      (fun found => ∀ stream ∈ found, Granted names stream.array ∧
        ∀ read ∈ stream.read, read.Plain names) fun _ => loose := by
    refine .tentatively (.bind (entered.number input (by decide) _ _) fun value plain => .returns ?_)
    intro stream found
    obtain ⟨array, isArray, rfl⟩ := Option.map_eq_some_iff.1 found
    refine ⟨plain.array array isArray, fun read member => ?_⟩
    dsimp only at member
    split at member
    · contradiction
    · exact Option.some.inj member ▸ plain.expr
  refine .bind undone fun found given => ?_
  split
  · exact .bind (.degrade rfl) fun _ _ => .returns given
  · exact .returns given

theorem transfer : ledger.Keeps phase loose (Transfer.ofSite site)
    (fun transfer => transfer.address.Plain names ∧ transfer.timeout.Plain names) fun _ => loose :=
  .bind (entered.numeric "ADDR" (by decide) _ _) fun _ address =>
    .bind (entered.numeric "TIMEOUT" (by decide) _ _) fun _ timeout => .returns ⟨address.expr, timeout.expr⟩

end

section

variable {site : Site} (entered : site.Entered ledger)

include entered

def counterparts (asks : site.head.setup? = none ∨ ledger.pins) :
    Counterparts (@Ledger.Keeps.concord _ _ ledger _ asks entered.listed) where
  id := site.head.id
  values := site.values
  bodies := site.bodies
  values' := site.values
  bodies' := site.bodies
  listed _ member := entered.listed member
  value _ meets facts _ := (entered.value _ (meets {} facts).plain _ _).imp fun _ => Value.Plain.meets

theorem asValue (known : known site) (wantsText : Bool) : ledger.KeepsValue (site.asValue wantsText) :=
  fun phase loose => (@Counterparts.asValue _ _ _ (entered.counterparts (ledger.asks known)) phase (.of True)
    wantsText trivial loose).imp fun _ => Value.Meets.plain

end

end Site.Entered

theorem Site.value_of_asks (names : List String) {site : Site} {setup : PinSetup}
    (other : site.kind ≠ .setupPin) (asks : site.head.setup? = some setup) (wantsText : Bool) :
    ∃ (features : List Feature) (value : Value), setup.pull = .none ∧ value.Plain names ∧
      site.asValue wantsText = (do
        enable features
        configurePin setup
        return value) := by
  have measured {result : Pin → Expr} (plain : ∀ pin, (result pin).Plain names)
      (able : (if (pinOf site).isAnalog then some { pin := pinOf site, mode := .analog } else none) =
        some setup) :
      ∃ (features : List Feature) (value : Value), setup.pull = .none ∧ value.Plain names ∧
        Lowering.analog site result = (do
          enable features
          configurePin setup
          return value) := by
    obtain ⟨isAnalog, same⟩ := Option.ite_none_right_eq_some.1 able
    obtain rfl := Option.some.inj same
    exact ⟨_, _, rfl, .of_expr (plain _), if_pos isAnalog⟩
  rw [setup?_eq] at asks
  unfold BlockKind.setup? at asks
  split at asks
  · rename_i kind
    exact absurd kind other
  · rename_i kind
    obtain ⟨result, plain, same⟩ := Entered.exists_measurement names site
    rw [Site.asValue, kind]
    exact same ▸ measured plain asks
  · rename_i kind
    obtain ⟨result, plain, same⟩ := Entered.exists_position names site
    rw [Site.asValue, kind]
    exact same ▸ measured plain asks
  · rename_i kind
    obtain rfl := Option.some.inj asks
    rw [Site.asValue, kind]
    exact ⟨_, _, rfl, .of_expr (by simp +decide [pinLevel]), rfl⟩
  · contradiction

end FlipperBlocks
