import FlipperBlocks.Lowering.Registers
import FlipperBlocks.Proofs.C.Separation
import FlipperBlocks.Proofs.Draft.Slots
import FlipperBlocks.Proofs.Lowering.Effects

/-! The reads that leave what they find in storage.

The storage of a read goes by a key that tells the read, all files apart and all numbers to be shown
apart, which share one buffer each. A key is put together from the texts of expressions, and can be taken
apart again. -/
namespace FlipperBlocks

open C (Atom Expr Token)
open Lowering

theorem Pin.spelled_symbol (pin : Pin) : pin.symbol.Holds Atom.Spelled := by
  refine ⟨fun _ => rfl, ?_⟩
  change C.Identifier.isIdentifier pin.object = true
  cases pin <;> decide

theorem Storage.isPlace_place (storage : Storage) : storage.place.isPlace = true := by
  unfold Storage.place
  split <;> rfl

theorem Storage.storage?_place (storage : Storage) : storage.place.storage? = some storage.name := by
  unfold Storage.place
  split <;> rfl

def fetchesBlock (text : String) : Bool :=
  "kb_i2c_read_mem_bytes(".toList.isPrefixOf text.toList

theorem fetchesBlock_eq_false {text : String} {c : Char} (starts : text.toList.head? = some c)
    (other : c ≠ 'k') : fetchesBlock text = false := by
  obtain ⟨rest, same⟩ := List.head?_eq_some_iff.1 starts
  rw [fetchesBlock, same]
  simp [List.isPrefixOf, other.symm]

theorem fetchesBlock_assign {storage : Storage} (named : C.Identifier.isIdentifier storage.name = true)
    (value : Expr) : fetchesBlock (Expr.assign .set storage.place value).code = false := by
  unfold Storage.place
  split
  · exact @fetchesBlock_eq_false _ 'a' (by simp [Expr.code]) (by decide)
  · rw [fetchesBlock, Bool.eq_false_iff, Ne, List.isPrefixOf_iff_prefix]
    intro starts
    have blank : " ".toList = [' '] := rfl
    simp only [Expr.code, String.toList_append, List.append_assoc, blank, List.singleton_append] at starts
    have part (c : Char) (member : c ∈ storage.name.toList) := C.Identifier.isPart_of_mem named c member
    rcases List.prefix_or_prefix_of_prefix starts (List.prefix_append ..) with inside | ⟨more, same⟩
    · exact absurd (part '(' (inside.subset (by simp))) (by decide)
    · rw [← same, List.prefix_append_right_inj] at starts
      cases more with
      | nil => exact absurd (part '(' (by rw [← List.append_nil storage.name.toList, same]; simp)) (by decide)
      | cons c rest =>
        have member : ' ' ∈ "kb_i2c_read_mem_bytes(".toList := by
          rw [← same, ← (List.cons_prefix_cons.1 starts).1]
          simp
        exact absurd member (by simp)

/-- Transfers with one device on one bus that wait for it equally long, as far as their texts tell. -/
structure Lowering.Transfer.Alike (first second : Transfer) : Prop where
  bus : first.bus = second.bus
  address : first.address.code = second.address.code
  timeout : first.timeout.code = second.timeout.code

inductive Read where
  | number (value : Expr)
  | shown (value : Expr)
  | file (path : Expr)
  | climate (quantity : Climate) (measured : quantity ∈ [temperature, humidity]) (pin : Pin)
  | register (width : RegisterWidth) (transfer : Transfer) (index : Expr)
  | block (transfer : Transfer) (memory : Expr) (length : Nat)

namespace Read

def key : Read → String
  | number value => "num_str:" ++ value.code
  | shown _ => "buffer:display_buffer"
  | file _ => "buffer:storage_buffer"
  | climate quantity _ pin => "dht11:" ++ quantity.label ++ ":" ++ pin.name
  | register width transfer index =>
    slotKey [width.stem, toString transfer.bus.index, transfer.address.code, index.code,
      transfer.timeout.code]
  | block transfer memory length =>
    slotKey ["i2c_read_bytes", toString transfer.bus.index, transfer.address.code, memory.code,
      toString length, transfer.timeout.code]

def stem : Read → String
  | number _ => "num_str"
  | shown _ => "display_buffer"
  | file _ => "storage_buffer"
  | climate quantity _ _ => quantity.stem
  | register width _ _ => width.stem
  | block .. => "i2c_read_bytes"

def type : Read → StorageType
  | number _ => .text 32
  | shown _ => .text 64
  | file _ => .text 1024
  | climate .. => .int
  | register width _ _ => width.storageType
  | block _ _ length => .bytes length none

def action (slot : String) : Read → Expr
  | number value => printInto slot "%ld" "long" value
  | shown value => printInto slot "%d" "int" value
  | file path => .call "storage_simple_read" [.name slot, .sizeOf (.name slot), path]
  | climate quantity _ pin => .assign .set (.member "app" slot) (.call quantity.reader [pin.symbol])
  | register width transfer index =>
    transfer.call width.reader [byteArgument index, .unary .address (.member "app" slot)]
  | block transfer memory length =>
    transfer.call "kb_i2c_read_mem_bytes" [byteArgument memory, .name slot, .ofNat length]

def inputs : Read → List Expr
  | number value | shown value => [value]
  | file path => [path]
  | climate .. => []
  | register _ transfer index => [transfer.address, index, transfer.timeout]
  | block transfer memory _ => [transfer.address, memory, transfer.timeout]

/-- A read that lowering makes is given expressions that can be read, and if it fetches a block of
memory, this is of a length that the storage may have. -/
structure Proper (read : Read) : Prop where
  spelled : ∀ e ∈ read.inputs, e.Holds Atom.Spelled
  sized : ∀ length, read.type = .bytes length none → 1 ≤ length ∧ length ≤ 64

def isShared : Read → Bool
  | shown _ | file _ => true
  | _ => false

/-- Whether the read can be put off; a number to be shown is printed where it is shown. -/
def isDeferred : Read → Bool
  | shown _ => false
  | _ => true

def Names (read : Read) (slot : String) : Prop :=
  (∃ number, slot = Draft.numbered read.stem number) ∨ (read.isShared = true ∧ slot = read.stem)

section

variable {a b : Read} {slot other : String}

variable {read : Read}

theorem Proper.of_spelled (spelled : ∀ e ∈ read.inputs, e.Holds Atom.Spelled)
    (other : ∀ length, read.type ≠ .bytes length none) : read.Proper :=
  ⟨spelled, fun length same => absurd same (other length)⟩

private theorem start_stem (read : Read) : 2 ≤ read.stem.toList.length ∧
    (read.isShared = false → read.stem.toList.take 2 ∈ [['n', 'u'], ['d', 'h'], ['i', '2']]) := by
  cases read with
  | climate quantity measured _ =>
    rcases List.mem_pair.1 measured with rfl | rfl <;> simp [stem, temperature, humidity]
  | register width _ _ => cases width <;> simp [stem, RegisterWidth.stem]
  | _ => simp [stem, isShared]

/-- Storage that is shared has a name that tells so, and no other storage has one. -/
theorem Names.sharedName_iff (names : read.Names slot) : SharedName slot ↔ read.isShared = true := by
  obtain ⟨long, unshared⟩ := read.start_stem
  constructor
  · intro shared
    have start := shared.start
    rcases names with ⟨number, rfl⟩ | ⟨isShared, _⟩
    · rw [Draft.take_numbered long] at start
      by_contra other
      have differs := unshared (Bool.eq_false_iff.2 other)
      simp only [List.mem_cons, List.not_mem_nil, or_false] at start differs
      rcases start with start | start <;> rw [start] at differs <;> exact absurd differs (by decide)
    · exact isShared
  · intro isShared
    have listed : read.stem ∈ ["display_buffer", "storage_buffer"] := by
      cases read with
      | shown | file => simp [stem]
      | _ => contradiction
    rcases names with ⟨number, rfl⟩ | ⟨_, rfl⟩
    · exact .numbered listed number
    · exact .plain listed

theorem stem_mem_generatedStems (read : Read) : read.stem ∈ generatedStems := by
  cases read with
  | climate quantity measured _ =>
    rcases List.mem_pair.1 measured with rfl | rfl <;> simp [stem, temperature, humidity, generatedStems]
  | register width _ _ => cases width <;> simp [stem, RegisterWidth.stem, generatedStems]
  | _ => simp [stem, generatedStems]

theorem Names.generatedName (names : read.Names slot) : GeneratedName slot := by
  rcases names with ⟨number, rfl⟩ | ⟨shared, rfl⟩
  · exact .numbered read.stem_mem_generatedStems number
  · cases read with
    | shown | file => exact .buffer (by simp [stem])
    | _ => contradiction

@[simp] theorem destination?_action (read : Read) (slot : String) :
    (read.action slot).destination? = some slot := by
  cases read with
  | climate quantity measured _ =>
    rcases List.mem_pair.1 measured with rfl | rfl <;> simp [action, Expr.destination?, C.sensors, Expr.storage?]
  | register width _ _ => cases width <;> rfl
  | _ => rfl

theorem uses_action {ok : C.Use → Prop} (fill : ok (.fill slot (read.action slot).code))
    (given : ∀ e ∈ read.inputs, e.Uses ok) (pins : ∀ pin : Pin, ok (.read pin.object)) :
    (read.action slot).Uses ok := by
  have given' (e : Expr) (member : e ∈ read.inputs) : e.Uses (C.Use.Besides (some slot) ok) :=
    (given e member).imp fun _ => .inl
  have into := read.destination?_action slot
  cases read with
  | number value | shown value | file path =>
    refine (Expr.uses_call_into rfl into).2 ⟨fill, ?_⟩
    simpa [inputs, Expr.storage?] using given'
  | climate quantity measured pin =>
    have plain : C.unreadArgument? quantity.reader = none := by
      rcases List.mem_pair.1 measured with rfl | rfl <;> rfl
    refine Expr.uses_assign_set.2 ⟨fun name found => ?_, nofun, (Expr.uses_call_of_plain plain).2 ?_⟩
    · exact Option.some.inj (into.symm.trans found) ▸ fill
    · simpa [Pin.symbol] using pins pin
  | register width transfer index =>
    have fills : C.filledArgument? width.reader = some 3 := by cases width <;> rfl
    refine (Expr.uses_call_into fills into).2 ⟨fill, ?_⟩
    simpa [inputs, Transfer.device, Transfer.busNumber, Transfer.patience, byteArgument] using given'
  | block transfer memory length =>
    refine (Expr.uses_call_into rfl into).2 ⟨fill, ?_⟩
    simpa [inputs, Transfer.device, Transfer.busNumber, Transfer.patience, byteArgument] using given'

theorem spelled_action_iff : (read.action slot).Holds Atom.Spelled ↔
    C.Identifier.isIdentifier slot = true ∧ ∀ e ∈ read.inputs, e.Holds Atom.Spelled := by
  have number (n : Nat) : (Expr.ofNat n).Holds Atom.Spelled := C.isNumeral_toString n
  cases read with
  | number value | shown value =>
    simp +decide [action, inputs, printInto, Expr.Holds, Expr.HoldAll, Expr.sizeOf, Expr.castGroup,
      Atom.Spelled]
  | file path => simp +decide [action, inputs, Expr.Holds, Expr.HoldAll, Expr.sizeOf, Atom.Spelled]
  | climate quantity measured pin =>
    rcases List.mem_pair.1 measured with rfl | rfl <;>
      simp +decide [action, inputs, Expr.Holds, Expr.HoldAll, Atom.Spelled, Pin.spelled_symbol]
  | register width transfer index =>
    have called : C.Identifier.isIdentifier width.reader = true := by cases width <;> decide
    simp +decide [action, inputs, Expr.Holds, Expr.HoldAll, Expr.castGroup, Atom.Spelled,
      Transfer.call, Transfer.device, Transfer.busNumber, Transfer.patience, byteArgument, number,
      Expr.isPlace, called]
    constructor
    · rintro ⟨address, index, named, timeout⟩
      exact ⟨named, address, index, timeout⟩
    · rintro ⟨named, address, index, timeout⟩
      exact ⟨address, index, named, timeout⟩
  | block transfer memory length =>
    simp +decide [action, inputs, Expr.Holds, Expr.HoldAll, Expr.castGroup, Atom.Spelled,
      Transfer.call, Transfer.device, Transfer.busNumber, Transfer.patience, byteArgument, number]
    constructor
    · rintro ⟨address, memory, named, timeout⟩
      exact ⟨named, address, memory, timeout⟩
    · rintro ⟨named, address, memory, timeout⟩
      exact ⟨address, memory, named, timeout⟩

theorem fetchesBlock_action {slot : String} (fetches : fetchesBlock (read.action slot).code = true) :
    ∃ transfer memory length, read = .block transfer memory length := by
  cases read with
  | block transfer memory length => exact ⟨transfer, memory, length, rfl⟩
  | climate => simp [fetchesBlock, action, Expr.code] at fetches
  | register width =>
    cases width <;>
      simp [fetchesBlock, action, Transfer.call, RegisterWidth.reader, Expr.code] at fetches
  | _ => simp [fetchesBlock, action, printInto, Expr.code] at fetches

/-! Taking keys apart. -/

private inductive Family where
  | number
  | buffer
  | climate
  | register (width : RegisterWidth)
  | block

private def Family.text : Family → String
  | number => "num_str"
  | buffer => "buffer"
  | climate => "dht11"
  | register width => width.stem
  | block => "i2c_read_bytes"

private theorem Family.eq_of_text {first second : Family} (same : first.text = second.text) :
    first = second := by
  rcases first with _ | _ | _ | (_ | _) | _ <;> rcases second with _ | _ | _ | (_ | _) | _ <;>
    first
      | rfl
      | exact absurd same (by decide)

private def family : Read → Family
  | number _ => .number
  | shown _ | file _ => .buffer
  | climate .. => .climate
  | register width _ _ => .register width
  | block .. => .block

private theorem takeWhile_key (read : Read) :
    read.key.toList.takeWhile (· != ':') = read.family.text.toList := by
  cases read with
  | register width transfer index =>
    cases width <;>
      simp [key, family, Family.text, slotKey, String.intercalate_cons_cons, RegisterWidth.stem]
  | block transfer memory length => simp [key, family, Family.text, slotKey, String.intercalate_cons_cons]
  | _ => simp [key, family, Family.text]

private theorem family_eq_of_key (same : a.key = b.key) : a.family = b.family := by
  refine Family.eq_of_text (String.toList_inj.1 ?_)
  rw [← takeWhile_key, ← takeWhile_key, same]

theorem exists_block_of_key {transfer : Transfer} {memory : Expr} {length : Nat}
    (same : a.key = (block transfer memory length).key) :
    ∃ transfer memory length, a = block transfer memory length := by
  have families := family_eq_of_key same
  cases a with
  | block transfer memory length => exact ⟨transfer, memory, length, rfl⟩
  | _ => contradiction

private theorem codes_eq_of_slotKey : ∀ {first second : List Expr},
    first.length = second.length → (∀ e ∈ first, e.Holds Atom.Spelled) →
      (∀ e ∈ second, e.Holds Atom.Spelled) → slotKey (first.map Expr.code) = slotKey (second.map Expr.code) →
          first.map Expr.code = second.map Expr.code
  | [], [], _, _, _, _ => rfl
  | [a], [b], _, _, _, same => by
    simpa [slotKey] using same
  | a :: c :: first, b :: d :: second, length, spelled, others, same => by
    simp only [List.map_cons, slotKey, String.intercalate_cons_cons] at same
    obtain ⟨code, rest⟩ := Expr.eq_of_colon (spelled a (by simp)) (others b (by simp)) same
    have later := @codes_eq_of_slotKey (c :: first) (d :: second) (by simpa using length)
      (fun e member => spelled e (List.mem_cons_of_mem _ member))
      (fun e member => others e (List.mem_cons_of_mem _ member)) rest
    exact congrArg₂ List.cons code later

private def keyParts : Read → List Expr
  | register width transfer index =>
    [.name width.stem, transfer.busNumber, transfer.address, index, transfer.timeout]
  | block transfer memory length =>
    [.name "i2c_read_bytes", transfer.busNumber, transfer.address, memory, .ofNat length,
      transfer.timeout]
  | _ => []

private theorem spelled_keyParts (spelled : ∀ e ∈ read.inputs, e.Holds Atom.Spelled) :
    ∀ e ∈ read.keyParts, e.Holds Atom.Spelled := by
  have number (n : Nat) : (Expr.ofNat n).Holds Atom.Spelled := C.isNumeral_toString n
  cases read with
  | register width transfer index =>
    have named : (Expr.name width.stem).Holds Atom.Spelled := by
      change C.Identifier.isIdentifier width.stem = true
      cases width <;> decide
    simp only [inputs, List.forall_mem_cons] at spelled
    simp only [keyParts, List.forall_mem_cons]
    exact ⟨named, number _, spelled⟩
  | block transfer memory length =>
    have named : (Expr.name "i2c_read_bytes").Holds Atom.Spelled :=
      (by decide : C.Identifier.isIdentifier _ = true)
    simp only [inputs, List.forall_mem_cons] at spelled
    simp only [keyParts, List.forall_mem_cons]
    exact ⟨named, number _, spelled.1, spelled.2.1, number _, spelled.2.2⟩
  | _ => exact nofun

private theorem name_injective : ∀ {first second : Pin}, first.name = second.name → first = second := by
  intro first second same
  cases first <;> cases second <;>
    first
      | rfl
      | exact absurd same (by decide)

private theorem climate_eq_of_key {first second : Climate} {pin place : Pin}
    (measured : first ∈ [temperature, humidity]) (measuredToo : second ∈ [temperature, humidity])
    (same : "dht11:" ++ first.label ++ ":" ++ pin.name = "dht11:" ++ second.label ++ ":" ++ place.name) :
    first = second ∧ pin = place := by
  have letters := congrArg String.toList same
  rcases List.mem_pair.1 measured with rfl | rfl <;> rcases List.mem_pair.1 measuredToo with rfl | rfl
  · exact ⟨rfl, name_injective ((String.append_right_inj _).1 same)⟩
  · simp [temperature, humidity] at letters
  · simp [temperature, humidity] at letters
  · exact ⟨rfl, name_injective ((String.append_right_inj _).1 same)⟩

/-- Two reads of one family that are written alike. Those that share their storage are all alike. -/
def Alike : Read → Read → Prop
  | number value, number other => value.code = other.code
  | shown _, shown _ | file _, file _ => True
  | climate quantity _ pin, climate other _ place => quantity = other ∧ pin = place
  | register width transfer index, register other transferToo indexToo =>
    width = other ∧ transfer.Alike transferToo ∧ index.code = indexToo.code
  | block transfer memory length, block transferToo memoryToo lengthToo =>
    transfer.Alike transferToo ∧ memory.code = memoryToo.code ∧ length = lengthToo
  | _, _ => False

private theorem toString_inj {n m : Nat} (same : toString n = toString m) : n = m :=
  @Draft.numbered_inj "" n m (congrArg (fun digits => "" ++ "_" ++ digits) same)

private theorem alike_of_codes {transfer other : Transfer}
    (bus : transfer.busNumber.code = other.busNumber.code)
    (address : transfer.address.code = other.address.code)
    (timeout : transfer.timeout.code = other.timeout.code) : transfer.Alike other := by
  refine ⟨?_, address, timeout⟩
  have index : transfer.bus.index = other.bus.index := toString_inj bus
  generalize transfer.bus = first, other.bus = second at index ⊢
  cases first <;> cases second <;>
    first
      | rfl
      | exact absurd index (by decide)

/-- A key can be taken apart, so that reads with one key are written alike. -/
theorem alike_of_key (first : ∀ e ∈ a.inputs, e.Holds Atom.Spelled)
    (second : ∀ e ∈ b.inputs, e.Holds Atom.Spelled) (same : a.key = b.key) : a.Alike b := by
  have families := family_eq_of_key same
  have codes (length : a.keyParts.length = b.keyParts.length)
      (keys : slotKey (a.keyParts.map Expr.code) = slotKey (b.keyParts.map Expr.code)) :
      a.keyParts.map Expr.code = b.keyParts.map Expr.code :=
    codes_eq_of_slotKey length (spelled_keyParts first) (spelled_keyParts second) keys
  cases a with
  | number value =>
    cases b with
    | number other => exact (String.append_right_inj _).1 same
    | _ => contradiction
  | shown =>
    cases b with
    | shown => trivial
    | file => exact absurd same (by simp [key])
    | _ => contradiction
  | file =>
    cases b with
    | file => trivial
    | shown => exact absurd same (by simp [key])
    | _ => contradiction
  | climate quantity measured pin =>
    cases b with
    | climate other measuredToo place => exact climate_eq_of_key measured measuredToo same
    | _ => contradiction
  | register width transfer index =>
    cases b with
    | register other transferToo indexToo =>
      injection families with width
      have parts := codes rfl same
      simp only [keyParts, List.map_cons, List.map_nil, List.cons.injEq] at parts
      obtain ⟨_, bus, address, index, timeout, _⟩ := parts
      exact ⟨width, alike_of_codes bus address timeout, index⟩
    | _ => contradiction
  | block transfer memory length =>
    cases b with
    | block transferToo memoryToo lengthToo =>
      have parts := codes rfl same
      simp only [keyParts, List.map_cons, List.map_nil, List.cons.injEq] at parts
      obtain ⟨_, bus, address, memory, length, timeout, _⟩ := parts
      exact ⟨alike_of_codes bus address timeout, memory, toString_inj length⟩
    | _ => contradiction

theorem Alike.key_eq (alike : a.Alike b) : a.key = b.key := by
  unfold Alike at alike
  split at alike
  · simp only [key, alike]
  · rfl
  · rfl
  · simp only [key, alike]
  · obtain ⟨rfl, ⟨bus, address, timeout⟩, index⟩ := alike
    simp only [key, bus, address, timeout, index]
  · obtain ⟨⟨bus, address, timeout⟩, memory, rfl⟩ := alike
    simp only [key, bus, address, timeout, memory]
  · exact alike.elim

theorem Alike.code_eq (alike : a.Alike b) (unshared : a.isShared = false) (slot : String) :
    (a.action slot).code = (b.action slot).code := by
  unfold Alike at alike
  split at alike
  · simp only [action, printInto, Expr.castGroup, Expr.code, Expr.listed, alike]
  · contradiction
  · contradiction
  · simp only [action, alike]
  · obtain ⟨rfl, ⟨bus, address, timeout⟩, index⟩ := alike
    simp [action, Transfer.call, Transfer.device, Transfer.busNumber, Transfer.patience,
      byteArgument, Expr.castGroup, Expr.code, Expr.listed, bus, address, index, timeout]
  · obtain ⟨⟨bus, address, timeout⟩, memory, rfl⟩ := alike
    simp [action, Transfer.call, Transfer.device, Transfer.busNumber, Transfer.patience,
      byteArgument, Expr.castGroup, Expr.code, Expr.listed, bus, address, memory, timeout]
  · exact alike.elim

/-- Reads with one key fill storage in the same way, unless it is storage that all of their kind share. -/
theorem code_eq_of_key (unshared : a.isShared = false) (first : ∀ e ∈ a.inputs, e.Holds Atom.Spelled)
    (second : ∀ e ∈ b.inputs, e.Holds Atom.Spelled) (same : a.key = b.key) (slot : String) :
    (a.action slot).code = (b.action slot).code :=
  (alike_of_key first second same).code_eq unshared slot

theorem sort_eq_of_key (same : a.key = b.key) : a.stem = b.stem ∧ a.isShared = b.isShared ∧
      ∀ slot, (Storage.mk slot a.type).place = (Storage.mk slot b.type).place := by
  have families := family_eq_of_key same
  cases a with
  | number => cases b <;> first | exact ⟨rfl, rfl, fun _ => rfl⟩ | contradiction
  | shown =>
    cases b with
    | shown => exact ⟨rfl, rfl, fun _ => rfl⟩
    | file => exact absurd same (by simp [key])
    | _ => contradiction
  | file =>
    cases b with
    | shown => exact absurd same (by simp [key])
    | file => exact ⟨rfl, rfl, fun _ => rfl⟩
    | _ => contradiction
  | climate quantity measured =>
    cases b with
    | climate other measuredToo =>
      have equal := (climate_eq_of_key measured measuredToo same).1
      exact ⟨congrArg Climate.stem equal, rfl, fun _ => rfl⟩
    | _ => contradiction
  | register =>
    cases b with
    | register =>
      injection families with width
      subst width
      exact ⟨rfl, rfl, fun _ => rfl⟩
    | _ => contradiction
  | block => cases b <;> first | exact ⟨rfl, rfl, fun _ => rfl⟩ | contradiction

/-! The storage that an action fills, by the text of the action. -/

private def opening (transfer : Transfer) (function : String) : List Token :=
  [.call function.toList, .mark ['('], .word (toString transfer.bus.index).toList, .mark [','],
    .mark ['('], .word "uint8_t".toList, .mark [')'], .mark ['(']]

private def middle : List Token :=
  [.mark [','], .mark ['('], .word "uint8_t".toList, .mark [')'], .mark ['(']]

private theorem tokens_call (transfer : Transfer) (function : String) (third next : Expr) (rest : List Expr) :
    (transfer.call function (byteArgument third :: next :: rest)).tokens =
      opening transfer function ++ (transfer.address.tokens ++ .mark [')'] :: (middle ++
        (third.tokens ++ .mark [')'] :: .mark [','] :: (next.tokens ++ .mark [','] ::
          (Expr.listTokens (rest ++ [transfer.patience]) ++ [.mark [')']]))))) := by
  have bus : (Expr.ofNat transfer.bus.index).tokens =
      [.word (toString transfer.bus.index).toList] := by
    cases transfer.bus <;> rfl
  have listed : Expr.listTokens (next :: (rest ++ [transfer.patience])) =
      next.tokens ++ .mark [','] :: Expr.listTokens (rest ++ [transfer.patience]) := by
    cases rest <;> rfl
  simp [Transfer.call, Transfer.device, Transfer.busNumber, Expr.tokens, Expr.listTokens, bus, listed,
    opening, middle, byteArgument, Expr.castGroup, Expr.typeTokens]

private theorem arguments_eq {first second : Transfer} {function reader : String}
    {third place next other : Expr} {rest more : List Expr}
    (same : (first.call function (byteArgument third :: next :: rest)).tokens =
      (second.call reader (byteArgument place :: other :: more)).tokens) :
    next.tokens ++ .mark [','] :: (Expr.listTokens (rest ++ [first.patience]) ++ [.mark [')']]) =
      other.tokens ++ .mark [','] :: (Expr.listTokens (more ++ [second.patience]) ++ [.mark [')']]) := by
  rw [tokens_call, tokens_call] at same
  have behind := (List.append_inj same rfl).2
  have between := (Expr.eq_of_closed behind).2
  have last := (List.append_inj between rfl).2
  exact (List.cons.inj (Expr.eq_of_closed last).2).2

private def isOnBus : Read → Bool
  | register .. | block .. => true
  | _ => false

private def start : Read → Token
  | number _ | shown _ => .call "snprintf".toList
  | file _ => .call "storage_simple_read".toList
  | climate .. => .word "app".toList
  | register width _ _ => .call width.reader.toList
  | block .. => .call "kb_i2c_read_mem_bytes".toList

private theorem head?_tokens_action (read : Read) (slot : String) :
    (read.action slot).tokens.head? = some read.start := by
  cases read <;> rfl

private theorem third_token_action (offBus : read.isOnBus = false) (slot : String) :
    (read.action slot).tokens[2]? = some (.word slot.toList) := by
  cases read with
  | register | block => contradiction
  | _ => rfl

private theorem isOnBus_eq_of_start (same : a.start = b.start) : a.isOnBus = b.isOnBus := by
  rcases a with _ | _ | _ | _ | ⟨_ | _, _, _⟩ | _ <;>
    rcases b with _ | _ | _ | _ | ⟨_ | _, _, _⟩ | _ <;>
      first
        | rfl
        | exact absurd same (by simp [start, RegisterWidth.reader])

/-- The text of an action tells which storage it fills. -/
theorem slot_eq_of_code (first : (a.action slot).Holds Atom.Spelled)
    (second : (b.action other).Holds Atom.Spelled)
    (same : (a.action slot).code = (b.action other).code) : slot = other := by
  have tokens : (a.action slot).tokens = (b.action other).tokens := by
    rw [← ((a.action slot).reads first).tokens_eq, same, ((b.action other).reads second).tokens_eq]
  have starts : a.start = b.start := by
    have heads := head?_tokens_action a slot
    rw [tokens, head?_tokens_action] at heads
    exact (Option.some.inj heads).symm
  have sorts := isOnBus_eq_of_start starts
  -- The storage is the third token of an action, but in calls on a bus it stands behind expressions.
  cases onBus : a.isOnBus with
  | false =>
    have third := third_token_action onBus slot
    rw [tokens, third_token_action (sorts ▸ onBus), Option.some.injEq, Token.word.injEq] at third
    exact (String.toList_inj.1 third).symm
  | true =>
    rw [onBus] at sorts
    cases a with
    | register width transfer index =>
      cases b with
      | register =>
        have places := arguments_eq tokens
        simp only [Expr.tokens, List.cons_append, List.cons.injEq, Token.word.injEq] at places
        exact String.toList_inj.1 places.2.2.2.1
      | block =>
        refine absurd starts ?_
        cases width <;> simp [start, RegisterWidth.reader]
      | _ => contradiction
    | block transfer memory length =>
      cases b with
      | register width =>
        refine absurd starts ?_
        cases width <;> simp [start, RegisterWidth.reader]
      | block =>
        have arrays := arguments_eq tokens
        simp only [Expr.tokens, List.cons_append, List.cons.injEq, Token.word.injEq] at arrays
        exact String.toList_inj.1 arrays.1
      | _ => contradiction
    | _ => contradiction

end

end Read

end FlipperBlocks
