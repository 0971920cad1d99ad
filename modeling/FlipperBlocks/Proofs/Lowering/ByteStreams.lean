import FlipperBlocks.Proofs.Block.InputNames
import FlipperBlocks.Proofs.C.Literals
import FlipperBlocks.Proofs.Lowering.Blocks

/-! Byte streams hold the bytes that their fields spell. -/
namespace FlipperBlocks

namespace Text

/-- A text of tokens with blanks between them, and perhaps around them. -/
inductive Spaced : List (List Char) → List Char → Prop
  | nil {gap : List Char} (blank : gap.all isBlank = true) : Spaced [] gap
  | cons {gap token text : List Char} {tokens : List (List Char)} (blank : gap.all isBlank = true)
      (some : token ≠ []) (solid : token.all (!isBlank ·) = true) (ends : text.head?.all isBlank = true)
      (rest : Spaced tokens text) : Spaced (token :: tokens) (gap ++ (token ++ text))

private theorem wordsFrom_gap {gap : List Char} (blank : gap.all isBlank = true) (text : List Char) :
    wordsFrom [] (gap ++ text) = wordsFrom [] text := by
  induction gap with
  | nil => rfl
  | cons c gap ih =>
    obtain ⟨here, later⟩ := Bool.and_eq_true_iff.1 blank
    rw [List.cons_append, wordsFrom, if_pos here, List.isEmpty_nil, if_pos rfl, ih later]

private theorem wordsFrom_token {token : List Char} (solid : token.all (!isBlank ·) = true)
    (word text : List Char) : wordsFrom word (token ++ text) = wordsFrom (token.reverse ++ word) text := by
  induction token generalizing word with
  | nil => rfl
  | cons c token ih =>
    obtain ⟨here, later⟩ := Bool.and_eq_true_iff.1 solid
    rw [List.cons_append, wordsFrom, if_neg (by simpa using here), ih later, List.reverse_cons,
      List.append_assoc, List.singleton_append]

theorem Spaced.words_eq {tokens : List (List Char)} {text : String}
    (spaced : Spaced tokens text.toList) : words text = tokens := by
  rw [words]
  generalize text.toList = cs at spaced
  induction spaced with
  | @nil gap blank =>
    have passed := wordsFrom_gap blank []
    rwa [List.append_nil] at passed
  | @cons gap token text tokens blank some solid ends rest ih =>
    have read : (token.reverse ++ []).isEmpty = false := by simpa using some
    have back : (token.reverse ++ []).reverse = token := by simp
    rw [wordsFrom_gap blank, wordsFrom_token solid, ← ih]
    cases text with
    | nil => rw [wordsFrom, wordsFrom, read, back]; rfl
    | cons c text =>
      have blank : isBlank c = true := ends
      rw [wordsFrom, wordsFrom, if_pos blank, if_pos blank, read, back]
      rfl

end Text

namespace Lowering

/-- Hexadecimal digits and the number that they spell. -/
inductive HexNumber : List Char → Nat → Prop
  | nil : HexNumber [] 0
  | snoc {digits : List Char} {n value : Nat} {c : Char} (number : HexNumber digits n)
      (digit : C.hexValue? c = some value) : HexNumber (digits ++ [c]) (16 * n + value)

private theorem hexValue?_eq (c : Char) : hexValue? c = C.hexValue? c := by
  unfold hexValue? C.hexValue?
  simp only [Char.isDigit, Bool.and_eq_true, decide_eq_true_eq, ge_iff_le, Char.le_def,
    UInt32.le_iff_toNat_le]
  change (if 48 ≤ c.toNat ∧ c.toNat ≤ 57 then _ else if 97 ≤ c.toNat ∧ c.toNat ≤ 102 then _
    else if 65 ≤ c.toNat ∧ c.toNat ≤ 70 then _ else _) = _
  grind

theorem hexNumber?_eq_some_iff {digits : List Char} {n : Nat} :
    hexNumber? digits = some n ↔ HexNumber digits n := by
  have snoc (digits : List Char) (c : Char) : hexNumber? (digits ++ [c]) =
      (hexNumber? digits).bind fun n => (C.hexValue? c).map (16 * n + ·) := by
    simp [hexNumber?, List.foldlM_append, hexValue?_eq]
  constructor
  · intro spelled
    induction digits using List.reverseRecOn generalizing n with
    | nil =>
      cases spelled
      exact .nil
    | append_singleton digits c ih =>
      rw [snoc] at spelled
      obtain ⟨most, before, last⟩ := Option.bind_eq_some_iff.1 spelled
      obtain ⟨value, digit, rfl⟩ := Option.map_eq_some_iff.1 last
      exact .snoc (ih before) digit
  · intro number
    induction number with
    | nil => rfl
    | snoc number digit ih =>
      rw [snoc, ih, digit]
      rfl

theorem HexNumber.hexValue?_ne_none {digits : List Char} {n : Nat} (number : HexNumber digits n) :
    ∀ c ∈ digits, C.hexValue? c ≠ none := by
  induction number with
  | nil => simp
  | snoc number digit ih => exact List.forall_mem_append.2 ⟨ih, List.forall_mem_singleton.2 (by simp [digit])⟩

/-- What may stand in front of hexadecimal digits. -/
def hexMarks : List (List Char) := [[], ['0', 'x'], ['0', 'X']]

/-- One or two hexadecimal digits, perhaps behind a mark. -/
def WritesByte (token : List Char) (byte : UInt8) : Prop :=
  ∃ mark ∈ hexMarks, ∃ digits, (digits.length = 1 ∨ digits.length = 2) ∧
    HexNumber digits byte.toNat ∧ token = mark ++ digits

/-- A hexadecimal number below 256, perhaps behind a mark and then a plus sign. -/
def SpellsByte (token : List Char) : Prop :=
  ∃ mark ∈ hexMarks, ∃ sign ∈ [[], ['+']], ∃ digits n, digits ≠ [] ∧ HexNumber digits n ∧ n < 256 ∧
    token = mark ++ (sign ++ digits)

variable {token : List Char} {c : Char} {tokens : List (List Char)} {bytes : List UInt8}

theorem WritesByte.byteOfWord?_eq {byte : UInt8} (written : WritesByte token byte) :
    byteOfWord? token = some byte := by
  obtain ⟨mark, among, digits, few, number, rfl⟩ := written
  have digit := number.hexValue?_ne_none
  have plain : dropPlus digits = digits := by
    unfold dropPlus
    split
    · exact absurd rfl (digit '+' (by simp))
    · rfl
  have marked : dropHexMark (mark ++ digits) = digits := by
    simp only [hexMarks, List.mem_cons, List.not_mem_nil, or_false] at among
    obtain rfl | rfl | rfl := among
    · rw [List.nil_append]
      unfold dropHexMark
      split
      · exact absurd rfl (digit 'x' (by simp))
      · exact absurd rfl (digit 'X' (by simp))
      · rfl
    · rfl
    · rfl
  have some : digits.isEmpty = false := by
    cases digits with
    | nil => simp at few
    | cons => rfl
  rw [byteOfWord?, marked, plain]
  simp [some, hexNumber?_eq_some_iff.2 number, byte.toNat_lt]

theorem byteOfWord?_eq_none (other : ¬ SpellsByte token) : byteOfWord? token = none := by
  have marked : ∃ mark ∈ hexMarks, token = mark ++ dropHexMark token := by
    unfold dropHexMark
    split
    · exact ⟨['0', 'x'], by simp [hexMarks], rfl⟩
    · exact ⟨['0', 'X'], by simp [hexMarks], rfl⟩
    · exact ⟨[], by simp [hexMarks], rfl⟩
  have signed : ∃ sign ∈ [[], ['+']], dropHexMark token = sign ++ dropPlus (dropHexMark token) := by
    unfold dropPlus
    split
    · exact ⟨['+'], by simp, by assumption⟩
    · exact ⟨[], by simp, rfl⟩
  obtain ⟨mark, among, front⟩ := marked
  obtain ⟨sign, among', back⟩ := signed
  rw [byteOfWord?]
  split
  case isTrue => rfl
  case isFalse some =>
  split
  case h_1 n spelled =>
    exact if_neg fun small => other ⟨mark, among, sign, among', _, n, by simpa using some,
      hexNumber?_eq_some_iff.1 spelled, small, back ▸ front⟩
  case h_2 => rfl

/-! The items of a declaration. -/

/-- The byte that an item at the start of some characters stands for. -/
def itemAt? : List Char → Option UInt8
  | '0' :: 'x' :: high :: low :: _ =>
    (C.hexValue? high).bind fun first => (C.hexValue? low).map fun second => UInt8.ofNat (16 * first + second)
  | _ => none

/-- The items of the form `0xHH` in a text. -/
def itemsIn : List Char → List UInt8
  | [] => []
  | c :: cs => (itemAt? (c :: cs)).toList ++ itemsIn cs

private theorem itemsIn_cons {cs : List Char} (other : c ≠ '0' ∨ cs.head? ≠ some 'x') :
    itemsIn (c :: cs) = itemsIn cs := by
  have none : itemAt? (c :: cs) = none := by
    unfold itemAt?
    split
    · simp_all
    · rfl
  rw [itemsIn, none, Option.toList_none, List.nil_append]

private theorem itemsIn_append {front rest : List Char} (free : 'x' ∉ front)
    (apart : c ≠ '0' ∧ c ≠ 'x') : itemsIn (front ++ c :: rest) = itemsIn rest := by
  induction front with
  | nil => exact itemsIn_cons (.inl apart.1)
  | cons first front ih =>
    rw [List.mem_cons, not_or] at free
    rw [List.cons_append, itemsIn_cons (.inr ?_), ih free.2]
    cases front with
    | nil => simpa using apart.2
    | cons next front => simpa using fun same => free.2 (by simp [same])

private theorem itemsIn_hexByte (byte : UInt8) (apart : c ≠ '0' ∧ c ≠ 'x')
    (rest : List Char) : itemsIn ((hexByte byte).toList ++ c :: rest) = byte :: itemsIn rest := by
  have digit : ∀ n < 16, C.hexValue? (C.hexDigit n).toUpper = some n ∧
      (C.hexDigit n).toUpper ≠ 'x' := by decide
  have high := digit (byte.toNat / 16) (by have := byte.toNat_lt; omega)
  have low := digit (byte.toNat % 16) (Nat.mod_lt _ (by decide))
  have item : itemAt? ((hexByte byte).toList ++ c :: rest) = some byte := by
    rw [hexByte, String.toList_ofList]
    simp only [List.cons_append, itemAt?, high.1, low.1, Option.bind_some, Option.map_some,
      Nat.div_add_mod, UInt8.ofNat_toNat]
  rw [hexByte, String.toList_ofList] at item ⊢
  rw [List.cons_append, itemsIn, ← List.cons_append, item, List.cons_append, itemsIn_cons (.inl (by decide)),
    itemsIn_append (by simp [high.2.symm, low.2.symm]) apart]
  rfl

private theorem x_not_mem_toString (n : Nat) : 'x' ∉ (toString n).toList :=
  fun member => absurd (isDigit_of_mem_toString member) (by decide)

theorem itemsIn_declaration {array : String} (free : 'x' ∉ array.toList) (bytes : List UInt8) :
    itemsIn (Storage.declaration ⟨array, .bytes bytes.length (some bytes)⟩).toList = bytes := by
  have listed : itemsIn ((", ".intercalate (bytes.map hexByte)).toList ++ " \x7d;".toList) = bytes := by
    induction bytes with
    | nil => rfl
    | cons byte rest ih =>
      cases rest with
      | nil =>
        rw [List.map_singleton, String.intercalate_singleton]
        exact itemsIn_hexByte byte (by decide) _
      | cons next rest =>
        rw [List.map_cons, List.map_cons, String.intercalate_cons_cons, ← List.map_cons,
          String.toList_append, String.toList_append, List.append_assoc, List.append_assoc]
        refine (itemsIn_hexByte byte (by decide) _).trans ?_
        exact congrArg _ ((itemsIn_cons (.inl (by decide))).trans ih)
  have front : 'x' ∉ ("uint8_t " ++ array ++ "[" ++ toString bytes.length ++ "] = \x7b").toList := by
    simpa [free] using x_not_mem_toString bytes.length
  have split : (Storage.declaration ⟨array, .bytes bytes.length (some bytes)⟩).toList =
      ("uint8_t " ++ array ++ "[" ++ toString bytes.length ++ "] = \x7b").toList ++
        ' ' :: ((", ".intercalate (bytes.map hexByte)).toList ++ " \x7d;".toList) := by
    simp [Storage.declaration]
  rw [split, itemsIn_append front (by decide), listed]

/-! The arrays of streams. -/

private theorem bytesOfText_eq {text : String} (spaced : Text.Spaced tokens text.toList) (some : bytes ≠ [])
    (found : tokens.filterMap byteOfWord? = bytes) : bytesOfText text = bytes := by
  rw [bytesOfText, spaced.words_eq, found]
  split
  · contradiction
  · rfl

private theorem filterMap_byteOfWord?
    (written : List.Forall₂ WritesByte tokens bytes) : tokens.filterMap byteOfWord? = bytes := by
  induction written with
  | nil => rfl
  | cons here _ ih => rw [List.filterMap_cons_some here.byteOfWord?_eq, ih]

private theorem run_byteStream {site : Site}
    (spelled : bytesOfText (site.head.rawField "BYTES") = bytes) (c : Compilation) :
    ∃ array after, byteStream site c = (.bytes array, after) ∧ 'x' ∉ array.toList ∧
      after.draft.storage = c.draft.storage ++ [⟨array, .bytes bytes.length (some bytes)⟩] := by
  let number := c.draft.freshNumber "byte_stream"
  have free : (c.draft.advance "byte_stream" number).lookup?
      (Draft.numbered "byte_stream" number) = none := c.draft.lookup?_freshNumber "byte_stream"
  refine ⟨Draft.numbered "byte_stream" number, _, rfl, ?_, ?_⟩
  · simpa [Draft.numbered] using x_not_mem_toString number
  · change (Draft.declare _ (c.draft.advance "byte_stream" number)).storage = _
    rw [Draft.declare_of_free free, spelled]
    rfl

end Lowering

open Lowering

private theorem Block.value_byteStream {block : Block} (kind : block.head.kind = .byteStream)
    (wantsText : Bool) : block.meaning.value wantsText = byteStream block.site := by
  rw [block.meaning_eq]
  change Site.asValue block.site wantsText = _
  rw [Site.asValue, show block.site.kind = .byteStream from kind]

/-- A stream of bytes that are written one by one, with any blanks between them, is declared as an array
of just these bytes, and they can be read from the declaration. Another token among them changes nothing. -/
theorem Block.byteStream_faithful {block : Block} (kind : block.head.kind = .byteStream)
    {tokens : List (List Char)} {bytes : List UInt8} (nonempty : bytes ≠ [])
    (written : List.Forall₂ WritesByte tokens bytes)
    (spaced : Text.Spaced tokens (block.head.rawField "BYTES").toList) (wantsText : Bool) (c : Compilation) :
    (∃ array after, block.meaning.value wantsText c = (.bytes array, after) ∧
      after.draft.storage = c.draft.storage ++ [⟨array, .bytes bytes.length (some bytes)⟩] ∧
      ("uint8_t " ++ array ++ "[" ++ toString bytes.length ++ "] = \x7b ").toList <+:
        (Storage.declaration ⟨array, .bytes bytes.length (some bytes)⟩).toList ∧
      itemsIn (Storage.declaration ⟨array, .bytes bytes.length (some bytes)⟩).toList = bytes) ∧
    ∀ (other : Block) (before after : List (List Char)) (token : List Char),
      other.head.kind = .byteStream → tokens = before ++ after → ¬ SpellsByte token →
      Text.Spaced (before ++ token :: after) (other.head.rawField "BYTES").toList →
      other.meaning.value wantsText c = block.meaning.value wantsText c := by
  have spelled : bytesOfText (block.site.head.rawField "BYTES") = bytes :=
    bytesOfText_eq spaced nonempty (filterMap_byteOfWord? written)
  rw [block.value_byteStream kind]
  refine ⟨?_, fun other before after token otherKind split unspelled otherSpaced => ?_⟩
  · obtain ⟨array, after, run, free, declared⟩ := run_byteStream spelled c
    refine ⟨array, after, run, declared, ?_, itemsIn_declaration free bytes⟩
    exact ⟨(", ".intercalate (bytes.map hexByte) ++ " \x7d;").toList, by simp [Storage.declaration]⟩
  · have same : bytesOfText (other.site.head.rawField "BYTES") = bytes := by
      refine bytesOfText_eq otherSpaced nonempty ?_
      rw [List.filterMap_append, List.filterMap_cons_none (byteOfWord?_eq_none unspelled),
        ← List.filterMap_append, ← split]
      exact filterMap_byteOfWord? written
    rw [other.value_byteStream otherKind, byteStream, byteStream, same, spelled]

private def streamOf (text : String) : Block :=
  .mk { kind := .byteStream, fields := [("BYTES", .text text)] } [] []

theorem byteStream_faithful_three :
    (∃ array after, (streamOf "\u3000\n0Xa fF\t7 ").meaning.value false {} = (.bytes array, after) ∧
      after.draft.storage = [⟨array, .bytes 3 (some [10, 255, 7])⟩] ∧
      itemsIn (Storage.declaration ⟨array, .bytes 3 (some [10, 255, 7])⟩).toList = [10, 255, 7]) ∧
    (streamOf "0Xa fF 0x+ 7").meaning.value false {} =
      (streamOf "\u3000\n0Xa fF\t7 ").meaning.value false {} := by
  have ten : WritesByte ['0', 'X', 'a'] 10 :=
    ⟨['0', 'X'], by simp [hexMarks], ['a'], .inl rfl, @HexNumber.snoc [] 0 10 'a' .nil (by decide), rfl⟩
  have most : WritesByte ['f', 'F'] 255 :=
    ⟨[], by simp [hexMarks], ['f', 'F'], .inr rfl, @HexNumber.snoc ['f'] 15 15 'F'
      (@HexNumber.snoc [] 0 15 'f' .nil (by decide)) (by decide), rfl⟩
  have seven : WritesByte ['7'] 7 :=
    ⟨[], by simp [hexMarks], ['7'], .inl rfl, @HexNumber.snoc [] 0 7 '7' .nil (by decide), rfl⟩
  have spaced : Text.Spaced [['0', 'X', 'a'], ['f', 'F'], ['7']]
      ['\u3000', '\n', '0', 'X', 'a', ' ', 'f', 'F', '\t', '7', ' '] :=
    @Text.Spaced.cons ['\u3000', '\n'] _ [' ', 'f', 'F', '\t', '7', ' '] _ rfl (by simp) rfl rfl <|
      @Text.Spaced.cons [' '] _ ['\t', '7', ' '] _ rfl (by simp) rfl rfl <|
        @Text.Spaced.cons ['\t'] _ [' '] _ rfl (by simp) rfl rfl (.nil rfl)
  have others : Text.Spaced [['0', 'X', 'a'], ['f', 'F'], ['0', 'x', '+'], ['7']]
      ['0', 'X', 'a', ' ', 'f', 'F', ' ', '0', 'x', '+', ' ', '7'] :=
    @Text.Spaced.cons [] _ [' ', 'f', 'F', ' ', '0', 'x', '+', ' ', '7'] _ rfl (by simp) rfl rfl <|
      @Text.Spaced.cons [' '] _ [' ', '0', 'x', '+', ' ', '7'] _ rfl (by simp) rfl rfl <|
        @Text.Spaced.cons [' '] _ [' ', '7'] _ rfl (by simp) rfl rfl <|
          @Text.Spaced.cons [' '] _ [] _ rfl (by simp) rfl rfl (.nil rfl)
  have faithful := @Block.byteStream_faithful (streamOf "\u3000\n0Xa fF\t7 ") rfl _ _ (by simp)
    (.cons ten (.cons most (.cons seven .nil))) spaced false {}
  obtain ⟨array, after, given, declared, _, read⟩ := faithful.1
  refine ⟨⟨array, after, given, declared, read⟩, faithful.2 (streamOf "0Xa fF 0x+ 7")
    [['0', 'X', 'a'], ['f', 'F']] [['7']] ['0', 'x', '+'] rfl rfl ?_ others⟩
  rintro ⟨mark, _, sign, _, _, _, some, number, _, same⟩
  cases number with
  | nil => exact some rfl
  | snoc number digit =>
    have last := congrArg List.getLast? same
    simp only [← List.append_assoc, List.getLast?_append, List.getLast?_singleton, Option.some_or] at last
    obtain rfl := Option.some.inj last
    cases digit

end FlipperBlocks
