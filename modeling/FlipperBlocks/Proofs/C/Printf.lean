import FlipperBlocks.Lowering.Logging
import FlipperBlocks.Proofs.C.Literals

/-! How a format is printed.

A text goes into a format with its percent signs doubled, and is printed as it stands in its literal. That fails
only if a number in the literal comes to a percent sign, which nothing doubles. -/
namespace FlipperBlocks.C

namespace Printf

inductive Piece where
  | byte (byte : UInt8)
  | directive (letter : UInt8)
  | broken
  deriving DecidableEq

inductive Stage where
  | text
  | start
  | flags
  | width
  | precision
  | size
  deriving DecidableEq

def percent : UInt8 := 0x25

/-- What a byte is in a directive. The width and the precision may be arguments too. -/
def directiveStep (stage : Stage) (byte : UInt8) : List Piece × Option Stage :=
  if byte = 0 then ([.broken], none)
  else if stage = .flags && [0x20, 0x23, 0x2b, 0x2d, 0x30].contains byte then ([], some .flags)
  else if stage = .precision && 0x30 ≤ byte && byte ≤ 0x39 then ([], some .precision)
  else if (stage = .flags || stage = .width) && 0x30 ≤ byte && byte ≤ 0x39 then ([], some .width)
  else if stage = .precision && byte = 0x2a then ([.directive byte], some .size)
  else if stage = .flags && byte = 0x2a then ([.directive byte], some .width)
  else if (stage = .flags || stage = .width) && byte = 0x2e then ([], some .precision)
  else if [0x4c, 0x68, 0x6a, 0x6c, 0x74, 0x7a].contains byte then ([], some .size)
  else ([.directive byte], some .text)

def step : Stage → UInt8 → List Piece × Option Stage
  | .text, byte =>
    if byte = 0 then ([], none)
    else if byte = percent then ([], some .start)
    else ([.byte byte], some .text)
  | .start, byte =>
    if byte = percent then ([.byte byte], some .text) else directiveStep .flags byte
  | stage, byte => directiveStep stage byte

def pieces : Stage → List UInt8 → List Piece
  | .text, [] => []
  | _, [] => [.broken]
  | stage, byte :: rest => (step stage byte).1 ++ (step stage byte).2.elim [] fun next => pieces next rest

def directives (format : List UInt8) : Nat :=
  (pieces .text format).countP fun
    | .byte _ => false
    | _ => true

end Printf

def stringBytes (bytes : List UInt8) : List UInt8 := bytes.takeWhile (· ≠ 0)

namespace Printf

variable {byte : UInt8} {rest format bytes : List UInt8}

theorem pieces_cons (stage : Stage) (byte : UInt8) (rest : List UInt8) : pieces stage (byte :: rest) =
      (step stage byte).1 ++ (step stage byte).2.elim [] fun next => pieces next rest := by
  cases stage <;> rfl

theorem pieces_byte (inside : byte ≠ 0) (plain : byte ≠ percent) (rest : List UInt8) :
    pieces .text (byte :: rest) = .byte byte :: pieces .text rest := by
  simp [pieces, step, inside, plain]

theorem pieces_percents (rest : List UInt8) :
    pieces .text (percent :: percent :: rest) = .byte percent :: pieces .text rest := by
  simp [pieces, step, percent]

theorem pieces_zero (rest : List UInt8) : pieces .text (0 :: rest) = [] := by simp [pieces, step]

theorem pieces_append {front : List UInt8} (plain : ∀ byte ∈ front, byte ≠ 0 ∧ byte ≠ percent)
    (rest : List UInt8) : pieces .text (front ++ rest) = front.map .byte ++ pieces .text rest := by
  induction front with
  | nil => rfl
  | cons byte front ih =>
    obtain ⟨⟨inside, other⟩, later⟩ := List.forall_mem_cons.1 plain
    rw [List.cons_append, pieces_byte inside other, ih later, List.map_cons, List.cons_append]

theorem directives_eq {text : List UInt8} {more : List UInt8}
    (printed : pieces .text format = text.map .byte ++ more.map .directive) :
    directives format = more.length := by
  rw [directives, printed, List.countP_append, List.countP_map, List.countP_map]
  simp [Function.comp_def]

private theorem directiveStep_cases (stage : Stage) (byte : UInt8) :
    (∃ piece ∈ (directiveStep stage byte).1, ∀ byte, piece ≠ .byte byte) ∨
      ∃ next, directiveStep stage byte = ([], some next) ∧ next ≠ .text ∧ next ≠ .start := by
  unfold directiveStep
  split_ifs <;> simp

private theorem exists_directive {stage : Stage} (notText : stage ≠ .text) (notStart : stage ≠ .start)
    (format : List UInt8) : ∃ piece ∈ pieces stage format, ∀ byte, piece ≠ .byte byte := by
  induction format generalizing stage with
  | nil => cases stage <;> simp_all [pieces]
  | cons byte rest ih =>
    have same : step stage byte = directiveStep stage byte := by
      cases stage with
      | text | start => contradiction
      | _ => rfl
    rw [pieces_cons, same]
    rcases directiveStep_cases stage byte with ⟨piece, member, other⟩ | ⟨next, goes, other⟩
    · exact ⟨piece, List.mem_append_left _ member, other⟩
    · rw [goes]
      exact ih other.1 other.2

private theorem stringBytes_cons (inside : byte ≠ 0) :
    stringBytes (byte :: rest) = byte :: stringBytes rest := by
  simp [stringBytes, inside]

private theorem stringBytes_zero : stringBytes (0 :: rest) = [] := by simp [stringBytes]

/-- Of the percent signs of a format without directives, every other one is printed. -/
theorem count_percent {text : List UInt8} (printed : pieces .text format = text.map .byte) :
    (stringBytes format).count percent = 2 * text.count percent := by
  -- Right behind a percent sign, one more has been read already.
  have both : (pieces .text format = text.map .byte →
      (stringBytes format).count percent = 2 * text.count percent) ∧
      (pieces .start format = text.map .byte →
        (stringBytes format).count percent + 1 = 2 * text.count percent) := by
    clear printed
    induction format generalizing text with
    | nil => cases text <;> simp [pieces, stringBytes]
    | cons byte rest ih =>
      constructor
      · intro printed
        by_cases ends : byte = 0
        · subst ends
          rw [pieces_zero, eq_comm, List.map_eq_nil_iff] at printed
          rw [stringBytes_zero, printed]
          rfl
        · rw [stringBytes_cons ends]
          by_cases sign : byte = percent
          · subst sign
            have later : pieces .text (percent :: rest) = pieces .start rest := by
              rw [pieces_cons]
              rfl
            rw [List.count_cons_self]
            exact ih.2 (later.symm.trans printed)
          · rw [pieces_byte ends sign, eq_comm, List.map_eq_cons_iff] at printed
            obtain ⟨first, more, rfl, same, printed⟩ := printed
            injection same with same
            rw [same, List.count_cons_of_ne sign, List.count_cons_of_ne sign]
            exact ih.1 printed.symm
      · intro printed
        by_cases sign : byte = percent
        · have later : pieces .start (percent :: rest) = .byte percent :: pieces .text rest := by
            rw [pieces_cons]
            rfl
          rw [sign, later, eq_comm, List.map_eq_cons_iff] at printed
          obtain ⟨first, more, rfl, same, printed⟩ := printed
          injection same with same
          have counted := ih.1 printed.symm
          rw [sign, same, stringBytes_cons (by decide), List.count_cons_self, List.count_cons_self]
          omega
        · have same : pieces .start (byte :: rest) = pieces .flags (byte :: rest) := by
            rw [pieces_cons, pieces_cons, step, if_neg sign]
            rfl
          obtain ⟨piece, member, other⟩ := @exists_directive .flags (by decide) (by decide) (byte :: rest)
          rw [← same, printed] at member
          obtain ⟨byte, _, rfl⟩ := List.mem_map.1 member
          exact absurd rfl (other byte)
  exact both.1 printed

end Printf

/-! Numbers in a literal that come to a percent sign. -/

def numberFrom (value : Nat) : List Char → Nat
  | [] => value
  | c :: rest =>
    match hexValue? c with
    | some digit => numberFrom (value * 16 + digit) rest
    | none => value

/-- Whether a number in the literal of a text comes to a percent sign, before one that comes to the zero that
ends a string. -/
def hidesPercent : List Char → Bool
  | [] => false
  | c :: rest =>
    if isNumbered c then
      numberFrom c.toNat rest = 0x25 || (numberFrom c.toNat rest ≠ 0 && hidesPercent rest)
    else hidesPercent rest

def doubled (list : List Char) : List Char := list.flatMap fun c => if c = '%' then ['%', '%'] else [c]

namespace Printf

variable {byte : UInt8} {format bytes : List UInt8} {hides : Bool}

/-- What the format for a literal prints, given whether the literal hides a percent sign. -/
structure Prints (hides : Bool) (bytes format : List UInt8) : Prop where
  text : hides = false → pieces .text format = (stringBytes bytes).map .byte
  percents : (stringBytes format).count percent ≤ 2 * (stringBytes bytes).count percent
  hidden : hides = true →
    (stringBytes format).count percent < 2 * (stringBytes bytes).count percent

namespace Prints

theorem nil : Prints false [] [] where
  text _ := rfl
  percents := Nat.le_refl _
  hidden impossible := nomatch impossible

theorem plain (inside : byte ≠ 0) (other : byte ≠ percent) (prints : Prints hides bytes format) :
    Prints hides (byte :: bytes) (byte :: format) where
  text shows := by rw [pieces_byte inside other, prints.text shows, stringBytes_cons inside, List.map_cons]
  percents := by
    rw [stringBytes_cons inside, stringBytes_cons inside, List.count_cons_of_ne other,
      List.count_cons_of_ne other]
    exact prints.percents
  hidden hides := by
    rw [stringBytes_cons inside, stringBytes_cons inside, List.count_cons_of_ne other,
      List.count_cons_of_ne other]
    exact prints.hidden hides

theorem written (prints : Prints hides bytes format) :
    Prints hides (percent :: bytes) (percent :: percent :: format) := by
  have inside : percent ≠ 0 := by decide
  constructor
  case text =>
    intro shows
    rw [pieces_percents, prints.text shows, stringBytes_cons inside, List.map_cons]
  all_goals
    rw [stringBytes_cons inside, stringBytes_cons inside, stringBytes_cons inside, List.count_cons_self,
      List.count_cons_self, List.count_cons_self]
  case percents =>
    have := prints.percents
    omega
  case hidden =>
    intro hides
    have := prints.hidden hides
    omega

/-- A number adds a byte that is not doubled. -/
theorem number {value : Nat} (small : value < 256) (prints : Prints hides bytes format) :
    Prints (value = 0x25 || (value ≠ 0 && hides)) (UInt8.ofNat value :: bytes)
      (UInt8.ofNat value :: format) := by
  have byte_ne {other : UInt8} (differs : value ≠ other.toNat) : UInt8.ofNat value ≠ other := by
    rintro rfl
    rw [UInt8.toNat_ofNat_of_lt' small] at differs
    contradiction
  by_cases sign : value = 0x25
  · subst sign
    have inside : percent ≠ 0 := by decide
    have fewer : (stringBytes (percent :: format)).count percent <
        2 * (stringBytes (percent :: bytes)).count percent := by
      have := prints.percents
      rw [stringBytes_cons inside, stringBytes_cons inside, List.count_cons_self, List.count_cons_self]
      omega
    exact ⟨fun shows => absurd shows (by simp), Nat.le_of_lt fewer, fun _ => fewer⟩
  · by_cases zero : value = 0
    · subst zero
      have ends (rest : List UInt8) : stringBytes (UInt8.ofNat 0 :: rest) = [] := stringBytes_zero
      refine ⟨fun _ => ?_, ?_, fun hidden => absurd hidden (by simp)⟩
      · rw [ends]
        exact pieces_zero format
      · rw [ends, ends]
        exact Nat.le_refl _
    · have same : (decide (value = 0x25) || (decide (value ≠ 0) && hides)) = hides := by
        simp [sign, zero]
      rw [same]
      exact prints.plain (byte_ne zero) (byte_ne sign)

theorem append {front : List UInt8} (plain : ∀ byte ∈ front, byte ≠ 0 ∧ byte ≠ percent)
    (prints : Prints hides bytes format) : Prints hides (front ++ bytes) (front ++ format) := by
  induction front with
  | nil => exact prints
  | cons byte front ih =>
    obtain ⟨⟨inside, other⟩, later⟩ := List.forall_mem_cons.1 plain
    exact (ih later).plain inside other

theorem printed_iff (prints : Prints hides bytes format) :
    pieces .text format = (stringBytes bytes).map .byte ↔ hides = false := by
  refine ⟨fun printed => ?_, prints.text⟩
  have counted := count_percent printed
  cases hides with
  | false => rfl
  | true =>
    have := prints.hidden rfl
    omega

end Prints

end Printf

/-- Only the percent sign is encoded with the byte of one, and only the zero character with a zero. -/
theorem plain_utf8EncodeChar {c : Char} (inside : c.toNat ≠ 0) (other : c ≠ '%') :
    ∀ byte ∈ String.utf8EncodeChar c, byte ≠ 0 ∧ byte ≠ Printf.percent := by
  have byte_ne {value : Nat} (small : value < 256) (notZero : value ≠ 0) (notSign : value ≠ 0x25) :
      UInt8.ofNat value ≠ 0 ∧ UInt8.ofNat value ≠ Printf.percent := by
    constructor <;>
    · intro same
      have := congrArg UInt8.toNat same
      rw [UInt8.toNat_ofNat_of_lt' small] at this
      contradiction
  have sign : c.toNat ≠ 0x25 := by
    intro same
    exact other (Char.toNat_inj.1 same)
  have value : c.val.toNat = c.toNat := rfl
  intro byte member
  unfold String.utf8EncodeChar at member
  rw [value] at member
  dsimp only at member
  split_ifs at member
  all_goals simp only [List.mem_cons, List.not_mem_nil, or_false] at member
  · rw [member]
    exact byte_ne (by omega) inside sign
  · rcases member with rfl | rfl <;> exact byte_ne (by omega) (by omega) (by omega)
  · rcases member with rfl | rfl | rfl <;> exact byte_ne (by omega) (by omega) (by omega)
  · rcases member with rfl | rfl | rfl | rfl <;> exact byte_ne (by omega) (by omega) (by omega)

namespace Literal

open Printf

private theorem head?_doubled (list : List Char) : (doubled list).head? = list.head? := by
  cases list with
  | nil => rfl
  | cons c list =>
    rw [doubled, List.flatMap_cons]
    split
    · next sign => rw [sign]; rfl
    · rfl

private theorem doubled_cons {c : Char} (other : c ≠ '%') (list : List Char) :
    doubled (c :: list) = c :: doubled list := by
  rw [doubled, List.flatMap_cons, if_neg other]
  rfl

private theorem doubled_append {front : List Char} (plain : ∀ c ∈ front, c ≠ '%') (list : List Char) :
    doubled (front ++ list) = front ++ doubled list := by
  induction front with
  | nil => rfl
  | cons c front ih =>
    obtain ⟨other, later⟩ := List.forall_mem_cons.1 plain
    rw [List.cons_append, doubled_cons other, ih later, List.cons_append]

private theorem isNumbered_percent : isNumbered '%' = false := by decide

private theorem toNat_ne_zero {c : Char} (unnumbered : isNumbered c = false) : c.toNat ≠ 0 := by
  intro zero
  obtain rfl : c = '\x00' := Char.toNat_inj.1 zero
  exact absurd unnumbered (by decide)

/-- The format for a literal is read alongside it, inside of it and behind the digits of a number. -/
theorem read_doubled (list : List Char) : (∀ bytes, read .inside (written list) = some bytes →
      ∃ format, read .inside (written (doubled list)) = some format ∧
        Prints (hidesPercent list) bytes format) ∧
    ∀ value bytes, read (.number value) (written list) = some bytes →
      ∃ format, read (.number value) (written (doubled list)) = some format ∧
        Prints (numberFrom value list = 0x25 || (numberFrom value list ≠ 0 && hidesPercent list))
          bytes format := by
  -- A number that no digit follows is complete, and what follows it is read as it is inside.
  have ended {list : List Char} (ends : ∀ d ∈ list.head?, hexValue? d = none)
      (inside : ∀ bytes, read .inside (written list) = some bytes →
        ∃ format, read .inside (written (doubled list)) = some format ∧
          Prints (hidesPercent list) bytes format)
      (value : Nat) (bytes : List UInt8) (found : read (.number value) (written list) = some bytes) :
      ∃ format, read (.number value) (written (doubled list)) = some format ∧
        Prints (value = 0x25 || (value ≠ 0 && hidesPercent list)) bytes format := by
    obtain ⟨d, rest, starts, other⟩ := hexValue?_head_written ends
    rw [← head?_doubled] at ends
    obtain ⟨d', rest', starts', other'⟩ := hexValue?_head_written ends
    rw [starts, read_number_ends other] at found
    rw [starts', read_number_ends other']
    split at found
    · rename_i small
      obtain ⟨more, reads, rfl⟩ := Option.map_eq_some_iff.1 found
      obtain ⟨format, formatted, prints⟩ := inside more (starts ▸ reads)
      rw [if_pos small, ← starts', formatted]
      exact ⟨_, rfl, prints.number small⟩
    · contradiction
  induction list with
  | nil =>
    have inside (bytes) (found : read .inside (written []) = some bytes) :
        ∃ format, read .inside (written (doubled [])) = some format ∧
          Prints (hidesPercent []) bytes format := by
      injection found with same
      exact ⟨[], rfl, same ▸ .nil⟩
    exact ⟨inside, ended (by simp) inside⟩
  | cons c list ih =>
    have inside (bytes) (found : read .inside (written (c :: list)) = some bytes) :
        ∃ format, read .inside (written (doubled (c :: list))) = some format ∧
          Prints (hidesPercent (c :: list)) bytes format := by
      rw [written_cons] at found
      cases numbered : isNumbered c with
      | true =>
        have other : c ≠ '%' := fun sign => by simp [sign, isNumbered_percent] at numbered
        rw [read_numbered numbered] at found
        rw [doubled_cons other, written_cons, read_numbered numbered, hidesPercent, if_pos numbered]
        exact ih.2 _ _ found
      | false =>
        rw [read_escape numbered] at found
        obtain ⟨more, reads, rfl⟩ := Option.map_eq_some_iff.1 found
        obtain ⟨format, formatted, prints⟩ := ih.1 more reads
        rw [hidesPercent, if_neg (by simp [numbered])]
        by_cases sign : c = '%'
        · subst sign
          have twice : doubled ('%' :: list) = '%' :: '%' :: doubled list := rfl
          rw [twice, written_cons, read_escape numbered, written_cons, read_escape numbered, formatted]
          exact ⟨_, rfl, prints.written⟩
        · rw [doubled_cons sign, written_cons, read_escape numbered, formatted]
          exact ⟨_, rfl, prints.append (plain_utf8EncodeChar (toNat_ne_zero numbered) sign)⟩
    refine ⟨inside, fun value bytes found => ?_⟩
    cases digit : hexValue? c with
    | some more =>
      obtain ⟨least, _⟩ := bounds_of_hexValue? digit
      have other : c ≠ '%' := by
        rintro rfl
        exact absurd least (by decide)
      have unnumbered : isNumbered c = false := by simp [isNumbered, show ¬ c.toNat < 0x20 by omega]
      rw [written_cons, (escape_of_hexValue? digit).1, List.singleton_append,
        read_number_digit digit] at found
      rw [doubled_cons other, written_cons, (escape_of_hexValue? digit).1, List.singleton_append,
        read_number_digit digit]
      have same : numberFrom value (c :: list) = numberFrom (value * 16 + more) list := by
        rw [numberFrom, digit]
      rw [same, hidesPercent, if_neg (by simp [unnumbered])]
      exact ih.2 _ _ found
    | none =>
      have ends : ∀ d ∈ (c :: list).head?, hexValue? d = none := by simpa using digit
      have same : numberFrom value (c :: list) = value := by rw [numberFrom, digit]
      rw [same]
      exact ended ends inside value bytes found

/-! A text behind a lead. -/

section

variable {lead : List Char} (plain : ∀ c ∈ lead, isNumbered c = false ∧ c ≠ '%')

include plain

private theorem read_lead (list : List Char) : read .inside (written (lead ++ list)) =
    (read .inside (written list)).map (encoded lead ++ ·) := by
  induction lead with
  | nil => exact Option.map_id'.symm
  | cons c lead ih =>
    obtain ⟨⟨unnumbered, _⟩, later⟩ := List.forall_mem_cons.1 plain
    rw [List.cons_append, written_cons, read_escape unnumbered, ih later, Option.map_map, encoded_cons]
    simp [Function.comp_def]

private theorem hidesPercent_lead (list : List Char) : hidesPercent (lead ++ list) = hidesPercent list := by
  induction lead with
  | nil => rfl
  | cons c lead ih =>
    obtain ⟨⟨unnumbered, _⟩, later⟩ := List.forall_mem_cons.1 plain
    rw [List.cons_append, hidesPercent, if_neg (by simp [unnumbered]), ih later]

private theorem plain_encoded_lead : ∀ byte ∈ encoded lead, byte ≠ 0 ∧ byte ≠ percent := by
  intro byte member
  obtain ⟨c, among, encodes⟩ := List.mem_flatMap.1 member
  obtain ⟨unnumbered, other⟩ := plain c among
  exact plain_utf8EncodeChar (toNat_ne_zero unnumbered) other byte encodes

end

section

variable {lead : String} (plain : ∀ c ∈ lead.toList, isNumbered c = false ∧ c ≠ '%')

include plain

/-- A literal is printed behind a lead just where it hides no percent sign. -/
theorem printed_iff {contents : String} {bytes : List UInt8}
    (reads : read .before (quoted contents).toList = some bytes) :
    ∃ format, read .before (quoted (lead ++ Lowering.doublePercent contents)).toList = some format ∧
      (pieces .text format = (encoded lead.toList ++ stringBytes bytes).map .byte ↔
        hidesPercent contents.toList = false) := by
  rw [read_quoted] at reads
  have whole : read .inside (written (lead.toList ++ contents.toList)) =
      some (encoded lead.toList ++ bytes) := by
    rw [read_lead plain, reads]
    rfl
  obtain ⟨format, formatted, prints⟩ := (read_doubled _).1 _ whole
  have same : (lead ++ Lowering.doublePercent contents).toList =
      doubled (lead.toList ++ contents.toList) := by
    rw [doubled_append fun c member => (plain c member).2, String.toList_append, Lowering.doublePercent,
      String.toList_ofList]
    rfl
  have string : stringBytes (encoded lead.toList ++ bytes) =
      encoded lead.toList ++ stringBytes bytes :=
    List.takeWhile_append_of_pos fun byte member => decide_eq_true (plain_encoded_lead plain byte member).1
  refine ⟨format, ?_, ?_⟩
  · rw [read_quoted, same]
    exact formatted
  · rw [← string, ← hidesPercent_lead plain]
    exact prints.printed_iff

/-- A directive behind a lead takes one argument. -/
theorem pieces_directive {letter : Char} (known : letter ∈ ['s', 'd', 'p']) :
    ∃ format, read .before (quoted (lead ++ String.ofList ['%', letter])).toList = some format ∧
      pieces .text format = (encoded lead.toList).map .byte ++ [.directive letter.toUInt8] := by
  have alone : read .inside (written ['%', letter]) = some [percent, letter.toUInt8] ∧
      pieces .text [percent, letter.toUInt8] = [.directive letter.toUInt8] := by
    simp only [List.mem_cons, List.not_mem_nil, or_false] at known
    rcases known with rfl | rfl | rfl <;> decide
  refine ⟨encoded lead.toList ++ [percent, letter.toUInt8], ?_, ?_⟩
  · rw [read_quoted, String.toList_append, String.toList_ofList, read_lead plain, alone.1]
    rfl
  · rw [pieces_append (plain_encoded_lead plain), alone.2]

end

private theorem escape_doubled (list : List Char) :
    (doubled list).flatMap C.escape = doubled (list.flatMap C.escape) := by
  induction list with
  | nil => rfl
  | cons c list ih =>
    by_cases sign : c = '%'
    · subst sign
      have twice : doubled ('%' :: list) = '%' :: '%' :: doubled list := rfl
      have itself : C.escape '%' = ['%'] := by decide
      rw [twice, List.flatMap_cons, List.flatMap_cons, ih, List.flatMap_cons, itself]
      rfl
    · have plain : ∀ d ∈ C.escape c, d ≠ '%' := by
        have digit : ∀ n < 16, hexDigit n ≠ '%' := by decide
        unfold C.escape
        split_ifs <;> simp [sign]
        exact ⟨digit _ (by omega), digit _ (by omega)⟩
      rw [doubled_cons sign, List.flatMap_cons, List.flatMap_cons, ih, doubled_append plain]

/-- The format for a literal is the literal without its quotes, with doubled percent signs and behind the lead. -/
theorem quoted_doublePercent {lead : String} (itself : lead.toList.flatMap C.escape = lead.toList)
    (contents : String) : ∃ inner, quoted contents = "\"" ++ inner ++ "\"" ∧
      quoted (lead ++ Lowering.doublePercent contents) =
        "\"" ++ lead ++ Lowering.doublePercent inner ++ "\"" := by
  refine ⟨String.ofList (contents.toList.flatMap C.escape), ?_, ?_⟩
  · apply String.toList_inj.1
    simp [quoted]
  · apply String.toList_inj.1
    have inner := escape_doubled contents.toList
    simp only [doubled] at inner
    simp [quoted, Lowering.doublePercent, itself, inner]

end Literal

end FlipperBlocks.C
