import FlipperBlocks.Lowering.Operator
import FlipperBlocks.Proofs.C.Reading

/-! Names and numbers that programs are given are spelled as such. -/
namespace FlipperBlocks.C

open Binary64 Identifier

namespace Identifier

theorem isPart_of_isDigit {c : Char} (digit : c.isDigit = true) : isPart c = true := by
  simp [isPart, Char.isAlphanum, digit]

theorem isPart_of_mem {name : String} (ok : isIdentifier name = true) :
    ∀ c ∈ name.toList, isPart c = true := by
  obtain ⟨_, _, _, letters, _, part⟩ := split ok
  unfold isIdentifier at ok
  rw [letters] at ok ⊢
  simp only [Bool.and_eq_true, List.all_eq_true] at ok
  exact List.forall_mem_cons.2 ⟨part, ok.2⟩

theorem isIdentifier_append {a b : String} (name : isIdentifier a = true)
    (parts : ∀ c ∈ b.toList, isPart c = true) : isIdentifier (a ++ b) = true := by
  unfold isIdentifier at name ⊢
  rw [String.toList_append]
  split at name
  · rename_i first rest letters
    simp only [Bool.and_eq_true, List.all_eq_true] at name
    simp only [letters, List.cons_append, Bool.and_eq_true, List.all_eq_true, List.mem_append]
    exact ⟨name.1, fun c member => member.elim (name.2 c) (parts c)⟩
  · contradiction

theorem isPart_toString (n : Nat) : ∀ c ∈ (toString n).toList, isPart c = true := by
  intro c member
  rw [Nat.toString_eq_ofList_toDigits, String.toList_ofList] at member
  exact isPart_of_isDigit (Nat.isDigit_of_mem_toDigits (by decide) (by decide) member)

theorem isIdentifier_numbered {stem : String} (name : isIdentifier stem = true) (number : Nat) :
    isIdentifier (Draft.numbered stem number) = true := by
  have marked : isIdentifier (stem ++ "_") = true := isIdentifier_append name (by simp [isPart])
  exact isIdentifier_append marked (isPart_toString number)

private theorem isIdentifier_repair (name : String) : isIdentifier (repair name) = true := by
  unfold repair
  dsimp only
  split
  · decide
  · split
    · refine isIdentifier_append (by decide) fun c member => ?_
      rw [String.toList_ofList] at member
      exact (List.mem_filter.1 member).2
    · rename_i usable
      simp only [Bool.or_eq_true, Bool.not_eq_true', not_or, Bool.not_eq_false] at usable
      exact usable.1

theorem isIdentifier_sanitize (name : String) : isIdentifier (sanitize name) = true := by
  unfold sanitize
  dsimp only
  split
  · rename_i usable
    simp only [Bool.and_eq_true] at usable
    exact usable.1.1
  · exact isIdentifier_repair _

def Usable (name : String) : Prop := isIdentifier name = true ∧ isReserved name = false

theorem isReserved_of_underscore {name : String} (has : '_' ∈ name.toList) : isReserved name = false := by
  have plain : ∀ word ∈ reservedWords, '_' ∉ word.toList.map Char.toLower := by decide
  unfold isReserved
  rw [List.any_eq_false]
  intro word member same
  refine plain word member ?_
  rw [eq_of_beq same]
  exact List.mem_map_of_mem (f := Char.toLower) has

private theorem isReserved_repair (name : String) : isReserved (repair name) = false := by
  unfold repair
  dsimp only
  split
  · decide
  · split
    · exact isReserved_of_underscore (by simp)
    · rename_i usable
      simp only [Bool.or_eq_true, not_or, Bool.not_eq_true] at usable
      exact usable.2

theorem usable_sanitize (name : String) : Usable (sanitize name) := by
  refine ⟨isIdentifier_sanitize name, ?_⟩
  unfold sanitize
  dsimp only
  split
  · rename_i usable
    simp only [Bool.and_eq_true, Bool.not_eq_true'] at usable
    exact usable.1.2
  · exact isReserved_repair _

theorem isIdentifier_symbolOr (text : Option String) {default : String}
    (name : isIdentifier default = true) : isIdentifier (symbolOr text default) = true := by
  unfold symbolOr
  split
  · split
    · assumption
    · exact name
  · exact name

end Identifier

private def Decimal (cs : List Char) : Prop :=
  ∃ first rest, cs = first :: rest ∧ first.isDigit = true ∧
    ∀ c ∈ rest, isPart c = true ∨ c = '.'

private theorem unsigned_of_digit {first : Char} (digit : first.isDigit = true) (rest : List Char) :
    unsigned (first :: rest) = first :: rest := by
  unfold unsigned
  split
  · rename_i same
    injection same with sign _
    rw [sign] at digit
    contradiction
  · rfl

private theorem isNumeral_decimal {cs : List Char} (decimal : Decimal cs) (negative : Bool) :
    isNumeral ((if negative then ['-'] else []) ++ cs) = true := by
  obtain ⟨first, rest, letters, digit, others⟩ := decimal
  have word : Scan.isWord (first :: rest) = true := by
    simp only [Scan.isWord, Identifier.isPart_of_isDigit digit, Scan.wordGoesOn, digit,
      Bool.true_and, List.all_eq_true, Bool.or_eq_true, beq_iff_eq]
    exact others
  have plain : unsigned ((if negative then ['-'] else []) ++ cs) = first :: rest := by
    cases negative with
    | true => rw [letters]; rfl
    | false => rw [letters]; exact unsigned_of_digit digit rest
  rw [isNumeral, plain, word]
  simp [digit]

private theorem decimal_of_digits {cs : List Char} (nonempty : cs ≠ [])
    (digits : ∀ c ∈ cs, c.isDigit = true) : Decimal cs := by
  cases cs with
  | nil => contradiction
  | cons first rest =>
    exact ⟨first, rest, rfl, digits first List.mem_cons_self, fun c member =>
      .inl (Identifier.isPart_of_isDigit (digits c (List.mem_cons_of_mem _ member)))⟩

private theorem isDigit_toDigits (n : Nat) : ∀ c ∈ Nat.toDigits 10 n, c.isDigit = true :=
  fun _ member => Nat.isDigit_of_mem_toDigits (by decide) (by decide) member

private theorem decimal_toDigits (n : Nat) : Decimal (Nat.toDigits 10 n) :=
  decimal_of_digits Nat.toDigits_ne_nil (isDigit_toDigits n)

theorem isNumeral_toString (n : Nat) : isNumeral (toString n).toList = true := by
  rw [Nat.toString_eq_ofList_toDigits, String.toList_ofList]
  exact isNumeral_decimal (decimal_toDigits n) false

theorem isNumeral_integer (n : Int) : isNumeral (toString n).toList = true := by
  cases n with
  | ofNat m => exact isNumeral_toString m
  | negSucc m =>
    have text : (toString (Int.negSucc m)).toList = '-' :: (toString (m + 1)).toList := by
      change ("-" ++ toString (m + 1)).toList = _
      simp
    rw [text, Nat.toString_eq_ofList_toDigits, String.toList_ofList]
    exact isNumeral_decimal (decimal_toDigits (m + 1)) true

private theorem decimal_append {cs more : List Char} (decimal : Decimal cs)
    (others : ∀ c ∈ more, isPart c = true ∨ c = '.') : Decimal (cs ++ more) := by
  obtain ⟨first, rest, letters, digit, same⟩ := decimal
  refine ⟨first, rest ++ more, by rw [letters, List.cons_append], digit, fun c member => ?_⟩
  exact (List.mem_append.1 member).elim (same c) (others c)

private theorem isDigit_zeros (count : Nat) : ∀ c ∈ zeros count, c.isDigit = true := by
  intro c member
  rw [List.eq_of_mem_replicate member]
  rfl

private theorem decimal_positional (d : Binary64.Decimal) : Decimal d.positional := by
  have part {c : Char} (digit : c.isDigit = true) : isPart c = true ∨ c = '.' :=
    .inl (Identifier.isPart_of_isDigit digit)
  unfold Binary64.Decimal.positional
  dsimp only
  split
  · exact decimal_append (decimal_toDigits d.digits) fun c member => part (isDigit_zeros _ c member)
  · generalize (-d.exponent).toNat = places
    have digits : ∀ c ∈ zeros (places + 1 - (digitChars d.digits).length) ++
        digitChars d.digits, c.isDigit = true := fun c member =>
      (List.mem_append.1 member).elim (isDigit_zeros _ c) (isDigit_toDigits _ c)
    have long : places < (zeros (places + 1 - (digitChars d.digits).length) ++
        digitChars d.digits).length := by
      rw [List.length_append, zeros, List.length_replicate]
      omega
    generalize zeros (places + 1 - (digitChars d.digits).length) ++
      digitChars d.digits = padded at digits long
    -- More digits than places are there, so that one of them stands before the point.
    have before : padded.take (padded.length - places) ≠ [] := by
      intro empty
      have length := congrArg List.length empty
      rw [List.length_take, List.length_nil] at length
      omega
    refine decimal_append (decimal_of_digits before fun c member =>
      digits c (List.mem_of_mem_take member)) fun c member => ?_
    rcases List.mem_cons.1 member with point | after
    · exact .inr point
    · exact part (digits c (List.mem_of_mem_drop after))

theorem isNumeral_literal (x : Binary64) : isNumeral x.literal.toList = true := by
  unfold literal
  rw [String.toList_ofList]
  split
  · rfl
  · split
    · exact isNumeral_decimal (decimal_toDigits x.whole) _
    · exact isNumeral_decimal (decimal_positional _) _

private theorem isPart_hex {c : Char}
    (hex : (c.isDigit || ('a' ≤ c && c ≤ 'f') || ('A' ≤ c && c ≤ 'F')) = true) : isPart c = true := by
  simp only [Bool.or_eq_true, Bool.and_eq_true, decide_eq_true_eq, Char.le_def, UInt32.le_iff_toNat_le] at hex
  change (c.isDigit = true ∨ (97 ≤ c.toNat ∧ c.toNat ≤ 102)) ∨ (65 ≤ c.toNat ∧ c.toNat ≤ 70) at hex
  rcases hex with (digit | lower) | upper
  · exact Identifier.isPart_of_isDigit digit
  · rw [isPart_iff]
    omega
  · rw [isPart_iff]
    omega

theorem isNumeral_hex {cs : List Char} (hex : Lowering.isHexLiteral cs = true) : isNumeral cs = true := by
  have marked {mark : Char} {digits : List Char} (part : isPart mark = true)
      (parts : ∀ c ∈ digits, isPart c = true) : isNumeral ('0' :: mark :: digits) = true := by
    refine isNumeral_decimal ⟨'0', mark :: digits, rfl, rfl, fun c member => ?_⟩ false
    rcases List.mem_cons.1 member with same | later
    · exact .inl (same ▸ part)
    · exact .inl (parts c later)
  unfold Lowering.isHexLiteral at hex
  split at hex
  iterate 2
    · simp only [Bool.and_eq_true, List.all_eq_true] at hex
      exact marked rfl fun c member => isPart_hex (hex.2 c member)
  · contradiction

end FlipperBlocks.C
