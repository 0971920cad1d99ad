import FlipperBlocks.Proofs.C.Names

/-! What texts are called in programs.

Blanks are no part of a name, so that it does not matter whether a text is trimmed before its other
characters are taken out. What is left alone decides what the text is called, and a usable name is kept. -/
namespace FlipperBlocks

namespace Text

private theorem filter_dropWhile_isBlank (cs : List Char) :
    (cs.dropWhile isBlank).filter C.Identifier.isPart = cs.filter C.Identifier.isPart := by
  induction cs with
  | nil => rfl
  | cons c cs ih =>
    cases blank : isBlank c with
    | true =>
      rw [List.dropWhile_cons_of_pos blank, ih,
        List.filter_cons_of_neg (by simp [C.Scan.isPart_of_blank blank])]
    | false => rw [List.dropWhile_cons_of_neg (by simp [blank])]

private theorem filter_trimChars (cs : List Char) :
    (trimChars cs).filter C.Identifier.isPart = cs.filter C.Identifier.isPart := by
  rw [trimChars, List.filter_reverse, filter_dropWhile_isBlank, ← List.filter_reverse, List.reverse_reverse,
    filter_dropWhile_isBlank]

private theorem dropWhile_isBlank {cs : List Char} (parts : ∀ c ∈ cs, C.Identifier.isPart c = true) :
    cs.dropWhile isBlank = cs := by
  cases cs with
  | nil => rfl
  | cons c cs =>
    refine List.dropWhile_cons_of_neg fun blank => ?_
    have part := parts c List.mem_cons_self
    rw [C.Scan.isPart_of_blank blank] at part
    contradiction

theorem trim_of_isIdentifier {name : String} (ok : C.Identifier.isIdentifier name = true) :
    trim name = name := by
  have parts := C.Identifier.isPart_of_mem ok
  rw [trim, trimChars, dropWhile_isBlank parts, dropWhile_isBlank, List.reverse_reverse, String.ofList_toList]
  exact fun c member => parts c (List.mem_reverse.1 member)

end Text

namespace C.Identifier

def letters (name : String) : String := String.ofList (name.toList.filter isPart)

def startsWithDigit (name : String) : Bool := name.toList.head?.any Char.isDigit

private theorem letters_trim (name : String) : letters (Text.trim name) = letters name := by
  rw [letters, Text.trim, String.toList_ofList, Text.filter_trimChars, letters]

private theorem letters_of_isIdentifier {name : String} (ok : isIdentifier name = true) :
    letters name = name := by
  rw [letters, List.filter_eq_self.2 (isPart_of_mem ok), String.ofList_toList]

/-- Letters, digits and underscores are an identifier unless a digit is the first of them. -/
private theorem isIdentifier_letters {name : String} (some : letters name ≠ "") :
    isIdentifier (letters name) = !startsWithDigit (letters name) := by
  have parts : ∀ c ∈ (letters name).toList, isPart c = true := by
    intro c member
    rw [letters, String.toList_ofList] at member
    exact (List.mem_filter.1 member).2
  generalize letters name = kept at some parts
  cases ok : isIdentifier kept with
  | true =>
    obtain ⟨_, first, rest, split, digit, _⟩ := Identifier.split ok
    simp [startsWithDigit, split, digit]
  | false =>
    unfold isIdentifier at ok
    cases split : kept.toList with
    | nil => exact absurd (String.toList_eq_nil_iff.1 split) some
    | cons first rest =>
      rw [split] at parts ok
      obtain ⟨here, later⟩ := List.forall_mem_cons.1 parts
      have start : isStart first = false := by simpa [List.all_eq_true.2 later] using ok
      simp only [isStart, isPart, Char.isAlphanum, Bool.or_eq_true, Bool.or_eq_false_iff] at start here
      simp_all [startsWithDigit]

theorem sanitize_eq_trim {name : String} (ok : isIdentifier (Text.trim name) = true)
    (free : isReserved (Text.trim name) = false) (more : Text.trim name ≠ "_") :
    sanitize name = Text.trim name := by
  simp [sanitize, ok, free, more]

/-- What is left of a text decides what it is called. -/
theorem sanitize_eq (name : String) : sanitize name = if letters name = "" ∨ letters name = "_" then fallback
    else if startsWithDigit (letters name) = true ∨ isReserved (letters name) = true then
      "var_" ++ letters name else letters name := by
  cases usable : isIdentifier (Text.trim name) && !isReserved (Text.trim name) && Text.trim name != "_" with
  | true =>
    simp only [Bool.and_eq_true, Bool.not_eq_true', bne_iff_ne] at usable
    obtain ⟨⟨ok, free⟩, more⟩ := usable
    have same : letters name = Text.trim name := by rw [← letters_trim, letters_of_isIdentifier ok]
    have some : letters name ≠ "" := by
      intro empty
      rw [← same, empty] at ok
      exact absurd ok (by decide)
    have digit := isIdentifier_letters some
    rw [same] at some digit ⊢
    rw [ok] at digit
    simp [sanitize_eq_trim ok free more, some, more, free, digit]
  | false =>
    have repaired : sanitize name = repair (Text.trim name) := if_neg (by rw [usable]; exact Bool.false_ne_true)
    rw [repaired, repair, ← letters, letters_trim]
    by_cases none : letters name = ""
    · simp [none]
    · simp [isIdentifier_letters none]

theorem sanitize_ne_underscore (name : String) : sanitize name ≠ "_" := by
  rw [sanitize_eq]
  split
  · decide
  · rename_i more
    split
    · intro same
      have letters := congrArg String.toList same
      rw [String.toList_append] at letters
      injection letters with first
      exact absurd first (by decide)
    · exact fun same => more (.inr same)

theorem sanitize_sanitize (name : String) : sanitize (sanitize name) = sanitize name := by
  have usable := usable_sanitize name
  have kept := @sanitize_eq_trim (sanitize name)
  rw [Text.trim_of_isIdentifier usable.1] at kept
  exact kept usable.1 usable.2 (sanitize_ne_underscore name)

/-- A name for a text: one that can be used and stays as it is, the text itself if that can be used, and
otherwise what is left of the text, with something in front where a digit or a reserved word would start it. -/
structure Names (name text : String) : Prop where
  usable : Usable name
  more : name ≠ "_"
  stays : sanitize name = name
  kept : Usable (Text.trim text) → Text.trim text ≠ "_" → name = Text.trim text
  left : name =
    if letters text = "" ∨ letters text = "_" then fallback
    else if startsWithDigit (letters text) = true ∨ isReserved (letters text) = true then
      "var_" ++ letters text
    else letters text

theorem sanitize_names (text : String) : Names (sanitize text) text where
  usable := usable_sanitize text
  more := sanitize_ne_underscore text
  stays := sanitize_sanitize text
  kept usable := sanitize_eq_trim usable.1 usable.2
  left := sanitize_eq text

example : sanitize "\u2003Wh\u00efle\u00a0" = "Whle" ∧ sanitize "wh\u00edile" = "var_while" ∧
    sanitize "_\u00e9" = fallback := by decide +kernel

end C.Identifier

end FlipperBlocks
