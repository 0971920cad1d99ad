import FlipperBlocks.Proofs.Application.Manifests

/-! What stands in the fields of a manifest.

Texts of fields stand between quotes. They are read back from there with line feeds and comment ends taken
out, and the comment around the manifests ends where it should. A carriage return stays as it is, and splits
the row of its field in two. -/
namespace FlipperBlocks

namespace Text

/-- What follows from each place on at which the pattern stands. -/
def placesOf (pattern cs : List Char) : List (List Char) :=
  cs.tails.filter fun rest => pattern.isPrefixOf rest

theorem placesOf_cons_of_not {pattern cs : List Char} {c : Char}
    (other : ¬ pattern <+: c :: cs) : placesOf pattern (c :: cs) = placesOf pattern cs := by
  rw [placesOf, List.tails_cons, List.filter_cons_of_neg]
  · rfl
  · rwa [List.isPrefixOf_iff_prefix]

/-- The lines of a text as an editor shows them: a line feed, a carriage return, or the first right behind the
second ends a line. There is one line more than there are line ends. -/
def physicalLines : List Char → List (List Char)
  | [] => [[]]
  | '\r' :: '\n' :: rest => [] :: physicalLines rest
  | c :: rest =>
    if c = '\n' || c = '\r' then [] :: physicalLines rest
    else (physicalLines rest).modifyHead (c :: ·)

theorem physicalLines_feed (rest : List Char) :
    physicalLines ('\n' :: rest) = [] :: physicalLines rest := by
  rw [physicalLines]
  · rfl
  · exact fun _ other _ => absurd other (by decide)

theorem physicalLines_return {rest : List Char} (alone : rest.head? ≠ some '\n') :
    physicalLines ('\r' :: rest) = [] :: physicalLines rest := by
  rw [physicalLines]
  · rfl
  · rintro more _ rfl
    exact alone rfl

theorem physicalLines_other {c : Char} (noFeed : c ≠ '\n') (noReturn : c ≠ '\r') (rest : List Char) :
    physicalLines (c :: rest) = (physicalLines rest).modifyHead (c :: ·) := by
  rw [physicalLines, if_neg (by simp [noFeed, noReturn])]
  exact fun _ same _ => noReturn same

theorem partsAt_cons_of_ne {separator c : Char} (other : c ≠ separator) (cs : List Char) :
    partsAt separator (c :: cs) = (partsAt separator cs).modifyHead (c :: ·) ∧ partsAt separator cs ≠ [] := by
  have some (cs : List Char) : partsAt separator cs ≠ [] := by fun_induction partsAt separator cs <;> simp
  refine ⟨?_, some cs⟩
  rw [partsAt, if_neg other]
  cases parts : partsAt separator cs with
  | nil => exact absurd parts (some cs)
  | cons part rest => rfl

theorem partsAt_of_not_mem {separator : Char} {cs : List Char} (none : separator ∉ cs) :
    partsAt separator cs = [cs] := by
  induction cs with
  | nil => rfl
  | cons c cs ih =>
    obtain ⟨other, later⟩ := List.ne_and_not_mem_of_not_mem_cons none
    rw [(partsAt_cons_of_ne (Ne.symm other) cs).1, ih later]
    rfl

theorem physicalLines_append {row : List Char} (oneRow : '\n' ∉ row) (kept : row.getLast? ≠ some '\r')
    (rest : List Char) : physicalLines (row ++ '\n' :: rest) = partsAt '\r' row ++ physicalLines rest := by
  induction row with
  | nil => exact physicalLines_feed rest
  | cons c row ih =>
    obtain ⟨noFeed, later⟩ := List.ne_and_not_mem_of_not_mem_cons oneRow
    by_cases single : row = []
    · subst single
      have noReturn : c ≠ '\r' := by simpa using kept
      rw [List.singleton_append, physicalLines_other (Ne.symm noFeed) noReturn, physicalLines_feed,
        partsAt_of_not_mem (by simpa using Ne.symm noReturn)]
      rfl
    · have lines := ih later (by rwa [List.getLast?_cons_of_ne_nil single] at kept)
      by_cases ends : c = '\r'
      · subst ends
        have alone : (row ++ '\n' :: rest).head? ≠ some '\n' := by
          rw [List.head?_append_of_ne_nil _ single]
          exact fun first => later (List.mem_of_mem_head? first)
        rw [List.cons_append, physicalLines_return alone, lines, partsAt, if_pos rfl, List.cons_append]
      · obtain ⟨parts, some⟩ := partsAt_cons_of_ne ends row
        rw [List.cons_append, physicalLines_other (Ne.symm noFeed) ends, lines, parts]
        cases split : partsAt '\r' row with
        | nil => exact absurd split some
        | cons part more => rfl

theorem not_mem_physicalLines {cs line : List Char} (member : line ∈ physicalLines cs) : '\r' ∉ line := by
  induction cs using physicalLines.induct generalizing line with
  | case1 => simp_all [physicalLines]
  | case2 rest ih =>
    rw [physicalLines, List.mem_cons] at member
    rcases member with rfl | later
    · exact List.not_mem_nil
    · exact ih later
  | case3 c rest apart ends ih =>
    rw [physicalLines.eq_3 c rest apart, if_pos ends, List.mem_cons] at member
    rcases member with rfl | later
    · exact List.not_mem_nil
    · exact ih later
  | case4 c rest apart goes ih =>
    rw [physicalLines.eq_3 c rest apart, if_neg goes] at member
    have noReturn : '\r' ≠ c := fun same => goes (by simp [← same])
    cases lines : physicalLines rest with
    | nil => simp [lines] at member
    | cons first more =>
      rw [lines, List.modifyHead_cons, List.mem_cons] at member
      rcases member with rfl | later
      · exact List.not_mem_cons_of_ne_of_not_mem noReturn (ih (by simp [lines]))
      · exact ih (by simp [lines, later])

end Text

namespace C

theorem inside_cons {c : Char} (other : c ≠ '*') (cs : List Char) : Inside (c :: cs) ↔ Inside cs := by
  rw [Inside, Scan.run_cons]
  simp [Scan.step, other, Inside, Prod.ext_iff]

theorem Inside.placesOf {cs : List Char} (inside : Inside cs) :
    Text.placesOf ['*', '/'] (cs ++ ['*', '/', '\n']) = [['*', '/', '\n']] := by
  -- Behind a star, the comment is left open only if something else than a slash comes next.
  have both : (Inside cs → Text.placesOf ['*', '/'] (cs ++ ['*', '/', '\n']) = [['*', '/', '\n']]) ∧
      (Scan.run .blockCommentStar cs = ([], .blockComment) → ¬ ['/'] <+: cs ++ ['*', '/', '\n'] ∧
          Text.placesOf ['*', '/'] (cs ++ ['*', '/', '\n']) = [['*', '/', '\n']]) := by
    clear inside
    induction cs with
    | nil => exact ⟨fun _ => by decide, fun ends => absurd ends (by decide)⟩
    | cons c cs ih =>
      obtain ⟨inside, behind⟩ := ih
      by_cases star : c = '*'
      · subst star
        have places (left : Scan.run .blockCommentStar cs = ([], .blockComment)) :
            Text.placesOf ['*', '/'] ('*' :: cs ++ ['*', '/', '\n']) = [['*', '/', '\n']] := by
          obtain ⟨noSlash, later⟩ := behind left
          rw [List.cons_append, Text.placesOf_cons_of_not, later]
          simpa [List.cons_prefix_cons] using noSlash
        exact ⟨places, fun left => ⟨by simp, places left⟩⟩
      · have places (left : Inside cs) :
            Text.placesOf ['*', '/'] (c :: cs ++ ['*', '/', '\n']) = [['*', '/', '\n']] := by
          rw [List.cons_append, Text.placesOf_cons_of_not, inside left]
          simp [Ne.symm star]
        refine ⟨fun left => places ((inside_cons star cs).1 left), fun left => ?_⟩
        have noSlash : c ≠ '/' := by
          rintro rfl
          rw [Scan.run_cons] at left
          simp [Scan.step] at left
        rw [Scan.run_cons] at left
        refine ⟨by simp [Ne.symm noSlash], places ?_⟩
        simpa [Scan.step, star, noSlash, Inside, Prod.ext_iff] using left
  exact both.1 inside

end C

namespace Manifest

/-- Reads what stands behind an opening quote up to the quote that closes it, and gives the text and what
follows. A backslash stands before a quote or a backslash of the text. -/
def readQuoted : List Char → Option (List Char × List Char)
  | [] => none
  | '"' :: rest => some ([], rest)
  | '\\' :: rest =>
    match rest with
    | [] => none
    | c :: rest =>
      if c = '"' || c = '\\' then (readQuoted rest).map fun (text, behind) => (c :: text, behind)
      else none
  | c :: rest => (readQuoted rest).map fun (text, behind) => (c :: text, behind)

def readValue : List Char → Option (List Char × List Char)
  | '"' :: rest => readQuoted rest
  | _ => none

def spaced (cs : List Char) : List Char := cs.map fun c => if c = '\n' then ' ' else c

theorem splitCommentEnds_cons {c : Char} {cs : List Char} (apart : c = '*' → cs.head? ≠ some '/') :
    C.splitCommentEnds (c :: cs) = c :: C.splitCommentEnds cs := by
  refine C.splitCommentEnds.eq_2 c cs fun rest star slash => ?_
  rw [slash] at apart
  exact apart star rfl

theorem readQuoted_escaped {c : Char} (special : c = '"' ∨ c = '\\') (rest : List Char) :
    readQuoted ('\\' :: c :: rest) = (readQuoted rest).map fun (text, behind) => (c :: text, behind) := by
  rw [readQuoted, if_pos (by simpa using special)]

theorem readQuoted_plain {c : Char} (quote : c ≠ '"') (backslash : c ≠ '\\') (rest : List Char) :
    readQuoted (c :: rest) = (readQuoted rest).map fun (text, behind) => (c :: text, behind) := by
  rw [readQuoted]
  · exact quote
  · exact backslash

theorem escape_cases (c : Char) :
    (c = '"' ∨ c = '\\') ∧ escape c = ['\\', c] ∨ c = '\n' ∧ escape c = [' '] ∨
      (c ≠ '"' ∧ c ≠ '\\' ∧ c ≠ '\n') ∧ escape c = [c] := by
  unfold escape
  by_cases special : c = '"' ∨ c = '\\'
  · exact .inl ⟨special, if_pos (by simpa [or_comm] using special)⟩
  · rw [not_or] at special
    by_cases feed : c = '\n'
    · exact .inr (.inl ⟨feed, by simp [feed]⟩)
    · exact .inr (.inr ⟨⟨special.1, special.2, feed⟩, by simp [special, feed]⟩)

theorem head?_escaped (cs : List Char) :
    (cs.flatMap escape).head? = some '/' ↔ cs.head? = some '/' := by
  cases cs with
  | nil => rfl
  | cons c cs =>
    rcases escape_cases c with ⟨rfl | rfl, written⟩ | ⟨rfl, written⟩ | ⟨_, written⟩ <;> simp [written]

theorem head?_spaced (cs : List Char) : (spaced cs).head? = some '/' ↔ cs.head? = some '/' := by
  cases cs with
  | nil => rfl
  | cons c cs => by_cases feed : c = '\n' <;> simp [spaced, feed]

theorem readQuoted_text (text rest : List Char) :
    readQuoted (C.splitCommentEnds (text.flatMap escape) ++ '"' :: rest) =
      some (C.splitCommentEnds (spaced text), rest) := by
  induction text using C.splitCommentEnds.induct with
  | case1 text ih =>
    have written : C.splitCommentEnds (('*' :: '/' :: text).flatMap escape) =
        '*' :: ' ' :: '/' :: C.splitCommentEnds (text.flatMap escape) := rfl
    rw [written]
    simp only [List.cons_append]
    rw [readQuoted_plain (by decide) (by decide), readQuoted_plain (by decide) (by decide),
      readQuoted_plain (by decide) (by decide), ih]
    rfl
  | case2 c text apart ih =>
    have noEnd : c = '*' → text.head? ≠ some '/' := by
      intro star slash
      obtain ⟨more, split⟩ := List.head?_eq_some_iff.1 slash
      exact apart more star split
    rw [List.flatMap_cons]
    rcases escape_cases c with ⟨special, written⟩ | ⟨rfl, written⟩ | ⟨⟨quote, backslash, feed⟩, written⟩
    · have plain : c ≠ '*' ∧ c ≠ '\n' := by rcases special with rfl | rfl <;> decide
      have same : spaced (c :: text) = c :: spaced text := by simp [spaced, plain.2]
      rw [written, same, splitCommentEnds_cons fun star => absurd star plain.1, List.cons_append,
        List.cons_append, List.nil_append, splitCommentEnds_cons fun star => absurd star (by decide),
        splitCommentEnds_cons fun star => absurd star plain.1, List.cons_append, List.cons_append,
        readQuoted_escaped special, ih]
      rfl
    · rw [written, List.singleton_append, splitCommentEnds_cons fun star => absurd star (by decide),
        List.cons_append, readQuoted_plain (by decide) (by decide), ih]
      exact congrArg some (Prod.ext (splitCommentEnds_cons fun star => absurd star (by decide)).symm rfl)
    · have same : spaced (c :: text) = c :: spaced text := by simp [spaced, feed]
      rw [written, same, List.singleton_append,
        splitCommentEnds_cons fun star => mt (head?_escaped text).1 (noEnd star), List.cons_append,
        readQuoted_plain quote backslash, ih,
        splitCommentEnds_cons fun star => mt (head?_spaced text).1 (noEnd star)]
      rfl
  | case3 => rfl

theorem readValue_quoted (text : String) (rest : List Char) : readValue ((quoted text).toList ++ rest) =
      some (C.splitCommentEnds (spaced text.toList), rest) := by
  rw [quoted_eq, String.toList_ofList, List.cons_append, readValue, List.append_assoc, List.singleton_append]
  exact readQuoted_text text.toList rest

def isQuoted (field : String × String) : Bool := field.2.toList.head? = some '"'

def quotedTexts (head : BlockHead) : List (String × String) :=
  [("appid", head.fieldOr "APPID" "my_app"), ("name", head.fieldOr "NAME" "My App"),
    ("entry_point", "app_main")] ++
  (head.field? "ICON").toList.map (fun icon => ("fap_icon", icon)) ++
  [("fap_category", head.fieldOr "CATEGORY" "General"), ("fap_author", head.fieldOr "AUTHOR" "Unknown"),
    ("fap_version", head.fieldOr "VERSION" "0.1.0"),
    ("fap_description", head.fieldOr "DESCRIPTION" "Generated from blocks")]

theorem ne_empty_of_field? {head : BlockHead} {name text : String}
    (found : head.field? name = some text) : text ≠ "" := by
  rintro rfl
  have visible := (Option.filter_eq_some_iff.1 found).2
  exact absurd visible (by decide)

theorem optional_some {key text : String} (given : text ≠ "") :
    optional key (some text) = [(key, quoted text)] := by
  rw [optional, if_neg (by simpa using given)]

theorem optional_fieldOr (key name : String) {default : String} (given : default ≠ "")
    (head : BlockHead) :
    optional key (some (head.fieldOr name default)) = [(key, quoted (head.fieldOr name default))] := by
  apply optional_some
  unfold BlockHead.fieldOr
  cases found : head.field? name with
  | none => exact given
  | some text => exact ne_empty_of_field? found

theorem fields_eq (manifest : Manifest) : manifest.fields =
    [("appid", quoted manifest.id)] ++ optional "name" manifest.name ++
    [("apptype", manifest.type), ("entry_point", quoted entryPoint)] ++ optional "fap_icon" manifest.icon ++
    manifest.stack.toList.map (fun stack => ("stack_size", toString stack)) ++
    optional "fap_category" manifest.category ++ optional "fap_author" manifest.author ++
    optional "fap_version" manifest.version ++ optional "fap_description" manifest.description := by
  unfold fields
  cases manifest.stack <;> rfl

theorem fields_ofHead (head : BlockHead) : (ofHead head).fields =
    [("appid", quoted (head.fieldOr "APPID" "my_app")), ("name", quoted (head.fieldOr "NAME" "My App")),
      ("apptype", (ofHead head).type), ("entry_point", quoted "app_main")] ++
    (head.field? "ICON").toList.map (fun icon => ("fap_icon", quoted icon)) ++
    (ofHead head).stack.toList.map (fun stack => ("stack_size", toString stack)) ++
    [("fap_category", quoted (head.fieldOr "CATEGORY" "General")),
      ("fap_author", quoted (head.fieldOr "AUTHOR" "Unknown")),
      ("fap_version", quoted (head.fieldOr "VERSION" "0.1.0")),
      ("fap_description", quoted (head.fieldOr "DESCRIPTION" "Generated from blocks"))] := by
  have icon : optional "fap_icon" (head.field? "ICON") =
      (head.field? "ICON").toList.map fun icon => ("fap_icon", quoted icon) := by
    cases found : head.field? "ICON" with
    | none => rfl
    | some text => exact optional_some (ne_empty_of_field? found)
  have texts : (ofHead head).name = head.fieldOr "NAME" "My App" ∧
      (ofHead head).icon = head.field? "ICON" ∧
      (ofHead head).category = head.fieldOr "CATEGORY" "General" ∧
      (ofHead head).author = head.fieldOr "AUTHOR" "Unknown" ∧
      (ofHead head).version = head.fieldOr "VERSION" "0.1.0" ∧
      (ofHead head).description = head.fieldOr "DESCRIPTION" "Generated from blocks" :=
    ⟨rfl, rfl, rfl, rfl, rfl, rfl⟩
  obtain ⟨name, iconField, category, author, version, description⟩ := texts
  rw [fields_eq, name, iconField, icon, category, author, version, description,
    optional_fieldOr "name" _ (by decide), optional_fieldOr "fap_category" _ (by decide),
    optional_fieldOr "fap_author" _ (by decide), optional_fieldOr "fap_version" _ (by decide),
    optional_fieldOr "fap_description" _ (by decide)]
  simp only [List.append_assoc, List.cons_append, List.nil_append]
  rfl

theorem isQuoted_quoted (key text : String) : isQuoted (key, quoted text) = true := by
  simp [isQuoted, quoted]

theorem not_isQuoted {key value : String}
    (parts : ∀ c ∈ value.toList, c = '.' ∨ C.Identifier.isPart c = true) : isQuoted (key, value) = false := by
  rw [isQuoted, decide_eq_false_iff_not]
  intro start
  exact absurd (parts _ (List.mem_of_mem_head? start)) (by decide)

theorem parts_type (head : BlockHead) :
    ∀ c ∈ (ofHead head).type.toList, c = '.' ∨ C.Identifier.isPart c = true := by
  have chosen : (ofHead head).type = if isTypeName (head.fieldOr "APPTYPE" defaultType) then
      head.fieldOr "APPTYPE" defaultType else defaultType := rfl
  rw [chosen]
  split
  case isTrue ok => exact Harmless.parts_of_typeName ok
  case isFalse => exact Harmless.parts_of_typeName (by decide)

theorem filter_isQuoted_fields (head : BlockHead) : (ofHead head).fields.filter isQuoted =
    (quotedTexts head).map fun entry => (entry.1, quoted entry.2) := by
  have type : isQuoted ("apptype", (ofHead head).type) = false := not_isQuoted (parts_type head)
  have icon : (((head.field? "ICON").toList.map fun icon => ("fap_icon", quoted icon)).filter isQuoted) =
      (head.field? "ICON").toList.map fun icon => ("fap_icon", quoted icon) := by
    apply List.filter_eq_self.2
    exact List.forall_mem_map.2 fun _ _ => isQuoted_quoted _ _
  have stack : (((ofHead head).stack.toList.map fun stack => ("stack_size", toString stack)).filter
      isQuoted) = [] := by
    apply List.filter_eq_nil_iff.2
    intro field member
    obtain ⟨stack, _, rfl⟩ := List.mem_map.1 member
    rw [not_isQuoted fun c inside => .inr (C.Identifier.isPart_toString stack c inside)]
    decide
  rw [fields_ofHead, List.filter_append, List.filter_append, List.filter_append, icon, stack]
  simp [quotedTexts, isQuoted_quoted, type, Function.comp_def]

/-- What holds of the comment with the manifests of some blocks, whatever their fields say. -/
structure Sealed (heads : List BlockHead) (footer : List Char) : Prop where
  ends : Text.placesOf ['*', '/'] footer = [['*', '/', '\n']]
  reads : ∀ head ∈ heads, List.Forall₂
    (fun field entry => field.1 = entry.1 ∧ (fieldLine field).toList <:+: footer ∧
      ∀ rest, readValue (field.2.toList ++ rest) =
        some (C.splitCommentEnds (spaced entry.2.toList), rest))
    ((ofHead head).fields.filter isQuoted) (quotedTexts head)

theorem infix_fieldLine {manifest : Manifest} {field : String × String}
    (member : field ∈ manifest.fields) : (fieldLine field).toList <:+: manifest.text.toList := by
  obtain ⟨before, after, split⟩ := List.append_of_mem member
  rw [toList_text, split, List.flatMap_append, List.flatMap_cons]
  exact ⟨"App(\n".toList ++ before.flatMap fun field => (fieldLine field).toList,
    (after.flatMap fun field => (fieldLine field).toList) ++ [')'], by simp⟩

theorem text_infix_marked (manifest : Manifest) :
    manifest.text.toList <:+: Artifact.marked manifest :=
  ⟨(Application.row Application.manifestStart).toList,
    '\n' :: (Application.row Application.manifestEnd).toList, by simp [Artifact.marked, Application.row]⟩

def intruder : BlockHead where
  kind := .manifest
  fields := [("NAME", .text "\\\"),*\n/ **//"), ("ICON", .text "*/ int x; /*")]

def fieldRow (field : String × String) : List Char :=
  "    ".toList ++ field.1.toList ++ '=' :: field.2.toList ++ [',']

theorem toList_fieldLine (field : String × String) : (fieldLine field).toList = fieldRow field ++ ['\n'] := by
  simp [fieldLine, fieldRow]

def fieldOrder : List String :=
  ["appid", "name", "apptype", "entry_point", "fap_icon", "stack_size", "fap_category", "fap_author",
    "fap_version", "fap_description"]

def isEmitted (head : BlockHead) (key : String) : Bool :=
  if key = "fap_icon" then (ofHead head).icon.isSome
  else if key = "stack_size" then (ofHead head).stack.isSome
  else true

theorem keys_fields (head : BlockHead) :
    (ofHead head).fields.map Prod.fst = fieldOrder.filter (isEmitted head) := by
  have icon : (ofHead head).icon = head.field? "ICON" := rfl
  rw [fields_ofHead]
  unfold fieldOrder isEmitted
  rw [icon]
  cases head.field? "ICON" <;> cases (ofHead head).stack <;> simp

theorem parts_of_not_isQuoted {head : BlockHead} {field : String × String}
    (member : field ∈ (ofHead head).fields) (bare : isQuoted field = false) :
    ∀ c ∈ field.2.toList, c = '.' ∨ C.Identifier.isPart c = true := by
  rw [fields_ofHead] at member
  simp only [List.mem_append, List.mem_cons, List.mem_map, List.not_mem_nil, or_false] at member
  rcases member with ((((rfl | rfl | rfl | rfl) | ⟨icon, _, rfl⟩) | ⟨stack, _, rfl⟩) | rfl | rfl | rfl | rfl)
  case inl.inl.inl.inr.inr.inl => exact parts_type head
  case inl.inr =>
    intro c member
    exact .inr (C.Identifier.isPart_toString stack c member)
  all_goals exact absurd bare (by simp [isQuoted_quoted])

theorem mem_splitCommentEnds_iff {c : Char} (visible : c ≠ ' ') (cs : List Char) :
    c ∈ C.splitCommentEnds cs ↔ c ∈ cs := by
  fun_induction C.splitCommentEnds cs with
  | case1 rest ih => simp [ih, visible]
  | case2 first rest _ ih => simp [ih]
  | case3 => rfl

theorem return_mem_quoted (text : String) : '\r' ∈ (quoted text).toList ↔ '\r' ∈ text.toList := by
  have each (c : Char) : '\r' ∈ escape c ↔ '\r' = c := by
    rcases escape_cases c with ⟨rfl | rfl, written⟩ | ⟨rfl, written⟩ | ⟨_, written⟩ <;> simp [written]
  rw [quoted_eq, String.toList_ofList, List.mem_cons, List.mem_append, List.mem_singleton,
    mem_splitCommentEnds_iff (by decide), List.mem_flatMap]
  simp [each]

theorem return_mem_fieldRow {head : BlockHead} {field : String × String}
    (member : field ∈ (ofHead head).fields) : '\r' ∈ fieldRow field ↔ '\r' ∈ field.2.toList := by
  have key : field.1 ∈ fieldOrder := by
    have listed : field.1 ∈ (ofHead head).fields.map Prod.fst := List.mem_map_of_mem member
    rw [keys_fields] at listed
    exact List.mem_of_mem_filter listed
  have plain : '\r' ∉ field.1.toList := (by decide : ∀ key ∈ fieldOrder, '\r' ∉ key.toList) _ key
  simp [fieldRow, plain]

theorem return_free_iff (head : BlockHead) : (∀ field ∈ (ofHead head).fields, '\r' ∉ fieldRow field) ↔
      ∀ entry ∈ quotedTexts head, '\r' ∉ entry.2.toList := by
  constructor
  · intro free entry among found
    have kept : (entry.1, quoted entry.2) ∈ (ofHead head).fields.filter isQuoted := by
      rw [filter_isQuoted_fields]
      exact List.mem_map_of_mem among
    have member := List.mem_of_mem_filter kept
    apply free _ member
    rw [return_mem_fieldRow member]
    exact (return_mem_quoted entry.2).2 found
  · intro free field member found
    rw [return_mem_fieldRow member] at found
    cases bare : isQuoted field with
    | false => exact absurd (parts_of_not_isQuoted member bare _ found) (by decide)
    | true =>
      have kept : field ∈ (ofHead head).fields.filter isQuoted := List.mem_filter.2 ⟨member, bare⟩
      rw [filter_isQuoted_fields] at kept
      obtain ⟨entry, among, rfl⟩ := List.mem_map.1 kept
      exact free entry among ((return_mem_quoted entry.2).1 found)

theorem physicalLines_text (head : BlockHead) :
    Text.physicalLines (ofHead head).text.toList = "App(".toList ::
      (ofHead head).fields.flatMap (fun field => Text.partsAt '\r' (fieldRow field)) ++ [[')']] := by
  have rows {fields : List (String × String)}
      (each : ∀ field ∈ fields, Harmless field.1 ∧ Harmless field.2) :
      Text.physicalLines (fields.flatMap (fun field => (fieldLine field).toList) ++ [')']) =
        fields.flatMap (fun field => Text.partsAt '\r' (fieldRow field)) ++ [[')']] := by
    induction fields with
    | nil => decide
    | cons field fields ih =>
      obtain ⟨⟨key, value⟩, later⟩ := List.forall_mem_cons.1 each
      have oneRow : '\n' ∉ fieldRow field := by simpa [fieldRow] using ⟨key.oneRow, value.oneRow⟩
      have kept : (fieldRow field).getLast? ≠ some '\r' := by
        rw [fieldRow, List.getLast?_concat]
        decide
      rw [List.flatMap_cons, toList_fieldLine, List.append_assoc, List.append_assoc,
        List.singleton_append, Text.physicalLines_append oneRow kept, ih later, List.flatMap_cons,
        List.append_assoc]
  have opening : "App(\n".toList = "App(".toList ++ ['\n'] := by decide
  rw [toList_text, opening, List.append_assoc, List.append_assoc, List.singleton_append,
    Text.physicalLines_append (by decide) (by decide), rows (harmless_fields head)]
  rfl

theorem physicalLines_text_eq_rows_iff (head : BlockHead) :
    Text.physicalLines (ofHead head).text.toList =
        "App(".toList :: (ofHead head).fields.map fieldRow ++ [[')']] ↔
      ∀ entry ∈ quotedTexts head, '\r' ∉ entry.2.toList := by
  rw [← return_free_iff]
  constructor
  · intro lines field member
    apply @Text.not_mem_physicalLines (ofHead head).text.toList
    rw [lines]
    simp only [List.cons_append, List.mem_cons, List.mem_append]
    exact .inr (.inl (List.mem_map_of_mem member))
  · intro free
    rw [physicalLines_text, List.map_eq_flatMap]
    congr 2
    apply List.flatMap_congr
    intro field member
    exact Text.partsAt_of_not_mem (free field member)

/-- A manifest has one line for each of its fields, in their order, if and only if no text of the block holds a
carriage return: at each of them the row of the field breaks. -/
theorem lines_iff_no_return (head : BlockHead) :
    (ofHead head).fields.map Prod.fst = fieldOrder.filter (isEmitted head) ∧
    Text.physicalLines (ofHead head).text.toList = "App(".toList ::
      (ofHead head).fields.flatMap (fun field => Text.partsAt '\r' (fieldRow field)) ++ [[')']] ∧
    (Text.physicalLines (ofHead head).text.toList =
        "App(".toList :: (ofHead head).fields.map fieldRow ++ [[')']] ↔
      ∀ entry ∈ quotedTexts head, '\r' ∉ entry.2.toList) :=
  ⟨keys_fields head, physicalLines_text head, physicalLines_text_eq_rows_iff head⟩

/-- A carriage return in the name of an application leaves its text open at the end of a line. -/
theorem line_breaks_at_return : ∃ head : BlockHead, head.fieldOr "NAME" "My App" = "a\rb" ∧
    "    name=\"a".toList ∈ Text.physicalLines (ofHead head).text.toList ∧
    Text.physicalLines (ofHead head).text.toList ≠
      "App(".toList :: (ofHead head).fields.map fieldRow ++ [[')']] := by
  refine ⟨{ kind := .manifest, fields := [("NAME", .text "a\rb")] }, by decide, ?_, ?_⟩
  · rw [physicalLines_text]
    decide
  · rw [ne_eq, physicalLines_text_eq_rows_iff]
    intro free
    exact absurd (free ("name", "a\rb") (by decide)) (by decide)

end Manifest

end FlipperBlocks
