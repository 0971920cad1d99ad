import FlipperBlocks.Proofs.Application.Pieces
import FlipperBlocks.Proofs.Application.Writing

/-! The manifests in the comment behind a program.

They are found again, and so is the program, since no row but their marks starts with a dash. -/
namespace FlipperBlocks

open Application Text
open C (OneRow)

def C.Inside (cs : List Char) : Prop := Scan.run .blockComment cs = ([], .blockComment)

namespace C.Inside

theorem append {a b : List Char} (first : Inside a) (second : Inside b) : Inside (a ++ b) :=
  Scan.run_append_of_eq first second

theorem flatMap {α : Type} {list : List α} {f : α → List Char}
    (each : ∀ item ∈ list, Inside (f item)) : Inside (list.flatMap f) := by
  induction list with
  | nil => exact rfl
  | cons item rest ih =>
    obtain ⟨here, later⟩ := List.forall_mem_cons.1 each
    exact here.append (ih later)

theorem of_not_mem {cs : List Char} (noStar : '*' ∉ cs) : Inside cs := by
  have kept := Scan.run_blockComment noStar []
  rw [List.append_nil] at kept
  exact kept

end C.Inside

namespace Manifest

/-- What the passes over a text make of one of its characters. -/
def escape (c : Char) : List Char :=
  if c = '\\' || c = '"' then ['\\', c] else if c = '\n' then [' '] else [c]

/-- No pass finds anything in what the passes before it have put in. -/
theorem quoted_eq (text : String) :
    quoted text = String.ofList ('"' :: (C.splitCommentEnds (text.toList.flatMap escape) ++ ['"'])) := by
  have each (c : Char) : Text.replace '\n' [' '] (Text.replace '"' ['\\', '"']
      (if c = '\\' then ['\\', '\\'] else [c])) = escape c := by
    unfold escape
    by_cases backslash : c = '\\'
    · simp +decide [backslash, Text.replace]
    · by_cases quote : c = '"'
      · simp +decide [quote, replace]
      · simp [backslash, quote, replace]
  simp only [quoted, replace, List.flatMap_assoc] at each ⊢
  simp only [each]

end Manifest

/-- A text that ends neither the row nor the block comment it stands in. -/
structure Harmless (text : String) : Prop where
  oneRow : OneRow text
  inside : C.Inside text.toList

namespace Harmless

theorem mem_splitCommentEnds {c : Char} {cs : List Char}
    (member : c ∈ C.splitCommentEnds cs) : c ∈ cs ∨ c = ' ' := by
  fun_induction C.splitCommentEnds cs with
  | case1 rest ih =>
    simp only [List.mem_cons] at member ⊢
    rcases member with star | blank | slash | later
    · exact .inl (.inl star)
    · exact .inr blank
    · exact .inl (.inr (.inl slash))
    · exact (ih later).imp_left fun there => .inr (.inr there)
  | case2 first rest _ ih =>
    rcases List.mem_cons.1 member with rfl | later
    · exact .inl List.mem_cons_self
    · exact (ih later).imp_left (List.mem_cons_of_mem _)
  | case3 => contradiction

theorem quoted (text : String) : Harmless (Manifest.quoted text) where
  oneRow := by
    have escaped (c : Char) : '\n' ∉ Manifest.escape c := by
      unfold Manifest.escape
      split
      · rename_i special
        rw [Bool.or_eq_true, decide_eq_true_eq, decide_eq_true_eq] at special
        rcases special with rfl | rfl <;> decide
      · split
        · decide
        · rename_i other
          simpa using Ne.symm other
    rw [OneRow, Manifest.quoted_eq, String.toList_ofList, List.mem_cons, List.mem_append]
    rintro (start | inside | last)
    · exact absurd start (by decide)
    · rcases mem_splitCommentEnds inside with there | blank
      · obtain ⟨c, _, feed⟩ := List.mem_flatMap.1 there
        exact escaped c feed
      · exact absurd blank (by decide)
    · exact absurd last (by decide)
  inside := by
    rw [Manifest.quoted_eq, String.toList_ofList]
    exact (C.Scan.run_splitCommentEnds (by decide) (by decide) _ []).1

theorem of_parts {text : String}
    (parts : ∀ c ∈ text.toList, c = '.' ∨ C.Identifier.isPart c = true) : Harmless text := by
  refine ⟨fun feed => ?_, .of_not_mem fun star => ?_⟩
  · exact absurd (parts _ feed) (by decide)
  · exact absurd (parts _ star) (by decide)

theorem natural (n : Nat) : Harmless (toString n) :=
  of_parts fun c member => .inr (C.Identifier.isPart_toString n c member)

theorem mem_partsAt {separator c : Char} {cs : List Char} (member : c ∈ cs) :
    c = separator ∨ ∃ part ∈ partsAt separator cs, c ∈ part := by
  induction cs with
  | nil => contradiction
  | cons first rest ih =>
    rw [partsAt]
    split
    · rename_i same
      rcases List.mem_cons.1 member with here | later
      · exact .inl (here.trans same)
      · exact (ih later).imp_right fun ⟨part, among, there⟩ => ⟨part, List.mem_cons_of_mem _ among, there⟩
    · rcases List.mem_cons.1 member with rfl | later
      · split <;> exact .inr ⟨_, List.mem_cons_self, List.mem_cons_self⟩
      · refine (ih later).imp_right fun ⟨part, among, there⟩ => ?_
        split
        · rename_i head tail parts
          rw [parts] at among
          rcases List.mem_cons.1 among with rfl | among
          · exact ⟨_, List.mem_cons_self, List.mem_cons_of_mem _ there⟩
          · exact ⟨part, List.mem_cons_of_mem _ among, there⟩
        · rename_i parts
          rw [parts] at among
          contradiction

theorem parts_of_typeName {text : String} (ok : Manifest.isTypeName text = true) :
    ∀ c ∈ text.toList, c = '.' ∨ C.Identifier.isPart c = true := by
  intro c member
  rcases @mem_partsAt '.' c _ member with point | ⟨part, among, there⟩
  · exact .inl point
  · have named := List.all_eq_true.1 ok part among
    have letters := C.Identifier.isPart_of_mem named c
    rw [String.toList_ofList] at letters
    exact .inr (letters there)

theorem typeName {text : String} (ok : Manifest.isTypeName text = true) : Harmless text :=
  of_parts (parts_of_typeName ok)

end Harmless

namespace Manifest

theorem harmless_field {key value : String} (first : Harmless key) (second : Harmless value) :
    ∀ field ∈ [(key, value)], Harmless field.1 ∧ Harmless field.2 :=
  List.forall_mem_singleton.2 ⟨first, second⟩

theorem harmless_optional {key : String} (harmless : Harmless key) (value : Option String) :
    ∀ field ∈ optional key value, Harmless field.1 ∧ Harmless field.2 := by
  unfold optional
  split
  · split
    · exact nofun
    · exact harmless_field harmless (.quoted _)
  · exact nofun

/-- The fields of a block's manifest end neither their rows nor the comment they stand in. -/
theorem harmless_fields (head : BlockHead) :
    ∀ field ∈ (ofHead head).fields, Harmless field.1 ∧ Harmless field.2 := by
  have type : Harmless (ofHead head).type := by
    unfold ofHead
    dsimp only
    split
    · rename_i ok
      exact .typeName ok
    · exact ⟨by decide, .of_not_mem (by decide)⟩
  unfold fields
  rw [show [("apptype", (ofHead head).type), ("entry_point", quoted entryPoint)] =
    [("apptype", (ofHead head).type)] ++ [("entry_point", quoted entryPoint)] from rfl]
  simp only [List.forall_mem_append]
  refine ⟨⟨⟨⟨⟨⟨⟨⟨?id, ?name⟩, ?type, ?entry⟩, ?icon⟩, ?stack⟩, ?category⟩, ?author⟩, ?version⟩, ?description⟩
  case id => exact harmless_field ⟨by decide, .of_not_mem (by decide)⟩ (.quoted _)
  case type => exact harmless_field ⟨by decide, .of_not_mem (by decide)⟩ type
  case entry => exact harmless_field ⟨by decide, .of_not_mem (by decide)⟩ (.quoted _)
  case stack =>
    split
    · exact harmless_field ⟨by decide, .of_not_mem (by decide)⟩ (.natural _)
    · exact nofun
  all_goals exact harmless_optional ⟨by decide, .of_not_mem (by decide)⟩ _

/-! The rows of a manifest. -/

theorem toList_text (manifest : Manifest) : manifest.text.toList =
    "App(\n".toList ++ manifest.fields.flatMap (fun field => (fieldLine field).toList) ++ [')'] := by
  rw [text, String.toList_append, String.toList_append, toList_joined, List.flatMap_map]
  rfl

theorem inside_text (head : BlockHead) : C.Inside (ofHead head).text.toList := by
  rw [toList_text]
  refine ((C.Inside.of_not_mem (by decide)).append (.flatMap fun field member => ?_)).append
    (.of_not_mem (by decide))
  obtain ⟨key, value⟩ := harmless_fields head field member
  simp only [fieldLine, String.toList_append]
  exact ((((C.Inside.of_not_mem (by decide)).append key.inside).append
    (.of_not_mem (by decide))).append value.inside).append (.of_not_mem (by decide))

theorem undashed_text (head : BlockHead) : Text.Undashed ((ofHead head).text.toList ++ ['\n']) := by
  have opening : Text.Undashed ('A' :: (['p', 'p', '('] ++ ['\n'])) := .row (by decide) (by decide)
  have closing : Text.Undashed (')' :: ([] ++ ['\n'])) := .row (by decide) (by decide)
  rw [toList_text, List.append_assoc]
  refine (opening.append (.flatMap fun field member => ?_)).append closing
  obtain ⟨key, value⟩ := harmless_fields head field member
  have letters : (fieldLine field).toList = ' ' :: ([' ', ' ', ' '] ++
      (field.1.toList ++ '=' :: (field.2.toList ++ [','])) ++ ['\n']) := by simp [fieldLine]
  have first := key.oneRow
  have second := value.oneRow
  rw [letters]
  refine .row (by decide) ?_
  simp_all [OneRow]

end Manifest

namespace Artifact

/-! How the program is found again. -/

theorem before_eq {pattern a b : List Char}
    (first : ∀ front, front ++ pattern <+: a ++ b → a.length ≤ front.length)
    (there : b = [] ∨ pattern <+: b) : before pattern (a ++ b) = a := by
  induction a with
  | nil =>
    rw [List.nil_append]
    rcases there with rfl | there
    · rfl
    · cases b with
      | nil => rfl
      | cons c cs => rw [before, if_pos (List.isPrefixOf_iff_prefix.2 there)]
  | cons c cs ih =>
    rw [List.cons_append, before, if_neg, ih]
    · intro front stands
      have later := first (c :: front) (by simpa using stands)
      simpa using later
    · intro stands
      have start := first [] (List.isPrefixOf_iff_prefix.1 stands)
      simp at start

def footerStart : List Char := ['\n', '/', '*', '\n', '-']

theorem footerStart_prefix : footerStart <+: footer := ⟨footer.drop 5, by decide⟩

theorem noDash_footerStart {front cs : List Char} (stands : front ++ footerStart <+: cs) :
    noDash true cs = false := by
  obtain ⟨rest, rfl⟩ := stands
  have split : front ++ footerStart ++ rest = (front ++ ['\n', '/', '*']) ++ '\n' :: '-' :: rest := by
    simp [footerStart]
  rw [split, noDash_infix]

/-- No row before the footer starts with a dash, and so the footer is found where it stands. -/
theorem before_footer {program rest : List Char} (undashed : Text.Undashed program)
    (there : rest = [] ∨ footer <+: rest) : before footer (program ++ rest) = program := by
  refine before_eq (fun front stands => ?_) there
  have start : front ++ footerStart <+: program ++ rest :=
    ((List.prefix_append_right_inj front).2 footerStart_prefix).trans stands
  by_contra early
  rw [Nat.not_le] at early
  rcases there with rfl | found
  · rw [List.append_nil] at start
    exact absurd undashed.noDash (by simp [noDash_footerStart start])
  · have comment : Text.Undashed (program ++ ['\n', '/', '*', '\n']) :=
      undashed.append ⟨.inr rfl, rfl⟩
    have opened : program ++ ['\n', '/', '*', '\n'] <+: program ++ rest :=
      (List.prefix_append_right_inj program).2 (.trans ⟨footer.drop 4, by decide⟩ found)
    have within : front ++ footerStart <+: program ++ ['\n', '/', '*', '\n'] :=
      List.prefix_of_prefix_length_le start opened (by simp [footerStart]; omega)
    exact absurd comment.noDash (by simp [noDash_footerStart within])

/-! How the manifests are found again. -/

theorem dropEnds_prefix (cs : List Char) : dropEnds cs <+: cs := by
  have suffix := List.dropWhile_suffix (l := cs.reverse) fun c => c = '\r' || c = '\n'
  have reversed := List.reverse_prefix.2 suffix
  rwa [List.reverse_reverse] at reversed

theorem dropEnds_ne {row : List Char} (start : row.head? ≠ some '-') {mark : String}
    (dashed : mark.toList.head? = some '-') : String.ofList (dropEnds row) ≠ mark := by
  rintro rfl
  obtain ⟨rest, same⟩ := dropEnds_prefix row
  rw [String.toList_ofList] at dashed
  cases content : dropEnds row with
  | nil => simp [content] at dashed
  | cons c cs =>
    rw [content] at same dashed
    rw [← same] at start
    exact start dashed

theorem manifestsFrom_outside {rows : List (List Char)}
    (plain : ∀ row ∈ rows, row.head? ≠ some '-') (rest : List (List Char)) :
    manifestsFrom none (rows ++ rest) = manifestsFrom none rest := by
  induction rows with
  | nil => rfl
  | cons row rows ih =>
    obtain ⟨here, later⟩ := List.forall_mem_cons.1 plain
    rw [List.cons_append, manifestsFrom, if_neg (dropEnds_ne here (by decide)), ih later]

theorem manifestsFrom_inside {rows : List (List Char)}
    (plain : ∀ row ∈ rows, row.head? ≠ some '-') (body rest : List (List Char)) :
    manifestsFrom (some body) (rows ++ rest) = manifestsFrom (some (rows.reverse ++ body)) rest := by
  induction rows generalizing body with
  | nil => rfl
  | cons row rows ih =>
    obtain ⟨here, later⟩ := List.forall_mem_cons.1 plain
    rw [List.cons_append, manifestsFrom, if_neg (dropEnds_ne here (by decide)), ih later]
    simp

theorem dropEnds_row {cs : List Char} {c : Char} (kept : (c = '\r' || c = '\n') = false) :
    dropEnds (cs ++ [c] ++ ['\n']) = cs ++ [c] := by
  rw [dropEnds]
  simp [kept]

def marked (manifest : Manifest) : List Char :=
  (row manifestStart).toList ++ (row manifest.text).toList ++
    (row manifestEnd).toList

theorem manifestsFrom_marked (head : BlockHead) (rest : List Char) :
    manifestsFrom none (rows (marked (.ofHead head) ++ rest)) =
      (Manifest.ofHead head).text :: manifestsFrom none (rows rest) := by
  have undashed := Manifest.undashed_text head
  have opening : rows (row manifestStart).toList = [(row manifestStart).toList] := by decide
  have closing : rows (row manifestEnd).toList = [(row manifestEnd).toList] := by decide
  have letters : (row (Manifest.ofHead head).text).toList =
    (Manifest.ofHead head).text.toList ++ ['\n'] := by simp [row]
  have text : dropEnds ((Manifest.ofHead head).text.toList ++ ['\n']) =
      (Manifest.ofHead head).text.toList := by
    rw [Manifest.toList_text]
    exact dropEnds_row (by decide)
  have split : rows (marked (.ofHead head) ++ rest) =
      [(row manifestStart).toList] ++
        (rows ((Manifest.ofHead head).text.toList ++ ['\n']) ++
          ([(row manifestEnd).toList] ++ rows rest)) := by
    have ended : Text.Ended (row manifestEnd).toList := .inr (by decide)
    have started : Text.Ended (row manifestStart).toList := .inr (by decide)
    rw [marked, List.append_assoc, List.append_assoc, letters, rows_append started,
      rows_append undashed.ended, rows_append ended, opening, closing]
  rw [split, List.singleton_append, manifestsFrom, if_pos (by decide),
    manifestsFrom_inside (head?_rows undashed.noDash), List.singleton_append, manifestsFrom,
    if_pos (by decide), List.append_nil, List.reverse_reverse, flatten_rows, text,
    String.ofList_toList]

theorem manifestsFrom_all {manifests : List Manifest}
    (each : ∀ manifest ∈ manifests, ∃ head, manifest = .ofHead head) (rest : List Char) :
    manifestsFrom none (rows (manifests.flatMap marked ++ rest)) =
      manifests.map Manifest.text ++ manifestsFrom none (rows rest) := by
  induction manifests with
  | nil => rfl
  | cons manifest more ih =>
    obtain ⟨⟨head, rfl⟩, later⟩ := List.forall_mem_cons.1 each
    rw [List.flatMap_cons, List.append_assoc, manifestsFrom_marked, ih later]
    rfl

theorem toList_comment {draft : Draft} (any : draft.manifests ≠ []) :
    ("".intercalate (manifestPieces draft)).toList =
      ['\n', '/', '*', '\n'] ++ (draft.manifests.flatMap marked ++ ['*', '/', '\n']) := by
  have pieces : manifestPieces draft = [emptyRow, row "/*"] ++
      draft.manifests.flatMap (fun manifest => [row manifestStart,
        row manifest.text, row manifestEnd]) ++ [row "*/"] := by
    unfold manifestPieces
    split
    · contradiction
    · rfl
  have each (manifest : Manifest) : [row manifestStart, row manifest.text,
      row manifestEnd].flatMap String.toList = marked manifest := by simp [marked]
  rw [pieces, toList_joined, List.flatMap_append, List.flatMap_append, List.flatMap_assoc, List.append_assoc]
  simp only [each]
  rfl

theorem inside_marked (head : BlockHead) : C.Inside (marked (.ofHead head)) := by
  have opening : C.Inside (row manifestStart).toList := .of_not_mem (by decide)
  have closing : C.Inside (row manifestEnd).toList := .of_not_mem (by decide)
  have text : C.Inside (row (Manifest.ofHead head).text).toList := by
    rw [row, String.toList_append]
    exact (Manifest.inside_text head).append (.of_not_mem (by decide))
  exact (opening.append text).append closing

theorem closes_comment {draft : Draft}
    (each : ∀ manifest ∈ draft.manifests, ∃ head, manifest = .ofHead head) :
    ∃ found, C.Closes ("".intercalate (manifestPieces draft)) found ∧ C.arrow ∉ found := by
  by_cases any : draft.manifests = []
  · refine ⟨[], ?_, List.not_mem_nil⟩
    unfold manifestPieces
    rw [any]
    rfl
  · have opening : C.Scan.run .code ['\n', '/', '*', '\n'] = ([], .blockComment) := by decide
    have closing : C.Scan.run .blockComment ['*', '/', '\n'] = ([.comment], .code) := by decide
    have inside : C.Inside (draft.manifests.flatMap marked) := .flatMap fun manifest member => by
      obtain ⟨head, rfl⟩ := each manifest member
      exact inside_marked head
    refine ⟨[.comment], ?_, by decide⟩
    rw [C.Closes, toList_comment any]
    exact C.Scan.run_append_of_eq opening (C.Scan.run_append_of_eq inside closing)

theorem footer_prefix {draft : Draft} (any : draft.manifests ≠ []) :
    footer <+: ("".intercalate (manifestPieces draft)).toList := by
  have letters : footer = ['\n', '/', '*', '\n'] ++ (row manifestStart).toList := by decide
  rw [toList_comment any, letters]
  cases manifests : draft.manifests with
  | nil => contradiction
  | cons first rest =>
    refine (List.prefix_append_right_inj _).2 ?_
    rw [List.flatMap_cons, marked, List.append_assoc, List.append_assoc, List.append_assoc]
    exact List.prefix_append ..

theorem manifestsFrom_comment {draft : Draft}
    (each : ∀ manifest ∈ draft.manifests, ∃ head, manifest = .ofHead head) :
    manifestsFrom none (rows ("".intercalate (manifestPieces draft)).toList) =
      draft.manifests.map Manifest.text := by
  cases manifests : draft.manifests with
  | nil =>
    unfold manifestPieces
    rw [manifests]
    rfl
  | cons first rest =>
    have ended : Text.Ended ['\n', '/', '*', '\n'] := .inr rfl
    have last : manifestsFrom none (rows ['*', '/', '\n']) = [] := by decide
    rw [toList_comment (by simp [manifests]), rows_append ended,
      manifestsFrom_outside (by decide), manifestsFrom_all each, last, List.append_nil, manifests]

end Artifact

namespace Application

theorem toList_text (draft : Draft) : (text draft).toList =
    (source draft).toList ++ ("".intercalate (manifestPieces draft)).toList := by
  rw [text, pieces, source, toList_joined, toList_joined, toList_joined, List.flatMap_append]

end Application

theorem Program.manifests_compile (program : Program) :
    program.compile.manifests = program.lowered.draft.manifests.map Manifest.text := by
  have undashed := (tidy_source program.lowered_sound).undashed
  rw [Artifact.manifests, Artifact.manifestsIn, text_compile, toList_text, rows_append undashed.ended,
    Artifact.manifestsFrom_outside (head?_rows undashed.noDash),
    Artifact.manifestsFrom_comment program.moves_lowered.manifests]

theorem Program.source_compile (program : Program) :
    program.compile.source = source program.lowered.draft := by
  have undashed := (tidy_source program.lowered_sound).undashed
  rw [Artifact.source, text_compile, toList_text, Artifact.before_footer undashed, String.ofList_toList]
  by_cases any : program.lowered.draft.manifests = []
  · left
    unfold manifestPieces
    rw [any]
    rfl
  · exact .inr (Artifact.footer_prefix any)

/-- The manifests of a program are found in its text one by one as they were written, and its source
is all that stands before them. -/
theorem Program.compile_comes_apart (program : Program) :
    program.compile.manifests = program.lowered.draft.manifests.map Manifest.text ∧
      program.compile.source = "".intercalate (sourcePieces program.lowered.draft) ∧
        program.compile.text = program.compile.source ++
          "".intercalate (manifestPieces program.lowered.draft) := by
  refine ⟨program.manifests_compile, program.source_compile, ?_⟩
  rw [source_compile, text_compile, ← String.toList_inj, String.toList_append, toList_text]

end FlipperBlocks
