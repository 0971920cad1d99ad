import FlipperBlocks.Text.Lines
import Mathlib.Data.List.Infix

/-! The rows of a text, and rows that start with a dash. -/
namespace FlipperBlocks.Text

/-- A text that leaves no row open. -/
def Ended (cs : List Char) : Prop := cs = [] ∨ cs.getLast? = some '\n'

theorem Ended.tail {c : Char} {cs : List Char} (ended : Ended (c :: cs)) :
    cs = [] ∧ c = '\n' ∨ cs.getLast? = some '\n' := by
  rcases ended with empty | last
  · contradiction
  · cases cs with
    | nil => exact .inl ⟨rfl, by simpa using last⟩
    | cons next rest => exact .inr (by simpa using last)

variable {a line : List Char} {fresh : Bool}

theorem Ended.append {b : List Char} (first : Ended a) (second : Ended b) : Ended (a ++ b) := by
  rcases second with rfl | last
  · simpa using first
  · exact .inr (by simp [List.getLast?_append, last])

private theorem rowsFrom_append (ended : a = [] ∧ line = [] ∨ a.getLast? = some '\n') (b : List Char) :
    rowsFrom line (a ++ b) = rowsFrom line a ++ rowsFrom [] b := by
  induction a generalizing line with
  | nil =>
    obtain ⟨_, rfl⟩ : [] = [] ∧ line = [] := ended.resolve_right (by simp)
    rfl
  | cons c cs ih =>
    have tail := Ended.tail (.inr (ended.resolve_left (by simp)))
    rw [List.cons_append, rowsFrom, rowsFrom]
    split
    · rw [ih (tail.imp_left fun empty => ⟨empty.1, rfl⟩), List.cons_append]
    · rename_i other
      exact ih (.inr (tail.resolve_left fun last => other last.2))

theorem rows_append (ended : Ended a) (b : List Char) : rows (a ++ b) = rows a ++ rows b :=
  rowsFrom_append (ended.imp_left fun empty => ⟨empty, rfl⟩) b

private theorem flatten_rowsFrom (line cs : List Char) : (rowsFrom line cs).flatten = line.reverse ++ cs := by
  induction cs generalizing line with
  | nil =>
    rw [rowsFrom]
    split
    · rename_i empty
      simp [List.isEmpty_iff.1 empty]
    · simp
  | cons c cs ih =>
    rw [rowsFrom]
    split
    · rw [List.flatten_cons, ih]
      simp
    · rw [ih]
      simp

theorem flatten_rows (cs : List Char) : (rows cs).flatten = cs := flatten_rowsFrom [] cs

private theorem rowsFrom_row {cs : List Char} (inside : '\n' ∉ cs) :
    rowsFrom line (cs ++ ['\n']) = [line.reverse ++ cs ++ ['\n']] := by
  induction cs generalizing line with
  | nil => simp [rowsFrom]
  | cons c cs ih =>
    rw [List.mem_cons, not_or] at inside
    rw [List.cons_append, rowsFrom, if_neg (Ne.symm inside.1), ih inside.2]
    simp

theorem rows_flatMap {α : Type} {list : List α} {f : α → List Char}
    (each : ∀ item ∈ list, ∃ line, '\n' ∉ line ∧ f item = line ++ ['\n']) :
    rows (list.flatMap f) = list.map f := by
  induction list with
  | nil => rfl
  | cons item rest ih =>
    obtain ⟨⟨line, inside, row⟩, later⟩ := List.forall_mem_cons.1 each
    rw [List.flatMap_cons, rows_append, ih later, List.map_cons, row, rows, rowsFrom_row inside]
    · rfl
    · exact .inr (by simp [row])

def noDash (fresh : Bool) : List Char → Bool
  | [] => true
  | c :: cs => !(fresh && c == '-') && noDash (c == '\n') cs

private theorem noDash_append_of (ended : a = [] ∧ fresh = true ∨ a.getLast? = some '\n') (b : List Char) :
    noDash fresh (a ++ b) = (noDash fresh a && noDash true b) := by
  induction a generalizing fresh with
  | nil =>
    obtain ⟨_, rfl⟩ : [] = [] ∧ fresh = true := ended.resolve_right (by simp)
    rfl
  | cons c cs ih =>
    have tail := Ended.tail (.inr (ended.resolve_left (by simp)))
    rw [List.cons_append, noDash, noDash, ih (tail.imp_left fun last => ⟨last.1, by simp [last.2]⟩),
      Bool.and_assoc]

theorem noDash_append (ended : Ended a) (b : List Char) :
    noDash true (a ++ b) = (noDash true a && noDash true b) :=
  noDash_append_of (ended.imp_left fun empty => ⟨empty, rfl⟩) b

theorem noDash_of_not_mem {cs : List Char} (none : '-' ∉ cs) : noDash fresh cs = true := by
  induction cs generalizing fresh with
  | nil => rfl
  | cons c cs ih =>
    rw [List.mem_cons, not_or] at none
    have other : (c == '-') = false := by simpa using Ne.symm none.1
    rw [noDash, other, ih none.2, Bool.and_false]
    rfl

private theorem noDash_inside {cs : List Char} (inside : '\n' ∉ cs) : noDash false (cs ++ ['\n']) = true := by
  induction cs with
  | nil => rfl
  | cons c cs ih =>
    rw [List.mem_cons, not_or] at inside
    have other : (c == '\n') = false := by simpa using Ne.symm inside.1
    rw [List.cons_append, noDash, other, ih inside.2]
    rfl

theorem noDash_row {c : Char} {cs : List Char} (first : c ≠ '-') (inside : '\n' ∉ c :: cs) :
    noDash true (c :: (cs ++ ['\n'])) = true := by
  rw [List.mem_cons, not_or] at inside
  have start : (c == '-') = false := by simpa using first
  have other : (c == '\n') = false := by simpa using Ne.symm inside.1
  rw [noDash, start, other, noDash_inside inside.2]
  rfl

theorem lineFeed_not_mem_linesFrom {cs : List Char} (read : '\n' ∉ line) :
    ∀ other ∈ linesFrom line cs, '\n' ∉ other := by
  induction cs generalizing line with
  | nil =>
    rw [linesFrom]
    split
    · simp
    · simpa using read
  | cons c cs ih =>
    rw [linesFrom]
    split
    · refine List.forall_mem_cons.2 ⟨?_, ih (by simp)⟩
      rw [List.mem_reverse]
      unfold dropReturn
      split
      · exact fun member => read (List.mem_cons_of_mem _ member)
      · exact read
    · rename_i other
      refine ih ?_
      rw [List.mem_cons, not_or]
      exact ⟨Ne.symm other, read⟩

/-- Whole rows, none of which starts with a dash. -/
structure Undashed (cs : List Char) : Prop where
  ended : Ended cs
  noDash : noDash true cs = true

namespace Undashed

theorem nil : Undashed [] := ⟨.inl rfl, rfl⟩

theorem append {a b : List Char} (first : Undashed a) (second : Undashed b) : Undashed (a ++ b) where
  ended := by
    rcases second.ended with empty | last
    · rw [empty, List.append_nil]
      exact first.ended
    · exact .inr (by rw [List.getLast?_append, last, Option.some_or])
  noDash := by
    rw [noDash_append first.ended, first.noDash, second.noDash]
    rfl

theorem flatMap {α : Type} {list : List α} {f : α → List Char}
    (each : ∀ item ∈ list, Undashed (f item)) : Undashed (list.flatMap f) := by
  induction list with
  | nil => exact nil
  | cons item rest ih =>
    obtain ⟨here, later⟩ := List.forall_mem_cons.1 each
    exact here.append (ih later)

theorem row {c : Char} {cs : List Char} (first : c ≠ '-') (inside : '\n' ∉ c :: cs) :
    Undashed (c :: (cs ++ ['\n'])) :=
  ⟨.inr (by simp [List.getLast?_cons]), noDash_row first inside⟩

end Undashed

theorem undashed_indent (s : String) : Undashed (indent s).toList := by
  rw [indent, String.toList_ofList]
  refine .flatMap fun line member => ?_
  unfold indentLine
  split
  · exact ⟨.inr rfl, rfl⟩
  · have inside := lineFeed_not_mem_linesFrom (by simp) line member
    have moved : Undashed (' ' :: ([' ', ' ', ' '] ++ line ++ ['\n'])) :=
      .row (by decide) (by simpa using inside)
    exact moved

theorem noDash_infix {fresh : Bool} {a b : List Char} : noDash fresh (a ++ '\n' :: '-' :: b) = false := by
  induction a generalizing fresh with
  | nil => simp [noDash]
  | cons c cs ih => rw [List.cons_append, noDash, ih, Bool.and_false]

private theorem head?_rowsFrom {line cs : List Char} (start : line.getLast? ≠ some '-')
    (plain : noDash line.isEmpty cs = true) : ∀ row ∈ rowsFrom line cs, row.head? ≠ some '-' := by
  induction cs generalizing line with
  | nil =>
    rw [rowsFrom]
    split
    · simp
    · simpa using start
  | cons c cs ih =>
    rw [noDash, Bool.and_eq_true] at plain
    obtain ⟨here, later⟩ := plain
    rw [rowsFrom]
    split
    · rename_i feed
      subst feed
      refine List.forall_mem_cons.2 ⟨?_, ih (by simp) later⟩
      cases line with
      | nil => simp
      | cons last rest => simpa [List.getLast?_cons] using start
    · rename_i other
      have goesOn : (c == '\n') = false := by simpa using other
      rw [goesOn] at later
      refine ih ?_ later
      cases line with
      | nil => simpa using here
      | cons last rest => simpa using start

theorem head?_rows {cs : List Char} (plain : noDash true cs = true) : ∀ row ∈ rows cs, row.head? ≠ some '-' :=
  head?_rowsFrom (by simp) plain

end FlipperBlocks.Text
