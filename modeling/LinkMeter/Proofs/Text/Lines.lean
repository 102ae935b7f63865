import LinkMeter.Proofs.Text.Words
import LinkMeter.Text.Lines
import Mathlib.Data.List.Basic

/-!
# Lines and their endings

A text is laid out as lines (`Lined`): each has a line feed behind it, which the
last one may want.  Reading the text gives the lines, except that a carriage
return in front of a line feed is taken for a part of the ending, and that an empty
last line without an ending is not there at all.

A reader of single lines that makes nothing of either (`IgnoresEnding`) reads the
lines that were laid out (`Lined.filterMap_drop`).
-/

namespace LinkMeter.Text

/-- Lines with a line feed behind each. -/
def unlines (ls : List (List Char)) : List Char := ls.flatMap (· ++ ['\n'])

/-- The text consists of these lines; the line feed behind the last one may be wanting. -/
structure Lined (ls : List (List Char)) (text : List Char) : Prop where
  no_feed : ∀ line ∈ ls, '\n' ∉ line
  text_eq : text = unlines ls ∨ text ++ ['\n'] = unlines ls

/-- The reader makes nothing of an empty line, and the carriage return of an ending makes no
difference to it. -/
structure IgnoresEnding {α : Type} (read? : List Char → Option α) : Prop where
  nil : read? [] = none
  ending : ∀ line, read? (dropReturn line) = read? line

variable {ls : List (List Char)} {line text : List Char}

theorem unlines_append (front back : List (List Char)) :
    unlines (front ++ back) = unlines front ++ unlines back := List.flatMap_append

theorem unlines_singleton (line : List Char) : unlines [line] = line ++ ['\n'] :=
  List.flatMap_singleton _ line

/-! ## Reading lines -/

theorem linesFrom_append (hline : '\n' ∉ line) (start rest : List Char) :
    linesFrom start (line ++ rest) = linesFrom (start ++ line) rest := by
  induction line generalizing start with
  | nil => rw [List.nil_append, List.append_nil]
  | cons c line ih =>
      obtain ⟨hc, hline⟩ := List.ne_and_not_mem_of_not_mem_cons hline
      rw [List.cons_append, linesFrom, if_neg hc.symm, ih hline, List.append_assoc,
        List.singleton_append]

theorem lines_unlines_append (hfeed : ∀ line ∈ ls, '\n' ∉ line) (last : List Char) :
    lines (unlines ls ++ last) = ls.map dropReturn ++ lines last := by
  induction ls with
  | nil => rfl
  | cons line ls ih =>
      obtain ⟨hline, hfeed⟩ := List.forall_mem_cons.1 hfeed
      calc lines (unlines (line :: ls) ++ last)
          = linesFrom [] (line ++ ('\n' :: (unlines ls ++ last))) := by
            rw [lines, unlines, List.flatMap_cons, List.append_assoc, List.append_assoc]
            rfl
        _ = dropReturn line :: lines (unlines ls ++ last) := by
            rw [linesFrom_append hline, List.nil_append, linesFrom, if_pos rfl, lines]
        _ = (line :: ls).map dropReturn ++ lines last := by
            rw [ih hfeed, List.map_cons, List.cons_append]

/-- A last line without a line feed counts if it holds anything. -/
theorem lines_of_not_mem (hline : '\n' ∉ line) :
    lines line = if line.isEmpty then [] else [line] := by
  rw [lines, ← List.append_nil line, linesFrom_append hline, List.append_nil, List.nil_append,
    linesFrom]

/-- A text of lines is all complete, or ends with a line that wants its line feed. -/
theorem Lined.lines_eq (hlined : Lined ls text) :
    lines text = ls.map dropReturn ∨ ∃ front last, ls = front ++ [last] ∧
      lines text = front.map dropReturn ++ (if last.isEmpty then [] else [last]) := by
  obtain ⟨hfeed, htext | htext⟩ := hlined
  · left
    rw [htext, ← List.append_nil (unlines ls), lines_unlines_append hfeed]
    exact List.append_nil _
  · right
    obtain rfl | ⟨front, last, rfl⟩ := List.eq_nil_or_concat' ls
    · exact absurd htext (List.append_ne_nil_of_right_ne_nil text (List.cons_ne_nil _ _))
    obtain ⟨hfeed, hlast⟩ := List.forall_mem_append.1 hfeed
    have htext : text = unlines front ++ last := by
      rw [unlines_append, unlines_singleton, ← List.append_assoc] at htext
      exact List.append_cancel_right htext
    refine ⟨front, last, rfl, ?_⟩
    rw [htext, lines_unlines_append hfeed, lines_of_not_mem (hlast last List.mem_cons_self)]

/-! ## Readers of lines -/

section Readers

variable {α : Type} {read? : List Char → Option α}

theorem IgnoresEnding.filterMap_map (hread : IgnoresEnding read?) (ls : List (List Char)) :
    (ls.map dropReturn).filterMap read? = ls.filterMap read? := by
  rw [List.filterMap_map]
  exact congrArg (ls.filterMap ·) (funext hread.ending)

/-- What a reader makes of the lines behind the first few. -/
theorem Lined.filterMap_drop (hlined : Lined ls text) (hread : IgnoresEnding read?) (count : ℕ) :
    ((lines text).drop count).filterMap read? = (ls.drop count).filterMap read? := by
  rcases hlined.lines_eq with hlines | ⟨front, last, rfl, hlines⟩
  · rw [hlines, ← List.map_drop, hread.filterMap_map]
  · -- an empty last line is not read, and would have given nothing
    have hlast (skip : ℕ) : ((if last.isEmpty then [] else [last]).drop skip).filterMap read? =
        ([last].drop skip).filterMap read? := by
      cases last with
      | nil => cases skip <;> simp [hread.nil]
      | cons => rfl
    rw [hlines, List.drop_append, List.drop_append, List.length_map, List.filterMap_append,
      List.filterMap_append, ← List.map_drop, hread.filterMap_map, hlast]

end Readers

/-! ## The return of an ending -/

/-- A line with a carriage return at its end. -/
theorem dropReturn_cases (line : List Char) :
    dropReturn line = line ∨ line = dropReturn line ++ ['\r'] := by
  unfold dropReturn
  split
  case isTrue hlast => exact .inr (List.dropLast_append_getLast? _ hlast).symm
  case isFalse => exact .inl rfl

theorem words_dropReturn (line : List Char) : words (dropReturn line) = words line := by
  rcases dropReturn_cases line with hline | hline
  · rw [hline]
  · conv_rhs => rw [hline, words_append_blank (by decide)]

/-! ## Splitting a line -/

section Splitting

variable {mark c : Char} {before : List Char}

theorem splitAtFirst_append (hbefore : mark ∉ before) (after : List Char) :
    splitAtFirst mark (before ++ mark :: after) = some (before, after) := by
  induction before with
  | nil => rw [List.nil_append, splitAtFirst, if_pos rfl]
  | cons c before ih =>
      obtain ⟨hc, hbefore⟩ := List.ne_and_not_mem_of_not_mem_cons hbefore
      rw [List.cons_append, splitAtFirst, if_neg hc.symm, ih hbefore]
      rfl

theorem splitAtFirst_of_not_mem (hline : mark ∉ line) : splitAtFirst mark line = none := by
  induction line with
  | nil => rfl
  | cons c line ih =>
      obtain ⟨hc, hline⟩ := List.ne_and_not_mem_of_not_mem_cons hline
      rw [splitAtFirst, if_neg hc.symm, ih hline]
      rfl

/-- Another character behind the line goes to the part behind the mark. -/
theorem splitAtFirst_concat (hc : c ≠ mark) (line : List Char) :
    splitAtFirst mark (line ++ [c]) =
      (splitAtFirst mark line).map fun (before, after) => (before, after ++ [c]) := by
  by_cases hline : mark ∈ line
  · obtain ⟨before, after, rfl, hbefore⟩ := List.eq_append_cons_of_mem hline
    rw [splitAtFirst_append hbefore, List.append_assoc, List.cons_append,
      splitAtFirst_append hbefore]
    rfl
  · have hconcat : mark ∉ line ++ [c] := fun hmem =>
      (List.mem_append.1 hmem).elim hline fun hmem => hc (List.mem_singleton.1 hmem).symm
    rw [splitAtFirst_of_not_mem hline, splitAtFirst_of_not_mem hconcat]
    rfl

end Splitting

end LinkMeter.Text
