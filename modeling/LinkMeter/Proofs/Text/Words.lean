import LinkMeter.Text.Blank

/-!
# Words and the blanks between them

`Spaced words text` says that a text consists of words set apart by blanks,
whatever blanks these are and however many.  The words of a text are the only ones
for which it holds (`words_eq_iff`), so a table is read column by column no matter
how its columns are aligned.
-/

namespace LinkMeter.Text

/-- A text of blanks alone. -/
def Blanks (text : List Char) : Prop := ∀ c ∈ text, isBlank c = true

/-- A run of characters without a blank. -/
def Solid (text : List Char) : Prop := ∀ c ∈ text, isBlank c = false

structure IsWord (word : List Char) : Prop where
  ne_nil : word ≠ []
  solid : Solid word

/-- The text does not go on with the word in front of it. -/
def Apart (rest : List Char) : Prop := ∀ c ∈ rest.head?, isBlank c = true

/-- The words stand in the text in this order: at least one blank between two of them, and any
blanks in front of the first and behind the last. -/
inductive Spaced : List (List Char) → List Char → Prop
  | nil {blanks : List Char} (hblanks : Blanks blanks) : Spaced [] blanks
  | cons {blanks word rest : List Char} {words : List (List Char)} (hblanks : Blanks blanks)
      (hword : IsWord word) (hapart : Apart rest) (hrest : Spaced words rest) :
      Spaced (word :: words) (blanks ++ (word ++ rest))

variable {blanks word rest text : List Char} {ws : List (List Char)} {c : Char}

theorem blanks_of_all (hall : text.all isBlank = true) : Blanks text := List.all_eq_true.1 hall

theorem solid_of_all (hall : (text.all fun c => !isBlank c) = true) : Solid text := by
  intro c hc
  simpa using List.all_eq_true.1 hall c hc

/-! ## Reading words -/

theorem wordsFrom_blanks (hblanks : Blanks blanks) (rest : List Char) :
    wordsFrom [] (blanks ++ rest) = wordsFrom [] rest := by
  induction blanks with
  | nil => rfl
  | cons c blanks ih =>
      obtain ⟨hc, hblanks⟩ := List.forall_mem_cons.1 hblanks
      rw [List.cons_append, wordsFrom, if_pos hc]
      exact ih hblanks

theorem wordsFrom_solid (hsolid : Solid word) (start rest : List Char) :
    wordsFrom start (word ++ rest) = wordsFrom (start ++ word) rest := by
  induction word generalizing start with
  | nil => rw [List.nil_append, List.append_nil]
  | cons c word ih =>
      obtain ⟨hc, hsolid⟩ := List.forall_mem_cons.1 hsolid
      rw [List.cons_append, wordsFrom, if_neg (by rw [hc]; exact Bool.false_ne_true), ih hsolid,
        List.append_assoc, List.singleton_append]

/-- A word ends where the text goes on with a blank, or not at all. -/
theorem wordsFrom_apart (hword : word ≠ []) (hapart : Apart rest) :
    wordsFrom word rest = word :: wordsFrom [] rest := by
  have hsome : ¬ word.isEmpty := by simpa using hword
  cases rest with
  | nil => rw [wordsFrom, if_neg hsome]; rfl
  | cons c rest =>
      have hc : isBlank c = true := hapart c rfl
      rw [wordsFrom, if_pos hc, if_neg hsome, wordsFrom, if_pos hc]
      rfl

theorem Spaced.words_eq (hspaced : Spaced ws text) : words text = ws := by
  induction hspaced with
  | @nil blanks hblanks =>
      rw [words, ← List.append_nil blanks, wordsFrom_blanks hblanks]
      rfl
  | cons hblanks hword hapart _ ih =>
      rw [words, wordsFrom_blanks hblanks, wordsFrom_solid hword.solid, List.nil_append,
        wordsFrom_apart hword.ne_nil hapart]
      exact congrArg _ ih

/-! ## The words of any text -/

theorem Spaced.blank_cons (hc : isBlank c = true) (hspaced : Spaced ws text) :
    Spaced ws (c :: text) := by
  cases hspaced with
  | nil hblanks => exact .nil (List.forall_mem_cons.2 ⟨hc, hblanks⟩)
  | cons hblanks hword hapart hrest =>
      exact .cons (List.forall_mem_cons.2 ⟨hc, hblanks⟩) hword hapart hrest

theorem Spaced.append_blank (hc : isBlank c = true) (hspaced : Spaced ws text) :
    Spaced ws (text ++ [c]) := by
  induction hspaced with
  | nil hblanks =>
      exact .nil (List.forall_mem_append.2 ⟨hblanks, List.forall_mem_singleton.2 hc⟩)
  | @cons blanks word rest words hblanks hword hapart _ ih =>
      have hapart : Apart (rest ++ [c]) := by
        cases rest with
        | nil => exact fun _ hhead => Option.some.inj hhead ▸ hc
        | cons next rest => exact hapart
      rw [List.append_assoc, List.append_assoc]
      exact .cons hblanks hword hapart ih

/-- `word` is the part of a word read before the rest of the text. -/
theorem spaced_wordsFrom (text word : List Char) (hsolid : Solid word) :
    Spaced (wordsFrom word text) (word ++ text) := by
  fun_induction wordsFrom word text with
  | case1 word hnone =>
      rw [List.isEmpty_iff.1 hnone]
      exact .nil (List.forall_mem_nil _)
  | case2 word hsome =>
      have hword : IsWord word := ⟨by simpa using hsome, hsolid⟩
      exact .cons (List.forall_mem_nil _) hword (fun _ hhead => by cases hhead)
        (.nil (List.forall_mem_nil _))
  | case3 word c rest hc hnone ih =>
      rw [List.isEmpty_iff.1 hnone]
      exact (ih (List.forall_mem_nil _)).blank_cons hc
  | case4 word c rest hc hsome ih =>
      have hword : IsWord word := ⟨by simpa using hsome, hsolid⟩
      exact .cons (List.forall_mem_nil _) hword (fun _ hhead => Option.some.inj hhead ▸ hc)
        ((ih (List.forall_mem_nil _)).blank_cons hc)
  | case5 word c rest hc ih =>
      rw [List.append_cons word c rest]
      exact ih (List.forall_mem_append.2
        ⟨hsolid, List.forall_mem_singleton.2 (Bool.eq_false_iff.2 hc)⟩)

theorem words_eq_iff : words text = ws ↔ Spaced ws text := by
  constructor
  · rintro rfl
    exact spaced_wordsFrom text [] (List.forall_mem_nil _)
  · exact Spaced.words_eq

theorem words_append_blank (hc : isBlank c = true) (text : List Char) :
    words (text ++ [c]) = words text :=
  ((words_eq_iff.1 rfl).append_blank hc).words_eq

/-! ## Trimming -/

theorem dropWhile_solid (hsolid : Solid word) : word.dropWhile isBlank = word := by
  cases word with
  | nil => rfl
  | cons c word =>
      have hc : isBlank c = false := hsolid c List.mem_cons_self
      rw [List.dropWhile_cons_of_neg (by rw [hc]; exact Bool.false_ne_true)]

/-- Blanks in front of a word are trimmed off, and the word is kept. -/
theorem trim_blanks_append (hblanks : Blanks blanks) (hsolid : Solid word) :
    trim (blanks ++ word) = word := by
  have hreverse : Solid word.reverse := fun c hc => hsolid c (List.mem_reverse.1 hc)
  rw [trim, trimLeft, List.dropWhile_append_of_pos hblanks, dropWhile_solid hsolid, trimRight,
    dropWhile_solid hreverse, List.reverse_reverse]

end LinkMeter.Text
