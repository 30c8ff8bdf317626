import TestBeam.Text.Blank

/-!
# Words of a list

A list of names is written with blanks and commas between its words. Joining and trimming texts does not
change which words they have.
-/

namespace TestBeam.Text

/-- Not empty, and without blanks and commas. -/
structure IsWord (text : String) : Prop where
  ne_empty : text ≠ ""
  joined : ∀ c ∈ text.toList, isSeparator c = false

/-! ## Pieces -/

theorem pieces_append {separates : Char → Bool} {c : Char} (h : separates c = true)
    (before after : List Char) :
    pieces separates (before ++ c :: after) = pieces separates before ++ pieces separates after := by
  induction before with
  | nil => simp [pieces, h]
  | cons d before ih =>
    rw [List.cons_append, pieces, pieces, ih]
    split
    · rfl
    · obtain ⟨piece, rest, hpieces⟩ := List.exists_cons_of_ne_nil (pieces_ne_nil separates before)
      rw [hpieces]
      rfl

theorem pieces_joined {separates : Char → Bool} {cs : List Char}
    (h : ∀ c ∈ cs, separates c = false) : pieces separates cs = [cs] := by
  induction cs with
  | nil => rfl
  | cons c cs ih =>
    rw [pieces, h c (by simp), ih fun d hd => h d (by simp [hd])]
    rfl

/-! ## Words -/

def wordChars (cs : List Char) : List (List Char) :=
  (pieces isSeparator cs).filter fun piece => !piece.isEmpty

theorem words_ofList (cs : List Char) :
    words (String.ofList cs) = (wordChars cs).map String.ofList := by
  rw [words, String.toList_ofList]
  rfl

theorem words_eq (text : String) : words text = (wordChars text.toList).map String.ofList :=
  rfl

theorem wordChars_append {c : Char} (h : isSeparator c = true) (before after : List Char) :
    wordChars (before ++ c :: after) = wordChars before ++ wordChars after := by
  unfold wordChars
  rw [pieces_append h, List.filter_append]

theorem wordChars_cons {c : Char} (h : isSeparator c = true) (cs : List Char) :
    wordChars (c :: cs) = wordChars cs :=
  wordChars_append h [] cs

theorem wordChars_append_separators {separators : List Char}
    (h : ∀ c ∈ separators, isSeparator c = true) (cs : List Char) :
    wordChars (separators ++ cs) = wordChars cs := by
  induction separators with
  | nil => rfl
  | cons c separators ih =>
    rw [List.cons_append, wordChars_cons (h c (by simp)), ih fun d hd => h d (by simp [hd])]

theorem IsWord.words {text : String} (h : IsWord text) : words text = [text] := by
  have hne : text.toList ≠ [] := by simpa using h.ne_empty
  rw [words_eq, wordChars, pieces_joined h.joined]
  simp [hne]

theorem words_intercalate {separator : String} (hne : separator ≠ "")
    (h : separator.toList.all isSeparator) (texts : List String) :
    words (separator.intercalate texts) = texts.flatMap words := by
  obtain ⟨c, more, hseparator⟩ :=
    List.exists_cons_of_ne_nil (show separator.toList ≠ [] by simpa using hne)
  rw [List.all_eq_true, hseparator, List.forall_mem_cons] at h
  induction texts with
  | nil => rfl
  | cons text texts ih =>
    cases texts with
    | nil => simp
    | cons next texts =>
      rw [String.intercalate_cons_cons, List.flatMap_cons, ← ih, words_eq, words_eq text,
        words_eq (separator.intercalate _), String.toList_append, String.toList_append, hseparator,
        List.append_assoc, List.cons_append, wordChars_append h.1,
        wordChars_append_separators h.2, List.map_append]

theorem flatMap_words {texts : List String} (h : ∀ text ∈ texts, IsWord text) :
    texts.flatMap words = texts := by
  induction texts with
  | nil => rfl
  | cons text texts ih =>
    rw [List.flatMap_cons, (h text (by simp)).words, ih fun t ht => h t (by simp [ht])]
    rfl

/-! ## Trimming -/

theorem isSeparator_of_isBlank {c : Char} (h : isBlank c = true) : isSeparator c = true := by
  simp [isSeparator, h]

theorem wordChars_dropWhile (cs : List Char) : wordChars (cs.dropWhile isBlank) = wordChars cs := by
  induction cs with
  | nil => rfl
  | cons c cs ih =>
    rw [List.dropWhile_cons]
    split
    · rename_i hblank
      rw [ih, wordChars_cons (isSeparator_of_isBlank hblank)]
    · rfl

theorem wordChars_dropWhile_end (cs : List Char) :
    wordChars (cs.dropWhile isBlank).reverse = wordChars cs.reverse := by
  induction cs with
  | nil => rfl
  | cons c cs ih =>
    rw [List.dropWhile_cons]
    split
    · rename_i hblank
      rw [ih, List.reverse_cons, wordChars_append (isSeparator_of_isBlank hblank)]
      simp [wordChars, pieces]
    · rfl

theorem words_trim (text : String) : words (trim text) = words text := by
  unfold trim trimChars
  rw [words_ofList, wordChars_dropWhile_end, List.reverse_reverse, wordChars_dropWhile, words_eq]

theorem dropWhile_of_prefix {kept cs : List Char} (h : kept <+: cs.dropWhile isBlank) :
    kept.dropWhile isBlank = kept := by
  cases kept with
  | nil => rfl
  | cons c rest =>
    obtain ⟨more, hmore⟩ := h
    have hhead := List.head?_dropWhile_not isBlank cs
    rw [← hmore] at hhead
    have hblank : isBlank c = false := by simpa using hhead
    simp [hblank]

theorem trim_trim (text : String) : trim (trim text) = trim text := by
  have hsuffix := List.dropWhile_suffix (l := (text.toList.dropWhile isBlank).reverse) isBlank
  rw [← List.reverse_prefix, List.reverse_reverse] at hsuffix
  have hfront : (trimChars text.toList).dropWhile isBlank = trimChars text.toList :=
    dropWhile_of_prefix hsuffix
  have hback := dropWhile_of_prefix (List.prefix_refl
    ((text.toList.dropWhile isBlank).reverse.dropWhile isBlank))
  have htrim : trimChars (trimChars text.toList) = trimChars text.toList := by
    calc trimChars (trimChars text.toList)
        = (((trimChars text.toList).dropWhile isBlank).reverse.dropWhile isBlank).reverse := rfl
      _ = ((trimChars text.toList).reverse.dropWhile isBlank).reverse := by rw [hfront]
      _ = trimChars text.toList := by rw [trimChars, List.reverse_reverse, hback]
  unfold trim
  rw [String.toList_ofList, htrim]

end TestBeam.Text
