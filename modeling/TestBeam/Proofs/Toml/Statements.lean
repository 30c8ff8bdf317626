import TestBeam.Configuration.Document
import TestBeam.Proofs.Toml.Values

/-!
# Statements read back

Each line of a written configuration is read as one statement, and blank lines as none. A text spells
its statements if this holds whatever follows, so texts can be put together piece by piece.
-/

namespace TestBeam.Toml

/-- The reader takes these statements from the front of the text, each within one unit of fuel. -/
structure Spells (text : List Char) (statements : List Statement) : Prop where
  length_le : statements.length ≤ text.length
  read : ∀ fuel rest, readStatements (fuel + statements.length) (text ++ rest) =
    (readStatements fuel rest).map (statements ++ ·)

theorem spells_nil : Spells [] [] :=
  ⟨Nat.le_refl 0, fun fuel rest => by simp⟩

theorem Spells.append {a b : List Char} {s t : List Statement} (ha : Spells a s) (hb : Spells b t) :
    Spells (a ++ b) (s ++ t) where
  length_le := by
    have := ha.length_le
    have := hb.length_le
    simp
    omega
  read fuel rest := by
    have hfuel : fuel + (s ++ t).length = fuel + t.length + s.length := by
      simp
      omega
    rw [hfuel, List.append_assoc, ha.read, hb.read, Option.map_map]
    congr 1
    funext u
    simp

theorem Spells.flatMap {α : Type} {text : α → List Char} {statements : α → List Statement}
    {items : List α} (h : ∀ item ∈ items, Spells (text item) (statements item)) :
    Spells (items.flatMap text) (items.flatMap statements) := by
  induction items with
  | nil => exact spells_nil
  | cons item items ih =>
    rw [List.flatMap_cons, List.flatMap_cons]
    exact (h item (by simp)).append (ih fun x hx => h x (by simp [hx]))

theorem Spells.document {text : List Char} {statements : List Statement}
    (h : Spells text statements) : readStatements (text.length + 1) text = some statements := by
  have hlen := h.length_le
  obtain ⟨fuel, hfuel⟩ : ∃ fuel, text.length + 1 = fuel + 1 + statements.length :=
    ⟨text.length - statements.length, by omega⟩
  have hread := h.read (fuel + 1) []
  rw [List.append_nil] at hread
  rw [hfuel, hread]
  simp [readStatements, skipLines]

/-! ## Lines -/

theorem Spells.blank {text : List Char} {statement : Statement} {statements : List Statement}
    (h : Spells text (statement :: statements)) :
    Spells ('\n' :: text) (statement :: statements) where
  length_le := by
    have := h.length_le
    simp at this ⊢
    omega
  read fuel rest := by
    rw [← h.read fuel rest]
    simp only [List.cons_append, List.length_cons, ← Nat.add_assoc, readStatements, skipLines,
      skipSpace]
    simp [isSpace, skipComment, readLineBreak]

theorem spells_line {c : Char} (hc : c ∉ skipped) {cs : List Char} {statement : Statement}
    (hread : ∀ rest, readStatement (c :: cs ++ '\n' :: rest) = some (statement, '\n' :: rest)) :
    Spells (c :: cs ++ ['\n']) [statement] where
  length_le := by simp
  read fuel rest := by
    have hread := hread rest
    have hskip := skipLines_of_head hc (cs ++ '\n' :: rest) (cs ++ '\n' :: rest).length.succ
    simp only [List.cons_append, List.append_assoc, List.nil_append, List.length_singleton] at hread ⊢
    rw [readStatements, List.length_cons, ← Nat.succ_eq_add_one, hskip]
    simp only [hread, Option.bind_eq_bind, Option.bind_some]
    simp [readLineEnd, skipSpace, isSpace, skipComment, readLineBreak]
    cases readStatements fuel rest <;> rfl

/-! ## Fields -/

theorem printKey_head (s : String) :
    ∃ c cs, printKey s = c :: cs ∧ (isBareKeyChar c = true ∨ c ∈ ['"', '\x27']) := by
  simp only [printKey]
  split
  · rename_i h
    simp only [Bool.and_eq_true, Bool.not_eq_true', List.isEmpty_eq_false_iff] at h
    obtain ⟨c, cs, hcons⟩ := List.exists_cons_of_ne_nil h.1
    refine ⟨c, cs, hcons, .inl ?_⟩
    exact List.all_eq_true.mp h.2 c (by simp [hcons])
  split
  · exact ⟨'"', _, rfl, by simp⟩
  split
  · exact ⟨'\x27', _, rfl, by simp⟩
  · exact ⟨'"', _, rfl, by simp⟩

theorem ne_of_startsKey {c d : Char} (hc : isBareKeyChar c = true ∨ c ∈ ['"', '\x27'])
    (hd : isBareKeyChar d = false) (hquote : d ∉ ['"', '\x27']) : c ≠ d := by
  rintro rfl
  rcases hc with hc | hc
  · simp [hd] at hc
  · exact hquote hc

theorem readKey_printKey (s : String) (cs : List Char) :
    readKey (printKey s ++ ' ' :: '=' :: cs) = some ([s], '=' :: cs) := by
  have hpart := readKeyPart_printKey s (' ' :: '=' :: cs) (by
    rintro c hc
    obtain rfl : ' ' = c := by simpa using hc
    decide)
  obtain ⟨c, key, hcons, hc⟩ := printKey_head s
  have hspace : isSpace c = false := by
    have hs := ne_of_startsKey hc (by decide : isBareKeyChar ' ' = false) (by decide)
    have ht := ne_of_startsKey hc (by decide : isBareKeyChar '\t' = false) (by decide)
    simp [isSpace, hs, ht]
  rw [hcons, List.cons_append] at hpart ⊢
  have hskip : skipSpace (' ' :: '=' :: cs) = '=' :: cs := by simp [skipSpace, isSpace]
  simp [readKey, readParts, skipSpace_of_head hspace, hpart, hskip, maxDepth]

theorem skipSpace_print {v : Toml} (hv : v.IsPlain) (rest : List Char) :
    skipSpace (' ' :: (v.print ++ rest)) = v.print ++ rest := by
  have hhead : ∃ c cs, v.print = c :: cs ∧ isSpace c = false := by
    have hscalar (hv : v.IsScalar) : ∃ c cs, v.print = c :: cs ∧ isSpace c = false := by
      obtain ⟨c, cs, hcons, hc⟩ := print_head hv
      have hs : c ≠ ' ' := hc.ne (by decide) rfl
      have ht : c ≠ '\t' := hc.ne (by decide) rfl
      exact ⟨c, cs, hcons, by simp [isSpace, hs, ht]⟩
    cases v with
    | array items => cases items <;> exact ⟨'[', _, rfl, rfl⟩
    | string s => exact hscalar hv
    | integer i => exact hscalar hv
    | float x => exact hscalar hv
    | boolean b => exact hscalar hv
    | datetime d => exact absurd hv id
    | table fields => exact absurd hv id
  obtain ⟨c, cs, hcons, hc⟩ := hhead
  have hlead : isSpace ' ' = true := rfl
  rw [hcons]
  simp [skipSpace, hc, hlead]

theorem spells_printField (key : String) {v : Toml} (hv : v.IsPlain) :
    Spells (printField key v) [.assign ⟨[key], v⟩] := by
  obtain ⟨c, cs, hcons, hc⟩ := printKey_head key
  have hread (rest : List Char) :
      readStatement (printKey key ++ ' ' :: '=' :: ' ' :: (v.print ++ '\n' :: rest)) =
        some (.assign ⟨[key], v⟩, '\n' :: rest) := by
    have hkey := readKey_printKey key (' ' :: (v.print ++ '\n' :: rest))
    have hvalue := readValue_print hv 78 (⟨'\n', rest, rfl, by simp⟩ : endsValue ('\n' :: rest))
    have hbracket := ne_of_startsKey hc (by decide : isBareKeyChar '[' = false) (by decide)
    rw [hcons, List.cons_append] at hkey ⊢
    simp [readStatement, hbracket, readAssignment, hkey, skipSpace_print hv, maxDepth, hvalue]
  have hskipped : c ∉ skipped := by
    unfold skipped
    simp only [List.mem_cons, List.not_mem_nil, or_false, not_or]
    exact ⟨ne_of_startsKey hc (by decide) (by decide), ne_of_startsKey hc (by decide) (by decide),
      ne_of_startsKey hc (by decide) (by decide), ne_of_startsKey hc (by decide) (by decide),
      ne_of_startsKey hc (by decide) (by decide)⟩
  have hline : printField key v = c :: (cs ++ ' ' :: '=' :: ' ' :: v.print) ++ ['\n'] := by
    simp [printField, hcons]
  rw [hline]
  apply spells_line hskipped
  intro rest
  rw [← hread rest, hcons]
  simp

/-! ## Headers -/

def IsBare (name : String) : Prop :=
  name.toList ≠ [] ∧ name.toList.all isBareKeyChar = true

theorem readKeyPart_skipSpace {name : String} (h : IsBare name) {d : Char}
    (hd : isBareKeyChar d = false) (cs : List Char) :
    readKeyPart (skipSpace (name.toList ++ d :: cs)) = some (name, d :: cs) := by
  have hpart := readKeyPart_bare name.toList (d :: cs) h.1 h.2 (by
    rintro c hc
    obtain rfl : d = c := by simpa using hc
    exact hd)
  obtain ⟨c, key, hcons⟩ := List.exists_cons_of_ne_nil h.1
  have hc : isBareKeyChar c = true := List.all_eq_true.mp h.2 c (by simp [hcons])
  have hspace : isSpace c = false := by
    have hs := ne_of_startsKey (.inl hc) (by decide : isBareKeyChar ' ' = false) (by decide)
    have ht := ne_of_startsKey (.inl hc) (by decide : isBareKeyChar '\t' = false) (by decide)
    simp [isSpace, hs, ht]
  rw [String.ofList_toList, hcons, List.cons_append] at hpart
  rw [hcons, List.cons_append, skipSpace_of_head hspace, hpart]

theorem readKey_bare {name : String} (h : IsBare name) (cs : List Char) :
    readKey (name.toList ++ ']' :: cs) = some ([name], ']' :: cs) := by
  have hpart := readKeyPart_skipSpace h (by decide : isBareKeyChar ']' = false) cs
  have hskip := skipSpace_of_head (by decide : isSpace ']' = false) cs
  simp [readKey, readParts, hpart, hskip, maxDepth]

theorem readKey_bare_bare {outer inner : String} (houter : IsBare outer) (hinner : IsBare inner)
    (cs : List Char) :
    readKey (outer.toList ++ '.' :: (inner.toList ++ ']' :: cs)) =
      some ([outer, inner], ']' :: cs) := by
  have hfirst := readKeyPart_skipSpace houter (by decide : isBareKeyChar '.' = false)
    (inner.toList ++ ']' :: cs)
  have hsecond := readKeyPart_skipSpace hinner (by decide : isBareKeyChar ']' = false) cs
  have hdot := skipSpace_of_head (by decide : isSpace '.' = false) (inner.toList ++ ']' :: cs)
  have hskip := skipSpace_of_head (by decide : isSpace ']' = false) cs
  obtain ⟨fuel, hfuel⟩ : ∃ fuel,
      (outer.toList ++ '.' :: (inner.toList ++ ']' :: cs)).length + 1 = fuel + 1 + 1 :=
    ⟨_, by rw [List.length_append, List.length_cons, ← Nat.add_assoc]⟩
  unfold readKey
  rw [hfuel]
  simp [readParts, hfirst, hdot, hsecond, hskip, maxDepth]

theorem readHeader_table {text : List Char} {path : List String} {cs : List Char}
    (hhead : text.head? ≠ some '[') (hkey : readKey text = some (path, ']' :: cs)) :
    readHeader text = some (⟨.table, path⟩, cs) := by
  rw [readHeader]
  · simp [hkey]
  · rintro tail rfl
    simp at hhead

theorem IsBare.head_ne {name : String} (h : IsBare name) (cs : List Char) :
    (name.toList ++ cs).head? ≠ some '[' := by
  obtain ⟨c, key, hcons⟩ := List.exists_cons_of_ne_nil h.1
  have hc : isBareKeyChar c = true := List.all_eq_true.mp h.2 c (by simp [hcons])
  simpa [hcons] using ne_of_startsKey (.inl hc) (by decide : isBareKeyChar '[' = false) (by decide)

theorem spells_table {name : String} (h : IsBare name) :
    Spells ('[' :: (name.toList ++ [']']) ++ ['\n']) [.header ⟨.table, [name]⟩] := by
  apply spells_line (by decide)
  intro rest
  have hheader := readHeader_table (h.head_ne _) (readKey_bare h ('\n' :: rest))
  simp [readStatement, hheader]

theorem spells_inner_table {outer inner : String} (houter : IsBare outer) (hinner : IsBare inner) :
    Spells ('[' :: (outer.toList ++ '.' :: (inner.toList ++ [']'])) ++ ['\n'])
      [.header ⟨.table, [outer, inner]⟩] := by
  apply spells_line (by decide)
  intro rest
  have hheader := readHeader_table (houter.head_ne _) (readKey_bare_bare houter hinner ('\n' :: rest))
  simp [readStatement, hheader]

theorem spells_element {name : String} (h : IsBare name) :
    Spells ('[' :: '[' :: (name.toList ++ [']', ']']) ++ ['\n']) [.header ⟨.element, [name]⟩] := by
  apply spells_line (by decide)
  intro rest
  have hkey := readKey_bare h (']' :: '\n' :: rest)
  simp [readStatement, readHeader, hkey]

end TestBeam.Toml
