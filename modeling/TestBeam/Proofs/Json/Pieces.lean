import TestBeam.Json.Printer

/-!
# Pieces of a printed value

A value is passed to a file in pieces. Put together again they are its text with one item on each line.
-/

namespace TestBeam.Json

@[simp]
theorem flatten_runPiece (run : List Char) : (runPiece run).flatten = run := by
  unfold runPiece
  split
  · rename_i hempty
    rw [List.isEmpty_iff.mp hempty]
    rfl
  · exact List.append_nil run

theorem flatten_textPieces (run cs : List Char) :
    (textPieces run cs).flatten = run ++ cs.flatMap escape := by
  induction cs generalizing run with
  | nil => simp [textPieces]
  | cons c cs ih =>
    unfold textPieces
    split
    · rename_i hplain
      rw [ih, List.flatMap_cons, hplain, List.append_assoc]
    · simp [ih]

@[simp]
theorem flatten_quotePieces (s : String) : (quotePieces s).flatten = quote s := by
  simp [quotePieces, quote, flatten_textPieces]

@[simp]
theorem flatten_indentPieces (depth : Nat) :
    (indentPieces depth).flatten = List.replicate (2 * depth) ' ' := by
  unfold indentPieces
  induction depth with
  | zero => rfl
  | succ depth ih =>
    rw [List.replicate_succ, List.flatten_cons, ih]
    rfl

mutual

theorem flatten_prettyPieces (depth : Nat) (json : Json) :
    (prettyPieces depth json).flatten = render .pretty depth json := by
  cases json with
  | null => simp [prettyPieces, render]
  | boolean b => simp [prettyPieces, render]
  | number literal => simp [prettyPieces, render]
  | string s => simp [prettyPieces, render]
  | unusable => simp [prettyPieces, render]
  | array items =>
    cases items with
    | nil => simp [prettyPieces, render]
    | cons item rest =>
      have hitem := flatten_prettyPieces (depth + 1) item
      have hrest := flatten_itemPieces depth rest
      simp [prettyPieces, render, Style.lineBreak, hitem, hrest]
  | object fields =>
    cases fields with
    | nil => simp [prettyPieces, render]
    | cons field rest =>
      obtain ⟨key, value⟩ := field
      have hvalue := flatten_prettyPieces (depth + 1) value
      have hrest := flatten_fieldPieces depth rest
      simp [prettyPieces, render, Style.lineBreak, Style.colon, hvalue, hrest]

theorem flatten_itemPieces (depth : Nat) (items : List Json) :
    (itemPieces depth items).flatten = renderItems .pretty depth items := by
  cases items with
  | nil => simp [itemPieces, renderItems]
  | cons item rest =>
    have hitem := flatten_prettyPieces (depth + 1) item
    have hrest := flatten_itemPieces depth rest
    simp [itemPieces, renderItems, Style.lineBreak, hitem, hrest]

theorem flatten_fieldPieces (depth : Nat) (fields : List (String × Json)) :
    (fieldPieces depth fields).flatten = renderFields .pretty depth fields := by
  cases fields with
  | nil => simp [fieldPieces, renderFields]
  | cons field rest =>
    obtain ⟨key, value⟩ := field
    have hvalue := flatten_prettyPieces (depth + 1) value
    have hrest := flatten_fieldPieces depth rest
    simp [fieldPieces, renderFields, Style.lineBreak, Style.colon, hvalue, hrest]

end

/-- The pieces of a value are its text. -/
theorem join_pieces (json : Json) : String.join json.pieces = json.print .pretty := by
  apply String.toList_injective
  rw [String.toList_join, pieces, List.flatMap_map, print, String.toList_ofList,
    ← flatten_prettyPieces]
  simp only [String.toList_ofList, List.flatMap_id']

end TestBeam.Json
