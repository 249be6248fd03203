import MeteredScript.ClassPath

/-!
# Cutting a text and joining the pieces

The pieces of a text, joined by the separator they were cut at, are the text again.
-/

namespace MeteredScript

namespace Text

theorem pieces_ne_nil (separator piece text : List Char) : pieces separator piece text ≠ [] := by
  fun_induction pieces separator piece text with
  | case1 => exact List.cons_ne_nil _ _
  | case2 => exact List.cons_ne_nil _ _
  | case3 _ _ _ _ ih => exact ih

theorem append_drop_of_isPrefixOf {separator rest : List Char} {c : Char} (hs : separator ≠ [])
    (hp : separator.isPrefixOf (c :: rest) = true) :
    separator ++ rest.drop (separator.length - 1) = c :: rest := by
  obtain ⟨tail, ht⟩ := List.isPrefixOf_iff_prefix.mp hp
  obtain ⟨d, ds, rfl⟩ := List.exists_cons_of_ne_nil hs
  obtain ⟨rfl, rfl⟩ := List.cons.inj ht
  simp

theorem intercalate_pieces {separator : List Char} (hs : separator ≠ []) (piece text : List Char) :
    separator.intercalate (pieces separator piece text) = piece.reverse ++ text := by
  fun_induction pieces separator piece text with
  | case1 => simp
  | case2 piece c rest hp ih =>
    rw [List.intercalate_cons_of_ne_nil (pieces_ne_nil _ _ _), ih,
      ← append_drop_of_isPrefixOf hs hp]
    simp
  | case3 piece c rest hp ih => rw [ih]; simp

theorem nil_intercalate (pieces : List (List Char)) : [].intercalate pieces = pieces.flatten := by
  induction pieces with
  | nil => rfl
  | cons l rest ih =>
    cases rest with
    | nil => simp
    | cons => rw [List.intercalate_cons_cons, ih]; simp

theorem intercalate_split (separator text : List Char) :
    separator.intercalate (split separator text) = text := by
  unfold split
  split
  · next hs =>
    subst hs
    rw [nil_intercalate]
    simp [← List.flatMap_def, List.flatMap_singleton']
  · next hs => rw [intercalate_pieces hs]; rfl

/-- The pieces that a text is split into, as texts. -/
def piecesOf (separator text : String) : List String :=
  (split separator.toList text.toList).map String.ofList

theorem map_toList_piecesOf (separator text : String) :
    (piecesOf separator text).map String.toList = split separator.toList text.toList := by
  have : String.toList ∘ String.ofList = id := by funext l; exact String.toList_ofList
  rw [piecesOf, List.map_map, this, List.map_id]

theorem intercalate_piecesOf (separator text : String) :
    separator.intercalate (piecesOf separator text) = text := by
  apply String.toList_inj.mp
  rw [String.toList_intercalate, map_toList_piecesOf, intercalate_split]

end Text

namespace ClassPath

theorem words_ne_nil (name : String) : words name ≠ [] := by
  unfold words Text.split
  simp [Text.pieces_ne_nil]

/-- The segments of a dotted name spell it again. -/
theorem intercalate_words (name : String) : ".".intercalate (words name) = name :=
  Text.intercalate_piecesOf "." name

end ClassPath

end MeteredScript
