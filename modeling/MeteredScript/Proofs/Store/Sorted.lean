import MeteredScript.Store.Sorting

/-!
# Sorting moves items only

As many ranks are compared as there are items, so no item is lost or made.
-/

namespace MeteredScript.Sorting

theorem length_numbers {values : List Value} {numbers : List Binary64}
    (h : values.mapM Value.numericText? = some numbers) : numbers.length = values.length := by
  induction values generalizing numbers with
  | nil =>
    obtain rfl : [] = numbers := by simpa using h
    rfl
  | cons v rest ih =>
    simp only [List.mapM_cons, Option.bind_eq_bind, Option.bind_eq_some_iff, Option.pure_def,
      Option.some.injEq] at h
    obtain ⟨x, _, xs, hxs, rfl⟩ := h
    simp [ih hxs]

theorem length_texts {values : List Value} {texts : List Rank}
    (h : values.mapM textRank = .ok texts) : texts.length = values.length := by
  induction values generalizing texts with
  | nil =>
    obtain rfl := Except.ok.inj h
    rfl
  | cons v rest ih =>
    rw [List.mapM_cons] at h
    cases hv : textRank v with
    | error f => simp [hv, bind, Except.bind] at h
    | ok r =>
      cases hr : rest.mapM textRank with
      | error f => simp [hv, hr, bind, Except.bind] at h
      | ok rs =>
        obtain rfl : r :: rs = texts := by
          simpa [hv, hr, bind, Except.bind, pure, Except.pure] using h
        simp [ih hr]

theorem length_ranks {values : List Value} {keys : List Rank} (h : ranks values = .ok keys) :
    keys.length = values.length := by
  unfold ranks at h
  split at h
  · next numbers hn =>
    obtain rfl := Except.ok.inj h
    simp [length_numbers hn]
  · exact length_texts h

/-- The sorted items are the same items. -/
theorem sortBy_perm {α : Type} {valueOf : α → Value} {ascending : Bool} {items sorted : List α}
    (h : sortBy valueOf ascending items = .ok sorted) : items.Perm sorted := by
  unfold sortBy at h
  cases hr : ranks (items.map valueOf) with
  | error f => simp [hr, bind, Except.bind] at h
  | ok keys =>
    have hlen : items.length ≤ keys.length := by simp [length_ranks hr]
    rw [hr] at h
    obtain rfl := Except.ok.inj h
    have hzip : ((keys.zip items).map (·.2)).Perm items := by rw [List.map_snd_zip hlen]
    exact hzip.symm.trans ((List.mergeSort_perm _ _).symm.map _)

end MeteredScript.Sorting
