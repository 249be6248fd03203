import Mathlib.Data.List.Sort
import MeteredScript.Proofs.Splitting

/-!
# Occurrences of a separator

A text is cut at the leftmost occurrences of the separator that do not overlap. There is one way to
choose them: what else occurs overlaps a chosen occurrence that begins before it. The pieces are one
more than the cuts, and no piece contains the separator.
-/

namespace MeteredScript.Text

variable {separator text rest : List Char} {places : List Nat}

/-- The separator stands in the text at this place. -/
def StandsAt (separator text : List Char) (i : Nat) : Prop := separator <+: text.drop i

instance (i : Nat) : Decidable (StandsAt separator text i) :=
  inferInstanceAs (Decidable (separator <+: text.drop i))

/-- The places of the leftmost occurrences that do not overlap, from left to right. -/
structure Leftmost (separator text : List Char) (places : List Nat) : Prop where
  stands : ∀ i ∈ places, StandsAt separator text i
  apart : places.Pairwise fun i j => i + separator.length ≤ j
  /-- Every occurrence is one of them, or overlaps one of them that begins before it. -/
  covers : ∀ j, StandsAt separator text j → ∃ i ∈ places, i ≤ j ∧ j < i + separator.length

theorem StandsAt.lt (hs : separator ≠ []) {i : Nat} (h : StandsAt separator text i) :
    i < text.length := by
  have hlength := h.length_le
  rw [List.length_drop] at hlength
  have := List.length_pos_iff.mpr hs
  omega

theorem infix_iff_standsAt : separator <:+: text ↔ ∃ i, StandsAt separator text i := by
  constructor
  · rintro ⟨before, after, rfl⟩
    refine ⟨before.length, after, ?_⟩
    rw [List.append_assoc, List.drop_left]
  · rintro ⟨i, h⟩
    exact h.isInfix.trans (List.drop_suffix i text).isInfix

/-! ## There is one way to choose them -/

namespace Leftmost

theorem apart_of_lt (h : Leftmost separator text places) {i j : Nat} (hi : i ∈ places)
    (hj : j ∈ places) (hlt : i < j) : i + separator.length ≤ j := by
  obtain ⟨m, hm, rfl⟩ := List.getElem_of_mem hi
  obtain ⟨n, hn, rfl⟩ := List.getElem_of_mem hj
  have hp := List.pairwise_iff_getElem.mp h.apart
  rcases Nat.lt_trichotomy m n with hmn | rfl | hmn
  · exact hp m n hm hn hmn
  · exact absurd hlt (Nat.lt_irrefl _)
  · have := hp n m hn hm hmn
    omega

/-- What is chosen overlaps nothing chosen before it, so whoever chose the same before has to choose
it as well. -/
theorem mem_of_mem (h : Leftmost separator text places) {places' : List Nat}
    (h' : Leftmost separator text places') {j : Nat}
    (before : ∀ i < j, i ∈ places' → i ∈ places) (hj : j ∈ places) : j ∈ places' := by
  obtain ⟨i, hi, hle, hlt⟩ := h'.covers j (h.stands j hj)
  rcases Nat.eq_or_lt_of_le hle with rfl | hij
  · exact hi
  · exact absurd (h.apart_of_lt (before i hij hi) hj hij) (Nat.not_le.mpr hlt)

theorem mem_iff (h : Leftmost separator text places) {places' : List Nat}
    (h' : Leftmost separator text places') (j : Nat) : j ∈ places ↔ j ∈ places' := by
  induction j using Nat.strongRecOn with
  | ind j ih =>
    exact ⟨h.mem_of_mem h' fun i hi => (ih i hi).mpr, h'.mem_of_mem h fun i hi => (ih i hi).mp⟩

theorem sorted (hs : separator ≠ []) (h : Leftmost separator text places) :
    places.Pairwise (· < ·) := by
  have := List.length_pos_iff.mpr hs
  exact h.apart.imp fun hij => by omega

theorem unique (hs : separator ≠ []) (h : Leftmost separator text places) {places' : List Nat}
    (h' : Leftmost separator text places') : places = places' :=
  (h.sorted hs).eq_of_mem_iff (h'.sorted hs) (h.mem_iff h')

/-! ## Choosing them from left to right -/

theorem nil (hs : separator ≠ []) : Leftmost separator [] [] where
  stands := by simp
  apart := .nil
  covers := fun j hj => absurd (hj.lt hs) (Nat.not_lt_zero j)

/-- Where the separator does not stand nothing is chosen. -/
theorem cons {c : Char} (hc : ¬ separator <+: c :: rest) (h : Leftmost separator rest places) :
    Leftmost separator (c :: rest) (places.map (· + 1)) where
  stands := by
    simp only [List.mem_map, forall_exists_index, and_imp]
    rintro _ i hi rfl
    exact h.stands i hi
  apart := List.pairwise_map.mpr (h.apart.imp fun hij => by omega)
  covers := by
    intro j hj
    cases j with
    | zero => exact absurd hj hc
    | succ j =>
      obtain ⟨i, hi, hle, hlt⟩ := h.covers j hj
      exact ⟨i + 1, List.mem_map_of_mem hi, by omega, by omega⟩

theorem standsAt_append (i : Nat) :
    StandsAt separator (separator ++ rest) (i + separator.length) ↔ StandsAt separator rest i := by
  unfold StandsAt
  rw [Nat.add_comm, List.drop_length_add_append]

/-- Where it stands it is chosen, and the choice goes on behind it. -/
theorem append (h : Leftmost separator rest places) :
    Leftmost separator (separator ++ rest) (0 :: places.map (· + separator.length)) where
  stands := by
    simp only [List.mem_cons, List.mem_map, forall_eq_or_imp, forall_exists_index, and_imp]
    refine ⟨List.prefix_append separator rest, ?_⟩
    rintro _ i hi rfl
    exact (standsAt_append i).mpr (h.stands i hi)
  apart := by
    refine List.pairwise_cons.mpr ⟨by simp, ?_⟩
    exact List.pairwise_map.mpr (h.apart.imp fun hij => by omega)
  covers := by
    intro j hj
    by_cases hlt : j < separator.length
    · exact ⟨0, List.mem_cons_self, Nat.zero_le j, by omega⟩
    · obtain ⟨k, rfl⟩ := Nat.exists_eq_add_of_le' (Nat.not_lt.mp hlt)
      obtain ⟨i, hi, hle, hk⟩ := h.covers k ((standsAt_append k).mp hj)
      exact ⟨i + separator.length, List.mem_cons_of_mem _ (List.mem_map_of_mem hi), by omega,
        by omega⟩

end Leftmost

/-! ## The pieces -/

theorem pieces_leftmost (hs : separator ≠ []) (piece text : List Char) :
    ∃ places, Leftmost separator text places ∧
      (pieces separator piece text).length = places.length + 1 := by
  fun_induction pieces separator piece text with
  | case1 piece => exact ⟨[], .nil hs, rfl⟩
  | case2 piece c rest hp ih =>
    obtain ⟨places, hplaces, hlength⟩ := ih
    rw [← append_drop_of_isPrefixOf hs hp]
    refine ⟨_, hplaces.append, ?_⟩
    rw [List.length_cons, List.length_cons, List.length_map, hlength]
  | case3 piece c rest hp ih =>
    obtain ⟨places, hplaces, hlength⟩ := ih
    refine ⟨_, hplaces.cons (mt List.isPrefixOf_iff_prefix.mpr hp), ?_⟩
    rw [List.length_map, hlength]

/-- No occurrence begins in the piece that is being read. It could go on behind the piece. -/
def Clear (separator piece text : List Char) : Prop :=
  ∀ i < piece.length, ¬ StandsAt separator (piece.reverse ++ text) i

theorem Clear.not_infix (hs : separator ≠ []) {piece : List Char}
    (h : Clear separator piece text) : ¬ separator <:+: piece.reverse := by
  intro hinfix
  obtain ⟨i, hi⟩ := infix_iff_standsAt.mp hinfix
  have hlt : i < piece.length := List.length_reverse ▸ hi.lt hs
  refine h i hlt ?_
  unfold StandsAt
  rw [List.drop_append_of_le_length (by rw [List.length_reverse]; omega)]
  exact hi.trans (List.prefix_append _ _)

theorem Clear.cons {piece : List Char} {c : Char} (hc : ¬ separator <+: c :: rest)
    (h : Clear separator piece (c :: rest)) : Clear separator (c :: piece) rest := by
  intro i hi
  rw [List.reverse_cons, List.append_assoc, List.singleton_append]
  rcases Nat.lt_succ_iff_lt_or_eq.mp hi with hlt | rfl
  · exact h i hlt
  · unfold StandsAt
    rwa [← List.length_reverse, List.drop_left]

theorem not_infix_of_mem_pieces (hs : separator ≠ []) {piece : List Char}
    (h : Clear separator piece text) :
    ∀ p ∈ pieces separator piece text, ¬ separator <:+: p := by
  fun_induction pieces separator piece text with
  | case1 piece => simpa using h.not_infix hs
  | case2 piece c rest hp ih =>
    exact List.forall_mem_cons.mpr ⟨h.not_infix hs, ih fun i hi => absurd hi (Nat.not_lt_zero i)⟩
  | case3 piece c rest hp ih => exact ih (h.cons (mt List.isPrefixOf_iff_prefix.mpr hp))

theorem split_of_ne_nil (hs : separator ≠ []) : split separator text = pieces separator [] text :=
  if_neg hs

theorem length_split (hs : separator ≠ []) (text : List Char) :
    ∃ places, Leftmost separator text places ∧ (split separator text).length = places.length + 1 := by
  rw [split_of_ne_nil hs]
  exact pieces_leftmost hs [] text

theorem not_infix_of_mem_split (hs : separator ≠ []) {p : List Char}
    (hp : p ∈ split separator text) : ¬ separator <:+: p := by
  rw [split_of_ne_nil hs] at hp
  have hclear : Clear separator [] text := fun i hi => absurd hi (Nat.not_lt_zero i)
  exact not_infix_of_mem_pieces hs hclear p hp

end MeteredScript.Text
