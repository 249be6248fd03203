import Mathlib.Data.List.Lex
import Mathlib.Order.Lattice
import MeteredScript.Proofs.Store.Sorted
import MeteredScript.Proofs.Text.Bytes

/-!
# Sorting is stable

What is sorted by a value of each item has the same items, in the order of these values, and items
whose values are at one place follow each other as they did before. Values that are numbers, or all
read as such, are placed by their number, and others by their bytes, if all are texts.
-/

namespace MeteredScript.Sorting

/-! ## Stable sorting -/

section Stable

variable {α β : Type} [LinearOrder β] {place : α → β} {ascending : Bool} {items sorted : List α}

/-- One place is not behind another in the direction of a sort. -/
def Along (ascending : Bool) (p q : β) : Prop := if ascending then p ≤ q else q ≤ p

instance (ascending : Bool) (p q : β) : Decidable (Along ascending p q) :=
  inferInstanceAs (Decidable (if ascending then _ else _))

/-- The same items in the order of their places. Those at one place are in the order they had. -/
structure Stable (place : α → β) (ascending : Bool) (items sorted : List α) : Prop where
  perm : items.Perm sorted
  ordered : sorted.Pairwise fun a b => Along ascending (place a) (place b)
  stable : ∀ p, sorted.filter (place · = p) = items.filter (place · = p)

theorem Along.refl (ascending : Bool) (p : β) : Along ascending p p := by
  cases ascending <;> exact le_rfl

theorem Along.trans {p q r : β} (h : Along ascending p q) (k : Along ascending q r) :
    Along ascending p r := by
  cases ascending with
  | true => exact le_trans h k
  | false => exact le_trans k h

theorem Along.total (ascending : Bool) (p q : β) : Along ascending p q ∨ Along ascending q p := by
  cases ascending with
  | true => exact le_total p q
  | false => exact le_total q p

theorem stable_mergeSort {le : α → α → Bool}
    (h : ∀ a b, le a b = true ↔ Along ascending (place a) (place b)) (items : List α) :
    Stable place ascending items (items.mergeSort le) := by
  have htrans : ∀ a b c, le a b = true → le b c = true → le a c = true := by
    intro a b c hab hbc
    exact (h a c).mpr (((h a b).mp hab).trans ((h b c).mp hbc))
  have htotal : ∀ a b, (le a b || le b a) = true := by
    intro a b
    rw [Bool.or_eq_true, h, h]
    exact Along.total ascending _ _
  have hperm := List.mergeSort_perm items le
  refine ⟨hperm.symm, ?_, fun p => ?_⟩
  · exact (List.pairwise_mergeSort htrans htotal items).imp fun {a b} => (h a b).mp
  · -- Items at one place are in order as they stand, so they stay a sublist.
    have hfilter : (items.filter (place · = p)).Pairwise (le · · = true) := by
      refine List.pairwise_filter.mpr (List.pairwise_of_forall fun a b ha hb => ?_)
      rw [h, of_decide_eq_true ha, of_decide_eq_true hb]
      exact Along.refl ascending p
    have hsub := (List.sublist_mergeSort htrans htotal hfilter List.filter_sublist).filter
      (place · = p)
    simp only [List.filter_filter, Bool.and_self] at hsub
    exact (hsub.eq_of_length (hperm.filter _).length_eq.symm).symm

/-- A relation between items at one place is one between any two of those at each place. -/
theorem pairwise_at_places {R : α → α → Prop} (l : List α) :
    (l.Pairwise fun a b => place a = place b → R a b) ↔
      ∀ p, (l.filter (place · = p)).Pairwise R := by
  constructor
  · intro hl p
    refine List.pairwise_filter.mpr (hl.imp fun {a b} hR ha hb => hR ?_)
    rw [of_decide_eq_true ha, of_decide_eq_true hb]
  · intro hl
    refine List.pairwise_iff_forall_sublist.mpr fun {a b} hab hplace => ?_
    have hat := List.pairwise_filter.mp (hl (place a))
    exact List.pairwise_iff_forall_sublist.mp hat hab (decide_eq_true rfl)
      (decide_eq_true hplace.symm)

/-- How items at one place are to each other is the same before and after. -/
theorem Stable.pairwise_iff (h : Stable place ascending items sorted) {R : α → α → Prop} :
    (sorted.Pairwise fun a b => place a = place b → R a b) ↔
      items.Pairwise fun a b => place a = place b → R a b := by
  rw [pairwise_at_places, pairwise_at_places]
  exact forall_congr' fun p => by rw [h.stable p]

end Stable

/-! ## What values are placed by -/

/-- The number that a value is, or that it reads as. -/
def numberOf (v : Value) : Binary64 := v.numericText?.getD default

def textOf (v : Value) : String := v.asText?.getD ""

/-- Every value is a number or reads as one. -/
def Numeric (values : List Value) : Prop := ∀ v ∈ values, v.numericText?.isSome = true

def Textual (values : List Value) : Prop := ∀ v ∈ values, v.asText?.isSome = true

instance (values : List Value) : Decidable (Numeric values) :=
  inferInstanceAs (Decidable (∀ _ ∈ _, _))

instance (values : List Value) : Decidable (Textual values) :=
  inferInstanceAs (Decidable (∀ _ ∈ _, _))

section Ranks

variable {values : List Value}

theorem ranks_numeric (h : Numeric values) :
    ranks values = .ok (values.map fun v => .number (numberOf v)) := by
  have hnumbers : values.mapM Value.numericText? = some (values.map numberOf) := by
    induction values with
    | nil => rfl
    | cons v rest ih =>
      obtain ⟨hv, hrest⟩ := List.forall_mem_cons.mp h
      obtain ⟨x, hx⟩ := Option.isSome_iff_exists.mp hv
      simp [List.mapM_cons, ih hrest, hx, numberOf]
  rw [ranks, hnumbers]
  simp

theorem mapM_numericText?_of_not_numeric (h : ¬ Numeric values) :
    values.mapM Value.numericText? = none := by
  induction values with
  | nil => exact absurd (fun _ hv => absurd hv List.not_mem_nil) h
  | cons v rest ih =>
    rw [List.mapM_cons]
    cases hv : v.numericText? with
    | none => rfl
    | some x =>
      have hrest : ¬ Numeric rest := fun hr => h (List.forall_mem_cons.mpr ⟨by rw [hv]; rfl, hr⟩)
      rw [ih hrest]
      rfl

/-- Where some value is no number, all have to be texts; the first that is none is named. -/
theorem ranks_textual (hn : ¬ Numeric values) (h : Textual values) :
    ranks values = .ok (values.map fun v => .text (textOf v)) := by
  rw [ranks, mapM_numericText?_of_not_numeric hn]
  dsimp only
  clear hn
  induction values with
  | nil => rfl
  | cons v rest ih =>
    obtain ⟨hv, hrest⟩ := List.forall_mem_cons.mp h
    rw [List.mapM_cons, ih hrest]
    cases v with
    | str s => rfl
    | _ => cases hv

theorem ranks_mixed (hn : ¬ Numeric values) (h : ¬ Textual values) :
    ∃ v ∈ values, v.asText? = none ∧
      ranks values = .error (.typeMismatch "number or string" v.typeName) := by
  rw [ranks, mapM_numericText?_of_not_numeric hn]
  dsimp only
  clear hn
  induction values with
  | nil => exact absurd (fun _ hv => absurd hv List.not_mem_nil) h
  | cons v rest ih =>
    rw [List.mapM_cons]
    cases v with
    | str s =>
      have hrest : ¬ Textual rest := fun hr => h (List.forall_mem_cons.mpr ⟨rfl, hr⟩)
      obtain ⟨w, hw, hnone, herror⟩ := ih hrest
      refine ⟨w, List.mem_cons_of_mem _ hw, hnone, ?_⟩
      rw [herror]
      rfl
    | _ => exact ⟨_, List.mem_cons_self, rfl, rfl⟩

end Ranks

/-! ## Sorting by places -/

section SortBy

variable {α : Type} {valueOf : α → Value} (ascending : Bool) {items : List α}

theorem before_number {x y : Binary64} :
    before ascending (.number x) (.number y) = true ↔ Along ascending x.rank y.rank := by
  cases ascending <;> simp [before, Along, Rank.compare, Int.compare_ne_gt]

theorem before_text {s t : String} :
    before ascending (.text s) (.text t) = true ↔
      Along ascending (Text.bytes s) (Text.bytes t) := by
  cases ascending <;>
    simp [before, Along, Rank.compare, compare_le_iff_le, Text.bytes_strictMono.le_iff_le]

theorem sortBy_of_ranks {rank : α → Rank}
    (h : ranks (items.map valueOf) = .ok (items.map rank)) :
    sortBy valueOf ascending items =
      .ok (items.mergeSort fun a b => before ascending (rank a) (rank b)) := by
  have hzip : (items.map rank).zip items = items.map fun a => (rank a, a) := by
    have hpairs := List.zip_map' (f := rank) (g := id) (l := items)
    rwa [List.map_id] at hpairs
  have hsorted := List.map_mergeSort (f := fun a : α => (rank a, a)) (l := items)
    (r := fun a b => before ascending (rank a) (rank b))
    (s := fun a b => before ascending a.1 b.1) fun _ _ _ _ => rfl
  unfold sortBy
  rw [h]
  change Except.ok _ = _
  rw [hzip, ← hsorted, List.map_map]
  exact congrArg Except.ok (List.map_id _)

/-- Numbers, and texts that read as such, are sorted by the number. -/
theorem sortBy_numeric (h : Numeric (items.map valueOf)) :
    ∃ sorted, sortBy valueOf ascending items = .ok sorted ∧
      Stable (fun a => (numberOf (valueOf a)).rank) ascending items sorted := by
  have hranks := ranks_numeric h
  rw [List.map_map] at hranks
  refine ⟨_, sortBy_of_ranks ascending hranks, stable_mergeSort (fun a b => ?_) items⟩
  exact before_number ascending

/-- Numbers that are in order stay where they are. -/
theorem sortBy_of_ordered (h : Numeric (items.map valueOf))
    (ho : items.Pairwise fun a b =>
      Along ascending (numberOf (valueOf a)).rank (numberOf (valueOf b)).rank) :
    sortBy valueOf ascending items = .ok items := by
  have hranks := ranks_numeric h
  rw [List.map_map] at hranks
  rw [sortBy_of_ranks ascending hranks, List.mergeSort_of_pairwise]
  exact ho.imp (before_number ascending).mpr

/-- Other texts are sorted by their bytes. -/
theorem sortBy_textual (hn : ¬ Numeric (items.map valueOf)) (h : Textual (items.map valueOf)) :
    ∃ sorted, sortBy valueOf ascending items = .ok sorted ∧
      Stable (fun a => Text.bytes (textOf (valueOf a))) ascending items sorted := by
  have hranks := ranks_textual hn h
  rw [List.map_map] at hranks
  refine ⟨_, sortBy_of_ranks ascending hranks, stable_mergeSort (fun a b => ?_) items⟩
  exact before_text ascending

theorem sortBy_mixed (hn : ¬ Numeric (items.map valueOf)) (h : ¬ Textual (items.map valueOf)) :
    ∃ v ∈ items.map valueOf, v.asText? = none ∧
      sortBy valueOf ascending items = .error (.typeMismatch "number or string" v.typeName) := by
  obtain ⟨v, hv, hnone, herror⟩ := ranks_mixed hn h
  refine ⟨v, hv, hnone, ?_⟩
  unfold sortBy
  rw [herror]
  rfl

end SortBy

end MeteredScript.Sorting
