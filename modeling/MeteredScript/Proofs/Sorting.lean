import MeteredScript.Evaluation.Operators
import MeteredScript.Proofs.Number.Rounding
import MeteredScript.Proofs.Quota
import MeteredScript.Proofs.Store.ListWriting
import MeteredScript.Proofs.Store.Stable

/-!
# What sorting leaves

Lists are sorted by their elements, in place or as a copy, and maps by their values or by their keys.
All of this is one stable sort, by numbers or else by texts, and it is refused if some value is
neither. Integers are placed by the number nearest to them, so that two of them which have the same
one stay as they were, whichever is larger.
-/

namespace MeteredScript

namespace Sorting

/-- A call that sorts what a container holds by a value of each item, in place through its owner or
as a copy, and where the items are found then. -/
inductive Sorts (s : Store) (ascending : Bool) :
    {α ρ : Type} → (α → Value) → List α → StoreM ρ → (ρ → Store → List α) → Prop
  | list {l : Handle} (hl : s.Fits .list l) :
      Sorts s ascending id (s.items l) (Lists.sort ⟨l.target, .owner⟩ ascending)
        fun _ t => t.items l
  | copy {l : Handle} (hl : s.Fits .list l) :
      Sorts s ascending id (s.items l) (Lists.toSorted l ascending) fun c t => t.items c
  | byValue {m : Handle} (hm : s.Fits .map m) :
      Sorts s ascending (·.2) (s.entries m) (Maps.sortByValue ⟨m.target, .owner⟩ ascending)
        fun _ t => t.entries m
  | byKey {m : Handle} (hm : s.Fits .map m) :
      Sorts s ascending (·.1.toValue) (s.entries m) (Maps.sortByKey ⟨m.target, .owner⟩ ascending)
        fun _ t => t.entries m

section Calls

variable {s : Store} {ascending : Bool} {α ρ : Type} {valueOf : α → Value} {items : List α}
  {call : StoreM ρ} {found : ρ → Store → List α}

/-- Sorting comes first, and what follows it cannot fail. -/
theorem Sorts.finish (h : Sorts s ascending valueOf items call found) :
    ∃ finish : List α → StoreM ρ,
      call.run s = ((liftM (sortBy valueOf ascending items) : StoreM _) >>= finish).run s ∧
        ∀ sorted, ∃ r t, (finish sorted).run s = (.ok r, t) ∧ found r t = sorted := by
  cases h with
  | list hl => exact ⟨_, rfl, fun sorted => ⟨_, _, rfl, hl.items_commit sorted []⟩⟩
  | copy hl =>
    refine ⟨_, rfl, fun sorted => ?_⟩
    obtain ⟨t, hrun, -, -, hitems⟩ := Lists.sibling_run _ sorted s
    exact ⟨_, t, hrun, hitems⟩
  | byValue hm => exact ⟨_, rfl, fun sorted => ⟨_, _, rfl, (hm.commit sorted []).entries⟩⟩
  | byKey hm => exact ⟨_, rfl, fun sorted => ⟨_, _, rfl, (hm.commit sorted []).entries⟩⟩

theorem Sorts.run_ok (h : Sorts s ascending valueOf items call found) {sorted : List α}
    (hs : sortBy valueOf ascending items = .ok sorted) :
    ∃ r t, call.run s = (.ok r, t) ∧ found r t = sorted := by
  obtain ⟨finish, hcall, hfinish⟩ := h.finish
  obtain ⟨r, t, hrun, hfound⟩ := hfinish sorted
  rw [hs] at hcall
  exact ⟨r, t, hcall.trans hrun, hfound⟩

theorem Sorts.run_error (h : Sorts s ascending valueOf items call found) {f : Fault}
    (hs : sortBy valueOf ascending items = .error f) : call.run s = (.error f, s) := by
  obtain ⟨finish, hcall, -⟩ := h.finish
  rw [hs] at hcall
  exact hcall

/-- Sorting is by numbers if every value is one or reads as one, else by texts if every value is
one, and is else refused, with nothing changed. -/
theorem stable_by_one_place (h : Sorts s ascending valueOf items call found) :
    (Numeric (items.map valueOf) ∨ Textual (items.map valueOf) →
        ∃ r t, call.run s = (.ok r, t) ∧
          (Numeric (items.map valueOf) →
            Stable (fun a => (numberOf (valueOf a)).rank) ascending items (found r t)) ∧
          (¬ Numeric (items.map valueOf) →
            Stable (fun a => Text.bytes (textOf (valueOf a))) ascending items (found r t))) ∧
      (¬ (Numeric (items.map valueOf) ∨ Textual (items.map valueOf)) →
        ∃ v ∈ items.map valueOf, v.asText? = none ∧
          call.run s = (.error (.typeMismatch "number or string" v.typeName), s)) := by
  constructor
  · intro hplaced
    by_cases hn : Numeric (items.map valueOf)
    · obtain ⟨sorted, hsort, hstable⟩ := sortBy_numeric ascending hn
      obtain ⟨r, t, hrun, rfl⟩ := h.run_ok hsort
      exact ⟨r, t, hrun, fun _ => hstable, fun hnot => absurd hn hnot⟩
    · obtain ⟨sorted, hsort, hstable⟩ :=
        sortBy_textual ascending hn (hplaced.resolve_left hn)
      obtain ⟨r, t, hrun, rfl⟩ := h.run_ok hsort
      exact ⟨r, t, hrun, fun hnumeric => absurd hnumeric hn, fun _ => hstable⟩
  · intro hmixed
    obtain ⟨hn, ht⟩ := not_or.mp hmixed
    obtain ⟨v, hv, hnone, hsort⟩ := sortBy_mixed ascending hn ht
    exact ⟨v, hv, hnone, h.run_error hsort⟩

end Calls

/-- A list of numbers, some of them as texts, two of them equal. -/
def digits : Store :=
  ((Lists.create 0 [.str "10", .int 9, .str " 9.0", .int 2]).run .metered).2

/-- A map with a key that is neither a number nor a text. -/
def nullKeyed : Store := ((Maps.create 0 [(.str "a", .int 1), (.null, .int 2)]).run .metered).2

theorem stable_by_one_place_digits :
    Numeric (digits.items ⟨0, .owner⟩) ∧
      (∃ t, (Lists.sort ⟨0, .owner⟩ true).run digits = (.ok (), t) ∧
        Stable (fun v => (numberOf v).rank) true
          [.str "10", .int 9, .str " 9.0", .int 2] (t.items ⟨0, .owner⟩)) ∧
      (Maps.sortByKey ⟨0, .owner⟩ false).run nullKeyed =
        (.error (.typeMismatch "number or string" "null"), nullKeyed) := by
  have hitems : digits.items ⟨0, .owner⟩ = [.str "10", .int 9, .str " 9.0", .int 2] := by
    decide +kernel
  have hnumeric : Numeric ((digits.items ⟨0, .owner⟩).map id) := by decide +kernel
  have hlist : digits.Fits .list ⟨0, .owner⟩ := by decide +kernel
  have hsorts : Sorts digits true id _ (Lists.sort ⟨0, .owner⟩ true) _ :=
    .list (l := ⟨0, .owner⟩) hlist
  obtain ⟨_, t, hrun, hstable, -⟩ := (stable_by_one_place hsorts).1 (.inl hnumeric)
  have hmap : nullKeyed.Fits .map ⟨0, .owner⟩ := by decide +kernel
  have hmapSorts : Sorts nullKeyed false _ _ (Maps.sortByKey ⟨0, .owner⟩ false) _ :=
    .byKey (m := ⟨0, .owner⟩) hmap
  obtain ⟨v, hv, hnone, hrefused⟩ := (stable_by_one_place hmapSorts).2 (by decide +kernel)
  have hkeys : (nullKeyed.entries ⟨0, .owner⟩).map (·.1.toValue) = [.str "a", .null] := by
    decide +kernel
  rw [hkeys] at hv
  obtain rfl | rfl : v = .str "a" ∨ v = .null := by simpa using hv
  · cases hnone
  · rw [List.map_id] at hnumeric
    exact ⟨hnumeric, ⟨t, hrun, hitems ▸ hstable hnumeric⟩, hrefused⟩

/-! ## Integers -/

def integerOf (v : Value) : Int := (v.asInt?.getD 0).toInt

def Integers (values : List Value) : Prop := ∀ v ∈ values, ∃ i, v = .int i

/-- One integer is not behind another in the direction of a sort. -/
def InOrder (ascending : Bool) (v w : Value) : Prop :=
  Along ascending (integerOf v) (integerOf w)

instance (ascending : Bool) (v w : Value) : Decidable (InOrder ascending v w) :=
  inferInstanceAs (Decidable (Along ascending _ _))

section Integers

variable {s : Store} {ascending : Bool} {α ρ : Type} {valueOf : α → Value} {items sorted : List α}
  {call : StoreM ρ} {found : ρ → Store → List α}

theorem Integers.numeric {values : List Value} (h : Integers values) : Numeric values := by
  intro v hv
  obtain ⟨i, rfl⟩ := h v hv
  rfl

theorem rank_numberOf_int (i : Int64) :
    (numberOf (.int i)).rank = (Binary64.ofInt (integerOf (.int i))).rank := rfl

/-- Where the nearest numbers differ, they are ordered as the integers are. -/
theorem inOrder_of_places {i j : Int64}
    (h : Along ascending (numberOf (.int i)).rank (numberOf (.int j)).rank)
    (hne : (numberOf (.int i)).rank ≠ (numberOf (.int j)).rank) :
    InOrder ascending (.int i) (.int j) := by
  rw [rank_numberOf_int, rank_numberOf_int] at h hne
  cases ascending with
  | true =>
    refine le_of_not_gt fun hlt => hne (le_antisymm h ?_)
    exact Binary64.rank_ofInt_mono (le_of_lt hlt)
  | false =>
    refine le_of_not_gt fun hlt => hne (le_antisymm ?_ h)
    exact Binary64.rank_ofInt_mono (le_of_lt hlt)

theorem inOrder_of_exact {i j : Int64} (hi : (integerOf (.int i)).natAbs ≤ Binary64.exactBound)
    (hj : (integerOf (.int j)).natAbs ≤ Binary64.exactBound)
    (h : (numberOf (.int i)).rank = (numberOf (.int j)).rank) :
    InOrder ascending (.int i) (.int j) := by
  rw [rank_numberOf_int, rank_numberOf_int] at h
  have heq : integerOf (.int i) = integerOf (.int j) := by
    rcases lt_trichotomy (integerOf (.int i)) (integerOf (.int j)) with hlt | heq | hgt
    · exact absurd h (ne_of_lt (Binary64.rank_ofInt_lt hlt hi hj))
    · exact heq
    · exact absurd h.symm (ne_of_lt (Binary64.rank_ofInt_lt hgt hj hi))
  rw [InOrder, heq]
  exact .refl ascending _

/-- Only those with one nearest number can be out of order, and these are as they were. -/
theorem Stable.inOrder_iff (hints : Integers (items.map valueOf))
    (h : Stable (fun a => (numberOf (valueOf a)).rank) ascending items sorted) :
    (sorted.map valueOf).Pairwise (InOrder ascending) ↔
      (items.map valueOf).Pairwise fun v w => numberOf v = numberOf w → InOrder ascending v w := by
  have hint : ∀ a ∈ sorted, ∃ i, valueOf a = .int i := by
    intro a ha
    exact hints _ (List.mem_map_of_mem (h.perm.mem_iff.mpr ha))
  have hrank : ∀ a b : α, numberOf (valueOf a) = numberOf (valueOf b) ↔
      (numberOf (valueOf a)).rank = (numberOf (valueOf b)).rank :=
    fun a b => Binary64.rank_injective.eq_iff.symm
  rw [List.pairwise_map, List.pairwise_map]
  simp only [hrank]
  rw [← h.pairwise_iff (R := fun a b => InOrder ascending (valueOf a) (valueOf b))]
  constructor
  · intro hall
    exact hall.imp fun hab => fun _ => hab
  · intro hties
    refine (h.ordered.and hties).imp_of_mem fun {a b} ha hb ⟨hplace, htie⟩ => ?_
    obtain ⟨i, hi⟩ := hint a ha
    obtain ⟨j, hj⟩ := hint b hb
    rw [hi, hj] at hplace htie ⊢
    by_cases heq : (numberOf (.int i)).rank = (numberOf (.int j)).rank
    · exact htie heq
    · exact inOrder_of_places hplace heq

/-- What a script finds when it compares integers is their order. -/
theorem evaluate_inOrder (s : Store) (ascending : Bool) (i j : Int64) :
    Operators.evaluate s (.int i) (.int j) (if ascending then .ltEq else .gtEq) =
      .ok (.bool (InOrder ascending (.int i) (.int j))) := by
  cases ascending with
  | true =>
    change Except.ok (Value.bool (compare i.toInt j.toInt ≠ .gt)) = _
    simp only [Int.compare_ne_gt]
    rfl
  | false =>
    change Except.ok (Value.bool (compare i.toInt j.toInt ≠ .lt)) = _
    simp only [Int.compare_ne_lt]
    rfl

/-- Integers are in order once they are sorted, as scripts compare them, unless two with the same
nearest number were not in order before. Up to 2⁵³ no two have the same. -/
theorem ints_in_order_iff (h : Sorts s ascending valueOf items call found)
    (hints : Integers (items.map valueOf)) :
    ∃ r t, call.run s = (.ok r, t) ∧ items.Perm (found r t) ∧
      (((found r t).map valueOf).Pairwise (InOrder ascending) ↔
        (items.map valueOf).Pairwise fun v w =>
          numberOf v = numberOf w → InOrder ascending v w) ∧
      ((∀ v ∈ items.map valueOf, (integerOf v).natAbs ≤ Binary64.exactBound) →
        ((found r t).map valueOf).Pairwise (InOrder ascending)) ∧
      ∀ v ∈ items.map valueOf, ∀ w ∈ items.map valueOf,
        Operators.evaluate t v w (if ascending then .ltEq else .gtEq) =
          .ok (.bool (InOrder ascending v w)) := by
  obtain ⟨sorted, hsort, hstable⟩ := sortBy_numeric ascending hints.numeric
  obtain ⟨r, t, hrun, rfl⟩ := h.run_ok hsort
  have hiff := hstable.inOrder_iff hints
  refine ⟨r, t, hrun, hstable.perm, hiff, fun hexact => ?_, fun v hv w hw => ?_⟩
  · refine hiff.mpr (List.pairwise_of_forall_mem_list fun v hv w hw heq => ?_)
    obtain ⟨i, rfl⟩ := hints v hv
    obtain ⟨j, rfl⟩ := hints w hw
    exact inOrder_of_exact (hexact _ hv) (hexact _ hw) (congrArg Binary64.rank heq)
  · obtain ⟨i, rfl⟩ := hints v hv
    obtain ⟨j, rfl⟩ := hints w hw
    exact evaluate_inOrder t ascending i j

end Integers

/-- A list of integers beyond 2⁵³, one of which is rounded, but not to the other. -/
def large : Store :=
  ((Lists.create 0 [.int 9007199254740994, .int 5, .int 9007199254740993]).run .metered).2

theorem ints_in_order_iff_large :
    large.items ⟨0, .owner⟩ = [.int 9007199254740994, .int 5, .int 9007199254740993] ∧
      ∃ t, (Lists.sort ⟨0, .owner⟩ true).run large = (.ok (), t) ∧
        (large.items ⟨0, .owner⟩).Perm (t.items ⟨0, .owner⟩) ∧
        (t.items ⟨0, .owner⟩).Pairwise (InOrder true) := by
  have hlist : large.Fits .list ⟨0, .owner⟩ := by decide +kernel
  have hitems : large.items ⟨0, .owner⟩ =
      [.int 9007199254740994, .int 5, .int 9007199254740993] := by decide +kernel
  have hints : Integers ((large.items ⟨0, .owner⟩).map id) := by
    rw [hitems]
    simp [Integers]
  have hties : ((large.items ⟨0, .owner⟩).map id).Pairwise fun v w =>
      numberOf v = numberOf w → InOrder true v w := by
    rw [hitems]
    decide +kernel
  have hsorts : Sorts large true id _ (Lists.sort ⟨0, .owner⟩ true) _ :=
    .list (l := ⟨0, .owner⟩) hlist
  obtain ⟨_, t, hrun, hperm, hiff, -⟩ := ints_in_order_iff hsorts hints
  have hsorted := hiff.mpr hties
  rw [List.map_id] at hsorted
  exact ⟨hitems, t, hrun, hperm, hsorted⟩

/-- Two integers with the same nearest number stay as they were, the larger one in front. -/
theorem ints_out_of_order :
    ∃ s t : Store, s.Fits .list ⟨0, .owner⟩ ∧
      s.items ⟨0, .owner⟩ = [.int 9007199254740993, .int 9007199254740992] ∧
      (Lists.sort ⟨0, .owner⟩ true).run s = (.ok (), t) ∧
      t.items ⟨0, .owner⟩ = [.int 9007199254740993, .int 9007199254740992] ∧
      Operators.evaluate t (.int 9007199254740993) (.int 9007199254740992) .ltEq =
        .ok (.bool false) := by
  let values : List Value := [.int 9007199254740993, .int 9007199254740992]
  let s : Store := ((Lists.create 0 values).run .metered).2
  have hlist : s.Fits .list ⟨0, .owner⟩ := by decide +kernel
  have hitems : s.items ⟨0, .owner⟩ = values := by decide +kernel
  have hsort : sortBy id true (s.items ⟨0, .owner⟩) = .ok values := by
    rw [hitems]
    exact sortBy_of_ordered true (by decide +kernel) (by decide +kernel)
  have hsorts : Sorts s true id _ (Lists.sort ⟨0, .owner⟩ true) _ :=
    .list (l := ⟨0, .owner⟩) hlist
  obtain ⟨_, t, hrun, hfound⟩ := hsorts.run_ok hsort
  exact ⟨s, t, hlist, hitems, hrun, hfound, rfl⟩

end Sorting

end MeteredScript
