import MeteredScript.Proofs.Store.Canonical

/-!
# How values are compared

Two values are compared in one of three ways: neither leads to a container, and no container is
looked at; both lead to containers of one type, whose contents are compared unless they are one
container; or they differ whatever the containers hold. If no key is there twice, two maps have
equal contents exactly if they have the same keys and equal values under each of them, and two sets
if they have the same elements, so it does not matter on which side one looks for which.
-/

namespace MeteredScript

theorem Binary64.equal_comm (x y : Binary64) : x.equal y = y.equal x := by
  have hcompare : compare x.signedUnits y.signedUnits = .eq ↔
      compare y.signedUnits x.signedUnits = .eq := by
    rw [Std.compare_eq_iff_eq, Std.compare_eq_iff_eq, eq_comm]
  unfold equal compare?
  rw [Bool.or_comm]
  split
  · rfl
  · simp only [Option.some.injEq, hcompare]

/-! ## Contents -/

section Contents

variable {same : Value → Value → Bool}

theorem isEqv_iff {left right : List Value} : left.isEqv right same = true ↔
    left.length = right.length ∧
      ∀ (i : Nat) (v w : Value), left[i]? = some v → right[i]? = some w → same v w = true := by
  rw [List.isEqv_eq_decide]
  split
  · next hlength =>
    rw [decide_eq_true_eq]
    constructor
    · intro h
      refine ⟨hlength, fun i v w hv hw => ?_⟩
      obtain ⟨hi, rfl⟩ := List.getElem?_eq_some_iff.mp hv
      obtain ⟨_, rfl⟩ := List.getElem?_eq_some_iff.mp hw
      exact h i hi
    · exact fun h i hi =>
        h.2 i _ _ (List.getElem?_eq_getElem hi) (List.getElem?_eq_getElem (hlength ▸ hi))
  · next hlength => simp [hlength]

theorem Entries.perm_of_subset {left right : List Key} (hleft : left.Nodup)
    (hlength : left.length = right.length) (hsubset : left ⊆ right) : left.Perm right :=
  (List.subperm_of_subset hleft hsubset).perm_of_length_le (Nat.le_of_eq hlength.symm)

theorem sameElements_iff {left right : List Key} (hleft : left.Nodup) :
    Store.sameElements left right = true ↔ left.Perm right := by
  simp only [Store.sameElements, Bool.and_eq_true, decide_eq_true_eq, List.all_eq_true]
  constructor
  · rintro ⟨hlength, hall⟩
    exact Entries.perm_of_subset hleft hlength hall
  · exact fun h => ⟨h.length_eq, fun k hk => h.mem_iff.mp hk⟩

theorem sameEntries_iff {left right : List (Key × Value)} (hleft : (Entries.keys left).Nodup)
    (hright : (Entries.keys right).Nodup) :
    Store.sameEntries same left right = true ↔ (Entries.keys left).Perm (Entries.keys right) ∧
      ∀ k v w, (k, v) ∈ left → (k, w) ∈ right → same v w = true := by
  simp only [Store.sameEntries, Bool.and_eq_true, decide_eq_true_eq, List.all_eq_true,
    Option.any_eq_true]
  constructor
  · rintro ⟨hlength, hall⟩
    refine ⟨Entries.perm_of_subset hleft ?_ fun k hk => ?_, fun k v w hv hw => ?_⟩
    · simpa [Entries.keys] using hlength
    · obtain ⟨p, hp, rfl⟩ := List.mem_map.mp hk
      obtain ⟨w, hw, -⟩ := hall p hp
      exact List.mem_map.mpr ⟨(p.1, w), mem_of_lookup_eq_some hw, rfl⟩
    · obtain ⟨w', hw', hsame⟩ := hall (k, v) hv
      obtain rfl : w' = w :=
        Option.some.inj (hw'.symm.trans ((Entries.lookup_eq_some hright).mpr hw))
      exact hsame
  · rintro ⟨hkeys, hall⟩
    refine ⟨by simpa [Entries.keys] using hkeys.length_eq, fun p hp => ?_⟩
    obtain ⟨q, hq, hk⟩ := List.mem_map.mp (hkeys.mem_iff.mp (List.mem_map_of_mem hp))
    refine ⟨q.2, (Entries.lookup_eq_some hright).mpr (hk ▸ hq), ?_⟩
    exact hall p.1 p.2 q.2 hp (hk ▸ hq)

end Contents

/-! ## Whole stores -/

namespace Store

/-- If the value is a handle, it leads to a container of its type. -/
def Has (s : Store) (v : Value) : Prop := ∀ h, v.handle? = some h → s.Fits v.type h

instance (s : Store) (v : Value) : Decidable (s.Has v) :=
  decidable_of_iff (v.handle?.all fun h => decide (s.Fits v.type h)) <| by
    simp only [Has, Option.all_eq_true, decide_eq_true_eq]

theorem has_of_plain {s : Store} {v : Value} (h : v.handle? = none) : s.Has v := by
  intro l hl
  rw [h] at hl
  cases hl

/-- No key is in a container twice, and the handles in containers lead to containers. -/
structure Whole (s : Store) : Prop where
  keys : ∀ (n : Nat) (c : Container), s.containers[n]? = some c → c.contents.keys.Nodup
  values : ∀ (n : Nat) (c : Container), s.containers[n]? = some c → ∀ v ∈ c.contents.values, s.Has v

section Fits

variable {s : Store}

theorem Fits.contents_items {l : Handle} (h : s.Fits .list l) :
    s.containers[l.target]?.map (·.contents) = some (.items (s.items l)) := by
  obtain ⟨c, hc, heq⟩ := h.items
  rw [hc, Option.map_some, heq]

theorem Fits.contents_entries {m : Handle} (h : s.Fits .map m) :
    s.containers[m.target]?.map (·.contents) = some (.entries (s.entries m)) := by
  obtain ⟨c, hc, heq⟩ := h.entries
  rw [hc, Option.map_some, heq]

theorem Fits.contents_elements {h : Handle} (hf : s.Fits .set h) :
    s.containers[h.target]?.map (·.contents) = some (.elements (s.elements h)) := by
  obtain ⟨c, hc, heq⟩ := hf.elements
  rw [hc, Option.map_some, heq]

end Fits

namespace Whole

variable {s : Store}

theorem entries (hs : s.Whole) (m : Handle) : (Entries.keys (s.entries m)).Nodup := by
  unfold Store.entries
  split
  · next heq => exact hs.keys _ _ heq
  · exact .nil

theorem elements (hs : s.Whole) (h : Handle) : (s.elements h).Nodup := by
  unfold Store.elements
  split
  · next heq => exact hs.keys _ _ heq
  · exact .nil

theorem has_item (hs : s.Whole) {l : Handle} {v : Value} (hv : v ∈ s.items l) : s.Has v := by
  unfold Store.items at hv
  split at hv
  · next heq => exact hs.values _ _ heq v hv
  · exact absurd hv List.not_mem_nil

theorem has_entry (hs : s.Whole) {m : Handle} {k : Key} {v : Value} (hv : (k, v) ∈ s.entries m) :
    s.Has v := by
  unfold Store.entries at hv
  split at hv
  · next heq => exact hs.values _ _ heq v (List.mem_map_of_mem hv)
  · exact absurd hv List.not_mem_nil

end Whole

end Store

/-! ## Pairs of values -/

/-- The ways in which two values are compared. -/
inductive Value.Matchup : Value → Value → Prop
  | plain {v w : Value} (left : v.handle? = none) (right : w.handle? = none) : Matchup v w
  | lists (a b : Handle) : Matchup (.list a) (.list b)
  | maps (a b : Handle) : Matchup (.map a) (.map b)
  | sets (a b : Handle) : Matchup (.set a) (.set b)
  | apart {v w : Value} (type : v.type ≠ w.type) (handle : v.handle?.isSome ∨ w.handle?.isSome) :
      Matchup v w

theorem Value.matchup (v w : Value) : Matchup v w := by
  cases v with
  | list a =>
    cases w with
    | list b => exact .lists a b
    | _ => exact .apart (by simp [Value.type]) (.inl rfl)
  | map a =>
    cases w with
    | map b => exact .maps a b
    | _ => exact .apart (by simp [Value.type]) (.inl rfl)
  | set a =>
    cases w with
    | set b => exact .sets a b
    | _ => exact .apart (by simp [Value.type]) (.inl rfl)
  | _ =>
    cases w with
    | list | map | set => exact .apart (by simp [Value.type]) (.inr rfl)
    | _ => exact .plain rfl rfl

namespace Store

variable {s t : Store} {d d' : Nat} {v w : Value}

/-- No container and no depth matters to values that lead to no container. -/
theorem sameTo_plain (s t : Store) (d d' : Nat) (hv : v.handle? = none) (hw : w.handle? = none) :
    t.sameTo d' v w = s.sameTo d v w := by
  cases v with
  | list | map | set => cases hv
  | _ =>
    cases w with
    | list | map | set => cases hw
    | _ => cases d <;> cases d' <;> rfl

theorem sameTo_plain_comm (s : Store) (d : Nat) (hv : v.handle? = none) (hw : w.handle? = none) :
    s.sameTo d v w = s.sameTo d w v := by
  cases v with
  | list | map | set => cases hv
  | _ =>
    cases w with
    | list | map | set => cases hw
    | _ =>
      simp only [sameTo, sameNumber, Value.asNumber?, Binary64.equal_comm, eq_comm]

theorem sameTo_apart (s : Store) (d : Nat) (type : v.type ≠ w.type)
    (handle : v.handle?.isSome ∨ w.handle?.isSome) : s.sameTo d v w = false := by
  cases v <;> cases w <;> first
    | exact absurd rfl type
    | (cases d <;> rfl)
    | simp [Value.handle?] at handle

theorem sameTo_lists {a b : Handle} : s.sameTo d (.list a) (.list b) = true ↔
    a.target = b.target ∨ ∃ e, d = e + 1 ∧ (s.items a).length = (s.items b).length ∧
      ∀ (i : Nat) (v w : Value), (s.items a)[i]? = some v → (s.items b)[i]? = some w →
        s.sameTo e v w = true := by
  cases d with
  | zero => simp [sameTo]
  | succ d =>
    simp only [sameTo, Bool.or_eq_true, decide_eq_true_eq, isEqv_iff, Nat.add_right_cancel_iff,
      exists_eq_left']

theorem sameTo_maps (hs : s.Whole) {a b : Handle} : s.sameTo d (.map a) (.map b) = true ↔
    a.target = b.target ∨ ∃ e, d = e + 1 ∧
      (Entries.keys (s.entries a)).Perm (Entries.keys (s.entries b)) ∧
      ∀ k v w, (k, v) ∈ s.entries a → (k, w) ∈ s.entries b → s.sameTo e v w = true := by
  cases d with
  | zero => simp [sameTo]
  | succ d =>
    simp only [sameTo, Bool.or_eq_true, decide_eq_true_eq,
      sameEntries_iff (hs.entries a) (hs.entries b), Nat.add_right_cancel_iff, exists_eq_left']

theorem sameTo_sets (hs : s.Whole) {a b : Handle} : s.sameTo d (.set a) (.set b) = true ↔
    a.target = b.target ∨ (s.elements a).Perm (s.elements b) := by
  have hset : s.sameTo d (.set a) (.set b) =
      (a.target = b.target || sameElements (s.elements a) (s.elements b)) := by cases d <;> rfl
  rw [hset, Bool.or_eq_true, decide_eq_true_eq, sameElements_iff (hs.elements a)]

end Store

end MeteredScript
