import Mathlib.Data.List.Perm.Basic
import MeteredScript.Proofs.Evaluation.Running
import MeteredScript.Store.Entries

/-!
# Associations without repeated keys

If every key is there once, the order of the entries does not matter to what a key is mapped to, and
storing or removing a value is adding or taking away one entry.
-/

namespace MeteredScript.Entries

variable {k : Key} {v : Value} {pairs other : List (Key × Value)}

@[simp] theorem keys_nil : keys [] = [] := rfl

@[simp] theorem keys_cons (p : Key × Value) : keys (p :: pairs) = p.1 :: keys pairs := rfl

@[simp] theorem keys_append : keys (pairs ++ other) = keys pairs ++ keys other := List.map_append

theorem keys_perm (h : pairs.Perm other) : (keys pairs).Perm (keys other) := h.map _

/-! ## Storing -/

section Put

variable {κ α β : Type} [DecidableEq κ] {k k' : κ} {v : α}

theorem lookup_put_self (k : κ) (v : α) (pairs : List (κ × α)) :
    (put k v pairs).lookup k = some v := by
  induction pairs with
  | nil => simp [put]
  | cons p rest ih =>
    obtain ⟨n, w⟩ := p
    by_cases hn : n = k
    · simp [put, hn]
    · simp [put, hn, List.lookup_cons, beq_eq_false_iff_ne.mpr (Ne.symm hn), ih]

theorem lookup_put_of_ne (h : k' ≠ k) (pairs : List (κ × α)) :
    (put k v pairs).lookup k' = pairs.lookup k' := by
  induction pairs with
  | nil => simp [put, List.lookup_cons, beq_eq_false_iff_ne.mpr h]
  | cons p rest ih =>
    obtain ⟨n, w⟩ := p
    by_cases hn : n = k
    · simp [put, hn, List.lookup_cons, beq_eq_false_iff_ne.mpr h]
    · simp [put, hn, List.lookup_cons, ih]

theorem mem_put {pairs : List (κ × α)} {p : κ × α} (h : p ∈ put k v pairs) :
    p = (k, v) ∨ p ∈ pairs := by
  induction pairs with
  | nil => exact .inl (List.mem_singleton.mp h)
  | cons q rest ih =>
    unfold put at h
    split at h
    · rcases List.mem_cons.mp h with rfl | h
      · exact .inl rfl
      · exact .inr (List.mem_cons_of_mem _ h)
    · rcases List.mem_cons.mp h with rfl | h
      · exact .inr List.mem_cons_self
      · exact (ih h).imp id (List.mem_cons_of_mem _)

theorem put_map_snd (f : α → β) (k : κ) (v : α) (pairs : List (κ × α)) :
    put k (f v) (pairs.map fun p => (p.1, f p.2)) =
      (put k v pairs).map fun p => (p.1, f p.2) := by
  induction pairs with
  | nil => rfl
  | cons p rest ih =>
    obtain ⟨n, w⟩ := p
    rw [List.map_cons, put, put]
    split
    · rfl
    · rw [ih]
      rfl

end Put

/-! ## Lookup -/

theorem lookup_eq_none : pairs.lookup k = none ↔ k ∉ keys pairs := by
  grind [keys, List.lookup_eq_none_iff]

theorem lookup_eq_some (h : (keys pairs).Nodup) : pairs.lookup k = some v ↔ (k, v) ∈ pairs := by
  constructor
  · exact mem_of_lookup_eq_some
  · intro hmem
    induction pairs with
    | nil => simp at hmem
    | cons p rest ih =>
      obtain ⟨k', w⟩ := p
      obtain ⟨hp, hrest⟩ := List.nodup_cons.mp h
      by_cases hk : k = k'
      · obtain rfl := hk
        have hout : (k, v) ∉ rest := fun hin => hp (List.mem_map.mpr ⟨_, hin, rfl⟩)
        have : v = w := by simpa [hout] using hmem
        simp [this]
      · have hin : (k, v) ∈ rest := by simpa [hk] using hmem
        have hne : (k == k') = false := by simpa using hk
        simp [List.lookup_cons, hne, ih hrest hin]

theorem lookup_perm (h : pairs.Perm other) (hn : (keys other).Nodup) :
    pairs.lookup k = other.lookup k := by
  have hp : (keys pairs).Nodup := (keys_perm h).nodup_iff.mpr hn
  apply Option.ext
  intro w
  rw [lookup_eq_some hp, lookup_eq_some hn, h.mem_iff]

/-! ## Removing -/

theorem erase_of_not_mem (h : k ∉ keys pairs) : erase k pairs = pairs := by
  apply List.eraseP_of_forall_not
  intro p hp hk
  have : p.1 = k := by simpa using hk
  exact h (this ▸ List.mem_map_of_mem hp)

theorem keys_erase_nodup (h : (keys pairs).Nodup) : (keys (erase k pairs)).Nodup :=
  h.sublist (List.eraseP_sublist.map _)

theorem perm_cons_erase (h : pairs.lookup k = some v) : pairs.Perm ((k, v) :: erase k pairs) := by
  induction pairs with
  | nil => simp at h
  | cons p rest ih =>
    obtain ⟨k', w⟩ := p
    by_cases hk : k = k'
    · have hw : w = v := by simpa [List.lookup_cons, hk] using h
      simp [erase, hk, hw]
    · have hne : (k == k') = false := by simpa using hk
      have hr : rest.lookup k = some v := by simpa [List.lookup_cons, hne] using h
      have herase : erase k ((k', w) :: rest) = (k', w) :: erase k rest := by
        simp [erase, Ne.symm hk]
      rw [herase]
      exact ((ih hr).cons _).trans (.swap _ _ _)

theorem not_mem_keys_erase (h : (keys pairs).Nodup) : k ∉ keys (erase k pairs) := by
  cases hl : pairs.lookup k with
  | none =>
    have hk := lookup_eq_none.mp hl
    rwa [erase_of_not_mem hk]
  | some v =>
    have hn := (keys_perm (perm_cons_erase hl)).nodup_iff.mp h
    exact (List.nodup_cons.mp hn).1

theorem erase_perm (h : pairs.Perm other) (hn : (keys other).Nodup) :
    (erase k pairs).Perm (erase k other) := by
  cases hl : pairs.lookup k with
  | none =>
    have hk := lookup_eq_none.mp hl
    rw [erase_of_not_mem hk, erase_of_not_mem ((keys_perm h).mem_iff.not.mp hk)]
    exact h
  | some v =>
    have hl' : other.lookup k = some v := by rw [← lookup_perm h hn, hl]
    exact (((perm_cons_erase hl).symm.trans h).trans (perm_cons_erase hl')).cons_inv

/-! ## Storing -/

theorem put_perm : (put k v pairs).Perm ((k, v) :: erase k pairs) := by
  induction pairs with
  | nil => simp [put, erase]
  | cons p rest ih =>
    obtain ⟨k', w⟩ := p
    by_cases hk : k' = k
    · simp [put, erase, hk]
    · simp only [put, erase, hk, if_false, decide_false, Bool.false_eq_true, not_false_eq_true,
        List.eraseP_cons_of_neg]
      exact (ih.cons _).trans (.swap _ _ _)

end MeteredScript.Entries
