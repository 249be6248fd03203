import Mathlib.Data.List.Forall2
import Mathlib.Data.List.Induction
import MeteredScript.Proofs.Store.Writing

/-!
# The inverse of a map

Values go by the keys that they make, which fold some of them together. Each key of a value, at its
first occurrence, leads to those that held it: to a single one, or to a new list of them.
-/

namespace MeteredScript

/-- Scalars make keys, and nothing else does. -/
theorem Key.ofValue_eq (v : Value) :
    (v.isScalar = true ∧ ∃ k, Key.ofValue v = .ok k) ∨
      (v.isScalar = false ∧ Key.ofValue v = .error (.typeMismatch "hashable scalar" v.typeName)) := by
  cases v with
  | null | bool | int | float | str => exact .inl ⟨rfl, _, rfl⟩
  | list | map | set | native => exact .inr ⟨rfl, rfl⟩

namespace Entries

/-- The key that a value makes, if it makes one. -/
def valueKey (p : Key × Value) : Option Key := (Key.ofValue p.2).toOption

/-- The keys that the values make, each at its first occurrence. -/
def valueKeys (pairs : List (Key × Value)) : List Key := (pairs.filterMap valueKey).eraseDups

/-- The keys that hold a value, in order. -/
def holders (pairs : List (Key × Value)) (k : Key) : List Key :=
  (pairs.filter (valueKey · = some k)).map (·.1)

/-- Each key of a value with those that hold it. -/
def inverse (pairs : List (Key × Value)) : List (Key × List Key) :=
  (valueKeys pairs).map fun k => (k, holders pairs k)

section Inverse

variable {pairs : List (Key × Value)} {p : Key × Value} {k : Key}

theorem valueKeys_concat (h : valueKey p = some k) :
    valueKeys (pairs ++ [p]) =
      if k ∈ valueKeys pairs then valueKeys pairs else valueKeys pairs ++ [k] := by
  have hone : [p].filterMap valueKey = [k] := by simp [h]
  rw [valueKeys, List.filterMap_append, hone, List.eraseDups_append, ← valueKeys]
  by_cases hk : k ∈ valueKeys pairs
  · have hin : k ∈ pairs.filterMap valueKey := List.mem_eraseDups.mp hk
    simp [List.removeAll, hin, if_pos hk]
  · have hout : k ∉ pairs.filterMap valueKey := fun hin => hk (List.mem_eraseDups.mpr hin)
    simp [List.removeAll, hout, if_neg hk, List.eraseDups_cons]

theorem holders_concat (h : valueKey p = some k) (other : Key) :
    holders (pairs ++ [p]) other =
      if other = k then holders pairs other ++ [p.1] else holders pairs other := by
  by_cases hk : other = k
  · simp [holders, h, hk]
  · simp [holders, h, hk, Ne.symm hk]

theorem holders_eq_nil : holders pairs k = [] ↔ k ∉ valueKeys pairs := by
  simp [holders, valueKeys, List.mem_filterMap]

theorem valueKeys_nodup (pairs : List (Key × Value)) : (valueKeys pairs).Nodup := by
  induction pairs using List.reverseRecOn with
  | nil => exact .nil
  | append_singleton pairs p ih =>
    cases h : valueKey p with
    | none =>
      rwa [valueKeys, List.filterMap_append, List.filterMap_cons_none h, List.filterMap_nil,
        List.append_nil]
    | some k =>
      rw [valueKeys_concat h]
      split
      · exact ih
      · next hk => exact List.nodup_append.mpr ⟨ih, by simp, by grind⟩

/-- A key joins the group of its value, which is opened at the end if there is none. -/
theorem addToGroup_map {groups : List Key} (hn : groups.Nodup) (members : Key → List Value)
    (group : Key) (member : Value) :
    addToGroup group member (groups.map fun g => (g, members g)) =
      if group ∈ groups then
        groups.map fun g => (g, if g = group then members g ++ [member] else members g)
      else groups.map (fun g => (g, members g)) ++ [(group, [member])] := by
  induction groups with
  | nil => rfl
  | cons g rest ih =>
    obtain ⟨hg, hrest⟩ := List.nodup_cons.mp hn
    by_cases hgroup : g = group
    · obtain rfl := hgroup
      have hothers : ∀ g' ∈ rest, (g', members g') =
          (g', if g' = g then members g' ++ [member] else members g') := by
        intro g' hin
        rw [if_neg (ne_of_mem_of_not_mem hin hg)]
      simp [addToGroup, List.map_congr_left hothers]
    · simp only [List.map_cons, addToGroup, if_neg hgroup, ih hrest, List.mem_cons,
        Ne.symm hgroup, false_or]
      split <;> rfl

/-- The spelling of a group by values. -/
def spelled (g : Key × List Key) : Key × List Value := (g.1, g.2.map Key.toValue)

/-- One more entry is one more holder of the key of its value. -/
theorem addToGroup_inverse (h : valueKey p = some k) :
    addToGroup k p.1.toValue ((inverse pairs).map spelled) =
      (inverse (pairs ++ [p])).map spelled := by
  have hgroups : (inverse pairs).map spelled =
      (valueKeys pairs).map fun g => (g, (holders pairs g).map Key.toValue) := by
    simp [inverse, spelled, Function.comp_def]
  rw [hgroups, addToGroup_map (valueKeys_nodup pairs), inverse, valueKeys_concat h]
  by_cases hin : k ∈ valueKeys pairs
  · simp only [if_pos hin, List.map_map]
    apply List.map_congr_left
    intro g _
    simp only [Function.comp_apply, spelled, holders_concat h]
    split <;> simp
  · have hothers : ∀ g ∈ valueKeys pairs, holders (pairs ++ [p]) g = holders pairs g := by
      intro g hg
      rw [holders_concat h, if_neg (ne_of_mem_of_not_mem hg hin)]
    have hnew : holders (pairs ++ [p]) k = [p.1] := by
      rw [holders_concat h, if_pos rfl, holders_eq_nil.mpr hin, List.nil_append]
    simp only [if_neg hin, List.map_append, List.map_map, List.map_cons, List.map_nil,
      Function.comp_def, spelled, hnew]
    congr 1
    apply List.map_congr_left
    intro g hg
    rw [hothers g hg]

theorem inverseGroups_ok (h : ∀ p ∈ pairs, p.2.isScalar = true) :
    inverseGroups pairs = .ok ((inverse pairs).map spelled) := by
  -- Groups grow at their ends, so it is the last entry that is taken off.
  induction pairs using List.reverseRecOn with
  | nil => rfl
  | append_singleton pairs p ih =>
    obtain ⟨hpairs, hp⟩ := List.forall_mem_append.mp h
    rcases Key.ofValue_eq p.2 with ⟨-, k, hk⟩ | ⟨hnot, -⟩
    · have hvalue : valueKey p = some k := by rw [valueKey, hk]; rfl
      rw [← addToGroup_inverse hvalue, inverseGroups, List.foldlM_append, ← inverseGroups,
        ih hpairs]
      simp [hk]
      rfl
    · simp [hp p List.mem_cons_self] at hnot

/-- A value that is no scalar is refused, with the name of its type. -/
theorem inverseGroups_error (h : ∃ p ∈ pairs, p.2.isScalar = false) :
    ∃ p ∈ pairs, p.2.isScalar = false ∧
      inverseGroups pairs = .error (.typeMismatch "hashable scalar" p.2.typeName) := by
  suffices ∀ start : List (Key × List Value), ∃ p ∈ pairs, p.2.isScalar = false ∧
      pairs.foldlM (fun groups (p : Key × Value) =>
        return addToGroup (← Key.ofValue p.2) p.1.toValue groups) start =
          .error (.typeMismatch "hashable scalar" p.2.typeName) from this []
  induction pairs with
  | nil => exact absurd h (by simp)
  | cons q rest ih =>
    intro start
    rcases Key.ofValue_eq q.2 with ⟨hscalar, k, hk⟩ | ⟨hnot, hk⟩
    · have hrest : ∃ p ∈ rest, p.2.isScalar = false := by simpa [hscalar] using h
      obtain ⟨p, hp, hfalse, herror⟩ := ih hrest (addToGroup k q.1.toValue start)
      refine ⟨p, List.mem_cons_of_mem q hp, hfalse, ?_⟩
      rw [List.foldlM_cons, hk]
      exact herror
    · refine ⟨q, List.mem_cons_self, hnot, ?_⟩
      rw [List.foldlM_cons, hk]
      rfl

/-- Every key of a value is held by some key. -/
theorem inverse_ne_nil : ∀ g ∈ inverse pairs, g.2 ≠ [] := by
  intro g hg
  obtain ⟨k, hk, rfl⟩ := List.mem_map.mp hg
  exact fun hnil => holders_eq_nil.mp hnil hk

end Inverse

end Entries

/-! ## Entries of the inverse -/

namespace Store

/-- What is stored for the keys that hold a value: a single one itself, several as a new list. -/
inductive Stands (s t : Store) : Value → List Key → Prop
  | single (k : Key) : Stands s t k.toValue [k]
  | several {l : Handle} {members : List Key} (several : 1 < members.length)
      (owner : l.view = .owner) (fresh : s.containers.size ≤ l.target)
      (items : t.items l = members.map Key.toValue) : Stands s t (.list l) members

/-- Entries that say which keys hold each value. No two of them have the same list. -/
structure Inverts (s t : Store) (pairs : List (Key × Value)) (groups : List (Key × List Key)) :
    Prop where
  stand : List.Forall₂ (fun p g => p.1 = g.1 ∧ s.Stands t p.2 g.2) pairs groups
  apart : (pairs.filterMap (·.2.handle?)).Nodup

variable {s t u : Store} {pairs : List (Key × Value)} {groups : List (Key × List Key)}

theorem Stands.mono {v : Value} {members : List Key} (h : s.Stands t v members)
    (hitems : ∀ l, t.items l ≠ [] → u.items l = t.items l) : s.Stands u v members := by
  cases h with
  | single k => exact .single k
  | several several owner fresh items =>
    refine .several several owner fresh ((hitems _ ?_).trans items)
    rw [items]
    exact fun hnil => absurd (List.map_eq_nil_iff.mp hnil ▸ several) (by simp)

theorem Stands.of_le {v : Value} {members : List Key} (h : u.Stands t v members)
    (hsize : s.containers.size ≤ u.containers.size) : s.Stands t v members := by
  cases h with
  | single k => exact .single k
  | several several owner fresh items => exact .several several owner (Nat.le_trans hsize fresh) items

/-- A key is no handle, so only a new list is one. -/
theorem Stands.fresh {v : Value} {members : List Key} (h : s.Stands t v members) {l : Handle}
    (hl : v.handle? = some l) : s.containers.size ≤ l.target := by
  cases h with
  | single k => cases k <;> cases hl
  | several _ _ fresh _ => exact Option.some.inj hl ▸ fresh

theorem Stands.null_iff {v : Value} {members : List Key} (h : s.Stands t v members) :
    v = .null ↔ members = [.null] := by
  cases h with
  | single k => cases k <;> simp [Key.toValue]
  | several several =>
    constructor
    · intro hv
      cases hv
    · rintro rfl
      exact absurd several (by simp)

theorem Inverts.mono (h : s.Inverts t pairs groups)
    (hitems : ∀ l, t.items l ≠ [] → u.items l = t.items l) : s.Inverts u pairs groups :=
  ⟨h.stand.imp fun _ _ hp => ⟨hp.1, hp.2.mono hitems⟩, h.apart⟩

theorem Inverts.of_le (h : u.Inverts t pairs groups)
    (hsize : s.containers.size ≤ u.containers.size) : s.Inverts t pairs groups :=
  ⟨h.stand.imp fun _ _ hp => ⟨hp.1, hp.2.of_le hsize⟩, h.apart⟩

theorem Inverts.keys_eq (h : s.Inverts t pairs groups) :
    Entries.keys pairs = groups.map (·.1) := by
  obtain ⟨hstand, -⟩ := h
  induction hstand with
  | nil => rfl
  | cons hp _ ih => rw [Entries.keys_cons, List.map_cons, hp.1, ih]

/-- Only new lists are stored. -/
theorem Inverts.fresh (h : s.Inverts t pairs groups) :
    ∀ l ∈ pairs.filterMap (·.2.handle?), s.containers.size ≤ l.target := by
  obtain ⟨hstand, -⟩ := h
  induction hstand with
  | nil => exact fun l hl => absurd hl (by simp)
  | @cons p g _ _ hp _ ih =>
    intro l hl
    obtain ⟨q, hq, hhandle⟩ := List.mem_filterMap.mp hl
    rcases List.mem_cons.mp hq with rfl | hq
    · exact hp.2.fresh hhandle
    · exact ih l (List.mem_filterMap.mpr ⟨q, hq, hhandle⟩)

/-- What is left of the entries without those for the null key alone. -/
theorem Inverts.kept (h : s.Inverts t pairs groups) :
    s.Inverts t (Entries.kept pairs) (groups.filter (·.2 ≠ [.null])) := by
  refine ⟨List.rel_filter (fun p g hp => ?_) h.stand, ?_⟩
  · simpa using hp.2.null_iff.not
  · exact h.apart.sublist (List.filter_sublist.filterMap _)

end Store

namespace Maps

open Entries (inverse spelled)

variable {s : Store} {m : Handle}

theorem mapM_inverts {f : Key × List Value → StoreM (Key × Value)}
    (single : ∀ k v, f (k, [v]) = pure (k, v))
    (several : ∀ k members, 1 < members.length →
      f (k, members) = do return (k, .list (← Lists.sibling m members)))
    {groups : List (Key × List Key)} (h : ∀ g ∈ groups, g.2 ≠ []) (s : Store) :
    ∃ pairs t, ((groups.map spelled).mapM f).run s = (.ok pairs, t) ∧ s.Keeps t ∧
      s.Inverts t pairs groups := by
  induction groups generalizing s with
  | nil => exact ⟨[], s, rfl, .refl s, .nil, .nil⟩
  | cons g rest ih =>
    obtain ⟨hg, hrest⟩ := List.forall_mem_cons.mp h
    obtain ⟨k, members⟩ := g
    rw [List.map_cons, List.mapM_cons]
    by_cases hlen : members.length = 1
    · obtain ⟨key, rfl⟩ := List.length_eq_one_iff.mp hlen
      obtain ⟨pairs, t, hrun, hkeeps, hinverts⟩ := ih hrest s
      refine ⟨(k, key.toValue) :: pairs, t, ?_, hkeeps, .cons ⟨rfl, .single key⟩ hinverts.stand, ?_⟩
      · rw [spelled, List.map_cons, List.map_nil, single, pure_bind, run_bind, hrun]
        rfl
      · have hnone : key.toValue.handle? = none := by cases key <;> rfl
        simpa [hnone] using hinverts.apart
    · have hmany : 1 < members.length := by
        have hpos : 0 < members.length := List.length_pos_of_ne_nil hg
        omega
      obtain ⟨u, hlist, hkeeps, hsize, hitems⟩ := Lists.sibling_run m (members.map Key.toValue) s
      obtain ⟨pairs, t, hrun, hkept, hinverts⟩ := ih hrest u
      have hstands : s.Stands u (.list ⟨s.containers.size, .owner⟩) members :=
        .several hmany rfl (Nat.le_refl _) hitems
      refine ⟨(k, .list ⟨s.containers.size, .owner⟩) :: pairs, t, ?_, hkeeps.trans hkept,
        .cons ⟨rfl, hstands.mono fun l => hkept.items⟩ (hinverts.of_le hkeeps.size_le).stand, ?_⟩
      · rw [spelled, several k _ (by simpa using hmany), run_bind, run_bind, hlist]
        change (do let rest ← (rest.map spelled).mapM f; pure ((k, _) :: rest)).run u = _
        rw [run_bind, hrun]
        rfl
      · -- All lists of the rest are made once this one is there.
        refine List.nodup_cons.mpr ⟨?_, hinverts.apart⟩
        intro hin
        have hle := hinverts.fresh _ hin
        rw [hsize] at hle
        exact absurd hle (by simp)

theorem inverted_ok (m : Handle) (h : ∀ p ∈ s.entries m, p.2.isScalar = true) :
    ∃ pairs t, (inverted m).run s = (.ok pairs, t) ∧ s.Keeps t ∧
      s.Inverts t pairs (inverse (s.entries m)) := by
  obtain ⟨f, hrun, hsingle, hseveral⟩ : ∃ f : Key × List Value → StoreM (Key × Value),
      (inverted m).run s = ((liftM (Entries.inverseGroups (s.entries m)) : StoreM _) >>=
        fun groups => groups.mapM f).run s ∧ (∀ k v, f (k, [v]) = pure (k, v)) ∧
      ∀ k members, 1 < members.length →
        f (k, members) = do return (k, .list (← Lists.sibling m members)) := by
    refine ⟨_, rfl, fun _ _ => rfl, fun k members hlen => ?_⟩
    match members, hlen with
    | _ :: _ :: _, _ => rfl
  rw [hrun, Entries.inverseGroups_ok h]
  exact mapM_inverts hsingle hseveral Entries.inverse_ne_nil s

theorem inverted_error (m : Handle) (h : ∃ p ∈ s.entries m, p.2.isScalar = false) :
    ∃ p ∈ s.entries m, p.2.isScalar = false ∧
      (inverted m).run s = (.error (.typeMismatch "hashable scalar" p.2.typeName), s) := by
  obtain ⟨p, hp, hnot, herror⟩ := Entries.inverseGroups_error h
  refine ⟨p, hp, hnot, ?_⟩
  rw [inverted, run_bind]
  change ((liftM (Entries.inverseGroups (s.entries m)) : StoreM _) >>= _).run s = _
  rw [herror]
  rfl

end Maps

end MeteredScript
