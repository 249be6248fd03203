import MeteredScript.Proofs.Store.Entries
import MeteredScript.Proofs.Store.MapCalls

/-!
# What maps come to hold

Entries are stored one after another, and a null takes its key away. So from no entries at all,
pairs with different keys are what the map holds then, in their order, except for those whose value
is null. Other containers stay as they were, and a new map or list is one that was not there.
-/

namespace MeteredScript

namespace Entries

variable {held pairs : List (Key × Value)}

/-- What is held once pairs were stored one after another. -/
def storeAll (held pairs : List (Key × Value)) : List (Key × Value) :=
  pairs.foldl (fun held p => if p.2 = .null then erase p.1 held else put p.1 p.2 held) held

/-- The pairs whose value is not null. -/
def kept (pairs : List (Key × Value)) : List (Key × Value) := pairs.filter (·.2 ≠ .null)

theorem kept_eq_self : kept pairs = pairs ↔ ∀ p ∈ pairs, p.2 ≠ .null := by simp [kept]

theorem kept_kept (pairs : List (Key × Value)) : kept (kept pairs) = kept pairs := by simp [kept]

theorem put_of_not_mem {k : Key} {v : Value} (h : k ∉ keys pairs) :
    put k v pairs = pairs ++ [(k, v)] := by
  induction pairs with
  | nil => rfl
  | cons p rest ih =>
    obtain ⟨hne, hrest⟩ : ¬ k = p.1 ∧ k ∉ keys rest := by simpa using h
    obtain ⟨k', w⟩ := p
    simp only [put, if_neg (Ne.symm hne), ih hrest, List.cons_append]

/-- Nothing that is held has to give way to pairs with new keys. -/
theorem storeAll_of_nodup (h : (keys (held ++ pairs)).Nodup) :
    storeAll held pairs = held ++ kept pairs := by
  induction pairs generalizing held with
  | nil => simp [storeAll, kept]
  | cons p rest ih =>
    have hnew : p.1 ∉ keys held := by
      intro hp
      rw [keys_append, List.nodup_append] at h
      exact h.2.2 p.1 hp p.1 List.mem_cons_self rfl
    by_cases hp : p.2 = .null
    · have hrest : (keys (held ++ rest)).Nodup :=
        h.sublist (((List.sublist_cons_self p rest).append_left held).map _)
      have hstep : storeAll held (p :: rest) = storeAll held rest := by
        rw [storeAll, List.foldl_cons, if_pos hp, erase_of_not_mem hnew, storeAll]
      rw [hstep, ih hrest, kept, kept, List.filter_cons_of_neg (by simpa using hp)]
    · have hrest : (keys ((held ++ [p]) ++ rest)).Nodup := by
        rwa [List.append_assoc, List.singleton_append]
      have hstep : storeAll held (p :: rest) = storeAll (held ++ [p]) rest := by
        rw [storeAll, List.foldl_cons, if_neg hp, put_of_not_mem hnew, storeAll]
      rw [hstep, ih hrest, kept, kept, List.filter_cons_of_pos (by simpa using hp),
        List.append_assoc, List.singleton_append]

theorem storeAll_nil (h : (keys pairs).Nodup) : storeAll [] pairs = kept pairs := by
  rw [storeAll_of_nodup (by simpa using h), List.nil_append]

end Entries

namespace Store

variable {s t u : Store} {m : Handle} {pairs : List (Key × Value)}

/-! ## What stays -/

/-- The containers that were there are as they were, their memory included. -/
def Keeps (s t : Store) : Prop :=
  ∀ (n : Nat) (c : Container), s.containers[n]? = some c → t.containers[n]? = some c

theorem Keeps.refl (s : Store) : s.Keeps s := fun _ _ hc => hc

theorem Keeps.trans (h : s.Keeps t) (k : t.Keeps u) : s.Keeps u := fun n c hc => k n c (h n c hc)

theorem Keeps.size_le (h : s.Keeps t) : s.containers.size ≤ t.containers.size := by
  by_contra hlt
  have hc := h _ _ (Array.getElem?_eq_getElem (Nat.lt_of_not_le hlt))
  exact absurd (Array.getElem?_eq_some_iff.mp hc).1 (Nat.lt_irrefl _)

theorem Keeps.fits (h : s.Keeps t) {kind : ValueType} {l : Handle} (hl : s.Fits kind l) :
    t.Fits kind l := by
  obtain ⟨c, hc, hk⟩ := Option.map_eq_some_iff.mp hl
  rw [Fits, h _ c hc, Option.map_some, hk]

/-- There is a list where elements were found. -/
theorem Keeps.items (h : s.Keeps t) {l : Handle} (hl : s.items l ≠ []) :
    t.items l = s.items l := by
  cases hc : s.containers[l.target]? with
  | none =>
    rw [Store.items, hc] at hl
    exact absurd rfl hl
  | some c => rw [Store.items, h _ c hc, Store.items, hc]

theorem Fits.items_eq_nil (hm : s.Fits .map m) {l : Handle} (hl : l.target = m.target) :
    s.items l = [] := by
  obtain ⟨c, hc, hcontents⟩ := hm.entries
  obtain ⟨id, account, memory, contents⟩ := c
  obtain rfl := hcontents
  rw [Store.items, hl, hc]

theorem allocate_keeps (s : Store) (account : Nat) (contents : Contents) :
    s.Keeps (s.allocate account contents).2 := by
  intro n c hc
  have hn := (Array.getElem?_eq_some_iff.mp hc).1
  simpa [Store.allocate, Array.getElem?_push, Nat.ne_of_lt hn] using hc

/-- A new map is no list. -/
theorem items_allocate_map (s : Store) (account : Nat) (l : Handle) :
    (s.allocate account (.entries [])).2.items l = s.items l := by
  simp only [Store.items, Store.allocate, Array.getElem?_push]
  by_cases hl : l.target = s.containers.size
  · simp [hl]
  · simp [hl]

theorem getElem?_commit_self {n : Nat} {c : Container} (hc : s.containers[n]? = some c)
    (new : Contents) (changes : List (Change × Slot × Value)) :
    ∃ d, (s.commit n new changes).containers[n]? = some d ∧ d.contents = new := by
  have hcontents := s.commit_contents n new changes n
  rw [if_pos rfl, hc, Option.map_some] at hcontents
  exact Option.map_eq_some_iff.mp hcontents

/-! ## What a map is left with -/

/-- From one store to the other nothing happened but to one map, which holds the pairs then. -/
structure Writes (s : Store) (m : Handle) (pairs : List (Key × Value)) (t : Store) : Prop where
  fits : t.Fits .map m
  entries : t.entries m = pairs
  others : ∀ n, n ≠ m.target → t.containers[n]? = s.containers[n]?

theorem Writes.refl (hm : s.Fits .map m) : s.Writes m (s.entries m) s := ⟨hm, rfl, fun _ _ => rfl⟩

theorem Writes.trans {other : List (Key × Value)} (h : s.Writes m other t)
    (k : t.Writes m pairs u) : s.Writes m pairs u :=
  ⟨k.fits, k.entries, fun n hn => (k.others n hn).trans (h.others n hn)⟩

theorem Writes.items (hm : s.Fits .map m) (h : s.Writes m pairs t) (l : Handle) :
    t.items l = s.items l := by
  by_cases hl : l.target = m.target
  · rw [h.fits.items_eq_nil hl, hm.items_eq_nil hl]
  · rw [Store.items, h.others _ hl, Store.items]

theorem Fits.commit (hm : s.Fits .map m) (pairs : List (Key × Value))
    (changes : List (Change × Slot × Value)) :
    s.Writes m pairs (s.commit m.target (.entries pairs) changes) := by
  obtain ⟨c, hc, -⟩ := hm.entries
  obtain ⟨⟨id, account, memory, contents⟩, hd, rfl⟩ :=
    getElem?_commit_self hc (.entries pairs) changes
  refine ⟨?_, ?_, fun n hn => getElem?_commit_of_ne (Ne.symm hn) ..⟩
  · rw [Fits, hd]
    rfl
  · rw [Store.entries, hd]

/-- A new map holds the pairs, and all the rest is as it was. -/
structure Copied (s : Store) (c : Handle) (pairs : List (Key × Value)) (t : Store) : Prop where
  owner : c.view = .owner
  fresh : s.containers.size ≤ c.target
  fits : t.Fits .map c
  entries : t.entries c = pairs
  keeps : s.Keeps t

end Store

namespace Lists

/-- A new list comes next to those that are there. -/
theorem sibling_run (m : Handle) (values : List Value) (s : Store) :
    ∃ t, (sibling m values).run s = (.ok ⟨s.containers.size, .owner⟩, t) ∧ s.Keeps t ∧
      t.containers.size = s.containers.size + 1 ∧
      t.items ⟨s.containers.size, .owner⟩ = values := by
  let u := (s.allocate (s.accountOf m) (.items [])).2
  have hsize : u.containers.size = s.containers.size + 1 := by simp [u, Store.allocate]
  have hnew : s.containers.size < u.containers.size := by omega
  refine ⟨u.commit s.containers.size (.items values) (addedRun 0 values), rfl, ?_, ?_, ?_⟩
  · intro n c hc
    have hn := (Array.getElem?_eq_some_iff.mp hc).1
    rw [Store.getElem?_commit_of_ne (Nat.ne_of_gt hn)]
    exact s.allocate_keeps _ _ n c hc
  · rw [Store.size_commit, hsize]
  · obtain ⟨⟨id, account, memory, contents⟩, hd, rfl⟩ := Store.getElem?_commit_self
      (Array.getElem?_eq_getElem hnew) (.items values) (addedRun 0 values)
    rw [Store.items, hd]

end Lists

namespace Maps

variable {s : Store} {m : Handle}

theorem store_writes (hm : s.Fits .map m) (k : Key) (v : Value) :
    ∃ w t, (store m k v).run s = (.ok w, t) ∧ s.Writes m
      (if v = .null then Entries.erase k (s.entries m) else Entries.put k v (s.entries m)) t := by
  unfold store
  by_cases hv : v = .null
  · simp only [if_pos hv]
    exact ⟨_, _, rfl, hm.commit _ _⟩
  · simp only [if_neg hv]
    exact ⟨_, _, rfl, hm.commit _ _⟩

theorem storeAll_writes (hm : s.Fits .map m) (pairs : List (Key × Value)) :
    ∃ t, (storeAll m pairs).run s = (.ok (), t) ∧
      s.Writes m (Entries.storeAll (s.entries m) pairs) t := by
  induction pairs generalizing s with
  | nil => exact ⟨s, rfl, .refl hm⟩
  | cons p rest ih =>
    obtain ⟨w, t, hstore, ht⟩ := store_writes hm p.1 p.2
    obtain ⟨u, hrest, hu⟩ := ih ht.fits
    refine ⟨u, ?_, ?_⟩
    · change ((store m p.1 p.2 >>= fun _ => pure ()) >>= fun _ => storeAll m rest).run s = _
      rw [run_bind, run_bind, hstore]
      exact hrest
    · rw [ht.entries] at hu
      exact ht.trans hu

theorem insert_writes (hm : s.Fits .map m) (ho : m.view = .owner) (k : Key) (v : Value) :
    ∃ w t, (insert m k v).run s = (.ok w, t) ∧ s.Writes m (Entries.put k v (s.entries m)) t := by
  obtain ⟨target, view⟩ := m
  obtain rfl := ho
  exact ⟨_, _, rfl, hm.commit _ _⟩

theorem clear_writes (hm : s.Fits .map m) (ho : m.view = .owner) :
    ∃ t, (clear m).run s = (.ok (), t) ∧ s.Writes m [] t := by
  obtain ⟨target, view⟩ := m
  obtain rfl := ho
  exact ⟨_, rfl, hm.commit _ _⟩

theorem sibling_copied (m : Handle) {pairs : List (Key × Value)}
    (h : (Entries.keys pairs).Nodup) (s : Store) :
    ∃ c t, (sibling m pairs).run s = (.ok c, t) ∧ s.Copied c (Entries.kept pairs) t ∧
      ∀ l, t.items l = s.items l := by
  let u := (s.allocate (s.accountOf m) (.entries [])).2
  let c : Handle := ⟨s.containers.size, .owner⟩
  have hc : u.Fits .map c := by simp [Store.Fits, u, c, Store.allocate, Contents.type]
  have hempty : u.entries c = [] := by simp [Store.entries, u, c, Store.allocate]
  obtain ⟨t, hrun, ht⟩ := storeAll_writes hc pairs
  rw [hempty, Entries.storeAll_nil h] at ht
  refine ⟨c, t, ?_, ⟨rfl, Nat.le_refl _, ht.fits, ht.entries, ?_⟩, fun l => ?_⟩
  · change (storeAll c pairs >>= fun _ => pure c).run u = _
    rw [run_bind, hrun]
    rfl
  · intro n d hd
    have hn := (Array.getElem?_eq_some_iff.mp hd).1
    rw [ht.others n (Nat.ne_of_lt hn)]
    exact s.allocate_keeps _ _ n d hd
  · rw [ht.items hc, Store.items_allocate_map]

end Maps

end MeteredScript
