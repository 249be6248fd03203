import MeteredScript.Proofs.Store.Comparing
import MeteredScript.Proofs.Store.ListWriting

/-!
# What new containers come to hold

A new list, map or set is one container more, behind those that there are, and what it holds depends
on the given values alone: a list holds the values, a map what is left when its pairs were stored
one after another, and a set each key once. A store that was whole is whole with it.
-/

namespace MeteredScript

namespace Store

variable {s t u : Store}

/-- One container more than before, which holds this. -/
structure Adds (s : Store) (c : Contents) (t : Store) : Prop where
  keeps : s.Keeps t
  size : t.containers.size = s.containers.size + 1
  contents : t.containers[s.containers.size]?.map (·.contents) = some c

theorem Keeps.has (h : s.Keeps t) {v : Value} (hv : s.Has v) : t.Has v :=
  fun l hl => h.fits (hv l hl)

theorem Adds.getElem?_contents {c : Contents} (h : s.Adds c t) (n : Nat) :
    t.containers[n]?.map (·.contents) =
      if n = s.containers.size then some c else s.containers[n]?.map (·.contents) := by
  split
  · next heq => exact heq ▸ h.contents
  · next hne =>
    cases hn : s.containers[n]? with
    | some d => rw [h.keeps n d hn]
    | none =>
      have := Array.getElem?_eq_none_iff.mp hn
      rw [Array.getElem?_eq_none (h.size ▸ by omega)]

theorem Adds.fits {c : Contents} (h : s.Adds c t) :
    t.Fits c.type ⟨s.containers.size, .owner⟩ := by
  obtain ⟨d, hd, rfl⟩ := Option.map_eq_some_iff.mp h.contents
  rw [Fits, hd]
  rfl

theorem Adds.items {values : List Value} (h : s.Adds (.items values) t) :
    t.items ⟨s.containers.size, .owner⟩ = values := by
  obtain ⟨⟨id, account, memory, contents⟩, hd, rfl⟩ := Option.map_eq_some_iff.mp h.contents
  rw [Store.items, hd]

theorem Whole.adds {c : Contents} (hs : s.Whole) (h : s.Adds c t) (keys : c.keys.Nodup)
    (values : ∀ v ∈ c.values, s.Has v) : t.Whole := by
  have found {n : Nat} {d : Container} (hn : t.containers[n]? = some d) :
      d.contents = c ∨ ∃ d₀, s.containers[n]? = some d₀ ∧ d₀.contents = d.contents := by
    have hat := h.getElem?_contents n
    rw [hn, Option.map_some] at hat
    split at hat
    · exact .inl (Option.some.inj hat)
    · exact .inr (Option.map_eq_some_iff.mp hat.symm)
  constructor
  case keys =>
    intro n d hn
    rcases found hn with hc | ⟨d₀, hd₀, hc⟩
    · exact hc ▸ keys
    · exact hc ▸ hs.keys n d₀ hd₀
  case values =>
    intro n d hn v hv
    rcases found hn with hc | ⟨d₀, hd₀, hc⟩
    · exact h.keeps.has (values v (hc ▸ hv))
    · exact h.keeps.has (hs.values n d₀ hd₀ v (hc ▸ hv))

/-- Nothing happens but to one container, which holds this then. -/
structure Renews (s : Store) (n : Nat) (c : Contents) (t : Store) : Prop where
  contents : t.containers[n]?.map (·.contents) = some c
  others : ∀ i, i ≠ n → t.containers[i]? = s.containers[i]?

theorem Renews.trans {n : Nat} {c d : Contents} (h : s.Renews n c t) (k : t.Renews n d u) :
    s.Renews n d u :=
  ⟨k.contents, fun i hi => (k.others i hi).trans (h.others i hi)⟩

theorem Renews.size {n : Nat} {c : Contents} (h : s.Renews n c t) (hn : n < s.containers.size) :
    t.containers.size = s.containers.size := by
  obtain ⟨d, hd, -⟩ := Option.map_eq_some_iff.mp h.contents
  have ht := (Array.getElem?_eq_some_iff.mp hd).1
  rcases Nat.lt_trichotomy t.containers.size s.containers.size with hlt | heq | hlt
  · have := h.others _ (Nat.ne_of_gt ht)
    rw [Array.getElem?_eq_none (Nat.le_refl _), Array.getElem?_eq_getElem hlt] at this
    cases this
  · exact heq
  · have := h.others _ (Nat.ne_of_gt hn)
    rw [Array.getElem?_eq_none (Nat.le_refl _), Array.getElem?_eq_getElem hlt] at this
    cases this

theorem renews_commit {n : Nat} {c : Container} (hc : s.containers[n]? = some c) (new : Contents)
    (changes : List (Change × Slot × Value)) : s.Renews n new (s.commit n new changes) := by
  obtain ⟨d, hd, heq⟩ := getElem?_commit_self hc new changes
  refine ⟨?_, fun i hi => getElem?_commit_of_ne (Ne.symm hi) ..⟩
  rw [hd, Option.map_some, heq]

theorem getElem?_allocate (s : Store) (account : Nat) (blank : Contents) :
    ∃ c, (s.allocate account blank).2.containers[s.containers.size]? = some c ∧
      c.contents = blank :=
  ⟨_, Array.getElem?_push_size, rfl⟩

/-- A container that was just made, and since then has been the only one to change. -/
theorem Renews.adds {account : Nat} {blank c : Contents}
    (h : (s.allocate account blank).2.Renews s.containers.size c t) : s.Adds c t := by
  have hsize : (s.allocate account blank).2.containers.size = s.containers.size + 1 :=
    Array.size_push _
  constructor
  case keeps =>
    intro n d hd
    have hn := (Array.getElem?_eq_some_iff.mp hd).1
    rw [h.others n (Nat.ne_of_lt hn)]
    exact s.allocate_keeps _ _ n d hd
  case size => rw [h.size (hsize ▸ Nat.lt_succ_self _), hsize]
  case contents => exact h.contents

end Store

/-! ## Lists -/

theorem Lists.create_adds (account : Nat) (values : List Value) (s : Store) :
    ∃ t, (create account values).run s = (.ok ⟨s.containers.size, .owner⟩, t) ∧
      s.Adds (.items values) t := by
  obtain ⟨c, hc, -⟩ := s.getElem?_allocate account (.items [])
  exact ⟨_, rfl, (Store.renews_commit hc (.items values) (addedRun 0 values)).adds⟩

/-! ## Maps -/

namespace Entries

theorem storeAll_keys_nodup {held : List (Key × Value)} (h : (keys held).Nodup)
    (pairs : List (Key × Value)) : (keys (storeAll held pairs)).Nodup := by
  induction pairs generalizing held with
  | nil => exact h
  | cons p rest ih =>
    refine ih ?_
    dsimp only
    split
    · exact keys_erase_nodup h
    · exact (keys_perm put_perm).nodup_iff.mpr
        (List.nodup_cons.mpr ⟨not_mem_keys_erase h, keys_erase_nodup h⟩)

theorem mem_storeAll {held pairs : List (Key × Value)} {p : Key × Value}
    (h : p ∈ storeAll held pairs) : p ∈ held ∨ p ∈ pairs := by
  induction pairs generalizing held with
  | nil => exact .inl h
  | cons q rest ih =>
    rcases ih h with hheld | hrest
    · dsimp only at hheld
      split at hheld
      · exact .inl (List.mem_of_mem_eraseP hheld)
      · rcases List.mem_cons.mp (put_perm.mem_iff.mp hheld) with rfl | hheld
        · exact .inr List.mem_cons_self
        · exact .inl (List.mem_of_mem_eraseP hheld)
    · exact .inr (List.mem_cons_of_mem _ hrest)

end Entries

theorem Maps.create_adds (account : Nat) (pairs : List (Key × Value)) (s : Store) :
    ∃ t, (create account pairs).run s = (.ok ⟨s.containers.size, .owner⟩, t) ∧
      s.Adds (.entries (Entries.storeAll [] pairs)) t := by
  let u := (s.allocate account (.entries [])).2
  let m : Handle := ⟨s.containers.size, .owner⟩
  obtain ⟨c, hc, hblank⟩ := s.getElem?_allocate account (.entries [])
  have hm : u.Fits .map m := by rw [Store.Fits, hc, Option.map_some, hblank]; rfl
  obtain ⟨t, hrun, ht⟩ := storeAll_writes hm pairs
  have hempty : u.entries m = [] := by
    have := hm.contents_entries
    rw [hc, Option.map_some, hblank] at this
    exact (Contents.entries.inj (Option.some.inj this)).symm
  rw [hempty] at ht
  have hrenews : u.Renews s.containers.size (.entries (Entries.storeAll [] pairs)) t :=
    ⟨ht.entries ▸ ht.fits.contents_entries, ht.others⟩
  refine ⟨t, ?_, hrenews.adds⟩
  change (storeAll m pairs >>= fun _ => pure m).run u = _
  rw [run_bind, hrun]
  rfl

/-! ## Sets -/

namespace Sets

/-- The keys of values behind others, each of them once. -/
def collect (keys : List Key) : List Value → Except Fault (List Key)
  | [] => .ok keys
  | v :: rest => do
    let k ← Key.ofValue v
    collect (if k ∈ keys then keys else keys ++ [k]) rest

theorem collect_nodup {keys keys' : List Key} {values : List Value} (h : keys.Nodup)
    (hc : collect keys values = .ok keys') : keys'.Nodup := by
  induction values generalizing keys with
  | nil => exact Except.ok.inj hc ▸ h
  | cons v rest ih =>
    unfold collect at hc
    cases hk : Key.ofValue v with
    | error f => cases (hk ▸ hc)
    | ok k =>
      rw [hk] at hc
      refine ih ?_ hc
      split
      · exact h
      · next hnew =>
        exact (List.perm_append_singleton k keys).nodup_iff.mpr (List.nodup_cons.mpr ⟨hnew, h⟩)

variable {s : Store} {h : Handle}

theorem insertKey_renews {keys : List Key}
    (hs : s.containers[h.target]?.map (·.contents) = some (.elements keys)) (k : Key) :
    ∃ b t, (insertKey h k).run s = (.ok b, t) ∧
      s.Renews h.target (.elements (if k ∈ keys then keys else keys ++ [k])) t := by
  obtain ⟨⟨id, account, memory, contents⟩, hc, rfl⟩ := Option.map_eq_some_iff.mp hs
  have helements : s.elements h = keys := by rw [Store.elements, hc]
  have hrun : (insertKey h k).run s = ((if k ∈ s.elements h then return false else do
      StoreM.commit h (.elements (s.elements h ++ [k])) [(.added, .element, k.toValue)]
      return true : StoreM Bool)).run s := rfl
  rw [hrun, helements]
  split
  · exact ⟨_, _, rfl, hs, fun _ _ => rfl⟩
  · exact ⟨_, _, rfl, Store.renews_commit hc _ _⟩

theorem insertAll_renews {keys : List Key}
    (hs : s.containers[h.target]?.map (·.contents) = some (.elements keys)) (values : List Value) :
    ∃ t, (values.forM fun v => do
        let k ← liftM (Key.ofValue v)
        let _ ← insertKey h k : StoreM PUnit).run s = ((collect keys values).map fun _ => ⟨⟩, t) ∧
      (∀ i, i ≠ h.target → t.containers[i]? = s.containers[i]?) ∧
      ∀ keys', collect keys values = .ok keys' → s.Renews h.target (.elements keys') t := by
  induction values generalizing s keys with
  | nil => exact ⟨s, rfl, fun _ _ => rfl, fun keys' hk => ⟨Except.ok.inj hk ▸ hs, fun _ _ => rfl⟩⟩
  | cons v rest ih =>
    let add (v : Value) : StoreM PUnit := do
      let k ← liftM (Key.ofValue v)
      let _ ← insertKey h k
    have hcons : (v :: rest).forM add = (add v >>= fun _ => rest.forM add) := rfl
    change ∃ t, ((v :: rest).forM add).run s = _ ∧ _
    rw [hcons, run_bind, collect]
    cases hk : Key.ofValue v with
    | error f =>
      have hadd : (add v).run s = (.error f, s) := by
        change (liftM (Key.ofValue v) >>= _ : StoreM PUnit).run s = _
        rw [hk]
        rfl
      rw [hadd]
      refine ⟨s, rfl, fun _ _ => rfl, ?_⟩
      intro keys' hk
      cases hk
    | ok k =>
      obtain ⟨b, t, hrun, ht⟩ := insertKey_renews hs k
      obtain ⟨u, hrest, hothers, hu⟩ := ih ht.contents
      have hadd : (add v).run s = (.ok ⟨⟩, t) := by
        change (liftM (Key.ofValue v) >>= _ : StoreM PUnit).run s = _
        rw [hk]
        change (insertKey h k >>= fun _ => pure ⟨⟩ : StoreM PUnit).run s = _
        rw [run_bind, hrun]
        rfl
      rw [hadd]
      refine ⟨u, hrest, fun i hi => (hothers i hi).trans (ht.others i hi), fun keys' hk' => ?_⟩
      exact ht.trans (hu keys' hk')

theorem create_adds (account : Nat) (values : List Value) (s : Store) :
    ∃ t, (create account values).run s =
        ((collect [] values).map fun _ => ⟨s.containers.size, .owner⟩, t) ∧
      s.Keeps t ∧ ∀ keys, collect [] values = .ok keys → s.Adds (.elements keys) t := by
  let u := (s.allocate account (.elements [])).2
  let h : Handle := ⟨s.containers.size, .owner⟩
  obtain ⟨c, hc, hblank⟩ := s.getElem?_allocate account (.elements [])
  have hu : u.containers[h.target]?.map (·.contents) = some (.elements []) := by
    rw [hc, Option.map_some, hblank]
  obtain ⟨t, hrun, hothers, ht⟩ := insertAll_renews hu values
  refine ⟨t, ?_, fun n d hd => ?_, fun keys hk => (ht keys hk).adds⟩
  · change (_ >>= fun _ => pure h : StoreM Handle).run u = _
    rw [run_bind, hrun]
    cases collect [] values <;> rfl
  · rw [hothers n (Nat.ne_of_lt (Array.getElem?_eq_some_iff.mp hd).1)]
    exact s.allocate_keeps _ _ n d hd

end Sets

end MeteredScript
