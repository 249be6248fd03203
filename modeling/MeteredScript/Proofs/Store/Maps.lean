import MeteredScript.Proofs.Store.Lists
import MeteredScript.Store.Maps
import MeteredScript.Store.Sets

/-!
# Operations on maps and sets take steps

Whoever holds a map and some values holds what the operations on that map answer. Elements of sets
are scalars, so nothing that is held comes out of a set.
-/

namespace MeteredScript

/-! ## Associations -/

namespace Entries

variable {R : Realm}

theorem put_mem {k : Key} {v : Value} (hv : R.admits v) {pairs : List (Key × Value)}
    (hp : ∀ p ∈ pairs, R.admits p.2) : ∀ p ∈ put k v pairs, R.admits p.2 := by
  induction pairs with
  | nil => exact List.forall_mem_singleton.mpr hv
  | cons q rest ih =>
    obtain ⟨hq, hr⟩ := List.forall_mem_cons.mp hp
    unfold put
    split
    · exact List.forall_mem_cons.mpr ⟨hv, hr⟩
    · exact List.forall_mem_cons.mpr ⟨hq, ih hr⟩

theorem lookup_mem {pairs : List (Key × Value)} (hp : ∀ p ∈ pairs, R.admits p.2) {k : Key}
    {v : Value} (h : pairs.lookup k = some v) : R.admits v :=
  hp (k, v) (mem_of_lookup_eq_some h)

theorem lookup_getD_mem {pairs : List (Key × Value)} (hp : ∀ p ∈ pairs, R.admits p.2) (k : Key) :
    R.admits ((pairs.lookup k).getD .null) := by
  cases h : pairs.lookup k with
  | none => trivial
  | some v => exact lookup_mem hp h

end Entries

namespace StoreM.Safe

variable {R : Realm}

theorem forM {α : Type} {items : List α} {f : α → StoreM PUnit}
    (h : ∀ a ∈ items, StoreM.Safe R (f a) fun _ => True) :
    StoreM.Safe R (items.forM f) fun _ => True := by
  induction items with
  | nil => exact .pure trivial
  | cons a rest ih =>
    obtain ⟨ha, hr⟩ := List.forall_mem_cons.mp h
    exact .bind ha fun _ _ => ih hr

theorem mapM {α β : Type} {items : List α} {f : α → StoreM β} {Q : β → Prop}
    (h : ∀ a ∈ items, StoreM.Safe R (f a) Q) :
    StoreM.Safe R (items.mapM f) (∀ b ∈ ·, Q b) := by
  induction items with
  | nil => exact .pure fun _ hb => absurd hb List.not_mem_nil
  | cons a rest ih =>
    obtain ⟨ha, hr⟩ := List.forall_mem_cons.mp h
    rw [List.mapM_cons]
    refine .bind ha fun b hb => .bind (ih hr) fun bs hbs => ?_
    exact .pure (List.forall_mem_cons.mpr ⟨hb, hbs⟩)

end StoreM.Safe

namespace Maps

open StoreM (Safe)

variable {R : Realm}

theorem values_mem {pairs : List (Key × Value)} (hp : ∀ p ∈ pairs, R.admits p.2) :
    ∀ v ∈ (Contents.entries pairs).values, R.admits v := by
  intro v hv
  obtain ⟨p, hm, rfl⟩ := List.mem_map.mp hv
  exact hp p hm

theorem store_safe {m : Handle} (hm : R.handle m) (ho : m.view = .owner) (k : Key) {v : Value}
    (hv : R.admits v) : Safe R (store m k v) R.admits := by
  unfold store
  refine .bind (.entries m) fun pairs hp => ?_
  have hprev : Safe R (pure ((pairs.lookup k).getD .null)) R.admits :=
    .pure (Entries.lookup_getD_mem hp k)
  dsimp only
  split
  · refine .bind (.commit hm ho (values_mem fun p hq => hp p ?_)) fun _ _ => hprev
    exact List.mem_of_mem_eraseP hq
  · exact .bind (.commit hm ho (values_mem (Entries.put_mem hv hp))) fun _ _ => hprev

theorem storeAll_safe {m : Handle} (hm : R.handle m) (ho : m.view = .owner)
    {pairs : List (Key × Value)} (hp : ∀ p ∈ pairs, R.admits p.2) :
    Safe R (storeAll m pairs) fun _ => True := by
  unfold storeAll
  exact .forM fun p hq => .bind (store_safe hm ho p.1 (hp p hq)) fun _ _ => .pure trivial

theorem create_safe (account : Nat) {pairs : List (Key × Value)}
    (hp : ∀ p ∈ pairs, R.admits p.2) : Safe R (create account pairs) R.handle := by
  unfold create empty
  refine .bind (.allocate account rfl) fun m hm => ?_
  exact .bind (storeAll_safe hm.1 hm.2 hp) fun _ _ => .pure hm.1

theorem sibling_safe (m : Handle) {pairs : List (Key × Value)} (hp : ∀ p ∈ pairs, R.admits p.2) :
    Safe R (sibling m pairs) R.handle := by
  unfold sibling
  exact .bind (.accountOf m) fun account _ => create_safe account hp

/-! ## Copies -/

theorem keys_safe (m : Handle) : Safe R (keys m) R.handle := by
  unfold keys
  refine .bind (.entries m) fun pairs _ => Lists.sibling_safe m fun v hv => ?_
  obtain ⟨p, _, rfl⟩ := List.mem_map.mp hv
  exact Realm.admits_key p.1

theorem values_safe (m : Handle) : Safe R (values m) R.handle := by
  unfold values
  exact .bind (.entries m) fun pairs hp => Lists.sibling_safe m (values_mem hp)

theorem slice_safe (m : Handle) (start stop : Int) : Safe R (slice m start stop) R.handle := by
  unfold slice
  refine .bind (.entries m) fun pairs hp => sibling_safe m fun p hq => ?_
  exact hp p (List.mem_of_mem_take (List.mem_of_mem_drop hq))

theorem duplicate_safe (m : Handle) : Safe R (duplicate m) R.handle := by
  unfold duplicate
  exact .bind (.entries m) fun pairs hp => sibling_safe m hp

theorem toSortedByKey_safe (m : Handle) (ascending : Bool) :
    Safe R (toSortedByKey m ascending) R.handle := by
  unfold toSortedByKey sortedByKey
  refine .bind (.entries m) fun pairs hp => ?_
  refine .bind (.lift fun sorted => Lists.mem_of_sortBy) fun sorted hs => ?_
  exact sibling_safe m fun p hq => hp p (hs p hq)

theorem toSortedByValue_safe (m : Handle) (ascending : Bool) :
    Safe R (toSortedByValue m ascending) R.handle := by
  unfold toSortedByValue sortedByValue
  refine .bind (.entries m) fun pairs hp => ?_
  refine .bind (.lift fun sorted => Lists.mem_of_sortBy) fun sorted hs => ?_
  exact sibling_safe m fun p hq => hp p (hs p hq)

theorem toReversed_safe (m : Handle) : Safe R (toReversed m) R.handle := by
  unfold toReversed
  refine .bind (.entries m) fun pairs hp => sibling_safe m fun p hq => ?_
  exact hp p (List.mem_reverse.mp hq)

theorem addToGroup_mem {g : Key} {v : Value} (hv : R.admits v)
    {groups : List (Key × List Value)} (h : ∀ q ∈ groups, ∀ w ∈ q.2, R.admits w) :
    ∀ q ∈ Entries.addToGroup g v groups, ∀ w ∈ q.2, R.admits w := by
  induction groups with
  | nil => exact List.forall_mem_singleton.mpr (List.forall_mem_singleton.mpr hv)
  | cons q rest ih =>
    obtain ⟨hq, hr⟩ := List.forall_mem_cons.mp h
    unfold Entries.addToGroup
    split
    · refine List.forall_mem_cons.mpr ⟨?_, hr⟩
      exact List.forall_mem_append.mpr ⟨hq, List.forall_mem_singleton.mpr hv⟩
    · exact List.forall_mem_cons.mpr ⟨hq, ih hr⟩

theorem inverseGroups_mem {pairs : List (Key × Value)} {groups : List (Key × List Value)}
    (h : Entries.inverseGroups pairs = .ok groups) :
    ∀ q ∈ groups, ∀ w ∈ q.2, R.admits w := by
  suffices ∀ start : List (Key × List Value), (∀ q ∈ start, ∀ w ∈ q.2, R.admits w) →
      pairs.foldlM (fun groups (p : Key × Value) =>
        return Entries.addToGroup (← Key.ofValue p.2) p.1.toValue groups) start = .ok groups →
      ∀ q ∈ groups, ∀ w ∈ q.2, R.admits w from
    this [] (fun _ hq => absurd hq List.not_mem_nil) h
  clear h
  induction pairs with
  | nil => exact fun start hs he => Except.ok.inj he ▸ hs
  | cons p rest ih =>
    intro start hs he
    rw [List.foldlM_cons] at he
    rcases hk : Key.ofValue p.2 with e | g
    · rw [hk] at he
      cases he
    · rw [hk] at he
      exact ih _ (addToGroup_mem (Realm.admits_key p.1) hs) he

theorem inverted_safe (m : Handle) : Safe R (inverted m) (∀ p ∈ ·, R.admits p.2) := by
  unfold inverted
  refine .bind (.entries m) fun pairs _ => ?_
  refine .bind (.lift fun groups => inverseGroups_mem (R := R)) fun groups hg => ?_
  refine .mapM fun q hq => ?_
  obtain ⟨k, members⟩ := q
  have hsib : Safe R (do return (k, Value.list (← Lists.sibling m members)))
      fun p : Key × Value => R.admits p.2 :=
    .bind (Lists.sibling_safe m (hg _ hq)) fun l hl => .pure hl
  dsimp only
  split
  · exact .pure (hg _ hq _ List.mem_cons_self)
  · exact hsib

theorem toInverted_safe (m : Handle) : Safe R (toInverted m) R.handle := by
  unfold toInverted
  exact .bind (inverted_safe m) fun pairs hp => sibling_safe m hp

/-! ## Changes -/

variable {m : Handle} (hm : R.handle m)

include hm

theorem put_safe (k : Key) {v : Value} (hv : R.admits v) : Safe R (put m k v) R.admits := by
  unfold put
  exact .bind (.checkOwner m _) fun _ ho => store_safe hm ho k hv

theorem insert_safe (k : Key) {v : Value} (hv : R.admits v) : Safe R (insert m k v) R.admits := by
  unfold insert
  refine .bind (.checkOwner m _) fun _ ho => .bind (.entries m) fun pairs hp => ?_
  refine .bind (.commit hm ho (values_mem (Entries.put_mem hv hp))) fun _ _ => ?_
  exact .pure (Entries.lookup_getD_mem hp k)

theorem putAll_safe {pairs : List (Key × Value)} (hp : ∀ p ∈ pairs, R.admits p.2) :
    Safe R (putAll m pairs) fun _ => True := by
  unfold putAll
  exact .bind (.checkOwner m _) fun _ ho => storeAll_safe hm ho hp

theorem putIfAbsent_safe (k : Key) {v : Value} (hv : R.admits v) :
    Safe R (putIfAbsent m k v) R.admits := by
  unfold putIfAbsent
  refine .bind (.checkOwner m _) fun _ ho => .bind (.entries m) fun pairs hp => ?_
  split
  · next w hw => exact .pure (Entries.lookup_mem hp hw)
  · split
    · exact .pure trivial
    · exact store_safe hm ho k hv

theorem replace_safe (k : Key) {v : Value} (hv : R.admits v) :
    Safe R (replace m k v) R.admits := by
  unfold replace
  refine .bind (.checkOwner m _) fun _ ho => .bind (.entries m) fun pairs hp => ?_
  split
  · exact store_safe hm ho k hv
  · exact .pure trivial

theorem replaceIf_safe (k : Key) (expected : Value) {v : Value} (hv : R.admits v) :
    Safe R (replaceIf m k expected v) fun _ => True := by
  unfold replaceIf
  refine .bind (.checkOwner m _) fun _ ho => .bind .current fun s _ => ?_
  split
  · exact .bind (store_safe hm ho k hv) fun _ _ => .pure trivial
  · exact .pure trivial

theorem remove_safe (k : Key) : Safe R (remove m k) R.admits := by
  unfold remove
  exact .bind (.checkOwner m _) fun _ ho => store_safe hm ho k trivial

theorem clear_safe : Safe R (clear m) fun _ => True := by
  unfold clear
  refine .bind (.checkOwner m _) fun _ ho => .bind (.entries m) fun pairs _ => ?_
  exact .commit hm ho fun _ hv => absurd hv List.not_mem_nil

theorem sortByKey_safe (ascending : Bool) : Safe R (sortByKey m ascending) fun _ => True := by
  unfold sortByKey sortedByKey
  refine .bind (.checkOwner m _) fun _ ho => .bind (.entries m) fun pairs hp => ?_
  refine .bind (.lift fun sorted => Lists.mem_of_sortBy) fun sorted hs => ?_
  exact .commit hm ho (values_mem fun p hq => hp p (hs p hq))

theorem sortByValue_safe (ascending : Bool) : Safe R (sortByValue m ascending) fun _ => True := by
  unfold sortByValue sortedByValue
  refine .bind (.checkOwner m _) fun _ ho => .bind (.entries m) fun pairs hp => ?_
  refine .bind (.lift fun sorted => Lists.mem_of_sortBy) fun sorted hs => ?_
  exact .commit hm ho (values_mem fun p hq => hp p (hs p hq))

theorem reverse_safe : Safe R (reverse m) fun _ => True := by
  unfold reverse
  refine .bind (.checkOwner m _) fun _ ho => .bind (.entries m) fun pairs hp => ?_
  exact .commit hm ho (values_mem fun p hq => hp p (List.mem_reverse.mp hq))

theorem invert_safe : Safe R (invert m) fun _ => True := by
  unfold invert
  refine .bind (.checkOwner m _) fun _ ho => .bind (inverted_safe m) fun pairs hp => ?_
  exact .bind (clear_safe hm) fun _ _ => storeAll_safe hm ho hp

end Maps

/-! ## Sets -/

namespace Sets

open StoreM (Safe)

variable {R : Realm}

theorem values_mem (keys : List Key) : ∀ v ∈ (Contents.elements keys).values, R.admits v := by
  intro v hv
  obtain ⟨k, _, rfl⟩ := List.mem_map.mp hv
  exact Realm.admits_key k

theorem insertKey_safe {h : Handle} (hh : R.handle h) (ho : h.view = .owner) (k : Key) :
    Safe R (insertKey h k) fun _ => True := by
  unfold insertKey
  refine .bind (.elements h) fun keys _ => ?_
  split
  · exact .pure trivial
  · exact .bind (.commit hh ho (values_mem _)) fun _ _ => .pure trivial

theorem create_safe (account : Nat) (values : List Value) :
    Safe R (create account values) R.handle := by
  unfold create empty
  refine .bind (.allocate account rfl) fun h hh => ?_
  refine .bind (.forM fun v _ => ?_) fun _ _ => .pure hh.1
  refine .check fun k => ?_
  exact .bind (insertKey_safe hh.1 hh.2 k) fun _ _ => .pure trivial

variable {h : Handle} (hh : R.handle h)

include hh

theorem add_safe (v : Value) : Safe R (add h v) fun _ => True := by
  unfold add
  refine .bind (.checkOwner h _) fun _ ho => ?_
  exact .check fun k => insertKey_safe hh ho k

theorem remove_safe (v : Value) : Safe R (remove h v) fun _ => True := by
  unfold remove
  refine .bind (.checkOwner h _) fun _ ho => ?_
  split
  · exact .pure trivial
  · refine .bind (.elements h) fun keys _ => ?_
    split
    · exact .bind (.commit hh ho (values_mem _)) fun _ _ => .pure trivial
    · exact .pure trivial

theorem clear_safe : Safe R (clear h) fun _ => True := by
  unfold clear
  refine .bind (.checkOwner h _) fun _ ho => .bind (.elements h) fun keys _ => ?_
  exact .commit hh ho (values_mem _)

end Sets

end MeteredScript
