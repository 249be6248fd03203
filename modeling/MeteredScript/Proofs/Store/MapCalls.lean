import MeteredScript.Proofs.Store.ListCalls

/-!
# Calls on maps and sets tell what they change

An entry tells its key, and a value that is replaced is told to be gone before the new one is there.
Nothing can fail any more once a map or a set has begun to change.
-/

namespace MeteredScript

open StoreM (Sure Honest)
open Contents

variable {fits : Prop} {loose : Nat → Prop} {s : Store}

/-! ## Loops -/

theorem StoreM.Sure.forM {α : Type} {items : List α} {f : α → StoreM PUnit}
    (h : ∀ a ∈ items, ∀ t, (fits → Store.Moves loose s t) → Sure fits loose t (f a)) :
    Sure fits loose s (items.forM f) := by
  induction items generalizing s with
  | nil => exact .pure _
  | cons a rest ih =>
    apply Sure.bind (h a List.mem_cons_self s fun _ => .refl)
    intro _ t ht
    apply ih
    intro b hb u hu
    exact h b (List.mem_cons_of_mem a hb) u fun hf => (ht hf).trans (hu hf)

theorem StoreM.Sure.mapM {α β : Type} {items : List α} {f : α → StoreM β}
    (h : ∀ a ∈ items, ∀ t, (fits → Store.Moves loose s t) → Sure fits loose t (f a)) :
    Sure fits loose s (items.mapM f) := by
  induction items generalizing s with
  | nil => exact .pure _
  | cons a rest ih =>
    rw [List.mapM_cons]
    apply Sure.bind (h a List.mem_cons_self s fun _ => .refl)
    intro b t ht
    apply Sure.bind
    · apply ih
      intro c hc u hu
      exact h c (List.mem_cons_of_mem a hc) u fun hf => (ht hf).trans (hu hf)
    · exact fun bs _ _ => .pure (b :: bs)

namespace Maps

variable {m : Handle}

theorem commit_sure {new : Contents} {changes : List (Change × Slot × Value)}
    (h : (entries (s.entries m)).Tells changes new) :
    Sure (s.Fits .map m) loose s (StoreM.commit m new changes) := by
  apply Sure.commit
  intro hfits
  obtain ⟨c, hc, hcontents⟩ := hfits.entries
  exact ⟨c, hc, hcontents ▸ h⟩

theorem store_sure (k : Key) (v : Value) : Sure (s.Fits .map m) loose s (store m k v) := by
  unfold store
  refine .read rfl ?_
  dsimp only
  split
  · exact .bind (commit_sure (tells_erased k _)) fun _ _ _ => .pure _
  · exact .bind (commit_sure (tells_put k v _)) fun _ _ _ => .pure _

theorem storeAll_sure (pairs : List (Key × Value)) :
    Sure (s.Fits .map m) loose s (storeAll m pairs) := by
  unfold storeAll
  apply Sure.forM
  intro p _ t ht
  apply Sure.bind
  · exact (store_sure p.1 p.2).weaken fun hf => (ht hf).fits hf
  · exact fun _ _ _ => .pure _

/-! ## Copies -/

theorem create_sure (account : Nat) (pairs : List (Key × Value)) :
    Sure fits loose s (create account pairs) := by
  unfold create empty
  apply Sure.allocate account rfl
  intro m t hm
  have hfits : t.Fits .map m := by
    obtain ⟨c, hc, hcontents⟩ := Option.map_eq_some_iff.mp hm
    simp [Store.Fits, hc, hcontents, Contents.type]
  exact .bind ((storeAll_sure pairs).weaken fun _ => hfits) fun _ _ _ => .pure m

theorem sibling_sure (m : Handle) (pairs : List (Key × Value)) :
    Sure fits loose s (sibling m pairs) := by
  unfold sibling
  exact .read rfl (create_sure (s.accountOf m) pairs)

theorem keys_honest (m : Handle) : Honest fits loose s (keys m) := by
  unfold keys
  exact .read rfl (.of_sure (Lists.sibling_sure m _))

theorem values_honest (m : Handle) : Honest fits loose s (values m) := by
  unfold values
  exact .read rfl (.of_sure (Lists.sibling_sure m _))

theorem slice_honest (m : Handle) (start stop : Int) :
    Honest fits loose s (slice m start stop) := by
  unfold slice
  exact .read rfl (.of_sure (sibling_sure m _))

theorem duplicate_honest (m : Handle) : Honest fits loose s (duplicate m) := by
  unfold duplicate
  exact .read rfl (.of_sure (sibling_sure m _))

theorem toSortedByKey_honest (m : Handle) (ascending : Bool) :
    Honest fits loose s (toSortedByKey m ascending) := by
  unfold toSortedByKey
  refine .read rfl ?_
  apply Honest.check (Sorting.sortBy_ordinary _ _ _)
  exact fun sorted _ => .of_sure (sibling_sure m sorted)

theorem toSortedByValue_honest (m : Handle) (ascending : Bool) :
    Honest fits loose s (toSortedByValue m ascending) := by
  unfold toSortedByValue
  refine .read rfl ?_
  apply Honest.check (Sorting.sortBy_ordinary _ _ _)
  exact fun sorted _ => .of_sure (sibling_sure m sorted)

theorem toReversed_honest (m : Handle) : Honest fits loose s (toReversed m) := by
  unfold toReversed
  exact .read rfl (.of_sure (sibling_sure m _))

theorem inverted_honest (m : Handle) : Honest fits loose s (inverted m) := by
  unfold inverted
  refine .read rfl ?_
  apply Honest.check (Entries.inverseGroups_ordinary _)
  intro groups _
  apply Honest.of_sure
  apply Sure.mapM
  intro p _ t _
  dsimp only
  split
  · exact .pure _
  · exact .bind (Lists.sibling_sure m _) fun _ _ _ => .pure _

theorem toInverted_honest (m : Handle) : Honest fits loose s (toInverted m) := by
  unfold toInverted
  exact (inverted_honest m).bind fun pairs _ _ => sibling_sure m pairs

/-! ## Changes -/

theorem put_honest (k : Key) (v : Value) : Honest (s.Fits .map m) loose s (put m k v) := by
  unfold put
  apply Honest.check (m.checkOwner_ordinary _)
  exact fun _ _ => .of_sure (store_sure k v)

theorem insert_honest (k : Key) (v : Value) : Honest (s.Fits .map m) loose s (insert m k v) := by
  unfold insert
  apply Honest.check (m.checkOwner_ordinary _)
  intro _ _
  refine .read rfl ?_
  exact .of_sure (.bind (commit_sure (tells_put k v _)) fun _ _ _ => .pure _)

theorem putAll_honest (pairs : List (Key × Value)) :
    Honest (s.Fits .map m) loose s (putAll m pairs) := by
  unfold putAll
  apply Honest.check (m.checkOwner_ordinary _)
  exact fun _ _ => .of_sure (storeAll_sure pairs)

theorem putIfAbsent_honest (k : Key) (v : Value) :
    Honest (s.Fits .map m) loose s (putIfAbsent m k v) := by
  unfold putIfAbsent
  apply Honest.check (m.checkOwner_ordinary _)
  intro _ _
  refine .read rfl ?_
  apply Honest.of_sure
  split
  · exact .pure _
  · split
    · exact .pure _
    · exact store_sure k v

theorem replace_honest (k : Key) (v : Value) : Honest (s.Fits .map m) loose s (replace m k v) := by
  unfold replace
  apply Honest.check (m.checkOwner_ordinary _)
  intro _ _
  refine .read rfl ?_
  apply Honest.of_sure
  split
  · exact store_sure k v
  · exact .pure _

theorem replaceIf_honest (k : Key) (expected v : Value) :
    Honest (s.Fits .map m) loose s (replaceIf m k expected v) := by
  unfold replaceIf
  apply Honest.check (m.checkOwner_ordinary _)
  intro _ _
  refine .read rfl ?_
  apply Honest.of_sure
  split
  · exact .bind (store_sure k v) fun _ _ _ => .pure _
  · exact .pure _

theorem remove_honest (k : Key) : Honest (s.Fits .map m) loose s (remove m k) := by
  unfold remove
  apply Honest.check (m.checkOwner_ordinary _)
  exact fun _ _ => .of_sure (store_sure k .null)

theorem clear_sure (ho : m.checkOwner "clear" = .ok ()) :
    Sure (s.Fits .map m) loose s (clear m) := by
  unfold clear
  apply Sure.check ho
  exact .read rfl (commit_sure (tells_entries_clear _))

theorem clear_honest : Honest (s.Fits .map m) loose s (clear m) := by
  unfold clear
  apply Honest.check (m.checkOwner_ordinary _)
  intro _ _
  refine .read rfl ?_
  exact .of_sure (commit_sure (tells_entries_clear _))

theorem sortByKey_honest (ascending : Bool) :
    Honest (s.Fits .map m) loose s (sortByKey m ascending) := by
  unfold sortByKey
  apply Honest.check (m.checkOwner_ordinary _)
  intro _ _
  refine .read rfl ?_
  apply Honest.check (Sorting.sortBy_ordinary _ _ _)
  exact fun sorted hs => .of_sure (commit_sure (tells_reordered (Sorting.sortBy_perm hs)))

theorem sortByValue_honest (ascending : Bool) :
    Honest (s.Fits .map m) loose s (sortByValue m ascending) := by
  unfold sortByValue
  apply Honest.check (m.checkOwner_ordinary _)
  intro _ _
  refine .read rfl ?_
  apply Honest.check (Sorting.sortBy_ordinary _ _ _)
  exact fun sorted hs => .of_sure (commit_sure (tells_reordered (Sorting.sortBy_perm hs)))

theorem reverse_honest : Honest (s.Fits .map m) loose s (reverse m) := by
  unfold reverse
  apply Honest.check (m.checkOwner_ordinary _)
  intro _ _
  exact .read rfl (.of_sure (commit_sure (tells_reordered (List.reverse_perm _).symm)))

theorem invert_honest : Honest (s.Fits .map m) loose s (invert m) := by
  unfold invert
  apply Honest.check (m.checkOwner_ordinary _)
  intro _ ho
  apply (inverted_honest m).bind
  intro pairs t ht
  apply Sure.bind
  · exact (clear_sure (m.checkOwner_ok ho "clear")).weaken fun hf => (ht hf).fits hf
  · intro _ u hu
    exact (storeAll_sure pairs).weaken fun hf => (hu hf).fits ((ht hf).fits hf)

end Maps

/-! ## Sets -/

namespace Sets

variable {h : Handle}

theorem commit_sure {new : Contents} {changes : List (Change × Slot × Value)}
    (ht : (elements (s.elements h)).Tells changes new) :
    Sure (s.Fits .set h) loose s (StoreM.commit h new changes) := by
  apply Sure.commit
  intro hfits
  obtain ⟨c, hc, hcontents⟩ := hfits.elements
  exact ⟨c, hc, hcontents ▸ ht⟩

theorem insertKey_sure {k : Key} (hk : Key.ofValue k.toValue = .ok k) :
    Sure (s.Fits .set h) loose s (insertKey h k) := by
  unfold insertKey
  refine .read rfl ?_
  split
  · exact .pure _
  · next hnew => exact .bind (commit_sure (tells_insertKey hk hnew)) fun _ _ _ => .pure _

/-- A value without a key ends the making of a set; what was added before is told. -/
theorem create_told (account : Nat) (values : List Value) :
    StoreM.Told fits loose s (create account values) := by
  unfold create empty
  apply StoreM.Told.allocate account rfl
  intro h t ht
  have hfits : t.Fits .set h := by
    obtain ⟨c, hc, hcontents⟩ := Option.map_eq_some_iff.mp ht
    simp [Store.Fits, hc, hcontents, Contents.type]
  apply StoreM.Told.bind
  · apply StoreM.Told.forM
    intro v _ u hu
    apply StoreM.Told.check (Key.ofValue_ordinary v)
    intro k hk
    apply StoreM.Told.of_sure
    apply Sure.bind
    · exact (insertKey_sure (Key.ofValue_toValue hk)).weaken fun hf => (hu hf).fits hfits
    · exact fun _ _ _ => .pure _
  · exact fun _ _ _ => .of_sure (.pure h)

theorem add_honest (v : Value) : Honest (s.Fits .set h) loose s (add h v) := by
  unfold add
  apply Honest.check (h.checkOwner_ordinary _)
  intro _ _
  apply Honest.check (Key.ofValue_ordinary v)
  exact fun k hk => .of_sure (insertKey_sure (Key.ofValue_toValue hk))

theorem remove_honest (v : Value) : Honest (s.Fits .set h) loose s (remove h v) := by
  unfold remove
  apply Honest.check (h.checkOwner_ordinary _)
  intro _ _
  apply Honest.of_sure
  split
  · exact .pure _
  · refine .read rfl ?_
    split
    · next hin => exact .bind (commit_sure (tells_eraseKey hin)) fun _ _ _ => .pure _
    · exact .pure _

theorem clear_honest : Honest (s.Fits .set h) loose s (clear h) := by
  unfold clear
  apply Honest.check (h.checkOwner_ordinary _)
  intro _ _
  exact .read rfl (.of_sure (commit_sure (tells_elements_clear _)))

end Sets

end MeteredScript
