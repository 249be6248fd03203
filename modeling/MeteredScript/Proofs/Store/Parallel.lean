import MeteredScript.Proofs.Store.Copies
import MeteredScript.Proofs.Store.Maps

/-!
# Operations on a store and on its copy

Two operations run in parallel, one on a store and one on a store with a copy of it, if they fail
with the same error, or both have a result, the copy stays a copy, and the results are related. How
they are related depends on how many containers there are by then. New lists, maps and sets are made
in parallel from copied values.
-/

namespace MeteredScript

variable {ε σ α β γ δ : Type}

/-- What two operations that run in parallel come to, from a store of at least `m` containers. -/
inductive Alike (store : σ → Store) (n m : Nat) (Q : Nat → α → β → Prop) :
    Except ε α × σ → Except ε β × σ → Prop
  | error (e : ε) (s t : σ) : Alike store n m Q (.error e, s) (.error e, t)
  | ok (a : α) (b : β) (s t : σ) (copies : (store s).Copies n (store t))
      (grown : m ≤ (store s).containers.size) (related : Q (store s).containers.size a b) :
      Alike store n m Q (.ok a, s) (.ok b, t)

/-- The two operations run in parallel from a store of at least `k` containers and a copy that is
`n` places further on. -/
def Parallel (store : σ → Store) (n k : Nat) (x : ExceptT ε (StateM σ) α)
    (y : ExceptT ε (StateM σ) β) (Q : Nat → α → β → Prop) : Prop :=
  ∀ s t : σ, (store s).Copies n (store t) → k ≤ (store s).containers.size →
    Alike store n (store s).containers.size Q (x.run s) (y.run t)

namespace Parallel

variable {store : σ → Store} {n k : Nat}

theorem pure {a : α} {b : β} {Q : Nat → α → β → Prop} (h : ∀ k', k ≤ k' → Q k' a b) :
    Parallel store n k (pure a : ExceptT ε (StateM σ) α) (pure b) Q :=
  fun s t hc hk => .ok a b s t hc (Nat.le_refl _) (h _ hk)

theorem throw (e : ε) (Q : Nat → α → β → Prop) :
    Parallel store n k (throw e : ExceptT ε (StateM σ) α) (throw e) Q :=
  fun s t _ _ => .error e s t

theorem lift {x : Except ε α} {Q : Nat → α → α → Prop} (h : ∀ k' a, Q k' a a) :
    Parallel store n k (liftM x : ExceptT ε (StateM σ) α) (liftM x) Q := by
  cases x with
  | ok a => exact .pure fun k' _ => h k' a
  | error e => exact .throw e Q

theorem mono {x : ExceptT ε (StateM σ) α} {y : ExceptT ε (StateM σ) β} {Q : Nat → α → β → Prop}
    (h : Parallel store n k x y Q) {k' : Nat} (hk : k ≤ k') : Parallel store n k' x y Q :=
  fun s t hc hs => h s t hc (Nat.le_trans hk hs)

theorem bind {x : ExceptT ε (StateM σ) α} {y : ExceptT ε (StateM σ) β}
    {f : α → ExceptT ε (StateM σ) γ} {g : β → ExceptT ε (StateM σ) δ} {P : Nat → α → β → Prop}
    {Q : Nat → γ → δ → Prop} (hx : Parallel store n k x y P)
    (hf : ∀ (k' : Nat) (a : α) (b : β), k ≤ k' → P k' a b → Parallel store n k' (f a) (g b) Q) :
    Parallel store n k (x >>= f) (y >>= g) Q := by
  intro s t hc hk
  have h := hx s t hc hk
  rw [run_bind, run_bind]
  generalize x.run s = r at h ⊢
  generalize y.run t = r' at h ⊢
  cases h with
  | error e s' t' => exact .error e s' t'
  | ok a b s' t' hc' hgrown hab =>
    have h := hf _ a b (Nat.le_trans hk hgrown) hab s' t' hc' (Nat.le_refl _)
    dsimp only
    generalize (f a).run s' = r at h ⊢
    generalize (g b).run t' = r' at h ⊢
    cases h with
    | error e s'' t'' => exact .error e s'' t''
    | ok c d s'' t'' hc'' hgrown' hcd =>
      exact .ok c d s'' t'' hc'' (Nat.le_trans hgrown hgrown') hcd

theorem forM {items : List α} {f : α → ExceptT ε (StateM σ) PUnit}
    {g : β → ExceptT ε (StateM σ) PUnit} (image : α → β)
    (h : ∀ a ∈ items, Parallel store n k (f a) (g (image a)) fun _ _ _ => True) :
    Parallel store n k (items.forM f) ((items.map image).forM g) fun _ _ _ => True := by
  induction items with
  | nil => exact .pure fun _ _ => trivial
  | cons a rest ih =>
    obtain ⟨ha, hr⟩ := List.forall_mem_cons.mp h
    exact ha.bind fun k' _ _ hk _ => (ih hr).mono hk

end Parallel

/-! ## Changing containers -/

namespace StoreM

variable {n k : Nat}

theorem entries_parallel (h : Handle) :
    Parallel id n k (StoreM.entries h) (StoreM.entries (h.shift n)) fun _ pairs pairs' =>
      (∀ p ∈ pairs, p.2.Below h.target) ∧ pairs' = Entries.shift n pairs :=
  fun s t hc _ => .ok _ _ s t hc (Nat.le_refl _) ⟨hc.entries_below h, hc.entries h⟩

theorem elements_parallel (h : Handle) :
    Parallel id n k (StoreM.elements h) (StoreM.elements (h.shift n)) fun _ keys keys' =>
      keys' = keys :=
  fun s t hc _ => .ok _ _ s t hc (Nat.le_refl _) (hc.elements h)

theorem commit_parallel (h : Handle) {c : Contents} (hv : ∀ v ∈ c.values, v.Below h.target)
    (changes changes' : List (Change × Slot × Value)) :
    Parallel id n k (StoreM.commit h c changes)
      (StoreM.commit (h.shift n) (c.shift n) changes') fun _ _ _ => True :=
  fun s _ hc _ => .ok _ _ _ _ (hc.commit h.target hv changes changes')
    (Nat.le_of_eq (s.size_commit h.target c changes).symm) trivial

/-- The new container comes after those that there were. -/
theorem allocate_parallel (a b : Nat) {c : Contents} (hv : c.values = []) :
    Parallel id n k (StoreM.allocate a c) (StoreM.allocate b (c.shift n)) fun k' h h' =>
      k ≤ h.target ∧ h.target < k' ∧ h' = h.shift n := by
  intro s t hc hk
  refine .ok _ _ _ _ (hc.allocate a b hv) ?_ ⟨hk, ?_, ?_⟩
  · exact Nat.le_of_lt (Array.size_push _ ▸ Nat.lt_succ_self _)
  · exact Array.size_push _ ▸ Nat.lt_succ_self _
  · exact congrArg (Handle.mk · _) hc.size

end StoreM

/-! ## New containers -/

variable {n k : Nat}

def NewCopy (n k : Nat) (h h' : Handle) : Prop := h.target < k ∧ h' = h.shift n

theorem Lists.create_parallel (a b : Nat) {values : List Value} (hv : ∀ v ∈ values, v.Below k) :
    Parallel id n k (Lists.create a values) (Lists.create b (values.map (Value.shift n)))
      (NewCopy n) := by
  unfold Lists.create
  refine (StoreM.allocate_parallel a b rfl).bind fun k' h _ _ ⟨hk, ht, he⟩ => he ▸ ?_
  refine (StoreM.commit_parallel h (c := .items values) ?_ _ _).bind fun k'' _ _ hk' _ => ?_
  · exact fun v hm => (hv v hm).mono hk
  · exact .pure fun _ hk'' => ⟨Nat.lt_of_lt_of_le ht (Nat.le_trans hk' hk''), rfl⟩

namespace Maps

theorem store_parallel (m : Handle) (key : Key) {v : Value} (hv : v.Below m.target) :
    Parallel id n k (store m key v) (store (m.shift n) key (v.shift n)) fun _ _ _ => True := by
  unfold store
  refine (StoreM.entries_parallel m).bind fun k' pairs _ _ ⟨hp, he⟩ => he ▸ ?_
  dsimp only
  simp only [Value.shift_eq_null_iff]
  split
  · rw [Entries.erase_shift]
    refine (StoreM.commit_parallel m (c := .entries _) ?_ _ _).bind fun _ _ _ _ _ => ?_
    · exact values_mem fun p hm => hp p (List.mem_of_mem_eraseP hm)
    · exact .pure fun _ _ => trivial
  · rw [Entries.put_shift]
    refine (StoreM.commit_parallel m (c := .entries _) ?_ _ _).bind fun _ _ _ _ _ => ?_
    · exact values_mem (Entries.put_mem hv hp)
    · exact .pure fun _ _ => trivial

theorem create_parallel (a b : Nat) {pairs : List (Key × Value)}
    (hp : ∀ p ∈ pairs, p.2.Below k) :
    Parallel id n k (create a pairs) (create b (Entries.shift n pairs)) (NewCopy n) := by
  unfold create empty storeAll
  refine (StoreM.allocate_parallel a b rfl).bind fun k' m _ _ ⟨hk, ht, he⟩ => he ▸ ?_
  refine Parallel.bind (P := fun _ _ _ => True) (Parallel.forM _ fun p hm => ?_)
    fun k'' _ _ hk' _ => .pure fun _ hk'' => ?_
  · exact (store_parallel m p.1 ((hp p hm).mono hk)).bind fun _ _ _ _ _ => .pure fun _ _ => trivial
  · exact ⟨Nat.lt_of_lt_of_le ht (Nat.le_trans hk' hk''), rfl⟩

end Maps

namespace Sets

theorem insertKey_parallel (h : Handle) (key : Key) :
    Parallel id n k (insertKey h key) (insertKey (h.shift n) key) fun _ _ _ => True := by
  unfold insertKey
  refine (StoreM.elements_parallel h).bind fun _ keys _ _ he => he ▸ ?_
  split
  · exact .pure fun _ _ => trivial
  · refine (StoreM.commit_parallel h (c := .elements _) ?_ _ _).bind fun _ _ _ _ _ => ?_
    · intro v hv
      obtain ⟨e, _, rfl⟩ := List.mem_map.mp hv
      exact Realm.admits_key e
    · exact .pure fun _ _ => trivial

theorem create_parallel (a b : Nat) (values : List Value) :
    Parallel id n k (create a values) (create b (values.map (Value.shift n))) (NewCopy n) := by
  unfold create empty
  refine (StoreM.allocate_parallel a b rfl).bind fun k' h _ _ ⟨hk, ht, he⟩ => he ▸ ?_
  refine Parallel.bind (P := fun _ _ _ => True) (Parallel.forM _ fun v _ => ?_)
    fun k'' _ _ hk' _ => .pure fun _ hk'' => ?_
  · rw [Key.ofValue_shift]
    exact (Parallel.lift fun _ _ => rfl).bind fun k'' key _ _ he => he ▸
      (insertKey_parallel h key).bind fun _ _ _ _ _ => .pure fun _ _ => trivial
  · exact ⟨Nat.lt_of_lt_of_le ht (Nat.le_trans hk' hk''), rfl⟩

end Sets

end MeteredScript
