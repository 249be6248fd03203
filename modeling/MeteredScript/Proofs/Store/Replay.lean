import Mathlib.Data.List.Induction
import MeteredScript.Proofs.Store.Entries
import MeteredScript.Proofs.Store.Realm
import MeteredScript.Store.Maps
import MeteredScript.Store.Sets

/-!
# Contents rebuilt from reports

Whoever is told of the changes of a container, and of nothing else, can keep a copy of it: a value
is put in or taken out at the slot that is reported. Changes tell new contents if every copy of the
old ones becomes a copy of the new ones. A copy of a map may have its entries in another order.
-/

namespace MeteredScript

namespace Contents

/-- The kind of container that has such contents. -/
def type : Contents → ValueType
  | items _ => .list
  | entries _ => .map
  | elements _ => .set

/-- The contents of a new container of the same kind. -/
def blank : Contents → Contents
  | items _ => .items []
  | entries _ => .entries []
  | elements _ => .elements []

/-- One reported change, made to a copy. A change that does not fit the copy has no result: a value
that is not at its slot cannot be removed, a key or an element cannot be added twice, and an element
has to be the value of its own key. -/
def replay : Contents → Change × Slot × Value → Option Contents
  | items values, (.added, .index i, v) =>
    if i ≤ values.length then some (items (values.insertIdx i v)) else none
  | items values, (.removed, .index i, v) =>
    if values[i]? = some v then some (items (values.eraseIdx i)) else none
  | entries pairs, (.added, .key k, v) =>
    if k ∈ Entries.keys pairs then none else some (entries (pairs ++ [(k, v)]))
  | entries pairs, (.removed, .key k, v) =>
    if pairs.lookup k = some v then some (entries (Entries.erase k pairs)) else none
  | elements keys, (.added, .element, v) =>
    match Key.ofValue v with
    | .ok k => if k.toValue = v ∧ k ∉ keys then some (elements (keys ++ [k])) else none
    | .error _ => none
  | elements keys, (.removed, .element, v) =>
    match Key.ofValue v with
    | .ok k => if k.toValue = v ∧ k ∈ keys then some (elements (keys.erase k)) else none
    | .error _ => none
  | _, _ => none

def replayAll (c : Contents) (changes : List (Change × Slot × Value)) : Option Contents :=
  changes.foldlM replay c

@[simp] theorem replayAll_nil (c : Contents) : c.replayAll [] = some c := rfl

@[simp] theorem replayAll_cons (c : Contents) (change : Change × Slot × Value)
    (rest : List (Change × Slot × Value)) :
    c.replayAll (change :: rest) = (c.replay change).bind (·.replayAll rest) :=
  List.foldlM_cons

theorem replayAll_append (c : Contents) (first next : List (Change × Slot × Value)) :
    c.replayAll (first ++ next) = (c.replayAll first).bind (·.replayAll next) :=
  List.foldlM_append

/-- A copy has the same contents, the order of the entries of a map apart. What is copied has every
key once, and the elements of a set are the keys of their own values. -/
inductive IsCopy : Contents → Contents → Prop
  | items (values : List Value) : IsCopy (items values) (items values)
  | entries {pairs other : List (Key × Value)} (perm : pairs.Perm other)
      (nodup : (Entries.keys other).Nodup) : IsCopy (entries pairs) (entries other)
  | elements {keys : List Key} (canonical : ∀ k ∈ keys, Key.ofValue k.toValue = .ok k) :
      IsCopy (elements keys) (elements keys)

structure Tells (old : Contents) (changes : List (Change × Slot × Value)) (new : Contents) :
    Prop where
  kind : new.type = old.type
  copied : ∀ copy : Contents, copy.IsCopy old →
    ∃ copy', copy.replayAll changes = some copy' ∧ copy'.IsCopy new

theorem blank_eq {c d : Contents} (h : c.type = d.type) : c.blank = d.blank := by
  cases c <;> cases d <;> simp_all [type, blank]

theorem blank_isCopy (c : Contents) : c.blank.IsCopy c.blank := by
  cases c with
  | items => exact .items []
  | entries => exact .entries (.refl _) List.nodup_nil
  | elements => exact .elements fun _ hk => absurd hk List.not_mem_nil

theorem IsCopy.proper {copy c : Contents} (h : copy.IsCopy c) : c.IsCopy c := by
  cases h with
  | items values => exact .items values
  | entries _ nodup => exact .entries (.refl _) nodup
  | elements canonical => exact .elements canonical

theorem Tells.refl (c : Contents) : c.Tells [] c := ⟨rfl, fun copy h => ⟨copy, rfl, h⟩⟩

theorem Tells.append {old mid new : Contents} {first next : List (Change × Slot × Value)}
    (h : old.Tells first mid) (k : mid.Tells next new) : old.Tells (first ++ next) new := by
  constructor
  · rw [k.kind, h.kind]
  · intro copy hcopy
    obtain ⟨copy₁, hfirst, hcopy₁⟩ := h.copied copy hcopy
    obtain ⟨copy₂, hnext, hcopy₂⟩ := k.copied copy₁ hcopy₁
    exact ⟨copy₂, by simp [replayAll_append, hfirst, hnext], hcopy₂⟩

/-! ## Lists -/

theorem tells_items {xs ys : List Value} {changes : List (Change × Slot × Value)}
    (h : (items xs).replayAll changes = some (items ys)) : (items xs).Tells changes (items ys) := by
  constructor
  · rfl
  · intro copy hcopy
    cases hcopy with
    | items => exact ⟨items ys, h, .items ys⟩

theorem insertIdx_length_append (before after : List Value) (v : Value) :
    (before ++ after).insertIdx before.length v = before ++ v :: after := by
  induction before with
  | nil => simp
  | cons w before ih => simp [ih]

theorem replay_added (before after : List Value) (v : Value) :
    (items (before ++ after)).replay (.added, .index before.length, v) =
      some (items (before ++ v :: after)) := by
  simp [replay, insertIdx_length_append]

theorem replay_removed (before after : List Value) (v : Value) :
    (items (before ++ v :: after)).replay (.removed, .index before.length, v) =
      some (items (before ++ after)) := by
  simp [replay, List.eraseIdx_append_of_length_le]

/-- A run that is added goes up from the index where it begins. -/
theorem replayAll_addedRun (before values after : List Value) :
    (items (before ++ after)).replayAll (Lists.addedRun before.length values) =
      some (items (before ++ values ++ after)) := by
  induction values generalizing before with
  | nil => simp [Lists.addedRun]
  | cons v rest ih =>
    have hrest := ih (before ++ [v])
    simp only [List.length_append, List.length_singleton, List.append_assoc, List.cons_append,
      List.nil_append] at hrest
    have hrun : Lists.addedRun before.length (v :: rest) =
      (.added, .index before.length, v) :: Lists.addedRun (before.length + 1) rest := rfl
    simp [hrun, replay_added, hrest]

/-- A run that is removed falls into the index where it began. -/
theorem replayAll_removedRun (before taken after : List Value) :
    (items (before ++ taken ++ after)).replayAll
        (taken.map fun v => (.removed, .index before.length, v)) =
      some (items (before ++ after)) := by
  induction taken with
  | nil => simp
  | cons v rest ih => simp_all [replay_removed]

/-- All elements are removed from the last one down. -/
theorem replayAll_clear (values : List Value) :
    (items values).replayAll (values.zipIdx.reverse.map fun (v, i) => (.removed, .index i, v)) =
      some (items []) := by
  induction values using List.reverseRecOn with
  | nil => rfl
  | append_singleton init v ih =>
    have hlast := replay_removed init [] v
    simp_all [List.zipIdx_append]

/-- Each of a run is removed before its successor in place is added. -/
theorem replayAll_fill (v : Value) (before replaced after : List Value) :
    (items (before ++ replaced ++ after)).replayAll
        ((replaced.zipIdx before.length).flatMap fun (old, i) =>
          [(.removed, .index i, old), (.added, .index i, v)]) =
      some (items (before ++ replaced.map (fun _ => v) ++ after)) := by
  induction replaced generalizing before with
  | nil => simp
  | cons old rest ih =>
    have hrest := ih (before ++ [v])
    simp only [List.length_append, List.length_singleton, List.append_assoc, List.cons_append,
      List.nil_append] at hrest
    simp [replay_removed, replay_added, hrest]

/-! ## Maps -/

variable {k : Key} {v : Value} {pairs other : List (Key × Value)}

theorem tells_entries {changes : List (Change × Slot × Value)}
    (h : (Entries.keys pairs).Nodup → ∀ copy : List (Key × Value), copy.Perm pairs →
      ∃ copy', (entries copy).replayAll changes = some (entries copy') ∧ copy'.Perm other ∧
        (Entries.keys other).Nodup) :
    (entries pairs).Tells changes (entries other) := by
  constructor
  · rfl
  · intro copy hcopy
    cases hcopy with
    | entries perm nodup =>
      obtain ⟨copy', hreplay, perm', nodup'⟩ := h nodup _ perm
      exact ⟨entries copy', hreplay, .entries perm' nodup'⟩

theorem IsCopy.keys_nodup {copy : Contents} (h : copy.IsCopy (.entries pairs)) :
    (Entries.keys pairs).Nodup := by
  cases h with
  | entries _ nodup => exact nodup

theorem tells_reordered (h : pairs.Perm other) : (entries pairs).Tells [] (entries other) := by
  apply tells_entries
  intro hn copy hcopy
  exact ⟨copy, rfl, hcopy.trans h, (Entries.keys_perm h).nodup_iff.mp hn⟩

theorem tells_removed (h : pairs.lookup k = some v) :
    (entries pairs).Tells [(.removed, .key k, v)] (entries (Entries.erase k pairs)) := by
  apply tells_entries
  intro hn copy hcopy
  have hl : copy.lookup k = some v := by rw [Entries.lookup_perm hcopy hn, h]
  exact ⟨Entries.erase k copy, by simp [replay, hl], Entries.erase_perm hcopy hn,
    Entries.keys_erase_nodup hn⟩

theorem tells_erased (k : Key) (pairs : List (Key × Value)) :
    (entries pairs).Tells ((pairs.lookup k).toList.map fun w => (.removed, .key k, w))
      (entries (Entries.erase k pairs)) := by
  cases h : pairs.lookup k with
  | none =>
    rw [Entries.erase_of_not_mem (Entries.lookup_eq_none.mp h)]
    exact .refl _
  | some w => exact tells_removed h

theorem tells_added (h : k ∉ Entries.keys pairs) (hp : other.Perm ((k, v) :: pairs)) :
    (entries pairs).Tells [(.added, .key k, v)] (entries other) := by
  apply tells_entries
  intro hn copy hcopy
  have hk : k ∉ Entries.keys copy := (Entries.keys_perm hcopy).mem_iff.not.mpr h
  have hother : (Entries.keys other).Nodup :=
    (Entries.keys_perm hp).nodup_iff.mpr (List.nodup_cons.mpr ⟨h, hn⟩)
  have hnew : (copy ++ [(k, v)]).Perm other :=
    (List.perm_append_singleton _ _).trans ((hcopy.cons _).trans hp.symm)
  exact ⟨copy ++ [(k, v)], by simp [replay, hk], hnew, hother⟩

/-- The old value is removed first, so that the key is free for the new one. -/
theorem tells_put (k : Key) (v : Value) (pairs : List (Key × Value)) :
    (entries pairs).Tells
      ((pairs.lookup k).toList.map (fun w => (.removed, .key k, w)) ++ [(.added, .key k, v)])
      (entries (Entries.put k v pairs)) := by
  constructor
  · rfl
  · intro copy hcopy
    have hfree := Entries.not_mem_keys_erase (k := k) hcopy.keys_nodup
    exact ((tells_erased k pairs).append (tells_added hfree Entries.put_perm)).copied copy hcopy

theorem tells_entries_clear (pairs : List (Key × Value)) :
    (entries pairs).Tells (pairs.map fun (k, v) => (.removed, .key k, v)) (entries []) := by
  induction pairs with
  | nil => exact .refl _
  | cons p rest ih =>
    have hfirst : (entries (p :: rest)).Tells [(.removed, .key p.1, p.2)] (entries rest) := by
      have hfound : (p :: rest).lookup p.1 = some p.2 := List.lookup_cons_self
      simpa [Entries.erase] using tells_removed hfound
    exact hfirst.append ih

/-! ## Sets -/

variable {keys rest : List Key}

theorem tells_elements {changes : List (Change × Slot × Value)}
    (h : (∀ k ∈ keys, Key.ofValue k.toValue = .ok k) →
      (elements keys).replayAll changes = some (elements rest) ∧
        ∀ k ∈ rest, Key.ofValue k.toValue = .ok k) :
    (elements keys).Tells changes (elements rest) := by
  constructor
  · rfl
  · intro copy hcopy
    cases hcopy with
    | elements canonical =>
      obtain ⟨hreplay, hrest⟩ := h canonical
      exact ⟨elements rest, hreplay, .elements hrest⟩

theorem tells_insertKey (hk : Key.ofValue k.toValue = .ok k) (h : k ∉ keys) :
    (elements keys).Tells [(.added, .element, k.toValue)] (elements (keys ++ [k])) := by
  apply tells_elements
  intro hkeys
  constructor
  · simp [replay, hk, h]
  · intro j hj
    rcases List.mem_append.mp hj with hj | hj
    · exact hkeys j hj
    · rwa [List.mem_singleton.mp hj]

theorem tells_eraseKey (h : k ∈ keys) :
    (elements keys).Tells [(.removed, .element, k.toValue)] (elements (keys.erase k)) := by
  apply tells_elements
  intro hkeys
  constructor
  · simp [replay, hkeys k h, h]
  · exact fun j hj => hkeys j (List.mem_of_mem_erase hj)

theorem tells_elements_clear (keys : List Key) :
    (elements keys).Tells (keys.map fun k => (.removed, .element, k.toValue)) (elements []) := by
  induction keys with
  | nil => exact .refl _
  | cons k rest ih =>
    have hfirst : (elements (k :: rest)).Tells [(.removed, .element, k.toValue)]
        (elements rest) := by
      simpa using tells_eraseKey (List.mem_cons_self (a := k) (l := rest))
    exact hfirst.append ih

end Contents

/-- The key of a value is the key of its own value. -/
theorem Key.ofValue_toValue {k : Key} {v : Value} (h : Key.ofValue v = .ok k) :
    Key.ofValue k.toValue = .ok k := by
  cases v with
  | null | bool | int | str => cases h; rfl
  | list | map | set | native => cases h
  | float x =>
    obtain rfl : Key.ofFloat x = k := Except.ok.inj h
    simp only [Key.ofFloat, Key.toValue, Key.ofValue]
    by_cases hz : x.isZero = true
    · simp [hz]; decide
    · by_cases hn : x.isNaN = true
      · simp [hz, hn]; decide
      · simp [hz, hn]

end MeteredScript
