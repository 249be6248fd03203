import MeteredScript.Proofs.Store.Entries
import MeteredScript.Store.Equality
import MeteredScript.Store.Maps

/-!
# Containers under other numbers

The number of a container shows in nothing that scripts can do with its handle but in which
container the handle leads to. So whatever is done to values, keys and entries can as well be done
after each container was given another number.
-/

namespace MeteredScript

/-- Other numbers for things of which there are `n`, and for those that are made from then on, one
after another from `n'` on. -/
structure Renumbers (σ : Nat → Nat) (n n' : Nat) : Prop where
  injective : Function.Injective σ
  le : ∀ i, i ≤ σ i
  next : ∀ k, σ (n + k) = n' + k

namespace Renumbers

variable {σ : Nat → Nat} {n n' : Nat} (h : Renumbers σ n n')

include h

theorem eq_next : σ n = n' := h.next 0

theorem size_le : n ≤ n' := h.eq_next ▸ h.le n

theorem eq_next_iff {i : Nat} : σ i = n' ↔ i = n := by
  rw [← h.eq_next, h.injective.eq_iff]

theorem succ : Renumbers σ (n + 1) (n' + 1) :=
  ⟨h.injective, h.le, fun k => by rw [Nat.add_assoc, h.next, Nat.add_assoc]⟩

end Renumbers

def Handle.move (σ : Nat → Nat) (h : Handle) : Handle := ⟨σ h.target, h.view⟩

namespace Value

/-- The value with each container under its other number. -/
def move (σ : Nat → Nat) : Value → Value
  | list h => list (h.move σ)
  | map h => map (h.move σ)
  | set h => set (h.move σ)
  | v => v

variable (σ : Nat → Nat) (v : Value)

theorem type_move : (v.move σ).type = v.type := by cases v <;> rfl

theorem typeName_move : (v.move σ).typeName = v.typeName := by
  rw [typeName, typeName, type_move]

theorem requireBool_move : (v.move σ).requireBool = v.requireBool := by cases v <;> rfl

theorem handle?_move : (v.move σ).handle? = v.handle?.map (Handle.move σ) := by cases v <;> rfl

variable {σ v}

theorem move_of_plain (h : v.handle? = none) : v.move σ = v := by
  cases v with
  | list | map | set => cases h
  | null | bool | int | float | str | native => rfl

theorem move_eq_null_iff : v.move σ = null ↔ v = null := by cases v <;> simp [move]

end Value

theorem Key.ofValue_move (σ : Nat → Nat) (v : Value) : Key.ofValue (v.move σ) = Key.ofValue v := by
  cases v <;> rfl

theorem Key.toValue_move (σ : Nat → Nat) (k : Key) : k.toValue.move σ = k.toValue := by
  cases k <;> rfl

/-- What is found under a key is changed as all that there is under keys. -/
theorem lookup_map_snd {κ α β : Type} [BEq κ] (f : α → β) (k : κ) (pairs : List (κ × α)) :
    (pairs.map fun p => (p.1, f p.2)).lookup k = (pairs.lookup k).map f := by
  induction pairs with
  | nil => rfl
  | cons p rest ih =>
    rw [List.map_cons, List.lookup_cons, List.lookup_cons]
    cases k == p.1 with
    | true => rfl
    | false => exact ih

namespace Entries

def move (σ : Nat → Nat) (pairs : List (Key × Value)) : List (Key × Value) :=
  pairs.map fun p => (p.1, p.2.move σ)

variable (σ : Nat → Nat) (k : Key)

theorem lookup_move (pairs : List (Key × Value)) :
    (move σ pairs).lookup k = (pairs.lookup k).map (Value.move σ) :=
  lookup_map_snd (Value.move σ) k pairs

theorem put_move (v : Value) (pairs : List (Key × Value)) :
    put k (v.move σ) (move σ pairs) = move σ (put k v pairs) :=
  put_map_snd (Value.move σ) k v pairs

theorem erase_move (pairs : List (Key × Value)) :
    erase k (move σ pairs) = move σ (erase k pairs) := by
  unfold erase move
  rw [List.eraseP_map]
  rfl

end Entries

def Contents.move (σ : Nat → Nat) : Contents → Contents
  | items values => items (values.map (Value.move σ))
  | entries pairs => entries (Entries.move σ pairs)
  | elements keys => elements keys

/-! ## Reading moved contents -/

namespace Store

theorem contents_eq (s : Store) (h : Handle) :
    s.items h = (match s.containers[h.target]?.map (·.contents) with
      | some (.items values) => values
      | _ => []) ∧
    s.entries h = (match s.containers[h.target]?.map (·.contents) with
      | some (.entries pairs) => pairs
      | _ => []) ∧
    s.elements h = (match s.containers[h.target]?.map (·.contents) with
      | some (.elements keys) => keys
      | _ => []) := by
  unfold items entries elements
  rcases s.containers[h.target]? with _ | ⟨_, _, _, _ | _ | _⟩ <;> exact ⟨rfl, rfl, rfl⟩

section Moved

variable {σ : Nat → Nat} {s t : Store} {h h' : Handle}
  (heq : t.containers[h'.target]?.map (·.contents) =
    s.containers[h.target]?.map (·.contents.move σ))

include heq

theorem items_move : t.items h' = (s.items h).map (Value.move σ) := by
  rw [(contents_eq t _).1, (contents_eq s _).1, heq]
  rcases s.containers[h.target]? with _ | ⟨_, _, _, _ | _ | _⟩ <;> rfl

theorem entries_move : t.entries h' = Entries.move σ (s.entries h) := by
  rw [(contents_eq t _).2.1, (contents_eq s _).2.1, heq]
  rcases s.containers[h.target]? with _ | ⟨_, _, _, _ | _ | _⟩ <;> rfl

theorem elements_move : t.elements h' = s.elements h := by
  rw [(contents_eq t _).2.2, (contents_eq s _).2.2, heq]
  rcases s.containers[h.target]? with _ | ⟨_, _, _, _ | _ | _⟩ <;> rfl

end Moved

theorem isEqv_map {f : Value → Value} {p q : Value → Value → Bool} {as bs : List Value}
    (h : ∀ a ∈ as, ∀ b ∈ bs, p (f a) (f b) = q a b) :
    (as.map f).isEqv (bs.map f) p = as.isEqv bs q := by
  induction as generalizing bs with
  | nil => cases bs <;> rfl
  | cons a as ih =>
    cases bs with
    | nil => rfl
    | cons b bs =>
      rw [List.map_cons, List.map_cons, List.isEqv, List.isEqv,
        h a List.mem_cons_self b List.mem_cons_self,
        ih fun a ha b hb => h a (List.mem_cons_of_mem _ ha) b (List.mem_cons_of_mem _ hb)]

theorem sameEntries_move {σ : Nat → Nat} {p q : Value → Value → Bool}
    {as bs : List (Key × Value)}
    (h : ∀ a ∈ as, ∀ b ∈ bs, p (a.2.move σ) (b.2.move σ) = q a.2 b.2) :
    sameEntries p (Entries.move σ as) (Entries.move σ bs) = sameEntries q as bs := by
  have hfound : ∀ a ∈ as, (((Entries.move σ bs).lookup a.1).any (p (a.2.move σ)) = true ↔
      (bs.lookup a.1).any (q a.2) = true) := by
    intro a ha
    rw [Entries.lookup_move, Option.any_map]
    cases hl : bs.lookup a.1 with
    | none => rfl
    | some w =>
      change p (a.2.move σ) (w.move σ) = true ↔ q a.2 w = true
      rw [h a ha (a.1, w) (mem_of_lookup_eq_some hl)]
  unfold sameEntries
  rw [Entries.move, Entries.move, List.length_map, List.length_map, List.all_map]
  congr 1
  rw [Bool.eq_iff_iff, List.all_eq_true, List.all_eq_true]
  exact forall₂_congr hfound

end Store

end MeteredScript
