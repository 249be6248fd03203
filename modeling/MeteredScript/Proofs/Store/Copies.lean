import MeteredScript.Evaluation.Operators
import MeteredScript.Proofs.Store.Moving
import MeteredScript.Proofs.Store.Realm
import MeteredScript.Store.Sets

/-!
# Stores with a copy of another

A store can have the containers of another one behind containers of its own. The handles of the copy
are further on by as many places, and apart from that nothing tells the two from each other: copied
values are equal when the values are and have the same texts, however many containers stand in
front. That comparing and printing stop at a depth makes no difference, since a container that was
filled when it was made only refers to containers before it.
-/

namespace MeteredScript

/-- The handle of a container that many places further on. -/
def Handle.shift (n : Nat) (h : Handle) : Handle := ⟨n + h.target, h.view⟩

/-- Handles of the containers before a place may be held. -/
def Realm.before (k : Nat) : Realm := ⟨fun h => h.target < k, fun _ => True, fun _ _ h => h⟩

namespace Value

def shift (n : Nat) : Value → Value
  | list h => list (h.shift n)
  | map h => map (h.shift n)
  | set h => set (h.shift n)
  | v => v

/-- A value that refers to no container from a place on. -/
def Below (k : Nat) (v : Value) : Prop := (Realm.before k).admits v

variable {n k : Nat} {v : Value}

theorem shift_of_isScalar (h : v.isScalar = true) : v.shift n = v := by
  cases v with
  | list | map | set | native => cases h
  | null | bool | int | float | str => rfl

theorem below_of_isScalar (h : v.isScalar = true) : v.Below k := Realm.admits_of_isScalar h

/-- All handles are further on: that is one way to give the containers other numbers. -/
theorem shift_eq_move (n : Nat) (v : Value) : v.shift n = v.move (n + ·) := by cases v <;> rfl

theorem typeName_shift (n : Nat) (v : Value) : (v.shift n).typeName = v.typeName := by
  rw [shift_eq_move, typeName_move]

theorem requireBool_shift (n : Nat) (v : Value) : (v.shift n).requireBool = v.requireBool := by
  rw [shift_eq_move, requireBool_move]

theorem shift_eq_null_iff : v.shift n = null ↔ v = null := by
  rw [shift_eq_move, move_eq_null_iff]

theorem handle?_of_below_zero (h : v.Below 0) : v.handle? = none := by
  cases v with
  | list c | map c | set c => exact absurd h (Nat.not_lt_zero c.target)
  | null | bool | int | float | str | native => rfl

theorem Below.mono {k' : Nat} (h : v.Below k) (hk : k ≤ k') : v.Below k' := by
  cases v with
  | list | map | set => exact Nat.lt_of_lt_of_le h hk
  | null | bool | int | float | str | native => trivial

end Value

theorem Key.ofValue_shift (n : Nat) (v : Value) : Key.ofValue (v.shift n) = Key.ofValue v := by
  rw [Value.shift_eq_move, ofValue_move]

def Entries.shift (n : Nat) (pairs : List (Key × Value)) : List (Key × Value) :=
  pairs.map fun (k, v) => (k, v.shift n)

def Contents.shift (n : Nat) : Contents → Contents
  | items values => items (values.map (Value.shift n))
  | entries pairs => entries (Entries.shift n pairs)
  | elements keys => elements keys

namespace Entries

variable (n : Nat) (k : Key)

theorem shift_eq_move (pairs : List (Key × Value)) : shift n pairs = move (n + ·) pairs :=
  List.map_congr_left fun p _ => congrArg (p.1, ·) (Value.shift_eq_move n p.2)

theorem put_shift (v : Value) (pairs : List (Key × Value)) :
    put k (v.shift n) (shift n pairs) = shift n (put k v pairs) := by
  rw [shift_eq_move, shift_eq_move, Value.shift_eq_move, put_move]

theorem erase_shift (pairs : List (Key × Value)) :
    erase k (shift n pairs) = shift n (erase k pairs) := by
  rw [shift_eq_move, shift_eq_move, erase_move]

end Entries

theorem Contents.shift_eq_move (n : Nat) (c : Contents) : c.shift n = c.move (n + ·) := by
  cases c with
  | items values => exact congrArg items (List.map_congr_left fun v _ => v.shift_eq_move n)
  | entries pairs => exact congrArg entries (Entries.shift_eq_move n pairs)
  | elements => rfl

namespace Store

/-- The second store has the containers of the first one at places `n` further on. A container of
the first one refers to containers before it only. -/
structure Copies (n : Nat) (s t : Store) : Prop where
  size : t.containers.size = n + s.containers.size
  contents : ∀ i : Nat, t.containers[n + i]?.map (·.contents) =
    s.containers[i]?.map (·.contents.shift n)
  nested : ∀ (i : Nat) (c : Container), s.containers[i]? = some c →
    ∀ v ∈ c.contents.values, v.Below i

/-! ## Reading a copy -/

namespace Copies

variable {n : Nat} {s t : Store}

theorem moved (hc : Copies n s t) (h : Handle) :
    t.containers[(h.shift n).target]?.map (·.contents) =
      s.containers[h.target]?.map (·.contents.move (n + ·)) := by
  simp only [← Contents.shift_eq_move]
  exact hc.contents h.target

theorem items (hc : Copies n s t) (h : Handle) :
    t.items (h.shift n) = (s.items h).map (Value.shift n) := by
  rw [funext (Value.shift_eq_move n)]
  exact items_move (hc.moved h)

theorem entries (hc : Copies n s t) (h : Handle) :
    t.entries (h.shift n) = Entries.shift n (s.entries h) := by
  rw [Entries.shift_eq_move]
  exact entries_move (hc.moved h)

theorem elements (hc : Copies n s t) (h : Handle) : t.elements (h.shift n) = s.elements h :=
  elements_move (hc.moved h)

theorem items_below (hc : Copies n s t) (h : Handle) : ∀ v ∈ s.items h, v.Below h.target := by
  unfold Store.items
  split
  · next heq => exact hc.nested _ _ heq
  · exact fun _ hv => absurd hv List.not_mem_nil

theorem entries_below (hc : Copies n s t) (h : Handle) :
    ∀ p ∈ s.entries h, p.2.Below h.target := by
  unfold Store.entries
  split
  · next heq => exact fun p hp => hc.nested _ _ heq p.2 (List.mem_map_of_mem hp)
  · exact fun _ hp => absurd hp List.not_mem_nil

/-! ## Equality and texts -/

theorem sameEntries_shift {p q : Value → Value → Bool} {as bs : List (Key × Value)}
    (h : ∀ a ∈ as, ∀ b ∈ bs, p (a.2.shift n) (b.2.shift n) = q a.2 b.2) :
    sameEntries p (Entries.shift n as) (Entries.shift n bs) = sameEntries q as bs := by
  simp only [Value.shift_eq_move] at h
  rw [Entries.shift_eq_move, Entries.shift_eq_move, sameEntries_move h]

/-- Values that are not two containers of one kind are compared without a store. -/
theorem sameTo_flat (s t : Store) (d d' : Nat) {v w : Value}
    (h : v.type ≠ w.type ∨ v.handle? = none) :
    t.sameTo d' (v.shift n) (w.shift n) = s.sameTo d v w := by
  cases v <;> cases w <;> first
    | (cases d <;> cases d' <;> rfl)
    | simp [Value.type, Value.handle?] at h

/-- One container deeper: the contents are compared through one container less. -/
theorem sameTo_succ (hc : Copies n s t) {d d' : Nat}
    (ih : ∀ {v w : Value}, v.Below d → w.Below d → v.Below d' → w.Below d' →
      t.sameTo d' (v.shift n) (w.shift n) = s.sameTo d v w)
    {v w : Value} (hv : v.Below (d + 1)) (hw : w.Below (d + 1)) (hv' : v.Below (d' + 1))
    (hw' : w.Below (d' + 1)) :
    t.sameTo (d' + 1) (v.shift n) (w.shift n) = s.sameTo (d + 1) v w := by
  have htarget (h k : Handle) : (h.shift n).target = (k.shift n).target ↔ h.target = k.target :=
    Nat.add_left_cancel_iff
  have hbelow {h : Handle} {k : Nat} (ht : h.target < k + 1) {u : Value}
      (hu : u.Below h.target) : u.Below k := hu.mono (Nat.le_of_lt_succ ht)
  cases v with
  | list h =>
    cases w with
    | list k =>
      change (decide _ || _) = (decide _ || _)
      simp only [htarget]
      rw [hc.items, hc.items]
      congr 1
      refine isEqv_map fun a ha b hb => ?_
      have ha := hc.items_below h a ha
      have hb := hc.items_below k b hb
      exact ih (hbelow hv ha) (hbelow hw hb) (hbelow hv' ha)
        (hbelow hw' hb)
    | _ => exact sameTo_flat s t _ _ (.inl (by simp [Value.type]))
  | map h =>
    cases w with
    | map k =>
      change (decide _ || _) = (decide _ || _)
      simp only [htarget]
      rw [hc.entries, hc.entries]
      congr 1
      refine sameEntries_shift fun a ha b hb => ?_
      have ha := hc.entries_below h a ha
      have hb := hc.entries_below k b hb
      exact ih (hbelow hv ha) (hbelow hw hb) (hbelow hv' ha)
        (hbelow hw' hb)
    | _ => exact sameTo_flat s t _ _ (.inl (by simp [Value.type]))
  | set h =>
    cases w with
    | set k =>
      change (decide _ || _) = (decide _ || _)
      simp only [htarget]
      rw [hc.elements, hc.elements]
    | _ => exact sameTo_flat s t _ _ (.inl (by simp [Value.type]))
  | _ => exact sameTo_flat s t _ _ (.inr rfl)

theorem sameTo (hc : Copies n s t) {d d' : Nat} {v w : Value} (hv : v.Below d) (hw : w.Below d)
    (hv' : v.Below d') (hw' : w.Below d') :
    t.sameTo d' (v.shift n) (w.shift n) = s.sameTo d v w := by
  induction d generalizing d' v w with
  | zero => exact sameTo_flat s t 0 d' (.inr (Value.handle?_of_below_zero hv))
  | succ d ih =>
    cases d' with
    | zero => exact sameTo_flat s t _ 0 (.inr (Value.handle?_of_below_zero hv'))
    | succ d' => exact hc.sameTo_succ ih hv hw hv' hw'

theorem le_size (hc : Copies n s t) : s.containers.size ≤ t.containers.size :=
  hc.size ▸ Nat.le_add_left _ _

theorem same (hc : Copies n s t) {v w : Value} (hv : v.Below s.containers.size)
    (hw : w.Below s.containers.size) : t.same (v.shift n) (w.shift n) = s.same v w :=
  hc.sameTo hv hw (hv.mono hc.le_size) (hw.mono hc.le_size)

theorem displayTo (hc : Copies n s t) {d d' : Nat} {v : Value} (hv : v.Below d)
    (hv' : v.Below d') : t.displayTo d' (v.shift n) = s.displayTo d v := by
  have hbelow {h : Handle} {k : Nat} (ht : h.target < k + 1) {u : Value}
      (hu : u.Below h.target) : u.Below k := hu.mono (Nat.le_of_lt_succ ht)
  induction d generalizing d' v with
  | zero =>
    cases v with
    | list h | map h | set h => exact absurd hv (Nat.not_lt_zero h.target)
    | _ => cases d' <;> rfl
  | succ d ih =>
    cases d' with
    | zero =>
      cases v with
      | list h | map h | set h => exact absurd hv' (Nat.not_lt_zero h.target)
      | _ => rfl
    | succ d' =>
      cases v with
      | list h =>
        change bracketed _ _ _ = bracketed _ _ _
        rw [hc.items, List.map_map]
        congr 1
        refine List.map_congr_left fun a ha => ?_
        have ha := hc.items_below h a ha
        exact ih (hbelow hv ha) (hbelow hv' ha)
      | map h =>
        change bracketed _ _ _ = bracketed _ _ _
        rw [hc.entries, Entries.shift, List.map_map]
        congr 1
        refine List.map_congr_left fun a ha => ?_
        have ha := hc.entries_below h a ha
        exact congrArg (a.1.display ++ "=" ++ ·) (ih (hbelow hv ha) (hbelow hv' ha))
      | set h =>
        change bracketed _ _ _ = bracketed _ _ _
        rw [hc.elements]
      | _ => rfl

theorem display (hc : Copies n s t) {v : Value} (hv : v.Below s.containers.size) :
    t.display (v.shift n) = s.display v :=
  hc.displayTo (hv.mono (Nat.le_succ _)) (hv.mono (Nat.le_succ_of_le hc.le_size))

/-- Operators say the same of copies, in their faults too. -/
theorem evaluate (hc : Copies n s t) {l r : Value} (hl : l.Below s.containers.size)
    (hr : r.Below s.containers.size) (op : BinaryOp) :
    Operators.evaluate t (l.shift n) (r.shift n) op = Operators.evaluate s l r op := by
  have hm : Operators.mismatch (l.shift n) (r.shift n) op = Operators.mismatch l r op := by
    rw [Operators.mismatch, Operators.mismatch, Value.typeName_shift, Value.typeName_shift]
  unfold Operators.evaluate
  rw [hc.same hl hr, hc.display hl, hc.display hr, hm]
  cases l <;> cases r <;> rfl

/-! ## Changing a store and its copy -/

theorem sameContents {s' t' : Store} (hc : Copies n s t) (hs : SameContents s s')
    (ht : SameContents t t') : Copies n s' t' := by
  refine ⟨by rw [ht.size, hs.size, hc.size], fun i => ?_, fun i c hi v hv => ?_⟩
  · rw [ht.contents, hc.contents]
    have := congrArg (Option.map (Contents.shift n)) (hs.contents i)
    rw [Option.map_map, Option.map_map] at this
    exact this.symm
  · have := hs.contents i
    rw [hi, Option.map_some] at this
    obtain ⟨d, hd, he⟩ := Option.map_eq_some_iff.mp this.symm
    exact hc.nested i d hd v (he ▸ hv)

theorem allocate (hc : Copies n s t) (a b : Nat) {c : Contents} (h : c.values = []) :
    Copies n (s.allocate a c).2 (t.allocate b (c.shift n)).2 := by
  refine ⟨?_, fun i => ?_, fun i d hi v hv => ?_⟩
  · simp only [Store.allocate, Array.size_push]
    rw [hc.size, Nat.add_assoc]
  · simp only [Store.allocate, Array.getElem?_push, hc.size, Nat.add_left_cancel_iff]
    split
    · rfl
    · exact hc.contents i
  · simp only [Store.allocate, Array.getElem?_push] at hi
    split at hi
    · rw [← Option.some.inj hi, h] at hv
      exact absurd hv List.not_mem_nil
    · exact hc.nested i d hi v hv

theorem commit (hc : Copies n s t) (target : Nat) {c : Contents}
    (h : ∀ v ∈ c.values, v.Below target) (changes changes' : List (Change × Slot × Value)) :
    Copies n (s.commit target c changes) (t.commit (n + target) (c.shift n) changes') := by
  refine sameContents ?_ (sameContents_posts _ target changes) (sameContents_posts _ _ changes')
  refine ⟨?_, fun i => ?_, fun i d hi v hv => ?_⟩
  · simp only [Array.size_modify]
    exact hc.size
  · have hi := hc.contents i
    simp only [Array.getElem?_modify, Nat.add_left_cancel_iff]
    split
    · rw [Option.map_map, Option.map_map]
      cases he : s.containers[i]? with
      | none =>
        rw [he] at hi
        rw [Option.map_eq_none_iff.mp hi]
        rfl
      | some e =>
        rw [he] at hi
        obtain ⟨d, hd, _⟩ := Option.map_eq_some_iff.mp hi
        rw [hd]
        rfl
    · exact hi
  · simp only [Array.getElem?_modify] at hi
    split at hi
    · next he =>
      obtain ⟨d, _, rfl⟩ := Option.map_eq_some_iff.mp hi
      exact he ▸ h v hv
    · exact hc.nested i d hi v hv

end Copies

end Store

end MeteredScript
