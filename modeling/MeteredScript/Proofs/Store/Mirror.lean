import MeteredScript.Evaluation.Operators
import MeteredScript.Proofs.Store.Adding
import MeteredScript.Proofs.Store.Depth
import MeteredScript.Proofs.Store.Moving
import MeteredScript.Proofs.Store.Nesting
import MeteredScript.Proofs.Store.Writing

/-!
# Stores that mirror each other

A store mirrors another one if it has each container of that one under another number, and hands
numbers out at the same pace. What other containers it has does not show: the same values are equal,
and the texts are the same, unless they have no end. New containers that are made of mirrored values
are mirrored.
-/

namespace MeteredScript

theorem Entries.storeAll_move (σ : Nat → Nat) (held pairs : List (Key × Value)) :
    storeAll (move σ held) (move σ pairs) = move σ (storeAll held pairs) := by
  induction pairs generalizing held with
  | nil => rfl
  | cons p rest ih =>
    obtain ⟨k, v⟩ := p
    change storeAll _ (move σ rest) = move σ (storeAll _ rest)
    rw [← ih]
    congr 1
    dsimp only
    rw [erase_move, put_move]
    simp only [Value.move_eq_null_iff]
    split <;> rfl

theorem Sets.collect_move (σ : Nat → Nat) (keys : List Key) (values : List Value) :
    collect keys (values.map (Value.move σ)) = collect keys values := by
  induction values generalizing keys with
  | nil => rfl
  | cons v rest ih =>
    simp only [List.map_cons, collect, Key.ofValue_move, ih]

namespace Store

/-- The second store has the containers of the first one under other numbers, which are handed out
at the same pace. -/
structure Mirrors (σ : Nat → Nat) (s t : Store) : Prop where
  numbers : Renumbers σ s.containers.size t.containers.size
  contents : ∀ n : Nat, t.containers[σ n]?.map (·.contents) =
    s.containers[n]?.map (·.contents.move σ)

namespace Mirrors

variable {σ : Nat → Nat} {s t s' t' : Store}

theorem items (hm : Mirrors σ s t) (h : Handle) :
    t.items (h.move σ) = (s.items h).map (Value.move σ) :=
  items_move (hm.contents h.target)

theorem entries (hm : Mirrors σ s t) (h : Handle) :
    t.entries (h.move σ) = Entries.move σ (s.entries h) :=
  entries_move (hm.contents h.target)

theorem elements (hm : Mirrors σ s t) (h : Handle) : t.elements (h.move σ) = s.elements h :=
  elements_move (hm.contents h.target)

/-- New containers with mirrored contents are mirrored. -/
theorem adds (hm : Mirrors σ s t) {c : Contents} (hs : s.Adds c s') (ht : t.Adds (c.move σ) t') :
    Mirrors σ s' t' := by
  refine ⟨hs.size ▸ ht.size ▸ hm.numbers.succ, fun n => ?_⟩
  have hnew := congrArg (Option.map (Contents.move σ)) (hs.getElem?_contents n)
  rw [Option.map_map] at hnew
  rw [ht.getElem?_contents]
  simp only [hm.numbers.eq_next_iff]
  refine Eq.trans ?_ hnew.symm
  split
  · rfl
  · rw [hm.contents, Option.map_map]
    rfl

/-! ## Comparing -/

/-- To any depth, the same values are found equal. -/
theorem sameTo (hm : Mirrors σ s t) (d : Nat) (v w : Value) :
    t.sameTo d (v.move σ) (w.move σ) = s.sameTo d v w := by
  have htarget (a b : Handle) : (a.move σ).target = (b.move σ).target ↔ a.target = b.target :=
    hm.numbers.injective.eq_iff
  induction d using Nat.strong_induction_on generalizing v w with
  | _ d ih =>
    cases v.matchup w with
    | plain left right =>
      rw [Value.move_of_plain left, Value.move_of_plain right]
      exact s.sameTo_plain t d d left right
    | apart type handle =>
      rw [s.sameTo_apart d type handle, t.sameTo_apart]
      · rwa [Value.type_move, Value.type_move]
      · simpa only [Value.handle?_move, Option.isSome_map] using handle
    | lists a b =>
      cases d with
      | zero => exact decide_eq_decide.mpr (htarget a b)
      | succ d =>
        change (decide _ || _) = (decide _ || _)
        simp only [htarget]
        rw [hm.items, hm.items]
        exact congrArg _ (isEqv_map fun x _ y _ => ih d (Nat.lt_succ_self d) x y)
    | maps a b =>
      cases d with
      | zero => exact decide_eq_decide.mpr (htarget a b)
      | succ d =>
        change (decide _ || _) = (decide _ || _)
        simp only [htarget]
        rw [hm.entries, hm.entries]
        exact congrArg _ (sameEntries_move fun x _ y _ => ih d (Nat.lt_succ_self d) x.2 y.2)
    | sets a b =>
      cases d <;>
      · change (decide _ || _) = (decide _ || _)
        simp only [htarget]
        rw [hm.elements, hm.elements]

/-- Two values are equal in a store exactly if they are so in one that mirrors it. -/
theorem same (hm : Mirrors σ s t) (hs : s.Whole) {v w : Value} (hv : s.Has v) (hw : s.Has w) :
    t.same (v.move σ) (w.move σ) = s.same v w := by
  rw [Store.same, hm.sameTo, sameTo_size hs hv hw hm.numbers.size_le]

/-! ## Printing -/

theorem displayTo (hm : Mirrors σ s t) (d : Nat) (v : Value) :
    t.displayTo d (v.move σ) = s.displayTo d v := by
  induction d generalizing v with
  | zero =>
    cases v with
    | set h =>
      change bracketed _ _ _ = bracketed _ _ _
      rw [hm.elements]
    | _ => rfl
  | succ d ih =>
    cases v with
    | list h =>
      change bracketed _ _ _ = bracketed _ _ _
      rw [hm.items, List.map_map]
      exact congrArg (bracketed _ · _) (List.map_congr_left fun v _ => ih v)
    | map h =>
      change bracketed _ _ _ = bracketed _ _ _
      rw [hm.entries, Entries.move, List.map_map]
      refine congrArg (bracketed _ · _) (List.map_congr_left fun p _ => ?_)
      exact congrArg (p.1.display ++ "=" ++ ·) (ih p.2)
    | set h =>
      change bracketed _ _ _ = bracketed _ _ _
      rw [hm.elements]
    | _ => rfl

theorem nests (hm : Mirrors σ s t) (d : Nat) (v : Value) :
    t.nests d (v.move σ) = s.nests d v := by
  induction d generalizing v with
  | zero => cases v <;> rfl
  | succ d ih =>
    cases v with
    | list h =>
      change List.all _ _ = List.all _ _
      rw [hm.items, List.all_map]
      exact congrArg _ (funext ih)
    | map h =>
      change List.all _ _ = List.all _ _
      rw [hm.entries, Entries.move, List.all_map]
      exact congrArg _ (funext fun p => ih p.2)
    | _ => rfl

theorem display (hm : Mirrors σ s t) {v : Value} (h : s.nests s.containers.size v = true) :
    t.display (v.move σ) = s.display v := by
  rw [Store.display, hm.displayTo, Store.display, displayTo_of_nests h (Nat.le_succ _),
    displayTo_of_nests h (Nat.le_succ_of_le hm.numbers.size_le)]

end Mirrors

end Store

/-! ## New containers -/

/-- What an operation comes to on a store and on one that mirrors it: it leaves the containers that
were there as they were, and either fails for one reason on both, or has related results. -/
inductive Store.Twin {α β : Type} (σ : Nat → Nat) (s : Store) (Q : Store → α → β → Prop) :
    Except Fault α × Store → Except Fault β × Store → Prop
  | error {s' t' : Store} (f : Fault) (keeps : s.Keeps s') :
      Twin σ s Q (.error f, s') (.error f, t')
  | ok {a : α} {b : β} {s' t' : Store} (keeps : s.Keeps s') (whole : s'.Whole)
      (mirrors : Store.Mirrors σ s' t') (related : Q s' a b) : Twin σ s Q (.ok a, s') (.ok b, t')

/-- A handle to a container of that type, and the one that mirrors it. -/
structure Store.Leads (σ : Nat → Nat) (type : ValueType) (s : Store) (h h' : Handle) : Prop where
  fits : s.Fits type h
  eq : h' = h.move σ

section New

variable {σ : Nat → Nat} {s t s' t' : Store} (hs : s.Whole) (hm : Store.Mirrors σ s t)

include hs hm

theorem Store.Mirrors.twin {c : Contents} (hx : s.Adds c s') (hy : t.Adds (c.move σ) t')
    (keys : c.keys.Nodup) (values : ∀ v ∈ c.values, s.Has v) :
    Store.Twin σ s (Store.Leads σ c.type) (.ok ⟨s.containers.size, .owner⟩, s')
      (.ok ⟨t.containers.size, .owner⟩, t') :=
  .ok hx.keeps (hs.adds hx keys values) (hm.adds hx hy)
    ⟨hx.fits, by rw [Handle.move, hm.numbers.eq_next]⟩

theorem Lists.create_twin (account account' : Nat) {values : List Value}
    (hvalues : ∀ v ∈ values, s.Has v) :
    Store.Twin σ s (Store.Leads σ .list) ((create account values).run s)
      ((create account' (values.map (Value.move σ))).run t) := by
  obtain ⟨s', hx, hadds⟩ := create_adds account values s
  obtain ⟨t', hy, hadds'⟩ := create_adds account' (values.map (Value.move σ)) t
  rw [hx, hy]
  exact hm.twin hs hadds hadds' .nil hvalues

theorem Maps.create_twin (account account' : Nat) {pairs : List (Key × Value)}
    (hpairs : ∀ p ∈ pairs, s.Has p.2) :
    Store.Twin σ s (Store.Leads σ .map) ((create account pairs).run s)
      ((create account' (Entries.move σ pairs)).run t) := by
  obtain ⟨s', hx, hadds⟩ := create_adds account pairs s
  obtain ⟨t', hy, hadds'⟩ := create_adds account' (Entries.move σ pairs) t
  rw [hx, hy]
  rw [show ([] : List (Key × Value)) = Entries.move σ [] from rfl, Entries.storeAll_move] at hadds'
  have hkeys : (Entries.keys []).Nodup := .nil
  refine hm.twin hs hadds hadds' (Entries.storeAll_keys_nodup hkeys pairs) fun v hv => ?_
  obtain ⟨p, hp, rfl⟩ := List.mem_map.mp hv
  exact hpairs p ((Entries.mem_storeAll hp).resolve_left List.not_mem_nil)

theorem Sets.create_twin (account account' : Nat) (values : List Value) :
    Store.Twin σ s (Store.Leads σ .set) ((create account values).run s)
      ((create account' (values.map (Value.move σ))).run t) := by
  obtain ⟨s', hx, hkeeps, hadds⟩ := create_adds account values s
  obtain ⟨t', hy, -, hadds'⟩ := create_adds account' (values.map (Value.move σ)) t
  rw [collect_move] at hy hadds'
  rw [hx, hy]
  cases hc : collect [] values with
  | error f => exact .error f hkeeps
  | ok keys =>
    refine hm.twin hs (hadds keys hc) (hadds' keys hc) (collect_nodup .nil hc) fun v hv => ?_
    obtain ⟨k, -, rfl⟩ := List.mem_map.mp hv
    exact Store.has_of_plain (by cases k <;> rfl)

end New

/-! ## Operators -/

/-- What is printed when two values are added: the one next to a text. -/
def Operators.printed? : Value → Value → Option Value
  | .str _, v | v, .str _ => some v
  | _, _ => none

theorem Operators.printed?_move (σ : Nat → Nat) (l r : Value) :
    printed? (l.move σ) (r.move σ) = (printed? l r).map (Value.move σ) := by
  cases l <;> cases r <;> rfl

/-- Operators say the same of mirrored values, unless they have to print what has no end. -/
theorem Store.Mirrors.evaluate {σ : Nat → Nat} {s t : Store} (hm : Mirrors σ s t) (hs : s.Whole)
    {l r : Value} (hl : s.Has l) (hr : s.Has r) (op : BinaryOp)
    (hprinted : op = .add → ∀ v ∈ Operators.printed? l r, s.nests s.containers.size v = true) :
    Operators.evaluate t (l.move σ) (r.move σ) op = Operators.evaluate s l r op := by
  have hmismatch : Operators.mismatch (l.move σ) (r.move σ) op = Operators.mismatch l r op := by
    rw [Operators.mismatch, Operators.mismatch, Value.typeName_move, Value.typeName_move]
  by_cases hadd : op = .add
  · subst hadd
    have hdisplay {v : Value} (hv : v ∈ Operators.printed? l r) :
        t.display (v.move σ) = s.display v := hm.display (hprinted rfl v hv)
    cases l with
    | str a =>
      cases r with
      | str b => rfl
      | _ => exact congrArg (fun text => Except.ok (Value.str (a ++ text))) (hdisplay rfl)
    | _ =>
      cases r with
      | str b => exact congrArg (fun text => Except.ok (Value.str (text ++ b))) (hdisplay rfl)
      | _ => first | exact congrArg Except.error hmismatch | rfl
  · unfold Operators.evaluate
    rw [hm.same hs hl hr, hmismatch]
    simp only [if_neg hadd]
    cases l <;> cases r <;> rfl

end MeteredScript
