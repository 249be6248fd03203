import MeteredScript.Proofs.Accounting
import MeteredScript.Proofs.Store.ListWriting

/-!
# Copies of lists, and changes in place

What a list can be changed into in place, it can also be copied into. The copy is a new list of what
is left in place, and the list that it is taken from stays as it was. Only sorting can fail, and then
it fails either way, and an index of no element is refused.
-/

namespace MeteredScript

namespace Lists

variable {s : Store} {l : Handle}

/-- One operation makes a new list of what the other one leaves in place. -/
def Agree {ρ : Type} (s : Store) (l : Handle) (copy : StoreM Handle) (inPlace : StoreM ρ) : Prop :=
  ∃ c t r u, copy.run s = (.ok c, t) ∧ inPlace.run s = (.ok r, u) ∧ s.NewList l c (u.items l) t

/-- The elements that are left are committed, whatever is reported and done then. -/
theorem agree_of_items (hb : s.Balanced) {ρ : Type} {values : List Value} {copy : StoreM Handle}
    {inPlace : StoreM ρ} {r : ρ} {u : Store} (hcopy : copy.run s = (sibling l values).run s)
    (hplace : inPlace.run s = (.ok r, u)) (hleft : u.items l = values) :
    Agree s l copy inPlace := by
  obtain ⟨c, t, hrun, hnew⟩ := sibling_newList hb l values
  exact ⟨c, t, r, u, hcopy.trans hrun, hplace, hleft ▸ hnew⟩

theorem sorts_agree (hb : s.Balanced) (hl : s.Fits .list l) (ascending : Bool) :
    Agree s l (toSorted l ascending) (sort ⟨l.target, .owner⟩ ascending) ∨
      ∃ f, (toSorted l ascending).run s = (.error f, s) ∧
        (sort ⟨l.target, .owner⟩ ascending).run s = (.error f, s) := by
  have hcopy : (toSorted l ascending).run s =
      ((liftM (Sorting.sortBy id ascending (s.items l)) : StoreM _) >>= sibling l).run s := rfl
  have hplace : (sort ⟨l.target, .owner⟩ ascending).run s =
      ((liftM (Sorting.sortBy id ascending (s.items l)) : StoreM _) >>= fun sorted =>
        StoreM.commit ⟨l.target, .owner⟩ (.items sorted) []).run s := rfl
  cases hsort : Sorting.sortBy id ascending (s.items l) with
  | error f =>
    rw [hsort] at hcopy hplace
    exact .inr ⟨f, hcopy, hplace⟩
  | ok sorted =>
    rw [hsort] at hcopy hplace
    exact .inl (agree_of_items hb hcopy hplace (hl.items_commit sorted []))

/-- A negative index counts from the end, but is named as it was given. -/
theorem withElement_run (l : Handle) (index : Int) (v : Value) (s : Store) :
    (withElement l index v).run s =
      match Position.ofElement (if index < 0 then index + (s.items l).length else index)
          (s.items l).length with
      | .ok i => (sibling l ((s.items l).set i v)).run s
      | .error _ => (.error (.indexOutOfRange index (s.items l).length), s) := by
  unfold withElement
  change ExceptT.run (match Position.ofElement _ (s.items l).length with
    | .ok i => sibling l ((s.items l).set i v)
    | .error _ => throw (Fault.indexOutOfRange index (s.items l).length)) s = _
  cases Position.ofElement _ (s.items l).length <;> rfl

section Indices

variable {index : Int} (v : Value)

theorem withElement_agree (hb : s.Balanced) (hl : s.Fits .list l) (h : 0 ≤ index)
    (hlt : index < (s.items l).length) :
    Agree s l (withElement l index v) (set ⟨l.target, .owner⟩ index v) := by
  have hfound : Position.ofElement index (s.items l).length = .ok index.toNat := if_pos ⟨h, hlt⟩
  have hcopy := withElement_run l index v s
  rw [if_neg (Int.not_lt.mpr h), hfound] at hcopy
  have hplace : (set ⟨l.target, .owner⟩ index v).run s =
      ((liftM (Position.ofElement index (s.items l).length) : StoreM _) >>= fun i => do
        StoreM.commit ⟨l.target, .owner⟩ (.items ((s.items l).set i v))
          [(.removed, .index i, (s.items l).getD i .null), (.added, .index i, v)]
        return (s.items l).getD i .null).run s := rfl
  rw [hfound] at hplace
  exact agree_of_items hb hcopy hplace (hl.items_commit ..)

theorem withElement_negative (h : index < 0) (hle : -(s.items l).length ≤ index) :
    (withElement l index v).run s = (withElement l (index + (s.items l).length) v).run s := by
  have hfound : Position.ofElement (index + (s.items l).length) (s.items l).length =
      .ok (index + (s.items l).length).toNat := if_pos (by omega)
  rw [withElement_run, withElement_run, if_pos h, if_neg (by omega), hfound]

theorem withElement_out (h : index < -(s.items l).length ∨ (s.items l).length ≤ index) :
    (withElement l index v).run s = (.error (.indexOutOfRange index (s.items l).length), s) := by
  have hnone : Position.ofElement (if index < 0 then index + (s.items l).length else index)
      (s.items l).length = .error (.indexOutOfRange
        (if index < 0 then index + (s.items l).length else index) (s.items l).length) := by
    refine if_neg ?_
    split <;> omega
  rw [withElement_run, hnone]

end Indices

/-- On every list that was reached, copying and changing in place agree. A negative index of an
element is one that counts from the end, and every other one that is no element's is refused. -/
theorem list_copies_agree {start m : Machine} (hstart : start.store.Fresh) (h : Runs start m)
    (hl : m.store.Fits .list l) :
    (∀ ascending,
        Agree m.store l (toSorted l ascending) (sort ⟨l.target, .owner⟩ ascending) ∨
          ∃ f, (toSorted l ascending).run m.store = (.error f, m.store) ∧
            (sort ⟨l.target, .owner⟩ ascending).run m.store = (.error f, m.store)) ∧
      Agree m.store l (toReversed l) (reverse ⟨l.target, .owner⟩) ∧
      (∀ start count values, Agree m.store l (toSpliced l start count values)
        (splice ⟨l.target, .owner⟩ start count values)) ∧
      (∀ values, Agree m.store l (concat l values) (addAll ⟨l.target, .owner⟩ values)) ∧
      ∀ (index : Int) (v : Value),
        (0 ≤ index → index < (m.store.items l).length →
          Agree m.store l (withElement l index v) (set ⟨l.target, .owner⟩ index v)) ∧
        (index < 0 → -(m.store.items l).length ≤ index →
          (withElement l index v).run m.store =
            (withElement l (index + (m.store.items l).length) v).run m.store) ∧
        (index < -(m.store.items l).length ∨ (m.store.items l).length ≤ index →
          (withElement l index v).run m.store =
            (.error (.indexOutOfRange index (m.store.items l).length), m.store)) := by
  have hb := h.balanced hstart.balanced
  refine ⟨sorts_agree hb hl, ?_, fun start count values => ?_, fun values => ?_,
    fun index v => ⟨withElement_agree v hb hl, withElement_negative v, withElement_out v⟩⟩
  · exact agree_of_items hb rfl rfl (hl.items_commit _ [])
  · obtain ⟨c, u, hplace, hexchanged⟩ := splice_run hl start count values
    exact agree_of_items hb rfl hplace hexchanged.left
  · exact agree_of_items hb rfl rfl (hl.items_commit ..)

/-- A host that has opened one metered account. -/
def counting : Machine := { Machine.bare with store := ⟨#[.opened .itemised true], #[]⟩ }

/-- A host that has made a list, and has put a text in front. -/
def prepended : Machine :=
  ((Act.onStore (unshift ⟨0, .owner⟩ (.str "a"))).run
    ((Act.onStore (create 0 [.int 3, .int 1, .int 2])).run counting).2).2

theorem list_copies_agree_prepended :
    ∃ c t r u, Runs counting prepended ∧
      (toSpliced ⟨0, .owner⟩ (-2) 1 [.int 7, .null]).run prepended.store = (.ok c, t) ∧
      (splice ⟨0, .owner⟩ (-2) 1 [.int 7, .null]).run prepended.store = (.ok r, u) ∧
      u.items ⟨0, .owner⟩ = [.str "a", .int 3, .int 7, .null, .int 2] ∧
      prepended.store.NewList ⟨0, .owner⟩ c [.str "a", .int 3, .int 7, .null, .int 2] t ∧
      (withElement ⟨0, .owner⟩ (-5) .null).run prepended.store =
        (.error (.indexOutOfRange (-5) 4), prepended.store) := by
  have hfresh : counting.store.Fresh :=
    ⟨fun a ha => ⟨.itemised, true, by simpa [counting] using ha⟩, rfl⟩
  have hrun : Runs counting prepended :=
    .trans (.operate (.listCreate 0 _) counting) (.operate (.listUnshift ⟨0, .owner⟩ _) _)
  have hl : prepended.store.Fits .list ⟨0, .owner⟩ := by decide +kernel
  have hlength : (prepended.store.items ⟨0, .owner⟩).length = 4 := by decide +kernel
  have hleft : ((splice ⟨0, .owner⟩ (-2) 1 [.int 7, .null]).run prepended.store).2.items
      ⟨0, .owner⟩ = [.str "a", .int 3, .int 7, .null, .int 2] := by decide +kernel
  obtain ⟨-, -, hspliced, -, hwith⟩ := list_copies_agree hfresh hrun hl
  obtain ⟨c, t, r, u, hcopy, hplace, hnew⟩ := hspliced (-2) 1 [.int 7, .null]
  have hout := (hwith (-5) .null).2.2 (by rw [hlength]; decide)
  rw [hlength] at hout
  rw [hplace] at hleft
  rw [hleft] at hnew
  exact ⟨c, t, r, u, hrun, hcopy, hplace, hleft, hnew, hout⟩

end Lists

end MeteredScript
