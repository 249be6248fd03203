import MeteredScript.Proofs.Store.Journal
import MeteredScript.Proofs.Store.Writing

/-!
# What lists come to hold

A list that is changed in place holds the new elements then, whatever is reported of the change. A
new list is charged for each of its elements once, and nothing else is charged or changed for it.
-/

namespace MeteredScript

namespace Store

variable {s t : Store} {l : Handle}

theorem Fits.commit_items (hl : s.Fits .list l) (values : List Value)
    (changes : List (Change × Slot × Value)) :
    (s.commit l.target (.items values) changes).Fits .list l := by
  obtain ⟨c, hc, -⟩ := hl.items
  obtain ⟨d, hd, hcontents⟩ := getElem?_commit_self hc (.items values) changes
  rw [Fits, hd, Option.map_some, hcontents]
  rfl

theorem Fits.items_commit (hl : s.Fits .list l) (values : List Value)
    (changes : List (Change × Slot × Value)) :
    (s.commit l.target (.items values) changes).items l = values := by
  obtain ⟨c, hc, -⟩ := hl.items
  obtain ⟨⟨id, account, memory, contents⟩, hd, rfl⟩ :=
    getElem?_commit_self hc (.items values) changes
  rw [Store.items, hd]

theorem Fits.lt {kind : ValueType} (hl : s.Fits kind l) : l.target < s.containers.size := by
  obtain ⟨c, hc, -⟩ := Option.map_eq_some_iff.mp hl
  exact (Array.getElem?_eq_some_iff.mp hc).1

theorem Keeps.items_of_lt (h : s.Keeps t) (hl : l.target < s.containers.size) :
    t.items l = s.items l := by
  have hc := Array.getElem?_eq_getElem hl
  rw [Store.items, h _ _ hc, Store.items, hc]

/-- A container that was just made has an identity under which nothing was reported. -/
theorem Balanced.found_allocate (hb : s.Balanced) (account : Nat) (contents : Contents) :
    ∃ c, (s.allocate account contents).2.containers[s.containers.size]? = some c ∧
      c.account = account ∧ (account < s.accounts.size → s.changesOf account c.id = []) := by
  refine ⟨⟨(s.accounts[account]?.map (·.issued)).getD 0 + 1, account, 0, contents⟩, ?_, rfl,
    fun hsmall => ?_⟩
  · simp [Store.allocate]
  · have ha := Array.getElem?_eq_getElem hsmall
    rw [ha, Option.map_some, Option.getD_some]
    exact hb.changesOf_unissued ha (Nat.lt_succ_self _)

/-- One list more than before, on the account of another one. It has an identity of its own, each of
its values was charged once, as added at its index, and nothing else was charged. -/
structure NewList (s : Store) (l c : Handle) (values : List Value) (t : Store) : Prop where
  place : c = ⟨s.containers.size, .owner⟩
  size : t.containers.size = s.containers.size + 1
  keeps : s.Keeps t
  fits : t.Fits .list c
  items : t.items c = values
  account : t.accountOf c = s.accountOf l
  charged : ∀ a, t.accounts[t.accountOf c]? = some a →
    a.changesOf (t.idOf c) = Lists.addedRun 0 values ∧ t.memory c = a.balance (t.idOf c)
  others : ∀ account id, account ≠ t.accountOf c ∨ id ≠ t.idOf c →
    t.changesOf account id = s.changesOf account id

/-- A run of a list was exchanged for other values, and is a new list. -/
structure Exchanged (s : Store) (l : Handle) (first count : Nat) (values : List Value) (c : Handle)
    (t : Store) : Prop where
  fresh : s.containers.size ≤ c.target
  fits : t.Fits .list l
  taken : t.items c = ((s.items l).drop first).take count
  left : t.items l = (s.items l).take first ++ values ++ (s.items l).drop (first + count)

end Store

namespace Lists

variable {s : Store} {l : Handle}

theorem sibling_newList (hb : s.Balanced) (l : Handle) (values : List Value) :
    ∃ c t, (sibling l values).run s = (.ok c, t) ∧ s.NewList l c values t := by
  let u := (s.allocate (s.accountOf l) (.items [])).2
  obtain ⟨t, hrun, hkeeps, hsize, hitems⟩ := sibling_run l values s
  obtain rfl : u.commit s.containers.size (.items values) (addedRun 0 values) = t :=
    congrArg Prod.snd hrun
  obtain ⟨c, hc, haccount, hunissued⟩ := hb.found_allocate (s.accountOf l) (.items [])
  have hbalanced := (hb.allocate (s.accountOf l) (.items [])).commit s.containers.size
    (.items values) (addedRun 0 values)
  have hchanges := Store.changesOf_commit hc (.items values) (addedRun 0 values)
  simp only [Store.changesOf_allocate, Store.allocate_accounts_size, haccount] at hchanges
  obtain ⟨d, hd, hcontents⟩ := Store.getElem?_commit_self hc (.items values) (addedRun 0 values)
  obtain ⟨c', hc', hid, hdaccount, -⟩ := Store.face_of_commit hd
  obtain rfl := Option.some.inj (hc.symm.trans hc')
  have hshown : (u.commit s.containers.size (.items values) (addedRun 0 values)).accountOf
        ⟨s.containers.size, .owner⟩ = s.accountOf l ∧
      (u.commit s.containers.size (.items values) (addedRun 0 values)).idOf
        ⟨s.containers.size, .owner⟩ = c.id := by
    rw [Store.accountOf, Store.idOf, hd]
    exact ⟨hdaccount.trans haccount, hid⟩
  refine ⟨_, _, hrun, rfl, hsize, hkeeps, ?_, hitems, hshown.1, fun a ha => ⟨?_, ?_⟩, ?_⟩
  · rw [Store.Fits, hd, Option.map_some, hcontents]
    rfl
  · rw [hshown.1] at ha
    have hsmall : s.accountOf l < s.accounts.size := by
      have := (Array.getElem?_eq_some_iff.mp ha).1
      rwa [Store.commit_accounts_size, Store.allocate_accounts_size] at this
    have hall := hchanges (s.accountOf l) c.id
    rw [hunissued hsmall, if_pos ⟨hsmall, rfl, rfl⟩, Store.changesOf, ha] at hall
    rw [hshown.2]
    exact hall
  · rw [hshown.1, ← haccount, ← hdaccount] at ha
    rw [hshown.2, ← hid, Store.memory, hd]
    exact hbalanced.memory _ d a hd ha
  · intro account id hother
    rw [hshown.1, hshown.2] at hother
    rw [hchanges, if_neg, List.append_nil]
    rintro ⟨-, rfl, rfl⟩
    exact hother.elim (fun h => h rfl) fun h => h rfl

theorem splice_run (hl : s.Fits .list l) (start count : Int) (values : List Value) :
    ∃ c t, (splice ⟨l.target, .owner⟩ start count values).run s = (.ok c, t) ∧
      s.Exchanged l (Position.clamp start (s.items l).length)
        (Position.clampCount count
          ((s.items l).length - Position.clamp start (s.items l).length)) values c t := by
  let k := cut (s.items l) start count
  let left := s.commit l.target (.items (k.before ++ values ++ k.after))
    (k.taken.map (fun v => (.removed, .index k.start, v)) ++ addedRun k.start values)
  obtain ⟨t, hrun, hkeeps, -, hitems⟩ := sibling_run ⟨l.target, .owner⟩ k.taken left
  have hleft : left.Fits .list l := hl.commit_items ..
  refine ⟨_, t, hrun, ?_, hkeeps.fits hleft, hitems, ?_⟩
  · exact Nat.le_of_eq (Store.size_commit ..).symm
  · rw [hkeeps.items_of_lt hleft.lt, hl.items_commit]
    rfl

end Lists

end MeteredScript
