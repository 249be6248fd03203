import MeteredScript.Proofs.Store.Sorted
import MeteredScript.Proofs.Store.Telling

/-!
# Calls on lists tell what they change

A list tells of every value that it takes in or gives out, and at which index. Only sorting and
reversing in place move values without a word.
-/

namespace MeteredScript.Lists

open StoreM (Sure Honest)
open Contents

variable {fits : Prop} {loose : Nat → Prop} {s : Store}

/-! ## Copies -/

theorem create_sure (account : Nat) (values : List Value) :
    Sure fits loose s (create account values) := by
  unfold create
  apply Sure.allocate account rfl
  intro l t hl
  obtain ⟨c, hc, hcontents⟩ := Option.map_eq_some_iff.mp hl
  have htells : c.contents.Tells (addedRun 0 values) (.items values) := by
    rw [hcontents]
    exact tells_items (by simpa using replayAll_addedRun [] values [])
  exact .bind (.commit fun _ => ⟨c, hc, htells⟩) fun _ _ _ => .pure l

theorem sibling_sure (l : Handle) (values : List Value) :
    Sure fits loose s (sibling l values) := by
  unfold sibling
  exact .read rfl (create_sure (s.accountOf l) values)

theorem get_honest (l : Handle) (index : Int) : Honest fits loose s (get l index) := by
  unfold get
  refine .read rfl ?_
  apply Honest.check (Position.ofElement_ordinary _ _)
  exact fun i _ => .of_sure (.pure _)

theorem slice_honest (l : Handle) (start stop : Int) :
    Honest fits loose s (slice l start stop) := by
  unfold slice
  exact .read rfl (.of_sure (sibling_sure l _))

theorem subList_honest (l : Handle) (start stop : Int) :
    Honest fits loose s (subList l start stop) := by
  unfold subList
  refine .read rfl ?_
  apply Honest.check (Position.ofGap_ordinary _ _)
  intro first _
  apply Honest.check (Position.ofGap_ordinary _ _)
  intro last _
  split
  · exact .throw rfl
  · exact .of_sure (sibling_sure l _)

theorem concat_honest (l : Handle) (values : List Value) :
    Honest fits loose s (concat l values) := by
  unfold concat
  exact .read rfl (.of_sure (sibling_sure l _))

theorem toSorted_honest (l : Handle) (ascending : Bool) :
    Honest fits loose s (toSorted l ascending) := by
  unfold toSorted
  refine .read rfl ?_
  apply Honest.check (Sorting.sortBy_ordinary _ _ _)
  exact fun sorted _ => .of_sure (sibling_sure l sorted)

theorem toReversed_honest (l : Handle) : Honest fits loose s (toReversed l) := by
  unfold toReversed
  exact .read rfl (.of_sure (sibling_sure l _))

theorem toSpliced_honest (l : Handle) (start count : Int) (values : List Value) :
    Honest fits loose s (toSpliced l start count values) := by
  unfold toSpliced
  exact .read rfl (.of_sure (sibling_sure l _))

theorem withElement_honest (l : Handle) (index : Int) (v : Value) :
    Honest fits loose s (withElement l index v) := by
  unfold withElement
  refine .read rfl ?_
  dsimp only
  split
  · exact .of_sure (sibling_sure l _)
  · exact .throw rfl

/-! ## Changes -/

@[simp] theorem addedRun_singleton (i : Nat) (v : Value) :
    addedRun i [v] = [(.added, .index i, v)] := rfl

theorem tells_added (before values after : List Value) :
    (items (before ++ after)).Tells (addedRun before.length values)
      (items (before ++ values ++ after)) :=
  tells_items (replayAll_addedRun before values after)

theorem tells_removed {values : List Value} {i : Nat} {v : Value} (h : values[i]? = some v) :
    (items values).Tells [(.removed, .index i, v)] (items (values.eraseIdx i)) :=
  tells_items (by simp [replay, h])

theorem tells_insert {values : List Value} {i : Nat} (h : i ≤ values.length) (added : List Value) :
    (items values).Tells (addedRun i added) (items (values.take i ++ added ++ values.drop i)) := by
  have hlen : (values.take i).length = i := by simp [h]
  simpa [hlen] using tells_added (values.take i) added (values.drop i)

theorem tells_set {values : List Value} {i : Nat} (h : i < values.length) (v : Value) :
    (items values).Tells [(.removed, .index i, values.getD i .null), (.added, .index i, v)]
      (items (values.set i v)) := by
  apply tells_items
  have hlen : (values.take i).length = i := by simp; omega
  have hold : values.take i ++ [values.getD i .null] ++ values.drop (i + 1) = values := by
    simp [h]
  have hnew : values.take i ++ [v] ++ values.drop (i + 1) = values.set i v := by
    simp [List.set_eq_take_append_cons_drop, h]
  have hfill := replayAll_fill v (values.take i) [values.getD i .null] (values.drop (i + 1))
  rwa [hold, hlen, List.map_singleton, hnew] at hfill

theorem tells_cut {items : List Value} (start count : Int) (values : List Value) :
    (Contents.items items).Tells
      ((cut items start count).taken.map
          (fun v => (.removed, .index (cut items start count).start, v)) ++
        addedRun (cut items start count).start values)
      (.items ((cut items start count).before ++ values ++ (cut items start count).after)) := by
  have hstart := Position.clamp_le start items.length
  generalize hc : cut items start count = c
  have hlen : c.before.length = c.start := by simp [← hc, cut, hstart]
  have hsplit : c.before ++ c.taken ++ c.after = items := by
    simp only [← hc, cut, List.append_assoc, ← List.drop_drop, List.take_append_drop]
  have hremoved := replayAll_removedRun c.before c.taken c.after
  rw [hsplit, hlen] at hremoved
  exact (tells_items hremoved).append (hlen ▸ tells_added c.before values c.after)

theorem tells_fill {items : List Value} (v : Value) (start stop : Int) :
    (Contents.items items).Tells
      (((sliceOf items start stop).zipIdx (Position.clamp start items.length)).flatMap
        fun (old, i) => [(.removed, .index i, old), (.added, .index i, v)])
      (.items (items.take (Position.clamp start items.length) ++
        (sliceOf items start stop).map (fun _ => v) ++
        items.drop (Position.clamp start items.length + (sliceOf items start stop).length))) := by
  have hrun : sliceOf items start stop <+: items.drop (Position.clamp start items.length) := by
    rw [sliceOf, List.drop_take]
    exact List.take_prefix _ _
  have hfirst : (items.take (Position.clamp start items.length)).length =
      Position.clamp start items.length := by simp [Position.clamp_le]
  generalize sliceOf items start stop = run at hrun ⊢
  generalize Position.clamp start items.length = first at hrun hfirst ⊢
  have hsplit : items.take first ++ run ++ items.drop (first + run.length) = items := by
    rw [← List.drop_drop, List.append_assoc, List.prefix_iff_eq_append.mp hrun,
      List.take_append_drop]
  have hfill := replayAll_fill v (items.take first) run (items.drop (first + run.length))
  rw [hsplit, hfirst] at hfill
  exact tells_items hfill

variable {l : Handle}

theorem commit_sure {new : Contents} {changes : List (Change × Slot × Value)}
    (h : (items (s.items l)).Tells changes new) :
    Sure (s.Fits .list l) loose s (StoreM.commit l new changes) := by
  apply Sure.commit
  intro hfits
  obtain ⟨c, hc, hcontents⟩ := hfits.items
  exact ⟨c, hc, hcontents ▸ h⟩

theorem reorder_sure {sorted : List Value} (may : loose l.target)
    (h : (s.items l).Perm sorted) :
    Sure (s.Fits .list l) loose s (StoreM.commit l (items sorted) []) := by
  constructor
  · intro hfits
    obtain ⟨c, hc, hcontents⟩ := hfits.items
    exact .single (.reorder may hc hcontents h)
  · exact ⟨(), rfl⟩

theorem push_honest (v : Value) : Honest (s.Fits .list l) loose s (push l v) := by
  unfold push
  apply Honest.check (l.checkOwner_ordinary _)
  intro _ _
  refine .read rfl ?_
  apply Honest.of_sure
  apply commit_sure
  simpa using tells_added (s.items l) [v] []

theorem removeIndex_sure (i : Nat) : Sure (s.Fits .list l) loose s (removeIndex l i) := by
  unfold removeIndex
  refine .read rfl ?_
  cases hi : (s.items l)[i]? with
  | none => exact .pure _
  | some v => exact .bind (commit_sure (tells_removed hi)) fun _ _ _ => .pure v

theorem pop_honest : Honest (s.Fits .list l) loose s (pop l) := by
  unfold pop
  apply Honest.check (l.checkOwner_ordinary _)
  intro _ _
  exact .read rfl (.of_sure (removeIndex_sure _))

theorem shift_honest : Honest (s.Fits .list l) loose s (shift l) := by
  unfold shift
  apply Honest.check (l.checkOwner_ordinary _)
  exact fun _ _ => .of_sure (removeIndex_sure 0)

theorem ofGap_le {index : Int} {length i : Nat} (h : Position.ofGap index length = .ok i) :
    i ≤ length := by
  unfold Position.ofGap at h
  split at h
  · obtain rfl := Except.ok.inj h
    omega
  · cases h

theorem ofElement_lt {index : Int} {length i : Nat} (h : Position.ofElement index length = .ok i) :
    i < length := by
  unfold Position.ofElement at h
  split at h
  · obtain rfl := Except.ok.inj h
    omega
  · cases h

theorem insert_honest (index : Int) (v : Value) :
    Honest (s.Fits .list l) loose s (insert l index v) := by
  unfold insert
  apply Honest.check (l.checkOwner_ordinary _)
  intro _ _
  refine .read rfl ?_
  apply Honest.check (Position.ofGap_ordinary _ _)
  intro i hi
  apply Honest.of_sure
  apply commit_sure
  simpa using tells_insert (ofGap_le hi) [v]

theorem addAll_honest (values : List Value) :
    Honest (s.Fits .list l) loose s (addAll l values) := by
  unfold addAll
  apply Honest.check (l.checkOwner_ordinary _)
  intro _ _
  refine .read rfl ?_
  apply Honest.of_sure
  apply commit_sure
  simpa using tells_added (s.items l) values []

theorem insertAll_honest (index : Int) (values : List Value) :
    Honest (s.Fits .list l) loose s (insertAll l index values) := by
  unfold insertAll
  apply Honest.check (l.checkOwner_ordinary _)
  intro _ _
  refine .read rfl ?_
  apply Honest.check (Position.ofGap_ordinary _ _)
  intro i hi
  exact .of_sure (commit_sure (tells_insert (ofGap_le hi) values))

theorem removeAt_honest (index : Int) : Honest (s.Fits .list l) loose s (removeAt l index) := by
  unfold removeAt
  apply Honest.check (l.checkOwner_ordinary _)
  intro _ _
  refine .read rfl ?_
  apply Honest.check (Position.ofElement_ordinary _ _)
  exact fun i _ => .of_sure (removeIndex_sure i)

theorem removeValue_honest (v : Value) :
    Honest (s.Fits .list l) loose s (removeValue l v) := by
  unfold removeValue
  apply Honest.check (l.checkOwner_ordinary _)
  intro _ _
  refine .read rfl ?_
  apply Honest.of_sure
  split
  · next i _ => exact .bind (removeIndex_sure i) fun _ _ _ => .pure true
  · exact .pure false

theorem set_honest (index : Int) (v : Value) :
    Honest (s.Fits .list l) loose s (set l index v) := by
  unfold set
  apply Honest.check (l.checkOwner_ordinary _)
  intro _ _
  refine .read rfl ?_
  apply Honest.check (Position.ofElement_ordinary _ _)
  intro i hi
  apply Honest.of_sure
  exact .bind (commit_sure (tells_set (ofElement_lt hi) v)) fun _ _ _ => .pure _

theorem clear_honest : Honest (s.Fits .list l) loose s (clear l) := by
  unfold clear
  apply Honest.check (l.checkOwner_ordinary _)
  intro _ _
  refine .read rfl ?_
  exact .of_sure (commit_sure (tells_items (replayAll_clear (s.items l))))

theorem splice_honest (start count : Int) (values : List Value) :
    Honest (s.Fits .list l) loose s (splice l start count values) := by
  unfold splice
  apply Honest.check (l.checkOwner_ordinary _)
  intro _ _
  refine .read rfl ?_
  apply Honest.of_sure
  apply Sure.bind
  · exact commit_sure (tells_cut start count values)
  · exact fun _ _ _ => sibling_sure l _

theorem sort_honest (may : loose l.target) (ascending : Bool) :
    Honest (s.Fits .list l) loose s (sort l ascending) := by
  unfold sort
  apply Honest.check (l.checkOwner_ordinary _)
  intro _ _
  refine .read rfl ?_
  apply Honest.check (Sorting.sortBy_ordinary _ _ _)
  exact fun sorted hs => .of_sure (reorder_sure may (Sorting.sortBy_perm hs))

theorem reverse_honest (may : loose l.target) :
    Honest (s.Fits .list l) loose s (reverse l) := by
  unfold reverse
  apply Honest.check (l.checkOwner_ordinary _)
  intro _ _
  exact .read rfl (.of_sure (reorder_sure may (List.reverse_perm _).symm))

theorem fill_honest (v : Value) (start stop : Int) :
    Honest (s.Fits .list l) loose s (fill l v start stop) := by
  unfold fill
  apply Honest.check (l.checkOwner_ordinary _)
  intro _ _
  refine .read rfl ?_
  apply Honest.of_sure
  exact commit_sure (tells_fill v start stop)

end MeteredScript.Lists
