import MeteredScript.Proofs.Store.Realm
import MeteredScript.Store.Lists

/-!
# Operations on lists take steps

Whoever holds a list and some values holds what the operations on that list answer, and every change
that they make is a step of the store.
-/

namespace MeteredScript.Lists

open StoreM (Safe)

variable {R : Realm}

theorem create_safe (account : Nat) {values : List Value} (hv : ∀ v ∈ values, R.admits v) :
    Safe R (create account values) R.handle := by
  unfold create
  refine .bind (.allocate account rfl) fun l hl => ?_
  exact .bind (.commit hl.1 hl.2 hv) fun _ _ => .pure hl.1

theorem sibling_safe (l : Handle) {values : List Value} (hv : ∀ v ∈ values, R.admits v) :
    Safe R (sibling l values) R.handle := by
  unfold sibling
  exact .bind (.accountOf l) fun account _ => create_safe account hv

theorem admits_getD {items : List Value} (hi : ∀ v ∈ items, R.admits v) (i : Nat) :
    R.admits (items.getD i .null) := by
  rw [List.getD_eq_getElem?_getD]
  cases hg : items[i]? with
  | none => trivial
  | some v => exact hi v (List.mem_of_getElem? hg)

theorem get_safe (l : Handle) (index : Int) : Safe R (get l index) R.admits := by
  unfold get
  refine .bind (.items l) fun items hi => ?_
  exact .check fun i => .pure (admits_getD hi i)

/-! ## Copies -/

theorem slice_safe (l : Handle) (start stop : Int) : Safe R (slice l start stop) R.handle := by
  unfold slice
  refine .bind (.items l) fun items hi => sibling_safe l fun v hv => ?_
  exact hi v (List.mem_of_mem_take (List.mem_of_mem_drop hv))

theorem subList_safe (l : Handle) (start stop : Int) : Safe R (subList l start stop) R.handle := by
  unfold subList
  refine .bind (.items l) fun items hi => ?_
  refine .check fun first => ?_
  refine .check fun last => ?_
  have hs : Safe R (sibling l ((items.take last).drop first)) R.handle :=
    sibling_safe l fun v hv => hi v (List.mem_of_mem_take (List.mem_of_mem_drop hv))
  split
  · exact .bind (.throw _ fun _ => True) fun _ _ => hs
  · exact hs

theorem concat_safe (l : Handle) {values : List Value} (hv : ∀ v ∈ values, R.admits v) :
    Safe R (concat l values) R.handle := by
  unfold concat
  refine .bind (.items l) fun items hi => sibling_safe l ?_
  exact List.forall_mem_append.mpr ⟨hi, hv⟩

theorem mem_of_sortBy {α : Type} {valueOf : α → Value} {ascending : Bool} {items sorted : List α}
    (h : Sorting.sortBy valueOf ascending items = .ok sorted) : ∀ a ∈ sorted, a ∈ items := by
  unfold Sorting.sortBy at h
  intro a ha
  rcases hr : Sorting.ranks (items.map valueOf) with e | keys
  · rw [hr] at h
    cases h
  · rw [hr] at h
    rw [← Except.ok.inj h] at ha
    obtain ⟨p, hp, rfl⟩ := List.mem_map.mp ha
    exact (List.of_mem_zip ((List.mergeSort_perm _ _).mem_iff.mp hp)).2

theorem toSorted_safe (l : Handle) (ascending : Bool) :
    Safe R (toSorted l ascending) R.handle := by
  unfold toSorted
  refine .bind (.items l) fun items hi => ?_
  refine .bind (.lift fun sorted => mem_of_sortBy) fun sorted hs => ?_
  exact sibling_safe l fun v hv => hi v (hs v hv)

theorem toReversed_safe (l : Handle) : Safe R (toReversed l) R.handle := by
  unfold toReversed
  refine .bind (.items l) fun items hi => sibling_safe l fun v hv => ?_
  exact hi v (List.mem_reverse.mp hv)

theorem cut_mem {items : List Value} (hi : ∀ v ∈ items, R.admits v) (start count : Int) :
    (∀ v ∈ (cut items start count).before, R.admits v) ∧
      (∀ v ∈ (cut items start count).taken, R.admits v) ∧
      ∀ v ∈ (cut items start count).after, R.admits v := by
  refine ⟨?_, ?_, ?_⟩
  · intro v hv
    exact hi v (List.mem_of_mem_take hv)
  · intro v hv
    exact hi v (List.mem_of_mem_drop (List.mem_of_mem_take hv))
  · intro v hv
    exact hi v (List.mem_of_mem_drop hv)

theorem toSpliced_safe (l : Handle) (start count : Int) {values : List Value}
    (hv : ∀ v ∈ values, R.admits v) : Safe R (toSpliced l start count values) R.handle := by
  unfold toSpliced
  refine .bind (.items l) fun items hi => sibling_safe l ?_
  obtain ⟨hb, _, ha⟩ := cut_mem hi start count
  exact List.forall_mem_append.mpr ⟨List.forall_mem_append.mpr ⟨hb, hv⟩, ha⟩

theorem withElement_safe (l : Handle) (index : Int) {v : Value} (hv : R.admits v) :
    Safe R (withElement l index v) R.handle := by
  unfold withElement
  refine .bind (.items l) fun items hi => ?_
  dsimp only
  rcases Position.ofElement (if index < 0 then index + items.length else index) items.length
    with e | i
  · exact .throw _ _
  · refine sibling_safe l fun w hw => ?_
    rcases List.mem_or_eq_of_mem_set hw with hw | rfl
    · exact hi w hw
    · exact hv

/-! ## Changes -/

theorem insertAll_mem {items values : List Value} (hi : ∀ v ∈ items, R.admits v)
    (hv : ∀ v ∈ values, R.admits v) (i : Nat) :
    ∀ v ∈ items.take i ++ values ++ items.drop i, R.admits v := by
  refine List.forall_mem_append.mpr ⟨List.forall_mem_append.mpr ⟨?_, hv⟩, ?_⟩
  · exact fun v hm => hi v (List.mem_of_mem_take hm)
  · exact fun v hm => hi v (List.mem_of_mem_drop hm)

variable {l : Handle} (hl : R.handle l)

include hl

theorem push_safe {v : Value} (hv : R.admits v) : Safe R (push l v) fun _ => True := by
  unfold push
  refine .bind (.checkOwner l _) fun _ ho => .bind (.items l) fun items hi => ?_
  exact .commit hl ho (List.forall_mem_append.mpr ⟨hi, List.forall_mem_singleton.mpr hv⟩)

theorem removeIndex_safe (ho : l.view = .owner) (i : Nat) : Safe R (removeIndex l i) R.admits := by
  unfold removeIndex
  refine .bind (.items l) fun items hi => ?_
  split
  · next v hg =>
    refine .bind (.commit hl ho fun w hw => hi w (List.mem_of_mem_eraseIdx hw)) fun _ _ => ?_
    exact .pure (hi v (List.mem_of_getElem? hg))
  · exact .pure trivial

theorem pop_safe : Safe R (pop l) R.admits := by
  unfold pop
  refine .bind (.checkOwner l _) fun _ ho => .bind (.items l) fun items _ => ?_
  exact removeIndex_safe hl ho _

theorem shift_safe : Safe R (shift l) R.admits := by
  unfold shift
  exact .bind (.checkOwner l _) fun _ ho => removeIndex_safe hl ho 0

theorem insert_safe (index : Int) {v : Value} (hv : R.admits v) :
    Safe R (insert l index v) fun _ => True := by
  unfold insert
  refine .bind (.checkOwner l _) fun _ ho => .bind (.items l) fun items hi => ?_
  refine .check fun i => .commit hl ho ?_
  have := insertAll_mem hi (List.forall_mem_singleton.mpr hv) i
  rwa [List.append_assoc, List.singleton_append] at this

theorem unshift_safe {v : Value} (hv : R.admits v) : Safe R (unshift l v) fun _ => True :=
  insert_safe hl 0 hv

theorem addAll_safe {values : List Value} (hv : ∀ v ∈ values, R.admits v) :
    Safe R (addAll l values) fun _ => True := by
  unfold addAll
  refine .bind (.checkOwner l _) fun _ ho => .bind (.items l) fun items hi => ?_
  exact .commit hl ho (List.forall_mem_append.mpr ⟨hi, hv⟩)

theorem insertAll_safe (index : Int) {values : List Value} (hv : ∀ v ∈ values, R.admits v) :
    Safe R (insertAll l index values) fun _ => True := by
  unfold insertAll
  refine .bind (.checkOwner l _) fun _ ho => .bind (.items l) fun items hi => ?_
  refine .check fun i => ?_
  exact .commit hl ho (insertAll_mem hi hv i)

theorem removeAt_safe (index : Int) : Safe R (removeAt l index) R.admits := by
  unfold removeAt
  refine .bind (.checkOwner l _) fun _ ho => .bind (.items l) fun items _ => ?_
  exact .check fun i => removeIndex_safe hl ho i

theorem removeValue_safe (v : Value) : Safe R (removeValue l v) fun _ => True := by
  unfold removeValue
  refine .bind (.checkOwner l _) fun _ ho => .bind .current fun s _ => ?_
  split
  · next i _ => exact .bind (removeIndex_safe hl ho i) fun _ _ => .pure trivial
  · exact .pure trivial

theorem set_safe (index : Int) {v : Value} (hv : R.admits v) :
    Safe R (set l index v) R.admits := by
  unfold set
  refine .bind (.checkOwner l _) fun _ ho => .bind (.items l) fun items hi => ?_
  refine .check fun i => ?_
  refine .bind (.commit hl ho fun w hw => ?_) fun _ _ => .pure (admits_getD hi i)
  rcases List.mem_or_eq_of_mem_set hw with hw | rfl
  · exact hi w hw
  · exact hv

theorem clear_safe : Safe R (clear l) fun _ => True := by
  unfold clear
  refine .bind (.checkOwner l _) fun _ ho => .bind (.items l) fun items _ => ?_
  exact .commit hl ho (fun _ hw => absurd hw List.not_mem_nil)

theorem splice_safe (start count : Int) {values : List Value} (hv : ∀ v ∈ values, R.admits v) :
    Safe R (splice l start count values) R.handle := by
  unfold splice
  refine .bind (.checkOwner l _) fun _ ho => .bind (.items l) fun items hi => ?_
  obtain ⟨hb, ht, ha⟩ := cut_mem hi start count
  have hall := List.forall_mem_append.mpr ⟨List.forall_mem_append.mpr ⟨hb, hv⟩, ha⟩
  exact .bind (.commit hl ho hall) fun _ _ => sibling_safe l ht

theorem sort_safe (ascending : Bool) : Safe R (sort l ascending) fun _ => True := by
  unfold sort
  refine .bind (.checkOwner l _) fun _ ho => .bind (.items l) fun items hi => ?_
  refine .bind (.lift fun sorted => mem_of_sortBy) fun sorted hs => ?_
  exact .commit hl ho (fun v hv => hi v (hs v hv))

theorem reverse_safe : Safe R (reverse l) fun _ => True := by
  unfold reverse
  refine .bind (.checkOwner l _) fun _ ho => .bind (.items l) fun items hi => ?_
  exact .commit hl ho (fun v hv => hi v (List.mem_reverse.mp hv))

theorem fill_safe {v : Value} (hv : R.admits v) (start stop : Int) :
    Safe R (fill l v start stop) fun _ => True := by
  unfold fill
  refine .bind (.checkOwner l _) fun _ ho => .bind (.items l) fun items hi => ?_
  refine .commit hl ho (List.forall_mem_append.mpr ⟨List.forall_mem_append.mpr ⟨?_, ?_⟩, ?_⟩)
  · exact fun w hw => hi w (List.mem_of_mem_take hw)
  · intro w hw
    obtain ⟨_, _, rfl⟩ := List.mem_map.mp hw
    exact hv
  · exact fun w hw => hi w (List.mem_of_mem_drop hw)

end MeteredScript.Lists
