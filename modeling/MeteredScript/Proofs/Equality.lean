import Mathlib.Data.List.Forall2
import MeteredScript.Proofs.Store.Depth

/-!
# Equality is symmetric

Equality looks for everything on its left in what is on its right, never the other way around. As no
key is in a container twice, it comes to the same from the right to the left, at every depth and
even where containers contain themselves. Nor does the order of entries and elements matter, on
either side, as long as what is compared then is one container where it was one before.
-/

namespace MeteredScript

/-- Two handles to one container. -/
def Value.Shares (v w : Value) : Prop :=
  ∃ h k, v.handle? = some h ∧ w.handle? = some k ∧ h.target = k.target

/-- A value without a container and itself, or two handles of one type. -/
inductive Value.Kin : Value → Value → Prop
  | plain {v : Value} (plain : v.handle? = none) : Kin v v
  | list (a b : Handle) : Kin (.list a) (.list b)
  | map (a b : Handle) : Kin (.map a) (.map b)
  | set (a b : Handle) : Kin (.set a) (.set b)

theorem Value.kin_self (v : Value) : v.Kin v := by
  cases v with
  | list a => exact .list a a
  | map a => exact .map a a
  | set a => exact .set a a
  | null | bool | int | float | str | native => exact .plain rfl

theorem Value.Kin.type {v w : Value} (h : v.Kin w) : w.type = v.type := by cases h <;> rfl

theorem Value.Kin.isSome {v w : Value} (h : v.Kin w) : w.handle?.isSome = v.handle?.isSome := by
  cases h <;> rfl

theorem Value.Kin.eq {v w : Value} (h : v.Kin w) (plain : v.handle? = none) : w = v := by
  cases h with
  | plain => rfl
  | list | map | set => cases plain

theorem forall₂_getElem? {α β : Type} {R : α → β → Prop} {as : List α} {bs : List β}
    (h : List.Forall₂ R as bs) {i : Nat} {a : α} (ha : as[i]? = some a) :
    ∃ b, bs[i]? = some b ∧ R a b := by
  induction h generalizing i with
  | nil => cases ha
  | cons hab _ ih =>
    cases i with
    | zero => exact ⟨_, rfl, Option.some.inj ha ▸ hab⟩
    | succ i => exact ih ha

namespace Store

variable {s t : Store}

/-! ## What is equal -/

theorem same_lists (hs : s.Whole) {a b : Handle} (ha : s.Has (.list a)) (hb : s.Has (.list b)) :
    s.same (.list a) (.list b) = true ↔ a.target = b.target ∨
      (s.items a).length = (s.items b).length ∧ ∀ (i : Nat) (v w : Value),
        (s.items a)[i]? = some v → (s.items b)[i]? = some w → s.same v w = true := by
  rw [← sameTo_size hs ha hb (Nat.le_succ _), sameTo_lists]
  simp only [Nat.succ_eq_add_one, Nat.add_right_cancel_iff, exists_eq_left', same]

theorem same_maps (hs : s.Whole) {a b : Handle} (ha : s.Has (.map a)) (hb : s.Has (.map b)) :
    s.same (.map a) (.map b) = true ↔ a.target = b.target ∨
      (Entries.keys (s.entries a)).Perm (Entries.keys (s.entries b)) ∧
        ∀ k v w, (k, v) ∈ s.entries a → (k, w) ∈ s.entries b → s.same v w = true := by
  rw [← sameTo_size hs ha hb (Nat.le_succ _), sameTo_maps hs]
  simp only [Nat.succ_eq_add_one, Nat.add_right_cancel_iff, exists_eq_left', same]

theorem same_sets (hs : s.Whole) {a b : Handle} : s.same (.set a) (.set b) = true ↔
    a.target = b.target ∨ (s.elements a).Perm (s.elements b) :=
  sameTo_sets hs

theorem sameTo_swap (hs : s.Whole) {d : Nat} {v w : Value} (h : s.sameTo d v w = true) :
    s.sameTo d w v = true := by
  induction d using Nat.strong_induction_on generalizing v w with
  | _ d ih =>
    cases v.matchup w with
    | plain left right => exact (s.sameTo_plain_comm d left right).symm.trans h
    | apart type handle => cases (s.sameTo_apart d type handle).symm.trans h
    | sets a b => exact (sameTo_sets hs).mpr (((sameTo_sets hs).mp h).imp .symm .symm)
    | lists a b =>
      refine sameTo_lists.mpr ((sameTo_lists.mp h).imp .symm ?_)
      rintro ⟨e, rfl, hlength, hitems⟩
      refine ⟨e, rfl, hlength.symm, fun i x y hx hy => ?_⟩
      exact ih e (Nat.lt_succ_self e) (hitems i y x hy hx)
    | maps a b =>
      refine (sameTo_maps hs).mpr (((sameTo_maps hs).mp h).imp .symm ?_)
      rintro ⟨e, rfl, hkeys, hentries⟩
      refine ⟨e, rfl, hkeys.symm, fun k x y hx hy => ?_⟩
      exact ih e (Nat.lt_succ_self e) (hentries k y x hy hx)

theorem sameTo_comm (hs : s.Whole) (d : Nat) (v w : Value) : s.sameTo d v w = s.sameTo d w v :=
  Bool.eq_iff_iff.mpr ⟨sameTo_swap hs, sameTo_swap hs⟩

theorem sameTo_of_shares {d : Nat} {v w : Value} (h : v.Shares w) (type : v.type = w.type) :
    s.sameTo d v w = true := by
  obtain ⟨a, b, ha, hb, htarget⟩ := h
  cases v.matchup w with
  | plain left => cases left.symm.trans ha
  | apart differ => exact absurd type differ
  | lists | maps | sets =>
    obtain rfl := Option.some.inj ha
    obtain rfl := Option.some.inj hb
    cases d <;> simp [sameTo, htarget]

/-! ## Reordering -/

/-- Of related values the second is the first with entries of maps and elements of sets put into
another order, in whatever containers it leads to. -/
structure Reorders (s t : Store) (R : Value → Value → Prop) : Prop where
  kin : ∀ {v w : Value}, R v w → v.Kin w
  items : ∀ {a b : Handle}, R (.list a) (.list b) → List.Forall₂ R (s.items a) (t.items b)
  entries : ∀ {a b : Handle}, R (.map a) (.map b) → ∃ pairs, (s.entries a).Perm pairs ∧
    List.Forall₂ (fun p q => q.1 = p.1 ∧ R p.2 q.2) pairs (t.entries b)
  elements : ∀ {a b : Handle}, R (.set a) (.set b) → (s.elements a).Perm (t.elements b)

/-- The values that may be compared with each other when two values are. -/
inductive Compares (s : Store) (v w : Value) : Value → Value → Prop
  | self : Compares s v w v w
  | items {a b : Handle} {i : Nat} {x y : Value} (outer : Compares s v w (.list a) (.list b))
      (left : (s.items a)[i]? = some x) (right : (s.items b)[i]? = some y) : Compares s v w x y
  | entries {a b : Handle} {k : Key} {x y : Value} (outer : Compares s v w (.map a) (.map b))
      (left : (k, x) ∈ s.entries a) (right : (k, y) ∈ s.entries b) : Compares s v w x y

variable {R T : Value → Value → Prop}

namespace Reorders

theorem item (h : s.Reorders t R) {a b : Handle} (hab : R (.list a) (.list b)) {i : Nat} {v : Value}
    (hv : (s.items a)[i]? = some v) : ∃ w, (t.items b)[i]? = some w ∧ R v w :=
  forall₂_getElem? (h.items hab) hv

theorem item_of (h : s.Reorders t R) {a b : Handle} (hab : R (.list a) (.list b)) {i : Nat}
    {w : Value} (hw : (t.items b)[i]? = some w) : ∃ v, (s.items a)[i]? = some v ∧ R v w :=
  forall₂_getElem? (h.items hab).flip hw

theorem entry (h : s.Reorders t R) {a b : Handle} (hab : R (.map a) (.map b)) {k : Key} {v : Value}
    (hv : (k, v) ∈ s.entries a) : ∃ w, (k, w) ∈ t.entries b ∧ R v w := by
  obtain ⟨pairs, hperm, hpairs⟩ := h.entries hab
  obtain ⟨i, hi⟩ := List.mem_iff_getElem?.mp (hperm.mem_iff.mp hv)
  obtain ⟨⟨_, w⟩, hq, rfl, hr⟩ := forall₂_getElem? hpairs hi
  exact ⟨w, List.mem_of_getElem? hq, hr⟩

theorem entry_of (h : s.Reorders t R) {a b : Handle} (hab : R (.map a) (.map b)) {k : Key}
    {w : Value} (hw : (k, w) ∈ t.entries b) : ∃ v, (k, v) ∈ s.entries a ∧ R v w := by
  obtain ⟨pairs, hperm, hpairs⟩ := h.entries hab
  obtain ⟨i, hi⟩ := List.mem_iff_getElem?.mp hw
  obtain ⟨⟨_, v⟩, hp, rfl, hr⟩ := forall₂_getElem? hpairs.flip hi
  exact ⟨v, hperm.mem_iff.mpr (List.mem_of_getElem? hp), hr⟩

theorem keys (h : s.Reorders t R) {a b : Handle} (hab : R (.map a) (.map b)) :
    (Entries.keys (s.entries a)).Perm (Entries.keys (t.entries b)) := by
  obtain ⟨pairs, hperm, hpairs⟩ := h.entries hab
  have heq {ps qs : List (Key × Value)}
      (h : List.Forall₂ (fun p q => q.1 = p.1 ∧ R p.2 q.2) ps qs) :
      Entries.keys ps = Entries.keys qs := by
    induction h with
    | nil => rfl
    | cons hpq _ ih => rw [Entries.keys_cons, Entries.keys_cons, hpq.1, ih]
  exact heq hpairs ▸ Entries.keys_perm hperm

section Pairs

variable {P Q : Value → Value → Prop} (hR : s.Reorders t R) (hT : s.Reorders t T)
  {a b a' b' : Handle}

include hR hT

theorem forall_items (ha : R (.list a) (.list a')) (hb : T (.list b) (.list b'))
    (h : ∀ {i : Nat} {v w v' w' : Value}, (s.items a)[i]? = some v → (s.items b)[i]? = some w →
      (t.items a')[i]? = some v' → (t.items b')[i]? = some w' → R v v' → T w w' →
        (P v w ↔ Q v' w')) :
    (∀ (i : Nat) (v w : Value), (s.items a)[i]? = some v → (s.items b)[i]? = some w → P v w) ↔
      ∀ (i : Nat) (v w : Value), (t.items a')[i]? = some v → (t.items b')[i]? = some w → Q v w := by
  constructor
  · intro hall i v' w' hv' hw'
    obtain ⟨v, hv, hRv⟩ := hR.item_of ha hv'
    obtain ⟨w, hw, hTw⟩ := hT.item_of hb hw'
    exact (h hv hw hv' hw' hRv hTw).mp (hall i v w hv hw)
  · intro hall i v w hv hw
    obtain ⟨v', hv', hRv⟩ := hR.item ha hv
    obtain ⟨w', hw', hTw⟩ := hT.item hb hw
    exact (h hv hw hv' hw' hRv hTw).mpr (hall i v' w' hv' hw')

theorem forall_entries (ha : R (.map a) (.map a')) (hb : T (.map b) (.map b'))
    (h : ∀ {k : Key} {v w v' w' : Value}, (k, v) ∈ s.entries a → (k, w) ∈ s.entries b →
      (k, v') ∈ t.entries a' → (k, w') ∈ t.entries b' → R v v' → T w w' → (P v w ↔ Q v' w')) :
    (∀ k v w, (k, v) ∈ s.entries a → (k, w) ∈ s.entries b → P v w) ↔
      ∀ k v w, (k, v) ∈ t.entries a' → (k, w) ∈ t.entries b' → Q v w := by
  constructor
  · intro hall k v' w' hv' hw'
    obtain ⟨v, hv, hRv⟩ := hR.entry_of ha hv'
    obtain ⟨w, hw, hTw⟩ := hT.entry_of hb hw'
    exact (h hv hw hv' hw' hRv hTw).mp (hall k v w hv hw)
  · intro hall k v w hv hw
    obtain ⟨v', hv', hRv⟩ := hR.entry ha hv
    obtain ⟨w', hw', hTw⟩ := hT.entry hb hw
    exact (h hv hw hv' hw' hRv hTw).mpr (hall k v' w' hv' hw')

end Pairs

end Reorders

/-- Values are as equal as they were before they were reordered, to any depth. -/
theorem sameTo_reordered (hs : s.Whole) (ht : t.Whole) (hR : s.Reorders t R) (hT : s.Reorders t T)
    {a b a' b' : Value} (shares : ∀ v w v' w', s.Compares a b v w → t.Compares a' b' v' w' →
      R v v' → T w w' → (v.Shares w ↔ v'.Shares w')) {d : Nat} {v w v' w' : Value}
    (hc : s.Compares a b v w) (hc' : t.Compares a' b' v' w') (hv : R v v') (hw : T w w') :
    s.sameTo d v w = true ↔ t.sameTo d v' w' = true := by
  have one {v w : Value} {h k : Handle} (hv : v.handle? = some h) (hw : w.handle? = some k) :
      v.Shares w ↔ h.target = k.target := by
    simp [Value.Shares, hv, hw]
  induction d using Nat.strong_induction_on generalizing v w v' w' with
  | _ d ih =>
    have hshares := shares v w v' w' hc hc' hv hw
    have hkin := hR.kin hv
    have hkin' := hT.kin hw
    cases v.matchup w with
    | plain left right =>
      rw [hkin.eq left, hkin'.eq right, s.sameTo_plain t d d left right]
    | apart type handle =>
      rw [← hkin.type, ← hkin'.type] at type
      rw [s.sameTo_apart d (hkin.type ▸ hkin'.type ▸ type) handle, t.sameTo_apart d type]
      rwa [hkin.isSome, hkin'.isSome]
    | lists x y =>
      cases hkin with
      | plain left => cases left
      | list _ x' =>
        cases hkin' with
        | plain right => cases right
        | list _ y' =>
          rw [one rfl rfl, one rfl rfl] at hshares
          rw [sameTo_lists, sameTo_lists, hshares, (hR.items hv).length_eq,
            (hT.items hw).length_eq]
          refine or_congr_right (exists_congr fun e => and_congr_right ?_)
          rintro rfl
          refine and_congr_right fun _ => hR.forall_items hT hv hw fun hp hq hp' hq' hRp hTq => ?_
          exact ih e (Nat.lt_succ_self e) (.items hc hp hq) (.items hc' hp' hq') hRp hTq
    | maps x y =>
      cases hkin with
      | plain left => cases left
      | map _ x' =>
        cases hkin' with
        | plain right => cases right
        | map _ y' =>
          rw [one rfl rfl, one rfl rfl] at hshares
          have hkeys : (Entries.keys (s.entries x)).Perm (Entries.keys (s.entries y)) ↔
              (Entries.keys (t.entries x')).Perm (Entries.keys (t.entries y')) := by
            constructor
            · intro h
              exact (hR.keys hv).symm.trans (h.trans (hT.keys hw))
            · intro h
              exact (hR.keys hv).trans (h.trans (hT.keys hw).symm)
          rw [sameTo_maps hs, sameTo_maps ht, hshares, hkeys]
          refine or_congr_right (exists_congr fun e => and_congr_right ?_)
          rintro rfl
          refine and_congr_right fun _ => hR.forall_entries hT hv hw fun hp hq hp' hq' hRp hTq => ?_
          exact ih e (Nat.lt_succ_self e) (.entries hc hp hq) (.entries hc' hp' hq') hRp hTq
    | sets x y =>
      cases hkin with
      | plain left => cases left
      | set _ x' =>
        cases hkin' with
        | plain right => cases right
        | set _ y' =>
          rw [one rfl rfl, one rfl rfl] at hshares
          rw [sameTo_sets hs, sameTo_sets ht, hshares]
          apply or_congr_right
          constructor
          · intro h
            exact (hR.elements hv).symm.trans (h.trans (hT.elements hw))
          · intro h
            exact (hR.elements hv).trans (h.trans (hT.elements hw).symm)

/-- Equality is symmetric, handles to one container are equal, and two values stay as equal as they
are, or as different, if entries and elements are put into another order on either side, in place or
in other containers, as long as the containers that are compared are one where they were one before
and two where they were two. Not a number, which equals nothing, is no exception. -/
theorem same_symmetric (hs : s.Whole) :
    (∀ a b, s.same a b = s.same b a) ∧
    (∀ a b, s.Has a → s.Has b → a.Shares b → s.same a b = true) ∧
    ∀ (t : Store) (R T : Value → Value → Prop), t.Whole → s.Reorders t R → s.Reorders t T →
      ∀ a b a' b', s.Has a → s.Has b → t.Has a' → t.Has b' → R a a' → T b b' →
        (∀ v w v' w', s.Compares a b v w → t.Compares a' b' v' w' → R v v' → T w w' →
          (v.Shares w ↔ v'.Shares w')) →
        t.same a' b' = s.same a b := by
  refine ⟨?_, ?_, ?_⟩
  · intro a b
    exact sameTo_comm hs _ a b
  · intro a b ha hb hshares
    refine sameTo_of_shares hshares ?_
    obtain ⟨h, k, hh, hk, htarget⟩ := hshares
    have hfits := ha h hh
    rw [Fits, htarget] at hfits
    exact Option.some.inj (hfits.symm.trans (hb k hk))
  · intro t R T ht hR hT a b a' b' ha hb ha' hb' hra htb hshares
    let d := max s.containers.size t.containers.size
    rw [← sameTo_size hs ha hb (Nat.le_max_left _ _ : _ ≤ d),
      ← sameTo_size ht ha' hb' (Nat.le_max_right _ _ : _ ≤ d)]
    exact (Bool.eq_iff_iff.mpr (sameTo_reordered hs ht hR hT hshares .self .self hra htb)).symm

/-! ## Two maps on a shelf -/

/-- A store of one free account with these contents in its containers. -/
def shelf (contents : List Contents) : Store :=
  ⟨#[.opened .free false], (contents.map (⟨0, 0, 0, ·⟩)).toArray⟩

theorem shelf_whole {contents : List Contents} (keys : ∀ c ∈ contents, c.keys.Nodup)
    (values : ∀ c ∈ contents, ∀ v ∈ c.values, (shelf contents).Has v) :
    (shelf contents).Whole := by
  have found {n : Nat} {c : Container} (hn : (shelf contents).containers[n]? = some c) :
      c.contents ∈ contents := by
    obtain ⟨d, hd, rfl⟩ := List.mem_map.mp (List.mem_toArray.mp (Array.mem_of_getElem? hn))
    exact hd
  constructor
  case keys =>
    intro n c hn
    exact keys _ (found hn)
  case values =>
    intro n c hn
    exact values _ (found hn)

/-- Two maps with a set each, and a list that is not equal to its like. -/
def twoMaps (first second : Contents) : Store :=
  shelf [first, .elements [.str "a", .int 1], .items [.float (.nan false)], second,
    .entries [(.str "rate", .float ⟨0x4000000000000000⟩), (.str "tags", .set ⟨1, .readOnly 9⟩)],
    .items [.float (.nan false)]]

def straight : Store :=
  twoMaps (.elements [.int 1, .str "a"])
    (.entries [(.str "tags", .set ⟨0, .owner⟩), (.str "rate", .int 2)])

/-- The same with the set and the map on the left turned around. -/
def turned : Store :=
  twoMaps (.elements [.str "a", .int 1])
    (.entries [(.str "rate", .int 2), (.str "tags", .set ⟨0, .owner⟩)])

theorem same_symmetric_turned :
    straight.same (.map ⟨3, .owner⟩) (.map ⟨4, .owner⟩) = true ∧
      straight.same (.map ⟨4, .owner⟩) (.map ⟨3, .owner⟩) = true ∧
      turned.same (.map ⟨3, .owner⟩) (.map ⟨4, .owner⟩) = true ∧
      straight.same (.list ⟨2, .owner⟩) (.list ⟨5, .owner⟩) = false ∧
      straight.same (.list ⟨5, .owner⟩) (.list ⟨2, .owner⟩) = false ∧
      straight.same (.list ⟨2, .owner⟩) (.list ⟨2, .readOnly 8⟩) = true := by
  have hs : straight.Whole := shelf_whole (by decide) (by decide)
  have ht : turned.Whole := shelf_whole (by decide) (by decide)
  have hreorders : straight.Reorders turned Eq := by
    have rest (pairs : List (Key × Value)) :
        List.Forall₂ (fun p q : Key × Value => q.1 = p.1 ∧ p.2 = q.2) pairs pairs :=
      List.forall₂_same.mpr fun _ _ => ⟨rfl, rfl⟩
    refine ⟨?_, fun {a b} h => ?_, fun {a b} h => ?_, fun {a b} h => ?_⟩
    · rintro v _ rfl
      exact Value.kin_self v
    · obtain rfl := Value.list.inj h
      rcases a with ⟨_ | _ | _ | _ | _ | _ | n, view⟩ <;> exact List.forall₂_same.mpr fun _ _ => rfl
    · obtain rfl := Value.map.inj h
      rcases a with ⟨_ | _ | _ | _ | _ | _ | n, view⟩
      case succ.succ.succ.zero => exact ⟨_, .swap _ _ _, rest _⟩
      all_goals exact ⟨_, .refl _, rest _⟩
    · obtain rfl := Value.set.inj h
      rcases a with ⟨_ | _ | _ | _ | _ | _ | n, view⟩
      case zero => exact .swap _ _ _
      all_goals exact .refl _
  obtain ⟨hcomm, hone, horder⟩ := same_symmetric hs
  have hmaps : straight.same (.map ⟨3, .owner⟩) (.map ⟨4, .owner⟩) = true := by decide +kernel
  have hlists : straight.same (.list ⟨2, .owner⟩) (.list ⟨5, .owner⟩) = false := by decide +kernel
  refine ⟨hmaps, hcomm _ _ ▸ hmaps, ?_, hlists, hcomm _ _ ▸ hlists, ?_⟩
  · refine (horder turned Eq Eq ht hreorders hreorders _ _ _ _ (by decide) (by decide) (by decide)
      (by decide) rfl rfl ?_).trans hmaps
    rintro v w _ _ - - rfl rfl
    exact Iff.rfl
  · exact hone _ _ (by decide) (by decide) ⟨_, _, rfl, rfl, rfl⟩

end Store

end MeteredScript
