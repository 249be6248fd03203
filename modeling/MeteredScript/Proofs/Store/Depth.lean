import Mathlib.Data.Setoid.Basic
import Mathlib.SetTheory.Cardinal.Finite
import MeteredScript.Proofs.Store.Comparing
import MeteredScript.Proofs.Store.ListWriting

/-!
# How deep values are compared

That values are compared through no more containers than there are makes no difference. Forget what
the scalars in containers are; then containers are akin to a depth if they have the same shape to
that depth. This is an equivalence, which gets coarser with the depth until it stays what it is, and
each time it does there is one class less. So the shapes of equal values already agree at a depth of
the number of containers, and there everything that had to be compared has been compared.
-/

namespace MeteredScript

/-! ## Chains of equivalences -/

section Chain

variable {n : Nat}

theorem card_quotient_lt {r t : Setoid (Fin n)} (h : r < t) :
    Nat.card (Quotient t) < Nat.card (Quotient r) := by
  classical
  let coarsen : Quotient r → Quotient t := Quotient.map id h.le
  have hsurjective : Function.Surjective coarsen := Quotient.ind fun x => ⟨Quotient.mk r x, rfl⟩
  have hinjective : ¬ Function.Injective coarsen := by
    intro hinj
    refine h.not_ge fun x y hxy => ?_
    have hmerged : coarsen (Quotient.mk r x) = coarsen (Quotient.mk r y) := Quotient.sound hxy
    exact Quotient.exact (hinj hmerged)
  rw [Nat.card_eq_fintype_card, Nat.card_eq_fintype_card]
  exact Fintype.card_lt_of_surjective_not_injective coarsen hsurjective hinjective

/-- Equivalences that get coarser, and stay what they are once they did so, do so before there have
been as many as elements. -/
theorem chain_stops {r : Nat → Setoid (Fin n)} (mono : ∀ k, r k ≤ r (k + 1))
    (stays : ∀ k, r k = r (k + 1) → r (k + 1) = r (k + 2)) {k : Nat} (hk : n ≤ k + 1) :
    r k = r (k + 1) := by
  -- Until it stays what it is, the chain loses a class with each step.
  have hlost (k : Nat) : r k = r (k + 1) ∨ Nat.card (Quotient (r (k + 1))) + (k + 1) ≤ n := by
    induction k with
    | zero =>
      have hall : Nat.card (Quotient (r 0)) ≤ n := by
        simpa using Nat.card_le_card_of_surjective (Quotient.mk (r 0)) Quotient.mk_surjective
      rcases (mono 0).eq_or_lt with heq | hlt
      · exact .inl heq
      · exact .inr (Nat.le_trans (card_quotient_lt hlt) hall)
    | succ k ih =>
      rcases ih with heq | hle
      · exact .inl (stays k heq)
      · rcases (mono (k + 1)).eq_or_lt with heq | hlt
        · exact .inl heq
        · have := card_quotient_lt hlt
          exact .inr (by omega)
  rcases hlost k with heq | hle
  · exact heq
  · have hpos : 0 < n := by omega
    have : Nonempty (Quotient (r (k + 1))) := ⟨Quotient.mk _ ⟨0, hpos⟩⟩
    have := Nat.card_pos (α := Quotient (r (k + 1)))
    omega

end Chain

/-! ## Shapes -/

/-- Two values without containers, or two handles of one type to related containers. -/
inductive Value.Akin (R : Nat → Nat → Prop) : Value → Value → Prop
  | plain {v w : Value} (left : v.handle? = none) (right : w.handle? = none) : Akin R v w
  | linked {v w : Value} {a b : Handle} (left : v.handle? = some a) (right : w.handle? = some b)
      (type : v.type = w.type) (related : R a.target b.target) : Akin R v w

/-- Contents of one kind with akin values in the same places. -/
inductive Contents.Akin (R : Nat → Nat → Prop) : Contents → Contents → Prop
  | items {values others : List Value} (length : values.length = others.length)
      (related : ∀ (i : Nat) (v w : Value), values[i]? = some v → others[i]? = some w →
        Value.Akin R v w) :
      Akin R (.items values) (.items others)
  | entries {pairs others : List (Key × Value)}
      (keys : (Entries.keys pairs).Perm (Entries.keys others))
      (related : ∀ k v w, (k, v) ∈ pairs → (k, w) ∈ others → Value.Akin R v w) :
      Akin R (.entries pairs) (.entries others)
  | elements {keys others : List Key} (perm : keys.Perm others) :
      Akin R (.elements keys) (.elements others)

section Akin

variable {R R' : Nat → Nat → Prop}

theorem Value.Akin.mono {v w : Value} (h : v.Akin R w) (hR : ∀ x y, R x y → R' x y) :
    v.Akin R' w := by
  cases h with
  | plain left right => exact .plain left right
  | linked left right type related => exact .linked left right type (hR _ _ related)

theorem Value.Akin.symm {v w : Value} (h : v.Akin R w) (hR : ∀ x y, R x y → R y x) :
    w.Akin R v := by
  cases h with
  | plain left right => exact .plain right left
  | linked left right type related => exact .linked right left type.symm (hR _ _ related)

theorem Value.Akin.trans {v w u : Value} (h : v.Akin R w) (k : w.Akin R u)
    (hR : ∀ x y z, R x y → R y z → R x z) : v.Akin R u := by
  cases h with
  | plain left right =>
    cases k with
    | plain _ right' => exact .plain left right'
    | linked left' => cases right.symm.trans left'
  | linked left right type related =>
    cases k with
    | plain left' => cases left'.symm.trans right
    | linked left' right' type' related' =>
      obtain rfl := Option.some.inj (right.symm.trans left')
      exact .linked left right' (type.trans type') (hR _ _ _ related related')

/-- Akin handles lead to containers that are related. -/
theorem Value.Akin.targets {v w : Value} {a b : Handle} (h : v.Akin R w) (ha : v.handle? = some a)
    (hb : w.handle? = some b) : R a.target b.target := by
  cases h with
  | plain left => cases left.symm.trans ha
  | linked left right type related =>
    obtain rfl := Option.some.inj (ha.symm.trans left)
    obtain rfl := Option.some.inj (hb.symm.trans right)
    exact related

theorem Contents.Akin.imp {c d : Contents} (h : c.Akin R d)
    (hR : ∀ v ∈ c.values, ∀ w ∈ d.values, v.Akin R w → v.Akin R' w) : c.Akin R' d := by
  cases h with
  | items length related =>
    refine .items length fun i v w hv hw => ?_
    exact hR v (List.mem_of_getElem? hv) w (List.mem_of_getElem? hw) (related i v w hv hw)
  | entries keys related =>
    refine .entries keys fun k v w hv hw => ?_
    exact hR v (List.mem_map_of_mem hv) w (List.mem_map_of_mem hw) (related k v w hv hw)
  | elements perm => exact .elements perm

theorem Contents.Akin.symm {c d : Contents} (h : c.Akin R d) (hR : ∀ x y, R x y → R y x) :
    d.Akin R c := by
  cases h with
  | items length related =>
    exact .items length.symm fun i v w hv hw => (related i w v hw hv).symm hR
  | entries keys related =>
    exact .entries keys.symm fun k v w hv hw => (related k w v hw hv).symm hR
  | elements perm => exact .elements perm.symm

theorem Contents.Akin.trans {c d e : Contents} (h : c.Akin R d) (k : d.Akin R e)
    (hR : ∀ x y z, R x y → R y z → R x z) : c.Akin R e := by
  cases h with
  | @items values others length related =>
    cases k with
    | items length' related' =>
      refine .items (length.trans length') fun i v u hv hu => ?_
      obtain ⟨hi, -⟩ := List.getElem?_eq_some_iff.mp hv
      have hw := List.getElem?_eq_getElem (length ▸ hi : i < others.length)
      exact (related i v _ hv hw).trans (related' i _ u hw hu) hR
  | entries keys related =>
    cases k with
    | entries keys' related' =>
      refine .entries (keys.trans keys') fun k v u hv hu => ?_
      obtain ⟨p, hp, rfl⟩ := List.mem_map.mp (keys.mem_iff.mp (List.mem_map_of_mem hv))
      exact (related _ v p.2 hv hp).trans (related' _ p.2 u hp hu) hR
  | elements perm =>
    cases k with
    | elements perm' => exact .elements (perm.trans perm')

end Akin

namespace Store

/-- One container, or two whose contents are akin. -/
def AkinBy (s : Store) (R : Nat → Nat → Prop) (x y : Nat) : Prop :=
  x = y ∨ ∃ c d, s.containers[x]?.map (·.contents) = some c ∧
    s.containers[y]?.map (·.contents) = some d ∧ c.Akin R d

/-- Containers that have the same shape to a depth. -/
def AkinTo (s : Store) : Nat → Nat → Nat → Prop
  | 0 => fun _ _ => False
  | depth + 1 => s.AkinBy (s.AkinTo depth)

variable {s : Store}

theorem akinTo_succ (s : Store) (d : Nat) {x y : Nat} (h : s.AkinTo d x y) :
    s.AkinTo (d + 1) x y := by
  induction d generalizing x y with
  | zero => exact h.elim
  | succ d ih =>
    rcases h with rfl | ⟨c, e, hc, he, h⟩
    · exact .inl rfl
    · exact .inr ⟨c, e, hc, he, h.imp fun _ _ _ _ h => h.mono fun _ _ => ih⟩

theorem akinTo_symm (s : Store) (d : Nat) {x y : Nat} (h : s.AkinTo d x y) : s.AkinTo d y x := by
  induction d generalizing x y with
  | zero => exact h
  | succ d ih =>
    rcases h with rfl | ⟨c, e, hc, he, h⟩
    · exact .inl rfl
    · exact .inr ⟨e, c, he, hc, h.symm fun _ _ => ih⟩

theorem akinTo_trans (s : Store) (d : Nat) {x y z : Nat} (h : s.AkinTo d x y)
    (k : s.AkinTo d y z) : s.AkinTo d x z := by
  induction d generalizing x y z with
  | zero => exact h
  | succ d ih =>
    rcases h with rfl | ⟨c, e, hc, he, h⟩
    · exact k
    · rcases k with rfl | ⟨e', f, he', hf, k⟩
      · exact .inr ⟨c, e, hc, he, h⟩
      · obtain rfl := Option.some.inj (he.symm.trans he')
        exact .inr ⟨c, f, hc, hf, h.trans k fun _ _ _ => ih⟩

/-- The containers of the same shape as an equivalence of those that are there. -/
def shapes (s : Store) (d : Nat) : Setoid (Fin s.containers.size) where
  r x y := s.AkinTo (d + 1) x y
  iseqv := ⟨fun _ => .inl rfl, s.akinTo_symm (d + 1), s.akinTo_trans (d + 1)⟩

section Whole

variable (hs : s.Whole)

include hs

/-- Shapes depend on the containers that are there only. -/
theorem AkinBy.imp {R R' : Nat → Nat → Prop}
    (hR : ∀ x < s.containers.size, ∀ y < s.containers.size, R x y → R' x y) {x y : Nat}
    (h : s.AkinBy R x y) : s.AkinBy R' x y := by
  have there {n : Nat} {c : Contents} (hn : s.containers[n]?.map (·.contents) = some c) :
      ∀ v ∈ c.values, s.Has v := by
    obtain ⟨k, hk, rfl⟩ := Option.map_eq_some_iff.mp hn
    exact hs.values n k hk
  rcases h with rfl | ⟨c, d, hc, hd, h⟩
  · exact .inl rfl
  · refine .inr ⟨c, d, hc, hd, h.imp fun v hv w hw hvw => ?_⟩
    cases hvw with
    | plain left right => exact .plain left right
    | linked left right type related =>
      exact .linked left right type
        (hR _ (there hc v hv _ left).lt _ (there hd w hw _ right).lt related)

/-- Shapes to a depth of the number of containers are shapes to any greater depth. -/
theorem akinTo_size {d : Nat} (hd : s.containers.size ≤ d) {x y : Nat}
    (hx : x < s.containers.size) (hy : y < s.containers.size) (h : s.AkinTo d x y) :
    s.AkinTo s.containers.size x y := by
  have hstop (k : Nat) (hk : s.containers.size ≤ k + 1) : s.shapes k = s.shapes (k + 1) := by
    refine chain_stops (fun k x y => s.akinTo_succ (k + 1)) (fun k heq => ?_) hk
    have agree (x : Nat) (hx : x < s.containers.size) (y : Nat) (hy : y < s.containers.size) :
        s.AkinTo (k + 1) x y ↔ s.AkinTo (k + 2) x y :=
      iff_of_eq (congrArg (fun r : Setoid (Fin s.containers.size) => r ⟨x, hx⟩ ⟨y, hy⟩) heq)
    refine Setoid.ext fun x y => ⟨s.akinTo_succ (k + 2), fun h => ?_⟩
    exact AkinBy.imp hs (fun x hx y hy => (agree x hx y hy).mpr) h
  induction d, hd using Nat.le_induction with
  | base => exact h
  | succ d hd ih =>
    cases d with
    | zero => exact absurd (Nat.lt_of_lt_of_le hx hd) (Nat.not_lt_zero x)
    | succ d =>
      have heq := hstop d hd
      exact ih (iff_of_eq
        (congrArg (fun r : Setoid (Fin s.containers.size) => r ⟨x, hx⟩ ⟨y, hy⟩) heq) |>.mpr h)

/-! ## Comparing -/

variable {d d' : Nat} {v w : Value}

/-- Equal values have the same shape to the depth to which they are compared. -/
theorem akin_of_sameTo (hv : s.Has v) (hw : s.Has w) (h : s.sameTo d v w = true) :
    v.Akin (s.AkinTo (d + 1)) w := by
  induction d using Nat.strong_induction_on generalizing v w with
  | _ d ih =>
    cases v.matchup w with
    | plain left right => exact .plain left right
    | apart type handle => cases (s.sameTo_apart d type handle).symm.trans h
    | lists a b =>
      refine .linked rfl rfl rfl ((sameTo_lists.mp h).imp_right ?_)
      rintro ⟨e, rfl, hlength, hitems⟩
      refine ⟨_, _, (hv a rfl).contents_items, (hw b rfl).contents_items, .items hlength ?_⟩
      intro i x y hx hy
      exact ih e (Nat.lt_succ_self e) (hs.has_item (List.mem_of_getElem? hx))
        (hs.has_item (List.mem_of_getElem? hy)) (hitems i x y hx hy)
    | maps a b =>
      refine .linked rfl rfl rfl (((sameTo_maps hs).mp h).imp_right ?_)
      rintro ⟨e, rfl, hkeys, hentries⟩
      refine ⟨_, _, (hv a rfl).contents_entries, (hw b rfl).contents_entries, .entries hkeys ?_⟩
      intro k x y hx hy
      exact ih e (Nat.lt_succ_self e) (hs.has_entry hx) (hs.has_entry hy) (hentries k x y hx hy)
    | sets a b =>
      refine .linked rfl rfl rfl (((sameTo_sets hs).mp h).imp_right fun hperm => ?_)
      exact ⟨_, _, (hv a rfl).contents_elements, (hw b rfl).contents_elements, .elements hperm⟩

/-- Values of the same shape to a depth are equal if they are found so at any depth. -/
theorem sameTo_of_akin (hv : s.Has v) (hw : s.Has w) (h : v.Akin (s.AkinTo d) w)
    (k : s.sameTo d' v w = true) : s.sameTo d v w = true := by
  induction d generalizing d' v w with
  | zero =>
    cases h with
    | plain left right => exact (s.sameTo_plain s d' 0 left right).trans k
    | linked left right type related => exact related.elim
  | succ d ih =>
    cases v.matchup w with
    | plain left right => exact (s.sameTo_plain s d' (d + 1) left right).trans k
    | apart type handle => cases (s.sameTo_apart d' type handle).symm.trans k
    | sets a b => exact (sameTo_sets hs).mpr ((sameTo_sets hs).mp k)
    | lists a b =>
      rcases sameTo_lists.mp k with heq | ⟨e, rfl, hlength, hitems⟩
      · exact sameTo_lists.mpr (.inl heq)
      · refine sameTo_lists.mpr ((h.targets rfl rfl).imp_right ?_)
        rintro ⟨c, c', hc, hc', h⟩
        obtain rfl := Option.some.inj (hc.symm.trans (hv _ rfl).contents_items)
        obtain rfl := Option.some.inj (hc'.symm.trans (hw _ rfl).contents_items)
        cases h with
        | items _ related =>
          refine ⟨d, rfl, hlength, fun i x y hx hy => ?_⟩
          exact ih (hs.has_item (List.mem_of_getElem? hx))
            (hs.has_item (List.mem_of_getElem? hy)) (related i x y hx hy) (hitems i x y hx hy)
    | maps a b =>
      rcases (sameTo_maps hs).mp k with heq | ⟨e, rfl, hkeys, hentries⟩
      · exact (sameTo_maps hs).mpr (.inl heq)
      · refine (sameTo_maps hs).mpr ((h.targets rfl rfl).imp_right ?_)
        rintro ⟨c, c', hc, hc', h⟩
        obtain rfl := Option.some.inj (hc.symm.trans (hv _ rfl).contents_entries)
        obtain rfl := Option.some.inj (hc'.symm.trans (hw _ rfl).contents_entries)
        cases h with
        | entries _ related =>
          refine ⟨d, rfl, hkeys, fun key x y hx hy => ?_⟩
          exact ih (hs.has_entry hx) (hs.has_entry hy) (related key x y hx hy)
            (hentries key x y hx hy)

/-- What is found equal is found equal at any greater depth. -/
theorem sameTo_mono (hd : d ≤ d') (h : s.sameTo d v w = true) : s.sameTo d' v w = true := by
  induction d using Nat.strong_induction_on generalizing d' v w with
  | _ d ih =>
    cases v.matchup w with
    | plain left right => exact (s.sameTo_plain s d d' left right).trans h
    | apart type handle => cases (s.sameTo_apart d type handle).symm.trans h
    | sets a b => exact (sameTo_sets hs).mpr ((sameTo_sets hs).mp h)
    | lists a b =>
      refine sameTo_lists.mpr ((sameTo_lists.mp h).imp_right ?_)
      rintro ⟨e, rfl, hlength, hitems⟩
      obtain ⟨e', rfl⟩ := Nat.exists_eq_add_of_le' (Nat.le_trans (Nat.le_add_left 1 e) hd)
      refine ⟨e', rfl, hlength, fun i x y hx hy => ?_⟩
      exact ih e (Nat.lt_succ_self e) (Nat.le_of_succ_le_succ hd) (hitems i x y hx hy)
    | maps a b =>
      refine (sameTo_maps hs).mpr (((sameTo_maps hs).mp h).imp_right ?_)
      rintro ⟨e, rfl, hkeys, hentries⟩
      obtain ⟨e', rfl⟩ := Nat.exists_eq_add_of_le' (Nat.le_trans (Nat.le_add_left 1 e) hd)
      refine ⟨e', rfl, hkeys, fun k x y hx hy => ?_⟩
      exact ih e (Nat.lt_succ_self e) (Nat.le_of_succ_le_succ hd) (hentries k x y hx hy)

/-- Comparing through more containers than there are makes no difference. -/
theorem sameTo_size (hv : s.Has v) (hw : s.Has w) (hd : s.containers.size ≤ d) :
    s.sameTo d v w = s.same v w := by
  refine Bool.eq_iff_iff.mpr ⟨fun h => ?_, sameTo_mono hs hd⟩
  have hakin : v.Akin (s.AkinTo s.containers.size) w := by
    cases akin_of_sameTo hs hv hw h with
    | plain left right => exact .plain left right
    | linked left right type related =>
      refine .linked left right type ?_
      exact akinTo_size hs (Nat.le_succ_of_le hd) (hv _ left).lt (hw _ right).lt related
  exact sameTo_of_akin hs hv hw hakin h

end Whole

end Store

end MeteredScript
