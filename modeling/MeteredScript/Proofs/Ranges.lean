import MeteredScript.Proofs.Quota
import MeteredScript.Proofs.Store.ListWriting

/-!
# Ranges of lists

Bounds that are clamped cut a list without loss, filling and copying a range mean the same positions,
and exchanging a run for others can be undone. On the way to a bound no number leaves its 64 bits,
and no run is taken that is not inside the list.
-/

namespace MeteredScript

namespace Position

/-- A position between two bounds, as they are clamped. -/
def Within (start stop : Int) (length i : Nat) : Prop :=
  clamp start length ≤ i ∧ i < clamp stop length

instance (start stop : Int) (length i : Nat) : Decidable (Within start stop length i) :=
  inferInstanceAs (Decidable (_ ∧ _))

theorem clamp_maxValue {length : Nat} (h : length ≤ limit) :
    clamp Int64.maxValue.toInt length = length := by
  have hmax : Int64.maxValue.toInt = limit := by decide
  rw [clamp, hmax, if_neg (by omega), if_neg (by omega), Int.toNat_natCast]
  exact Nat.min_eq_right h

theorem clampCount_of_le {count available : Nat} (h : count ≤ available) :
    clampCount count available = count := Nat.min_eq_left h

end Position

/-! ## Elements by their positions -/

section Positions

variable {α : Type} {first last : Nat} (values : List α)

/-- What is between two positions are the elements at positions between them. -/
theorem drop_take_eq_filter (n : Nat) :
    (values.take (last - n)).drop (first - n) =
      ((values.zipIdx n).filter fun p => first ≤ p.2 ∧ p.2 < last).map (·.1) := by
  induction values generalizing n with
  | nil => simp
  | cons v rest ih =>
    rw [List.zipIdx_cons, List.filter_cons]
    rcases Nat.lt_or_ge n last with hlast | hlast
    · obtain ⟨k, hk⟩ : ∃ k, last - n = k + 1 := ⟨last - n - 1, by omega⟩
      rcases Nat.lt_or_ge n first with hfirst | hfirst
      · obtain ⟨j, hj⟩ : ∃ j, first - n = j + 1 := ⟨first - n - 1, by omega⟩
        rw [if_neg (by simp; omega), ← ih, hk, hj, List.take_succ_cons, List.drop_succ_cons]
        congr 2 <;> omega
      · rw [if_pos (by simp; omega), List.map_cons, ← ih, hk, List.take_succ_cons,
          Nat.sub_eq_zero_of_le hfirst, Nat.sub_eq_zero_of_le (Nat.le_succ_of_le hfirst)]
        simp only [List.drop_zero]
        congr 2
        omega
    · rw [if_neg (by simp; omega), ← ih, Nat.sub_eq_zero_of_le hlast,
        Nat.sub_eq_zero_of_le (Nat.le_succ_of_le hlast)]
      simp

/-- A run between two positions is overwritten, and all around it stays. -/
theorem overwrite_eq_map (v : α) (hfirst : first ≤ values.length) (hlast : last ≤ values.length) :
    values.take first ++ ((values.take last).drop first).map (fun _ => v) ++
        values.drop (first + ((values.take last).drop first).length) =
      values.zipIdx.map fun p => if first ≤ p.2 ∧ p.2 < last then v else p.1 := by
  refine List.ext_getElem ?_ fun i hi hi' => ?_
  · simp
    omega
  · simp only [List.length_map, List.length_zipIdx] at hi'
    simp [List.getElem_append]
    grind

end Positions

/-! ## In 64 bits -/

namespace Checked

/-- A signed number of 64 bits, if it is one. -/
def word? (i : Int) : Option Int :=
  if Int64.minValue.toInt ≤ i ∧ i ≤ Int64.maxValue.toInt then some i else none

/-- A length or a position in memory, which has 64 bits and no sign, if it is one. -/
def size? (i : Int) : Option Nat := if 0 ≤ i ∧ i < 2 ^ 64 then some i.toNat else none

/-- The run between two positions, if they are in order and inside the list. -/
def run? (values : List Value) (first last : Nat) : Option (List Value) :=
  if first ≤ last ∧ last ≤ values.length then some ((values.take last).drop first) else none

/-- The clamped bound, if no step towards it leaves 64 bits. -/
def clamp? (index : Int) (length : Nat) : Option Nat := do
  let reach : Nat := min length Position.limit
  let low ← word? (-reach)
  if index < low then return 0
  else if index < 0 then size? (← word? (index + reach))
  else return min index.toNat length

def slice? (values : List Value) (start stop : Int) : Option (List Value) := do
  let first ← clamp? start values.length
  let last ← clamp? stop values.length
  if first < last then run? values first last else return []

/-- The elements that are overwritten; there are none if the bounds are crossed. -/
def replaced? (values : List Value) (start stop : Int) : Option (List Value) := do
  let first ← clamp? start values.length
  let last ← clamp? stop values.length
  run? values first (max first last)

def cut? (values : List Value) (start count : Int) : Option Lists.Cut := do
  let first ← clamp? start values.length
  let available ← size? (values.length - first)
  let last ← size? (first + Position.clampCount count available)
  return ⟨first, ← run? values 0 first, ← run? values first last,
    ← run? values last values.length⟩

variable {values : List Value}

theorem word?_eq {i : Int} (h : -Position.limit ≤ i) (hle : i ≤ Position.limit) :
    word? i = some i := by
  have hmin : Int64.minValue.toInt = -Position.limit - 1 := by decide
  have hmax : Int64.maxValue.toInt = Position.limit := by decide
  exact if_pos (by omega)

theorem size?_eq {n : Nat} (h : n ≤ 2 * Position.limit) : size? n = some n := by
  have hlimit : 2 * Position.limit < 2 ^ 64 := by decide
  rw [size?, if_pos (by omega), Int.toNat_natCast]

theorem run?_eq {first last : Nat} (h : first ≤ last) (hlast : last ≤ values.length) :
    run? values first last = some ((values.take last).drop first) := if_pos ⟨h, hlast⟩

theorem clamp?_eq (index : Int) (length : Nat) :
    clamp? index length = some (Position.clamp index length) := by
  have hreach : min length Position.limit ≤ Position.limit := Nat.min_le_right ..
  unfold clamp? Position.clamp
  dsimp only
  generalize min length Position.limit = reach at hreach ⊢
  rw [word?_eq (i := -reach) (by omega) (by omega)]
  simp only [Option.bind_eq_bind, Option.bind_some]
  split
  · rfl
  · split
    · obtain ⟨n, hn⟩ : ∃ n : Nat, index + reach = n := ⟨_, (Int.toNat_of_nonneg (by omega)).symm⟩
      rw [word?_eq (by omega) (by omega), hn, Option.bind_some, size?_eq (by omega),
        Int.toNat_natCast]
    · rfl

theorem slice?_eq (values : List Value) (start stop : Int) :
    slice? values start stop = some (Lists.sliceOf values start stop) := by
  rw [slice?, clamp?_eq, clamp?_eq]
  simp only [Option.bind_eq_bind, Option.bind_some]
  split
  · next h => exact run?_eq (Nat.le_of_lt h) (Position.clamp_le ..)
  · next h =>
    rw [Lists.sliceOf, List.drop_eq_nil_of_le]
    · rfl
    · exact Nat.le_trans (List.length_take_le ..) (Nat.le_of_not_lt h)

theorem replaced?_eq (values : List Value) (start stop : Int) :
    replaced? values start stop = some (Lists.sliceOf values start stop) := by
  rw [replaced?, clamp?_eq, clamp?_eq]
  simp only [Option.bind_eq_bind, Option.bind_some, Lists.sliceOf]
  generalize hfirst : Position.clamp start values.length = first
  generalize hlast : Position.clamp stop values.length = last
  have hfirst' : first ≤ values.length := hfirst ▸ Position.clamp_le ..
  have hlast' : last ≤ values.length := hlast ▸ Position.clamp_le ..
  rw [run?_eq (Nat.le_max_left ..) (Nat.max_le.mpr ⟨hfirst', hlast'⟩)]
  rcases Nat.le_total first last with h | h
  · rw [Nat.max_eq_right h]
  · rw [Nat.max_eq_left h, List.drop_eq_nil_of_le (by simp), List.drop_eq_nil_of_le (by simp; omega)]

theorem cut?_eq (h : values.length ≤ 2 * Position.limit) (start count : Int) :
    cut? values start count = some (Lists.cut values start count) := by
  have hfirst := Position.clamp_le start values.length
  rw [cut?, clamp?_eq, Option.bind_eq_bind, Option.bind_some]
  unfold Lists.cut
  dsimp only
  generalize Position.clamp start values.length = first at hfirst ⊢
  have htaken : Position.clampCount count (values.length - first) ≤ values.length - first :=
    Nat.min_le_right ..
  have havailable : size? (values.length - first) = some (values.length - first) := by
    rw [← Int.ofNat_sub hfirst]
    exact size?_eq (by omega)
  rw [havailable, Option.bind_some]
  generalize Position.clampCount count (values.length - first) = taken at htaken ⊢
  rw [← Int.natCast_add, size?_eq (by omega), Option.bind_some, run?_eq (Nat.zero_le _) hfirst,
    run?_eq (Nat.le_add_right ..) (by omega), run?_eq (by omega) (Nat.le_refl _)]
  simp [List.drop_take]

/-- Between two bounds, and where a count of elements makes room for others at one, each number on
the way has 64 bits and each run is inside the list. -/
structure InBounds (values : List Value) (start stop : Int) (room : Nat) : Prop where
  slice : slice? values start stop = some (Lists.sliceOf values start stop)
  replaced : replaced? values start stop = some (Lists.sliceOf values start stop)
  cut : cut? values start stop = some (Lists.cut values start stop)
  reported : ∀ i < room, size? ((Lists.cut values start stop).start + i) =
    some ((Lists.cut values start stop).start + i)

theorem inBounds {start : Int} (h : values.length ≤ 2 * Position.limit)
    (hstart : Position.clamp start values.length ≤ Position.limit) (stop : Int) {room : Nat}
    (hroom : room ≤ Position.limit) : InBounds values start stop room := by
  refine ⟨slice?_eq .., replaced?_eq .., cut?_eq h .., fun i hi => ?_⟩
  have hfirst : (Lists.cut values start stop).start ≤ Position.limit := hstart
  rw [← Int.natCast_add]
  exact size?_eq (by omega)

end Checked

namespace Lists

/-! ## Cutting and mending -/

section Cuts

variable (xs : List Value) (start count : Int)

theorem cut_before_length : (cut xs start count).before.length = (cut xs start count).start :=
  List.length_take_of_le (Position.clamp_le start xs.length)

theorem cut_join :
    (cut xs start count).before ++ (cut xs start count).taken ++ (cut xs start count).after =
      xs := by
  simp only [cut, List.append_assoc, ← List.drop_drop, List.take_append_drop]

/-- Where a run was exchanged, the values that came in are cut out. -/
theorem cut_exchanged (values : List Value) :
    cut ((cut xs start count).before ++ values ++ (cut xs start count).after)
        (cut xs start count).start values.length =
      ⟨(cut xs start count).start, (cut xs start count).before, values,
        (cut xs start count).after⟩ := by
  have hlength := cut_before_length xs start count
  generalize (cut xs start count).before = before at hlength ⊢
  generalize (cut xs start count).start = first at hlength ⊢
  generalize (cut xs start count).after = after
  subst hlength
  have hstart : Position.clamp before.length (before ++ values ++ after).length = before.length :=
    Position.clamp_of_le (by simp)
  have hcount : Position.clampCount values.length
      ((before ++ values ++ after).length - before.length) = values.length :=
    Position.clampCount_of_le (by simp)
  simp only [cut, hstart, hcount]
  simp [List.append_assoc, List.drop_append]

theorem sliceOf_append (h : xs.length ≤ Position.limit) (k : Int) :
    sliceOf xs 0 k ++ sliceOf xs k Int64.maxValue.toInt = xs := by
  have hzero : Position.clamp 0 xs.length = 0 := Position.clamp_of_le (Nat.zero_le _)
  rw [sliceOf, sliceOf, hzero, Position.clamp_maxValue h, List.drop_zero, List.take_length,
    List.take_append_drop]

end Cuts

variable {s : Store} {l : Handle}

theorem fill_run (hl : s.Fits .list l) (v : Value) (start stop : Int) :
    ∃ u, (fill ⟨l.target, .owner⟩ v start stop).run s = (.ok (), u) ∧
      u.items l = (s.items l).zipIdx.map fun p =>
        if Position.Within start stop (s.items l).length p.2 then v else p.1 :=
  ⟨_, rfl, (hl.items_commit ..).trans
    (overwrite_eq_map _ v (Position.clamp_le ..) (Position.clamp_le ..))⟩

theorem slice_run (l : Handle) (start stop : Int) (s : Store) :
    ∃ c t, (slice l start stop).run s = (.ok c, t) ∧ s.Keeps t ∧
      c.target < t.containers.size ∧ t.items c = sliceOf (s.items l) start stop := by
  obtain ⟨t, hrun, hkeeps, hsize, hitems⟩ := sibling_run l (sliceOf (s.items l) start stop) s
  exact ⟨_, t, hrun, hkeeps, hsize ▸ Nat.lt_succ_self _, hitems⟩

/-- The two parts of a list that is sliced at a bound make the list. Filling overwrites the elements
that a slice has, and no others. A run that was exchanged is a new list, and comes back when it is
exchanged for the values that took its place. No step on the way leaves 64 bits or the list. -/
theorem ranges_mend (hl : s.Fits .list l) (hlength : (s.items l).length ≤ Position.limit) :
    (∀ k : Int, ∃ c d t u, (slice l 0 k).run s = (.ok c, t) ∧
        (slice l k Int64.maxValue.toInt).run t = (.ok d, u) ∧
        u.items c ++ u.items d = s.items l) ∧
      (∀ (v : Value) (a b : Int), ∃ c t u, (slice l a b).run s = (.ok c, t) ∧
        (fill ⟨l.target, .owner⟩ v a b).run s = (.ok (), u) ∧
        t.items c = ((s.items l).zipIdx.filter fun p =>
          Position.Within a b (s.items l).length p.2).map (·.1) ∧
        u.items l = (s.items l).zipIdx.map fun p =>
          if Position.Within a b (s.items l).length p.2 then v else p.1) ∧
      (∀ (start count : Int) (values : List Value),
        let first := Position.clamp start (s.items l).length
        let taken := Position.clampCount count ((s.items l).length - first)
        ∃ c d t u, (splice ⟨l.target, .owner⟩ start count values).run s = (.ok c, t) ∧
          s.Exchanged l first taken values c t ∧
          (splice ⟨l.target, .owner⟩ first values.length (t.items c)).run t = (.ok d, u) ∧
          t.containers.size ≤ d.target ∧ u.items l = s.items l ∧ u.items d = values ∧
          (values.length ≤ Position.limit →
            Checked.InBounds (t.items l) first values.length (t.items c).length)) ∧
      ∀ (a b : Int) (values : List Value), values.length ≤ Position.limit →
        Checked.InBounds (s.items l) a b values.length := by
  refine ⟨?_, ?_, ?_, ?_⟩
  · intro k
    obtain ⟨c, t, hslice, hkeeps, hc, hfront⟩ := slice_run l 0 k s
    obtain ⟨d, u, hslice', hkeeps', -, hback⟩ := slice_run l k Int64.maxValue.toInt t
    refine ⟨c, d, t, u, hslice, hslice', ?_⟩
    rw [hkeeps'.items_of_lt hc, hfront, hback, hkeeps.items_of_lt hl.lt]
    exact sliceOf_append _ hlength k
  · intro v a b
    obtain ⟨c, t, hslice, -, -, hitems⟩ := slice_run l a b s
    obtain ⟨u, hfill, hleft⟩ := fill_run hl v a b
    exact ⟨c, t, u, hslice, hfill, hitems.trans (drop_take_eq_filter _ 0), hleft⟩
  · intro start count values
    obtain ⟨c, t, hsplice, ht⟩ := splice_run hl start count values
    obtain ⟨d, u, hback, hu⟩ := splice_run ht.fits
      (cut (s.items l) start count).start values.length (t.items c)
    have hcut : cut (t.items l) (cut (s.items l) start count).start values.length = _ :=
      (congrArg (cut · _ _) ht.left).trans (cut_exchanged (s.items l) start count values)
    have hleft : u.items l = (cut (t.items l) _ values.length).before ++ t.items c ++
      (cut (t.items l) _ values.length).after := hu.left
    have htaken : u.items d = (cut (t.items l) _ values.length).taken := hu.taken
    rw [hcut] at hleft htaken
    refine ⟨c, d, t, u, hsplice, ht, hback, hu.fresh, ?_, htaken, ?_⟩
    · rw [hleft, ht.taken]
      exact cut_join ..
    · intro hvalues
      have hfirst := Position.clamp_le start (s.items l).length
      have hgrown : (t.items l).length ≤ (s.items l).length + values.length := by
        rw [ht.left]
        simp only [List.length_append, List.length_take, List.length_drop]
        omega
      have hplace : Position.clamp (Position.clamp start (s.items l).length) (t.items l).length =
          Position.clamp start (s.items l).length :=
        Position.clamp_of_le (by rw [ht.left]; simp; omega)
      have hremoved : (t.items c).length ≤ (s.items l).length := by
        rw [ht.taken]
        simp
      exact Checked.inBounds (by omega) (by omega) _ (by omega)
  · intro a b values hvalues
    have hclamped := Position.clamp_le a (s.items l).length
    exact Checked.inBounds (by omega) (by omega) b hvalues

def fiveItems : Store :=
  ((create 0 [.int 1, .int 2, .int 3, .int 4, .int 5]).run .metered).2

/-- The last two elements are exchanged for three values, and back. -/
theorem ranges_mend_fiveItems :
    (fiveItems.items ⟨0, .owner⟩).length ≤ Position.limit ∧
      ∃ c d t u, (splice ⟨0, .owner⟩ (-2) Int64.maxValue.toInt [.null, .str "a", .int 9]).run
          fiveItems = (.ok c, t) ∧
        t.items c = [.int 4, .int 5] ∧
        t.items ⟨0, .owner⟩ = [.int 1, .int 2, .int 3, .null, .str "a", .int 9] ∧
        (splice ⟨0, .owner⟩ 3 3 [.int 4, .int 5]).run t = (.ok d, u) ∧
        u.items ⟨0, .owner⟩ = [.int 1, .int 2, .int 3, .int 4, .int 5] ∧
        u.items d = [.null, .str "a", .int 9] := by
  have hl : fiveItems.Fits .list ⟨0, .owner⟩ := by decide +kernel
  have hitems : fiveItems.items ⟨0, .owner⟩ = [.int 1, .int 2, .int 3, .int 4, .int 5] := by
    decide +kernel
  have hlength : (fiveItems.items ⟨0, .owner⟩).length ≤ Position.limit := by
    rw [hitems]
    decide
  obtain ⟨-, -, hspliced, -⟩ := ranges_mend hl hlength
  obtain ⟨c, d, t, u, hsplice, ht, hback, -, hleft, htaken, -⟩ :=
    hspliced (-2) Int64.maxValue.toInt [.null, .str "a", .int 9]
  have hremoved := ht.taken
  have hkept := ht.left
  rw [hitems] at hremoved hkept hback hleft
  have hruns : t.items c = [.int 4, .int 5] := hremoved
  rw [hruns] at hback
  exact ⟨hlength, c, d, t, u, hsplice, hruns, hkept, hback, hleft, htaken⟩

end Lists

end MeteredScript
