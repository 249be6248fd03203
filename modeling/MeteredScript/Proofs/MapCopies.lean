import MeteredScript.Proofs.Quota
import MeteredScript.Proofs.Store.Inverse

/-!
# Copies of maps, and changes in place

What a map can be turned into in place, it can also be copied into. Both fail alike. Otherwise the
copy has what is left in place, in the same order, but for the keys that have a null: only
`Maps.insert` keeps those, and a copy is filled by `Maps.store`, which takes a null for a removal.
-/

namespace MeteredScript

namespace Maps

open Entries (kept inverse)

variable {s : Store} {m : Handle}

/-! ## Inversion -/

theorem inverted_owner (m : Handle) : inverted ⟨m.target, .owner⟩ = inverted m := rfl

/-- Both inversions store the same entries, with the same lists. -/
theorem inversions_ok (hm : s.Fits .map m) (h : ∀ p ∈ s.entries m, p.2.isScalar = true) :
    ∃ pairs c t u, (toInverted m).run s = (.ok c, t) ∧
      (invert ⟨m.target, .owner⟩).run s = (.ok (), u) ∧ s.Copied c (kept pairs) t ∧
      u.entries m = kept pairs ∧ (∀ l, t.items l = u.items l) ∧
      s.Inverts t (kept pairs) ((inverse (s.entries m)).filter (·.2 ≠ [.null])) := by
  obtain ⟨pairs, r, hrun, hkeeps, hinverts⟩ := inverted_ok m h
  have hkeys : (Entries.keys pairs).Nodup := by
    rw [hinverts.keys_eq, inverse, List.map_map]
    exact (List.map_id _).symm ▸ Entries.valueKeys_nodup _
  obtain ⟨c, t, hcopy, hcopied, hitems⟩ := sibling_copied m hkeys r
  have hr : r.Fits .map ⟨m.target, .owner⟩ := hkeeps.fits hm
  obtain ⟨v, hclear, hv⟩ := clear_writes hr rfl
  obtain ⟨u, hstore, hu⟩ := storeAll_writes hv.fits pairs
  rw [hv.entries, Entries.storeAll_nil hkeys] at hu
  refine ⟨pairs, c, t, u, ?_, ?_, ?_, hu.entries, fun l => ?_, ?_⟩
  · rw [toInverted, run_bind, hrun]
    exact hcopy
  · change (inverted ⟨m.target, .owner⟩ >>= _).run s = _
    rw [inverted_owner, run_bind, hrun]
    dsimp only
    rw [run_bind, hclear]
    exact hstore
  · exact { hcopied with
      fresh := Nat.le_trans hkeeps.size_le hcopied.fresh
      keeps := hkeeps.trans hcopied.keeps }
  · rw [hitems, hu.items hv.fits, hv.items hr]
  · exact hinverts.kept.mono fun l _ => hitems l

/-- Nothing is begun, no list either, unless every value is a scalar. -/
theorem inversions_error (m : Handle) (h : ∃ p ∈ s.entries m, p.2.isScalar = false) :
    ∃ p ∈ s.entries m, p.2.isScalar = false ∧
      (toInverted m).run s = (.error (.typeMismatch "hashable scalar" p.2.typeName), s) ∧
      (invert ⟨m.target, .owner⟩).run s =
        (.error (.typeMismatch "hashable scalar" p.2.typeName), s) := by
  obtain ⟨p, hp, hnot, hrun⟩ := inverted_error m h
  refine ⟨p, hp, hnot, ?_, ?_⟩
  · rw [toInverted, run_bind, hrun]
  · change (inverted ⟨m.target, .owner⟩ >>= _).run s = _
    rw [inverted_owner, run_bind, hrun]

/-- A map whose values are scalars can be inverted, as a copy or in place. There is one entry then
for each key of a value, in order of the first occurrence, and it has the one key that held the
value, or a new list of all that did; only a value that nothing but the null key held is lost. If
some value is no scalar, both inversions fail and change nothing. -/
theorem inversion_entries (hm : s.Fits .map m) :
    ((∀ p ∈ s.entries m, p.2.isScalar = true) →
      (∃ c t, (toInverted m).run s = (.ok c, t) ∧
        s.Inverts t (t.entries c) ((inverse (s.entries m)).filter (·.2 ≠ [.null]))) ∧
      ∃ u, (invert ⟨m.target, .owner⟩).run s = (.ok (), u) ∧
        s.Inverts u (u.entries m) ((inverse (s.entries m)).filter (·.2 ≠ [.null]))) ∧
      ((∃ p ∈ s.entries m, p.2.isScalar = false) →
        ∃ p ∈ s.entries m, p.2.isScalar = false ∧
          (toInverted m).run s = (.error (.typeMismatch "hashable scalar" p.2.typeName), s) ∧
          (invert ⟨m.target, .owner⟩).run s =
            (.error (.typeMismatch "hashable scalar" p.2.typeName), s)) := by
  refine ⟨?_, inversions_error m⟩
  intro h
  obtain ⟨pairs, c, t, u, hcopy, hplace, hcopied, hentries, hitems, hinverts⟩ := inversions_ok hm h
  refine ⟨⟨c, t, hcopy, hcopied.entries.symm ▸ hinverts⟩, u, hplace, ?_⟩
  rw [hentries]
  exact hinverts.mono fun l _ => (hitems l).symm

/-- A map with two zeros that make one key. -/
def zeros : Store :=
  ((create 0 [(.str "a", .float (.zero true)), (.null, .int 1), (.str "b", .int 1),
    (.str "c", .float (.zero false)), (.str "d", .bool true)]).run .metered).2

/-- A map with a value that is no scalar. -/
def unhashable : Store :=
  ((do create 0 [(.str "a", .int 1), (.str "b", .list (← Lists.create 0 []))] :
    StoreM Handle).run .metered).2

theorem inversion_entries_zeros :
    (∃ c t u, (toInverted ⟨0, .owner⟩).run zeros = (.ok c, t) ∧
      (invert ⟨0, .owner⟩).run zeros = (.ok (), u) ∧
      zeros.Inverts t (t.entries c) [(.float (.zero false), [.str "a", .str "c"]),
        (.int 1, [.null, .str "b"]), (.bool true, [.str "d"])] ∧
      zeros.Inverts u (u.entries ⟨0, .owner⟩) [(.float (.zero false), [.str "a", .str "c"]),
        (.int 1, [.null, .str "b"]), (.bool true, [.str "d"])]) ∧
      ∃ v : Value, v.isScalar = false ∧ (invert ⟨1, .owner⟩).run unhashable =
        (.error (.typeMismatch "hashable scalar" v.typeName), unhashable) := by
  have hm : zeros.Fits .map ⟨0, .owner⟩ := by decide +kernel
  have hscalar : ∀ p ∈ zeros.entries ⟨0, .owner⟩, p.2.isScalar = true := by decide +kernel
  have hgroups : (inverse (zeros.entries ⟨0, .owner⟩)).filter (·.2 ≠ [.null]) =
      [(.float (.zero false), [.str "a", .str "c"]), (.int 1, [.null, .str "b"]),
        (.bool true, [.str "d"])] := by decide +kernel
  obtain ⟨⟨c, t, hcopy, ht⟩, u, hplace, hu⟩ := (inversion_entries hm).1 hscalar
  rw [hgroups] at ht hu
  have hlist : unhashable.Fits .map ⟨1, .owner⟩ := by decide +kernel
  obtain ⟨p, -, hp, -, hrun⟩ := (inversion_entries hlist).2 (by decide +kernel)
  exact ⟨⟨c, t, u, hcopy, hplace, ht, hu⟩, p.2, hp, hrun⟩

/-- What the null key holds alone is lost, by either inversion. -/
theorem inversion_loses_null_key :
    ∃ s : Store, s.Fits .map ⟨0, .owner⟩ ∧ s.entries ⟨0, .owner⟩ = [(.null, .int 1)] ∧
      inverse (s.entries ⟨0, .owner⟩) = [(.int 1, [.null])] ∧
      ((toInverted ⟨0, .owner⟩).run s).1 = .ok ⟨1, .owner⟩ ∧
      ((toInverted ⟨0, .owner⟩).run s).2.entries ⟨1, .owner⟩ = [] ∧
      ((invert ⟨0, .owner⟩).run s).1 = .ok () ∧
      ((invert ⟨0, .owner⟩).run s).2.entries ⟨0, .owner⟩ = [] :=
  ⟨((create 0 [(.null, .int 1)]).run .metered).2, by decide +kernel⟩

/-! ## Agreement -/

/-- A copying operation, with the one on an owner that changes the map in place. -/
inductive Twins (m : Handle) : StoreM Handle → StoreM Unit → Prop
  | sortByKey (ascending : Bool) :
      Twins m (toSortedByKey m ascending) (sortByKey ⟨m.target, .owner⟩ ascending)
  | sortByValue (ascending : Bool) :
      Twins m (toSortedByValue m ascending) (sortByValue ⟨m.target, .owner⟩ ascending)
  | reverse : Twins m (toReversed m) (reverse ⟨m.target, .owner⟩)
  | invert : Twins m (toInverted m) (invert ⟨m.target, .owner⟩)

/-- Two operations fail alike with nothing changed, or else one makes a new map of the entries that
the other one leaves in place, but for the nulls among these. Lists have the same elements either
way. -/
inductive Agree (m : Handle) (s : Store) (copy : StoreM Handle) (inPlace : StoreM Unit) : Prop
  | failed {f : Fault} (copied : copy.run s = (.error f, s)) (left : inPlace.run s = (.error f, s))
  | done {c : Handle} {t u : Store} (copied : copy.run s = (.ok c, t))
      (left : inPlace.run s = (.ok (), u)) (new : s.Copied c (kept (u.entries m)) t)
      (lists : ∀ l, t.items l = u.items l)
      (whole : (∀ p ∈ s.entries m, p.2 ≠ .null) → t.entries c = u.entries m)

/-- Putting the entries into another order is storing them anew, if no value is null. -/
theorem agree_of_perm (hm : s.Fits .map m) (hn : (Entries.keys (s.entries m)).Nodup)
    {x : Except Fault (List (Key × Value))} (hx : ∀ pairs, x = .ok pairs → (s.entries m).Perm pairs)
    {copy : StoreM Handle} {inPlace : StoreM Unit}
    (hcopy : copy.run s = ((liftM x : StoreM _) >>= sibling m).run s)
    (hplace : inPlace.run s = ((liftM x : StoreM _) >>= fun pairs =>
      StoreM.commit ⟨m.target, .owner⟩ (.entries pairs) []).run s) : Agree m s copy inPlace := by
  cases x with
  | error f => exact .failed hcopy hplace
  | ok pairs =>
    have hperm := hx pairs rfl
    have hkeys : (Entries.keys pairs).Nodup := (Entries.keys_perm hperm).nodup_iff.mp hn
    obtain ⟨c, t, hrun, hcopied, hitems⟩ := sibling_copied m hkeys s
    have hwrites := hm.commit pairs []
    refine .done (hcopy.trans hrun) hplace ?_ (fun l => ?_) fun hnull => ?_
    · rwa [hwrites.entries]
    · rw [hitems, hwrites.items hm]
    · rw [hcopied.entries, hwrites.entries, Entries.kept_eq_self]
      exact fun p hp => hnull p (hperm.mem_iff.mpr hp)

theorem Twins.agree {copy : StoreM Handle} {inPlace : StoreM Unit} (h : Twins m copy inPlace)
    (hm : s.Fits .map m) (hn : (Entries.keys (s.entries m)).Nodup) : Agree m s copy inPlace := by
  cases h with
  | sortByKey ascending =>
    exact agree_of_perm hm hn (fun _ => Sorting.sortBy_perm) rfl rfl
  | sortByValue ascending =>
    exact agree_of_perm hm hn (fun _ => Sorting.sortBy_perm) rfl rfl
  | reverse =>
    have hx : ∀ pairs, (.ok (s.entries m).reverse : Except Fault _) = .ok pairs →
        (s.entries m).Perm pairs := fun pairs h => Except.ok.inj h ▸ (List.reverse_perm _).symm
    exact agree_of_perm hm hn hx rfl rfl
  | invert =>
    by_cases h : ∀ p ∈ s.entries m, p.2.isScalar = true
    · obtain ⟨pairs, c, t, u, hcopy, hplace, hcopied, hentries, hitems, -⟩ := inversions_ok hm h
      refine .done hcopy hplace ?_ hitems fun _ => ?_
      · rwa [hentries, Entries.kept_kept]
      · rw [hcopied.entries, hentries]
    · obtain ⟨p, -, -, hcopy, hplace⟩ := inversions_error m (s := s) (by simpa using h)
      exact .failed hcopy hplace

/-- The keys of a map that was reached are all different. -/
theorem keys_nodup {loose : Nat → Prop} {start : Store} (hstart : start.Fresh)
    (h : Session loose start s) (hm : s.Fits .map m) : (Entries.keys (s.entries m)).Nodup := by
  obtain ⟨c, hc, hcontents⟩ := hm.entries
  have hproper := (h.moves.weighed (hstart.weighed ownCost)).proper _ c hc
  rw [hcontents] at hproper
  exact hproper.keys_nodup

/-- On every map that was reached, copying and changing in place agree but for the keys that have a
null. A duplicate has the entries, and a slice those between its clamped bounds, with the same
exception. Whatever was there before a copy is there after it. -/
theorem copies_agree {loose : Nat → Prop} {start : Store} (hstart : start.Fresh)
    (h : Session loose start s) (hm : s.Fits .map m) :
    (∀ {copy : StoreM Handle} {inPlace : StoreM Unit}, Twins m copy inPlace →
        Agree m s copy inPlace) ∧
      (∃ c t, (duplicate m).run s = (.ok c, t) ∧ s.Copied c (kept (s.entries m)) t) ∧
      ∀ start stop : Int, ∃ c t, (slice m start stop).run s = (.ok c, t) ∧
        s.Copied c (kept (((s.entries m).take (Position.clamp stop (s.entries m).length)).drop
          (Position.clamp start (s.entries m).length))) t := by
  have hn := keys_nodup hstart h hm
  refine ⟨?_, ?_, ?_⟩
  · intro copy inPlace htwins
    exact htwins.agree hm hn
  · obtain ⟨c, t, hrun, hcopied, -⟩ := sibling_copied m hn s
    exact ⟨c, t, hrun, hcopied⟩
  · intro start stop
    have hpart := (List.drop_sublist (Position.clamp start (s.entries m).length) _).trans
      (List.take_sublist (Position.clamp stop (s.entries m).length) (s.entries m))
    obtain ⟨c, t, hrun, hcopied, -⟩ := sibling_copied m (hn.sublist (hpart.map _)) s
    exact ⟨c, t, hrun, hcopied⟩

/-- A map into which a null was inserted. -/
def withNull : Store :=
  ((insert ⟨0, .owner⟩ (.str "a") .null).run ((create 0 [(.str "b", .int 1)]).run .metered).2).2

theorem withNull_session : Session (fun _ => False) .metered withNull :=
  .call (.create .start (.map 0 _)) (.map (m := ⟨0, .owner⟩) (by decide +kernel) (.insert _ _))

theorem copies_agree_null :
    ∃ c t u, Session (fun _ => False) .metered withNull ∧
      (toReversed ⟨0, .owner⟩).run withNull = (.ok c, t) ∧
      (reverse ⟨0, .owner⟩).run withNull = (.ok (), u) ∧
      u.entries ⟨0, .owner⟩ = [(.str "a", .null), (.str "b", .int 1)] ∧
      t.entries c = [(.str "b", .int 1)] := by
  have hm : withNull.Fits .map ⟨0, .owner⟩ := by decide +kernel
  have hplace : ((reverse ⟨0, .owner⟩).run withNull).1 = .ok () ∧
      ((reverse ⟨0, .owner⟩).run withNull).2.entries ⟨0, .owner⟩ =
        [(.str "a", .null), (.str "b", .int 1)] := by decide +kernel
  have hagree := (copies_agree Store.metered_fresh withNull_session hm).1 .reverse
  cases hagree with
  | failed _ left => cases (congrArg Prod.fst left).symm.trans hplace.1
  | @done c t u copied left new _ _ =>
    obtain rfl : ((reverse ⟨0, .owner⟩).run withNull).2 = u := congrArg Prod.snd left
    refine ⟨c, t, _, withNull_session, copied, left, hplace.2, ?_⟩
    rw [new.entries, hplace.2]
    decide

/-- A null that was inserted is in none of the copies, and stays where the map is changed in
place. -/
theorem copies_lose_null :
    Session (fun _ => False) .metered withNull ∧
      withNull.entries ⟨0, .owner⟩ = [(.str "b", .int 1), (.str "a", .null)] ∧
      ((duplicate ⟨0, .owner⟩).run withNull).1 = .ok ⟨1, .owner⟩ ∧
      ((duplicate ⟨0, .owner⟩).run withNull).2.entries ⟨1, .owner⟩ = [(.str "b", .int 1)] ∧
      ((toReversed ⟨0, .owner⟩).run withNull).1 = .ok ⟨1, .owner⟩ ∧
      ((toReversed ⟨0, .owner⟩).run withNull).2.entries ⟨1, .owner⟩ = [(.str "b", .int 1)] ∧
      ((reverse ⟨0, .owner⟩).run withNull).1 = .ok () ∧
      ((reverse ⟨0, .owner⟩).run withNull).2.entries ⟨0, .owner⟩ =
        [(.str "a", .null), (.str "b", .int 1)] :=
  ⟨withNull_session, by decide +kernel⟩

end Maps

end MeteredScript
