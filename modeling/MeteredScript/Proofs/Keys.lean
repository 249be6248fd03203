import Mathlib.Data.Finset.Card
import MeteredScript.Proofs.Evaluation.Lasting
import MeteredScript.Proofs.Store.Writing

/-!
# Keys are found again

Keys leave maps and sets as values and come back as keys: in lists of keys, in loops, in inverses
and as arguments. However this goes on, each value that stands for a key leads to its entry.
-/

namespace MeteredScript

/-- A run of a host: operations on containers that are given made keys, and evaluations of programs,
in any order. Native functions do nothing to containers either but what such a run does. -/
inductive KeyedRuns : Machine → Machine → Prop
  | refl (m : Machine) : KeyedRuns m m
  | trans {m m' m'' : Machine} (first : KeyedRuns m m') (next : KeyedRuns m' m'') : KeyedRuns m m''
  | operate {α : Type} {x : StoreM α} (operation : KeyedOperation x) (m : Machine) :
      KeyedRuns m ((Act.onStore x).run m).2
  | evaluate (p : Program) (e : Environment) (fuel : Nat) (this : Value) (frame : Nat) (m : Machine)
      (natives : ∀ n ∈ e.configuration.natives, ∀ f ∈ n.methods,
        ∀ (args : List Value) (m : Machine), KeyedRuns m ((f.2 args).run m).2) :
      KeyedRuns m ((p.evaluate e fuel this frame).run m).2
  | host {m m' : Machine} (containers : m'.store.containers = m.store.containers) : KeyedRuns m m'

theorem KeyedRuns.canonical {m m' : Machine} (h : KeyedRuns m m') :
    m.store.Canonical → m'.store.Canonical := by
  induction h with
  | refl => exact id
  | trans _ _ ih ih' => exact fun hm => ih' (ih hm)
  | operate operation m => exact fun hm => (operation.canonical m.store hm).1
  | evaluate p e fuel this frame m _ ih =>
    have hlasts : e.Lasts fun m => m.store.Canonical := by
      constructor
      case made =>
        intro m hm c p hp
        exact (hm.entries c).made (List.mem_map_of_mem hp)
      case operate =>
        intro _ x hx
        exact .onStore fun m _ => hx.canonical
      case rest =>
        intro m t hstore hm
        exact (congrArg Store.Canonical hstore).mpr hm
      case natives =>
        intro n hn f hf args m hm
        exact ⟨ih n hn f hf args m hm, fun _ _ => trivial⟩
    exact fun hm => (p.evaluate_preserves hlasts fuel this frame m hm).1
  | host containers => exact fun hm n c hn => hm n c (containers ▸ hn)

/-! ## Maps -/

namespace Entries

variable {pairs : List (Key × Value)} {k : Key}

theorem ne_of_mem_tail {p : Key × Value} (h : (keys (p :: pairs)).Nodup) (hk : p.1 = k) :
    ∀ q ∈ pairs, q.1 ≠ k := by
  intro q hq he
  have hin : q.1 ∈ keys pairs := List.mem_map_of_mem hq
  rw [he, ← hk] at hin
  exact (List.nodup_cons.mp h).1 hin

theorem erase_eq_filter (h : (keys pairs).Nodup) : erase k pairs = pairs.filter (·.1 ≠ k) := by
  induction pairs with
  | nil => rfl
  | cons p rest ih =>
    obtain ⟨hp, hrest⟩ := List.nodup_cons.mp h
    by_cases hk : p.1 = k
    · have hothers : ∀ q ∈ rest, q.1 ≠ k := ne_of_mem_tail h hk
      have hall : rest.filter (·.1 ≠ k) = rest := List.filter_eq_self.mpr (by simpa using hothers)
      simpa [erase, hk] using hall.symm
    · have herase : erase k (p :: rest) = p :: erase k rest := by simp [erase, hk]
      rw [herase, ih hrest, List.filter_cons_of_pos (by simpa using hk)]

/-- A value that is stored under a key that is there takes the place of the one before. -/
theorem put_eq_map (h : (keys pairs).Nodup) (hk : k ∈ keys pairs) (v : Value) :
    put k v pairs = pairs.map fun p => if p.1 = k then (k, v) else p := by
  induction pairs with
  | nil => exact absurd hk List.not_mem_nil
  | cons p rest ih =>
    obtain ⟨hp, hrest⟩ := List.nodup_cons.mp h
    obtain ⟨k', w⟩ := p
    by_cases hk' : k' = k
    · have hothers : ∀ q ∈ rest, q.1 ≠ k := ne_of_mem_tail h hk'
      have hsame : rest.map (fun p => if p.1 = k then (k, v) else p) = rest :=
        (List.map_congr_left fun q hq => if_neg (hothers q hq)).trans (List.map_id rest)
      rw [put, if_pos hk', List.map_cons, if_pos hk', hsame]
    · have hin : k ∈ keys rest := (List.mem_cons.mp hk).resolve_left (Ne.symm hk')
      rw [put, if_neg hk', List.map_cons, if_neg hk', ih hrest hin]

end Entries

namespace Maps

variable {s : Store} {m : Handle}

/-- A value leads to an entry: there is a value under its key, and it is that of the entry. -/
structure Finds (s : Store) (m : Handle) (w : Value) (p : Key × Value) : Prop where
  key : Key.ofValue w = .ok p.1
  contains : containsKey s m p.1 = true
  get : get s m p.1 = p.2

/-- Operations that store a value under a key that is in the map. -/
inductive Storing (s : Store) (m : Handle) (k : Key) (v : Value) : {α : Type} → StoreM α → Prop
  | put : Storing s m k v (put m k v)
  | insert : Storing s m k v (insert m k v)
  | replace : Storing s m k v (replace m k v)
  | replaceIf {expected : Value}
      (same : ((s.entries m).lookup k).any (s.same · expected) = true) :
      Storing s m k v (replaceIf m k expected v)

/-- The keys of a map are canonical and different, and whatever stands for them finds its entry. The
order of the entries is kept when one of them is changed or removed. -/
structure Orderly (s : Store) (m : Handle) : Prop where
  canonical : CanonicalKeys (Entries.keys (s.entries m))
  size : (s.entries m).length = (Entries.keys (s.entries m)).toFinset.card
  listed : ∃ l t, (keys m).run s = (.ok l, t) ∧
    List.Forall₂ (Finds t m) (t.items l) (s.entries m)
  iterated : ∃ items, Job.iterated s (.map m) = .ok items ∧
    List.Forall₂ (Finds s m) items (s.entries m)
  stored : ∀ {α : Type} {x : StoreM α} {k : Key} {v : Value}, Storing s m k v x →
    m.view = .owner → k ∈ Entries.keys (s.entries m) → v ≠ .null →
      ∃ a t, x.run s = (.ok a, t) ∧
        t.entries m = (s.entries m).map fun p => if p.1 = k then (k, v) else p
  removed : s.Fits .map m → m.view = .owner → ∀ k, ∃ w t, (remove m k).run s = (.ok w, t) ∧
    t.entries m = (s.entries m).filter (·.1 ≠ k)

theorem finds_entry (h : CanonicalKeys (Entries.keys (s.entries m))) {p : Key × Value}
    (hp : p ∈ s.entries m) : Finds s m p.1.toValue p := by
  have hlookup : (s.entries m).lookup p.1 = some p.2 := (Entries.lookup_eq_some h.nodup).mpr hp
  refine ⟨h.canonical p.1 (List.mem_map_of_mem hp), ?_, ?_⟩
  · rw [containsKey, hlookup]
    rfl
  · rw [get, hlookup]
    rfl

theorem finds_entries (h : CanonicalKeys (Entries.keys (s.entries m))) :
    List.Forall₂ (Finds s m) ((s.entries m).map (·.1.toValue)) (s.entries m) :=
  List.forall₂_map_left_iff.mpr (List.forall₂_same.mpr fun _ hp => finds_entry h hp)

/-- Where there is an entry there is a map. -/
theorem fits_of_mem {p : Key × Value} (h : p ∈ s.entries m) : s.Fits .map m := by
  unfold Store.entries at h
  split at h
  · next heq =>
    rw [Store.Fits, heq]
    rfl
  · exact absurd h List.not_mem_nil

theorem keys_finds (h : CanonicalKeys (Entries.keys (s.entries m))) :
    ∃ l t, (keys m).run s = (.ok l, t) ∧ List.Forall₂ (Finds t m) (t.items l) (s.entries m) := by
  obtain ⟨t, hrun, hkeeps, -, hitems⟩ := Lists.sibling_run m ((s.entries m).map (·.1.toValue)) s
  refine ⟨_, t, hrun, hitems ▸ ?_⟩
  -- The new list is none of the maps, so the entries are found where they were.
  refine List.forall₂_map_left_iff.mpr (List.forall₂_same.mpr fun p hp => ?_)
  obtain ⟨c, hc, -⟩ := (fits_of_mem hp).entries
  have hentries : t.entries m = s.entries m := by
    rw [Store.entries, Store.entries, hkeeps _ c hc, hc]
  exact finds_entry (hentries ▸ h) (hentries ▸ hp)

theorem Storing.run {α : Type} {x : StoreM α} {k : Key} {v : Value} (hx : Storing s m k v x)
    (ho : m.view = .owner) (hk : k ∈ Entries.keys (s.entries m)) (hv : v ≠ .null) :
    ∃ a t, x.run s = (.ok a, t) ∧ t.entries m = Entries.put k v (s.entries m) := by
  obtain ⟨p, hp, -⟩ := List.mem_map.mp hk
  obtain ⟨w, t, hstore, hwrites⟩ := store_writes (fits_of_mem hp) k v
  rw [if_neg hv] at hwrites
  obtain ⟨held, hheld⟩ : ∃ held, (s.entries m).lookup k = some held :=
    Option.ne_none_iff_exists'.mp fun hnone => Entries.lookup_eq_none.mp hnone hk
  obtain ⟨target, view⟩ := m
  obtain rfl := ho
  cases hx with
  | put => exact ⟨w, t, hstore, hwrites.entries⟩
  | insert =>
    obtain ⟨w', t', hinsert, hwrites'⟩ := insert_writes (fits_of_mem hp) rfl k v
    exact ⟨w', t', hinsert, hwrites'.entries⟩
  | replace =>
    refine ⟨w, t, ?_, hwrites.entries⟩
    have howner : (liftM (Handle.checkOwner ⟨target, .owner⟩ "replace") : StoreM Unit).run s =
      (.ok (), s) := rfl
    have hpairs : (StoreM.entries ⟨target, .owner⟩).run s =
      (.ok (s.entries ⟨target, .owner⟩), s) := rfl
    simp only [Maps.replace, run_bind, howner, hpairs, hheld, hstore]
  | @replaceIf expected same =>
    refine ⟨true, t, ?_, hwrites.entries⟩
    change (if ((s.entries ⟨target, .owner⟩).lookup k).any (s.same · expected) then do
        let _ ← store ⟨target, .owner⟩ k v
        return true
      else return false : StoreM Bool).run s = _
    rw [if_pos same, run_bind, hstore]
    rfl

theorem orderly (h : s.Canonical) (m : Handle) : Orderly s m := by
  have hkeys := h.entries m
  refine ⟨hkeys, ?_, keys_finds hkeys, ⟨_, rfl, finds_entries hkeys⟩, ?_, ?_⟩
  · rw [List.toFinset_card_of_nodup hkeys.nodup, Entries.keys, List.length_map]
  · intro α x k v hx ho hk hv
    obtain ⟨a, t, hrun, hentries⟩ := hx.run ho hk hv
    exact ⟨a, t, hrun, hentries.trans (Entries.put_eq_map hkeys.nodup hk v)⟩
  · intro hm ho k
    obtain ⟨w, t, hstore, hwrites⟩ := store_writes hm k .null
    rw [if_pos rfl] at hwrites
    refine ⟨w, t, ?_, hwrites.entries.trans (Entries.erase_eq_filter hkeys.nodup)⟩
    obtain ⟨target, view⟩ := m
    obtain rfl := ho
    exact hstore

end Maps

/-! ## Sets -/

namespace Sets

variable {s : Store} {h : Handle}

/-- A value leads to an element: its key is that element. -/
structure Finds (s : Store) (h : Handle) (w : Value) (k : Key) : Prop where
  key : Key.ofValue w = .ok k
  contains : contains s h w = true

/-- The elements of a set are canonical and different, and whatever stands for one of them is found.
An element that is added again stays in its place, and the order is kept if one is removed. -/
structure Orderly (s : Store) (h : Handle) : Prop where
  canonical : CanonicalKeys (s.elements h)
  size : (s.elements h).length = (s.elements h).toFinset.card
  listed : List.Forall₂ (Finds s h) (values s h) (s.elements h)
  iterated : ∃ items, Job.iterated s (.set h) = .ok items ∧
    List.Forall₂ (Finds s h) items (s.elements h)
  added : ∀ {v : Value} {k : Key}, Key.ofValue v = .ok k → h.view = .owner → k ∈ s.elements h →
    (add h v).run s = (.ok false, s)
  removed : ∀ {v : Value} {k : Key}, Key.ofValue v = .ok k → h.view = .owner →
    ∃ b t, (remove h v).run s = (.ok b, t) ∧ t.elements h = (s.elements h).filter (· ≠ k)

theorem finds_element (hk : CanonicalKeys (s.elements h)) {k : Key} (hin : k ∈ s.elements h) :
    Finds s h k.toValue k := by
  have hvalue := hk.canonical k hin
  refine ⟨hvalue, ?_⟩
  rw [contains, hvalue]
  exact decide_eq_true hin

theorem finds_elements (hk : CanonicalKeys (s.elements h)) :
    List.Forall₂ (Finds s h) (values s h) (s.elements h) :=
  List.forall₂_map_left_iff.mpr (List.forall₂_same.mpr fun _ hin => finds_element hk hin)

/-- Where there is an element there is a set. -/
theorem fits_of_mem {k : Key} (hin : k ∈ s.elements h) : s.Fits .set h := by
  unfold Store.elements at hin
  split at hin
  · next heq =>
    rw [Store.Fits, heq]
    rfl
  · exact absurd hin List.not_mem_nil

theorem elements_commit (hs : s.Fits .set h) (keys : List Key)
    (changes : List (Change × Slot × Value)) :
    (s.commit h.target (.elements keys) changes).elements h = keys := by
  obtain ⟨c, hc, -⟩ := hs.elements
  obtain ⟨⟨id, account, memory, contents⟩, hd, rfl⟩ :=
    Store.getElem?_commit_self hc (.elements keys) changes
  rw [Store.elements, hd]

theorem orderly (hs : s.Canonical) (h : Handle) : Orderly s h := by
  have hkeys := hs.elements h
  refine ⟨hkeys, ?_, finds_elements hkeys, ⟨_, rfl, finds_elements hkeys⟩, ?_, ?_⟩
  · rw [List.toFinset_card_of_nodup hkeys.nodup]
  · intro v k hv ho hin
    obtain ⟨target, view⟩ := h
    obtain rfl := ho
    unfold add
    rw [hv]
    change (if k ∈ s.elements ⟨target, .owner⟩ then return false else _ : StoreM Bool).run s = _
    rw [if_pos hin]
    rfl
  · intro v k hv ho
    obtain ⟨target, view⟩ := h
    obtain rfl := ho
    have hrun : (remove ⟨target, .owner⟩ v).run s = (if k ∈ s.elements ⟨target, .owner⟩ then do
          StoreM.commit ⟨target, .owner⟩ (.elements ((s.elements ⟨target, .owner⟩).erase k))
            [(.removed, .element, k.toValue)]
          return true
        else return false : StoreM Bool).run s := by
      unfold remove
      rw [hv]
      rfl
    rw [hrun]
    by_cases hin : k ∈ s.elements ⟨target, .owner⟩
    · rw [if_pos hin]
      refine ⟨true, _, rfl, (elements_commit (fits_of_mem hin) _ _).trans ?_⟩
      rw [hkeys.nodup.erase_eq_filter]
      exact List.filter_congr fun a _ => by rw [bne_eq, decide_not, beq_eq_decide]
    · rw [if_neg hin]
      refine ⟨false, s, rfl, (List.filter_eq_self.mpr fun a ha => ?_).symm⟩
      exact decide_eq_true (ne_of_mem_of_not_mem ha hin)

end Sets

/-! ## All maps and sets -/

/-- After any run, what stands for a key in a list, a loop or an argument finds its entry, in all
maps and sets alike. -/
theorem keys_found {start m : Machine} (hstart : start.store.containers = #[])
    (h : KeyedRuns start m) :
    (∀ c, Maps.Orderly m.store c) ∧ ∀ c, Sets.Orderly m.store c := by
  have hnone : start.store.Canonical := by
    intro n c hn
    rw [hstart] at hn
    simp at hn
  have hcanonical := h.canonical hnone
  exact ⟨Maps.orderly hcanonical, Sets.orderly hcanonical⟩

/-- The zeros are one key, and a map that was inverted twice is found as it was. -/
theorem keys_found_folded :
    ∃ m : Machine, Machine.bare.store.containers = #[] ∧ KeyedRuns Machine.bare m ∧
      m.store.entries ⟨0, .owner⟩ =
        [(.float (.zero false), .int 2), (.float (.nan false), .str "a")] ∧
      Maps.get m.store ⟨0, .owner⟩ (.ofFloat (.zero true)) = .int 2 ∧
      m.store.elements ⟨1, .owner⟩ = [.float (.zero false), .int 0] ∧
      Maps.Orderly m.store ⟨0, .owner⟩ ∧ Sets.Orderly m.store ⟨1, .owner⟩ := by
  let map : Handle := ⟨0, .owner⟩
  let operate {α : Type} (x : StoreM α) (m : Machine) : Machine := ((Act.onStore x).run m).2
  let pairs := [(Key.ofFloat (.zero true), Value.int 1), (Key.ofFloat (.nan true), .str "a")]
  have hpairs : ∀ p ∈ pairs, p.1.Made :=
    List.forall_mem_cons.mpr ⟨.float _, List.forall_mem_singleton.mpr (.float _)⟩
  let m₁ := operate (Maps.create 0 pairs) Machine.bare
  have h₁ : KeyedRuns Machine.bare m₁ := .operate (.newMap 0 hpairs) _
  let m₂ := operate (Maps.put map (.ofFloat (.zero false)) (.int 2)) m₁
  have h₂ : KeyedRuns m₁ m₂ := .operate (.map (.put (.float _) _)) _
  let m₃ := operate (Maps.invert map) (operate (Maps.invert map) m₂)
  have h₃ : KeyedRuns m₂ m₃ := .trans (.operate (.map .invert) _) (.operate (.map .invert) _)
  let m₄ := operate (Sets.create 0 [.float (.zero true), .int 0, .float (.zero false)]) m₃
  have h₄ : KeyedRuns m₃ m₄ := .operate (.newSet 0 _) _
  have h : KeyedRuns Machine.bare m₄ := (h₁.trans h₂).trans (h₃.trans h₄)
  obtain ⟨hmaps, hsets⟩ := keys_found rfl h
  exact ⟨m₄, rfl, h, by decide +kernel, by decide +kernel, by decide +kernel, hmaps map,
    hsets ⟨1, .owner⟩⟩

end MeteredScript
