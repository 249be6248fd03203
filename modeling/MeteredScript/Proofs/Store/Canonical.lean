import MeteredScript.Proofs.Evaluation.Preserving
import MeteredScript.Proofs.Reporting
import MeteredScript.Proofs.Store.Inverse
import MeteredScript.Proofs.Store.Sorted

/-!
# Keys in canonical form

A key is in canonical form if it is the key of its own value. Keys are folded when they are made,
and only then; so operations keep keys canonical and different if the keys that they are given are
made ones, as those are that they take from values.
-/

namespace MeteredScript

/-- Keys that are made of values, floats, texts or ints. -/
inductive Key.Made : Key → Prop
  | value {v : Value} {k : Key} (ofValue : Key.ofValue v = .ok k) : Made k
  | float (x : Binary64) : Made (ofFloat x)
  | str (s : String) : Made (str s)
  | int (i : Int64) : Made (int i)

/-- Folding what is folded changes nothing, so a made key is the key of its own value. -/
theorem Key.Made.canonical {k : Key} (h : k.Made) : Key.ofValue k.toValue = .ok k := by
  cases h with
  | value ofValue => exact ofValue_toValue ofValue
  | float x => exact ofValue_toValue (v := .float x) rfl
  | str | int => rfl

/-- Keys are in canonical form, and each is there once. -/
structure CanonicalKeys (keys : List Key) : Prop where
  nodup : keys.Nodup
  canonical : ∀ k ∈ keys, Key.ofValue k.toValue = .ok k

namespace CanonicalKeys

variable {keys other : List Key} {k : Key}

theorem nil : CanonicalKeys [] := ⟨.nil, fun _ hk => absurd hk List.not_mem_nil⟩

theorem sublist (h : CanonicalKeys keys) (hs : other.Sublist keys) : CanonicalKeys other :=
  ⟨h.nodup.sublist hs, fun k hk => h.canonical k (hs.mem hk)⟩

theorem perm (h : CanonicalKeys keys) (hp : keys.Perm other) : CanonicalKeys other :=
  ⟨hp.nodup_iff.mp h.nodup, fun k hk => h.canonical k (hp.mem_iff.mpr hk)⟩

theorem append (h : CanonicalKeys keys) (hk : k ∉ keys) (hmade : k.Made) :
    CanonicalKeys (keys ++ [k]) := by
  refine ⟨?_, ?_⟩
  · exact (List.perm_append_singleton k keys).nodup_iff.mpr (List.nodup_cons.mpr ⟨hk, h.nodup⟩)
  · exact List.forall_mem_append.mpr ⟨h.canonical, List.forall_mem_singleton.mpr hmade.canonical⟩

theorem put {pairs : List (Key × Value)} (h : CanonicalKeys (Entries.keys pairs)) (hmade : k.Made)
    (v : Value) : CanonicalKeys (Entries.keys (Entries.put k v pairs)) := by
  by_cases hk : k ∈ Entries.keys pairs
  · rwa [Entries.keys_put_of_mem hk]
  · rw [Entries.keys_put_of_not_mem hk]
    exact h.append hk hmade

theorem made (h : CanonicalKeys keys) (hk : k ∈ keys) : k.Made := .value (h.canonical k hk)

end CanonicalKeys

/-- The keys that contents go by. -/
def Contents.keys : Contents → List Key
  | items _ => []
  | entries pairs => Entries.keys pairs
  | elements keys => keys

namespace Store

/-- The keys of all maps and the elements of all sets are canonical. -/
def Canonical (s : Store) : Prop :=
  ∀ (n : Nat) (c : Container), s.containers[n]? = some c → CanonicalKeys c.contents.keys

variable {s : Store}

theorem Canonical.entries (h : s.Canonical) (m : Handle) :
    CanonicalKeys (Entries.keys (s.entries m)) := by
  unfold Store.entries
  split
  · next heq => exact h _ _ heq
  · exact .nil

theorem Canonical.elements (h : s.Canonical) (l : Handle) : CanonicalKeys (s.elements l) := by
  unfold Store.elements
  split
  · next heq => exact h _ _ heq
  · exact .nil

theorem Canonical.commit (h : s.Canonical) (target : Nat) (contents : Contents)
    (hc : CanonicalKeys contents.keys) (changes : List (Change × Slot × Value)) :
    (s.commit target contents changes).Canonical := by
  intro n c hn
  have hcontents := s.commit_contents target contents changes n
  rw [hn, Option.map_some] at hcontents
  split at hcontents
  · obtain ⟨_, -, heq⟩ := Option.map_eq_some_iff.mp hcontents.symm
    exact heq ▸ hc
  · obtain ⟨d, hd, heq⟩ := Option.map_eq_some_iff.mp hcontents.symm
    exact heq ▸ h n d hd

theorem Canonical.allocate (h : s.Canonical) (account : Nat) {contents : Contents}
    (hc : contents.keys = []) : (s.allocate account contents).2.Canonical := by
  intro n c hn
  simp only [Store.allocate, Array.getElem?_push] at hn
  split at hn
  · rw [← Option.some.inj hn, hc]
    exact .nil
  · exact h n c hn

end Store

/-! ## Operations on one container -/

namespace Preserves

open Store (Canonical)

theorem current : Preserves Canonical StoreM.current Canonical := get

theorem items (l : Handle) : PreservesOnly Canonical (StoreM.items l) :=
  look fun _ _ => ⟨_, rfl, trivial⟩

theorem accountOf (h : Handle) : PreservesOnly Canonical (StoreM.accountOf h) :=
  look fun _ _ => ⟨_, rfl, trivial⟩

theorem entries (m : Handle) :
    Preserves Canonical (StoreM.entries m) fun pairs => CanonicalKeys (Entries.keys pairs) :=
  look fun _ hs => ⟨_, rfl, hs.entries m⟩

theorem elements (h : Handle) : Preserves Canonical (StoreM.elements h) CanonicalKeys :=
  look fun _ hs => ⟨_, rfl, hs.elements h⟩

theorem commitItems (l : Handle) (values : List Value) (changes : List (Change × Slot × Value)) :
    PreservesOnly Canonical (StoreM.commit l (.items values) changes) :=
  change (fun _ => rfl) fun _ hs => hs.commit l.target (.items values) .nil changes

theorem commitEntries (m : Handle) {pairs : List (Key × Value)}
    (hp : CanonicalKeys (Entries.keys pairs)) (changes : List (Change × Slot × Value)) :
    PreservesOnly Canonical (StoreM.commit m (.entries pairs) changes) :=
  change (fun _ => rfl) fun _ hs => hs.commit m.target (.entries pairs) hp changes

theorem commitElements (h : Handle) {keys : List Key} (hk : CanonicalKeys keys)
    (changes : List (Change × Slot × Value)) :
    PreservesOnly Canonical (StoreM.commit h (.elements keys) changes) :=
  change (fun _ => rfl) fun _ hs => hs.commit h.target (.elements keys) hk changes

theorem allocate (account : Nat) {contents : Contents} (hc : contents.keys = []) :
    PreservesOnly Canonical (StoreM.allocate account contents) :=
  change (fun _ => rfl) fun _ hs => hs.allocate account hc

theorem readOnly (h : Handle) : PreservesOnly Canonical (StoreM.readOnly h) :=
  change (fun _ => rfl) fun s hs n c hn => hs n c (s.readOnly_containers h ▸ hn)

end Preserves

/-! ## Lists -/

namespace Lists

open Store (Canonical)

theorem create_canonical (account : Nat) (values : List Value) :
    PreservesOnly Canonical (create account values) := by
  unfold create
  refine .next (.allocate account rfl) fun h => ?_
  exact .next (.commitItems h values _) fun _ => .pure trivial

theorem sibling_canonical (l : Handle) (values : List Value) :
    PreservesOnly Canonical (sibling l values) := by
  unfold sibling
  exact .next (.accountOf l) fun account => create_canonical account values

theorem removeIndex_canonical (l : Handle) (i : Nat) :
    PreservesOnly Canonical (removeIndex l i) := by
  unfold removeIndex
  refine .next (.items l) fun items => ?_
  split
  · exact .next (.commitItems l _ _) fun _ => .pure trivial
  · exact .pure trivial

end Lists

theorem ListCall.canonical {l : Handle} {α : Type} {x : StoreM α} (h : ListCall l x) :
    PreservesOnly Store.Canonical x := by
  have copy {values : List Value → List Value} :
      PreservesOnly Store.Canonical (do Lists.sibling l (values (← StoreM.items l))) :=
    .next (.items l) fun items => Lists.sibling_canonical l _
  have change {operation : String} {β : Type} {f : List Value → StoreM β}
      (hf : ∀ items, PreservesOnly Store.Canonical (f items)) :
      PreservesOnly Store.Canonical (do
        liftM (l.checkOwner operation)
        f (← StoreM.items l) : StoreM β) :=
    .check fun _ => .next (.items l) hf
  cases h with
  | get index => exact .next (.items l) fun _ => .check fun _ => .pure trivial
  | slice start stop => exact copy
  | concat values => exact copy
  | toReversed => exact copy
  | toSpliced start count values => exact copy
  | subList start stop =>
    refine .next (.items l) fun items => .check fun first => .check fun last => ?_
    dsimp only
    split
    · exact .next (.throw _ _) fun _ => Lists.sibling_canonical l _
    · exact Lists.sibling_canonical l _
  | toSorted ascending =>
    exact .next (.items l) fun items => .check fun sorted => Lists.sibling_canonical l _
  | withElement index v =>
    refine .next (.items l) fun items => ?_
    dsimp only
    split
    · exact Lists.sibling_canonical l _
    · exact .throw _ _
  | push v => exact change fun items => .commitItems l _ _
  | pop => exact change fun items => Lists.removeIndex_canonical l _
  | shift => exact .check fun _ => Lists.removeIndex_canonical l 0
  | insert index v | unshift v =>
    exact change fun items => .check fun i => .commitItems l _ _
  | addAll values => exact change fun items => .commitItems l _ _
  | insertAll index values =>
    exact change fun items => .check fun i => .commitItems l _ _
  | removeAt index => exact change fun items => .check fun i => Lists.removeIndex_canonical l i
  | removeValue v =>
    refine .check fun _ => .bind .current fun s _ => ?_
    split
    · exact .next (Lists.removeIndex_canonical l _) fun _ => .pure trivial
    · exact .pure trivial
  | set index v =>
    refine change fun items => .check fun i => ?_
    exact .next (.commitItems l _ _) fun _ => .pure trivial
  | clear => exact change fun items => .commitItems l _ _
  | splice start count values =>
    refine change fun items => ?_
    exact .next (.commitItems l _ _) fun _ => Lists.sibling_canonical l _
  | fill v start stop => exact change fun items => .commitItems l _ _

theorem ListReordering.canonical {l : Handle} {α : Type} {x : StoreM α} (h : ListReordering l x) :
    PreservesOnly Store.Canonical x := by
  cases h with
  | sort ascending =>
    refine .check fun _ => .next (.items l) fun items => .check fun sorted => ?_
    exact .commitItems l _ _
  | reverse => exact .check fun _ => .next (.items l) fun items => .commitItems l _ _

/-! ## Maps -/

/-- The keys of the inverse are made of values. -/
theorem Entries.inverseGroups_made {pairs : List (Key × Value)} {groups : List (Key × List Value)}
    (h : inverseGroups pairs = .ok groups) : ∀ g ∈ groups, g.1.Made := by
  by_cases hscalar : ∀ p ∈ pairs, p.2.isScalar = true
  · obtain rfl := Except.ok.inj ((inverseGroups_ok hscalar).symm.trans h)
    intro g hg
    obtain ⟨_, hinverse, rfl⟩ := List.mem_map.mp hg
    obtain ⟨k, hk, rfl⟩ := List.mem_map.mp hinverse
    obtain ⟨p, -, hp⟩ := List.mem_filterMap.mp (List.mem_eraseDups.mp hk)
    rcases hvalue : Key.ofValue p.2 with e | k'
    · rw [valueKey, hvalue] at hp
      cases hp
    · rw [valueKey, hvalue] at hp
      exact Option.some.inj hp ▸ .value hvalue
  · obtain ⟨p, -, -, herror⟩ := inverseGroups_error (by simpa using hscalar)
    cases herror.symm.trans h

namespace Maps

open Store (Canonical)

theorem store_canonical (m : Handle) {k : Key} (hk : k.Made) (v : Value) :
    PreservesOnly Canonical (store m k v) := by
  unfold store
  refine .bind (.entries m) fun pairs hp => ?_
  dsimp only
  split
  · have herase : CanonicalKeys (Entries.keys (Entries.erase k pairs)) :=
      hp.sublist (List.eraseP_sublist.map _)
    exact .next (.commitEntries m herase _) fun _ => .pure trivial
  · exact .next (.commitEntries m (hp.put hk v) _) fun _ => .pure trivial

theorem storeAll_canonical (m : Handle) {pairs : List (Key × Value)} (hp : ∀ p ∈ pairs, p.1.Made) :
    PreservesOnly Canonical (storeAll m pairs) := by
  unfold storeAll
  exact .forM fun p hin => .next (store_canonical m (hp p hin) p.2) fun _ => .pure trivial

theorem create_canonical (account : Nat) {pairs : List (Key × Value)}
    (hp : ∀ p ∈ pairs, p.1.Made) : PreservesOnly Canonical (create account pairs) := by
  unfold create empty
  refine .next (.allocate account rfl) fun m => ?_
  exact .next (storeAll_canonical m hp) fun _ => .pure trivial

theorem sibling_canonical (m : Handle) {pairs : List (Key × Value)} (hp : ∀ p ∈ pairs, p.1.Made) :
    PreservesOnly Canonical (sibling m pairs) := by
  unfold sibling
  exact .next (.accountOf m) fun account => create_canonical account hp

theorem inverted_canonical (m : Handle) :
    Preserves Canonical (inverted m) fun pairs => ∀ p ∈ pairs, p.1.Made := by
  unfold inverted
  refine .bind (.entries m) fun pairs _ => ?_
  refine .bind (.lift fun groups => Entries.inverseGroups_made) fun groups hg => ?_
  refine .mapM fun g hin => ?_
  obtain ⟨k, members⟩ := g
  have hmade : k.Made := hg _ hin
  dsimp only
  split
  · exact .pure hmade
  · exact .next (Lists.sibling_canonical m members) fun l => .pure hmade

theorem clear_canonical (m : Handle) : PreservesOnly Canonical (clear m) := by
  unfold clear
  have hnone : CanonicalKeys (Entries.keys []) := .nil
  exact .check fun _ => .bind (.entries m) fun pairs _ => .commitEntries m hnone _

end Maps

/-- Operations on a map through a handle. Keys that they may add are made. -/
inductive KeyedCall (m : Handle) : {α : Type} → StoreM α → Prop
  | put {k : Key} (made : k.Made) (v : Value) : KeyedCall m (Maps.put m k v)
  | insert {k : Key} (made : k.Made) (v : Value) : KeyedCall m (Maps.insert m k v)
  | putAll {pairs : List (Key × Value)} (made : ∀ p ∈ pairs, p.1.Made) :
      KeyedCall m (Maps.putAll m pairs)
  | putIfAbsent {k : Key} (made : k.Made) (v : Value) : KeyedCall m (Maps.putIfAbsent m k v)
  | replace {k : Key} (made : k.Made) (v : Value) : KeyedCall m (Maps.replace m k v)
  | replaceIf {k : Key} (made : k.Made) (expected v : Value) :
      KeyedCall m (Maps.replaceIf m k expected v)
  | remove {k : Key} (made : k.Made) : KeyedCall m (Maps.remove m k)
  | keys : KeyedCall m (Maps.keys m)
  | values : KeyedCall m (Maps.values m)
  | slice (start stop : Int) : KeyedCall m (Maps.slice m start stop)
  | duplicate : KeyedCall m (Maps.duplicate m)
  | toSortedByKey (ascending : Bool) : KeyedCall m (Maps.toSortedByKey m ascending)
  | toSortedByValue (ascending : Bool) : KeyedCall m (Maps.toSortedByValue m ascending)
  | toReversed : KeyedCall m (Maps.toReversed m)
  | toInverted : KeyedCall m (Maps.toInverted m)
  | clear : KeyedCall m (Maps.clear m)
  | sortByKey (ascending : Bool) : KeyedCall m (Maps.sortByKey m ascending)
  | sortByValue (ascending : Bool) : KeyedCall m (Maps.sortByValue m ascending)
  | reverse : KeyedCall m (Maps.reverse m)
  | invert : KeyedCall m (Maps.invert m)

theorem KeyedCall.canonical {m : Handle} {α : Type} {x : StoreM α} (h : KeyedCall m x) :
    PreservesOnly Store.Canonical x := by
  have made {pairs other : List (Key × Value)} (hp : CanonicalKeys (Entries.keys pairs))
      (hs : ∀ p ∈ other, p ∈ pairs) : ∀ p ∈ other, p.1.Made :=
    fun p hin => hp.made (List.mem_map_of_mem (hs p hin))
  have toSorted (sort : List (Key × Value) → Except Fault (List (Key × Value)))
      (hsort : ∀ pairs sorted, sort pairs = .ok sorted → pairs.Perm sorted) :
      PreservesOnly Store.Canonical (do
        let sorted ← liftM (sort (← StoreM.entries m))
        Maps.sibling m sorted) :=
    .bind (.entries m) fun pairs hp =>
      .bind (.lift fun sorted => hsort pairs sorted) fun sorted hs =>
        Maps.sibling_canonical m (made hp fun p => hs.mem_iff.mpr)
  have sort (operation : String) (sort : List (Key × Value) → Except Fault (List (Key × Value)))
      (hsort : ∀ pairs sorted, sort pairs = .ok sorted → pairs.Perm sorted) :
      PreservesOnly Store.Canonical (do
        liftM (m.checkOwner operation)
        let sorted ← liftM (sort (← StoreM.entries m))
        StoreM.commit m (.entries sorted) [] : StoreM Unit) :=
    .check fun _ => .bind (.entries m) fun pairs hp =>
      .bind (.lift fun sorted => hsort pairs sorted) fun sorted hs =>
        .commitEntries m (hp.perm (hs.map _)) _
  cases h with
  | put hk v => exact .check fun _ => Maps.store_canonical m hk v
  | insert hk v =>
    refine .check fun _ => .bind (.entries m) fun pairs hp => ?_
    exact .next (.commitEntries m (hp.put hk v) _) fun _ => .pure trivial
  | putAll hp => exact .check fun _ => Maps.storeAll_canonical m hp
  | putIfAbsent hk v =>
    refine .check fun _ => .bind (.entries m) fun pairs hp => ?_
    split
    · exact .pure trivial
    · split
      · exact .pure trivial
      · exact Maps.store_canonical m hk v
  | replace hk v =>
    refine .check fun _ => .bind (.entries m) fun pairs hp => ?_
    split
    · exact Maps.store_canonical m hk v
    · exact .pure trivial
  | replaceIf hk expected v =>
    refine .check fun _ => .bind .current fun s _ => ?_
    split
    · exact .next (Maps.store_canonical m hk v) fun _ => .pure trivial
    · exact .pure trivial
  | remove hk => exact .check fun _ => Maps.store_canonical m hk .null
  | keys | values => exact .bind (.entries m) fun pairs hp => Lists.sibling_canonical m _
  | slice start stop =>
    refine .bind (.entries m) fun pairs hp => Maps.sibling_canonical m (made hp fun p hin => ?_)
    exact List.mem_of_mem_take (List.mem_of_mem_drop hin)
  | duplicate =>
    exact .bind (.entries m) fun pairs hp => Maps.sibling_canonical m (made hp fun p hin => hin)
  | toSortedByKey ascending | toSortedByValue ascending =>
    exact toSorted _ fun pairs sorted => Sorting.sortBy_perm
  | toReversed =>
    refine .bind (.entries m) fun pairs hp => Maps.sibling_canonical m (made hp fun p hin => ?_)
    exact List.mem_reverse.mp hin
  | toInverted =>
    exact .bind (Maps.inverted_canonical m) fun pairs hp => Maps.sibling_canonical m hp
  | clear => exact Maps.clear_canonical m
  | sortByKey ascending | sortByValue ascending =>
    exact sort _ _ fun pairs sorted => Sorting.sortBy_perm
  | reverse =>
    refine .check fun _ => .bind (.entries m) fun pairs hp => ?_
    exact .commitEntries m (hp.perm ((List.reverse_perm pairs).symm.map _)) _
  | invert =>
    refine .check fun _ => .bind (Maps.inverted_canonical m) fun pairs hp => ?_
    exact .next (Maps.clear_canonical m) fun _ => Maps.storeAll_canonical m hp

/-! ## Sets -/

namespace Sets

open Store (Canonical)

theorem insertKey_canonical (h : Handle) {k : Key} (hk : k.Made) :
    PreservesOnly Canonical (insertKey h k) := by
  unfold insertKey
  refine .bind (.elements h) fun keys hkeys => ?_
  split
  · exact .pure trivial
  · next hnew => exact .next (.commitElements h (hkeys.append hnew hk) _) fun _ => .pure trivial

theorem create_canonical (account : Nat) (values : List Value) :
    PreservesOnly Canonical (create account values) := by
  unfold create empty
  refine .next (.allocate account rfl) fun h => .next (.forM fun v _ => ?_) fun _ => .pure trivial
  refine .bind (.lift fun k hk => Key.Made.value hk) fun k hk => ?_
  exact .next (insertKey_canonical h hk) fun _ => .pure trivial

end Sets

theorem SetCall.canonical {h : Handle} {α : Type} {x : StoreM α} (hc : SetCall h x) :
    PreservesOnly Store.Canonical x := by
  cases hc with
  | add v =>
    refine .check fun _ => .bind (.lift fun k hk => Key.Made.value hk) fun k hk => ?_
    exact Sets.insertKey_canonical h hk
  | remove v =>
    unfold Sets.remove
    refine .check fun _ => ?_
    split
    · exact .pure trivial
    · next k _ =>
      refine .bind (.elements h) fun keys hkeys => ?_
      split
      · have herase : CanonicalKeys (keys.erase k) := hkeys.sublist List.erase_sublist
        exact .next (.commitElements h herase _) fun _ => .pure trivial
      · exact .pure trivial
  | clear =>
    exact .check fun _ => .bind (.elements h) fun keys _ => .commitElements h .nil _

/-! ## All operations -/

/-- Operations on containers, of which those that may add keys are given made ones. -/
inductive KeyedOperation : {α : Type} → StoreM α → Prop
  | list {α : Type} {x : StoreM α} {l : Handle} (call : ListCall l x) : KeyedOperation x
  | reorder {α : Type} {x : StoreM α} {l : Handle} (call : ListReordering l x) : KeyedOperation x
  | map {α : Type} {x : StoreM α} {m : Handle} (call : KeyedCall m x) : KeyedOperation x
  | set {α : Type} {x : StoreM α} {h : Handle} (call : SetCall h x) : KeyedOperation x
  | readOnly (h : Handle) : KeyedOperation (StoreM.readOnly h)
  | newList (account : Nat) (values : List Value) : KeyedOperation (Lists.create account values)
  | newMap (account : Nat) {pairs : List (Key × Value)} (made : ∀ p ∈ pairs, p.1.Made) :
      KeyedOperation (Maps.create account pairs)
  | newSet (account : Nat) (values : List Value) : KeyedOperation (Sets.create account values)

theorem KeyedOperation.canonical {α : Type} {x : StoreM α} (h : KeyedOperation x) :
    PreservesOnly Store.Canonical x := by
  cases h with
  | list call => exact call.canonical
  | reorder call => exact call.canonical
  | map call => exact call.canonical
  | set call => exact call.canonical
  | readOnly h => exact .readOnly h
  | newList account values => exact Lists.create_canonical account values
  | newMap account made => exact Maps.create_canonical account made
  | newSet account values => exact Sets.create_canonical account values

end MeteredScript
