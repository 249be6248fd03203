import MeteredScript.Proofs.Store.Maps

/-!
# The operations on containers

What can be done with lists, maps and sets, through owners and views alike. All of it is done in
steps of the store.
-/

namespace MeteredScript

/-- Operations that a host or a native function can call, with whatever arguments. -/
inductive Operation : {α : Type} → StoreM α → Prop
  | readOnly (h : Handle) : Operation (StoreM.readOnly h)
  | listCreate (account : Nat) (values : List Value) : Operation (Lists.create account values)
  | listGet (l : Handle) (index : Int) : Operation (Lists.get l index)
  | listSlice (l : Handle) (start stop : Int) : Operation (Lists.slice l start stop)
  | listSubList (l : Handle) (start stop : Int) : Operation (Lists.subList l start stop)
  | listConcat (l : Handle) (values : List Value) : Operation (Lists.concat l values)
  | listToSorted (l : Handle) (ascending : Bool) : Operation (Lists.toSorted l ascending)
  | listToReversed (l : Handle) : Operation (Lists.toReversed l)
  | listToSpliced (l : Handle) (start count : Int) (values : List Value) :
      Operation (Lists.toSpliced l start count values)
  | listWith (l : Handle) (index : Int) (v : Value) : Operation (Lists.withElement l index v)
  | listPush (l : Handle) (v : Value) : Operation (Lists.push l v)
  | listPop (l : Handle) : Operation (Lists.pop l)
  | listShift (l : Handle) : Operation (Lists.shift l)
  | listInsert (l : Handle) (index : Int) (v : Value) : Operation (Lists.insert l index v)
  | listUnshift (l : Handle) (v : Value) : Operation (Lists.unshift l v)
  | listAddAll (l : Handle) (values : List Value) : Operation (Lists.addAll l values)
  | listInsertAll (l : Handle) (index : Int) (values : List Value) :
      Operation (Lists.insertAll l index values)
  | listRemoveAt (l : Handle) (index : Int) : Operation (Lists.removeAt l index)
  | listRemoveValue (l : Handle) (v : Value) : Operation (Lists.removeValue l v)
  | listSet (l : Handle) (index : Int) (v : Value) : Operation (Lists.set l index v)
  | listClear (l : Handle) : Operation (Lists.clear l)
  | listSplice (l : Handle) (start count : Int) (values : List Value) :
      Operation (Lists.splice l start count values)
  | listSort (l : Handle) (ascending : Bool) : Operation (Lists.sort l ascending)
  | listReverse (l : Handle) : Operation (Lists.reverse l)
  | listFill (l : Handle) (v : Value) (start stop : Int) : Operation (Lists.fill l v start stop)
  | mapCreate (account : Nat) (pairs : List (Key × Value)) : Operation (Maps.create account pairs)
  | mapKeys (m : Handle) : Operation (Maps.keys m)
  | mapValues (m : Handle) : Operation (Maps.values m)
  | mapSlice (m : Handle) (start stop : Int) : Operation (Maps.slice m start stop)
  | mapDuplicate (m : Handle) : Operation (Maps.duplicate m)
  | mapToSortedByKey (m : Handle) (ascending : Bool) : Operation (Maps.toSortedByKey m ascending)
  | mapToSortedByValue (m : Handle) (ascending : Bool) :
      Operation (Maps.toSortedByValue m ascending)
  | mapToReversed (m : Handle) : Operation (Maps.toReversed m)
  | mapToInverted (m : Handle) : Operation (Maps.toInverted m)
  | mapPut (m : Handle) (k : Key) (v : Value) : Operation (Maps.put m k v)
  | mapInsert (m : Handle) (k : Key) (v : Value) : Operation (Maps.insert m k v)
  | mapPutAll (m : Handle) (pairs : List (Key × Value)) : Operation (Maps.putAll m pairs)
  | mapPutIfAbsent (m : Handle) (k : Key) (v : Value) : Operation (Maps.putIfAbsent m k v)
  | mapReplace (m : Handle) (k : Key) (v : Value) : Operation (Maps.replace m k v)
  | mapReplaceIf (m : Handle) (k : Key) (expected v : Value) :
      Operation (Maps.replaceIf m k expected v)
  | mapRemove (m : Handle) (k : Key) : Operation (Maps.remove m k)
  | mapClear (m : Handle) : Operation (Maps.clear m)
  | mapSortByKey (m : Handle) (ascending : Bool) : Operation (Maps.sortByKey m ascending)
  | mapSortByValue (m : Handle) (ascending : Bool) : Operation (Maps.sortByValue m ascending)
  | mapReverse (m : Handle) : Operation (Maps.reverse m)
  | mapInvert (m : Handle) : Operation (Maps.invert m)
  | setCreate (account : Nat) (values : List Value) : Operation (Sets.create account values)
  | setAdd (h : Handle) (v : Value) : Operation (Sets.add h v)
  | setRemove (h : Handle) (v : Value) : Operation (Sets.remove h v)
  | setClear (h : Handle) : Operation (Sets.clear h)

/-- Operations on containers take steps, those that fail as well. -/
theorem Operation.safe {α : Type} {x : StoreM α} (h : Operation x) :
    x.Safe .everything fun _ => True := by
  have hv := Realm.everything_admits
  have hvs : ∀ (values : List Value), ∀ v ∈ values, Realm.everything.admits v := fun _ v _ => hv v
  have hps : ∀ (pairs : List (Key × Value)), ∀ p ∈ pairs, Realm.everything.admits p.2 :=
    fun _ p _ => hv p.2
  have hh : ∀ h : Handle, Realm.everything.handle h := fun _ => trivial
  have forget {β : Type} {y : StoreM β} {Q : β → Prop} (hy : y.Safe .everything Q) :
      y.Safe .everything fun _ => True := hy.weaken fun _ _ => trivial
  cases h with
  | readOnly h => exact forget (.readOnly (hh h))
  | listCreate account values => exact forget (Lists.create_safe account (hvs values))
  | listGet l index => exact forget (Lists.get_safe l index)
  | listSlice l start stop => exact forget (Lists.slice_safe l start stop)
  | listSubList l start stop => exact forget (Lists.subList_safe l start stop)
  | listConcat l values => exact forget (Lists.concat_safe l (hvs values))
  | listToSorted l ascending => exact forget (Lists.toSorted_safe l ascending)
  | listToReversed l => exact forget (Lists.toReversed_safe l)
  | listToSpliced l start count values =>
    exact forget (Lists.toSpliced_safe l start count (hvs values))
  | listWith l index v => exact forget (Lists.withElement_safe l index (hv v))
  | listPush l v => exact Lists.push_safe (hh l) (hv v)
  | listPop l => exact forget (Lists.pop_safe (hh l))
  | listShift l => exact forget (Lists.shift_safe (hh l))
  | listInsert l index v => exact Lists.insert_safe (hh l) index (hv v)
  | listUnshift l v => exact Lists.unshift_safe (hh l) (hv v)
  | listAddAll l values => exact Lists.addAll_safe (hh l) (hvs values)
  | listInsertAll l index values => exact Lists.insertAll_safe (hh l) index (hvs values)
  | listRemoveAt l index => exact forget (Lists.removeAt_safe (hh l) index)
  | listRemoveValue l v => exact Lists.removeValue_safe (hh l) v
  | listSet l index v => exact forget (Lists.set_safe (hh l) index (hv v))
  | listClear l => exact Lists.clear_safe (hh l)
  | listSplice l start count values =>
    exact forget (Lists.splice_safe (hh l) start count (hvs values))
  | listSort l ascending => exact Lists.sort_safe (hh l) ascending
  | listReverse l => exact Lists.reverse_safe (hh l)
  | listFill l v start stop => exact Lists.fill_safe (hh l) (hv v) start stop
  | mapCreate account pairs => exact forget (Maps.create_safe account (hps pairs))
  | mapKeys m => exact forget (Maps.keys_safe m)
  | mapValues m => exact forget (Maps.values_safe m)
  | mapSlice m start stop => exact forget (Maps.slice_safe m start stop)
  | mapDuplicate m => exact forget (Maps.duplicate_safe m)
  | mapToSortedByKey m ascending => exact forget (Maps.toSortedByKey_safe m ascending)
  | mapToSortedByValue m ascending => exact forget (Maps.toSortedByValue_safe m ascending)
  | mapToReversed m => exact forget (Maps.toReversed_safe m)
  | mapToInverted m => exact forget (Maps.toInverted_safe m)
  | mapPut m k v => exact forget (Maps.put_safe (hh m) k (hv v))
  | mapInsert m k v => exact forget (Maps.insert_safe (hh m) k (hv v))
  | mapPutAll m pairs => exact Maps.putAll_safe (hh m) (hps pairs)
  | mapPutIfAbsent m k v => exact forget (Maps.putIfAbsent_safe (hh m) k (hv v))
  | mapReplace m k v => exact forget (Maps.replace_safe (hh m) k (hv v))
  | mapReplaceIf m k expected v => exact Maps.replaceIf_safe (hh m) k expected (hv v)
  | mapRemove m k => exact forget (Maps.remove_safe (hh m) k)
  | mapClear m => exact Maps.clear_safe (hh m)
  | mapSortByKey m ascending => exact Maps.sortByKey_safe (hh m) ascending
  | mapSortByValue m ascending => exact Maps.sortByValue_safe (hh m) ascending
  | mapReverse m => exact Maps.reverse_safe (hh m)
  | mapInvert m => exact Maps.invert_safe (hh m)
  | setCreate account values => exact forget (Sets.create_safe account values)
  | setAdd h v => exact Sets.add_safe (hh h) v
  | setRemove h v => exact Sets.remove_safe (hh h) v
  | setClear h => exact Sets.clear_safe (hh h)

end MeteredScript
