import MeteredScript.Proofs.Accounting
import MeteredScript.Proofs.Evaluation.Honesty
import MeteredScript.Proofs.Store.Journal

/-!
# What containers report

Whatever is called on containers, and in whatever order, the reports of a container tell all that is
in it: who replays them from the beginning has the same contents. A call that fails reports nothing.
-/

namespace MeteredScript

/-! ## Sessions -/

/-- Operations on a list through a handle, those that reorder it in place apart. -/
inductive ListCall (l : Handle) : {α : Type} → StoreM α → Prop
  | get (index : Int) : ListCall l (Lists.get l index)
  | slice (start stop : Int) : ListCall l (Lists.slice l start stop)
  | subList (start stop : Int) : ListCall l (Lists.subList l start stop)
  | concat (values : List Value) : ListCall l (Lists.concat l values)
  | toSorted (ascending : Bool) : ListCall l (Lists.toSorted l ascending)
  | toReversed : ListCall l (Lists.toReversed l)
  | toSpliced (start count : Int) (values : List Value) :
      ListCall l (Lists.toSpliced l start count values)
  | withElement (index : Int) (v : Value) : ListCall l (Lists.withElement l index v)
  | push (v : Value) : ListCall l (Lists.push l v)
  | pop : ListCall l (Lists.pop l)
  | shift : ListCall l (Lists.shift l)
  | insert (index : Int) (v : Value) : ListCall l (Lists.insert l index v)
  | unshift (v : Value) : ListCall l (Lists.unshift l v)
  | addAll (values : List Value) : ListCall l (Lists.addAll l values)
  | insertAll (index : Int) (values : List Value) : ListCall l (Lists.insertAll l index values)
  | removeAt (index : Int) : ListCall l (Lists.removeAt l index)
  | removeValue (v : Value) : ListCall l (Lists.removeValue l v)
  | set (index : Int) (v : Value) : ListCall l (Lists.set l index v)
  | clear : ListCall l (Lists.clear l)
  | splice (start count : Int) (values : List Value) :
      ListCall l (Lists.splice l start count values)
  | fill (v : Value) (start stop : Int) : ListCall l (Lists.fill l v start stop)

inductive ListReordering (l : Handle) : {α : Type} → StoreM α → Prop
  | sort (ascending : Bool) : ListReordering l (Lists.sort l ascending)
  | reverse : ListReordering l (Lists.reverse l)

inductive MapCall (m : Handle) : {α : Type} → StoreM α → Prop
  | keys : MapCall m (Maps.keys m)
  | values : MapCall m (Maps.values m)
  | slice (start stop : Int) : MapCall m (Maps.slice m start stop)
  | duplicate : MapCall m (Maps.duplicate m)
  | toSortedByKey (ascending : Bool) : MapCall m (Maps.toSortedByKey m ascending)
  | toSortedByValue (ascending : Bool) : MapCall m (Maps.toSortedByValue m ascending)
  | toReversed : MapCall m (Maps.toReversed m)
  | toInverted : MapCall m (Maps.toInverted m)
  | put (k : Key) (v : Value) : MapCall m (Maps.put m k v)
  | insert (k : Key) (v : Value) : MapCall m (Maps.insert m k v)
  | putAll (pairs : List (Key × Value)) : MapCall m (Maps.putAll m pairs)
  | putIfAbsent (k : Key) (v : Value) : MapCall m (Maps.putIfAbsent m k v)
  | replace (k : Key) (v : Value) : MapCall m (Maps.replace m k v)
  | replaceIf (k : Key) (expected v : Value) : MapCall m (Maps.replaceIf m k expected v)
  | remove (k : Key) : MapCall m (Maps.remove m k)
  | clear : MapCall m (Maps.clear m)
  | sortByKey (ascending : Bool) : MapCall m (Maps.sortByKey m ascending)
  | sortByValue (ascending : Bool) : MapCall m (Maps.sortByValue m ascending)
  | reverse : MapCall m (Maps.reverse m)
  | invert : MapCall m (Maps.invert m)

inductive SetCall (h : Handle) : {α : Type} → StoreM α → Prop
  | add (v : Value) : SetCall h (Sets.add h v)
  | remove (v : Value) : SetCall h (Sets.remove h v)
  | clear : SetCall h (Sets.clear h)

/-- A call of a method on a container that is there, by a host or by a script. Only lists that are
loose may be reordered in place. -/
inductive Call (loose : Nat → Prop) (s : Store) : {α : Type} → StoreM α → Prop
  | list {α : Type} {x : StoreM α} {l : Handle} (fits : s.Fits .list l) (call : ListCall l x) :
      Call loose s x
  | reorder {α : Type} {x : StoreM α} {l : Handle} (fits : s.Fits .list l) (may : loose l.target)
      (call : ListReordering l x) : Call loose s x
  | map {α : Type} {x : StoreM α} {m : Handle} (fits : s.Fits .map m) (call : MapCall m x) :
      Call loose s x
  | set {α : Type} {x : StoreM α} {h : Handle} (fits : s.Fits .set h) (call : SetCall h x) :
      Call loose s x
  | readOnly (h : Handle) : Call loose s (StoreM.readOnly h)
  | script (account : Nat) {receiver : Value} (name : String) (args : List Value)
      (suits : s.Suits receiver)
      (may : ∀ l, receiver = .list l → name = "sort" ∨ name = "reverse" → loose l.target) :
      Call loose s (Environment.callBuiltIn account receiver name args)

/-- The making of a container with its first contents. -/
inductive Creation : {α : Type} → StoreM α → Prop
  | list (account : Nat) (values : List Value) : Creation (Lists.create account values)
  | map (account : Nat) (pairs : List (Key × Value)) : Creation (Maps.create account pairs)
  | set (account : Nat) (values : List Value) : Creation (Sets.create account values)

/-- The stores that a sequence of calls can lead to, whether they fail or not. -/
inductive Session (loose : Nat → Prop) (start : Store) : Store → Prop
  | start : Session loose start start
  | create {α : Type} {x : StoreM α} {s : Store} (before : Session loose start s)
      (creation : Creation x) : Session loose start (x.run s).2
  | call {α : Type} {x : StoreM α} {s : Store} (before : Session loose start s)
      (call : Call loose s x) : Session loose start (x.run s).2

section Moves

variable {loose : Nat → Prop} {start s : Store} {α : Type} {x : StoreM α}

theorem ListCall.honest {l : Handle} (h : ListCall l x) :
    x.Honest (s.Fits .list l) loose s := by
  cases h with
  | get index => exact Lists.get_honest l index
  | slice start stop => exact Lists.slice_honest l start stop
  | subList start stop => exact Lists.subList_honest l start stop
  | concat values => exact Lists.concat_honest l values
  | toSorted ascending => exact Lists.toSorted_honest l ascending
  | toReversed => exact Lists.toReversed_honest l
  | toSpliced start count values => exact Lists.toSpliced_honest l start count values
  | withElement index v => exact Lists.withElement_honest l index v
  | push v => exact Lists.push_honest v
  | pop => exact Lists.pop_honest
  | shift => exact Lists.shift_honest
  | insert index v => exact Lists.insert_honest index v
  | unshift v => exact Lists.insert_honest 0 v
  | addAll values => exact Lists.addAll_honest values
  | insertAll index values => exact Lists.insertAll_honest index values
  | removeAt index => exact Lists.removeAt_honest index
  | removeValue v => exact Lists.removeValue_honest v
  | set index v => exact Lists.set_honest index v
  | clear => exact Lists.clear_honest
  | splice start count values => exact Lists.splice_honest start count values
  | fill v start stop => exact Lists.fill_honest v start stop

theorem ListReordering.honest {l : Handle} (h : ListReordering l x) (may : loose l.target) :
    x.Honest (s.Fits .list l) loose s := by
  cases h with
  | sort ascending => exact Lists.sort_honest may ascending
  | reverse => exact Lists.reverse_honest may

theorem MapCall.honest {m : Handle} (h : MapCall m x) : x.Honest (s.Fits .map m) loose s := by
  cases h with
  | keys => exact Maps.keys_honest m
  | values => exact Maps.values_honest m
  | slice start stop => exact Maps.slice_honest m start stop
  | duplicate => exact Maps.duplicate_honest m
  | toSortedByKey ascending => exact Maps.toSortedByKey_honest m ascending
  | toSortedByValue ascending => exact Maps.toSortedByValue_honest m ascending
  | toReversed => exact Maps.toReversed_honest m
  | toInverted => exact Maps.toInverted_honest m
  | put k v => exact Maps.put_honest k v
  | insert k v => exact Maps.insert_honest k v
  | putAll pairs => exact Maps.putAll_honest pairs
  | putIfAbsent k v => exact Maps.putIfAbsent_honest k v
  | replace k v => exact Maps.replace_honest k v
  | replaceIf k expected v => exact Maps.replaceIf_honest k expected v
  | remove k => exact Maps.remove_honest k
  | clear => exact Maps.clear_honest
  | sortByKey ascending => exact Maps.sortByKey_honest ascending
  | sortByValue ascending => exact Maps.sortByValue_honest ascending
  | reverse => exact Maps.reverse_honest
  | invert => exact Maps.invert_honest

theorem SetCall.honest {h : Handle} (hc : SetCall h x) : x.Honest (s.Fits .set h) loose s := by
  cases hc with
  | add v => exact Sets.add_honest v
  | remove v => exact Sets.remove_honest v
  | clear => exact Sets.clear_honest

theorem Call.moves (h : Call loose s x) : Store.Moves loose s (x.run s).2 := by
  cases h with
  | list fits call => exact call.honest.moves fits
  | reorder fits may call => exact (call.honest may).moves fits
  | map fits call => exact call.honest.moves fits
  | set fits call => exact call.honest.moves fits
  | readOnly h => exact .single (.readOnly h)
  | script account name args suits may =>
    exact (Environment.callBuiltIn_honest account _ name args may).moves suits

/-- A call that fails leaves the store, and with it every journal, as it was. -/
theorem Call.clean (h : Call loose s x) {f : Fault} (hf : (x.run s).1 = .error f) :
    (x.run s).2 = s := by
  have unchanged {fits : Prop} (hx : x.Honest fits loose s) : (x.run s).2 = s := (hx.clean f hf).1
  cases h with
  | list fits call => exact unchanged call.honest
  | reorder fits may call => exact unchanged (call.honest may)
  | map fits call => exact unchanged call.honest
  | set fits call => exact unchanged call.honest
  | readOnly h => cases hf
  | script account name args suits may =>
    exact unchanged (Environment.callBuiltIn_honest account _ name args may)

theorem Creation.told {fits : Prop} (h : Creation x) : x.Told fits loose s := by
  cases h with
  | list account values => exact .of_sure (Lists.create_sure account values)
  | map account pairs => exact .of_sure (Maps.create_sure account pairs)
  | set account values => exact Sets.create_told account values

theorem Session.moves (h : Session loose start s) : Store.Moves loose start s := by
  induction h with
  | start => exact .refl
  | create before creation ih => exact ih.trans (creation.told.moves trivial)
  | call before call ih => exact ih.trans call.moves

end Moves

/-! ## Contents from reports -/

/-- The changes, made one after another to empty contents, give the contents: the elements of a list
in order, for each key of a map its value, and the elements of a set. -/
def Contents.RebuiltFrom (changes : List (Change × Slot × Value)) : Contents → Prop
  | items values => (items []).replayAll changes = some (items values)
  | entries pairs => ∃ copy, (entries []).replayAll changes = some (entries copy) ∧
      ∀ k, copy.lookup k = pairs.lookup k
  | elements keys => (elements []).replayAll changes = some (elements keys)

theorem Contents.IsCopy.rebuilt {c copy : Contents} {changes : List (Change × Slot × Value)}
    (hcopy : c.blank.replayAll changes = some copy) (h : copy.IsCopy c) :
    c.RebuiltFrom changes := by
  cases h with
  | items values => exact hcopy
  | entries perm nodup => exact ⟨_, hcopy, fun k => Entries.lookup_perm perm nodup⟩
  | elements _ => exact hcopy

theorem Store.Fresh.recorded {s : Store} (h : s.Fresh) (loose : Nat → Prop) :
    s.Recorded loose := by
  intro n c hc
  rw [h.containers] at hc
  simp at hc

/-- At any point of a session, a container is rebuilt from its reports unless it is a list that may
have been reordered in place, and a call that fails changes nothing and reports nothing. -/
theorem session_rebuilt {loose : Nat → Prop} {start s : Store} (hstart : start.Fresh)
    (h : Session loose start s) :
    (∀ (n : Nat) (c : Container) (a : Account), s.containers[n]? = some c →
        s.accounts[c.account]? = some a → (c.contents.type = .list → ¬ loose n) →
        c.contents.RebuiltFrom (a.changesOf c.id)) ∧
      ∀ {α : Type} {x : StoreM α} {f : Fault}, Call loose s x → (x.run s).1 = .error f →
        (x.run s).2 = s := by
  constructor
  · intro n c a hc ha htight
    have hrecorded := h.moves.recorded (hstart.recorded loose) hstart.balanced
    have haccount := (Array.getElem?_eq_some_iff.mp ha).1
    obtain ⟨copy, hcopy, hsame⟩ := hrecorded n c hc haccount htight
    rw [Store.changesOf, ha, Option.map_some, Option.getD_some] at hcopy
    exact Contents.IsCopy.rebuilt hcopy hsame
  · exact fun hcall hf => hcall.clean hf

/-- A run of a list is exchanged, and an element that is not there is asked for in vain. -/
theorem session_rebuilt_spliced :
    ∃ (start s : Store) (c : Container) (a : Account), start.Fresh ∧
      Session (fun _ => False) start s ∧ s.containers[0]? = some c ∧
      s.accounts[c.account]? = some a ∧ c.contents = .items [.int 1, .int 4, .int 5, .int 3] ∧
      c.contents.RebuiltFrom (a.changesOf c.id) ∧
      ((Lists.get ⟨0, .owner⟩ 7).run s).1 = .error (.indexOutOfRange 7 4) ∧
      ((Lists.get ⟨0, .owner⟩ 7).run s).2 = s := by
  let start : Store := ⟨#[.opened .bySize true], #[]⟩
  have hstart : start.Fresh := ⟨fun a ha => ⟨.bySize, true, by simpa [start] using ha⟩, rfl⟩
  let l : Handle := ⟨0, .owner⟩
  let made := ((Lists.create 0 [.int 1, .int 2, .int 3]).run start).2
  have hmade : Session (fun _ => False) start made := .create .start (.list 0 _)
  let spliced := ((Lists.splice l 1 1 [.int 4, .int 5]).run made).2
  have hspliced : Session (fun _ => False) start spliced :=
    .call hmade (.list (l := l) (by decide +kernel) (.splice 1 1 _))
  have hget : Call (fun _ => False) spliced (Lists.get l 7) :=
    .list (by decide +kernel) (.get 7)
  have hfail : ((Lists.get l 7).run spliced).1 = .error (.indexOutOfRange 7 4) := by decide +kernel
  obtain ⟨hrebuilt, hclean⟩ := session_rebuilt hstart hspliced
  obtain ⟨a, ha⟩ : ∃ a, spliced.accounts[0]? = some a :=
    Option.isSome_iff_exists.mp (by decide +kernel)
  let c : Container := ⟨1, 0, 32, .items [.int 1, .int 4, .int 5, .int 3]⟩
  have hc : spliced.containers[0]? = some c := by decide +kernel
  have hlist := hrebuilt 0 c a hc ha fun _ => id
  have hsame := hclean hget hfail
  exact ⟨start, spliced, c, a, hstart, hspliced, hc, ha, rfl, hlist, hfail, hsame⟩

end MeteredScript
