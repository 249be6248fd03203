import MeteredScript.Evaluation.Calls
import MeteredScript.Proofs.Store.Maps

/-!
# Built-in methods take steps

A script that holds a receiver and some arguments holds what a built-in method answers, whichever
method it calls and whether or not the arguments fit.
-/

namespace MeteredScript

open StoreM (Safe)

variable {R : Realm}

/-! ## Arguments -/

namespace Arguments

theorem value_mem {args : List Value} (ha : ∀ v ∈ args, R.admits v) (i : Nat) :
    R.admits (value args i) := Lists.admits_getD ha i

theorem elements_mem {s : Store} (hs : s.Held R) {args : List Value} {i : Nat}
    {values : List Value} (h : elements s args i = .ok values) : ∀ v ∈ values, R.admits v := by
  unfold elements at h
  split at h
  · next l hl => exact Except.ok.inj h ▸ hs.items l
  · rw [← Except.ok.inj h]
    intro v hv
    obtain ⟨k, _, rfl⟩ := List.mem_map.mp hv
    exact Realm.admits_key k
  · cases h

end Arguments

open Arguments

/-! ## Methods -/

namespace ListMethod

theorem appended_mem {args : List Value} (ha : ∀ v ∈ args, R.admits v) {s : Store}
    (hs : s.Held R) {values : List Value} (h : appended s args = .ok values) :
    ∀ v ∈ values, R.admits v := by
  have hv := value_mem ha 0
  unfold appended at h
  split at h
  · exact elements_mem hs h
  · exact elements_mem hs h
  · exact Except.ok.inj h ▸ List.forall_mem_singleton.mpr hv

theorem call_safe {l : Handle} (hl : R.handle l) (method : ListMethod) (name : String)
    {args : List Value} (ha : ∀ v ∈ args, R.admits v) :
    Safe R (call l method name args) R.admits := by
  have hv := value_mem ha
  have hdrop : ∀ v ∈ args.drop 2, R.admits v := fun v h => ha v (List.mem_of_mem_drop h)
  unfold call
  refine .bind .current fun s hs => ?_
  have he {i : Nat} (values : List Value) (h : elements s args i = .ok values) :
      ∀ v ∈ values, R.admits v := elements_mem hs h
  cases method with
  | size => exact .check fun _ => .pure trivial
  | isEmpty => exact .check fun _ => .pure trivial
  | get => exact .check fun _ => .check fun i => Lists.get_safe l i
  | set => exact .check fun _ => .check fun i => Lists.set_safe hl i (hv 1)
  | push => exact .check fun _ => .bind (Lists.push_safe hl (hv 0)) fun _ _ => .pure trivial
  | add =>
    dsimp only
    split
    · exact .check fun i => .bind (Lists.insert_safe hl i (hv 1)) fun _ _ => .pure trivial
    · exact .check fun _ => .bind (Lists.push_safe hl (hv 0)) fun _ _ => .pure trivial
  | pop => exact .check fun _ => Lists.pop_safe hl
  | shift => exact .check fun _ => Lists.shift_safe hl
  | unshift => exact .check fun _ => .bind (Lists.unshift_safe hl (hv 0)) fun _ _ => .pure trivial
  | addAll =>
    dsimp only
    split
    · refine .check fun i => .bind (.lift he) fun values hvs => ?_
      exact .bind (Lists.insertAll_safe hl i hvs) fun _ _ => .pure trivial
    · refine .check fun _ => .bind (.lift he) fun values hvs => ?_
      exact .bind (Lists.addAll_safe hl hvs) fun _ _ => .pure trivial
  | removeAt => exact .check fun _ => .check fun i => Lists.removeAt_safe hl i
  | remove =>
    exact .check fun _ => .bind (Lists.removeValue_safe hl _) fun _ _ => .pure trivial
  | contains => exact .check fun _ => .pure trivial
  | containsAll => exact .check fun _ => .check fun _ => .pure trivial
  | indexOf => exact .check fun _ => .check fun _ => .pure trivial
  | join =>
    refine .check fun _ => ?_
    dsimp only
    split
    · exact .pure trivial
    · exact .check fun _ => .pure trivial
  | slice =>
    refine .check fun _ => .check fun a => .check fun b => ?_
    exact .bind (Lists.slice_safe l a b) fun _ h => .pure h
  | subList =>
    refine .check fun _ => .check fun a => .check fun b => ?_
    exact .bind (Lists.subList_safe l a b) fun _ h => .pure h
  | concat =>
    refine .check fun _ => .bind (.lift fun _ => appended_mem ha hs) fun values hvs => ?_
    exact .bind (Lists.concat_safe l hvs) fun _ h => .pure h
  | sort =>
    exact .check fun _ => .check fun b => .bind (Lists.sort_safe hl b) fun _ _ => .pure trivial
  | toSorted =>
    exact .check fun _ => .check fun b => .bind (Lists.toSorted_safe l b) fun _ h => .pure h
  | reverse => exact .check fun _ => .bind (Lists.reverse_safe hl) fun _ _ => .pure trivial
  | toReversed => exact .check fun _ => .bind (Lists.toReversed_safe l) fun _ h => .pure h
  | splice =>
    have hs : ∀ a b : Int, Safe R (do return Value.list (← Lists.splice l a b (args.drop 2)))
        R.admits := fun a b => .bind (Lists.splice_safe hl a b hdrop) fun _ h => .pure h
    dsimp only
    split
    · exact .bind (.throw _ fun _ => True) fun _ _ => .check fun a => .check fun b => hs a b
    · exact .check fun a => .check fun b => hs a b
  | toSpliced =>
    have hs : ∀ a b : Int, Safe R (do return Value.list (← Lists.toSpliced l a b (args.drop 2)))
        R.admits := fun a b => .bind (Lists.toSpliced_safe l a b hdrop) fun _ h => .pure h
    dsimp only
    split
    · exact .bind (.throw _ fun _ => True) fun _ _ => .check fun a => .check fun b => hs a b
    · exact .check fun a => .check fun b => hs a b
  | withElement =>
    refine .check fun _ => .check fun i => ?_
    exact .bind (Lists.withElement_safe l i (hv 1)) fun _ h => .pure h
  | fill =>
    refine .check fun _ => .check fun a => .check fun b => ?_
    exact .bind (Lists.fill_safe hl (hv 0) a b) fun _ _ => .pure hl
  | clear => exact .check fun _ => .bind (Lists.clear_safe hl) fun _ _ => .pure trivial
  | toUnmodifiable => exact .check fun _ => .bind (.readOnly hl) fun _ h => .pure h

end ListMethod

namespace MapMethod

theorem call_safe {m : Handle} (hm : R.handle m) (method : MapMethod) (name : String)
    {args : List Value} (ha : ∀ v ∈ args, R.admits v) :
    Safe R (call m method name args) R.admits := by
  have hv := value_mem ha
  unfold call
  refine .bind .current fun s hs => ?_
  cases method with
  | size => exact .check fun _ => .pure trivial
  | isEmpty => exact .check fun _ => .pure trivial
  | get =>
    exact .check fun _ => .check fun k => .pure (Entries.lookup_getD_mem (hs.entries m) k)
  | containsKey => exact .check fun _ => .check fun _ => .pure trivial
  | containsValue => exact .check fun _ => .pure trivial
  | put => exact .check fun _ => .check fun k => Maps.put_safe hm k (hv 1)
  | putAll =>
    refine .check fun _ => ?_
    split
    · next other _ =>
      exact .bind (Maps.putAll_safe hm (hs.entries other)) fun _ _ => .pure trivial
    · exact .throw _ _
  | putIfAbsent => exact .check fun _ => .check fun k => Maps.putIfAbsent_safe hm k (hv 1)
  | replace =>
    dsimp only
    split
    · refine .check fun k => ?_
      exact .bind (Maps.replaceIf_safe hm k _ (hv 2)) fun _ _ => .pure trivial
    · exact .check fun _ => .check fun k => Maps.replace_safe hm k (hv 1)
  | remove => exact .check fun _ => .check fun k => Maps.remove_safe hm k
  | clear => exact .check fun _ => .bind (Maps.clear_safe hm) fun _ _ => .pure trivial
  | keys => exact .check fun _ => .bind (Maps.keys_safe m) fun _ h => .pure h
  | values => exact .check fun _ => .bind (Maps.values_safe m) fun _ h => .pure h
  | slice =>
    refine .check fun _ => .check fun a => .check fun b => ?_
    exact .bind (Maps.slice_safe m a b) fun _ h => .pure h
  | duplicate => exact .check fun _ => .bind (Maps.duplicate_safe m) fun _ h => .pure h
  | sortByKey =>
    refine .check fun _ => .check fun b => ?_
    exact .bind (Maps.sortByKey_safe hm b) fun _ _ => .pure trivial
  | sortByValue =>
    refine .check fun _ => .check fun b => ?_
    exact .bind (Maps.sortByValue_safe hm b) fun _ _ => .pure trivial
  | toSortedByKey =>
    refine .check fun _ => .check fun b => ?_
    exact .bind (Maps.toSortedByKey_safe m b) fun _ h => .pure h
  | toSortedByValue =>
    refine .check fun _ => .check fun b => ?_
    exact .bind (Maps.toSortedByValue_safe m b) fun _ h => .pure h
  | reverse => exact .check fun _ => .bind (Maps.reverse_safe hm) fun _ _ => .pure trivial
  | toReversed => exact .check fun _ => .bind (Maps.toReversed_safe m) fun _ h => .pure h
  | invert => exact .check fun _ => .bind (Maps.invert_safe hm) fun _ _ => .pure trivial
  | toInverted => exact .check fun _ => .bind (Maps.toInverted_safe m) fun _ h => .pure h
  | toUnmodifiable => exact .check fun _ => .bind (.readOnly hm) fun _ h => .pure h

end MapMethod

namespace SetMethod

theorem call_safe {h : Handle} (hh : R.handle h) (method : SetMethod) (name : String)
    (args : List Value) : Safe R (call h method name args) R.admits := by
  unfold call
  refine .bind .current fun s _ => ?_
  cases method with
  | size => exact .check fun _ => .pure trivial
  | isEmpty => exact .check fun _ => .pure trivial
  | add => exact .check fun _ => .bind (Sets.add_safe hh _) fun _ _ => .pure trivial
  | remove => exact .check fun _ => .bind (Sets.remove_safe hh _) fun _ _ => .pure trivial
  | contains => exact .check fun _ => .pure trivial
  | containsAll => exact .check fun _ => .check fun _ => .pure trivial
  | clear => exact .check fun _ => .bind (Sets.clear_safe hh) fun _ _ => .pure trivial
  | toUnmodifiable => exact .check fun _ => .bind (.readOnly hh) fun _ h => .pure h

end SetMethod

namespace TextMethod

theorem call_safe (account : Nat) (receiver : String) (method : TextMethod) (name : String)
    (args : List Value) : Safe R (call account receiver method name args) R.admits := by
  unfold call
  cases method with
  | length => exact .check fun _ => .pure trivial
  | isEmpty => exact .check fun _ => .pure trivial
  | toUpperCase => exact .check fun _ => .pure trivial
  | toLowerCase => exact .check fun _ => .pure trivial
  | trim => exact .check fun _ => .pure trivial
  | contains => exact .check fun _ => .check fun _ => .pure trivial
  | startsWith => exact .check fun _ => .check fun _ => .pure trivial
  | endsWith => exact .check fun _ => .check fun _ => .pure trivial
  | split =>
    refine .check fun _ => .check fun separator => ?_
    refine .bind (Lists.create_safe account fun v hv => ?_) fun _ h => .pure h
    obtain ⟨piece, _, rfl⟩ := List.mem_map.mp hv
    trivial

end TextMethod

theorem Environment.callBuiltIn_safe (account : Nat) {receiver : Value} (hr : R.admits receiver)
    (name : String) {args : List Value} (ha : ∀ v ∈ args, R.admits v) :
    Safe R (callBuiltIn account receiver name args) R.admits := by
  have found {α : Type} (table : List (String × α)) (run : α → StoreM Value) (fault : Fault)
      (h : ∀ a, Safe R (run a) R.admits) :
      Safe R (((table.lookup name).map run).getD (throw fault)) R.admits := by
    cases table.lookup name with
    | none => exact .throw _ _
    | some a => exact h a
  unfold callBuiltIn
  cases receiver with
  | list l => exact found _ _ _ fun method => method.call_safe hr name ha
  | map m => exact found _ _ _ fun method => method.call_safe hr name ha
  | set h => exact found _ _ _ fun method => method.call_safe hr name args
  | str s => exact found _ _ _ fun method => method.call_safe account s name args
  | null | bool | int | float | native => exact .throw _ _

end MeteredScript
