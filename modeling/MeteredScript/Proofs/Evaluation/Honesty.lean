import MeteredScript.Proofs.Store.MapCalls

/-!
# Built-in methods tell what they change

A script reaches containers through built-in methods. Arguments are checked before a method begins,
so a call that fails has changed nothing, and no such failure is one of the liveness check.
-/

namespace MeteredScript

open StoreM (Sure Honest)
open Arguments

variable {loose : Nat → Prop} {s : Store} {fits : Prop}

/-- A call that fails only before its operation begins. -/
theorem StoreM.Honest.require {α : Type} {method : String} {expected : Nat} {args : List Value}
    {x : StoreM α} (hx : Honest fits loose s x) :
    Honest fits loose s (do Arguments.require method expected args; x) :=
  .check (require_ordinary args _ _) fun _ _ => hx

theorem StoreM.Honest.requireBetween {α : Type} {method : String} {low high : Nat}
    {args : List Value} {x : StoreM α} (hx : Honest fits loose s x) :
    Honest fits loose s (do Arguments.requireBetween method low high args; x) :=
  .check (requireBetween_ordinary args _ _ _) fun _ _ => hx

theorem StoreM.Honest.pure {α : Type} (a : α) : Honest fits loose s (pure a) := .of_sure (.pure a)

namespace ListMethod

/-- Methods that move the elements of a list in place. -/
def reorders : ListMethod → Bool
  | sort | reverse => true
  | _ => false

theorem call_honest {l : Handle} (method : ListMethod) (name : String) (args : List Value)
    (may : method.reorders = true → loose l.target) :
    Honest (s.Fits .list l) loose s (call l method name args) := by
  unfold call
  refine .read rfl ?_
  cases method with
  | size => exact .require (.pure _)
  | isEmpty => exact .require (.pure _)
  | get => exact .require (.check (int_ordinary args 0) fun i _ => Lists.get_honest l i)
  | set => exact .require (.check (int_ordinary args 0) fun i _ => Lists.set_honest i _)
  | push => exact .require ((Lists.push_honest _).map _)
  | add =>
    dsimp only
    split
    · exact .check (int_ordinary args 0) fun i _ => (Lists.insert_honest i _).map _
    · exact .require ((Lists.push_honest _).map _)
  | pop => exact .require Lists.pop_honest
  | shift => exact .require Lists.shift_honest
  | unshift => exact .require ((Lists.insert_honest 0 _).map _)
  | addAll =>
    dsimp only
    split
    · apply Honest.check (int_ordinary args 0)
      intro i _
      exact .check (elements_ordinary args s 1) fun values _ => (Lists.insertAll_honest i _).map _
    · exact .require (.check (elements_ordinary args s 0) fun values _ =>
        (Lists.addAll_honest values).map _)
  | removeAt => exact .require (.check (int_ordinary args 0) fun i _ => Lists.removeAt_honest i)
  | remove => exact .require ((Lists.removeValue_honest _).map _)
  | contains => exact .require (.pure _)
  | containsAll => exact .require (.check (elements_ordinary args s 0) fun _ _ => .pure _)
  | indexOf => exact .requireBetween (.check (intOr_ordinary args 1 0) fun _ _ => .pure _)
  | join =>
    apply Honest.requireBetween
    dsimp only
    split
    · exact .pure _
    · exact .check (text_ordinary args 0) fun _ _ => .pure _
  | slice =>
    apply Honest.requireBetween
    apply Honest.check (intOr_ordinary args 0 0)
    intro start _
    exact .check (intOr_ordinary args 1 _) fun stop _ => (Lists.slice_honest l start stop).map _
  | subList =>
    apply Honest.require
    apply Honest.check (int_ordinary args 0)
    intro start _
    exact .check (int_ordinary args 1) fun stop _ => (Lists.subList_honest l start stop).map _
  | concat =>
    exact .require (.check (appended_ordinary s args) fun values _ =>
      (Lists.concat_honest l values).map _)
  | sort =>
    exact .requireBetween (.check (ascending_ordinary args) fun up _ =>
      (Lists.sort_honest (may rfl) up).map _)
  | toSorted =>
    exact .requireBetween (.check (ascending_ordinary args) fun up _ =>
      (Lists.toSorted_honest l up).map _)
  | reverse => exact .require ((Lists.reverse_honest (may rfl)).map _)
  | toReversed => exact .require ((Lists.toReversed_honest l).map _)
  | splice =>
    dsimp only
    split
    · exact .throw rfl
    · apply Honest.check (int_ordinary args 0)
      intro start _
      exact .check (intOr_ordinary args 1 _) fun count _ =>
        (Lists.splice_honest start count _).map _
  | toSpliced =>
    dsimp only
    split
    · exact .throw rfl
    · apply Honest.check (int_ordinary args 0)
      intro start _
      exact .check (intOr_ordinary args 1 _) fun count _ =>
        (Lists.toSpliced_honest l start count _).map _
  | withElement =>
    exact .require (.check (int_ordinary args 0) fun i _ => (Lists.withElement_honest l i _).map _)
  | fill =>
    apply Honest.requireBetween
    apply Honest.check (intOr_ordinary args 1 0)
    intro start _
    exact .check (intOr_ordinary args 2 _) fun stop _ => (Lists.fill_honest _ start stop).map _
  | clear => exact .require (Lists.clear_honest.map _)
  | toUnmodifiable => exact .require ((Honest.of_sure (.readOnly l)).map _)

end ListMethod

namespace MapMethod

theorem call_honest {m : Handle} (method : MapMethod) (name : String) (args : List Value) :
    Honest (s.Fits .map m) loose s (call m method name args) := by
  unfold call
  refine .read rfl ?_
  cases method with
  | size => exact .require (.pure _)
  | isEmpty => exact .require (.pure _)
  | get => exact .require (.check (key_ordinary args 0) fun _ _ => .pure _)
  | containsKey => exact .require (.check (key_ordinary args 0) fun _ _ => .pure _)
  | containsValue => exact .require (.pure _)
  | put => exact .require (.check (key_ordinary args 0) fun k _ => Maps.put_honest k _)
  | putAll =>
    apply Honest.require
    split
    · exact (Maps.putAll_honest _).map _
    · exact .throw rfl
  | putIfAbsent =>
    exact .require (.check (key_ordinary args 0) fun k _ => Maps.putIfAbsent_honest k _)
  | replace =>
    dsimp only
    split
    · exact .check (key_ordinary args 0) fun k _ => (Maps.replaceIf_honest k _ _).map _
    · exact .require (.check (key_ordinary args 0) fun k _ => Maps.replace_honest k _)
  | remove => exact .require (.check (key_ordinary args 0) fun k _ => Maps.remove_honest k)
  | clear => exact .require (Maps.clear_honest.map _)
  | keys => exact .require ((Maps.keys_honest m).map _)
  | values => exact .require ((Maps.values_honest m).map _)
  | slice =>
    apply Honest.requireBetween
    apply Honest.check (intOr_ordinary args 0 0)
    intro start _
    exact .check (intOr_ordinary args 1 _) fun stop _ => (Maps.slice_honest m start stop).map _
  | duplicate => exact .require ((Maps.duplicate_honest m).map _)
  | sortByKey =>
    exact .requireBetween (.check (ascending_ordinary args) fun up _ =>
      (Maps.sortByKey_honest up).map _)
  | sortByValue =>
    exact .requireBetween (.check (ascending_ordinary args) fun up _ =>
      (Maps.sortByValue_honest up).map _)
  | toSortedByKey =>
    exact .requireBetween (.check (ascending_ordinary args) fun up _ =>
      (Maps.toSortedByKey_honest m up).map _)
  | toSortedByValue =>
    exact .requireBetween (.check (ascending_ordinary args) fun up _ =>
      (Maps.toSortedByValue_honest m up).map _)
  | reverse => exact .require (Maps.reverse_honest.map _)
  | toReversed => exact .require ((Maps.toReversed_honest m).map _)
  | invert => exact .require (Maps.invert_honest.map _)
  | toInverted => exact .require ((Maps.toInverted_honest m).map _)
  | toUnmodifiable => exact .require ((Honest.of_sure (.readOnly m)).map _)

end MapMethod

namespace SetMethod

theorem call_honest {h : Handle} (method : SetMethod) (name : String) (args : List Value) :
    Honest (s.Fits .set h) loose s (call h method name args) := by
  unfold call
  refine .read rfl ?_
  cases method with
  | size => exact .require (.pure _)
  | isEmpty => exact .require (.pure _)
  | add => exact .require ((Sets.add_honest _).map _)
  | remove => exact .require ((Sets.remove_honest _).map _)
  | contains => exact .require (.pure _)
  | containsAll => exact .require (.check (elements_ordinary args s 0) fun _ _ => .pure _)
  | clear => exact .require (Sets.clear_honest.map _)
  | toUnmodifiable => exact .require ((Honest.of_sure (.readOnly h)).map _)

end SetMethod

theorem TextMethod.call_honest (account : Nat) (receiver : String) (method : TextMethod)
    (name : String) (args : List Value) :
    Honest fits loose s (call account receiver method name args) := by
  unfold call
  cases method with
  | length | isEmpty | toUpperCase | toLowerCase | trim => exact .require (.pure _)
  | contains | startsWith | endsWith =>
    exact .require (.check (text_ordinary args 0) fun _ _ => .pure _)
  | split =>
    exact .require (.check (text_ordinary args 0) fun _ _ =>
      (Honest.of_sure (Lists.create_sure account _)).map _)

/-! ## Members -/

/-- A value is no handle, or a handle to a container of its kind. -/
def Store.Suits (s : Store) : Value → Prop
  | .list l => s.Fits .list l
  | .map m => s.Fits .map m
  | .set h => s.Fits .set h
  | _ => True

theorem Environment.callBuiltIn_honest (account : Nat) (receiver : Value) (name : String)
    (args : List Value)
    (may : ∀ l, receiver = .list l → name = "sort" ∨ name = "reverse" → loose l.target) :
    Honest (s.Suits receiver) loose s (callBuiltIn account receiver name args) := by
  unfold callBuiltIn
  cases receiver with
  | list l =>
    dsimp only
    cases hm : ListMethod.byName.lookup name with
    | none => exact .throw rfl
    | some method =>
      apply method.call_honest
      intro hr
      apply may l rfl
      have hin := mem_of_lookup_eq_some hm
      cases method <;> simp_all [ListMethod.reorders, ListMethod.byName]
  | map m =>
    dsimp only
    cases MapMethod.byName.lookup name with
    | none => exact .throw rfl
    | some method => exact method.call_honest name args
  | set h =>
    dsimp only
    cases SetMethod.byName.lookup name with
    | none => exact .throw rfl
    | some method => exact method.call_honest name args
  | str text =>
    dsimp only
    cases TextMethod.byName.lookup name with
    | none => exact .throw rfl
    | some method => exact method.call_honest account text name args
  | null | bool | int | float | native => exact .throw rfl

end MeteredScript
