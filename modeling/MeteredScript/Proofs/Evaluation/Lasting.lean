import MeteredScript.Proofs.Evaluation.Programs
import MeteredScript.Proofs.Store.Canonical

/-!
# Properties that last through evaluations

All that an evaluation does to containers is done by operations on them, and whatever key it adds is
made of a value or of a text. So what such operations preserve is preserved by evaluations.
-/

namespace MeteredScript

/-! ## Built-in methods -/

section Methods

variable {I : Store → Prop}
  (hI : ∀ {α : Type} {x : StoreM α}, KeyedOperation x → PreservesOnly I x)

include hI

/-- A method that answers with what an operation does. -/
theorem KeyedOperation.answers {α β : Type} {x : StoreM α} (h : KeyedOperation x) (answer : α → β) :
    PreservesOnly I (do return answer (← x)) :=
  .next (hI h) fun _ => .pure trivial

theorem ListMethod.call_preserves (l : Handle) (method : ListMethod) (name : String)
    (args : List Value) : PreservesOnly I (call l method name args) := by
  have does {α : Type} {x : StoreM α} (h : ListCall l x) : PreservesOnly I x := hI (.list h)
  have answers {α : Type} {x : StoreM α} (h : ListCall l x) (answer : α → Value) :
      PreservesOnly I (do return answer (← x)) := KeyedOperation.answers hI (.list h) answer
  unfold call
  refine .next (.look fun s _ => ⟨s, rfl, trivial⟩) fun s => ?_
  cases method with
  | size | isEmpty | contains => exact .check fun _ => .pure trivial
  | containsAll | indexOf => exact .check fun _ => .check fun _ => .pure trivial
  | get => exact .check fun _ => .check fun i => does (.get i)
  | set => exact .check fun _ => .check fun i => does (.set i _)
  | push => exact .check fun _ => answers (.push _) _
  | add =>
    dsimp only
    split
    · exact .check fun i => answers (.insert i _) _
    · exact .check fun _ => answers (.push _) _
  | pop => exact .check fun _ => does .pop
  | shift => exact .check fun _ => does .shift
  | unshift => exact .check fun _ => answers (.unshift _) _
  | addAll =>
    dsimp only
    split
    · exact .check fun i => .check fun values => answers (.insertAll i values) _
    · exact .check fun _ => .check fun values => answers (.addAll values) _
  | removeAt => exact .check fun _ => .check fun i => does (.removeAt i)
  | remove => exact .check fun _ => answers (.removeValue _) _
  | join =>
    refine .check fun _ => ?_
    dsimp only
    split
    · exact .pure trivial
    · exact .check fun _ => .pure trivial
  | slice => exact .check fun _ => .check fun a => .check fun b => answers (.slice a b) _
  | subList => exact .check fun _ => .check fun a => .check fun b => answers (.subList a b) _
  | concat => exact .check fun _ => .check fun values => answers (.concat values) _
  | sort =>
    exact .check fun _ => .check fun b => KeyedOperation.answers hI (.reorder (.sort b)) _
  | toSorted => exact .check fun _ => .check fun b => answers (.toSorted b) _
  | reverse => exact .check fun _ => KeyedOperation.answers hI (.reorder .reverse) _
  | toReversed => exact .check fun _ => answers .toReversed _
  | splice =>
    dsimp only
    split
    · exact .throw _ _
    · exact .check fun a => .check fun b => answers (.splice a b _) _
  | toSpliced =>
    dsimp only
    split
    · exact .throw _ _
    · exact .check fun a => .check fun b => answers (.toSpliced a b _) _
  | withElement => exact .check fun _ => .check fun i => answers (.withElement i _) _
  | fill => exact .check fun _ => .check fun a => .check fun b => answers (.fill _ a b) _
  | clear => exact .check fun _ => answers .clear _
  | toUnmodifiable => exact .check fun _ => KeyedOperation.answers hI (.readOnly l) _

theorem MapMethod.call_preserves (made : ∀ s, I s → ∀ m, ∀ p ∈ s.entries m, p.1.Made) (m : Handle)
    (method : MapMethod) (name : String) (args : List Value) :
    PreservesOnly I (call m method name args) := by
  have does {α : Type} {x : StoreM α} (h : KeyedCall m x) : PreservesOnly I x := hI (.map h)
  have answers {α : Type} {x : StoreM α} (h : KeyedCall m x) (answer : α → Value) :
      PreservesOnly I (do return answer (← x)) := KeyedOperation.answers hI (.map h) answer
  -- A key that is given as an argument is made of it.
  have withKey {α : Type} (i : Nat) {f : Key → StoreM α}
      (hf : ∀ k : Key, k.Made → PreservesOnly I (f k)) :
      PreservesOnly I (do f (← liftM (Arguments.key args i))) :=
    .bind (.lift fun k hk => Key.Made.value hk) hf
  unfold call
  refine .bind .get fun s hs => ?_
  cases method with
  | size | isEmpty | containsValue => exact .check fun _ => .pure trivial
  | get | containsKey => exact .check fun _ => .check fun _ => .pure trivial
  | put => exact .check fun _ => withKey 0 fun k hk => does (.put hk _)
  | putAll =>
    refine .check fun _ => ?_
    split
    · next other _ => exact answers (.putAll (made s hs other)) _
    · exact .throw _ _
  | putIfAbsent => exact .check fun _ => withKey 0 fun k hk => does (.putIfAbsent hk _)
  | replace =>
    dsimp only
    split
    · exact withKey 0 fun k hk => answers (.replaceIf hk _ _) _
    · exact .check fun _ => withKey 0 fun k hk => does (.replace hk _)
  | remove => exact .check fun _ => withKey 0 fun k hk => does (.remove hk)
  | clear => exact .check fun _ => answers .clear _
  | keys => exact .check fun _ => answers .keys _
  | values => exact .check fun _ => answers .values _
  | slice => exact .check fun _ => .check fun a => .check fun b => answers (.slice a b) _
  | duplicate => exact .check fun _ => answers .duplicate _
  | sortByKey => exact .check fun _ => .check fun b => answers (.sortByKey b) _
  | sortByValue => exact .check fun _ => .check fun b => answers (.sortByValue b) _
  | toSortedByKey => exact .check fun _ => .check fun b => answers (.toSortedByKey b) _
  | toSortedByValue => exact .check fun _ => .check fun b => answers (.toSortedByValue b) _
  | reverse => exact .check fun _ => answers .reverse _
  | toReversed => exact .check fun _ => answers .toReversed _
  | invert => exact .check fun _ => answers .invert _
  | toInverted => exact .check fun _ => answers .toInverted _
  | toUnmodifiable => exact .check fun _ => KeyedOperation.answers hI (.readOnly m) _

theorem SetMethod.call_preserves (h : Handle) (method : SetMethod) (name : String)
    (args : List Value) : PreservesOnly I (call h method name args) := by
  have answers {α : Type} {x : StoreM α} (hc : SetCall h x) (answer : α → Value) :
      PreservesOnly I (do return answer (← x)) := KeyedOperation.answers hI (.set hc) answer
  unfold call
  refine .next (.look fun s _ => ⟨s, rfl, trivial⟩) fun s => ?_
  cases method with
  | size | isEmpty | contains => exact .check fun _ => .pure trivial
  | containsAll => exact .check fun _ => .check fun _ => .pure trivial
  | add => exact .check fun _ => answers (.add _) _
  | remove => exact .check fun _ => answers (.remove _) _
  | clear => exact .check fun _ => answers .clear _
  | toUnmodifiable => exact .check fun _ => KeyedOperation.answers hI (.readOnly h) _

theorem TextMethod.call_preserves (account : Nat) (receiver : String) (method : TextMethod)
    (name : String) (args : List Value) :
    PreservesOnly I (call account receiver method name args) := by
  unfold call
  cases method with
  | length | isEmpty | toUpperCase | toLowerCase | trim => exact .check fun _ => .pure trivial
  | contains | startsWith | endsWith => exact .check fun _ => .check fun _ => .pure trivial
  | split =>
    exact .check fun _ => .check fun _ => KeyedOperation.answers hI (.newList account _) _

theorem Environment.callBuiltIn_preserves (made : ∀ s, I s → ∀ m, ∀ p ∈ s.entries m, p.1.Made)
    (account : Nat) (receiver : Value) (name : String) (args : List Value) :
    PreservesOnly I (callBuiltIn account receiver name args) := by
  have found {α : Type} (table : List (String × α)) (run : α → StoreM Value) (fault : Fault)
      (h : ∀ a, PreservesOnly I (run a)) :
      PreservesOnly I (((table.lookup name).map run).getD (throw fault)) := by
    cases table.lookup name with
    | none => exact .throw _ _
    | some a => exact h a
  unfold callBuiltIn
  cases receiver with
  | list l => exact found _ _ _ fun method => method.call_preserves hI l name args
  | map m => exact found _ _ _ fun method => method.call_preserves hI made m name args
  | set h => exact found _ _ _ fun method => method.call_preserves hI h name args
  | str s => exact found _ _ _ fun method => method.call_preserves hI account s name args
  | null | bool | int | float | native => exact .throw _ _

end Methods

/-! ## Evaluations -/

/-- A property of machines that evaluations cannot end: the keys of maps are made ones, and neither
operations that are given made keys nor what leaves the containers as they are lead out of it. -/
structure Environment.Lasts (e : Environment) (I : Machine → Prop) : Prop where
  made : ∀ m, I m → ∀ h, ∀ p ∈ m.store.entries h, p.1.Made
  operate : ∀ {α : Type} {x : StoreM α}, KeyedOperation x → PreservesOnly I (Act.onStore x)
  rest : ∀ {m m' : Machine}, m'.store = m.store → I m → I m'
  natives : ∀ n ∈ e.configuration.natives, ∀ f ∈ n.methods, ∀ args, PreservesOnly I (f.2 args)

namespace Environment.Lasts

variable {e : Environment} {I : Machine → Prop} (h : e.Lasts I)

include h

/-- Whatever does not touch the containers. -/
theorem leave {ε α : Type} {x : ExceptT ε (StateM Machine) α}
    (hx : ∀ m, (x.run m).2.store = m.store) : PreservesOnly I x :=
  .change (f := fun m => (x.run m).2) (fun _ => rfl) fun m => h.rest (hx m)

theorem call (receiver : Value) (method : Name) (args : List Value) :
    PreservesOnly I (e.call receiver method args) := by
  refine call_cases (P := PreservesOnly I) (fun f => .throw _ _) (fun t => ?_) ?_
  · refine callNative_cases (P := PreservesOnly I) (.throw _ _) fun n hn f hf => ?_
    exact h.natives n hn f hf args
  · refine .bind .get fun _ _ => .onStore fun m hm => ?_
    refine callBuiltIn_preserves (fun hx => (Preserves.of_onStore (h.operate hx) m)) ?_ _ _ _ _
    exact fun s hs => h.made _ hs

/-! ### Scopes -/

theorem set (source : HostSource) (key : String) (v : Value) :
    PreservesOnly I (source.set key v) := by
  unfold HostSource.set
  cases source with
  | map m =>
    have hinsert : KeyedOperation (Maps.insert m (.str key) v) := .map (.insert (.str key) v)
    exact .onStore fun m _ => .next (.of_onStore (h.operate hinsert) m) fun _ => .pure trivial
  | table i => exact h.leave fun _ => rfl

theorem write (cell : Cell) (v : Value) : PreservesOnly I (cell.write v) := by
  cases cell with
  | own i => exact .bind .get fun m _ => .check fun _ => h.leave fun _ => rfl
  | hosted source key => exact h.set source key v

theorem bindNew (v : Value) (type : Option ValueType) (base : Nat)
    (update : Nat → FrameKind → FrameKind) :
    PreservesOnly I (do
      let i ← Scope.newVariable v type
      Scope.updateKind base (update i)
      return Cell.own i : Act Cell) := by
  refine .next ?_ fun i => .next (h.leave fun _ => rfl) fun _ => .pure trivial
  exact .check fun _ => h.leave fun _ => rfl

theorem declare (names : Interner) (f : Nat) (x : Name) (v : Value) (type : Option ValueType) :
    PreservesOnly I (Scope.declare names f x v type) := by
  unfold Scope.declare
  refine .bind .get fun m _ => .bind .get fun m' _ => ?_
  dsimp only
  split
  · exact .next (h.set _ _ v) fun _ => .pure trivial
  · exact h.bindNew v type _ _

theorem declareAt (names : Interner) (f slot : Nat) (x : Name) (v : Value)
    (type : Option ValueType) : PreservesOnly I (Scope.declareAt names f slot x v type) := by
  unfold Scope.declareAt
  refine .bind .get fun m _ => .bind .get fun m' _ => ?_
  dsimp only
  split
  · split
    · exact .throw _ _
    · exact h.bindNew v type _ _
  · exact h.declare names f x v type

theorem resolve (names : Interner) (f : Nat) (x : Name) :
    PreservesOnly I (Scope.resolve names f x) :=
  h.leave fun m => by rw [Scope.resolve_run]

theorem assign (names : Interner) (f : Nat) (x : Name) (v : Value) :
    PreservesOnly I (Scope.assign names f x v) := by
  unfold Scope.assign
  refine .bind .get fun m _ => ?_
  split
  · exact .next (h.resolve names f x) fun cell => h.write cell v
  · exact .next (h.declare names f x v none) fun _ => .pure trivial

end Environment.Lasts

namespace Job

variable {j : Job} {I : Machine → Prop} (h : j.environment.Lasts I)

theorem evalPairs_preserves {ev : Evaluator} {frame : Nat}
    (hev : ∀ id, PreservesOnly I (ev id frame)) (ids : List NodeId) :
    Preserves I (evalPairs ev frame ids) fun pairs => ∀ p ∈ pairs, p.1.Made := by
  induction ids using evalPairs.induct with
  | case1 => exact .pure fun _ hp => absurd hp List.not_mem_nil
  | case2 k =>
    refine .next (hev k) fun v => .bind (.pureAct fun key hk => Key.Made.value hk) fun key hk => ?_
    exact .pure (List.forall_mem_singleton.mpr hk)
  | case3 k v rest ih =>
    refine .next (hev k) fun v => .next (hev _) fun value => ?_
    refine .bind (.pureAct fun key hk => Key.Made.value hk) fun key hk => ih.bind fun pairs hp => ?_
    exact .pure (List.forall_mem_cons.mpr ⟨hk, hp⟩)

include h

theorem evalNode_preserves {ev : Evaluator} (hev : ∀ id frame, PreservesOnly I (ev id frame))
    (fuel frame : Nat) (kind : NodeKind) : PreservesOnly I (j.evalNode ev fuel frame kind) := by
  have hact {α : Type} {x : Act α} (hx : PreservesOnly I x) : PreservesOnly I (Run.act x) := .act hx
  have hleave {α : Type} {x : Act α} (hx : ∀ m, (x.run m).2.store = m.store) :
      PreservesOnly I (Run.act x) := .act (h.leave hx)
  have hpure {α : Type} (x : Except Fault α) : PreservesOnly I (Run.pureAct x) :=
    .pureAct fun _ _ => trivial
  have hlive : PreservesOnly I (Run.act Act.checkLiveness) := hleave fun _ => rfl
  have henter (f : Nat) : PreservesOnly I (Run.act (Scope.enter f)) := hleave fun _ => rfl
  have htest (test : NodeId) : PreservesOnly I (evalTest ev test frame) :=
    .next (hev test frame) fun v => hpure _
  have hchain (head : Option NodeId) (inner : Nat) : PreservesOnly I (j.evalChain ev head inner) :=
    .foldlM (fun id _ _ => hev id inner) _
  have hblock (head : Option NodeId) : PreservesOnly I (j.evalBlock ev head frame) := by
    cases head with
    | none => exact .pure trivial
    | some id => exact .next (henter frame) fun inner => hchain (some id) inner
  have hall (range : NodeRange) : PreservesOnly I (evalAll ev (j.arena.operands range) frame) :=
    (Preserves.mapM fun id _ => hev id frame).weaken fun _ _ => trivial
  have hmake {x : Nat → StoreM Handle} (hx : ∀ account, KeyedOperation (x account))
      (answer : Handle → Value) : PreservesOnly I (do
        let account := (← get).context.account
        return answer (← Run.act (Act.onStore (x account))) : Run Value) :=
    .bind .get fun _ _ => .next (hact (h.operate (hx _))) fun _ => .pure trivial
  cases kind with
  | literal value declared =>
    cases declared with
    | none => exact .pure trivial
    | some t =>
      unfold evalNode
      dsimp only
      split
      · exact .pure trivial
      · exact .throw _ _
  | this => exact .pure trivial
  | var name =>
    exact .next (hact (h.resolve _ frame name)) fun _ => .bind .get fun _ _ => .pure trivial
  | declare name type init =>
    refine .next (hev init frame) fun v => ?_
    exact .next (hact (h.declare _ frame name v type)) fun _ => .pure trivial
  | declareAt slot name type init =>
    refine .next (hev init frame) fun v => ?_
    exact .next (hact (h.declareAt _ frame slot name v type)) fun _ => .pure trivial
  | assign name value =>
    refine .next (hev value frame) fun v => ?_
    exact .next (hact (h.assign _ frame name v)) fun _ => .pure trivial
  | binary op left right =>
    cases op with
    | and =>
      refine .next (htest left) fun b => ?_
      cases b with
      | true => exact .next (htest right) fun _ => .pure trivial
      | false => exact .pure trivial
    | or =>
      refine .next (htest left) fun b => ?_
      cases b with
      | true => exact .pure trivial
      | false => exact .next (htest right) fun _ => .pure trivial
    | _ =>
      refine .next (hev left frame) fun l => .next (hev right frame) fun r => ?_
      exact .bind .get fun _ _ => hpure _
  | not operand => exact .next (htest operand) fun _ => .pure trivial
  | cond test onTrue onFalse => exact .next (htest test) fun _ => hblock _
  | block body => exact hblock body
  | doWhile body test =>
    refine .next (henter frame) fun inner => .repeatWhile (.next hlive fun _ => ?_) fuel
    refine .next (.body (hchain body inner)) fun more => ?_
    cases more with
    | true => exact htest test
    | false => exact .pure trivial
  | whileDo test body =>
    refine .next (henter frame) fun inner => .repeatWhile (.next hlive fun _ => ?_) fuel
    refine .next (htest test) fun more => ?_
    cases more with
    | true => exact .body (hchain body inner)
    | false => exact .pure trivial
  | forEach item iterable body =>
    refine .next (hev iterable frame) fun v => .bind .get fun _ _ => .next (hpure _) fun items => ?_
    refine .next (henter frame) fun inner => .forItems fun w => .next hlive fun _ => ?_
    exact .next (hact (h.declare _ inner item w none)) fun _ => .body (hchain body inner)
  | ret value => exact .next (hev value frame) fun _ => .throw _ _
  | brk => exact .throw _ _
  | listLit range =>
    exact .next (hall range) fun values => hmake (fun account => .newList account values) .list
  | mapLit range =>
    refine .bind (evalPairs_preserves (hev · frame) _) fun pairs hp => ?_
    exact hmake (fun account => .newMap account hp) .map
  | setLit range =>
    exact .next (hall range) fun values => hmake (fun account => .newSet account values) .set
  | typeRef name => exact hpure _
  | call receiver method args =>
    refine .next (hev receiver frame) fun v => .next (hall args) fun values => ?_
    exact hact (h.call v method values)

theorem eval_preserves (fuel : Nat) : ∀ id frame, PreservesOnly I (j.eval fuel id frame) := by
  induction fuel with
  | zero => exact fun _ _ => .throw _ _
  | succ fuel ih =>
    intro id frame
    unfold eval
    split
    · exact evalNode_preserves h ih fuel frame _
    · exact .throw _ _

end Job

/-- A program that is replayed does nothing, and the signals that it raises are none of the
containers. -/
theorem Program.evaluate_preserves (p : Program) {e : Environment} {I : Machine → Prop}
    (h : e.Lasts I) (fuel : Nat) (this : Value) (frame : Nat) :
    PreservesOnly I (p.evaluate e fuel this frame) := by
  have hexecute : PreservesOnly I (p.execute e fuel this frame) := by
    unfold execute
    split
    · exact .pure trivial
    · exact .throw _ _
    · refine Preserves.foldlM (fun id _ _ => ?_) _
      exact Job.eval_preserves (j := p.job e this) h fuel id frame
  intro m hm
  refine ⟨h.rest (deliver_signals frame _ m).store ?_, fun _ _ => trivial⟩
  exact (hexecute m hm).1

end MeteredScript
