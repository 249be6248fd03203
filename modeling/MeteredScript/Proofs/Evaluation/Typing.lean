import MeteredScript.Proofs.Evaluation.Hosted
import MeteredScript.Proofs.Evaluation.Nodes
import MeteredScript.Proofs.Program.Inference

/-!
# Values of inferred types

Where declared types are checked, the value of a node has the type that was inferred for the node.
What a return leaves behind is no value of the nodes around it, and only has the type of the return
itself.
-/

namespace MeteredScript

open Relation (ReflTransGen)

/-! ## Frames with variables of their own -/

namespace Setting

/-- Everything may be held, and the frames of a host are those of the machine at the start. -/
def sameHosts (m₀ : Machine) : Setting where
  toRealm := .everything
  frame _ := True
  effect := Machine.KeepsHosted
  law := m₀.KeepsHosted

instance (m₀ : Machine) : (sameHosts m₀).Lawful :=
  ⟨fun hstep hm => hm.law.trans (hstep.keepsHosted fun _ h => h)⟩

end Setting

theorem Machine.sameHosts_held (m : Machine) : m.Held (.sameHosts m) :=
  .of_everything rfl (fun _ => trivial) (.refl m)

/-- Native functions, which are given no frame, make none one of a host and let none cease to be
one. -/
def Environment.KeepsHosted (e : Environment) : Prop :=
  ∀ n ∈ e.configuration.natives, ∀ f ∈ n.methods, ∀ (args : List Value) (m : Machine),
    m.KeepsHosted ((f.2 args).run m).2

theorem Job.suits_sameHosts {j : Job} (h : j.environment.KeepsHosted) (m₀ : Machine) :
    j.Suits (.sameHosts m₀) j.environment.configuration :=
  j.suits_of_everything rfl (fun _ => trivial) fun n hn f hf args m hm =>
    ⟨h n hn f hf args m, hm.trans (h n hn f hf args m)⟩

namespace Scope

variable {m₀ : Machine} {f : Nat}

/-- A frame that is entered has not been there at the start. -/
theorem enter_own (f : Nat) :
    Act.Keeps (.sameHosts m₀) (enter f) fun inner => ¬ m₀.Hosted inner := by
  intro m hm
  exact .ends rfl (.single (.enter f trivial)) (Machine.not_hosted_of_size_le hm.law.size)

theorem declare_own (hf : ¬ m₀.Hosted f) (names : Interner) (name : Name) (v : Value)
    (type : Option ValueType) :
    Act.Keeps (.sameHosts m₀) (declare names f name v type) fun _ => checkType type v = .ok () := by
  intro m hm
  obtain ⟨hsame, hsteps, -, hexit⟩ :=
    declare_keeps (S := .sameHosts m₀) (Realm.everything_admits v) trivial names name type m hm
  exact ⟨hsame, hsteps, fun _ => checkType_of_declare (mt (hm.law.hosted f).mp hf), hexit⟩

theorem declareAt_own (hf : ¬ m₀.Hosted f) (names : Interner) (slot : Nat) (name : Name)
    (v : Value) (type : Option ValueType) :
    Act.Keeps (.sameHosts m₀) (declareAt names f slot name v type)
      fun _ => checkType type v = .ok () := by
  intro m hm
  obtain ⟨hsame, hsteps, -, hexit⟩ :=
    declareAt_keeps (S := .sameHosts m₀) (Realm.everything_admits v) trivial names slot name type m
      hm
  exact ⟨hsame, hsteps, fun _ => checkType_of_declareAt (mt (hm.law.hosted f).mp hf), hexit⟩

end Scope

/-! ## Types of values -/

theorem checkType_ok_iff {t : ValueType} {v : Value} :
    checkType (some t) v = .ok () ↔ t.accepts v.type = true := by
  unfold checkType
  by_cases h : t.accepts v.type = true <;> simp [h]

theorem accepts_of_checkType {type : Option ValueType} {v : Value} {t : ValueType}
    (h : checkType type v = .ok ()) (ht : t.accepts v.type = true) :
    (type.getD t).accepts v.type = true := by
  cases type with
  | none => exact ht
  | some t => exact checkType_ok_iff.mp h

theorem Environment.resolveType_type {e : Environment} {name : Name} {v : Value}
    (h : e.resolveType name = .ok v) : v.type = .native := by
  unfold resolveType at h
  split at h
  · cases h
  · split at h
    · exact Except.ok.inj h ▸ rfl
    · cases h

/-- A value that was returned is of the type of a return that evaluating the node can come to. -/
def Exit.ReturnedFrom (a : Arena) (id : NodeId) : Exit → Prop
  | .returned v => ∃ (r w : NodeId), ReflTransGen a.Needs id r ∧ a.kind? r = some (.ret w) ∧
      (a.egress r).accepts v.type = true
  | .fault _ | .broke | .exhausted => True

instance (a : Arena) (id : NodeId) : Exit.Lenient (Exit.ReturnedFrom a id) :=
  ⟨fun _ => trivial, trivial, trivial⟩

theorem Exit.ReturnedFrom.of_needs {a : Arena} {id m : NodeId} (h : a.Needs id m) {e : Exit}
    (he : e.ReturnedFrom a m) : e.ReturnedFrom a id := by
  cases e with
  | returned v =>
    obtain ⟨r, w, hpath, hr, hv⟩ := he
    exact ⟨r, w, .head h hpath, hr, hv⟩
  | fault | broke | exhausted => trivial

namespace Job

variable {j : Job} {m₀ : Machine} {E : Exit → Prop} [Exit.Lenient E] {ev : Evaluator}

theorem literal_type (j : Job) (value : Literal) : (j.literal value).type = value.type := by
  cases value <;> rfl

/-- If the nodes that a node needs have values of their types, it has a value of the type that is
inferred for it. -/
theorem evalNode_typed (hj : j.Suits (.sameHosts m₀) j.environment.configuration) {kind : NodeKind}
    (hev : ∀ m, kind.Needs j.arena m → ∀ frame, ¬ m₀.Hosted frame →
      Tracks (.sameHosts m₀) E (ev m frame) (ev m frame)
        fun v => (j.arena.egress m).accepts v.type = true)
    (hret : ∀ (w : NodeId) (v : Value), kind = .ret w → (j.arena.egress w).accepts v.type = true →
      E (.returned v))
    (fuel : Nat) {frame : Nat} (hf : ¬ m₀.Hosted frame) :
    Tracks (.sameHosts m₀) E (j.evalNode ev fuel frame kind) (j.evalNode ev fuel frame kind)
      fun v => (j.arena.infer kind).accepts v.type = true := by
  have hany (v : Value) : (Setting.sameHosts m₀).admits v := Realm.everything_admits v
  -- Of the values of most operands, nothing needs to be known.
  have hrun {m : NodeId} (hm : kind.Needs j.arena m) {inner : Nat} (hi : ¬ m₀.Hosted inner) :
      Tracks (.sameHosts m₀) E (ev m inner) (ev m inner) fun _ => True :=
    (hev m hm inner hi).weaken (fun _ _ => trivial) fun _ h => h
  have hchain {head : Option NodeId} (hh : head.toList ⊆ kind.heads) {inner : Nat}
      (hi : ¬ m₀.Hosted inner) :
      Tracks (.sameHosts m₀) E (j.evalChain ev head inner) (j.evalChain ev head inner)
        fun _ => True :=
    evalChain_tracks trivial fun id hid => hrun (.of_chain hh hid) hi
  have hblock {head : Option NodeId} (hh : head.toList ⊆ kind.heads) :
      Tracks (.sameHosts m₀) E (j.evalBlock ev head frame) (j.evalBlock ev head frame)
        fun _ => True :=
    evalBlock_tracks trivial (Scope.enter_own frame) fun inner hi id hid =>
      hrun (.of_chain hh hid) hi
  have htest {test : NodeId} (hm : kind.Needs j.arena test) :
      Tracks (.sameHosts m₀) E (evalTest ev test frame) (evalTest ev test frame) fun _ => True :=
    evalTest_tracks (hrun hm hf)
  have hall {r : NodeRange} (hr : kind.range? = some r) :
      Tracks (.sameHosts m₀) E (evalAll ev (j.arena.operands r) frame)
        (evalAll ev (j.arena.operands r) frame) (∀ v ∈ ·, (Setting.sameHosts m₀).admits v) :=
    (evalAll_tracks fun id hid => hrun (.element hr hid) hf).weaken (fun _ _ v _ => hany v)
      fun _ h => h
  cases kind with
  | literal value declared =>
    cases declared with
    | none => exact .pure (literal_type j value ▸ ValueType.accepts_self _)
    | some t =>
      unfold evalNode
      dsimp only
      split
      · next ht => exact .pure (literal_type j value ▸ ht)
      · exact .throw (Exit.Lenient.fault _) _
  | this => exact .pure rfl
  | var name =>
    exact (var_tracks (S := .sameHosts m₀) trivial name).weaken (fun _ _ => rfl) fun _ h => h
  | declare name type init =>
    refine .bind (hev init (.operand List.mem_cons_self) frame hf) fun v hv => ?_
    exact .bind (.act (Scope.declare_own hf _ name v type)) fun _ ht =>
      .pure (accepts_of_checkType ht hv)
  | declareAt slot name type init =>
    refine .bind (hev init (.operand List.mem_cons_self) frame hf) fun v hv => ?_
    exact .bind (.act (Scope.declareAt_own hf _ slot name v type)) fun _ ht =>
      .pure (accepts_of_checkType ht hv)
  | assign name value =>
    refine .bind (hev value (.operand List.mem_cons_self) frame hf) fun v hv => ?_
    exact .bind (.act (Scope.assign_keeps (hany v) trivial _ name)) fun _ _ => .pure hv
  | binary op left right =>
    have hleft : NodeKind.Needs j.arena (.binary op left right) left :=
      .operand List.mem_cons_self
    have hright : NodeKind.Needs j.arena (.binary op left right) right :=
      .operand (List.mem_cons_of_mem _ List.mem_cons_self)
    cases op with
    | and =>
      refine .bind (htest hleft) fun b _ => ?_
      cases b with
      | true => exact .bind (htest hright) fun _ _ => .pure rfl
      | false => exact .pure rfl
    | or =>
      refine .bind (htest hleft) fun b _ => ?_
      cases b with
      | true => exact .pure rfl
      | false => exact .bind (htest hright) fun _ _ => .pure rfl
    | _ =>
      refine .bind (hev left hleft frame hf) fun l hl => ?_
      refine .bind (hev right hright frame hf) fun r hr => .bind .get fun m _ => ?_
      exact .pureAct fun v hv => Operators.evaluate_accepts hv hl hr
  | not operand => exact .bind (htest (.operand List.mem_cons_self)) fun _ _ => .pure rfl
  | cond test onTrue onFalse =>
    refine .bind (htest (.operand List.mem_cons_self)) fun taken _ => ?_
    cases taken with
    | true => exact (hblock (List.subset_append_left _ _)).weaken (fun _ _ => rfl) fun _ h => h
    | false => exact (hblock (List.subset_append_right _ _)).weaken (fun _ _ => rfl) fun _ h => h
  | block body => exact (hblock (List.Subset.refl _)).weaken (fun _ _ => rfl) fun _ h => h
  | doWhile body test =>
    have hbody {inner : Nat} (hi : ¬ m₀.Hosted inner) := hchain (List.Subset.refl body.toList) hi
    refine .bind (.act (Scope.enter_own frame)) fun inner hi => .repeatWhile (by rfl) ?_ fuel
    refine checked_tracks (.bind (.body (hbody hi)) fun more _ => ?_)
    cases more with
    | true => exact htest (.operand List.mem_cons_self)
    | false => exact .pure trivial
  | whileDo test body =>
    refine .bind (.act (Scope.enter_own frame)) fun inner hi => .repeatWhile (by rfl) ?_ fuel
    refine checked_tracks (.bind (htest (.operand List.mem_cons_self)) fun more _ => ?_)
    cases more with
    | true => exact .body (hchain (List.Subset.refl body.toList) hi)
    | false => exact .pure trivial
  | forEach item iterable body =>
    refine .bind (hrun (.operand List.mem_cons_self) hf) fun v _ => .bind .get fun m _ => ?_
    refine .bind (.pureAct fun _ _ => trivial) fun items (_ : True) => ?_
    refine .bind (.act (Scope.enter_own frame)) fun inner hi => .forItems (by rfl) fun w _ => ?_
    have hdeclare := Scope.declare_own hi j.names item w none
    refine checked_tracks (.bind (.act hdeclare) fun _ _ => ?_)
    exact .body (hchain (List.Subset.refl body.toList) hi)
  | ret value =>
    refine .bind (hev value (.operand List.mem_cons_self) frame hf) fun v hv => ?_
    exact .throw (hret value v rfl hv) _
  | brk => exact .throw Exit.Lenient.broke _
  | listLit range =>
    refine .bind (hall rfl) fun values hv => .bind .get fun m _ => ?_
    exact .bind (.act (.onStore (Lists.create_safe _ hv))) fun h _ => .pure rfl
  | mapLit range =>
    refine .bind (evalPairs_tracks trivial fun id hid => hrun (.element rfl hid) hf)
      fun pairs _ => .bind .get fun m _ => ?_
    exact .bind (.act (.onStore (Maps.create_safe _ fun p _ => hany p.2))) fun h _ => .pure rfl
  | setLit range =>
    refine .bind (hall rfl) fun values _ => .bind .get fun m _ => ?_
    exact .bind (.act (.onStore (Sets.create_safe _ values))) fun h _ => .pure rfl
  | typeRef name =>
    exact .pureAct fun v hv => by rw [Environment.resolveType_type hv]; rfl
  | call receiver method args =>
    refine .bind (hrun (.operand List.mem_cons_self) hf) fun v _ => ?_
    refine .bind (hall rfl) fun values hv => ?_
    exact (Tracks.act (call_tracks hj (hany v) method hv)).weaken (fun _ _ => rfl) fun _ h => h

/-- A node has a value of its type, and what a return in it leaves behind is of the type of that
return. -/
theorem eval_typed (hi : j.arena.Inferred) (hn : j.environment.KeepsHosted) (m₀ : Machine)
    (fuel : Nat) :
    ∀ (id : NodeId) (frame : Nat), ¬ m₀.Hosted frame →
      Tracks (.sameHosts m₀) (Exit.ReturnedFrom j.arena id) (j.eval fuel id frame)
        (j.eval fuel id frame) fun v => (j.arena.egress id).accepts v.type = true := by
  induction fuel with
  | zero => exact fun _ _ _ => .throw trivial _
  | succ fuel ih =>
    intro id frame hf
    unfold eval
    cases hk : j.arena.kind? id with
    | none => exact .throw trivial _
    | some kind =>
      dsimp only
      rw [hi.egress hk]
      refine evalNode_typed (suits_sameHosts hn m₀) (fun m hm inner hinner => ?_)
        (fun w v hret hv => ?_) fuel hf
      · exact (ih m inner hinner).weaken (fun _ h => h) fun _ he => he.of_needs ⟨kind, hk, hm⟩
      · subst hret
        exact ⟨id, w, .refl, hk, hi.egress hk ▸ hv⟩

/-- In any frame, the same frames are frames of a host afterwards. -/
theorem eval_keepsHosted (hn : j.environment.KeepsHosted) (fuel : Nat) (id : NodeId) (frame : Nat)
    (m : Machine) : m.KeepsHosted ((j.eval fuel id frame).run m).2 := by
  obtain ⟨-, hsteps, -, -⟩ := evalWatched_tracks (fun _ _ _ _ _ _ => trivial)
    (suits_sameHosts hn m) (throw .broke) fuel id frame trivial m m.sameHosts_held
  exact (hsteps.held m.sameHosts_held).law

/-- The same is true of a chain of one node. -/
theorem interpret_typed (hi : j.arena.Inferred) (hn : j.environment.KeepsHosted) (m₀ : Machine)
    (fuel : Nat) {id : NodeId} (hlast : j.arena.next? id = none) {frame : Nat}
    (hf : ¬ m₀.Hosted frame) :
    Tracks (.sameHosts m₀) (Exit.ReturnedFrom j.arena id) (j.interpret fuel (some id) frame)
      (j.interpret fuel (some id) frame) fun v => (j.arena.egress id).accepts v.type = true := by
  refine evalChain_tracks (ValueType.accepts_null _) fun k hk => ?_
  obtain rfl := Arena.mem_chain_of_last hlast hk
  exact eval_typed hi hn m₀ fuel k frame hf

end Job

end MeteredScript
