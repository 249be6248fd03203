import MeteredScript.Evaluation
import MeteredScript.Proofs.Evaluation.Methods
import MeteredScript.Proofs.Evaluation.Operators
import MeteredScript.Proofs.Evaluation.Scopes

/-!
# Evaluation in a setting

An evaluation may be watched: after each node an alarm is raised if what the node ended with, or the
machine it left, is not fine; and the native functions may be exchanged for others. In a setting in
which nothing but what is fine can be held, and in which the other functions do the same, all that
makes no difference.
-/

namespace MeteredScript

/-- What is asked of the ending of each node in a frame, and of the machine it leaves. -/
abbrev Watch := Nat → Except Exit Value → Machine → Prop

open Classical in
/-- Runs an operation, and after it an alarm if what it ended with is not fine. -/
noncomputable def Run.watched (watch : Except Exit Value → Machine → Prop) (alarm x : Run Value) :
    Run Value := fun m =>
  if watch (x.run m).1 (x.run m).2 then x.run m else alarm.run (x.run m).2

def Environment.reconfigured (e : Environment) (c : Configuration) : Environment :=
  { e with configuration := c }

namespace Job

def reconfigured (j : Job) (c : Configuration) : Job :=
  { j with environment := j.environment.reconfigured c }

/-- Evaluation with a watch on every node. -/
noncomputable def evalWatched (j : Job) (watch : Watch) (alarm : Run Value) : Nat → Evaluator
  | 0 => fun _ _ => throw .exhausted
  | fuel + 1 => fun id frame => Run.watched (watch frame) alarm <|
    match j.arena.kind? id with
    | some kind => j.evalNode (evalWatched j watch alarm fuel) fuel frame kind
    | none => throw .exhausted

noncomputable def interpretWatched (j : Job) (watch : Watch) (alarm : Run Value) (fuel : Nat)
    (head : Option NodeId) (frame : Nat) : Run Value :=
  j.evalChain (j.evalWatched watch alarm fuel) head frame

/-- What a job has to bring into a setting: what it is given may be held, and so is what native
functions answer. The other configuration resolves types alike and has functions that do the same. -/
structure Suits (S : Setting) (j : Job) (c : Configuration) : Prop where
  this : S.admits j.this
  resolve : ∀ name, (j.environment.reconfigured c).resolveType name = j.environment.resolveType name
  types : ∀ name v, j.environment.resolveType name = .ok v → S.admits v
  natives : ∀ (t : NativeType) (method : Name) (args : List Value), S.native t →
    j.environment.sandbox.checkMember j.names (some t.path) (j.names.lookup method) = .ok () →
    (∀ v ∈ args, S.admits v) →
    Tracks S (fun _ => True) ((j.environment.reconfigured c).callNative t method args)
      (j.environment.callNative t method args) S.admits

end Job

namespace Job

variable {S : Setting} {j : Job} {c : Configuration}

theorem literal_admits (j : Job) (value : Literal) : S.admits (j.literal value) := by
  cases value <;> trivial

theorem iterated_admits {s : Store} (hs : s.Held S.toRealm) {v : Value} {items : List Value}
    (h : iterated s v = .ok items) : ∀ w ∈ items, S.admits w := by
  unfold iterated at h
  split at h
  · next l => exact Except.ok.inj h ▸ hs.items l
  · rw [← Except.ok.inj h]
    intro w hw
    obtain ⟨k, _, rfl⟩ := List.mem_map.mp hw
    exact Realm.admits_key k
  · rw [← Except.ok.inj h]
    intro w hw
    obtain ⟨p, _, rfl⟩ := List.mem_map.mp hw
    exact Realm.admits_key p.1
  · cases h

theorem callNative_keeps {e : Environment} {args : List Value}
    (h : ∀ n ∈ e.configuration.natives, ∀ f ∈ n.methods, Act.Keeps S (f.2 args) S.admits)
    (t : NativeType) (method : Name) : Act.Keeps S (e.callNative t method args) S.admits :=
  Environment.callNative_cases (P := (Act.Keeps S · S.admits)) (.throw trivial _) h

/-- Where everything may be held, only what native functions do is left to ask for. -/
theorem suits_of_everything (j : Job) (hR : S.toRealm = .everything) (hframe : ∀ f, S.frame f)
    (hn : ∀ n ∈ j.environment.configuration.natives, ∀ f ∈ n.methods, ∀ (args : List Value)
      (m : Machine), S.law m →
        S.effect m ((f.2 args).run m).2 ∧ S.law ((f.2 args).run m).2) :
    j.Suits S j.environment.configuration := by
  have hadmits (v : Value) : S.admits v := hR ▸ Realm.everything_admits v
  refine ⟨hadmits j.this, fun _ => rfl, fun _ v _ => hadmits v, fun t method args _ _ _ => ?_⟩
  refine callNative_keeps (fun n hc f hf m hm => ?_) t method
  obtain ⟨heffect, hlaw⟩ := hn n hc f hf args m hm.law
  exact ⟨rfl, .single (.native _ heffect (.of_everything hR hframe hlaw)), fun v _ => hadmits v,
    fun _ _ => trivial⟩

theorem call_tracks [S.Lawful] (hj : j.Suits S c) {receiver : Value} (hr : S.admits receiver)
    (method : Name) {args : List Value} (ha : ∀ v ∈ args, S.admits v) :
    Tracks S (fun _ => True) ((j.environment.reconfigured c).call receiver method args)
      (j.environment.call receiver method args) S.admits := by
  have hbuilt : Act.Keeps S (do
      let account := (← get).context.account
      Act.onStore (Environment.callBuiltIn account receiver (j.names.lookup method) args))
      S.admits :=
    .bind .get fun m _ => .onStore (Environment.callBuiltIn_safe _ hr _ ha)
  unfold Environment.call
  dsimp only
  have hsame : (j.environment.reconfigured c).sandbox.checkMember (j.environment.reconfigured c).names
      (Environment.owner? receiver) ((j.environment.reconfigured c).names.lookup method) =
    j.environment.sandbox.checkMember j.names (Environment.owner? receiver)
      (j.names.lookup method) := rfl
  have hsame₀ : j.environment.sandbox.checkMember j.environment.names
      (Environment.owner? receiver) (j.environment.names.lookup method) =
    j.environment.sandbox.checkMember j.names (Environment.owner? receiver)
      (j.names.lookup method) := rfl
  rw [hsame, hsame₀]
  rcases hcheck : j.environment.sandbox.checkMember j.names (Environment.owner? receiver)
    (j.names.lookup method) with f | _
  · exact .throw trivial _
  · cases receiver with
    | native t => exact hj.natives t method args hr hcheck ha
    | null | bool | int | float | str | list | map | set => exact hbuilt

/-! ### The parts of a node -/

section Parts

variable [S.Lawful] {E : Exit → Prop} [Exit.Lenient E] {Q : Value → Prop} {ev' ev : Evaluator}
  {frame : Nat}

omit [S.Lawful] in
theorem var_tracks (hf : S.frame frame) {names : Interner} (name : Name) :
    Tracks S E (do let cell ← Run.act (Scope.resolve names frame name); return cell.read (← get))
      (do let cell ← Run.act (Scope.resolve names frame name); return cell.read (← get))
      S.admits := by
  intro m hm
  have hrun := Run.run_act (Scope.resolve names frame name) m
  rw [Scope.resolve_run] at hrun
  cases hr : m.resolve? names frame name with
  | none =>
    rw [hr] at hrun
    refine .fails (e := .fault (.nameNotFound (names.lookup name))) ?_ (Exit.Lenient.fault _) _
    rw [run_bind, hrun]
  | some cell =>
    rw [hr] at hrun
    exact .look hrun (.get (.pure ((hm.resolve?_fits hf hr).read hm)))

theorem checked_tracks {x' x : Run Bool} (hx : Tracks S E x' x fun _ => True) :
    Tracks S E (do Run.act Act.checkLiveness; x') (do Run.act Act.checkLiveness; x)
      fun _ => True :=
  .bind (.act .checkLiveness) fun _ _ => hx

theorem evalTest_tracks {test : NodeId} (hev : Tracks S E (ev' test frame) (ev test frame) Q) :
    Tracks S E (evalTest ev' test frame) (evalTest ev test frame) fun _ => True :=
  .bind hev fun _ _ => .pureAct fun _ _ => trivial

omit [Exit.Lenient E] in
theorem evalAll_tracks {ids : List NodeId}
    (hev : ∀ id ∈ ids, Tracks S E (ev' id frame) (ev id frame) Q) :
    Tracks S E (evalAll ev' ids frame) (evalAll ev ids frame) (∀ v ∈ ·, Q v) :=
  .mapM hev

variable (hq : Q .null)

include hq

theorem evalPairs_tracks {ids : List NodeId}
    (hev : ∀ id ∈ ids, Tracks S E (ev' id frame) (ev id frame) Q) :
    Tracks S E (evalPairs ev' frame ids) (evalPairs ev frame ids) (∀ p ∈ ·, Q p.2) := by
  induction ids using evalPairs.induct with
  | case1 => exact .pure fun _ hp => absurd hp List.not_mem_nil
  | case2 k =>
    refine .bind (hev k List.mem_cons_self) fun key _ => .test fun key => ?_
    exact .pure (List.forall_mem_singleton.mpr hq)
  | case3 k v rest ih =>
    obtain ⟨hk, hrest⟩ := List.forall_mem_cons.mp hev
    obtain ⟨hv, hrest⟩ := List.forall_mem_cons.mp hrest
    refine .bind hk fun key _ => .bind hv fun value hvalue => .test fun key => ?_
    exact .bind (ih hrest) fun pairs hp => .pure (List.forall_mem_cons.mpr ⟨hvalue, hp⟩)

omit [Exit.Lenient E] in
theorem evalChain_tracks {head : Option NodeId}
    (hev : ∀ id ∈ j.arena.chain head, Tracks S E (ev' id frame) (ev id frame) Q) :
    Tracks S E ((j.reconfigured c).evalChain ev' head frame) (j.evalChain ev head frame) Q :=
  .foldlM (fun _ id hid _ => hev id hid) hq

/-- A nested chain is evaluated in a frame that has been entered. -/
theorem evalBlock_tracks {head : Option NodeId} {P : Nat → Prop}
    (henter : Act.Keeps S (Scope.enter frame) P)
    (hev : ∀ inner, P inner → ∀ id ∈ j.arena.chain head,
      Tracks S E (ev' id inner) (ev id inner) Q) :
    Tracks S E ((j.reconfigured c).evalBlock ev' head frame) (j.evalBlock ev head frame) Q := by
  cases head with
  | none => exact .pure hq
  | some id => exact .bind (.act henter) fun inner hi => evalChain_tracks hq (hev inner hi)

end Parts

variable [S.Lawful] {ev' ev : Evaluator}
  (hev : ∀ id frame, S.frame frame → Run.Tracks S (ev' id frame) (ev id frame) S.admits)

include hev

theorem evalNode_tracks (hj : j.Suits S c) (fuel : Nat) {frame : Nat} (hf : S.frame frame)
    (kind : NodeKind) :
    Run.Tracks S ((j.reconfigured c).evalNode ev' fuel frame kind)
      (j.evalNode ev fuel frame kind) S.admits := by
  have hchain {inner : Nat} (hi : S.frame inner) (head : Option NodeId) :
      Run.Tracks S ((j.reconfigured c).evalChain ev' head inner) (j.evalChain ev head inner)
        S.admits :=
    evalChain_tracks trivial fun id _ => hev id inner hi
  have hblock (head : Option NodeId) :
      Run.Tracks S ((j.reconfigured c).evalBlock ev' head frame) (j.evalBlock ev head frame)
        S.admits :=
    evalBlock_tracks trivial (Scope.enter_keeps hf) fun inner hi id _ => hev id inner hi
  have htest (test : NodeId) :
      Run.Tracks S (evalTest ev' test frame) (evalTest ev test frame) fun _ => True :=
    evalTest_tracks (hev test frame hf)
  cases kind with
  | literal value declared =>
    cases declared with
    | none => exact .pure (literal_admits j value)
    | some t =>
      unfold evalNode
      dsimp only
      split
      · exact .pure (literal_admits j value)
      · exact .throw trivial _
  | this => exact .pure hj.this
  | var name => exact var_tracks hf name
  | declare name type init =>
    refine .bind (hev init frame hf) fun v hv => ?_
    exact .bind (.act (Scope.declare_keeps hv hf _ name type)) fun _ _ => .pure hv
  | declareAt slot name type init =>
    refine .bind (hev init frame hf) fun v hv => ?_
    exact .bind (.act (Scope.declareAt_keeps hv hf _ slot name type)) fun _ _ => .pure hv
  | assign name value =>
    refine .bind (hev value frame hf) fun v hv => ?_
    exact .bind (.act (Scope.assign_keeps hv hf _ name)) fun _ _ => .pure hv
  | binary op left right =>
    cases op with
    | and =>
      refine .bind (htest left) fun b _ => ?_
      cases b with
      | true => exact .bind (htest right) fun _ _ => .pure trivial
      | false => exact .pure trivial
    | or =>
      refine .bind (htest left) fun b _ => ?_
      cases b with
      | true => exact .pure trivial
      | false => exact .bind (htest right) fun _ _ => .pure trivial
    | _ =>
      refine .bind (hev left frame hf) fun l _ => .bind (hev right frame hf) fun r _ => ?_
      exact .bind .get fun m _ => .pureAct fun v hv =>
        Realm.admits_of_isScalar (Operators.evaluate_isScalar hv)
  | not operand => exact .bind (htest operand) fun _ _ => .pure trivial
  | cond test onTrue onFalse =>
    exact .bind (htest test) fun _ _ => hblock _
  | block body => exact hblock body
  | doWhile body test =>
    refine .bind (.act (Scope.enter_keeps hf)) fun inner hi => .repeatWhile trivial ?_ fuel
    refine checked_tracks (.bind (.body (hchain hi body)) fun more _ => ?_)
    cases more with
    | true => exact htest test
    | false => exact .pure trivial
  | whileDo test body =>
    refine .bind (.act (Scope.enter_keeps hf)) fun inner hi => .repeatWhile trivial ?_ fuel
    refine checked_tracks (.bind (htest test) fun more _ => ?_)
    cases more with
    | true => exact .body (hchain hi body)
    | false => exact .pure trivial
  | forEach item iterable body =>
    refine .bind (hev iterable frame hf) fun v _ => .bind .get fun m hm => ?_
    refine .bind (.pureAct fun items hi => iterated_admits hm.store hi) fun items hitems => ?_
    refine .bind (.act (Scope.enter_keeps hf)) fun inner hi => .forItems trivial fun w hw => ?_
    have hdeclare := Scope.declare_keeps (hitems w hw) hi j.names item none
    refine checked_tracks (.bind (.act hdeclare) fun _ _ => ?_)
    exact .body (hchain hi body)
  | ret value =>
    exact .bind (hev value frame hf) fun v hv => .throw (show Exit.Held _ (.returned v) from hv) _
  | brk => exact .throw trivial _
  | listLit range =>
    refine .bind (evalAll_tracks fun id _ => hev id frame hf) fun values hv => ?_
    refine .bind .get fun m _ => ?_
    exact .bind (.act (.onStore (Lists.create_safe _ hv))) fun h hh => .pure hh
  | mapLit range =>
    refine .bind (evalPairs_tracks trivial fun id _ => hev id frame hf) fun pairs hp => ?_
    refine .bind .get fun m _ => ?_
    exact .bind (.act (.onStore (Maps.create_safe _ hp))) fun h hh => .pure hh
  | setLit range =>
    refine .bind (evalAll_tracks fun id _ => hev id frame hf) fun values _ => ?_
    refine .bind .get fun m _ => ?_
    exact .bind (.act (.onStore (Sets.create_safe _ values))) fun h hh => .pure hh
  | typeRef name =>
    have hres : (j.reconfigured c).evalNode ev' fuel frame (.typeRef name) =
        Run.pureAct (j.environment.resolveType name) := congrArg Run.pureAct (hj.resolve name)
    rw [hres]
    exact .pureAct (hj.types name)
  | call receiver method args =>
    refine .bind (hev receiver frame hf) fun v hv => ?_
    refine .bind (evalAll_tracks fun id _ => hev id frame hf) fun values ha => ?_
    exact .act (call_tracks hj hv method ha)

end Job

/-! ## Whole evaluations -/

namespace Job

theorem evalWatched_true (j : Job) (alarm : Run Value) (fuel : Nat) :
    j.evalWatched (fun _ _ _ => True) alarm fuel = j.eval fuel := by
  induction fuel with
  | zero => rfl
  | succ fuel ih =>
    unfold evalWatched eval
    rw [ih]
    funext id frame m
    exact if_pos trivial

variable {S : Setting} [S.Lawful] {j : Job} {c : Configuration} {watch : Watch}
  (hw : ∀ (frame : Nat) (ending : Except Exit Value) (m : Machine), S.frame frame → m.Held S →
    (∀ v, ending = .ok v ∨ ending = .error (.returned v) → S.admits v) → watch frame ending m)

include hw

theorem watched_tracks {frame : Nat} (hf : S.frame frame) (alarm : Run Value) {x' x : Run Value}
    (hx : Run.Tracks S x' x S.admits) :
    Run.Tracks S (Run.watched (watch frame) alarm x') x S.admits := by
  intro m hm
  obtain ⟨hsame, hsteps, hresult, hexit⟩ := hx m hm
  refine ⟨?_, hsteps, hresult, hexit⟩
  have hfine : watch frame (x'.run m).1 (x'.run m).2 := by
    rw [hsame]
    refine hw frame _ _ hf (hsteps.held hm) fun v hv => ?_
    rcases hv with hv | hv
    · exact hresult v hv
    · exact hexit _ hv
  have hrun : (Run.watched (watch frame) alarm x').run m = x'.run m := if_pos hfine
  rw [hrun, hsame]

/-- In a setting that suits a job, an evaluation that is watched, with the other functions, is the
evaluation itself. -/
theorem evalWatched_tracks (hj : j.Suits S c) (alarm : Run Value) (fuel : Nat) :
    ∀ (id : NodeId) (frame : Nat), S.frame frame →
      Run.Tracks S ((j.reconfigured c).evalWatched watch alarm fuel id frame) (j.eval fuel id frame)
        S.admits := by
  induction fuel with
  | zero => exact fun _ _ _ => .throw trivial _
  | succ fuel ih =>
    intro id frame hf
    refine watched_tracks hw hf alarm ?_
    have hkind : (j.reconfigured c).arena.kind? id = j.arena.kind? id := rfl
    rw [hkind, eval]
    dsimp only
    cases j.arena.kind? id with
    | none => exact .throw trivial _
    | some kind => exact evalNode_tracks ih hj fuel hf kind

theorem interpretWatched_tracks (hj : j.Suits S c) (alarm : Run Value) (fuel : Nat)
    (head : Option NodeId) {frame : Nat} (hf : S.frame frame) :
    Run.Tracks S ((j.reconfigured c).interpretWatched watch alarm fuel head frame)
      (j.interpret fuel head frame) S.admits :=
  evalChain_tracks trivial fun id _ => evalWatched_tracks hw hj alarm fuel id frame hf

end Job

end MeteredScript
