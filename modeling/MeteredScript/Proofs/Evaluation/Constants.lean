import MeteredScript.Evaluation
import MeteredScript.Proofs.Evaluation.Operators
import MeteredScript.Proofs.Store.Parallel

/-!
# Constant programs

A constant program reads no variable, no `this` and nothing of the host but the texts of its
constants. So it does the same on any two machines: from a store and from one with a copy of it the
evaluations run in parallel, whatever the frames, the accounts and the limits are.
-/

namespace MeteredScript

/-- A value and its copy, both made by a place. -/
def Value.Copy (n k : Nat) (v w : Value) : Prop := v.Below k ∧ w = v.shift n

variable {n k : Nat}

theorem Value.Copy.of_isScalar {v : Value} (h : v.isScalar = true) : Value.Copy n k v v :=
  ⟨below_of_isScalar h, (shift_of_isScalar h).symm⟩

theorem NewCopy.mono {h h' : Handle} {k' : Nat} (hh : NewCopy n k h h') (hk : k ≤ k') :
    NewCopy n k' h h' := ⟨Nat.lt_of_lt_of_le hh.1 hk, hh.2⟩

theorem NewCopy.list {h h' : Handle} (hh : NewCopy n k h h') :
    Value.Copy n k (.list h) (.list h') := ⟨hh.1, congrArg Value.list hh.2⟩

theorem NewCopy.map {h h' : Handle} (hh : NewCopy n k h h') :
    Value.Copy n k (.map h) (.map h') := ⟨hh.1, congrArg Value.map hh.2⟩

theorem NewCopy.set {h h' : Handle} (hh : NewCopy n k h h') :
    Value.Copy n k (.set h) (.set h') := ⟨hh.1, congrArg Value.set hh.2⟩

/-! ## Runs in parallel -/

/-- The two runs go in parallel on the stores of their machines. -/
abbrev Run.Parallel {α β : Type} (n k : Nat) (x : Run α) (y : Run β) (Q : Nat → α → β → Prop) :
    Prop :=
  MeteredScript.Parallel Machine.store n k x y Q

namespace Run.Parallel

variable {α β : Type}

theorem onStore {x : StoreM α} {y : StoreM β} {Q : Nat → α → β → Prop}
    (h : MeteredScript.Parallel id n k x y Q) :
    Run.Parallel n k (Run.act (Act.onStore x)) (Run.act (Act.onStore y)) Q := by
  intro m m' hc hk
  have h := h m.store m'.store hc hk
  rw [run_act, run_act, run_onStore, run_onStore]
  generalize x.run m.store = r at h ⊢
  generalize y.run m'.store = r' at h ⊢
  cases h with
  | error e s t => exact .error _ _ _
  | ok a b s t hc hgrown hab => exact .ok a b _ _ hc hgrown hab

theorem pureAct {x : Except Fault α} {Q : Nat → α → α → Prop} (h : ∀ k' a, x = .ok a → Q k' a a) :
    Run.Parallel n k (Run.pureAct x) (Run.pureAct x) Q := by
  cases x with
  | ok a => exact .pure fun k' _ => h k' a rfl
  | error f => exact .throw _ Q

theorem get : Run.Parallel n k get get fun k' m m' =>
    m.store.Copies n m'.store ∧ m.store.containers.size = k' :=
  fun m m' hc _ => .ok m m' m m' hc (Nat.le_refl _) ⟨hc, rfl⟩

theorem foldlM {ids : List NodeId} {ev ev' : NodeId → Run Value}
    (h : ∀ id k, Run.Parallel n k (ev id) (ev' id) (Value.Copy n)) {v w : Value}
    (hv : ∀ k', k ≤ k' → Value.Copy n k' v w) :
    Run.Parallel n k (ids.foldlM (fun _ id => ev id) v) (ids.foldlM (fun _ id => ev' id) w)
      (Value.Copy n) := by
  induction ids generalizing k v w with
  | nil => exact .pure hv
  | cons id rest ih =>
    rw [List.foldlM_cons, List.foldlM_cons]
    refine (h id k).bind fun k' v w _ hvw => ih fun k'' hk'' => ?_
    exact ⟨hvw.1.mono hk'', hvw.2⟩

end Run.Parallel

/-! ## Nodes -/

namespace Job

/-- Two jobs on one constant program, whose texts they read alike. -/
structure Agree (j j' : Job) : Prop where
  arena : j'.arena = j.arena
  constant : ∀ (id : NodeId) (kind : NodeKind), j.arena.kind? id = some kind →
    kind.isLiteralOnly = true
  texts : ∀ (id : NodeId) (name : Name) (type : Option ValueType),
    j.arena.kind? id = some (.literal (.str name) type) →
      j'.names.lookup name = j.names.lookup name

variable {ev ev' : Evaluator} {frame frame' : Nat}
  (hev : ∀ id k, Run.Parallel n k (ev id frame) (ev' id frame') (Value.Copy n))

include hev

theorem evalAll_parallel (ids : List NodeId) :
    Run.Parallel n k (evalAll ev ids frame) (evalAll ev' ids frame') fun k' values values' =>
      (∀ v ∈ values, v.Below k') ∧ values' = values.map (Value.shift n) := by
  unfold evalAll
  induction ids generalizing k with
  | nil => exact .pure fun _ _ => ⟨fun _ hv => absurd hv List.not_mem_nil, rfl⟩
  | cons id rest ih =>
    rw [List.mapM_cons, List.mapM_cons]
    refine (hev id k).bind fun k₁ v _ _ ⟨hv, he⟩ => he ▸ ?_
    refine ih.bind fun k₂ values _ hk ⟨hvs, hes⟩ => hes ▸ .pure fun k₃ hk' => ⟨?_, rfl⟩
    refine List.forall_mem_cons.mpr ⟨hv.mono (Nat.le_trans hk hk'), fun w hw => ?_⟩
    exact (hvs w hw).mono hk'

theorem evalPairs_parallel (ids : List NodeId) :
    Run.Parallel n k (evalPairs ev frame ids) (evalPairs ev' frame' ids) fun k' pairs pairs' =>
      (∀ p ∈ pairs, p.2.Below k') ∧ pairs' = Entries.shift n pairs := by
  induction ids using evalPairs.induct generalizing k with
  | case1 => exact .pure fun _ _ => ⟨fun _ hp => absurd hp List.not_mem_nil, rfl⟩
  | case2 id =>
    refine (hev id k).bind fun k₁ v _ _ ⟨_, he⟩ => he ▸ ?_
    rw [Key.ofValue_shift]
    refine (Run.Parallel.pureAct fun _ _ _ => rfl).bind fun k₂ key _ _ he => he ▸ ?_
    exact .pure fun _ _ => ⟨List.forall_mem_singleton.mpr trivial, rfl⟩
  | case3 id id' rest ih =>
    refine (hev id k).bind fun k₁ v _ _ ⟨_, he⟩ => he ▸ ?_
    refine (hev id' k₁).bind fun k₂ w _ _ ⟨hw, he⟩ => he ▸ ?_
    rw [Key.ofValue_shift]
    refine (Run.Parallel.pureAct fun _ _ _ => rfl).bind fun k₃ key _ hk₃ he => he ▸ ?_
    refine ih.bind fun k₄ pairs _ hk₄ ⟨hp, he⟩ => he ▸ .pure fun k₅ hk₅ => ⟨?_, rfl⟩
    refine List.forall_mem_cons.mpr ⟨?_, fun p hm => (hp p hm).mono hk₅⟩
    exact hw.mono (Nat.le_trans hk₃ (Nat.le_trans hk₄ hk₅))

theorem evalTest_parallel (id : NodeId) :
    Run.Parallel n k (evalTest ev id frame) (evalTest ev' id frame') fun _ b b' => b' = b := by
  refine (hev id k).bind fun _ v _ _ ⟨_, he⟩ => he ▸ ?_
  rw [Value.requireBool_shift]
  exact Run.Parallel.pureAct fun _ _ _ => rfl

theorem evalAnswer_parallel (answer : Bool → Bool) (id : NodeId) :
    Run.Parallel n k (do return .bool (answer (← evalTest ev id frame)))
      (do return .bool (answer (← evalTest ev' id frame'))) (Value.Copy n) := by
  refine (evalTest_parallel hev id).bind fun k' b b' _ he => ?_
  rw [he]
  exact .pure fun _ _ => .of_isScalar rfl

/-- Every kind of node in a constant program does the same in both jobs. -/
theorem evalNode_parallel {j j' : Job} (hj : j.Agree j') (fuel fuel' : Nat) {id : NodeId}
    {kind : NodeKind} (hk : j.arena.kind? id = some kind) :
    Run.Parallel n k (j.evalNode ev fuel frame kind) (j'.evalNode ev' fuel' frame' kind)
      (Value.Copy n) := by
  have hconst := hj.constant id kind hk
  cases kind with
  | literal value declared =>
    have hl : j'.literal value = j.literal value := by
      cases value with
      | str name => exact congrArg Value.str (hj.texts id name declared hk)
      | null | bool | int | float => rfl
    have hs : (j.literal value).isScalar = true := by cases value <;> rfl
    simp only [evalNode, hl]
    cases declared with
    | none => exact .pure fun _ _ => .of_isScalar hs
    | some t =>
      dsimp only
      split
      · exact .pure fun _ _ => .of_isScalar hs
      · exact .throw _ _
  | binary op left right =>
    cases op with
    | and =>
      refine (evalTest_parallel hev left).bind fun k' b b' _ he => ?_
      rw [he]
      cases b with
      | true => exact evalAnswer_parallel hev (fun b => b) right
      | false => exact .pure fun _ _ => .of_isScalar rfl
    | or =>
      refine (evalTest_parallel hev left).bind fun k' b b' _ he => ?_
      rw [he]
      cases b with
      | true => exact .pure fun _ _ => .of_isScalar rfl
      | false => exact evalAnswer_parallel hev (fun b => b) right
    | _ =>
      refine (hev left k).bind fun k₁ l _ _ ⟨hl, he⟩ => he ▸ ?_
      refine (hev right k₁).bind fun k₂ r _ hk₂ ⟨hr, he⟩ => he ▸ ?_
      refine Run.Parallel.get.bind fun k₃ m m' hk₃ ⟨hc, hm⟩ => ?_
      rw [hc.evaluate (hm ▸ hl.mono (Nat.le_trans hk₂ hk₃)) (hm ▸ hr.mono hk₃)]
      exact Run.Parallel.pureAct fun _ _ hv => .of_isScalar (Operators.evaluate_isScalar hv)
  | not operand => exact evalAnswer_parallel hev Bool.not operand
  | listLit range =>
    simp only [evalNode, hj.arena]
    refine (evalAll_parallel hev _).bind fun k₁ values _ _ ⟨hv, he⟩ => he ▸ ?_
    refine Run.Parallel.get.bind fun k₂ m m' hk₂ _ => ?_
    refine (Run.Parallel.onStore (Lists.create_parallel _ _ fun v hm => (hv v hm).mono hk₂)).bind
      fun k₃ h h' _ hh => .pure fun k₄ hk₄ => (hh.mono hk₄).list
  | mapLit range =>
    simp only [evalNode, hj.arena]
    refine (evalPairs_parallel hev _).bind fun k₁ pairs _ _ ⟨hp, he⟩ => he ▸ ?_
    refine Run.Parallel.get.bind fun k₂ m m' hk₂ _ => ?_
    refine (Run.Parallel.onStore (Maps.create_parallel _ _ fun p hm => (hp p hm).mono hk₂)).bind
      fun k₃ h h' _ hh => .pure fun k₄ hk₄ => (hh.mono hk₄).map
  | setLit range =>
    simp only [evalNode, hj.arena]
    refine (evalAll_parallel hev _).bind fun k₁ values _ _ ⟨_, he⟩ => he ▸ ?_
    refine Run.Parallel.get.bind fun k₂ m m' _ _ => ?_
    refine (Run.Parallel.onStore (Sets.create_parallel _ _ values)).bind
      fun k₃ h h' _ hh => .pure fun k₄ hk₄ => (hh.mono hk₄).set
  | _ => cases hconst

end Job

/-! ## Programs -/

namespace Job

variable {j j' : Job}

theorem eval_parallel (hj : j.Agree j') (fuel : Nat) (frame frame' : Nat) (id : NodeId) :
    Run.Parallel n k (j.eval fuel id frame) (j'.eval fuel id frame') (Value.Copy n) := by
  induction fuel generalizing id k with
  | zero => exact .throw _ _
  | succ fuel ih =>
    rw [eval, eval]
    dsimp only
    rw [hj.arena]
    cases hk : j.arena.kind? id with
    | none => exact .throw _ _
    | some kind => exact evalNode_parallel (fun id k => ih id) hj fuel fuel hk

theorem interpret_parallel (hj : j.Agree j') (fuel : Nat) (head : Option NodeId)
    (frame frame' : Nat) :
    Run.Parallel n k (j.interpret fuel head frame) (j'.interpret fuel head frame')
      (Value.Copy n) := by
  unfold interpret evalChain
  rw [hj.arena]
  exact .foldlM (fun id k => eval_parallel hj fuel frame frame' id) fun _ _ => .of_isScalar rfl

end Job

/-- Every store has a copy of the store without containers behind it. -/
theorem Store.copies_of_empty {s : Store} (h : s.containers = #[]) (t : Store) :
    s.Copies t.containers.size t := by
  refine ⟨?_, fun i => ?_, fun i c hi => ?_⟩
  · rw [h]
    rfl
  · rw [h, Array.getElem?_eq_none (Nat.le_add_right _ _)]
    rfl
  · rw [h] at hi
    cases hi

/-- Of a constant program, a run on a machine without containers says what the run on any other
machine answers if it answers a scalar, and which error ends it if one does. -/
theorem Job.interpret_eq {j j' : Job} (hj : j.Agree j') (fuel : Nat) (head : Option NodeId)
    (frame frame' : Nat) {m : Machine} (hm : m.store.containers = #[]) (m' : Machine) :
    (∃ e, ((j.interpret fuel head frame).run m).1 = .error e ∧
      ((j'.interpret fuel head frame').run m').1 = .error e) ∨
    ∃ v, ((j.interpret fuel head frame).run m).1 = .ok v ∧
      ((j'.interpret fuel head frame').run m').1 = .ok (v.shift m'.store.containers.size) := by
  have h := interpret_parallel (n := m'.store.containers.size) (k := 0) hj fuel head frame frame'
    m m' (Store.copies_of_empty hm _) (Nat.zero_le _)
  generalize (j.interpret fuel head frame).run m = r at h ⊢
  generalize (j'.interpret fuel head frame').run m' = r' at h ⊢
  cases h with
  | error e => exact .inl ⟨e, rfl, rfl⟩
  | ok v w _ _ _ _ hvw => exact .inr ⟨v, rfl, congrArg Except.ok hvw.2⟩

end MeteredScript
