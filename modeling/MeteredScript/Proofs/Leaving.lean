import MeteredScript.Proofs.Evaluation.Bindings
import MeteredScript.Proofs.Termination

/-!
# What is left early, and where it ends

A break leaves every node around it, up to the loop whose body it is in; a return leaves all of
them. So an evaluation only ends in a break if a break is met on the way through operands, branches
and conditions, and only in a return if some node that it needs is one.
-/

namespace MeteredScript

open Relation (ReflTransGen)

/-! ## Nodes that are not shielded by a loop -/

namespace NodeKind

/-- The heads of the nested chains that are no bodies of loops. -/
def branches : NodeKind → List NodeId
  | cond _ onTrue onFalse => onTrue.toList ++ onFalse.toList
  | block body => body.toList
  | _ => []

theorem branches_subset (kind : NodeKind) : kind.branches ⊆ kind.heads := by
  cases kind <;> simp [branches, heads]

/-- The nodes that are evaluated as part of a node of this kind, but not in the body of a loop. A
break in one of them breaks off this node, too. -/
def exposed (a : Arena) (kind : NodeKind) : List NodeId :=
  kind.direct ++ (kind.range?.map a.operands).getD [] ++
    kind.branches.flatMap fun head => a.chain (some head)

variable {a : Arena} {kind : NodeKind} {m : NodeId}

theorem mem_exposed_of_direct (h : m ∈ kind.direct) : m ∈ kind.exposed a := by simp [exposed, h]

theorem mem_exposed_of_range {r : NodeRange} (hr : kind.range? = some r) (h : m ∈ a.operands r) :
    m ∈ kind.exposed a := by simp [exposed, hr, h]

theorem mem_exposed_of_chain {head : Option NodeId} (hhead : head.toList ⊆ kind.branches)
    (h : m ∈ a.chain head) : m ∈ kind.exposed a := by
  cases head with
  | none => exact absurd h (by simp [Arena.chain_none])
  | some head =>
    refine List.mem_append_right _ ?_
    exact List.mem_flatMap.mpr ⟨head, hhead (List.mem_singleton_self head), h⟩

theorem needs_of_mem_exposed (h : m ∈ kind.exposed a) : kind.Needs a m := by
  rw [exposed, List.mem_append, List.mem_append] at h
  rcases h with (hdirect | hrange) | hbranch
  · exact .operand hdirect
  · cases hr : kind.range? with
    | none => simp [hr] at hrange
    | some r => exact .element hr (by simpa [hr] using hrange)
  · obtain ⟨head, hhead, hm⟩ := List.mem_flatMap.mp hbranch
    exact .statement (branches_subset kind hhead) hm

end NodeKind

namespace Arena

def Exposes (a : Arena) (n m : NodeId) : Prop := ∃ kind, a.kind? n = some kind ∧ m ∈ kind.exposed a

/-- The node is a break, or comes to one without entering the body of a loop. -/
def Breaks (a : Arena) (id : NodeId) : Prop :=
  ∃ b, ReflTransGen a.Exposes id b ∧ a.kind? b = some .brk

/-- The node is a return, or comes to one at all. -/
def Returns (a : Arena) (id : NodeId) : Prop :=
  ∃ r w, ReflTransGen a.Needs id r ∧ a.kind? r = some (.ret w)

end Arena

/-! ## Ways out of an operation -/

/-- An evaluation may end in this way if it comes to such breaks and returns. Faults may be met
anywhere. -/
def Exit.From (breaks returns : Prop) : Exit → Prop
  | .broke => breaks
  | .returned _ => returns
  | .fault _ | .exhausted => True

theorem Exit.From.mono {b b' r r' : Prop} (hb : b → b') (hr : r → r') {e : Exit}
    (h : e.From b r) : e.From b' r' := by
  cases e with
  | broke => exact hb h
  | returned => exact hr h
  | fault | exhausted => trivial

/-- From every machine, the operation is only left early in such ways. -/
def Run.Leaves {α : Type} (breaks returns : Prop) (x : Run α) : Prop :=
  ∀ (m : Machine) (e : Exit), (x.run m).1 = .error e → e.From breaks returns

namespace Run.Leaves

variable {α β : Type} {b b' r r' : Prop}

theorem mono {x : Run α} (h : x.Leaves b r) (hb : b → b') (hr : r → r') : x.Leaves b' r' :=
  fun m e he => (h m e he).mono hb hr

theorem pure (a : α) : Run.Leaves b r (pure a : Run α) := by
  intro m e he
  cases he

theorem throw {e : Exit} (h : e.From b r) : Run.Leaves b r (throw e : Run α) :=
  fun _ _ he => Except.error.inj he ▸ h

theorem get : Run.Leaves b r (get : Run Machine) := by
  intro m e he
  cases he

theorem bind {x : Run α} {f : α → Run β} (hx : x.Leaves b r) (hf : ∀ a, (f a).Leaves b r) :
    (x >>= f).Leaves b r := by
  intro m e he
  rw [run_bind] at he
  rcases hrun : x.run m with ⟨e' | a, t⟩ <;> rw [hrun] at he
  · cases he
    exact hx m e (by rw [hrun])
  · exact hf a t e he

theorem act (x : Act α) : (Run.act x).Leaves b r := by
  intro m e he
  rw [run_act] at he
  rcases hrun : x.run m with ⟨f | a, t⟩ <;> rw [hrun] at he
  · cases he
    trivial
  · cases he

theorem pureAct (x : Except Fault α) : (Run.pureAct x).Leaves b r := by
  cases x with
  | ok a => exact .pure a
  | error f => exact .throw trivial

theorem foldlM {items : List α} {f : β → α → Run β} (hf : ∀ a ∈ items, ∀ s, (f s a).Leaves b r)
    (s : β) : (items.foldlM f s).Leaves b r := by
  induction items generalizing s with
  | nil => exact .pure s
  | cons a rest ih =>
    obtain ⟨ha, hrest⟩ := List.forall_mem_cons.mp hf
    rw [List.foldlM_cons]
    exact (ha s).bind (ih hrest)

theorem mapM {items : List α} {f : α → Run β} (hf : ∀ a ∈ items, (f a).Leaves b r) :
    (items.mapM f).Leaves b r := by
  induction items with
  | nil => exact .pure []
  | cons a rest ih =>
    obtain ⟨ha, hrest⟩ := List.forall_mem_cons.mp hf
    rw [List.mapM_cons]
    exact ha.bind fun _ => (ih hrest).bind fun _ => .pure _

/-! ### Loops -/

/-- The body of a loop is left by a break no further than to the loop. -/
theorem body {x : Run Value} (hx : x.Leaves b' r) : (Run.body x).Leaves b r := by
  intro m e he
  rw [run_body] at he
  rcases hrun : x.run m with ⟨(_ | _ | _ | _) | _, t⟩ <;> rw [hrun] at he <;> cases he
  · trivial
  · exact hx m _ (by rw [hrun])
  · trivial

theorem turn {x : Run Bool} {y : Run Value} (hx : x.Leaves b r) (hy : y.Leaves b r) :
    Run.Leaves b r (do if ← x then y else return .null) := by
  refine hx.bind fun more => ?_
  cases more with
  | true => exact hy
  | false => exact .pure _

theorem repeatWhile {x : Run Bool} (hx : x.Leaves b r) (fuel : Nat) :
    (Run.repeatWhile x fuel).Leaves b r := by
  induction fuel with
  | zero => exact .throw trivial
  | succ fuel ih =>
    rw [repeatWhile_succ]
    exact hx.turn ih

theorem forItems {x : α → Run Bool} (hx : ∀ a, (x a).Leaves b r) (items : List α) :
    (Run.forItems x items).Leaves b r := by
  induction items with
  | nil => exact .pure _
  | cons a rest ih =>
    rw [forItems_cons]
    exact (hx a).turn ih

end Run.Leaves

/-! ## Evaluations -/

namespace Job

variable {j : Job} {ev : Evaluator} {b r : Prop}

theorem evalTest_leaves {test : NodeId} {frame : Nat} (h : (ev test frame).Leaves b r) :
    (evalTest ev test frame).Leaves b r := h.bind fun _ => .pureAct _

theorem evalChain_leaves {head : Option NodeId} {frame : Nat}
    (h : ∀ id ∈ j.arena.chain head, (ev id frame).Leaves b r) :
    (j.evalChain ev head frame).Leaves b r := .foldlM (fun id hid _ => h id hid) _

theorem evalBlock_leaves {head : Option NodeId}
    (h : ∀ id ∈ j.arena.chain head, ∀ frame, (ev id frame).Leaves b r) (frame : Nat) :
    (j.evalBlock ev head frame).Leaves b r := by
  cases head with
  | none => exact .pure _
  | some id =>
    exact (Run.Leaves.act _).bind fun inner => evalChain_leaves fun id hid => h id hid inner

theorem evalPairs_leaves {ids : List NodeId} {frame : Nat}
    (h : ∀ id ∈ ids, (ev id frame).Leaves b r) : (evalPairs ev frame ids).Leaves b r := by
  induction ids using evalPairs.induct with
  | case1 => exact .pure []
  | case2 k =>
    exact (h k List.mem_cons_self).bind fun v => (Run.Leaves.pureAct _).bind fun _ => .pure _
  | case3 k v rest ih =>
    simp only [List.forall_mem_cons] at h
    obtain ⟨hk, hv, hrest⟩ := h
    refine hk.bind fun _ => hv.bind fun _ => (Run.Leaves.pureAct _).bind fun _ => ?_
    exact (ih hrest).bind fun _ => .pure _

/-- A node is left as the nodes that it needs are, but by a break only if it exposes what breaks
off. -/
theorem evalNode_leaves {kind : NodeKind} (hbrk : kind = .brk → b)
    (hret : ∀ w, kind = .ret w → r)
    (hexposed : ∀ m ∈ kind.exposed j.arena, ∀ frame, (ev m frame).Leaves b r)
    (hneeded : ∀ m, kind.Needs j.arena m → ∀ frame, (ev m frame).Leaves True r)
    (fuel frame : Nat) : (j.evalNode ev fuel frame kind).Leaves b r := by
  have hdirect {m : NodeId} (hm : m ∈ kind.direct) : (ev m frame).Leaves b r :=
    hexposed m (NodeKind.mem_exposed_of_direct hm) frame
  have hrange {s : NodeRange} (hs : kind.range? = some s) :
      ∀ id ∈ j.arena.operands s, (ev id frame).Leaves b r :=
    fun id hid => hexposed id (NodeKind.mem_exposed_of_range hs hid) frame
  have hblock {head : Option NodeId} (hh : head.toList ⊆ kind.branches) :
      (j.evalBlock ev head frame).Leaves b r :=
    evalBlock_leaves (fun id hid => hexposed id (NodeKind.mem_exposed_of_chain hh hid)) frame
  -- In the body of a loop there may be breaks.
  have hbody {head : Option NodeId} (hh : head.toList ⊆ kind.heads) (inner : Nat) :
      (Run.body (j.evalChain ev head inner)).Leaves b r :=
    .body (evalChain_leaves fun id hid => hneeded id (.of_chain hh hid) inner)
  cases kind with
  | literal value declared =>
    cases declared with
    | none => exact .pure _
    | some t =>
      unfold evalNode
      dsimp only
      split
      · exact .pure _
      · exact .throw trivial
  | this => exact .pure _
  | var name => exact (Run.Leaves.act _).bind fun _ => Run.Leaves.get.bind fun _ => .pure _
  | declare name type init | declareAt slot name type init =>
    exact (hdirect List.mem_cons_self).bind fun v => (Run.Leaves.act _).bind fun _ => .pure _
  | assign name value =>
    exact (hdirect List.mem_cons_self).bind fun v => (Run.Leaves.act _).bind fun _ => .pure _
  | binary op left right =>
    have hleft : (ev left frame).Leaves b r := hdirect List.mem_cons_self
    have hright : (ev right frame).Leaves b r :=
      hdirect (List.mem_cons_of_mem _ List.mem_cons_self)
    cases op with
    | and =>
      refine (evalTest_leaves hleft).bind fun t => ?_
      cases t with
      | true => exact (evalTest_leaves hright).bind fun _ => .pure _
      | false => exact .pure _
    | or =>
      refine (evalTest_leaves hleft).bind fun t => ?_
      cases t with
      | true => exact .pure _
      | false => exact (evalTest_leaves hright).bind fun _ => .pure _
    | _ => exact hleft.bind fun _ => hright.bind fun _ => Run.Leaves.get.bind fun _ => .pureAct _
  | not operand => exact (evalTest_leaves (hdirect List.mem_cons_self)).bind fun _ => .pure _
  | cond test onTrue onFalse =>
    refine (evalTest_leaves (hdirect List.mem_cons_self)).bind fun taken => ?_
    cases taken with
    | true => exact hblock (List.subset_append_left _ _)
    | false => exact hblock (List.subset_append_right _ _)
  | block body => exact hblock (List.Subset.refl _)
  | doWhile body test =>
    refine (Run.Leaves.act _).bind fun inner => .repeatWhile ?_ fuel
    refine (Run.Leaves.act _).bind fun _ => (hbody (List.Subset.refl _) inner).bind fun more => ?_
    cases more with
    | true => exact evalTest_leaves (hdirect List.mem_cons_self)
    | false => exact .pure _
  | whileDo test body =>
    refine (Run.Leaves.act _).bind fun inner => .repeatWhile ?_ fuel
    refine (Run.Leaves.act _).bind fun _ => ?_
    refine (evalTest_leaves (hdirect List.mem_cons_self)).bind fun more => ?_
    cases more with
    | true => exact hbody (List.Subset.refl _) inner
    | false => exact .pure _
  | forEach item iterable body =>
    refine (hdirect List.mem_cons_self).bind fun v => Run.Leaves.get.bind fun m => ?_
    refine (Run.Leaves.pureAct _).bind fun items => (Run.Leaves.act _).bind fun inner => ?_
    refine .forItems (fun w => (Run.Leaves.act _).bind fun _ => ?_) items
    exact (Run.Leaves.act _).bind fun _ => hbody (List.Subset.refl _) inner
  | ret value => exact (hdirect List.mem_cons_self).bind fun _ => .throw (hret value rfl)
  | brk => exact .throw (hbrk rfl)
  | listLit s | setLit s =>
    refine (Run.Leaves.mapM (hrange rfl)).bind fun _ => Run.Leaves.get.bind fun _ => ?_
    exact (Run.Leaves.act _).bind fun _ => .pure _
  | mapLit s =>
    refine (evalPairs_leaves (hrange rfl)).bind fun _ => Run.Leaves.get.bind fun _ => ?_
    exact (Run.Leaves.act _).bind fun _ => .pure _
  | typeRef name => exact .pureAct _
  | call receiver method args =>
    refine (hdirect List.mem_cons_self).bind fun v => ?_
    exact (Run.Leaves.mapM (hrange rfl)).bind fun values => .act _

/-- The induction is on the fuel, for nodes may need each other in a circle. -/
theorem eval_leaves (j : Job) (fuel : Nat) (id : NodeId) (frame : Nat) :
    (j.eval fuel id frame).Leaves (j.arena.Breaks id) (j.arena.Returns id) := by
  induction fuel generalizing id frame with
  | zero => exact .throw trivial
  | succ fuel ih =>
    unfold eval
    cases hk : j.arena.kind? id with
    | none => exact .throw trivial
    | some kind =>
      have breaks {m : NodeId} (hm : m ∈ kind.exposed j.arena) :
          j.arena.Breaks m → j.arena.Breaks id := by
        rintro ⟨b, hpath, hb⟩
        exact ⟨b, .head ⟨kind, hk, hm⟩ hpath, hb⟩
      have returns {m : NodeId} (hm : kind.Needs j.arena m) :
          j.arena.Returns m → j.arena.Returns id := by
        rintro ⟨r, w, hpath, hr⟩
        exact ⟨r, w, .head ⟨kind, hk, hm⟩ hpath, hr⟩
      refine evalNode_leaves (fun hbrk => ⟨id, .refl, hbrk ▸ hk⟩)
        (fun w hret => ⟨id, w, .refl, hret ▸ hk⟩) (fun m hm inner => ?_) (fun m hm inner => ?_)
        fuel frame
      · exact (ih m inner).mono (breaks hm) (returns (NodeKind.needs_of_mem_exposed hm))
      · exact (ih m inner).mono (fun _ => trivial) (returns hm)

theorem interpret_leaves (j : Job) (fuel : Nat) (head : Option NodeId) (frame : Nat) :
    (j.interpret fuel head frame).Leaves (∃ id ∈ j.arena.chain head, j.arena.Breaks id)
      (∃ id ∈ j.arena.chain head, j.arena.Returns id) :=
  evalChain_leaves fun id hid => (j.eval_leaves fuel id frame).mono (fun h => ⟨id, hid, h⟩)
    fun h => ⟨id, hid, h⟩

end Job

/-! ## Programs -/

namespace Program

/-- In whatever context, frame and machine a node or a chain of a program is evaluated: without a
break outside of loops it does not break off, and without a return it does not return. -/
theorem loops_contain_breaks (p : Program) (e : Environment) (fuel : Nat) (this : Value)
    (frame : Nat) (m : Machine) :
    (∀ id, ¬ p.arena.Breaks id →
        (((p.job e this).eval fuel id frame).run m).1 ≠ .error .broke) ∧
      (∀ head, (∀ id ∈ p.arena.chain head, ¬ p.arena.Breaks id) →
        (((p.job e this).interpret fuel head frame).run m).1 ≠ .error .broke) ∧
      (∀ id, ¬ p.arena.Returns id → ∀ v,
        (((p.job e this).eval fuel id frame).run m).1 ≠ .error (.returned v)) ∧
      ∀ head, (∀ id ∈ p.arena.chain head, ¬ p.arena.Returns id) → ∀ v,
        (((p.job e this).interpret fuel head frame).run m).1 ≠ .error (.returned v) := by
  have node (id : NodeId) := (p.job e this).eval_leaves fuel id frame m
  have chain (head : Option NodeId) := (p.job e this).interpret_leaves fuel head frame m
  refine ⟨?_, ?_, ?_, ?_⟩
  · intro id hid h
    exact hid (node id .broke h)
  · intro head hhead h
    obtain ⟨id, hid, hb⟩ := chain head .broke h
    exact hhead id hid hb
  · intro id hid v h
    exact hid (node id (.returned v) h)
  · intro head hhead v h
    obtain ⟨id, hid, hr⟩ := chain head (.returned v) h
    exact hhead id hid hr

/-- A loop whose body breaks off. -/
def breakingBuilder : Builder :=
  ((do
    let yes ← Builder.node (.literal (.bool true) none)
    let stop ← Builder.node .brk
    let loop ← Builder.node (.whileDo yes (some stop))
    Builder.pushStatement loop : BuildM Unit).run .empty).2

/-- The body breaks off, which is the end of the loop and no more. -/
theorem loops_contain_breaks_breaking :
    ∃ p : Program, breakingBuilder.finish plainOptions = .ok p ∧ p.arena.Breaks 1 ∧
      ¬ p.arena.Breaks 2 ∧ ¬ p.arena.Returns 2 ∧
      (∀ m, (((p.job bareEnvironment .null).eval 1 1 0).run m).1 = .error .broke) ∧
      ∀ (fuel frame : Nat) (m : Machine),
        (((p.job bareEnvironment .null).eval fuel 2 frame).run m).1 ≠ .error .broke ∧
        ((p.interpret bareEnvironment fuel .null frame).run m).1 ≠ .error .broke ∧
        ∀ v, (((p.job bareEnvironment .null).eval fuel 2 frame).run m).1 ≠ .error (.returned v) ∧
          ((p.interpret bareEnvironment fuel .null frame).run m).1 ≠ .error (.returned v) := by
  let p := plain 2 breakingBuilder.arena
  have htest (m : NodeId) (h : p.arena.Exposes 2 m) : m = 0 := by
    obtain ⟨kind, hk, hm⟩ := h
    cases hk
    exact List.mem_singleton.mp hm
  have hleaf (m : NodeId) : ¬ p.arena.Exposes 0 m := by
    rintro ⟨kind, hk, hm⟩
    cases hk
    exact List.not_mem_nil hm
  have hbreaks : ¬ p.arena.Breaks 2 := by
    rintro ⟨b, hpath, hb⟩
    rcases hpath.cases_head with rfl | ⟨m, hm, hrest⟩
    · cases hb
    · obtain rfl := htest m hm
      rcases hrest.cases_head with rfl | ⟨m, hm, -⟩
      · cases hb
      · exact hleaf m hm
  have hreturns : ¬ p.arena.Returns 2 := by
    rintro ⟨r, w, -, hr⟩
    have hmem := Arena.mem_kinds hr
    have hkinds : p.arena.nodes.toList.map (·.kind) =
        [.literal (.bool true) none, .brk, .whileDo 0 (some 1)] := rfl
    simp [hkinds] at hmem
  have hchain (id : NodeId) (hid : id ∈ p.arena.chain p.first) : id = 2 :=
    Arena.mem_chain_of_last rfl hid
  refine ⟨p, rfl, ⟨1, .refl, rfl⟩, hbreaks, hreturns, fun m => rfl, fun fuel frame m => ?_⟩
  obtain ⟨hnode, hprogram, hnode', hprogram'⟩ :=
    p.loops_contain_breaks bareEnvironment fuel .null frame m
  refine ⟨hnode 2 hbreaks, hprogram p.first fun id hid => hchain id hid ▸ hbreaks, fun v => ?_⟩
  exact ⟨hnode' 2 hreturns v, hprogram' p.first (fun id hid => hchain id hid ▸ hreturns) v⟩

end Program

end MeteredScript
