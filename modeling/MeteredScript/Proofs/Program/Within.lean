import MeteredScript.Evaluation
import MeteredScript.Program.Display
import MeteredScript.Proofs.Evaluation.Running
import MeteredScript.Proofs.Program.Needs

/-!
# What is read of an arena

An arena can be the beginning of a larger one. What is read inside of its bounds is the same there,
whatever stands behind the end; what differs has been read outside. Evaluations and texts are made of
the nodes that a node needs, so that of a closed arena they read nothing outside.
-/

namespace MeteredScript

namespace Arena

/-- The nodes and the operand table of an arena are those that another one begins with. -/
structure Within (a b : Arena) : Prop where
  nodes : a.nodes.toList <+: b.nodes.toList
  table : a.operandTable.toList <+: b.operandTable.toList

/-- All that is read of the arena stands inside of it: with anything whatever behind the end, the
answer is the same. -/
def ReadsInside {α : Type} (a : Arena) (read : Arena → α) : Prop :=
  ∀ b, a.Within b → read b = read a

namespace Within

variable {a b : Arena} (h : a.Within b)

include h

theorem size_le : a.size ≤ b.size := h.nodes.length_le

section Node

variable {id : NodeId} (hid : id < a.size)

include hid

theorem getElem? : b.nodes[id]? = a.nodes[id]? := by
  obtain ⟨more, hmore⟩ := h.nodes
  rw [← Array.getElem?_toList, ← hmore, List.getElem?_append_left hid, Array.getElem?_toList]

theorem kind? : b.kind? id = a.kind? id := by
  rw [Arena.kind?, h.getElem? hid, Arena.kind?]

theorem next? : b.next? id = a.next? id := by
  rw [Arena.next?, h.getElem? hid, Arena.next?]

theorem egress : b.egress id = a.egress id := by
  rw [Arena.egress, h.getElem? hid, Arena.egress]

theorem isLinked : b.isLinked id = a.isLinked id := by
  rw [Arena.isLinked, h.getElem? hid, Arena.isLinked]

end Node

/-- A walk on nodes of the arena is the same walk in the larger one. -/
theorem walk {head : Option NodeId} {ids : List NodeId} (hw : a.Walk head ids)
    (hinside : ∀ id ∈ ids, id < a.size) : b.Walk head ids := by
  induction hw with
  | done => exact .done
  | @step id rest _ ih =>
    have hid := hinside id List.mem_cons_self
    exact .step (h.next? hid ▸ ih fun m hm => hinside m (List.mem_cons_of_mem _ hm))

theorem chain (ha : a.Linear) {head : Option NodeId} (hhead : ∀ id, head = some id → id < a.size) :
    b.chain head = a.chain head := by
  cases head with
  | none => rw [chain_none, chain_none]
  | some id =>
    have hid := hhead id rfl
    have hw := ha.walk_chain hid
    have hlength := ha.length_walk_le hid hw
    exact (h.walk hw fun _ hm => ha.chain_lt hhead hm).chain_eq (Nat.le_trans hlength h.size_le)

end Within

end Arena

/-! ## Evaluations -/

namespace Job

variable {j j' : Job} {ev ev' : Evaluator}

theorem evalTest_congr {id : NodeId} (hev : ev' id = ev id) (frame : Nat) :
    evalTest ev' id frame = evalTest ev id frame := by
  unfold evalTest
  rw [hev]

section Chain

variable {head : Option NodeId} (hchain : j'.arena.chain head = j.arena.chain head)
  (hev : ∀ id ∈ j.arena.chain head, ev' id = ev id) (frame : Nat)

include hchain hev

theorem evalChain_congr : j'.evalChain ev' head frame = j.evalChain ev head frame := by
  unfold evalChain
  rw [hchain]
  generalize j.arena.chain head = ids at hev
  generalize Value.null = start
  induction ids generalizing start with
  | nil => rfl
  | cons id rest ih =>
    rw [List.foldlM_cons, List.foldlM_cons, hev id List.mem_cons_self]
    exact bind_congr fun v => ih (fun m hm => hev m (List.mem_cons_of_mem _ hm)) v

theorem evalBlock_congr : j'.evalBlock ev' head frame = j.evalBlock ev head frame := by
  cases head with
  | none => rfl
  | some id => exact bind_congr fun inner => evalChain_congr hchain hev inner

end Chain

section Range

variable {ids : List NodeId} (hev : ∀ id ∈ ids, ev' id = ev id) (frame : Nat)

include hev

theorem evalAll_congr : evalAll ev' ids frame = evalAll ev ids frame := by
  unfold evalAll
  induction ids with
  | nil => rfl
  | cons id rest ih =>
    rw [List.mapM_cons, List.mapM_cons, hev id List.mem_cons_self,
      ih fun m hm => hev m (List.mem_cons_of_mem _ hm)]

theorem evalPairs_congr : evalPairs ev' frame ids = evalPairs ev frame ids := by
  induction ids using evalPairs.induct with
  | case1 => rfl
  | case2 k => rw [evalPairs, evalPairs, hev k List.mem_cons_self]
  | case3 k v rest ih =>
    rw [evalPairs, evalPairs, hev k List.mem_cons_self,
      hev v (List.mem_cons_of_mem _ List.mem_cons_self),
      ih fun m hm => hev m (List.mem_cons_of_mem _ (List.mem_cons_of_mem _ hm))]

end Range

/-- The evaluation of a node is made of the chains that are nested in it, its range, and the
evaluation of the nodes that it needs. -/
theorem evalNode_congr {kind : NodeKind} (henvironment : j'.environment = j.environment)
    (hthis : j'.this = j.this)
    (hchain : ∀ head : Option NodeId, head.toList ⊆ kind.heads →
      j'.arena.chain head = j.arena.chain head)
    (hrange : ∀ r, kind.range? = some r → j'.arena.operands r = j.arena.operands r)
    (hev : ∀ m, kind.Needs j.arena m → ev' m = ev m) (fuel frame : Nat) :
    j'.evalNode ev' fuel frame kind = j.evalNode ev fuel frame kind := by
  have hnames : j'.names = j.names := congrArg Environment.names henvironment
  have chain {head : Option NodeId} (hhead : head.toList ⊆ kind.heads) (frame : Nat) :
      j'.evalChain ev' head frame = j.evalChain ev head frame :=
    evalChain_congr (hchain head hhead) (fun m hm => hev m (.of_chain hhead hm)) frame
  have block {head : Option NodeId} (hhead : head.toList ⊆ kind.heads) :
      j'.evalBlock ev' head frame = j.evalBlock ev head frame :=
    evalBlock_congr (hchain head hhead) (fun m hm => hev m (.of_chain hhead hm)) frame
  have all {r : NodeRange} (hr : kind.range? = some r) :
      evalAll ev' (j'.arena.operands r) frame = evalAll ev (j.arena.operands r) frame := by
    rw [hrange r hr]
    exact evalAll_congr (fun m hm => hev m (.element hr hm)) frame
  cases kind with
  | literal value declared =>
    have hliteral : j'.literal value = j.literal value := by
      cases value <;> simp only [literal, hnames]
    simp only [evalNode, hliteral]
  | this => simp only [evalNode, hthis]
  | var name => simp only [evalNode, hnames]
  | declare name type init =>
    simp only [evalNode, hnames, hev init (.operand List.mem_cons_self)]
  | declareAt slot name type init =>
    simp only [evalNode, hnames, hev init (.operand List.mem_cons_self)]
  | assign name value => simp only [evalNode, hnames, hev value (.operand List.mem_cons_self)]
  | binary op left right =>
    have hleft := hev left (.operand List.mem_cons_self)
    have hright := hev right (.operand (List.mem_cons_of_mem _ List.mem_cons_self))
    cases op <;> simp only [evalNode, evalTest_congr hleft, evalTest_congr hright, hleft, hright]
  | not operand =>
    simp only [evalNode, evalTest_congr (hev operand (.operand List.mem_cons_self))]
  | cond test onTrue onFalse =>
    simp only [evalNode, evalTest_congr (hev test (.operand List.mem_cons_self))]
    refine bind_congr fun taken => ?_
    cases taken with
    | true => exact block (List.subset_append_left _ _)
    | false => exact block (List.subset_append_right _ _)
  | block body => exact block (List.Subset.refl _)
  | doWhile body test =>
    simp only [evalNode, evalTest_congr (hev test (.operand List.mem_cons_self)),
      chain (List.Subset.refl _)]
  | whileDo test body =>
    simp only [evalNode, evalTest_congr (hev test (.operand List.mem_cons_self)),
      chain (List.Subset.refl _)]
  | forEach item iterable body =>
    simp only [evalNode, hnames, hev iterable (.operand List.mem_cons_self),
      chain (List.Subset.refl _)]
  | ret value => simp only [evalNode, hev value (.operand List.mem_cons_self)]
  | brk => rfl
  | listLit r => simp only [evalNode, all rfl]
  | mapLit r =>
    simp only [evalNode, hrange r rfl, evalPairs_congr fun m hm => hev m (.element rfl hm)]
  | setLit r => simp only [evalNode, all rfl]
  | typeRef name => simp only [evalNode, henvironment]
  | call receiver method args =>
    simp only [evalNode, henvironment, hev receiver (.operand List.mem_cons_self), all rfl]

end Job

namespace Arena

variable {a b : Arena}

namespace Within

variable (h : a.Within b) (ha : a.Closed)

include h ha

theorem nested {kind : NodeKind} (hk : kind.Inside a) {head : Option NodeId}
    (hhead : head.toList ⊆ kind.heads) : b.chain head = a.chain head :=
  h.chain ha.toLinear fun _ hid => hk.head_lt (hhead (Option.mem_toList.mpr hid))

/-- The evaluation of a node of the arena, with any fuel. -/
theorem eval (e : Environment) (this : Value) (fuel : Nat) {id : NodeId} (hid : id < a.size) :
    (Job.mk e b this).eval fuel id = (Job.mk e a this).eval fuel id := by
  funext frame
  induction fuel generalizing id frame with
  | zero => rfl
  | succ fuel ih =>
    simp only [Job.eval, h.kind? hid]
    cases hk : a.kind? id with
    | none => rfl
    | some kind =>
      have hin := ha.kinds hk
      have hoperands r (hr : kind.range? = some r) := operands_grow h.table (hin.range r hr)
      have hsame : (Job.mk e b this).environment = (Job.mk e a this).environment := rfl
      refine Job.evalNode_congr hsame rfl (fun head hhead => h.nested ha hin hhead) hoperands
        (fun m hm => ?_) fuel frame
      exact funext fun frame => ih (ha.needs_lt hin hm) frame

end Within

/-- The evaluation of a chain of statements. -/
theorem Closed.interpret_readsInside (ha : a.Closed) {head : Option NodeId}
    (hhead : ∀ id, head = some id → id < a.size) (e : Environment) (this : Value) (fuel frame : Nat) :
    a.ReadsInside fun a => (Job.mk e a this).interpret fuel head frame := by
  intro b h
  refine Job.evalChain_congr (h.chain ha.toLinear hhead) (fun id hid => ?_) frame
  exact h.eval ha e this fuel (ha.chain_lt hhead hid)

/-! ## Texts -/

section Text

variable (h : a.Within b) (ha : a.Closed)

include h ha

/-- The text of a node of the arena, to any depth. -/
theorem Within.displayTo (names : Interner) (depth : Nat) {id : NodeId} (hid : id < a.size) :
    b.displayTo names depth id = a.displayTo names depth id := by
  induction depth generalizing id with
  | zero => rfl
  | succ depth ih =>
    simp only [Arena.displayTo, h.kind? hid]
    cases hk : a.kind? id with
    | none => rfl
    | some kind =>
      have hin := ha.kinds hk
      have operand {m : NodeId} (hm : m ∈ kind.direct) := ih (ha.needs_lt hin (.operand hm))
      have block {head : Option NodeId} (hhead : head.toList ⊆ kind.heads) :
          (b.chain head).map (fun id => b.displayTo names depth id ++ "; ") =
            (a.chain head).map fun id => a.displayTo names depth id ++ "; " := by
        rw [h.nested ha hin hhead]
        exact List.map_congr_left fun m hm =>
          congrArg (· ++ "; ") (ih (ha.needs_lt hin (.of_chain hhead hm)))
      have range {r : NodeRange} (hr : kind.range? = some r) :
          (b.operands r).map (b.displayTo names depth) =
            (a.operands r).map (a.displayTo names depth) := by
        rw [operands_grow h.table (hin.range r hr)]
        exact List.map_congr_left fun m hm => ih (ha.needs_lt hin (.element hr hm))
      cases kind with
      | literal | this | var | brk | typeRef => rfl
      | declare | declareAt | assign | not | ret => simp only [operand List.mem_cons_self]
      | binary op left right =>
        simp only [operand List.mem_cons_self,
          operand (List.mem_cons_of_mem _ List.mem_cons_self)]
      | cond test onTrue onFalse =>
        simp only [operand List.mem_cons_self, block (List.subset_append_left _ _),
          block (List.subset_append_right _ _)]
      | block body => simp only [block (List.Subset.refl _)]
      | doWhile | whileDo | forEach =>
        simp only [operand List.mem_cons_self, block (List.Subset.refl _)]
      | listLit | mapLit | setLit => simp only [range rfl]
      | call => simp only [operand List.mem_cons_self, range rfl]

end Text

end Arena

end MeteredScript
