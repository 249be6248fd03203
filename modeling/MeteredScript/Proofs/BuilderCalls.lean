import MeteredScript.Proofs.Program.Inference
import MeteredScript.Proofs.Program.Building
import MeteredScript.Proofs.Program.Ownership

/-!
# Calls that a builder refuses

A refused call changes nothing, with one exception: a sequence is linked step by step, and the links
that it made before the one that is refused stay. They are all that it leaves.
-/

namespace MeteredScript

/-- The two nodes of a link. -/
def Link.ends (l : Link) : NodeId × NodeId := (l.prev, l.next)

namespace Arena

variable {a b c : Arena}

/-- Some links are between the arenas, and nothing else is different. -/
structure Linked (a : Arena) (links : List Link) (b : Arena) : Prop where
  table : b.operandTable = a.operandTable
  nodes : ∀ id : NodeId, b.nodes[id]? = a.nodes[id]?.map fun n =>
    { n with
      next := n.next.or ((links.find? (·.prev = id)).map (·.next))
      linked := n.linked || links.any (·.next = id) }

namespace Linked

theorem refl (a : Arena) : a.Linked [] a := by
  refine ⟨rfl, fun id => ?_⟩
  cases a.nodes[id]? <;> simp

theorem cons {prev next : NodeId} {links : List Link} (h : a.Joined prev next b)
    (h' : b.Linked links c) (d : Arena) : a.Linked (⟨d, prev, next⟩ :: links) c := by
  refine ⟨h'.table.trans h.table, fun id => ?_⟩
  rw [h'.nodes, h.nodes, Option.map_map]
  cases hn : a.nodes[id]? with
  | none => rfl
  | some n =>
    have hlast : prev = id → n.next = none := by
      rintro rfl
      simpa [next?, hn] using h.last
    by_cases hprev : prev = id <;> by_cases hnext : next = id <;>
      simp [hprev, hnext, hlast]

end Linked

theorem linkAll_linked (a : Arena) (ids : List NodeId) :
    a.Linked (a.linksOf ids) (a.linkAll ids) := by
  fun_induction Arena.linkAll a ids with
  | case1 a prev next rest hl ih =>
    rw [linksOf, if_pos hl]
    exact .cons (link_joined hl) ih a
  | case2 a prev next rest hl =>
    rw [linksOf, if_neg hl]
    exact .refl a
  | case3 ids a hne =>
    rw [linksOf.eq_2 _ _ hne]
    exact .refl a

/-- A link that is made shows: the first node of it had no successor. -/
theorem linkAll_eq_self_iff (a : Arena) (ids : List NodeId) :
    a.linkAll ids = a ↔ a.linksOf ids = [] := by
  have hlinked := a.linkAll_linked ids
  constructor
  · intro hsame
    rw [hsame] at hlinked
    fun_cases linksOf a ids with
    | case1 prev next rest hl =>
      have hprev := (linkable hl).prev_lt
      have hlast : a.nodes[prev].next = none := by
        simpa [next?, Array.getElem?_eq_getElem hprev] using (linkable hl).last
      have hnode := hlinked.nodes prev
      rw [linksOf, if_pos hl, Array.getElem?_eq_getElem hprev, Option.map_some] at hnode
      have hnext := congrArg Node.next (Option.some.inj hnode)
      simp [hlast] at hnext
    | case2 => rfl
    | case3 => rfl
  · intro hnone
    fun_cases linkAll a ids with
    | case1 prev next rest hl =>
      rw [linksOf, if_pos hl] at hnone
      exact absurd hnone (List.cons_ne_nil _ _)
    | case2 => rfl
    | case3 => rfl

/-- The links that are made are the first ones of those that are asked for. -/
theorem linksOf_ends (a : Arena) (ids : List NodeId) :
    (a.linksOf ids).map Link.ends <+: ids.zip ids.tail := by
  fun_induction linksOf a ids with
  | case1 a prev next rest hl ih => exact List.prefix_cons_inj _ |>.mpr ih
  | case2 => exact List.nil_prefix
  | case3 => exact List.nil_prefix

end Arena

namespace Builder

/-- A call of a builder, with whatever node numbers. -/
inductive Call where
  | node (kind : NodeKind)
  | range (ids : List NodeId)
  | sequence (ids : List NodeId)
  | pushStatement (id : NodeId)
deriving DecidableEq, Repr

namespace Call

/-- Makes the call and leaves its answer out. -/
def make : Call → BuildM Unit
  | node kind => do let _ ← Builder.node kind
  | range ids => do let _ ← Builder.range ids
  | sequence ids => do let _ ← Builder.sequence ids
  | pushStatement id => Builder.pushStatement id

/-- The links that the call makes, up to the first one that is refused. -/
def links (b : Builder) : Call → List Link
  | node _ | range _ => []
  | sequence ids => b.arena.linksOf ids
  | pushStatement id => b.arena.linksOf (b.last.toList ++ [id])

end Call

/-- Makes calls in order, whether they are refused or not. -/
def makeAll (calls : List Call) (b : Builder) : Builder :=
  calls.foldl (fun b c => (c.make.run b).2) b

/-! ## Refused calls -/

variable {b : Builder} {f : BuildFault}

theorem node_error {kind : NodeKind} (h : ((node kind).run b).1 = .error f) :
    ((node kind).run b).2 = b := by
  unfold node at h ⊢
  rw [run_bind, run_requireKnown] at h ⊢
  cases hf : kind.operands.find? (!b.arena.contains ·) with
  | some m => rfl
  | none =>
    rw [hf] at h
    cases h

theorem range_error {ids : List NodeId} (h : ((range ids).run b).1 = .error f) :
    ((range ids).run b).2 = b := by
  unfold range at h ⊢
  rw [run_bind, run_requireKnown] at h ⊢
  cases hf : ids.find? (!b.arena.contains ·) with
  | some m => rfl
  | none =>
    rw [hf] at h
    dsimp only at h ⊢
    by_cases hlong : Arena.rangeLimit < ids.length
    · rw [if_pos hlong]
      rfl
    · rw [if_neg hlong] at h
      cases h

theorem pushStatement_error {id : NodeId} (h : ((pushStatement id).run b).1 = .error f) :
    ((pushStatement id).run b).2 = b ∧ b.arena.linksOf (b.last.toList ++ [id]) = [] := by
  rcases pushStatement_cases id b with ⟨g, hrun, hrefused⟩ | ⟨-, b', -, -, hrun⟩
  · refine ⟨by rw [hrun], ?_⟩
    cases hlast : b.last with
    | none => rfl
    | some last => simp [Arena.linksOf, hrefused last hlast]
  · simp [hrun] at h

theorem linkAll_error {ids : List NodeId} (h : ((linkAll ids).run b).1 = .error f) :
    (b.arena.linksOf ids).length < (ids.zip ids.tail).length := by
  induction ids generalizing b with
  | nil => cases h
  | cons prev rest ih =>
    cases rest with
    | nil => cases h
    | cons next rest =>
      rw [linkAll, run_bind] at h
      cases hl : b.arena.canLink prev next with
      | true =>
        rw [link_ok hl] at h
        rw [Arena.linksOf, if_pos hl]
        exact Nat.succ_lt_succ (ih h)
      | false =>
        rw [Arena.linksOf, if_neg (by simp [hl])]
        exact Nat.succ_pos _

theorem sequence_error {ids : List NodeId} (h : ((sequence ids).run b).1 = .error f) :
    (b.arena.linksOf ids).length < (ids.zip ids.tail).length := by
  unfold sequence at h
  rcases hrun : (linkAll ids).run b with ⟨g | _, b'⟩
  · exact linkAll_error (congrArg Prod.fst hrun)
  · rw [run_bind, hrun] at h
    cases h

theorem run_discard {α : Type} (x : BuildM α) (b : Builder) :
    (do let _ ← x : BuildM Unit).run b = ((x.run b).1.map fun _ => (), (x.run b).2) := by
  rw [run_bind]
  rcases x.run b with ⟨_ | _, _⟩ <;> rfl

/-- A refused call changed nothing, or it was a sequence. -/
theorem make_error {c : Call} (h : (c.make.run b).1 = .error f) :
    c.links b = [] ∧ (c.make.run b).2 = b ∨
      ∃ ids, c = .sequence ids ∧ (c.make.run b).2 = { b with arena := b.arena.linkAll ids } ∧
        (b.arena.linksOf ids).length < (ids.zip ids.tail).length := by
  have failed {α : Type} {x : BuildM α} (h : ((do let _ ← x : BuildM Unit).run b).1 = .error f) :
      (x.run b).1 = .error f := by
    rw [run_discard] at h
    rcases hx : (x.run b).1 with g | a <;> rw [hx] at h
    · exact congrArg Except.error (Except.error.inj h)
    · cases h
  cases c with
  | node kind =>
    refine .inl ⟨rfl, ?_⟩
    simp only [Call.make, run_discard]
    exact node_error (failed h)
  | range ids =>
    refine .inl ⟨rfl, ?_⟩
    simp only [Call.make, run_discard]
    exact range_error (failed h)
  | sequence ids =>
    refine .inr ⟨ids, rfl, ?_, sequence_error (failed h)⟩
    simp only [Call.make, run_discard, sequence_leaves]
  | pushStatement id => exact .inl (pushStatement_error h).symm

/-- What stays of a refused call are the links that it made before the one that is refused, and it
made none unless it was a sequence. So in every state, whatever numbers a call is given, a call that
is refused leaves the builder as it was just if it made no link, and then any further calls build
what they had built without it. -/
theorem rejected_call (b : Builder) (c : Call) (f : BuildFault)
    (h : (c.make.run b).1 = .error f) :
    ((c.make.run b).2 = { b with arena := (c.make.run b).2.arena } ∧
        b.arena.Linked (c.links b) (c.make.run b).2.arena) ∧
      ((c.make.run b).2 = b ↔ c.links b = []) ∧
      (c.links b ≠ [] → ∃ ids, c = .sequence ids ∧
        (c.links b).map Link.ends <+: ids.zip ids.tail ∧
        (c.links b).length < (ids.zip ids.tail).length) ∧
      (c.links b = [] → ∀ calls options,
        (makeAll (c :: calls) b).finish options = (makeAll calls b).finish options) := by
  rcases make_error h with ⟨hnone, hsame⟩ | ⟨ids, rfl, hleaves, hfewer⟩
  · rw [hsame, hnone]
    refine ⟨⟨rfl, .refl _⟩, by simp, fun hne => absurd rfl hne, fun _ calls options => ?_⟩
    rw [makeAll, List.foldl_cons, hsame, makeAll]
  · have hself : (Call.sequence ids).links b = [] ↔ ((Call.sequence ids).make.run b).2 = b := by
      rw [hleaves, Call.links, ← b.arena.linkAll_eq_self_iff]
      constructor
      · intro h
        rw [h]
      · intro h
        exact congrArg Builder.arena h
    refine ⟨?_, hself.symm, fun _ => ⟨ids, rfl, b.arena.linksOf_ends ids, hfewer⟩,
      fun hnone calls options => ?_⟩
    · rw [hleaves]
      exact ⟨rfl, b.arena.linkAll_linked ids⟩
    · rw [makeAll, List.foldl_cons, hself.mp hnone, makeAll]

/-! ### A sequence that ends at a node that is not there -/

def twoNodes : Builder := makeAll [.node .this, .node .this] .empty

/-- A sequence that is refused at its first node leaves no trace. -/
theorem rejected_call_at_once :
    ((Call.sequence [7, 0, 1]).make.run twoNodes).1 = .error (.unknownNode 7) ∧
      ((Call.sequence [7, 0, 1]).make.run twoNodes).2 = twoNodes ∧
      ∀ options,
        (makeAll [.sequence [7, 0, 1], .pushStatement 0] twoNodes).finish options =
          (makeAll [.pushStatement 0] twoNodes).finish options := by
  have h : ((Call.sequence [7, 0, 1]).make.run twoNodes).1 = .error (.unknownNode 7) := rfl
  obtain ⟨-, hsame, -, hbuilt⟩ := rejected_call twoNodes (.sequence [7, 0, 1]) (.unknownNode 7) h
  have hnone : (Call.sequence [7, 0, 1]).links twoNodes = [] := rfl
  exact ⟨h, hsame.mpr hnone, hbuilt hnone [.pushStatement 0]⟩

/-- The sequence is refused, and its first two nodes stay linked: the program of the first node is
one of two statements. -/
theorem sequence_half_linked :
    ((Call.sequence [0, 1, 7]).make.run twoNodes).1 = .error (.unknownNode 7) ∧
      ((Call.sequence [0, 1, 7]).make.run twoNodes).2 ≠ twoNodes ∧
      (makeAll [.sequence [0, 1, 7], .pushStatement 0] twoNodes).arena.chain (some 0) = [0, 1] ∧
      (makeAll [.pushStatement 0] twoNodes).arena.chain (some 0) = [0] :=
  ⟨rfl, by decide, rfl, rfl⟩

end Builder

end MeteredScript
