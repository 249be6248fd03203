import MeteredScript.Proofs.Evaluation.Folding
import MeteredScript.Proofs.Program.Building

/-!
# Inferred types

The type of a node is inferred when the node is added. Its operands are there before it and keep
their types, so what was inferred then is what would be inferred ever after. Under strong typing a
program has no node whose declared type is known not to fit.
-/

namespace MeteredScript

namespace NodeKind

theorem mem_operands_of_direct {kind : NodeKind} {m : NodeId} (h : m ∈ kind.direct) :
    m ∈ kind.operands := by
  rw [operands_eq]
  exact List.mem_append_left _ h

end NodeKind

namespace Arena

variable {a b : Arena}

/-- Every node has the type that is inferred from its operands, which are there. -/
structure Inferred (a : Arena) : Prop where
  operands : ∀ {id : NodeId} {kind : NodeKind}, a.kind? id = some kind →
    ∀ m ∈ kind.operands, m < a.size
  egress : ∀ {id : NodeId} {kind : NodeKind}, a.kind? id = some kind → a.egress id = a.infer kind

/-- Inference looks at the types of operands alone. -/
theorem infer_congr {kind : NodeKind} (h : ∀ m ∈ kind.direct, b.egress m = a.egress m) :
    b.infer kind = a.infer kind := by
  cases kind <;> simp_all [infer, NodeKind.direct]

theorem egress_push (a : Arena) (kind : NodeKind) (id : NodeId) :
    (a.push kind).2.egress id = if id = a.size then a.infer kind else a.egress id := by
  unfold egress push size
  rw [Array.getElem?_push]
  split <;> rfl

theorem egress_pushRange (a : Arena) (ids : List NodeId) (id : NodeId) :
    (a.pushRange ids).2.egress id = a.egress id := by
  rw [egress, nodes_pushRange, egress]

theorem egress_link {prev next : NodeId} (h : a.canLink prev next = true) (id : NodeId) :
    (a.link prev next).2.egress id = a.egress id := by
  unfold egress
  rw [getElem?_link h, Option.map_map]
  rfl

namespace Inferred

theorem empty : Arena.empty.Inferred := by
  constructor <;> simp [kind?, Arena.empty]

/-- What changes neither nodes nor types changes nothing that is inferred. -/
theorem congr (h : a.Inferred) (hsize : b.size = a.size) (hkind : ∀ id, b.kind? id = a.kind? id)
    (htype : ∀ id, b.egress id = a.egress id) : b.Inferred := by
  constructor
  · intro id kind hk
    rw [hsize]
    exact h.operands (hkind id ▸ hk)
  · intro id kind hk
    rw [htype, infer_congr fun m _ => htype m]
    exact h.egress (hkind id ▸ hk)

theorem push (h : a.Inferred) {kind : NodeKind} (hk : ∀ m ∈ kind.operands, m < a.size) :
    (a.push kind).2.Inferred := by
  -- The types of all operands are as they were, those of the new node included.
  have old {k : NodeKind} (hops : ∀ m ∈ k.operands, m < a.size) :
      (a.push kind).2.infer k = a.infer k := by
    refine infer_congr fun m hm => ?_
    have hlt := hops m (NodeKind.mem_operands_of_direct hm)
    rw [egress_push, if_neg (Nat.ne_of_lt hlt)]
  constructor
  · intro id k hid m hm
    rw [kind?_push] at hid
    rw [size_push]
    split at hid
    · exact Nat.lt_succ_of_lt (hk m (Option.some.inj hid ▸ hm))
    · exact Nat.lt_succ_of_lt (h.operands hid m hm)
  · intro id k hid
    rw [kind?_push] at hid
    rw [egress_push]
    split at hid
    · next heq =>
      rw [if_pos heq, ← Option.some.inj hid, old hk]
    · next hne =>
      rw [if_neg hne, h.egress hid, old (h.operands hid)]

theorem pushRange (h : a.Inferred) (ids : List NodeId) : (a.pushRange ids).2.Inferred :=
  h.congr (size_pushRange a ids) (kind?_pushRange a ids) (egress_pushRange a ids)

theorem link (h : a.Inferred) {prev next : NodeId} (hl : a.canLink prev next = true) :
    (a.link prev next).2.Inferred :=
  h.congr (size_link hl) (kind?_link hl) (egress_link hl)

theorem linkAll (h : a.Inferred) (ids : List NodeId) : (a.linkAll ids).Inferred := by
  fun_induction Arena.linkAll a ids with
  | case1 a prev next rest hl ih => exact ih (h.link hl)
  | case2 => exact h
  | case3 => exact h

end Inferred

end Arena

namespace Builder

/-- What calls leave of a builder, whatever they are given. -/
inductive Reached : Builder → Prop
  | empty : Reached .empty
  | node {b : Builder} (h : Reached b) (kind : NodeKind) : Reached ((Builder.node kind).run b).2
  | range {b : Builder} (h : Reached b) (ids : List NodeId) : Reached ((Builder.range ids).run b).2
  | sequence {b : Builder} (h : Reached b) (ids : List NodeId) :
      Reached ((Builder.sequence ids).run b).2
  | pushStatement {b : Builder} (h : Reached b) (id : NodeId) :
      Reached ((Builder.pushStatement id).run b).2

theorem Reached.inferred {b : Builder} (h : Reached b) : b.arena.Inferred := by
  induction h with
  | empty => exact .empty
  | @node b _ kind ih =>
    rcases node_leaves kind b with hb | ⟨hops, hb⟩
    · rwa [hb]
    · rw [hb]
      exact ih.push hops
  | @range b _ ids ih =>
    rcases range_leaves ids b with hb | ⟨-, hb⟩
    · rwa [hb]
    · rw [hb]
      exact ih.pushRange ids
  | @sequence b _ ids ih =>
    rw [sequence_leaves]
    exact ih.linkAll ids
  | @pushStatement b _ id ih =>
    rw [(pushStatement_leaves id b).1]
    exact ih.linkAll _

end Builder

namespace Program

variable {b : Builder} {options : BuildOptions} {p : Program}

theorem inferred_of_finish (h : b.Reached) (hp : b.finish options = .ok p) : p.arena.Inferred :=
  (finish_ok hp).1 ▸ h.inferred

/-- Under strong typing no node of a program has a type fault. -/
theorem typeFault?_of_finish (hp : b.finish options = .ok p) (hs : options.strongTyping = true)
    {id : NodeId} {kind : NodeKind} (hk : p.arena.kind? id = some kind) :
    Builder.typeFault? p.arena kind = none := by
  rw [(finish_ok hp).1] at hk ⊢
  unfold Builder.finish at hp
  dsimp only at hp
  rw [if_pos hs] at hp
  split at hp
  · cases hp
  · next hnone => exact List.findSome?_eq_none_iff.mp hnone kind (Arena.mem_kinds hk)

/-- The type of a program of one statement is that of the statement. -/
theorem egress_of_finish (hp : b.finish options = .ok p) {id : NodeId} (hs : p.single? = some id) :
    p.egress = p.arena.egress id := by
  unfold Builder.finish at hp
  dsimp only at hp
  split at hp
  · cases hp
  · obtain rfl := Except.ok.inj hp
    have hsingle : (b.first.filter fun id => (b.arena.next? id).isNone) = some id := hs
    dsimp only
    rw [hsingle]

end Program

end MeteredScript
