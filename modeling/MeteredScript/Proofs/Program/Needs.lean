import MeteredScript.Program.Builder
import MeteredScript.Proofs.Program.Chains

/-!
# What the evaluation of a node needs

A node needs its operands, the elements of its range, and the statements of its nested chains. A new
node needs nodes that are there already, but a link can add to chains that are the bodies of nodes:
then these nodes need more than they did.
-/

namespace MeteredScript

open Relation (ReflTransGen TransGen)

namespace NodeKind

/-- The operands without the heads of nested chains. -/
def direct : NodeKind → List NodeId
  | literal .. | this | var _ | brk | listLit _ | mapLit _ | setLit _ | typeRef _ | block _ => []
  | declare _ _ init | declareAt _ _ _ init => [init]
  | assign _ value | ret value | not value => [value]
  | binary _ left right => [left, right]
  | cond test _ _ | doWhile _ test | whileDo test _ => [test]
  | forEach _ iterable _ => [iterable]
  | call receiver _ _ => [receiver]

/-- The heads of nested chains. -/
def heads : NodeKind → List NodeId
  | cond _ onTrue onFalse => onTrue.toList ++ onFalse.toList
  | block body | doWhile body _ | whileDo _ body | forEach _ _ body => body.toList
  | _ => []

theorem operands_eq (kind : NodeKind) : kind.operands = kind.direct ++ kind.heads := by
  cases kind <;> simp [operands, direct, heads]

/-- The evaluation of a node of this kind may evaluate another one directly. -/
inductive Needs (a : Arena) (kind : NodeKind) (m : NodeId) : Prop
  | operand (mem : m ∈ kind.direct)
  | element {r : NodeRange} (range : kind.range? = some r) (mem : m ∈ a.operands r)
  | statement {head : NodeId} (nested : head ∈ kind.heads) (mem : m ∈ a.chain (some head))

theorem Needs.of_chain {a : Arena} {kind : NodeKind} {head : Option NodeId} {m : NodeId}
    (hhead : head.toList ⊆ kind.heads) (hm : m ∈ a.chain head) : kind.Needs a m := by
  cases head with
  | none => exact absurd hm (by simp [Arena.chain_none])
  | some head => exact .statement (hhead (List.mem_singleton_self head)) hm

/-- A chain of the arena that is nested in a node of this kind contains another one. -/
def Runs (a : Arena) (kind : NodeKind) (m : NodeId) : Prop :=
  ∃ head ∈ kind.heads, m ∈ a.chain (some head)

/-- The node is made of what is there: operands, and a range of the operand table. -/
structure Inside (a : Arena) (kind : NodeKind) : Prop where
  operands : ∀ m ∈ kind.operands, m < a.size
  range : ∀ r, kind.range? = some r → r.start + r.length ≤ a.operandTable.size

theorem Inside.head_lt {a : Arena} {kind : NodeKind} (h : kind.Inside a) {head : NodeId}
    (hh : head ∈ kind.heads) : head < a.size :=
  h.operands head (kind.operands_eq ▸ List.mem_append_right _ hh)

end NodeKind

namespace Arena

def Needs (a : Arena) (n m : NodeId) : Prop := ∃ kind, a.kind? n = some kind ∧ kind.Needs a m

def Runs (a : Arena) (n m : NodeId) : Prop := ∃ kind, a.kind? n = some kind ∧ kind.Runs a m

/-- Everything that is named in the arena is part of it. -/
structure Closed (a : Arena) : Prop extends a.Linear where
  kinds : ∀ {n : NodeId} {kind : NodeKind}, a.kind? n = some kind → kind.Inside a
  table : ∀ m ∈ a.operandTable, m < a.size

variable {a : Arena} {prev next : NodeId}

namespace Closed

theorem empty : Arena.empty.Closed := by
  refine ⟨.empty, ?_, ?_⟩
  · intro n kind h
    simp [kind?, Arena.empty] at h
  · intro m hm
    simp [Arena.empty] at hm

theorem needs_lt (h : a.Closed) {kind : NodeKind} (hk : kind.Inside a) {m : NodeId}
    (hm : kind.Needs a m) : m < a.size := by
  cases hm with
  | operand mem => exact hk.operands m (kind.operands_eq ▸ List.mem_append_left _ mem)
  | element range mem =>
    obtain ⟨i, _, hi⟩ := Array.mem_extract_iff_getElem.mp (Array.mem_toList_iff.mp mem)
    exact h.table m (hi ▸ Array.getElem_mem _)
  | statement nested mem =>
    exact h.chain_lt (fun _ hid => Option.some.inj hid ▸ hk.head_lt nested) mem

end Closed

/-- Of a node that was there before, growth of the arena without links changes nothing. -/
theorem Closed.needs_grow {b : Arena} (h : a.Closed) (same : b.Follows = a.Follows)
    (grown : a.size ≤ b.size) {kind : NodeKind} (hk : kind.Inside a)
    (ho : ∀ r, kind.range? = some r → b.operands r = a.operands r) (m : NodeId) :
    kind.Needs b m ↔ kind.Needs a m := by
  have hchain {head : NodeId} (hh : head ∈ kind.heads) :=
    h.mem_chain_grow same grown (hk.head_lt hh) m
  constructor
  · rintro (mem | ⟨range, mem⟩ | ⟨nested, mem⟩)
    · exact .operand mem
    · exact .element range (ho _ range ▸ mem)
    · exact .statement nested ((hchain nested).mp mem)
  · rintro (mem | ⟨range, mem⟩ | ⟨nested, mem⟩)
    · exact .operand mem
    · exact .element range (ho _ range ▸ mem)
    · exact .statement nested ((hchain nested).mpr mem)

theorem mem_kinds {n : NodeId} {kind : NodeKind} (h : a.kind? n = some kind) :
    kind ∈ a.nodes.toList.map (·.kind) := by
  obtain ⟨node, hn, rfl⟩ := Option.map_eq_some_iff.mp h
  exact List.mem_map_of_mem (Array.mem_toList_iff.mpr (Array.mem_of_getElem? hn))

theorem kind?_lt {n : NodeId} {kind : NodeKind} (h : a.kind? n = some kind) : n < a.size := by
  obtain ⟨node, hn, -⟩ := Option.map_eq_some_iff.mp h
  exact (Array.getElem?_eq_some_iff.mp hn).1

theorem Closed.grounded_iff (h : a.Closed) : Grounded a.Needs ↔ ∀ n, ¬ TransGen a.Needs n n := by
  refine ⟨Grounded.no_circle, Grounded.of_no_circle (Set.finite_lt_nat a.size) ?_⟩
  rintro n m ⟨kind, hk, hm⟩
  exact ⟨kind?_lt hk, h.needs_lt (h.kinds hk) hm⟩

/-! ## New nodes -/

section Push

variable (h : a.Closed) {kind : NodeKind} (hk : kind.Inside a)

include h hk

theorem Closed.push : (a.push kind).2.Closed := by
  have grown : a.size ≤ (a.push kind).2.size := a.size_push kind ▸ Nat.le_succ _
  refine ⟨h.grow (a.follows_push kind) grown, fun {n k} hn => ?_, fun m hm => ?_⟩
  · have hin : k.Inside a := by
      rw [kind?_push] at hn
      split at hn
      · exact Option.some.inj hn ▸ hk
      · exact h.kinds hn
    exact ⟨fun m hm => Nat.lt_of_lt_of_le (hin.operands m hm) grown, hin.range⟩
  · exact Nat.lt_of_lt_of_le (h.table m hm) grown

theorem needs_push (n m : NodeId) :
    (a.push kind).2.Needs n m ↔ a.Needs n m ∨ n = a.size ∧ kind.Needs a m := by
  have grown : a.size ≤ (a.push kind).2.size := a.size_push kind ▸ Nat.le_succ _
  have old {k : NodeKind} (hin : k.Inside a) : k.Needs (a.push kind).2 m ↔ k.Needs a m :=
    h.needs_grow (a.follows_push kind) grown hin (fun _ _ => rfl) m
  unfold Needs
  rw [kind?_push]
  by_cases hn : n = a.size
  · subst hn
    have hnone : a.kind? a.size = none :=
      Option.eq_none_iff_forall_ne_some.mpr fun k hk => Nat.lt_irrefl _ (kind?_lt hk)
    simp [hnone, old hk]
  · simp only [hn, if_false, false_and, or_false]
    exact exists_congr fun k => and_congr_right fun hk => old (h.kinds hk)

/-- Nothing that was there before needs a new node. -/
theorem grounded_push : Grounded (a.push kind).2.Needs ↔ Grounded a.Needs := by
  rw [Grounded.join_iff (needs_push h hk)]
  refine and_iff_left fun c o hc ho hpath => ?_
  subst ho
  rcases hpath.cases_tail with hc' | ⟨n, -, hn⟩
  · exact Nat.lt_irrefl _ (hc' ▸ h.needs_lt hk hc)
  · obtain ⟨k, hk, hn⟩ := hn
    exact Nat.lt_irrefl _ (h.needs_lt (h.kinds hk) hn)

end Push

/-! ## New ranges -/

theorem operandTable_pushRange (a : Arena) (ids : List NodeId) :
    (a.pushRange ids).2.operandTable.toList = a.operandTable.toList ++ ids := by
  unfold pushRange
  split
  · next hids => simp [List.isEmpty_iff.mp hids]
  · simp

/-- A range of the operand table stays the same when the table grows behind it. -/
theorem operands_grow {b : Arena} (h : a.operandTable.toList <+: b.operandTable.toList)
    {r : NodeRange} (hr : r.start + r.length ≤ a.operandTable.size) :
    b.operands r = a.operands r := by
  obtain ⟨more, hmore⟩ := h
  have hdrop : r.start ≤ a.operandTable.toList.length := by rw [Array.length_toList]; omega
  have htake : r.length ≤ (a.operandTable.toList.drop r.start).length := by
    rw [List.length_drop, Array.length_toList]
    omega
  simp only [operands, Array.toList_extract, ← hmore, List.extract_eq_take_drop,
    List.drop_append_of_le_length hdrop, Nat.add_sub_cancel_left,
    List.take_append_of_le_length htake]

theorem table_pushRange (a : Arena) (ids : List NodeId) :
    a.operandTable.toList <+: (a.pushRange ids).2.operandTable.toList :=
  ⟨ids, (a.operandTable_pushRange ids).symm⟩

section PushRange

variable (h : a.Closed) (ids : List NodeId)

include h

theorem Closed.pushRange (hids : ∀ m ∈ ids, m < a.size) : (a.pushRange ids).2.Closed := by
  have hlonger : a.operandTable.size ≤ (a.pushRange ids).2.operandTable.size :=
    (table_pushRange a ids).length_le
  refine ⟨h.grow (a.follows_pushRange ids) (Nat.le_of_eq (a.size_pushRange ids).symm),
    fun {n k} hn => ?_, fun m hm => ?_⟩
  · rw [kind?_pushRange] at hn
    constructor
    · rw [size_pushRange]
      exact (h.kinds hn).operands
    · exact fun r hr => Nat.le_trans ((h.kinds hn).range r hr) hlonger
  · rw [size_pushRange]
    rw [← Array.mem_toList_iff, operandTable_pushRange, List.mem_append, Array.mem_toList_iff] at hm
    exact hm.elim (h.table m) (hids m)

theorem needs_pushRange : (a.pushRange ids).2.Needs = a.Needs := by
  funext n m
  unfold Needs
  rw [kind?_pushRange]
  refine propext (exists_congr fun k => and_congr_right fun hk => ?_)
  have grown : a.size ≤ (a.pushRange ids).2.size := Nat.le_of_eq (a.size_pushRange ids).symm
  refine h.needs_grow (a.follows_pushRange ids) grown (h.kinds hk) (fun r hr => ?_) m
  exact operands_grow (table_pushRange a ids) ((h.kinds hk).range r hr)

end PushRange

end Arena

/-! ## New links -/

/-- A link that is made in an arena. -/
structure Link where
  arena : Arena
  prev : NodeId
  next : NodeId

/-- Nothing that is needed from the second chain on runs a chain that the first node is the end
of. -/
def Link.Open (l : Link) : Prop :=
  ∀ m ∈ l.arena.chain (some l.next), ∀ n, l.arena.Runs n l.prev → ¬ ReflTransGen l.arena.Needs m n

/-- A node on no nested chain may be linked to any other one. -/
theorem Link.open_of_not_runs {l : Link} (h : ∀ n, ¬ l.arena.Runs n l.prev) : l.Open :=
  fun _ _ n hn => absurd hn (h n)

namespace Arena

section Link

variable {a : Arena} {prev next : NodeId} (h : a.Closed) (hl : a.canLink prev next = true)

include h hl

theorem Closed.link : (a.link prev next).2.Closed := by
  refine ⟨h.toLinear.link hl, fun {n k} hn => ?_, ?_⟩
  · rw [kind?_link hl] at hn
    have hin := h.kinds hn
    constructor
    · rw [size_link hl]
      exact hin.operands
    · rw [operandTable_link hl]
      exact hin.range
  · rw [operandTable_link hl, size_link hl]
    exact h.table

theorem needs_link (n m : NodeId) : (a.link prev next).2.Needs n m ↔
    a.Needs n m ∨ a.Runs n prev ∧ m ∈ a.chain (some next) := by
  have hoperands (r : NodeRange) : (a.link prev next).2.operands r = a.operands r := by
    unfold operands
    rw [operandTable_link hl]
  unfold Needs Runs
  rw [kind?_link hl]
  constructor
  · rintro ⟨kind, hk, mem | ⟨range, mem⟩ | @⟨head, nested, mem⟩⟩
    · exact .inl ⟨kind, hk, .operand mem⟩
    · exact .inl ⟨kind, hk, .element range (hoperands _ ▸ mem)⟩
    · have hhead := (h.kinds hk).head_lt nested
      rcases (h.mem_chain_link hl hhead m).mp mem with mem | ⟨hprev, hnext⟩
      · exact .inl ⟨kind, hk, .statement nested mem⟩
      · exact .inr ⟨⟨kind, hk, head, nested, hprev⟩, hnext⟩
  · rintro (⟨kind, hk, mem | ⟨range, mem⟩ | ⟨nested, mem⟩⟩ |
      ⟨⟨kind, hk, head, nested, hprev⟩, hnext⟩)
    · exact ⟨kind, hk, .operand mem⟩
    · exact ⟨kind, hk, .element range ((hoperands _).symm ▸ mem)⟩
    · have hhead := (h.kinds hk).head_lt nested
      exact ⟨kind, hk, .statement nested ((h.mem_chain_link hl hhead m).mpr (.inl mem))⟩
    · have hhead := (h.kinds hk).head_lt nested
      exact ⟨kind, hk, .statement nested ((h.mem_chain_link hl hhead m).mpr (.inr ⟨hprev, hnext⟩))⟩

theorem grounded_link :
    Grounded (a.link prev next).2.Needs ↔ Grounded a.Needs ∧ (Link.mk a prev next).Open := by
  rw [Grounded.join_iff (needs_link h hl)]
  apply and_congr_right
  intro _
  constructor
  · intro hno m hm n hn
    exact hno m n hm hn
  · intro hopen m n hm hn
    exact hopen m hm n hn

end Link

end Arena

end MeteredScript
