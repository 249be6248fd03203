import MeteredScript.Proofs.Program.Chains

/-!
# Ownership of chains

A chain is owned by its head: no node follows two others, the marks of linked nodes say which nodes
follow one, and links form no circle. Additions and links keep this, in whatever order they come, so
that every chain is walked to its end, and no node is on the chains of two heads.
-/

namespace MeteredScript

open Relation (ReflTransGen TransGen)

namespace Arena

/-- Chains are apart from each other, and the marks of linked nodes are those that links left. -/
structure Owned (a : Arena) : Prop extends a.Linear where
  apart : ∀ {n m k : NodeId}, a.Follows n k → a.Follows m k → n = m
  linked_iff : ∀ n, a.isLinked n = true ↔ ∃ m, a.Follows m n

/-- Only one link is between the arenas: the first node had no successor, the second one was not
marked as linked, and nothing else is different. -/
structure Joined (a : Arena) (prev next : NodeId) (b : Arena) : Prop where
  last : a.next? prev = none
  unmarked : a.isLinked next = false
  table : b.operandTable = a.operandTable
  nodes : ∀ id : NodeId, b.nodes[id]? = a.nodes[id]?.map fun n =>
    { n with
      next := if prev = id then some next else n.next
      linked := if next = id then true else n.linked }

/-- What additions and links leave of an arena. A node is added when its operands are there; links
may be refused, and may be asked for between any nodes whatever. -/
inductive Grown : Arena → Prop
  | empty : Grown .empty
  | push {a : Arena} (h : Grown a) (kind : NodeKind) (known : ∀ m ∈ kind.operands, m < a.size) :
      Grown (a.push kind).2
  | pushRange {a : Arena} (h : Grown a) (ids : List NodeId) : Grown (a.pushRange ids).2
  | link {a : Arena} (h : Grown a) (prev next : NodeId) : Grown (a.link prev next).2

variable {a b : Arena} {prev next : NodeId}

/-! ## Marks -/

theorem isLinked_push (a : Arena) (kind : NodeKind) (id : NodeId) :
    (a.push kind).2.isLinked id = a.isLinked id := by
  unfold isLinked push
  rw [Array.getElem?_push]
  split
  · next hid => simp [hid]
  · rfl

theorem isLinked_pushRange (a : Arena) (ids : List NodeId) (id : NodeId) :
    (a.pushRange ids).2.isLinked id = a.isLinked id := by
  rw [isLinked, nodes_pushRange, isLinked]

theorem isLinked_link (h : a.canLink prev next = true) (id : NodeId) :
    (a.link prev next).2.isLinked id = true ↔ next = id ∨ a.isLinked id = true := by
  unfold isLinked
  rw [getElem?_link h]
  by_cases hid : next = id
  · subst hid
    simp [Array.getElem?_eq_getElem (linkable h).next_lt]
  · simp [hid, Option.any_map]

theorem unmarked_of_canLink (h : a.canLink prev next = true) : a.isLinked next = false := by
  simp only [canLink, Bool.and_eq_true, Bool.not_eq_true'] at h
  exact h.1.2

/-! ## Links -/

theorem link_fst (a : Arena) (prev next : NodeId) :
    (a.link prev next).1 = a.canLink prev next := by
  unfold link
  cases a.canLink prev next <;> rfl

theorem link_refused (h : a.canLink prev next = false) : (a.link prev next).2 = a := by
  simp only [link, h, Bool.false_eq_true, if_false]

theorem link_joined (h : a.canLink prev next = true) : a.Joined prev next (a.link prev next).2 :=
  ⟨(linkable h).last, unmarked_of_canLink h, operandTable_link h, getElem?_link h⟩

namespace Owned

theorem empty : Arena.empty.Owned := by
  refine ⟨.empty, fun h => absurd h (not_follows_empty _ _), fun n => ?_⟩
  have hmark : Arena.empty.isLinked n = false := by simp [isLinked, Arena.empty]
  simp [hmark, not_follows_empty]

/-- Growth without links changes nothing that is asked of links. -/
theorem grow (h : a.Owned) (same : b.Follows = a.Follows) (grown : a.size ≤ b.size)
    (marks : ∀ n, b.isLinked n = a.isLinked n) : b.Owned := by
  refine ⟨h.toLinear.grow same grown, ?_, fun n => ?_⟩
  · rw [same]
    exact h.apart
  · rw [marks, same]
    exact h.linked_iff n

theorem push (h : a.Owned) (kind : NodeKind) : (a.push kind).2.Owned :=
  h.grow (a.follows_push kind) (a.size_push kind ▸ Nat.le_succ _) (a.isLinked_push kind)

theorem pushRange (h : a.Owned) (ids : List NodeId) : (a.pushRange ids).2.Owned :=
  h.grow (a.follows_pushRange ids) (Nat.le_of_eq (a.size_pushRange ids).symm)
    (a.isLinked_pushRange ids)

/-- A node that is not marked follows none, so that a new link to it leaves chains apart. -/
theorem link (h : a.Owned) (hl : a.canLink prev next = true) : (a.link prev next).2.Owned := by
  have hfirst (m : NodeId) : ¬ a.Follows m next := by
    intro hm
    have := (h.linked_iff next).mpr ⟨m, hm⟩
    rw [unmarked_of_canLink hl] at this
    cases this
  refine ⟨h.toLinear.link hl, fun {n m k} hnk hmk => ?_, fun n => ?_⟩
  · rw [follows_link hl] at hnk hmk
    rcases hnk with hn | ⟨rfl, hk⟩ <;> rcases hmk with hm | ⟨rfl, hk'⟩
    · exact h.apart hn hm
    · exact absurd (hk' ▸ hn) (hfirst n)
    · exact absurd (hk ▸ hm) (hfirst m)
    · rfl
  · rw [isLinked_link hl, h.linked_iff]
    simp only [follows_link hl]
    constructor
    · rintro (rfl | ⟨m, hm⟩)
      · exact ⟨prev, .inr ⟨rfl, rfl⟩⟩
      · exact ⟨m, .inl hm⟩
    · rintro ⟨m, hm | ⟨-, rfl⟩⟩
      · exact .inr ⟨m, hm⟩
      · exact .inl rfl

theorem canLink_iff (h : a.Owned) : a.canLink prev next = true ↔
    prev < a.size ∧ next < a.size ∧ (∀ m, ¬ a.Follows prev m) ∧ (∀ m, ¬ a.Follows m next) ∧
      ¬ ReflTransGen a.Follows next prev := by
  have hlast : (a.next? prev).isNone = true ↔ ∀ m, ¬ a.Follows prev m := by
    rw [Option.isNone_iff_eq_none, Option.eq_none_iff_forall_ne_some]
    rfl
  have hmark : (!a.isLinked next) = true ↔ ∀ m, ¬ a.Follows m next := by
    rw [Bool.not_eq_true', ← Bool.not_eq_true, h.linked_iff, not_exists]
  simp only [canLink, contains, Bool.and_eq_true, decide_eq_true_eq, hlast, hmark, and_assoc]
  refine and_congr_right fun _ => and_congr_right fun hnext => ?_
  simp [h.mem_chain_iff hnext]

/-- Of two nodes with a common end, one leads to the other. -/
theorem leads (h : a.Owned) {n m k : NodeId} (hn : ReflTransGen a.Follows n k)
    (hm : ReflTransGen a.Follows m k) :
    ReflTransGen a.Follows n m ∨ ReflTransGen a.Follows m n := by
  have hback : Relator.RightUnique fun n m => a.Follows m n := fun _ _ _ hx hy => h.apart hx hy
  have hn := Relation.reflTransGen_swap.mpr hn
  have hm := Relation.reflTransGen_swap.mpr hm
  rcases Relation.ReflTransGen.total_of_right_unique hback hn hm with h | h
  · exact .inr (Relation.reflTransGen_swap.mp h)
  · exact .inl (Relation.reflTransGen_swap.mp h)

/-- What leads to a node without a mark is the node itself. -/
theorem eq_of_path (h : a.Owned) {n m : NodeId} (hm : a.isLinked m = false)
    (hpath : ReflTransGen a.Follows n m) : n = m := by
  rcases hpath.cases_tail with rfl | ⟨k, -, hk⟩
  · rfl
  · have := (h.linked_iff m).mpr ⟨k, hk⟩
    rw [hm] at this
    cases this

theorem chain_disjoint (h : a.Owned) {n m : NodeId} (hn : n < a.size) (hm : m < a.size)
    (hne : n ≠ m) (hn' : a.isLinked n = false) (hm' : a.isLinked m = false) :
    (a.chain (some n)).Disjoint (a.chain (some m)) := by
  intro k hkn hkm
  rcases h.leads ((h.mem_chain_iff hn).mp hkn) ((h.mem_chain_iff hm).mp hkm) with hpath | hpath
  · exact hne (h.eq_of_path hm' hpath)
  · exact hne (h.eq_of_path hn' hpath).symm

end Owned

theorem Grown.owned (h : a.Grown) : a.Owned := by
  induction h with
  | empty => exact .empty
  | push _ kind _ ih => exact ih.push kind
  | pushRange _ ids ih => exact ih.pushRange ids
  | @link a _ prev next ih =>
    cases hl : a.canLink prev next with
    | true => exact ih.link hl
    | false => rwa [link_refused hl]

/-- In every arena that additions and links, made or refused, can leave: a node has one successor and
one predecessor at most, and is marked just if it has a predecessor. The chain of a node is walked to
its end, through nodes that are all different and no more than the arena has. The chains of two nodes
without predecessors have no node in common. A link is made between nodes of the arena just if the
first has no successor, the second no predecessor, and the second does not lead to the first; it
changes one successor and one mark, and a link that is refused changes nothing. -/
theorem Grown.chains_owned (h : a.Grown) :
    (∀ n m k, a.Follows n m → a.Follows n k → m = k) ∧
      (∀ n m k, a.Follows n k → a.Follows m k → n = m) ∧
      (∀ n, a.isLinked n = true ↔ ∃ m, a.Follows m n) ∧
      (∀ n < a.size, a.Walk (some n) (a.chain (some n)) ∧ (a.chain (some n)).Nodup ∧
        (a.chain (some n)).length ≤ a.size) ∧
      (∀ n < a.size, ∀ m < a.size, n ≠ m → a.isLinked n = false → a.isLinked m = false →
        (a.chain (some n)).Disjoint (a.chain (some m))) ∧
      ∀ prev next,
        ((a.link prev next).1 = true ↔ prev < a.size ∧ next < a.size ∧
          (∀ m, ¬ a.Follows prev m) ∧ (∀ m, ¬ a.Follows m next) ∧
          ¬ ReflTransGen a.Follows next prev) ∧
        ((a.link prev next).1 = true → a.Joined prev next (a.link prev next).2) ∧
        ((a.link prev next).1 = false → (a.link prev next).2 = a) := by
  have ho := h.owned
  refine ⟨?_, ?_, ho.linked_iff, ?_, ?_, ?_⟩
  · intro n m k hm hk
    exact Option.some.inj (hm.symm.trans hk)
  · intro n m k
    exact ho.apart
  · intro n hn
    have hwalk := ho.walk_chain hn
    exact ⟨hwalk, hwalk.nodup ho.grounded, ho.length_walk_le hn hwalk⟩
  · intro n hn m hm
    exact ho.chain_disjoint hn hm
  · intro prev next
    rw [link_fst]
    exact ⟨ho.canLink_iff, link_joined, link_refused⟩

/-- Two nodes are linked, a third one is linked after them, and circles back are refused. -/
def threeInLine : Arena :=
  let a := (((empty.push .this).2.push .this).2.push .brk).2
  ((((a.link 1 2).2.link 0 1).2.link 2 0).2.link 2 7).2

theorem threeInLine_grown : threeInLine.Grown := by
  have hnone (a : Arena) (kind : NodeKind) (h : kind.operands = []) :
      ∀ m ∈ kind.operands, m < a.size := fun m hm => absurd (h ▸ hm) List.not_mem_nil
  exact (((((((Grown.empty.push .this (hnone _ _ rfl)).push .this (hnone _ _ rfl)).push .brk
    (hnone _ _ rfl)).link 1 2).link 0 1).link 2 0).link 2 7)

theorem Grown.chains_owned_line :
    threeInLine.Grown ∧ threeInLine.Walk (some 0) [0, 1, 2] ∧
      (∃ m, threeInLine.Follows m 1) ∧ (threeInLine.link 2 0).2 = threeInLine ∧
      ReflTransGen threeInLine.Follows 0 2 := by
  obtain ⟨-, -, hmarks, hwalks, -, hlinks⟩ := Grown.chains_owned threeInLine_grown
  have hwalk := (hwalks 0 (by decide)).1
  have hrefused : (threeInLine.link 2 0).1 = false := by decide
  refine ⟨threeInLine_grown, hwalk, (hmarks 1).mp (by decide), (hlinks 2 0).2.2 hrefused, ?_⟩
  obtain ⟨n, hn, hpath⟩ := (hwalk.mem_iff (m := 2)).mp (by decide)
  exact Option.some.inj hn ▸ hpath

end Arena

end MeteredScript
