import Mathlib.Data.List.Nodup
import Mathlib.Data.List.Range
import Mathlib.Logic.Relation
import Mathlib.Order.WellFoundedSet
import MeteredScript.Arena

/-!
# Chains of statements

The chain of a node is what its links lead to, as long as links form no circle. A link adds one
edge; which paths such edges add, and when they close a circle, is a matter of relations alone.
-/

namespace MeteredScript

open Relation (ReflTransGen TransGen)

/-- Every path of the relation comes to an end. -/
abbrev Grounded {α : Type} (R : α → α → Prop) : Prop := WellFounded fun m n => R n m

namespace Grounded

variable {α : Type} {R S : α → α → Prop} {O C : α → Prop}

theorem mono (hS : Grounded S) (h : ∀ n m, R n m → S n m) : Grounded R :=
  Subrelation.wf (fun {m n} hnm => h n m hnm) hS

theorem no_circle (hR : Grounded R) (n : α) : ¬ TransGen R n n := by
  intro h
  have hswap : TransGen (fun m n => R n m) n n := Relation.transGen_swap.mp h
  exact hR.transGen.irrefl.irrefl n hswap

/-- On finitely many nodes, paths without end go in circles. -/
theorem of_no_circle {nodes : Set α} (hfinite : nodes.Finite)
    (inside : ∀ n m, R n m → n ∈ nodes ∧ m ∈ nodes) (h : ∀ n, ¬ TransGen R n n) : Grounded R := by
  let below : α → α → Prop := fun m n => TransGen R n m
  have : IsStrictOrder α below := { irrefl := h, trans := fun _ _ _ hab hbc => hbc.trans hab }
  have hwf := Set.wellFoundedOn_iff.mp (hfinite.wellFoundedOn (r := below))
  exact Subrelation.wf (fun {m n} hnm => ⟨.single hnm, (inside n m hnm).2, (inside n m hnm).1⟩) hwf

/-- Edges from some nodes to others keep every path finite just if none of the latter led to one of
the former. -/
theorem join_iff (hS : ∀ n m, S n m ↔ R n m ∨ O n ∧ C m) :
    Grounded S ↔ Grounded R ∧ ∀ c o, C c → O o → ¬ ReflTransGen R c o := by
  constructor
  · intro h
    refine ⟨h.mono fun n m hnm => (hS n m).mpr (.inl hnm), fun c o hc ho hpath => ?_⟩
    have old : R ≤ S := fun n m hnm => (hS n m).mpr (.inl hnm)
    have hpath : ReflTransGen S c o := ReflTransGen.mono old c o hpath
    exact h.no_circle c (.tail' hpath ((hS o c).mpr (.inr ⟨ho, hc⟩)))
  · rintro ⟨hR, hno⟩
    -- Below the new edges only old ones are met.
    have below (c : α) (hc : C c) (n : α) (hn : ReflTransGen R c n) :
        Acc (fun m n => S n m) n := by
      induction n using hR.induction with
      | _ n ih =>
        refine Acc.intro n fun m hm => ?_
        rcases (hS n m).mp hm with hm | ⟨ho, _⟩
        · exact ih m hm (hn.tail hm)
        · exact absurd hn (hno c n hc ho)
    constructor
    intro n
    induction n using hR.induction with
    | _ n ih =>
      refine Acc.intro n fun m hm => ?_
      rcases (hS n m).mp hm with hm | ⟨_, hc⟩
      · exact ih m hm
      · exact below m hc m .refl

end Grounded

/-- Paths after one edge has been added. -/
theorem reflTransGen_edge_iff {α : Type} {R S : α → α → Prop} {p q : α}
    (hS : ∀ n m, S n m ↔ R n m ∨ n = p ∧ m = q) (n m : α) :
    ReflTransGen S n m ↔ ReflTransGen R n m ∨ ReflTransGen R n p ∧ ReflTransGen R q m := by
  have old : ReflTransGen R ≤ ReflTransGen S :=
    ReflTransGen.mono fun n m hnm => (hS n m).mpr (.inl hnm)
  constructor
  · intro h
    induction h with
    | refl => exact .inl .refl
    | @tail b c _ hbc ih =>
      rcases (hS b c).mp hbc with hbc | ⟨rfl, rfl⟩
      · exact ih.imp (·.tail hbc) fun ⟨hp, hq⟩ => ⟨hp, hq.tail hbc⟩
      · exact .inr ⟨ih.elim id (·.1), .refl⟩
  · rintro (h | ⟨hp, hq⟩)
    · exact old n m h
    · exact ((old n p hp).tail ((hS p q).mpr (.inr ⟨rfl, rfl⟩))).trans (old q m hq)

namespace Arena

theorem chain_none (a : Arena) : a.chain none = [] := by
  unfold chain
  cases a.size <;> rfl

/-- A node without a successor is a chain of its own. -/
theorem mem_chain_of_last {a : Arena} {id k : NodeId} (h : a.next? id = none)
    (hk : k ∈ a.chain (some id)) : k = id := by
  unfold chain at hk
  generalize a.size = length at hk
  cases length with
  | zero => exact absurd hk List.not_mem_nil
  | succ n =>
    have hrest : a.chainTo n none = [] := by cases n <;> rfl
    rw [chainTo, h, hrest] at hk
    exact List.mem_singleton.mp hk

/-- One node is linked to another one. -/
def Follows (a : Arena) (n m : NodeId) : Prop := a.next? n = some m

/-- Following the links, from a node on until there is none, goes through these nodes. -/
inductive Walk (a : Arena) : Option NodeId → List NodeId → Prop
  | done : Walk a none []
  | step {id : NodeId} {rest : List NodeId} (h : Walk a (a.next? id) rest) :
      Walk a (some id) (id :: rest)

namespace Walk

variable {a : Arena} {head : Option NodeId} {ids : List NodeId} (h : a.Walk head ids)

include h

theorem chainTo_eq {fuel : Nat} (hf : ids.length ≤ fuel) : a.chainTo fuel head = ids := by
  induction h generalizing fuel with
  | done => cases fuel <;> rfl
  | step _ ih =>
    cases fuel with
    | zero => exact absurd hf (Nat.not_succ_le_zero _)
    | succ fuel => rw [chainTo, ih (Nat.le_of_succ_le_succ hf)]

theorem chain_eq (hf : ids.length ≤ a.size) : a.chain head = ids := h.chainTo_eq hf

theorem mem_iff {m : NodeId} :
    m ∈ ids ↔ ∃ n, head = some n ∧ ReflTransGen a.Follows n m := by
  induction h with
  | done => simp
  | @step id rest _ ih =>
    rw [List.mem_cons, ih]
    constructor
    · rintro (rfl | ⟨n, hn, hpath⟩)
      · exact ⟨m, rfl, .refl⟩
      · exact ⟨id, rfl, .head hn hpath⟩
    · rintro ⟨_, hid, hpath⟩
      obtain rfl := Option.some.inj hid
      exact hpath.cases_head.imp Eq.symm fun ⟨n, hn, hrest⟩ => ⟨n, hn, hrest⟩

theorem nodup (hg : Grounded a.Follows) : ids.Nodup := by
  induction h with
  | done => exact List.nodup_nil
  | @step id rest hw ih =>
    refine List.nodup_cons.mpr ⟨?_, ih⟩
    intro hmem
    obtain ⟨n, hn, hpath⟩ := hw.mem_iff.mp hmem
    exact hg.no_circle id (.head' hn hpath)

end Walk

/-- Links lead to nodes of the arena, and no path of them is without an end. -/
structure Linear (a : Arena) : Prop where
  inside : ∀ {n m : NodeId}, a.Follows n m → m < a.size
  grounded : Grounded a.Follows

variable {a : Arena} {prev next : NodeId}

theorem not_follows_empty (n m : NodeId) : ¬ Arena.empty.Follows n m := by
  simp [Follows, next?, Arena.empty]

namespace Linear

theorem empty : Arena.empty.Linear := by
  constructor
  case inside =>
    intro n m h
    exact absurd h (not_follows_empty n m)
  case grounded =>
    constructor
    intro n
    exact ⟨n, fun m h => absurd h (not_follows_empty n m)⟩

theorem path_lt (h : a.Linear) {n m : NodeId} (hn : n < a.size) (hp : ReflTransGen a.Follows n m) :
    m < a.size := by
  induction hp with
  | refl => exact hn
  | tail _ hm _ => exact h.inside hm

/-- Following links from a node of the arena comes to an end. -/
theorem exists_walk (h : a.Linear) (head : NodeId) : ∃ ids, a.Walk (some head) ids := by
  induction head using h.grounded.induction with
  | _ head ih =>
    cases hn : a.next? head with
    | none => exact ⟨[head], .step (hn ▸ .done)⟩
    | some next =>
      obtain ⟨ids, hids⟩ := ih next hn
      exact ⟨head :: ids, .step (hn ▸ hids)⟩

/-- The nodes that a walk goes through are all different, so that they are no more than the nodes of
the arena. -/
theorem length_walk_le (h : a.Linear) {head : NodeId} (hhead : head < a.size) {ids : List NodeId}
    (hw : a.Walk (some head) ids) : ids.length ≤ a.size := by
  have hinside : ids ⊆ List.range a.size := by
    intro id hid
    obtain ⟨n, hn, hpath⟩ := hw.mem_iff.mp hid
    exact List.mem_range.mpr (h.path_lt (Option.some.inj hn ▸ hhead) hpath)
  simpa using (hw.nodup h.grounded).length_le_of_subset hinside

/-- A chain is walked to its end. -/
theorem walk_chain (h : a.Linear) {head : NodeId} (hhead : head < a.size) :
    a.Walk (some head) (a.chain (some head)) := by
  obtain ⟨ids, hids⟩ := h.exists_walk head
  rwa [hids.chain_eq (h.length_walk_le hhead hids)]

theorem mem_chain_iff (h : a.Linear) {head id : NodeId} (hhead : head < a.size) :
    id ∈ a.chain (some head) ↔ ReflTransGen a.Follows head id := by
  rw [(h.walk_chain hhead).mem_iff]
  constructor
  · rintro ⟨n, hn, hpath⟩
    obtain rfl := Option.some.inj hn
    exact hpath
  · intro hpath
    exact ⟨head, rfl, hpath⟩

/-- A chain stays inside of the arena. -/
theorem chain_lt (h : a.Linear) {head : Option NodeId} (hhead : ∀ id, head = some id → id < a.size)
    {id : NodeId} (hid : id ∈ a.chain head) : id < a.size := by
  cases head with
  | none => exact absurd hid (by simp [chain_none])
  | some head =>
    have hlt := hhead head rfl
    exact h.path_lt hlt ((h.mem_chain_iff hlt).mp hid)

end Linear

/-! ## Growth without links -/

section Same

variable {b : Arena} (same : b.Follows = a.Follows) (grown : a.size ≤ b.size)

include same grown

theorem Linear.grow (h : a.Linear) : b.Linear := by
  constructor
  · intro n m hm
    rw [same] at hm
    exact Nat.lt_of_lt_of_le (h.inside hm) grown
  · rw [same]
    exact h.grounded

theorem Linear.mem_chain_grow (h : a.Linear) {head : NodeId} (hhead : head < a.size)
    (id : NodeId) : id ∈ b.chain (some head) ↔ id ∈ a.chain (some head) := by
  rw [(h.grow same grown).mem_chain_iff (Nat.lt_of_lt_of_le hhead grown), h.mem_chain_iff hhead,
    same]

end Same

theorem follows_push (a : Arena) (kind : NodeKind) : (a.push kind).2.Follows = a.Follows := by
  funext n m
  unfold Follows next? push
  rw [Array.getElem?_push]
  split
  · next hid => simp [hid]
  · rfl

theorem kind?_push (a : Arena) (kind : NodeKind) (id : NodeId) :
    (a.push kind).2.kind? id = if id = a.size then some kind else a.kind? id := by
  unfold kind? push size
  rw [Array.getElem?_push]
  split <;> rfl

theorem size_push (a : Arena) (kind : NodeKind) : (a.push kind).2.size = a.size + 1 :=
  Array.size_push _

section Range

variable (a : Arena) (ids : List NodeId)

theorem nodes_pushRange : (a.pushRange ids).2.nodes = a.nodes := by
  unfold pushRange
  split <;> rfl

theorem follows_pushRange : (a.pushRange ids).2.Follows = a.Follows := by
  unfold Follows next?
  rw [nodes_pushRange]

theorem kind?_pushRange (id : NodeId) : (a.pushRange ids).2.kind? id = a.kind? id := by
  rw [kind?, nodes_pushRange, kind?]

theorem size_pushRange : (a.pushRange ids).2.size = a.size := by
  rw [size, nodes_pushRange, size]

end Range

/-! ## Links -/

/-- What a link that may be made is between. -/
structure Linkable (a : Arena) (prev next : NodeId) : Prop where
  prev_lt : prev < a.size
  next_lt : next < a.size
  last : a.next? prev = none
  apart : prev ∉ a.chain (some next)

theorem linkable (h : a.canLink prev next = true) : a.Linkable prev next := by
  simp only [canLink, contains, Bool.and_eq_true, Bool.not_eq_true', decide_eq_true_eq,
    Option.isNone_iff_eq_none, List.contains_eq_mem, decide_eq_false_iff_not] at h
  obtain ⟨⟨⟨⟨hprev, hnext⟩, hlast⟩, -⟩, hapart⟩ := h
  exact ⟨hprev, hnext, hlast, hapart⟩

section Link

variable (h : a.canLink prev next = true)

include h

theorem getElem?_link (id : NodeId) : (a.link prev next).2.nodes[id]? = a.nodes[id]?.map fun n =>
    { n with
      next := if prev = id then some next else n.next
      linked := if next = id then true else n.linked } := by
  simp only [link, h, if_true, Array.getElem?_modify]
  cases a.nodes[id]? with
  | none => split <;> split <;> rfl
  | some n => by_cases hp : prev = id <;> by_cases hn : next = id <;> simp [hp, hn]

theorem next?_link (id : NodeId) :
    (a.link prev next).2.next? id = if prev = id then some next else a.next? id := by
  unfold next?
  rw [getElem?_link h]
  by_cases hp : prev = id
  · subst hp
    rw [Array.getElem?_eq_getElem (linkable h).prev_lt, if_pos rfl]
    exact if_pos rfl
  · cases a.nodes[id]? <;> simp [hp]

theorem follows_link (n m : NodeId) :
    (a.link prev next).2.Follows n m ↔ a.Follows n m ∨ n = prev ∧ m = next := by
  unfold Follows
  rw [next?_link h]
  by_cases hp : prev = n
  · subst hp
    simp [(linkable h).last, eq_comm]
  · simp [hp, Ne.symm hp]

theorem kind?_link (id : NodeId) : (a.link prev next).2.kind? id = a.kind? id := by
  unfold kind?
  rw [getElem?_link h, Option.map_map]
  rfl

theorem operandTable_link : (a.link prev next).2.operandTable = a.operandTable := by
  simp only [link, h, if_true]

theorem size_link : (a.link prev next).2.size = a.size := by
  simp only [link, h, if_true, size, Array.size_modify]

theorem Linear.link (ha : a.Linear) : (a.link prev next).2.Linear := by
  have hl := linkable h
  constructor
  · intro n m hm
    rw [size_link h]
    rcases (follows_link h n m).mp hm with hm | ⟨-, rfl⟩
    · exact ha.inside hm
    · exact hl.next_lt
  · refine (Grounded.join_iff (follows_link h)).mpr ⟨ha.grounded, ?_⟩
    rintro c o rfl rfl hpath
    exact hl.apart ((ha.mem_chain_iff hl.next_lt).mpr hpath)

/-- A link appends one chain to another. -/
theorem Linear.mem_chain_link (ha : a.Linear) {head : NodeId} (hhead : head < a.size)
    (id : NodeId) : id ∈ (a.link prev next).2.chain (some head) ↔
      id ∈ a.chain (some head) ∨ prev ∈ a.chain (some head) ∧ id ∈ a.chain (some next) := by
  rw [(ha.link h).mem_chain_iff (by rwa [size_link h]), ha.mem_chain_iff hhead,
    ha.mem_chain_iff hhead, ha.mem_chain_iff (linkable h).next_lt]
  exact reflTransGen_edge_iff (follows_link h) head id

end Link

end Arena

end MeteredScript
