import MeteredScript.Proofs.Evaluation.Running
import MeteredScript.Proofs.Program.Needs

/-!
# Programs as they are built

The calls of a builder add nodes, ranges and links to its arena, also where they fail half way. What
the evaluation of a node needs stays without circles just as long as every link is open.
-/

namespace MeteredScript

namespace Arena

/-- Links each node of a list to the one after it, up to the first link that is refused. -/
def linkAll (a : Arena) : List NodeId → Arena
  | prev :: next :: rest =>
    if a.canLink prev next then (a.link prev next).2.linkAll (next :: rest) else a
  | _ => a

/-- The links that this makes. -/
def linksOf (a : Arena) : List NodeId → List Link
  | prev :: next :: rest =>
    if a.canLink prev next then ⟨a, prev, next⟩ :: (a.link prev next).2.linksOf (next :: rest)
    else []
  | _ => []

end Arena

namespace Builder

variable {b : Builder}

/-- What calls leave of a builder, with the links that they made. A range is one that the same
builder gave. -/
inductive Building : List Link → Builder → Prop
  | empty : Building [] .empty
  | node {links : List Link} {b : Builder} (h : Building links b) (kind : NodeKind)
      (own : ∀ r, kind.range? = some r → r.start + r.length ≤ b.arena.operandTable.size) :
      Building links ((Builder.node kind).run b).2
  | range {links : List Link} {b : Builder} (h : Building links b) (ids : List NodeId) :
      Building links ((Builder.range ids).run b).2
  | sequence {links : List Link} {b : Builder} (h : Building links b) (ids : List NodeId) :
      Building (links ++ b.arena.linksOf ids) ((Builder.sequence ids).run b).2
  | pushStatement {links : List Link} {b : Builder} (h : Building links b) (id : NodeId) :
      Building (links ++ b.arena.linksOf (b.last.toList ++ [id]))
        ((Builder.pushStatement id).run b).2

/-- A node that has no range of its own. -/
theorem Building.plainNode {links : List Link} {b : Builder} (h : Building links b)
    (kind : NodeKind) (hnone : kind.range? = none) :
    Building links ((Builder.node kind).run b).2 := by
  apply h.node
  intro r hr
  rw [hnone] at hr
  cases hr

/-! ## What calls leave -/

theorem run_requireKnown (ids : List NodeId) (b : Builder) :
    (requireKnown ids).run b = match ids.find? (!b.arena.contains ·) with
      | some node => (.error (.unknownNode node), b)
      | none => (.ok (), b) := by
  unfold requireKnown
  rw [run_bind]
  change (match ids.find? (!b.arena.contains ·) with
    | some node => throw (.unknownNode node)
    | none => return () : BuildM Unit).run b = _
  cases ids.find? (!b.arena.contains ·) <;> rfl

theorem known_of_find? {a : Arena} {ids : List NodeId} (h : ids.find? (!a.contains ·) = none) :
    ∀ m ∈ ids, m < a.size := by
  intro m hm
  simpa [Arena.contains] using List.find?_eq_none.mp h m hm

theorem node_leaves (kind : NodeKind) (b : Builder) :
    ((node kind).run b).2 = b ∨ (∀ m ∈ kind.operands, m < b.arena.size) ∧
      ((node kind).run b).2 = { b with arena := (b.arena.push kind).2 } := by
  unfold node
  rw [run_bind, run_requireKnown]
  cases hf : kind.operands.find? (!b.arena.contains ·) with
  | some node => exact .inl rfl
  | none => exact .inr ⟨known_of_find? hf, rfl⟩

theorem range_leaves (ids : List NodeId) (b : Builder) :
    ((range ids).run b).2 = b ∨ (∀ m ∈ ids, m < b.arena.size) ∧
      ((range ids).run b).2 = { b with arena := (b.arena.pushRange ids).2 } := by
  unfold range
  rw [run_bind, run_requireKnown]
  cases hf : ids.find? (!b.arena.contains ·) with
  | some node => exact .inl rfl
  | none =>
    dsimp only
    by_cases hlong : Arena.rangeLimit < ids.length
    · rw [if_pos hlong]
      exact .inl rfl
    · rw [if_neg hlong]
      exact .inr ⟨known_of_find? hf, rfl⟩

theorem run_link_known {prev next : NodeId} (h : [prev, next].find? (!b.arena.contains ·) = none) :
    (link prev next).run b = (if !(b.arena.link prev next).1 then throw (.alreadyLinked next)
      else return () : BuildM Unit).run { b with arena := (b.arena.link prev next).2 } := by
  unfold link
  rw [run_bind, run_requireKnown, h]
  rfl

theorem link_ok {prev next : NodeId} (h : b.arena.canLink prev next = true) :
    (link prev next).run b = (.ok (), { b with arena := (b.arena.link prev next).2 }) := by
  have hl := Arena.linkable h
  have hlinked : (b.arena.link prev next).1 = true := by simp only [Arena.link, h, if_true]
  rw [run_link_known (by simp [Arena.contains, hl.prev_lt, hl.next_lt]), hlinked]
  rfl

theorem link_refused {prev next : NodeId} (h : b.arena.canLink prev next = false) :
    ∃ f, (link prev next).run b = (.error f, b) := by
  cases hf : [prev, next].find? (!b.arena.contains ·) with
  | some node =>
    refine ⟨.unknownNode node, ?_⟩
    unfold link
    rw [run_bind, run_requireKnown, hf]
  | none =>
    have hlinked : b.arena.link prev next = (false, b.arena) := by simp [Arena.link, h]
    refine ⟨.alreadyLinked next, ?_⟩
    rw [run_link_known hf, hlinked]
    rfl

theorem linkAll_leaves (ids : List NodeId) (b : Builder) :
    ((linkAll ids).run b).2 = { b with arena := b.arena.linkAll ids } := by
  induction ids generalizing b with
  | nil => rfl
  | cons prev rest ih =>
    cases rest with
    | nil => rfl
    | cons next rest =>
      simp only [linkAll, Arena.linkAll]
      rw [run_bind]
      cases hl : b.arena.canLink prev next with
      | true =>
        rw [link_ok hl]
        exact ih _
      | false =>
        obtain ⟨f, hf⟩ := link_refused hl
        rw [hf]
        simp

theorem sequence_leaves (ids : List NodeId) (b : Builder) :
    ((sequence ids).run b).2 = { b with arena := b.arena.linkAll ids } := by
  unfold sequence
  rw [run_bind, ← linkAll_leaves]
  rcases (linkAll ids).run b with ⟨_ | _, _⟩ <;> rfl

/-- A statement that is accepted is appended to the last one, or becomes the first one. -/
theorem pushStatement_cases (id : NodeId) (b : Builder) :
    (∃ f, (pushStatement id).run b = (.error f, b) ∧ ∀ last, b.last = some last →
        b.arena.canLink last id = false) ∨
      id < b.arena.size ∧ ∃ b' : Builder, b'.arena = b.arena.linkAll (b.last.toList ++ [id]) ∧
        (b'.first = b.first ∨ b'.first = some id) ∧
        (pushStatement id).run b =
          (.ok (), { b' with last := (b'.arena.chain (some id)).getLast? }) := by
  unfold pushStatement
  rw [run_bind, run_requireKnown]
  cases hf : [id].find? (!b.arena.contains ·) with
  | some node =>
    refine .inl ⟨.unknownNode node, rfl, fun last _ => Bool.eq_false_iff.mpr fun hl => ?_⟩
    have := List.find?_some hf
    simp_all [Arena.contains, (Arena.linkable hl).next_lt]
  | none =>
    have hid := known_of_find? hf id (List.mem_singleton_self id)
    dsimp only
    rw [run_get_bind]
    cases hlast : b.last with
    | none =>
      by_cases hl : b.arena.isLinked id = true
      · refine .inl ⟨.alreadyLinked id, by rw [if_pos hl]; rfl, fun last h => ?_⟩
        exact absurd h.symm (Option.some_ne_none last)
      · exact .inr ⟨hid, { b with first := some id }, rfl, .inr rfl, by rw [if_neg hl]; rfl⟩
    | some last =>
      dsimp only
      rw [run_bind]
      cases hl : b.arena.canLink last id with
      | true =>
        refine .inr ⟨hid, { b with arena := (b.arena.link last id).2 }, ?_, .inl rfl, ?_⟩
        · simp [Arena.linkAll, hl]
        · rw [link_ok hl]
          rfl
      | false =>
        obtain ⟨f, hf⟩ := link_refused hl
        exact .inl ⟨f, by rw [hf], fun _ h => Option.some.inj h ▸ hl⟩

/-- The first statement stays the first one. -/
theorem pushStatement_leaves (id : NodeId) (b : Builder) :
    ((pushStatement id).run b).2.arena = b.arena.linkAll (b.last.toList ++ [id]) ∧
      ∀ first, ((pushStatement id).run b).2.first = some first →
        b.first = some first ∨ first < b.arena.size := by
  rcases pushStatement_cases id b with ⟨f, hrun, hrefused⟩ | ⟨hid, b', harena, hfirst, hrun⟩
  · rw [hrun]
    refine ⟨?_, fun first => .inl⟩
    cases hlast : b.last with
    | none => rfl
    | some last => simp [Arena.linkAll, hrefused last hlast]
  · rw [hrun]
    refine ⟨harena, fun first hf => hfirst.imp (·.symm.trans hf) fun h => ?_⟩
    exact Option.some.inj (h.symm.trans hf) ▸ hid

end Builder

/-! ## Circles -/

namespace Arena

theorem Closed.linkAll {a : Arena} (h : a.Closed) (ids : List NodeId) :
    (a.linkAll ids).Closed ∧ (a.linkAll ids).size = a.size ∧
      (Grounded (a.linkAll ids).Needs ↔ Grounded a.Needs ∧ ∀ l ∈ a.linksOf ids, l.Open) := by
  induction ids generalizing a with
  | nil => exact ⟨h, rfl, by simp [linksOf, Arena.linkAll]⟩
  | cons prev rest ih =>
    cases rest with
    | nil => exact ⟨h, rfl, by simp [linksOf, Arena.linkAll]⟩
    | cons next rest =>
      cases hl : a.canLink prev next with
      | true =>
        obtain ⟨hclosed, hsize, hgrounded⟩ := ih (h.link hl)
        simp only [Arena.linkAll, linksOf, hl, if_true]
        refine ⟨hclosed, hsize.trans (size_link hl), ?_⟩
        rw [hgrounded, grounded_link h hl, List.forall_mem_cons, and_assoc]
      | false =>
        simp only [Arena.linkAll, linksOf, hl]
        exact ⟨h, rfl, by simp⟩

end Arena

namespace Builder

/-- The arena of a builder is closed, and what its nodes need is without circles just as long as
every link is open. -/
structure Sound (links : List Link) (b : Builder) : Prop where
  closed : b.arena.Closed
  first : ∀ first, b.first = some first → first < b.arena.size
  grounded : Grounded b.arena.Needs ↔ ∀ l ∈ links, l.Open

namespace Sound

variable {links : List Link}

theorem empty : Sound [] .empty := by
  have hno (n m : NodeId) : ¬ Arena.empty.Needs n m := by
    rintro ⟨kind, hk, -⟩
    simp [Arena.kind?, Arena.empty] at hk
  have hgrounded : Grounded Builder.empty.arena.Needs := by
    constructor
    intro n
    exact ⟨n, fun m h => absurd h (hno n m)⟩
  constructor
  case closed => exact .empty
  case first =>
    intro first h
    exact absurd h.symm (Option.some_ne_none first)
  case grounded => simp [hgrounded]

theorem push (h : Sound links b) {kind : NodeKind} (hk : kind.Inside b.arena) :
    Sound links { b with arena := (b.arena.push kind).2 } := by
  refine ⟨h.closed.push hk, fun first hf => ?_, (Arena.grounded_push h.closed hk).trans h.grounded⟩
  exact b.arena.size_push kind ▸ Nat.lt_succ_of_lt (h.first first hf)

theorem pushRange (h : Sound links b) {ids : List NodeId} (hids : ∀ m ∈ ids, m < b.arena.size) :
    Sound links { b with arena := (b.arena.pushRange ids).2 } := by
  refine ⟨h.closed.pushRange ids hids, fun first hf => ?_, ?_⟩
  · exact (b.arena.size_pushRange ids).symm ▸ h.first first hf
  · change Grounded (b.arena.pushRange ids).2.Needs ↔ _
    rw [Arena.needs_pushRange h.closed]
    exact h.grounded

/-- Links are made, and if there was no first statement one of the nodes may become it. -/
theorem linkAll (h : Sound links b) {ids : List NodeId} {b' : Builder}
    (harena : b'.arena = b.arena.linkAll ids)
    (hfirst : ∀ first, b'.first = some first → b.first = some first ∨ first < b.arena.size) :
    Sound (links ++ b.arena.linksOf ids) b' := by
  obtain ⟨hclosed, hsize, hgrounded⟩ := h.closed.linkAll ids
  constructor
  · exact harena ▸ hclosed
  · intro first hf
    rw [harena, hsize]
    exact (hfirst first hf).elim (h.first first) id
  · rw [harena, hgrounded, h.grounded, List.forall_mem_append]

end Sound

theorem Building.sound {links : List Link} {b : Builder} (h : Building links b) :
    b.Sound links := by
  induction h with
  | empty => exact .empty
  | @node links b _ kind own ih =>
    rcases node_leaves kind b with hb | ⟨hops, hb⟩
    · rwa [hb]
    · rw [hb]
      exact ih.push ⟨hops, own⟩
  | @range links b _ ids ih =>
    rcases range_leaves ids b with hb | ⟨hids, hb⟩
    · rwa [hb]
    · rw [hb]
      exact ih.pushRange hids
  | @sequence links b _ ids ih =>
    rw [sequence_leaves]
    exact ih.linkAll rfl fun first => .inl
  | @pushStatement links b _ id ih =>
    obtain ⟨harena, hfirst⟩ := pushStatement_leaves id b
    exact ih.linkAll harena hfirst

end Builder

end MeteredScript
