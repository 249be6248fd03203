import MeteredScript.Program.Evaluate
import MeteredScript.Proofs.Program.Inference
import MeteredScript.Proofs.Program.Within

/-!
# Bounds of programs

Front ends give node numbers of their own making. A builder refuses the numbers that it does not
know, so that whatever it holds is inside of its arena, and no call, no evaluation and no text reads
anything outside of it. Later calls leave ranges as they were given.
-/

namespace MeteredScript

open Relation (ReflTransGen)

namespace Arena

variable {a b : Arena}

/-- Nodes are made of nodes before them. -/
structure Ordered (a : Arena) : Prop where
  operand : ∀ {n : NodeId} {kind : NodeKind}, a.kind? n = some kind → ∀ m ∈ kind.operands, m < n
  element : ∀ {n : NodeId} {kind : NodeKind} {r : NodeRange}, a.kind? n = some kind →
    kind.range? = some r → ∀ m ∈ a.operands r, m < n

/-! ## Links -/

theorem kind?_linkAll (a : Arena) (ids : List NodeId) (id : NodeId) :
    (a.linkAll ids).kind? id = a.kind? id := by
  fun_induction Arena.linkAll a ids with
  | case1 a prev next rest hl ih => rw [ih, kind?_link hl]
  | case2 => rfl
  | case3 => rfl

theorem operandTable_linkAll (a : Arena) (ids : List NodeId) :
    (a.linkAll ids).operandTable = a.operandTable := by
  fun_induction Arena.linkAll a ids with
  | case1 a prev next rest hl ih => rw [ih, operandTable_link hl]
  | case2 => rfl
  | case3 => rfl

namespace Ordered

theorem empty : Arena.empty.Ordered := by
  constructor <;> simp [kind?, Arena.empty]

/-- What changes neither nodes nor their ranges keeps the order. -/
theorem congr (h : a.Ordered) (hkind : ∀ id, b.kind? id = a.kind? id)
    (hrange : ∀ {n : NodeId} {kind : NodeKind} {r : NodeRange}, a.kind? n = some kind →
      kind.range? = some r → b.operands r = a.operands r) : b.Ordered := by
  constructor
  · intro n kind hk
    exact h.operand (hkind n ▸ hk)
  · intro n kind r hk hr
    have hk := hkind n ▸ hk
    rw [hrange hk hr]
    exact h.element hk hr

theorem push (h : a.Ordered) (ha : a.Closed) {kind : NodeKind} (hk : kind.Inside a) :
    (a.push kind).2.Ordered := by
  constructor
  · intro n k hn
    rw [kind?_push] at hn
    split at hn
    · next heq => exact heq ▸ Option.some.inj hn ▸ hk.operands
    · exact h.operand hn
  · intro n k r hn hr m hm
    rw [kind?_push] at hn
    split at hn
    · next heq =>
      obtain rfl := Option.some.inj hn
      exact heq ▸ ha.needs_lt hk (.element hr hm)
    · exact h.element hn hr m hm

theorem pushRange (h : a.Ordered) (ha : a.Closed) (ids : List NodeId) :
    (a.pushRange ids).2.Ordered :=
  h.congr (kind?_pushRange a ids) fun hk hr =>
    operands_grow (table_pushRange a ids) ((ha.kinds hk).range _ hr)

theorem linkAll (h : a.Ordered) (ids : List NodeId) : (a.linkAll ids).Ordered :=
  h.congr (a.kind?_linkAll ids) fun {_ _ r} _ _ => by rw [operands, operandTable_linkAll, operands]

end Ordered

/-! ## Ranges -/

/-- A new range denotes the nodes that it was made of. -/
theorem operands_pushRange (a : Arena) (ids : List NodeId) :
    (a.pushRange ids).1.start + (a.pushRange ids).1.length ≤
        (a.pushRange ids).2.operandTable.size ∧
      (a.pushRange ids).2.operands (a.pushRange ids).1 = ids := by
  have htable := a.operandTable_pushRange ids
  rw [operands, ← Array.length_toList, Array.toList_extract, htable]
  unfold pushRange
  split
  · next hempty => simp [List.isEmpty_iff.mp hempty]
  · simp [List.extract_eq_take_drop]

/-! ## What calls read -/

section Reads

variable {kind : NodeKind} (hk : ∀ m ∈ kind.operands, m < a.size)

include hk

theorem infer_readsInside : a.ReadsInside (·.infer kind) :=
  fun _ h => infer_congr fun m hm => h.egress (hk m (NodeKind.mem_operands_of_direct hm))

theorem typeFault?_readsInside : a.ReadsInside (Builder.typeFault? · kind) := by
  intro b h
  cases kind with
  | declare name type init | declareAt slot name type init =>
    have hinit := h.egress (hk init (List.mem_singleton_self init))
    cases type <;> simp only [Builder.typeFault?, hinit]
  | literal value type => cases type <;> rfl
  | _ => rfl

end Reads

theorem Linear.canLink_readsInside (ha : a.Linear) {prev next : NodeId} (hprev : prev < a.size)
    (hnext : next < a.size) : a.ReadsInside (·.canLink prev next) := by
  intro b h
  have hcontains {id : NodeId} (hid : id < a.size) : b.contains id = a.contains id := by
    simp only [contains, hid, Nat.lt_of_lt_of_le hid h.size_le]
  have hchain : b.chain (some next) = a.chain (some next) :=
    h.chain ha fun _ hid => Option.some.inj hid ▸ hnext
  simp only [canLink, hcontains hprev, hcontains hnext, h.next? hprev, h.isLinked hnext, hchain]

end Arena

namespace Builder

variable {links : List Link} {b b' : Builder}

/-! ## What a builder holds -/

/-- Whatever a builder holds is inside of its arena, and its nodes are made of nodes before them. -/
structure Enclosed (b : Builder) : Prop where
  next : ∀ n m, b.arena.next? n = some m → m < b.arena.size
  operand : ∀ n kind, b.arena.kind? n = some kind → ∀ m ∈ kind.operands, m < n ∧ m < b.arena.size
  element : ∀ n kind r, b.arena.kind? n = some kind → kind.range? = some r →
    r.start + r.length ≤ b.arena.operandTable.size ∧
      ∀ m ∈ b.arena.operands r, m < n ∧ m < b.arena.size
  table : ∀ m ∈ b.arena.operandTable, m < b.arena.size
  first : ∀ id, b.first = some id → id < b.arena.size
  last : ∀ id, b.last = some id → id < b.arena.size

theorem Building.ordered (h : Building links b) : b.arena.Ordered := by
  induction h with
  | empty => exact .empty
  | @node links b h kind own ih =>
    rcases node_leaves kind b with hb | ⟨hops, hb⟩
    · rwa [hb]
    · rw [hb]
      exact ih.push h.sound.closed ⟨hops, own⟩
  | @range links b h ids ih =>
    rcases range_leaves ids b with hb | ⟨-, hb⟩
    · rwa [hb]
    · rw [hb]
      exact ih.pushRange h.sound.closed ids
  | @sequence links b _ ids ih =>
    rw [sequence_leaves]
    exact ih.linkAll ids
  | @pushStatement links b _ id ih =>
    rw [(pushStatement_leaves id b).1]
    exact ih.linkAll _

/-- The last statement is one of the arena: it is found at the end of a chain. -/
theorem Building.last_lt (h : Building links b) : ∀ id, b.last = some id → id < b.arena.size := by
  induction h with
  | empty =>
    intro id h
    cases h
  | @node links b _ kind _ ih =>
    rcases node_leaves kind b with hb | ⟨-, hb⟩
    · rwa [hb]
    · rw [hb]
      exact fun id hid => b.arena.size_push kind ▸ Nat.lt_succ_of_lt (ih id hid)
  | @range links b _ ids ih =>
    rcases range_leaves ids b with hb | ⟨-, hb⟩
    · rwa [hb]
    · rw [hb]
      exact fun id hid => (b.arena.size_pushRange ids).symm ▸ ih id hid
  | @sequence links b h ids ih =>
    rw [sequence_leaves]
    exact fun id hid => (h.sound.closed.linkAll ids).2.1 ▸ ih id hid
  | @pushStatement links b h id ih =>
    rcases pushStatement_cases id b with ⟨f, hrun, -⟩ | ⟨hid, b', harena, -, hrun⟩
    · rwa [hrun]
    · obtain ⟨hclosed, hsize, -⟩ := h.sound.closed.linkAll (b.last.toList ++ [id])
      rw [hrun]
      intro last hlast
      have hmem : last ∈ b'.arena.chain (some id) := List.mem_of_getLast? hlast
      rw [harena] at hmem
      refine harena ▸ hclosed.chain_lt (fun _ h => ?_) hmem
      exact Option.some.inj h ▸ hsize.symm ▸ hid

theorem Building.enclosed (h : Building links b) : b.Enclosed := by
  have hclosed := h.sound.closed
  have hlt {n : NodeId} {kind : NodeKind} (hk : b.arena.kind? n = some kind) {m : NodeId}
      (hm : m < n) : m < n ∧ m < b.arena.size := ⟨hm, Nat.lt_trans hm (Arena.kind?_lt hk)⟩
  constructor
  · exact fun n m hm => hclosed.inside hm
  · exact fun n kind hk m hm => hlt hk (h.ordered.operand hk m hm)
  · intro n kind r hk hr
    exact ⟨(hclosed.kinds hk).range r hr, fun m hm => hlt hk (h.ordered.element hk hr m hm)⟩
  · exact hclosed.table
  · exact h.sound.first
  · exact h.last_lt

/-! ## What calls read -/

/-- The call is refused for one of the nodes, which the builder does not have, and changes nothing. -/
def Refuses {α : Type} (b : Builder) (call : BuildM α) (ids : List NodeId) : Prop :=
  ∃ m ∈ ids, b.arena.size ≤ m ∧ call.run b = (.error (.unknownNode m), b)

theorem refuses_or_known {α : Type} (b : Builder) (ids : List NodeId) (call : BuildM α) :
    b.Refuses (do requireKnown ids; call) ids ∨ ∀ m ∈ ids, m < b.arena.size := by
  cases hf : ids.find? (!b.arena.contains ·) with
  | none => exact .inr (known_of_find? hf)
  | some m =>
    refine .inl ⟨m, List.mem_of_find?_eq_some hf, ?_, ?_⟩
    · simpa [Arena.contains] using List.find?_some hf
    · rw [run_bind, run_requireKnown, hf]

/-- What the calls of a builder read is inside of its arena: before anything is read of a node that
is not there, the call is refused. -/
structure Bounded (b : Builder) : Prop where
  node : ∀ kind, b.Refuses (node kind) kind.operands ∨ b.arena.ReadsInside (·.infer kind)
  range : ∀ ids, b.Refuses (range ids) ids ∨ ∀ m ∈ ids, m < b.arena.size
  link : ∀ prev next, b.Refuses (link prev next) [prev, next] ∨
    b.arena.ReadsInside (·.canLink prev next)
  pushStatement : ∀ id, b.Refuses (pushStatement id) [id] ∨
    b.arena.ReadsInside fun a => (a.isLinked id, a.chain (some id))
  finish : ∀ kind ∈ b.arena.nodes.toList.map (·.kind), b.arena.ReadsInside (typeFault? · kind)
  finish_first : ∀ id, b.first = some id → b.arena.ReadsInside fun a => (a.next? id, a.egress id)

theorem Building.bounded (h : Building links b) : b.Bounded := by
  have hclosed := h.sound.closed
  constructor
  · intro kind
    exact (b.refuses_or_known kind.operands _).imp_right Arena.infer_readsInside
  · exact fun ids => b.refuses_or_known ids _
  · intro prev next
    refine (b.refuses_or_known [prev, next] _).imp_right fun hknown => ?_
    exact hclosed.canLink_readsInside (hknown prev List.mem_cons_self)
      (hknown next (List.mem_cons_of_mem _ List.mem_cons_self))
  · intro id
    refine (b.refuses_or_known [id] _).imp_right fun hknown a ha => ?_
    have hid := hknown id (List.mem_singleton_self id)
    have hchain := ha.chain hclosed.toLinear fun _ h => Option.some.inj h ▸ hid
    exact Prod.ext (ha.isLinked hid) hchain
  · intro kind hkind
    obtain ⟨node, hnode, rfl⟩ := List.mem_map.mp hkind
    obtain ⟨n, hn⟩ := Array.mem_iff_getElem?.mp (Array.mem_toList_iff.mp hnode)
    have hk : b.arena.kind? n = some node.kind := by rw [Arena.kind?, hn, Option.map_some]
    exact Arena.typeFault?_readsInside (hclosed.kinds hk).operands
  · intro id hid a ha
    have hlt := h.sound.first id hid
    exact Prod.ext (ha.next? hlt) (ha.egress hlt)

/-- A single link is a sequence of two nodes. -/
theorem link_leaves (prev next : NodeId) (b : Builder) :
    ((link prev next).run b).2 = ((sequence [prev, next]).run b).2 := by
  rw [sequence_leaves, Arena.linkAll]
  cases hl : b.arena.canLink prev next with
  | true => rw [link_ok hl]; rfl
  | false =>
    obtain ⟨f, hf⟩ := link_refused hl
    rw [hf]
    rfl

/-! ## Ranges -/

/-- What one call leaves, whatever it is given. -/
inductive Called (b : Builder) : Builder → Prop
  | node (kind : NodeKind) : Called b ((Builder.node kind).run b).2
  | range (ids : List NodeId) : Called b ((Builder.range ids).run b).2
  | sequence (ids : List NodeId) : Called b ((Builder.sequence ids).run b).2
  | pushStatement (id : NodeId) : Called b ((Builder.pushStatement id).run b).2

theorem Called.table (h : b.Called b') :
    b.arena.operandTable.toList <+: b'.arena.operandTable.toList := by
  cases h with
  | node kind =>
    rcases node_leaves kind b with hb | ⟨-, hb⟩
    · rw [hb]
    · exact hb ▸ List.prefix_refl _
  | range ids =>
    rcases range_leaves ids b with hb | ⟨-, hb⟩
    · rw [hb]
    · exact hb ▸ Arena.table_pushRange _ ids
  | sequence ids => rw [sequence_leaves, Arena.operandTable_linkAll]
  | pushStatement id => rw [(pushStatement_leaves id b).1, Arena.operandTable_linkAll]

theorem table_of_calls (h : ReflTransGen Called b b') :
    b.arena.operandTable.toList <+: b'.arena.operandTable.toList := by
  induction h with
  | refl => exact List.prefix_refl _
  | tail _ hcall ih => exact ih.trans hcall.table

/-- A range that was given denotes the nodes that it was asked for. -/
theorem operands_range {ids : List NodeId} {r : NodeRange} (h : (range ids).run b = (.ok r, b')) :
    r.start + r.length ≤ b'.arena.operandTable.size ∧ b'.arena.operands r = ids := by
  unfold range at h
  rw [run_bind, run_requireKnown] at h
  cases hf : ids.find? (!b.arena.contains ·) with
  | some node =>
    rw [hf] at h
    cases h
  | none =>
    rw [hf] at h
    dsimp only at h
    by_cases hlong : Arena.rangeLimit < ids.length
    · rw [if_pos hlong] at h
      cases h
    · rw [if_neg hlong] at h
      obtain ⟨hr, rfl⟩ := Prod.mk.inj h
      exact Except.ok.inj hr ▸ b.arena.operands_pushRange ids

theorem operands_of_calls {ids : List NodeId} {r : NodeRange}
    (h : (range ids).run b = (.ok r, b')) {b'' : Builder} (hcalls : ReflTransGen Called b' b'') :
    r.start + r.length ≤ b''.arena.operandTable.size ∧ b''.arena.operands r = ids := by
  obtain ⟨hinside, hids⟩ := operands_range h
  have htable := table_of_calls hcalls
  exact ⟨Nat.le_trans hinside htable.length_le,
    (Arena.operands_grow htable hinside).trans hids⟩

/-! ## Programs -/

/-- In every state of a builder that calls leave, with whatever node numbers, refused or failed half
way, as long as ranges are those that the builder gave: what it holds is inside of its arena, and
nodes are made of nodes before them. No call reads anything of a node that is not there: calls are
refused for it, and sequences and statements are added by single links, each of which leaves what
calls can leave. A range denotes what it was asked for after any later calls. A program that is built
is interpreted and rendered without reading anything outside of its arena. -/
theorem Building.stays_inside (h : Building links b) :
    b.Enclosed ∧ b.Bounded ∧
      (∀ prev next, ∃ links', Building links' ((Builder.link prev next).run b).2) ∧
      (∀ ids r b', (Builder.range ids).run b = (.ok r, b') → ∀ b'', ReflTransGen Called b' b'' →
        r.start + r.length ≤ b''.arena.operandTable.size ∧ b''.arena.operands r = ids) ∧
      ∀ options p, b.finish options = .ok p →
        (∀ e fuel this frame, p.arena.ReadsInside fun a =>
          ({ p with arena := a } : Program).interpret e fuel this frame) ∧
        ∀ names depth, p.arena.ReadsInside fun a =>
          (a.chain p.first).map fun id => a.displayTo names depth id := by
  refine ⟨h.enclosed, h.bounded, ?_, ?_, ?_⟩
  · intro prev next
    exact ⟨_, link_leaves prev next b ▸ h.sequence _⟩
  · intro ids r b' hr b'' hcalls
    exact operands_of_calls hr hcalls
  · intro options p hp
    obtain ⟨harena, hfirst, -⟩ := Program.finish_ok hp
    have hclosed : p.arena.Closed := harena ▸ h.sound.closed
    have hhead : ∀ id, p.first = some id → id < p.arena.size := harena ▸ hfirst ▸ h.sound.first
    constructor
    · intro e fuel this frame
      exact hclosed.interpret_readsInside hhead e this fuel frame
    · intro names depth a ha
      dsimp only
      rw [ha.chain hclosed.toLinear hhead]
      exact List.map_congr_left fun id hid =>
        ha.displayTo hclosed names depth (hclosed.chain_lt hhead hid)

/-- A list with the same element twice, in a block; a return and a sequence of nodes that are not
there are refused in between. -/
def listedTwice : Builder :=
  let b := ((node (.literal (.int 1) none)).run .empty).2
  let b := ((range [0, 0]).run b).2
  let b := ((node (.ret 5)).run b).2
  let b := ((node (.listLit ⟨0, 2⟩)).run b).2
  let b := ((node (.block (some 1))).run b).2
  let b := ((sequence [0, 9]).run b).2
  ((pushStatement 2).run b).2

theorem Building.stays_inside_listedTwice :
    listedTwice.Enclosed ∧ listedTwice.first = some 2 ∧
      listedTwice.arena.operands ⟨0, 2⟩ = [0, 0] ∧
      ∀ names, listedTwice.arena.ReadsInside fun a =>
        (a.chain (some 2)).map fun id => a.displayTo names 4 id := by
  have hliteral := Building.empty.plainNode (.literal (.int 1) none) rfl
  have hrange := (hliteral.range [0, 0]).plainNode (.ret 5) rfl
  have hlist := hrange.node (.listLit ⟨0, 2⟩) fun r hr => Option.some.inj hr ▸ by decide
  have hblock := hlist.plainNode (.block (some 1)) rfl
  have hall := (hblock.sequence [0, 9]).pushStatement 2
  obtain ⟨henclosed, -, -, -, hprogram⟩ := Building.stays_inside hall
  obtain ⟨-, -, -, hranges, -⟩ := Building.stays_inside hliteral
  have hcalls : ReflTransGen Called ((Builder.range [0, 0]).run _).2 listedTwice :=
    ((((ReflTransGen.single (.node (.ret 5))).tail (.node (.listLit ⟨0, 2⟩))).tail
      (.node (.block (some 1)))).tail (.sequence [0, 9])).tail (.pushStatement 2)
  have hkept := (hranges [0, 0] ⟨0, 2⟩ _ rfl _ hcalls).2
  have hrendered := (hprogram ⟨none, none, .interpretOnly, 0, false⟩ _ rfl).2
  exact ⟨henclosed, rfl, hkept, fun names => hrendered names 4⟩

end Builder

end MeteredScript
