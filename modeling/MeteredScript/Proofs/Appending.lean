import MeteredScript.Proofs.Program.Inference
import MeteredScript.Proofs.Program.Ownership

/-!
# Statements of a program

A statement is appended to the last one that the builder remembers. Sequences can link more nodes to
the program, and the builder does not take notice of them: from then on the statement that it
remembers is not the last one any more, and every further statement is refused. As long as nothing
has been linked behind the last statement, statements can be appended.
-/

namespace MeteredScript

open Relation (ReflTransGen)

namespace Arena

variable {a b : Arena} {prev next : NodeId}

/-! ## Ends of chains -/

namespace Walk

variable {head : Option NodeId} {ids : List NodeId}

theorem congr (h : a.Walk head ids) (same : ∀ id ∈ ids, b.next? id = a.next? id) :
    b.Walk head ids := by
  induction h with
  | done => exact .done
  | @step id rest _ ih =>
    obtain ⟨hid, hrest⟩ := List.forall_mem_cons.mp same
    exact .step (hid.symm ▸ ih hrest)

/-- The end of a walk is the node that has no successor. -/
theorem getLast?_eq_iff (h : a.Walk head ids) {id : NodeId} (hid : id ∈ ids) :
    ids.getLast? = some id ↔ a.next? id = none := by
  induction h with
  | done => exact absurd hid List.not_mem_nil
  | @step first rest hw ih =>
    cases hw' : a.next? first with
    | none =>
      rw [hw'] at hw
      cases hw
      obtain rfl := List.mem_singleton.mp hid
      simp [hw']
    | some second =>
      rw [hw'] at hw
      cases hw with
      | @step _ rest _ =>
      rw [List.getLast?_cons_cons]
      rcases List.mem_cons.mp hid with rfl | hid
      · constructor
        · intro hlast
          exact (ih (List.mem_of_getLast? hlast)).mp hlast
        · intro hnone
          exact absurd (hw'.symm.trans hnone) (Option.some_ne_none second)
      · exact ih hid

/-- A link behind the end of a walk makes it go on. -/
theorem link (hl : a.canLink prev next = true) (h : a.Walk head ids)
    (hend : ids.getLast? = some prev) {more : List NodeId} (hmore : a.Walk (some next) more)
    (hapart : prev ∉ more) : (a.link prev next).2.Walk head (ids ++ more) := by
  induction h with
  | done => cases hend
  | @step first rest hw ih =>
    refine .step ?_
    rw [next?_link hl]
    cases hw' : a.next? first with
    | none =>
      rw [hw'] at hw
      cases hw
      obtain rfl : first = prev := by simpa using hend
      rw [if_pos rfl]
      refine hmore.congr fun id hid => ?_
      rw [next?_link hl, if_neg]
      rintro rfl
      exact hapart hid
    | some second =>
      have hne : prev ≠ first := by
        rintro rfl
        exact absurd ((linkable hl).last.symm.trans hw') (Option.some_ne_none second).symm
      rw [if_neg hne]
      rw [hw'] at hw
      cases hw with
      | step =>
        rw [List.getLast?_cons_cons] at hend
        exact hw' ▸ ih hend

end Walk

/-- A link behind the end of a chain appends the other chain. -/
theorem Linear.chain_link (ha : a.Linear) (hl : a.canLink prev next = true) {head : NodeId}
    (hhead : head < a.size) (hend : (a.chain (some head)).getLast? = some prev) :
    (a.link prev next).2.chain (some head) = a.chain (some head) ++ a.chain (some next) := by
  have hnext := (linkable hl).next_lt
  have hwalk := (ha.walk_chain hhead).link hl hend (ha.walk_chain hnext) (linkable hl).apart
  exact hwalk.chain_eq ((ha.link hl).length_walk_le (by rwa [size_link hl]) hwalk)

theorem Owned.linkAll (h : a.Owned) (ids : List NodeId) : (a.linkAll ids).Owned := by
  fun_induction Arena.linkAll a ids with
  | case1 a prev next rest hl ih => exact ih (h.link hl)
  | case2 => exact h
  | case3 => exact h

theorem Linear.size_linkAll (h : a.Linear) (ids : List NodeId) :
    (a.linkAll ids).size = a.size ∧
      ∀ head < a.size, a.chain (some head) ⊆ (a.linkAll ids).chain (some head) := by
  fun_induction Arena.linkAll a ids with
  | case1 a prev next rest hl ih =>
    obtain ⟨hsize, hchain⟩ := ih (h.link hl)
    refine ⟨hsize.trans (size_link hl), fun head hhead id hid => ?_⟩
    exact hchain head (by rwa [size_link hl]) ((h.mem_chain_link hl hhead id).mpr (.inl hid))
  | case2 => exact ⟨rfl, fun _ _ => List.Subset.refl _⟩
  | case3 => exact ⟨rfl, fun _ _ => List.Subset.refl _⟩

end Arena

namespace Builder

variable {b : Builder}

/-- The statements of the program as it stands. -/
def statements (b : Builder) : List NodeId := b.arena.chain b.first

/-- The last statement of the program as it stands. The builder may remember another one. -/
def lastStatement? (b : Builder) : Option NodeId := b.statements.getLast?

/-- The builder remembers one of its statements, unless there are none. -/
structure Tracked (b : Builder) : Prop where
  owned : b.arena.Owned
  first : ∀ id, b.first = some id → id < b.arena.size
  empty : b.last = none ↔ b.first = none
  last : ∀ id, b.last = some id → id ∈ b.statements

namespace Tracked

variable (h : b.Tracked)

include h

theorem last_lt {id : NodeId} (hid : b.last = some id) : id < b.arena.size :=
  h.owned.chain_lt h.first (h.last id hid)

theorem exists_first {id : NodeId} (hid : b.last = some id) :
    ∃ first, b.first = some first ∧ first < b.arena.size := by
  cases hfirst : b.first with
  | none => cases hid.symm.trans (h.empty.mpr hfirst)
  | some first => exact ⟨first, rfl, h.first first hfirst⟩

/-- What is remembered is the last statement just if nothing has been linked behind it. -/
theorem last_eq_iff :
    b.last = b.lastStatement? ↔ ∀ id, b.last = some id → b.arena.next? id = none := by
  cases hlast : b.last with
  | none =>
    have hnone : b.lastStatement? = none := by
      rw [lastStatement?, statements, h.empty.mp hlast, Arena.chain_none]
      rfl
    simp [hnone]
  | some id =>
    obtain ⟨first, hfirst, hlt⟩ := h.exists_first hlast
    have hwalk : b.arena.Walk (some first) b.statements := by
      rw [statements, hfirst]
      exact h.owned.walk_chain hlt
    have hend := hwalk.getLast?_eq_iff (h.last id hlast)
    rw [lastStatement?, eq_comm, hend]
    simp

/-! ## Calls -/

/-- Growth of the arena without links, or with links whatever they are, loses no statement. -/
theorem grow {a : Arena} (howned : a.Owned) (hsize : b.arena.size ≤ a.size)
    (hchain : ∀ head < b.arena.size, b.arena.chain (some head) ⊆ a.chain (some head)) :
    Tracked { b with arena := a } := by
  refine ⟨howned, fun id hid => Nat.lt_of_lt_of_le (h.first id hid) hsize, h.empty,
    fun id hid => ?_⟩
  obtain ⟨first, hfirst, hlt⟩ := h.exists_first hid
  have hmem := h.last id hid
  unfold statements at hmem ⊢
  dsimp only
  rw [hfirst] at hmem ⊢
  exact hchain first hlt hmem

end Tracked

theorem link_alreadyLinked {prev next : NodeId} (hprev : prev < b.arena.size)
    (hnext : next < b.arena.size) (hl : b.arena.canLink prev next = false) :
    (link prev next).run b = (.error (.alreadyLinked next), b) := by
  have hlinked : b.arena.link prev next = (false, b.arena) := by simp [Arena.link, hl]
  rw [run_link_known (by simp [Arena.contains, hprev, hnext]), hlinked]
  rfl

/-- What becomes of a statement that is pushed. -/
theorem pushStatement_run (hlast : ∀ last, b.last = some last → last < b.arena.size)
    (id : NodeId) : (pushStatement id).run b =
      if b.arena.size ≤ id then (.error (.unknownNode id), b)
      else match b.last with
        | none =>
          if b.arena.isLinked id then (.error (.alreadyLinked id), b)
          else (.ok (), { b with
            first := some id, last := (b.arena.chain (some id)).getLast? })
        | some last =>
          if b.arena.canLink last id then
            (.ok (), { b with
              arena := (b.arena.link last id).2
              last := ((b.arena.link last id).2.chain (some id)).getLast? })
          else (.error (.alreadyLinked id), b) := by
  unfold pushStatement
  rw [run_bind, run_requireKnown]
  by_cases hid : b.arena.size ≤ id
  · simp [Arena.contains, hid]
  · have hlt := Nat.lt_of_not_le hid
    have hfind : [id].find? (!b.arena.contains ·) = none := by simp [Arena.contains, hlt]
    rw [hfind, if_neg hid]
    dsimp only
    rw [run_get_bind]
    cases hb : b.last with
    | none =>
      dsimp only
      split <;> rfl
    | some last =>
      dsimp only
      rw [run_bind]
      cases hl : b.arena.canLink last id with
      | true =>
        rw [link_ok hl]
        rfl
      | false =>
        rw [link_alreadyLinked (hlast last hb) hlt hl]
        rfl

/-- A statement that is accepted comes behind all statements, and the last node of its chain is
remembered. -/
theorem Tracked.pushStatement_ok (h : b.Tracked) {id : NodeId} {b' : Builder}
    (hrun : (pushStatement id).run b = (.ok (), b')) :
    b'.Tracked ∧ b'.statements = b.statements ++ b.arena.chain (some id) ∧
      b'.last = b'.lastStatement? := by
  rw [pushStatement_run fun _ => h.last_lt] at hrun
  by_cases hid : b.arena.size ≤ id
  · rw [if_pos hid] at hrun
    cases (Prod.mk.inj hrun).1
  have hlt := Nat.lt_of_not_le hid
  rw [if_neg hid] at hrun
  have hlast_ne {a : Arena} (ha : a.Linear) (hin : id < a.size) :
      ∃ last, (a.chain (some id)).getLast? = some last := by
    cases hw : a.chain (some id) with
    | nil => cases hw ▸ ha.walk_chain hin
    | cons _ _ => exact ⟨_, List.getLast?_cons⟩
  cases hb : b.last with
  | none =>
    simp only [hb] at hrun
    split at hrun
    · cases (Prod.mk.inj hrun).1
    · obtain rfl := (Prod.mk.inj hrun).2
      obtain ⟨last, hlast⟩ := hlast_ne h.owned.toLinear hlt
      refine ⟨⟨h.owned, fun _ hf => Option.some.inj hf ▸ hlt, ?_, fun _ => List.mem_of_getLast?⟩,
        ?_, rfl⟩
      · simp [hlast]
      · simp [statements, h.empty.mp hb, Arena.chain_none]
  | some last =>
    simp only [hb] at hrun
    split at hrun
    · next hl =>
      obtain rfl := (Prod.mk.inj hrun).2
      obtain ⟨first, hfirst, hflt⟩ := h.exists_first hb
      have hlinear := h.owned.toLinear
      have hsize := Arena.size_link hl
      have hend : (b.arena.chain (some first)).getLast? = some last := by
        have := h.last_eq_iff.mpr fun _ hid => Option.some.inj (hb.symm.trans hid) ▸
          (Arena.linkable hl).last
        rw [hb, lastStatement?, statements, hfirst] at this
        exact this.symm
      have hchain := hlinear.chain_link hl hflt hend
      have hsame : (b.arena.link last id).2.chain (some id) = b.arena.chain (some id) := by
        have hwalk := (hlinear.walk_chain hlt).congr (b := (b.arena.link last id).2) fun n hn => by
          rw [Arena.next?_link hl, if_neg]
          rintro rfl
          exact (Arena.linkable hl).apart hn
        exact hwalk.chain_eq (hsize ▸ hlinear.length_walk_le hlt (hlinear.walk_chain hlt))
      obtain ⟨end', hend'⟩ := hlast_ne hlinear hlt
      have hstatements :
          statements { b with arena := (b.arena.link last id).2, last := some end' } =
            b.statements ++ b.arena.chain (some id) := by
        simp only [statements, hfirst]
        exact hchain
      rw [hsame, hend']
      refine ⟨⟨h.owned.link hl, fun n hn => hsize ▸ h.first n hn, ?_, fun n hn => ?_⟩,
        hstatements, ?_⟩
      · simp [hfirst]
      · rw [hstatements, List.mem_append]
        exact .inr (List.mem_of_getLast? (hend'.trans hn))
      · rw [lastStatement?, hstatements, List.getLast?_append, hend']
        rfl
    · cases (Prod.mk.inj hrun).1

/-! ## States that calls leave -/

theorem Reached.tracked (h : b.Reached) : b.Tracked := by
  induction h with
  | empty =>
    constructor
    case owned => exact .empty
    case first => simp [Builder.empty]
    case empty => rfl
    case last => simp [Builder.empty]
  | @node b _ kind ih =>
    rcases node_leaves kind b with hb | ⟨-, hb⟩
    · rwa [hb]
    · have hsize : b.arena.size ≤ (b.arena.push kind).2.size :=
        b.arena.size_push kind ▸ Nat.le_succ _
      have hchain {head : NodeId} (hhead : head < b.arena.size) :=
        ih.owned.toLinear.mem_chain_grow (b.arena.follows_push kind) hsize hhead
      rw [hb]
      exact ih.grow (ih.owned.push kind) hsize fun _ hhead id => (hchain hhead id).mpr
  | @range b _ ids ih =>
    rcases range_leaves ids b with hb | ⟨-, hb⟩
    · rwa [hb]
    · have hsize := Nat.le_of_eq (b.arena.size_pushRange ids).symm
      have hchain {head : NodeId} (hhead : head < b.arena.size) :=
        ih.owned.toLinear.mem_chain_grow (b.arena.follows_pushRange ids) hsize hhead
      rw [hb]
      exact ih.grow (ih.owned.pushRange ids) hsize fun _ hhead id => (hchain hhead id).mpr
  | @sequence b _ ids ih =>
    obtain ⟨hsize, hchain⟩ := ih.owned.toLinear.size_linkAll ids
    rw [sequence_leaves]
    exact ih.grow (ih.owned.linkAll ids) (Nat.le_of_eq hsize.symm) hchain
  | @pushStatement b _ id ih =>
    rcases hrun : (Builder.pushStatement id).run b with ⟨f | _, b'⟩
    · rcases pushStatement_cases id b with ⟨_, hrun', -⟩ | ⟨-, _, -, -, hrun'⟩
      · obtain rfl := (Prod.mk.inj (hrun.symm.trans hrun')).2
        exact ih
      · cases (Prod.mk.inj (hrun.symm.trans hrun')).1
    · exact (ih.pushStatement_ok hrun).1

/-- A statement can be appended to the program as it stands: it is a node without a predecessor
whose chain does not lead to the last statement. -/
structure Appendable (b : Builder) (id : NodeId) : Prop where
  known : id < b.arena.size
  first : ∀ m, ¬ b.arena.Follows m id
  apart : ∀ last, b.lastStatement? = some last → last ∉ b.arena.chain (some id)

theorem Tracked.pushStatement_ok_iff (h : b.Tracked) (id : NodeId) :
    ((pushStatement id).run b).1 = .ok () ↔ b.Appendable id ∧ b.last = b.lastStatement? := by
  have hmark : b.arena.isLinked id = false ↔ ∀ m, ¬ b.arena.Follows m id := by
    rw [← Bool.not_eq_true, h.owned.linked_iff, not_exists]
  rw [pushStatement_run fun _ => h.last_lt]
  by_cases hid : b.arena.size ≤ id
  · rw [if_pos hid]
    apply iff_of_false
    · simp
    · rintro ⟨happ, -⟩
      exact Nat.not_lt_of_le hid happ.known
  have hlt := Nat.lt_of_not_le hid
  rw [if_neg hid, h.last_eq_iff]
  cases hb : b.last with
  | none =>
    have hnone : b.lastStatement? = none := by
      rw [lastStatement?, statements, h.empty.mp hb, Arena.chain_none]
      rfl
    dsimp only
    cases hl : b.arena.isLinked id with
    | true =>
      apply iff_of_false
      · simp
      · rintro ⟨happ, -⟩
        cases hl.symm.trans (hmark.mpr happ.first)
    | false =>
      have happ : b.Appendable id := by
        constructor
        case known => exact hlt
        case first => exact hmark.mp hl
        case apart => simp [hnone]
      apply iff_of_true rfl
      exact ⟨happ, by simp⟩
  | some last =>
    have hlast := h.last_lt hb
    have hcan : b.arena.canLink last id = true ↔ _ := h.owned.canLink_iff
    rw [← h.owned.mem_chain_iff hlt] at hcan
    have hnext : (∀ m, ¬ b.arena.Follows last m) ↔ b.arena.next? last = none :=
      Option.eq_none_iff_forall_ne_some.symm
    have hend := h.last_eq_iff
    rw [hb] at hend
    dsimp only
    cases hl : b.arena.canLink last id with
    | true =>
      obtain ⟨-, -, hsucc, hfirst, hapart⟩ := hcan.mp hl
      have hremembered : ∀ n, some last = some n → b.arena.next? n = none :=
        fun n hn => Option.some.inj hn ▸ hnext.mp hsucc
      have happ : b.Appendable id := by
        constructor
        case known => exact hlt
        case first => exact hfirst
        case apart =>
          intro e he
          obtain rfl := Option.some.inj ((hend.mpr hremembered).trans he)
          exact hapart
      exact iff_of_true rfl ⟨happ, hremembered⟩
    | false =>
      apply iff_of_false
      · simp
      · rintro ⟨happ, hremembered⟩
        have hsucc := hnext.mpr (hremembered last rfl)
        have hapart := happ.apart last (hend.mpr hremembered).symm
        have hcan' := hcan.mpr ⟨hlast, hlt, hsucc, happ.first, hapart⟩
        cases hl.symm.trans hcan'

/-- Of two chains with the same end, one contains the head of the other. -/
theorem Tracked.leads_to_first (h : b.Tracked) {id last : NodeId} (hid : id < b.arena.size)
    (hlast : b.lastStatement? = some last) (hmem : last ∈ b.arena.chain (some id)) :
    (∃ m, b.arena.Follows m id) ∨
      ∃ first, b.first = some first ∧ first ∈ b.arena.chain (some id) := by
  have hstatement : last ∈ b.statements := List.mem_of_getLast? hlast
  unfold statements at hstatement
  cases hfirst : b.first with
  | none =>
    rw [hfirst, Arena.chain_none] at hstatement
    exact absurd hstatement List.not_mem_nil
  | some first =>
    have hlt := h.first first hfirst
    rw [hfirst, h.owned.mem_chain_iff hlt] at hstatement
    rw [h.owned.mem_chain_iff hid] at hmem
    rcases h.owned.leads hstatement hmem with hpath | hpath
    · rcases hpath.cases_tail with heq | ⟨m, -, hm⟩
      · exact .inr ⟨first, rfl, (h.owned.mem_chain_iff hid).mpr (heq ▸ .refl)⟩
      · exact .inl ⟨m, hm⟩
    · exact .inr ⟨first, rfl, (h.owned.mem_chain_iff hid).mpr hpath⟩

theorem Tracked.pushStatement_error (h : b.Tracked) {id : NodeId} {f : BuildFault}
    (hrun : ((pushStatement id).run b).1 = .error f) :
    f = .unknownNode id ∧ b.arena.size ≤ id ∨ f = .alreadyLinked id ∧ id < b.arena.size := by
  rw [pushStatement_run fun _ => h.last_lt] at hrun
  by_cases hid : b.arena.size ≤ id
  · rw [if_pos hid] at hrun
    exact .inl ⟨(Except.error.inj hrun).symm, hid⟩
  · rw [if_neg hid] at hrun
    refine .inr ⟨?_, Nat.lt_of_not_le hid⟩
    split at hrun <;> split at hrun
    · exact (Except.error.inj hrun).symm
    · cases hrun
    · cases hrun
    · exact (Except.error.inj hrun).symm

/-- In every state that calls leave, a node that can be appended to the program is accepted as a
statement just if the builder remembers the last statement, that is if nothing has been linked
behind the statement that it remembers. What is accepted comes behind the statements that there
were, with all of its chain, and then the last statement is remembered. What is refused is not
there, or it has a predecessor, or the program is on its chain, or something has been linked behind
the statement that is remembered. -/
theorem Reached.statements_appended (h : b.Reached) (id : NodeId) :
    (((Builder.pushStatement id).run b).1 = .ok () ↔ b.Appendable id ∧ b.last = b.lastStatement?) ∧
      (b.last = b.lastStatement? ↔
        ∀ last, b.last = some last → ∀ m, ¬ b.arena.Follows last m) ∧
      (∀ b', (Builder.pushStatement id).run b = (.ok (), b') →
        b'.statements = b.statements ++ b.arena.chain (some id) ∧ b'.last = b'.lastStatement?) ∧
      ∀ f, ((Builder.pushStatement id).run b).1 = .error f →
        f = .unknownNode id ∧ b.arena.size ≤ id ∨
        f = .alreadyLinked id ∧ ((∃ m, b.arena.Follows m id) ∨
          (∃ first, b.first = some first ∧ first ∈ b.arena.chain (some id)) ∨
          b.last ≠ b.lastStatement?) := by
  have htracked := h.tracked
  have haccepted := htracked.pushStatement_ok_iff id
  refine ⟨haccepted, ?_, fun b' hrun => (htracked.pushStatement_ok hrun).2, fun f hrun => ?_⟩
  · rw [htracked.last_eq_iff]
    exact forall₂_congr fun _ _ => Option.eq_none_iff_forall_ne_some
  · refine (htracked.pushStatement_error hrun).imp_right fun ⟨hf, hid⟩ => ⟨hf, ?_⟩
    have hrefused : ¬ (b.Appendable id ∧ b.last = b.lastStatement?) := by
      rw [← haccepted, hrun]
      simp
    by_contra hno
    simp only [not_or, not_exists, not_and, not_not] at hno
    obtain ⟨hfirst, hapart, hremembered⟩ := hno
    refine hrefused ⟨⟨hid, hfirst, fun last hlast hmem => ?_⟩, hremembered⟩
    rcases htracked.leads_to_first hid hlast hmem with ⟨m, hm⟩ | ⟨first, hf, hin⟩
    · exact hfirst m hm
    · exact hapart first hf hin

/-! ### A statement and what is linked behind it -/

/-- Four nodes, two of them linked, and a statement. -/
def oneStatement : Builder :=
  let b := (List.range 4).foldl (fun b _ => ((node .this).run b).2) .empty
  let b := ((sequence [2, 3]).run b).2
  ((pushStatement 0).run b).2

theorem oneStatement_reached : oneStatement.Reached :=
  ((((Reached.empty.node .this).node .this).node .this).node .this).sequence [2, 3]
    |>.pushStatement 0

theorem Reached.statements_appended_chain :
    oneStatement.Reached ∧ ∃ b', (Builder.pushStatement 2).run oneStatement = (.ok (), b') ∧
      b'.statements = [0, 2, 3] ∧ b'.last = some 3 := by
  obtain ⟨-, -, happended, -⟩ := Reached.statements_appended oneStatement_reached 2
  obtain ⟨hstatements, hlast⟩ := happended _ rfl
  exact ⟨oneStatement_reached, _, rfl, hstatements, hlast⟩

/-- Once a sequence has linked a node behind the last statement, a third node without any links is
refused as one that is already linked. -/
theorem appended_behind_refused :
    ∃ b : Builder, b = ((sequence [0, 1]).run oneStatement).2 ∧ b.Reached ∧
      b.statements = [0, 1] ∧ b.Appendable 2 ∧
      (pushStatement 2).run b = (.error (.alreadyLinked 2), b) := by
  have hreached := oneStatement_reached.sequence [0, 1]
  have hmark := hreached.tracked.owned.linked_iff 2
  refine ⟨_, rfl, hreached, rfl, ⟨by decide, fun m hm => ?_, fun last hlast => ?_⟩, rfl⟩
  · exact absurd (hmark.mpr ⟨m, hm⟩) (by decide)
  · obtain rfl : 1 = last := Option.some.inj hlast
    decide

end Builder

end MeteredScript
