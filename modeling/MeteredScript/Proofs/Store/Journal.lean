import MeteredScript.Proofs.Store.Balance
import MeteredScript.Proofs.Store.Telling

/-!
# Journals that rebuild containers

The reports of one container can be read back from the journal of its account, as identities tell
the containers of an account apart. Replayed from the beginning, they give a copy of the container.
-/

namespace MeteredScript

/-- The change that an entry reports of a container. -/
def Entry.changeOf? (id : Nat) : Entry → Option (Change × Slot × Value)
  | .priced r _ => if r.container = id then some (r.change, r.slot, r.value) else none
  | .viewed .. => none

/-- What was reported of a container, in order. -/
def Account.changesOf (a : Account) (id : Nat) : List (Change × Slot × Value) :=
  a.journal.toList.filterMap (Entry.changeOf? id)

theorem Account.changesOf_enter (a : Account) (r : Report) (delta : Int64) (id : Nat) :
    (a.enter r delta).changesOf id =
      a.changesOf id ++ if r.container = id then [(r.change, r.slot, r.value)] else [] := by
  by_cases h : r.container = id <;> simp [changesOf, enter, Entry.changeOf?, h]

theorem Account.changesOf_issueView (a : Account) (container id : Nat) :
    (a.issueView container).changesOf id = a.changesOf id := by
  simp [changesOf, issueView, Entry.changeOf?]

/-- What a container is apart from its memory. -/
def Container.face (c : Container) : Nat × Nat × Contents := (c.id, c.account, c.contents)

namespace Store

variable {loose : Nat → Prop} {s t : Store}

/-! ## What reports leave as it is -/

theorem post_face (s : Store) (target : Nat) (change : Change) (slot : Slot) (value : Value)
    (n : Nat) : (s.post target change slot value).containers[n]?.map Container.face =
      s.containers[n]?.map Container.face := by
  unfold post
  split
  · rfl
  · split
    · rfl
    · rw [Array.getElem?_modify]
      split
      · rw [Option.map_map]
        rfl
      · rfl

theorem found_post {c : Container} {target : Nat} (hc : s.containers[target]? = some c)
    (change : Change) (slot : Slot) (value : Value) :
    ∃ d, (s.post target change slot value).containers[target]? = some d ∧
      d.id = c.id ∧ d.account = c.account ∧ d.contents = c.contents := by
  have := post_face s target change slot value target
  rw [hc, Option.map_some] at this
  obtain ⟨d, hd, hface⟩ := Option.map_eq_some_iff.mp this
  exact ⟨d, hd, by simpa [Container.face] using hface⟩

theorem found_renewed {c : Container} {target : Nat} (hc : s.containers[target]? = some c)
    (new : Contents) : (s.containers.modify target ({ · with contents := new }))[target]? =
      some { c with contents := new } := by
  rw [Array.getElem?_modify, if_pos rfl, hc]
  rfl

/-- What was reported of a container to an account, by its position. -/
def changesOf (s : Store) (account id : Nat) : List (Change × Slot × Value) :=
  (s.accounts[account]?.map (·.changesOf id)).getD []

theorem changesOf_post {c : Container} {target : Nat} (hc : s.containers[target]? = some c)
    (change : Change) (slot : Slot) (value : Value) (account id : Nat) :
    (s.post target change slot value).changesOf account id =
      s.changesOf account id ++
        if c.account < s.accounts.size ∧ c.account = account ∧ c.id = id then
          [(change, slot, value)] else [] := by
  by_cases hsize : c.account < s.accounts.size
  · simp only [post, hc, Array.getElem?_eq_getElem hsize, changesOf, Array.getElem?_modify]
    by_cases hacc : c.account = account
    · subst hacc
      simp [hsize, Account.changesOf_enter]
    · simp [hacc]
  · simp [post, hc, hsize]

theorem post_accounts_size (s : Store) (target : Nat) (change : Change) (slot : Slot)
    (value : Value) : (s.post target change slot value).accounts.size = s.accounts.size := by
  unfold post
  split
  · rfl
  · split <;> simp

theorem changesOf_posts {c : Container} {target : Nat} (hc : s.containers[target]? = some c)
    (changes : List (Change × Slot × Value)) (account id : Nat) :
    (changes.foldl (fun s (change, slot, value) => s.post target change slot value) s).changesOf
        account id =
      s.changesOf account id ++
        if c.account < s.accounts.size ∧ c.account = account ∧ c.id = id then changes else [] := by
  induction changes generalizing s c with
  | nil => simp
  | cons change rest ih =>
    obtain ⟨d, hd, hid, hacc, -⟩ := found_post hc change.1 change.2.1 change.2.2
    rw [List.foldl_cons, ih hd, changesOf_post hc, hid, hacc, post_accounts_size]
    split <;> simp

theorem commit_face (s : Store) (target : Nat) (new : Contents)
    (changes : List (Change × Slot × Value)) (n : Nat) :
    (s.commit target new changes).containers[n]?.map Container.face =
      s.containers[n]?.map fun c =>
        (c.id, c.account, if target = n then new else c.contents) := by
  have hface := posts_eq (f := fun t : Store => t.containers[n]?.map Container.face)
    (fun t change slot value => post_face t target change slot value n)
  rw [commit, hface, Array.getElem?_modify]
  by_cases h : target = n <;> simp [h, Function.comp_def, Container.face]
  rfl

/-! ## Containers on record -/

/-- The reports of a container make a copy of it; a list that is loose need not be on record. -/
def Recorded (loose : Nat → Prop) (s : Store) : Prop :=
  ∀ n c, s.containers[n]? = some c → c.account < s.accounts.size →
    (c.contents.type = .list → ¬ loose n) →
    ∃ copy, c.contents.blank.replayAll (s.changesOf c.account c.id) = some copy ∧
      copy.IsCopy c.contents

theorem face_of_commit {target n : Nat} {new : Contents} {changes : List (Change × Slot × Value)}
    {d : Container} (hd : (s.commit target new changes).containers[n]? = some d) :
    ∃ c, s.containers[n]? = some c ∧ d.id = c.id ∧ d.account = c.account ∧
      d.contents = if target = n then new else c.contents := by
  have hface := s.commit_face target new changes n
  rw [hd, Option.map_some] at hface
  obtain ⟨c, hc, heq⟩ := Option.map_eq_some_iff.mp hface.symm
  simp only [Container.face, Prod.mk.injEq] at heq
  exact ⟨c, hc, heq.1.symm, heq.2.1.symm, heq.2.2.symm⟩

theorem changesOf_commit {c : Container} {target : Nat} (hc : s.containers[target]? = some c)
    (new : Contents) (changes : List (Change × Slot × Value)) (account id : Nat) :
    (s.commit target new changes).changesOf account id =
      s.changesOf account id ++
        if c.account < s.accounts.size ∧ c.account = account ∧ c.id = id then changes else [] := by
  exact changesOf_posts (s := { s with containers := _ }) (found_renewed hc new) changes account id

theorem commit_accounts_size (s : Store) (target : Nat) (new : Contents)
    (changes : List (Change × Slot × Value)) :
    (s.commit target new changes).accounts.size = s.accounts.size :=
  posts_eq (f := fun t : Store => t.accounts.size)
    (fun t change slot value => post_accounts_size t target change slot value) _ changes

theorem allocate_accounts_size (s : Store) (account : Nat) (contents : Contents) :
    (s.allocate account contents).2.accounts.size = s.accounts.size := Array.size_modify

theorem readOnly_accounts_size (s : Store) (handle : Handle) :
    (s.readOnly handle).2.accounts.size = s.accounts.size := by
  unfold Store.readOnly
  split
  · exact Array.size_modify
  · rfl

theorem Recorded.commit (h : s.Recorded loose) (hb : s.Balanced) {target : Nat} {c : Container}
    (hc : s.containers[target]? = some c) {new : Contents}
    {changes : List (Change × Slot × Value)} (hkind : new.type = c.contents.type)
    (htells : (c.contents.type = .list → ¬ loose target) → c.contents.Tells changes new) :
    (s.commit target new changes).Recorded loose := by
  intro n d hd haccount htight
  obtain ⟨d₀, hd₀, hid, hacc, hcontents⟩ := face_of_commit hd
  rw [commit_accounts_size, hacc] at haccount
  by_cases htarget : target = n
  · subst htarget
    obtain rfl : c = d₀ := Option.some.inj (hc.symm.trans hd₀)
    rw [if_pos rfl] at hcontents
    rw [hcontents, hkind] at htight
    obtain ⟨copy, hcopy, hsame⟩ := h target c hc haccount htight
    obtain ⟨copy', hcopy', hsame'⟩ := (htells htight).copied copy hsame
    refine ⟨copy', ?_, hcontents ▸ hsame'⟩
    rw [hacc, hid, hcontents, Contents.blank_eq hkind, changesOf_commit hc,
      if_pos ⟨haccount, rfl, rfl⟩, Contents.replayAll_append, hcopy]
    exact hcopy'
  · rw [if_neg htarget] at hcontents
    rw [hcontents] at htight
    have hother : ¬ (c.account < s.accounts.size ∧ c.account = d₀.account ∧ c.id = d₀.id) := by
      rintro ⟨hsize, hsame, hsameId⟩
      have ha := Array.getElem?_eq_getElem hsize
      exact htarget (hb.distinct target n c d₀ _ hc hd₀ ha hsame hsameId)
    rw [hacc, hid, hcontents, changesOf_commit hc, if_neg hother, List.append_nil]
    exact h n d₀ hd₀ haccount htight

theorem changesOf_allocate (s : Store) (account : Nat) (contents : Contents) (i id : Nat) :
    (s.allocate account contents).2.changesOf i id = s.changesOf i id := by
  simp only [changesOf, Store.allocate, Array.getElem?_modify]
  split <;> simp [Function.comp_def, Account.issue, Account.changesOf]

theorem changesOf_readOnly (s : Store) (handle : Handle) (i id : Nat) :
    (s.readOnly handle).2.changesOf i id = s.changesOf i id := by
  unfold Store.readOnly
  split
  · simp only [changesOf, Array.getElem?_modify]
    split <;> simp [Function.comp_def, Account.changesOf_issueView]
  · rfl

/-- Nothing was reported under an identity that was not given out. -/
theorem Balanced.changesOf_unissued (hb : s.Balanced) {account id : Nat} {a : Account}
    (ha : s.accounts[account]? = some a) (hid : a.issued < id) : s.changesOf account id = [] := by
  simp only [changesOf, ha, Option.map_some, Option.getD_some, Account.changesOf,
    List.filterMap_eq_nil_iff]
  intro entry hentry
  cases entry with
  | viewed => rfl
  | priced r delta =>
    have hle := hb.reported account a r delta ha (Array.mem_toList_iff.mp hentry)
    have hne : r.container ≠ id := by omega
    simp [Entry.changeOf?, hne]

theorem Recorded.allocate (h : s.Recorded loose) (hb : s.Balanced) (account : Nat)
    {contents : Contents} (empty : contents = contents.blank) :
    (s.allocate account contents).2.Recorded loose := by
  intro n d hd haccount htight
  rw [allocate_accounts_size] at haccount
  rw [changesOf_allocate]
  simp only [Store.allocate, Array.getElem?_push] at hd
  split at hd
  · obtain rfl := Option.some.inj hd
    obtain ⟨a, ha⟩ : ∃ a, s.accounts[account]? = some a :=
      ⟨_, Array.getElem?_eq_getElem haccount⟩
    refine ⟨contents.blank, ?_, ?_⟩
    · rw [ha, Option.map_some, Option.getD_some, hb.changesOf_unissued ha (Nat.lt_succ_self _)]
      rfl
    · simpa [← empty] using contents.blank_isCopy
  · exact h n d hd haccount htight

theorem Recorded.readOnly (h : s.Recorded loose) (handle : Handle) :
    (s.readOnly handle).2.Recorded loose := by
  intro n d hd haccount htight
  rw [readOnly_containers] at hd
  rw [readOnly_accounts_size] at haccount
  rw [changesOf_readOnly]
  exact h n d hd haccount htight

theorem Move.recorded (hmove : Move loose s t) (h : s.Recorded loose) (hb : s.Balanced) :
    t.Recorded loose := by
  cases hmove with
  | tell found tells => exact h.commit hb found tells.kind fun _ => tells
  | reorder may found list perm =>
    exact h.commit hb found (by rw [list]; rfl) fun tight => absurd may (tight (by rw [list]; rfl))
  | allocate account empty => exact h.allocate hb account empty
  | readOnly handle => exact h.readOnly handle

/-- Identities stay distinct, so that reports stay with their containers. -/
theorem Moves.recorded (hmoves : Moves loose s t) (h : s.Recorded loose) (hb : s.Balanced) :
    t.Recorded loose := by
  have hboth := hmoves.keep (P := fun u => u.Balanced ∧ u.Recorded loose)
    (fun hmove hu => ⟨hmove.step.balanced hu.1, hmove.recorded hu.2 hu.1⟩) ⟨hb, h⟩
  exact hboth.2

end Store

end MeteredScript
