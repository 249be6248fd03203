import Mathlib.Algebra.BigOperators.Group.List.Basic
import Mathlib.Algebra.Ring.Int.Defs
import MeteredScript.Proofs.Store.Journal

/-!
# What containers hold, weighed

Whatever values weigh, what an account was told to be added weighs as much more than what it was
told to be removed as its containers weigh together, for the reports of a container rebuild it.
-/

namespace MeteredScript

/-- The key that a slot keeps. -/
def Slot.key? : Slot → Option Key
  | .key k => some k
  | .index _ | .element => none

/-- A weight as it counts for a change. -/
def Change.signed : Change → Int → Int
  | .added, x => x
  | .removed, x => -x

@[simp] theorem Change.signed_zero (change : Change) : change.signed 0 = 0 := by
  cases change with
  | added => rfl
  | removed => rfl

theorem Change.mul_signed (change : Change) (x y : Int) :
    x * change.signed y = change.signed (x * y) := by
  cases change with
  | added => rfl
  | removed => exact Int.mul_neg x y

/-- What a value weighs, with the key it is kept under if there is one. -/
abbrev Weight := Option Key → Value → Int

namespace Contents

/-- The values that contents hold, with their keys. -/
def holdings : Contents → List (Option Key × Value)
  | items values => values.map fun v => (none, v)
  | entries pairs => pairs.map fun (k, v) => (some k, v)
  | elements keys => keys.map fun k => (none, k.toValue)

def weigh (w : Weight) (c : Contents) : Int := (c.holdings.map fun (k, v) => w k v).sum

theorem weigh_added {w : Weight} {c d : Contents} {k : Option Key} {v : Value}
    (h : d.holdings.Perm ((k, v) :: c.holdings)) :
    d.weigh w = c.weigh w + Change.added.signed (w k v) := by
  rw [weigh, (h.map _).sum_eq, List.map_cons, List.sum_cons, Int.add_comm]
  rfl

theorem weigh_removed {w : Weight} {c d : Contents} {k : Option Key} {v : Value}
    (h : c.holdings.Perm ((k, v) :: d.holdings)) :
    d.weigh w = c.weigh w + Change.removed.signed (w k v) := by
  have := weigh_added (w := w) h
  simp only [Change.signed] at this ⊢
  omega

/-- A change that fits takes one holding in or gives one out. -/
theorem replay_perm {c d : Contents} {change : Change} {slot : Slot} {v : Value}
    (h : c.replay (change, slot, v) = some d) :
    (change = .added → d.holdings.Perm ((slot.key?, v) :: c.holdings)) ∧
      (change = .removed → c.holdings.Perm ((slot.key?, v) :: d.holdings)) := by
  unfold replay at h
  split at h
  · next values i w heq =>
    obtain ⟨rfl, rfl, rfl⟩ : change = .added ∧ slot = .index i ∧ v = w := by simpa using heq
    split at h
    · next hi =>
      obtain rfl := Option.some.inj h
      exact ⟨fun _ => (List.perm_insertIdx v values hi).map _, by simp⟩
    · cases h
  · next values i w heq =>
    obtain ⟨rfl, rfl, rfl⟩ : change = .removed ∧ slot = .index i ∧ v = w := by simpa using heq
    split at h
    · next hi =>
      obtain rfl := Option.some.inj h
      obtain ⟨hlt, rfl⟩ := List.getElem?_eq_some_iff.mp hi
      exact ⟨by simp, fun _ => (List.getElem_cons_eraseIdx_perm hlt).symm.map _⟩
    · cases h
  · next pairs k w heq =>
    obtain ⟨rfl, rfl, rfl⟩ : change = .added ∧ slot = .key k ∧ v = w := by simpa using heq
    split at h
    · cases h
    · obtain rfl := Option.some.inj h
      exact ⟨fun _ => (List.perm_append_singleton _ _).map _, by simp⟩
  · next pairs k w heq =>
    obtain ⟨rfl, rfl, rfl⟩ : change = .removed ∧ slot = .key k ∧ v = w := by simpa using heq
    split at h
    · next hk =>
      obtain rfl := Option.some.inj h
      exact ⟨by simp, fun _ => (Entries.perm_cons_erase hk).map _⟩
    · cases h
  · next keys w heq =>
    obtain ⟨rfl, rfl, rfl⟩ : change = .added ∧ slot = .element ∧ v = w := by simpa using heq
    split at h
    · split at h
      · next hk =>
        obtain rfl := Option.some.inj h
        rw [← hk.1]
        exact ⟨fun _ => (List.perm_append_singleton _ _).map _, by simp⟩
      · cases h
    · cases h
  · next keys w heq =>
    obtain ⟨rfl, rfl, rfl⟩ : change = .removed ∧ slot = .element ∧ v = w := by simpa using heq
    split at h
    · split at h
      · next hk =>
        obtain rfl := Option.some.inj h
        rw [← hk.1]
        exact ⟨by simp, fun _ => (List.perm_cons_erase hk.2).map _⟩
      · cases h
    · cases h
  · cases h

theorem replay_weigh (w : Weight) {c d : Contents} {change : Change} {slot : Slot} {v : Value}
    (h : c.replay (change, slot, v) = some d) :
    d.weigh w = c.weigh w + change.signed (w slot.key? v) := by
  cases change with
  | added => exact weigh_added ((replay_perm h).1 rfl)
  | removed => exact weigh_removed ((replay_perm h).2 rfl)

/-- What is added by changes weighs, less what is removed. -/
def weighAll (w : Weight) (changes : List (Change × Slot × Value)) : Int :=
  (changes.map fun (change, slot, v) => change.signed (w slot.key? v)).sum

theorem replayAll_weigh (w : Weight) {c d : Contents} {changes : List (Change × Slot × Value)}
    (h : c.replayAll changes = some d) : d.weigh w = c.weigh w + weighAll w changes := by
  induction changes generalizing c with
  | nil =>
    obtain rfl := Option.some.inj h
    simp [weighAll]
  | cons change rest ih =>
    rw [replayAll_cons] at h
    obtain ⟨e, he, hrest⟩ := Option.bind_eq_some_iff.mp h
    rw [ih hrest, replay_weigh w he]
    simp only [weighAll, List.map_cons, List.sum_cons]
    omega

theorem IsCopy.holdings_perm {copy c : Contents} (h : copy.IsCopy c) :
    copy.holdings.Perm c.holdings := by
  cases h with
  | items | elements => exact .refl _
  | entries perm _ => exact perm.map _

theorem weigh_of_perm {c d : Contents} (h : c.holdings.Perm d.holdings) (w : Weight) :
    c.weigh w = d.weigh w := (h.map _).sum_eq

theorem IsCopy.weigh_eq {copy c : Contents} (h : copy.IsCopy c) (w : Weight) :
    copy.weigh w = c.weigh w := weigh_of_perm h.holdings_perm w

theorem Tells.proper {old new : Contents} {changes : List (Change × Slot × Value)}
    (h : old.Tells changes new) (hold : old.IsCopy old) : new.IsCopy new := by
  obtain ⟨copy, _, hcopy⟩ := h.copied old hold
  exact hcopy.proper

theorem Tells.weigh_eq {old new : Contents} {changes : List (Change × Slot × Value)}
    (h : old.Tells changes new) (hold : old.IsCopy old) (w : Weight) :
    new.weigh w = old.weigh w + weighAll w changes := by
  obtain ⟨copy, hreplay, hcopy⟩ := h.copied old hold
  rw [← hcopy.weigh_eq, replayAll_weigh w hreplay]

end Contents

/-! ## Sums over a journal -/

/-- What an entry adds to a sum over what was added, less what was removed. -/
def Entry.signed (f : Report → Int64 → Int) : Entry → Int
  | .priced r delta => r.change.signed (f r delta)
  | .viewed .. => 0

/-- A sum over what was added, less what was removed. -/
def Account.net (a : Account) (f : Report → Int64 → Int) : Int :=
  (a.journal.toList.map (Entry.signed f)).sum

theorem Account.net_enter (a : Account) (r : Report) (delta : Int64) (f : Report → Int64 → Int) :
    (a.enter r delta).net f = a.net f + r.change.signed (f r delta) := by
  simp [net, enter, Entry.signed]

theorem Account.net_issueView (a : Account) (container : Nat) (f : Report → Int64 → Int) :
    (a.issueView container).net f = a.net f := by
  simp [net, issueView, Entry.signed]

/-! ## Stores -/

/-- What a container weighs among those of an account. -/
def Container.weighOn (w : Weight) (account : Nat) (c : Container) : Int :=
  if c.account = account then c.contents.weigh w else 0

theorem sum_map_modify {cs : List Container} {n : Nat} {c : Container} (hc : cs[n]? = some c)
    (f : Container → Container) (g : Container → Int) :
    ((cs.modify n f).map g).sum = (cs.map g).sum + (g (f c) - g c) := by
  induction cs generalizing n with
  | nil => simp at hc
  | cons d rest ih =>
    cases n with
    | zero =>
      obtain rfl : d = c := by simpa using hc
      simp only [List.modify_zero_cons, List.map_cons, List.sum_cons]
      omega
    | succ n =>
      have := ih (by simpa using hc)
      simp only [List.modify_succ_cons, List.map_cons, List.sum_cons]
      omega

namespace Store

variable {loose : Nat → Prop} {s t : Store} {w : Weight}

/-- What the containers of an account weigh together. -/
def weighOn (s : Store) (w : Weight) (account : Nat) : Int :=
  (s.containers.toList.map (Container.weighOn w account)).sum

/-- What an account was told weighs. -/
def netOf (s : Store) (w : Weight) (account : Nat) : Int :=
  (s.accounts[account]?.map (·.net fun r _ => w r.slot.key? r.value)).getD 0

theorem weighOn_modify {target : Nat} {c : Container} (hc : s.containers[target]? = some c)
    (f : Container → Container) (accounts : Array Account) (account : Nat) :
    weighOn ⟨accounts, s.containers.modify target f⟩ w account =
      s.weighOn w account + ((f c).weighOn w account - c.weighOn w account) := by
  have hlist : s.containers.toList[target]? = some c := by simpa using hc
  rw [weighOn, Array.toList_modify, sum_map_modify hlist, weighOn]

theorem weighOn_post (s : Store) (target : Nat) (change : Change) (slot : Slot) (value : Value)
    (account : Nat) :
    (s.post target change slot value).weighOn w account = s.weighOn w account := by
  unfold post
  split
  · rfl
  · next c hc =>
    split
    · rfl
    · rw [weighOn_modify hc]
      simp [Container.weighOn]

theorem netOf_post {c : Container} {target : Nat} (hc : s.containers[target]? = some c)
    (change : Change) (slot : Slot) (value : Value) (account : Nat) :
    (s.post target change slot value).netOf w account =
      s.netOf w account +
        if c.account < s.accounts.size ∧ c.account = account then
          change.signed (w slot.key? value) else 0 := by
  by_cases hsize : c.account < s.accounts.size
  · simp only [post, hc, Array.getElem?_eq_getElem hsize, netOf, Array.getElem?_modify]
    by_cases hacc : c.account = account
    · subst hacc
      simp [hsize, Account.net_enter]
    · simp [hacc]
  · simp [post, hc, hsize]

/-- Reports of one container count on its account alone. -/
theorem netOf_posts {c : Container} {target : Nat} (hc : s.containers[target]? = some c)
    (changes : List (Change × Slot × Value)) (account : Nat) :
    (changes.foldl (fun s (change, slot, value) => s.post target change slot value) s).netOf w
        account =
      s.netOf w account +
        if c.account < s.accounts.size ∧ c.account = account then Contents.weighAll w changes
        else 0 := by
  induction changes generalizing s c with
  | nil => simp [Contents.weighAll]
  | cons head rest ih =>
    obtain ⟨change, slot, value⟩ := head
    obtain ⟨d, hd, -, hacc, -⟩ := found_post hc change slot value
    rw [List.foldl_cons, ih hd, netOf_post hc, hacc, post_accounts_size]
    split
    · simp only [Contents.weighAll, List.map_cons, List.sum_cons]
      omega
    · omega

theorem weighOn_commit {c : Container} {target : Nat} (hc : s.containers[target]? = some c)
    (new : Contents) (changes : List (Change × Slot × Value)) (account : Nat) :
    (s.commit target new changes).weighOn w account =
      s.weighOn w account +
        if c.account = account then new.weigh w - c.contents.weigh w else 0 := by
  have hposts := posts_eq (f := fun t : Store => t.weighOn w account)
    (fun t change slot value => weighOn_post t target change slot value account)
  rw [commit, hposts, weighOn_modify hc]
  simp only [Container.weighOn]
  split <;> omega

theorem netOf_commit {c : Container} {target : Nat} (hc : s.containers[target]? = some c)
    (new : Contents) (changes : List (Change × Slot × Value)) (account : Nat) :
    (s.commit target new changes).netOf w account =
      s.netOf w account +
        if c.account < s.accounts.size ∧ c.account = account then Contents.weighAll w changes
        else 0 := by
  exact netOf_posts (s := { s with containers := _ }) (found_renewed hc new) changes account

/-- What accounts were told weighs as much as their containers hold. -/
structure Weighed (w : Weight) (s : Store) : Prop where
  proper : ∀ (n : Nat) (c : Container), s.containers[n]? = some c →
    c.contents.IsCopy c.contents
  net : ∀ i < s.accounts.size, s.netOf w i = s.weighOn w i

theorem Weighed.commit (h : s.Weighed w) {target : Nat} {c : Container}
    (hc : s.containers[target]? = some c) {new : Contents}
    {changes : List (Change × Slot × Value)} (hproper : new.IsCopy new)
    (hweigh : new.weigh w = c.contents.weigh w + Contents.weighAll w changes) :
    (s.commit target new changes).Weighed w := by
  constructor
  · intro n d hd
    obtain ⟨d₀, hd₀, -, -, hcontents⟩ := face_of_commit hd
    rw [hcontents]
    split
    · exact hproper
    · exact h.proper n d₀ hd₀
  · intro i hi
    rw [commit_accounts_size] at hi
    rw [netOf_commit hc, weighOn_commit hc, h.net i hi, hweigh]
    by_cases hacc : c.account = i
    · subst hacc
      rw [if_pos ⟨hi, rfl⟩, if_pos rfl]
      omega
    · rw [if_neg fun hboth => hacc hboth.2, if_neg hacc]

theorem Weighed.allocate (h : s.Weighed w) (account : Nat) {contents : Contents}
    (empty : contents = contents.blank) : (s.allocate account contents).2.Weighed w := by
  have hzero : contents.weigh w = 0 := by
    rw [empty]
    cases contents <;> rfl
  constructor
  · intro n d hd
    simp only [Store.allocate, Array.getElem?_push] at hd
    split at hd
    · obtain rfl := Option.some.inj hd
      simpa [← empty] using contents.blank_isCopy
    · exact h.proper n d hd
  · intro i hi
    have hnet : (s.allocate account contents).2.netOf w i = s.netOf w i := by
      simp only [netOf, Store.allocate, Array.getElem?_modify]
      split <;> simp [Function.comp_def, Account.issue, Account.net]
    have hsum : (s.allocate account contents).2.weighOn w i = s.weighOn w i := by
      simp [weighOn, Store.allocate, Container.weighOn, hzero]
    rw [hnet, hsum]
    exact h.net i (allocate_accounts_size s account contents ▸ hi)

theorem Weighed.readOnly (h : s.Weighed w) (handle : Handle) : (s.readOnly handle).2.Weighed w := by
  have hnet : ∀ i, (s.readOnly handle).2.netOf w i = s.netOf w i := by
    intro i
    unfold Store.readOnly
    split
    · simp only [netOf, Array.getElem?_modify]
      split <;> simp [Function.comp_def, Account.net_issueView]
    · rfl
  constructor
  · intro n d hd
    rw [readOnly_containers] at hd
    exact h.proper n d hd
  · intro i hi
    rw [hnet, weighOn, readOnly_containers]
    exact h.net i (readOnly_accounts_size s handle ▸ hi)

theorem Move.weighed (hmove : Move loose s t) (h : s.Weighed w) : t.Weighed w := by
  cases hmove with
  | tell found tells =>
    have hold := h.proper _ _ found
    exact h.commit found (tells.proper hold) (tells.weigh_eq hold w)
  | @reorder target c values sorted may found list perm =>
    apply h.commit found (.items sorted)
    have hsame := Contents.weigh_of_perm (c := .items values) (d := .items sorted) (perm.map _) w
    rw [list, ← hsame]
    exact (Int.add_zero _).symm
  | allocate account empty => exact h.allocate account empty
  | readOnly handle => exact h.readOnly handle

theorem Moves.weighed (hmoves : Moves loose s t) (h : s.Weighed w) : t.Weighed w :=
  hmoves.keep Move.weighed h

end Store

end MeteredScript
