import MeteredScript.Proofs.Store.Realm

/-!
# Accounts in balance

A store is in balance if the memory of each container is what its account's journal says of it, and
the total of each account is the memory of all its containers. Sums wrap at 64 bits like the numbers
that are added. Every step of a store keeps it in balance, whatever the tariffs of its accounts.
-/

namespace MeteredScript

/-! ## Sums over a journal -/

/-- What an entry adds to the sum of one kind of change on one container. -/
def Entry.delta (change : Change) (id : Nat) : Entry → Int64
  | .priced r delta => if r.change = change ∧ r.container = id then delta else 0
  | .viewed .. => 0

namespace Account

/-- The sum of the deltas of all reports of one kind of change on a container. -/
def sumOf (a : Account) (change : Change) (id : Nat) : Int64 :=
  (a.journal.toList.map (Entry.delta change id)).sum

/-- The deltas of what was added to a container, less those of what was removed. -/
def balance (a : Account) (id : Nat) : Int64 := a.sumOf .added id - a.sumOf .removed id

theorem sumOf_enter (a : Account) (r : Report) (delta : Int64) (change : Change) (id : Nat) :
    (a.enter r delta).sumOf change id =
      a.sumOf change id + Entry.delta change id (.priced r delta) := by
  simp [sumOf, enter]

theorem balance_enter_self (a : Account) (change : Change) (id : Nat) (slot : Slot)
    (value : Value) (delta : Int64) :
    (a.enter ⟨change, id, slot, value⟩ delta).balance id =
      Change.apply change delta (a.balance id) := by
  rw [balance, sumOf_enter, sumOf_enter]
  cases change with
  | added => simp only [Entry.delta, Change.apply, balance]; grind
  | removed => simp only [Entry.delta, Change.apply, balance]; grind

theorem balance_enter_other (a : Account) (r : Report) (delta : Int64) {id : Nat}
    (h : r.container ≠ id) : (a.enter r delta).balance id = a.balance id := by
  rw [balance, sumOf_enter, sumOf_enter]
  simp only [Entry.delta, h, and_false, if_false, balance]
  grind

theorem balance_issueView (a : Account) (container id : Nat) :
    (a.issueView container).balance id = a.balance id := by
  have hsum : ∀ change, (a.issueView container).sumOf change id = a.sumOf change id := by
    intro change
    simp [sumOf, issueView, Entry.delta]
  rw [balance, hsum, hsum, balance]

theorem balance_eq_zero (a : Account) {id : Nat}
    (h : ∀ r delta, .priced r delta ∈ a.journal → r.container ≠ id) : a.balance id = 0 := by
  have hsum : ∀ change, a.sumOf change id = 0 := by
    intro change
    unfold sumOf
    have hall : ∀ x ∈ a.journal.toList.map (Entry.delta change id), x = 0 := by
      intro x hx
      obtain ⟨entry, he, rfl⟩ := List.mem_map.mp hx
      cases entry with
      | priced r delta =>
        exact if_neg fun hr => h r delta (Array.mem_toList_iff.mp he) hr.2
      | viewed => rfl
    revert hall
    generalize a.journal.toList.map (Entry.delta change id) = xs
    intro hall
    induction xs with
    | nil => rfl
    | cons x rest ih =>
      obtain ⟨hx, hr⟩ := List.forall_mem_cons.mp hall
      rw [List.sum_cons, hx, ih hr]
      rfl
  rw [balance, hsum, hsum]
  rfl

end Account

/-! ## Sums over containers -/

namespace Store

def memoryOn (account : Nat) (containers : List Container) : Int64 :=
  ((containers.filter (·.account = account)).map (·.memory)).sum

def memories (s : Store) (account : Nat) : Int64 := memoryOn account s.containers.toList

theorem memoryOn_cons (account : Nat) (c : Container) (rest : List Container) :
    memoryOn account (c :: rest) =
      (if c.account = account then c.memory else 0) + memoryOn account rest := by
  unfold memoryOn
  by_cases h : c.account = account
  · rw [List.filter_cons_of_pos (by simpa using h), if_pos h, List.map_cons, List.sum_cons]
  · rw [List.filter_cons_of_neg (by simpa using h), if_neg h]
    grind

theorem memoryOn_append (account : Nat) (cs ds : List Container) :
    memoryOn account (cs ++ ds) = memoryOn account cs + memoryOn account ds := by
  simp [memoryOn]

/-- The sum changes as the memory of the one container does that is exchanged. -/
theorem memoryOn_modify (account : Nat) {f : Container → Container} {cs : List Container} {n : Nat}
    {c : Container} (hc : cs[n]? = some c) (hf : (f c).account = c.account) :
    memoryOn account (cs.modify n f) =
      memoryOn account cs + if c.account = account then (f c).memory - c.memory else 0 := by
  induction cs generalizing n with
  | nil => simp at hc
  | cons d rest ih =>
    cases n with
    | zero =>
      obtain rfl : d = c := by simpa using hc
      rw [List.modify_zero_cons, memoryOn_cons, memoryOn_cons, hf]
      split <;> grind
    | succ n =>
      rw [List.modify_succ_cons, memoryOn_cons, memoryOn_cons, ih (by simpa using hc)]
      grind

/-! ## The invariant -/

/-- Journals, memories and totals agree, and identities tell the containers of an account apart. -/
structure Balanced (s : Store) : Prop where
  memory : ∀ (n : Nat) (c : Container) (a : Account), s.containers[n]? = some c →
    s.accounts[c.account]? = some a → c.memory = a.balance c.id
  total : ∀ (i : Nat) (a : Account), s.accounts[i]? = some a → a.total = s.memories i
  issued : ∀ (n : Nat) (c : Container) (a : Account), s.containers[n]? = some c →
    s.accounts[c.account]? = some a → c.id ≤ a.issued
  distinct : ∀ (n k : Nat) (c d : Container) (a : Account), s.containers[n]? = some c →
    s.containers[k]? = some d → s.accounts[c.account]? = some a → c.account = d.account →
    c.id = d.id → n = k
  reported : ∀ (i : Nat) (a : Account) (r : Report) (delta : Int64), s.accounts[i]? = some a →
    .priced r delta ∈ a.journal → r.container ≤ a.issued

/-- New contents do not count before they are reported. -/
theorem Balanced.withContents {s : Store} (h : s.Balanced) (target : Nat) (contents : Contents) :
    Balanced { s with containers := s.containers.modify target ({ · with contents }) } := by
  have hget : ∀ (n : Nat) (c : Container),
      (s.containers.modify target ({ · with contents }))[n]? = some c →
      ∃ d, s.containers[n]? = some d ∧ c.id = d.id ∧ c.account = d.account ∧ c.memory = d.memory := by
    intro n c hc
    rw [Array.getElem?_modify] at hc
    split at hc
    · obtain ⟨d, hd, rfl⟩ := Option.map_eq_some_iff.mp hc
      exact ⟨d, hd, rfl, rfl, rfl⟩
    · exact ⟨c, hc, rfl, rfl, rfl⟩
  constructor
  case memory =>
    intro n c a hc ha
    obtain ⟨d, hd, hid, hacc, hmem⟩ := hget n c hc
    rw [hmem, hid]
    exact h.memory n d a hd (hacc ▸ ha)
  case total =>
    intro i a ha
    rw [h.total i a ha, memories, memories, Array.toList_modify]
    cases ht : s.containers[target]? with
    | none =>
      have hlen : s.containers.toList.length ≤ target := by
        simpa using ht
      rw [List.modify_eq_self hlen]
    | some c =>
      have hc : s.containers.toList[target]? = some c := by simpa using ht
      rw [memoryOn_modify i hc rfl]
      grind
  case issued =>
    intro n c a hc ha
    obtain ⟨d, hd, hid, hacc, -⟩ := hget n c hc
    rw [hid]
    exact h.issued n d a hd (hacc ▸ ha)
  case distinct =>
    intro n k c d a hc hd ha hacc hid
    obtain ⟨c', hc', hid₁, hacc₁, -⟩ := hget n c hc
    obtain ⟨d', hd', hid₂, hacc₂, -⟩ := hget k d hd
    exact h.distinct n k c' d' a hc' hd' (hacc₁ ▸ ha) (hacc₁ ▸ hacc₂ ▸ hacc) (hid₁ ▸ hid₂ ▸ hid)
  case reported => exact h.reported

/-- A report moves the memory of its container, the balance of it and the total alike. -/
theorem Balanced.charge {s : Store} (h : s.Balanced) {target : Nat} {c : Container}
    (hc : s.containers[target]? = some c) (change : Change) (slot : Slot) (value : Value)
    (delta : Int64) :
    Balanced
      { accounts := s.accounts.modify c.account (·.enter ⟨change, c.id, slot, value⟩ delta)
        containers := s.containers.modify target fun c =>
          { c with memory := Account.Change.apply change delta c.memory } } := by
  have hacc : ∀ (i : Nat) (a : Account),
      (s.accounts.modify c.account (·.enter ⟨change, c.id, slot, value⟩ delta))[i]? = some a →
      ∃ b, s.accounts[i]? = some b ∧ a.issued = b.issued ∧
        (c.account = i ∧ a = b.enter ⟨change, c.id, slot, value⟩ delta ∨
          c.account ≠ i ∧ a = b) := by
    intro i a ha
    rw [Array.getElem?_modify] at ha
    split at ha
    · next hi =>
      obtain ⟨b, hb, rfl⟩ := Option.map_eq_some_iff.mp ha
      exact ⟨b, hb, rfl, .inl ⟨hi, rfl⟩⟩
    · next hi => exact ⟨a, ha, rfl, .inr ⟨hi, rfl⟩⟩
  have hcon : ∀ (n : Nat) (d : Container),
      (s.containers.modify target fun c =>
        { c with memory := Account.Change.apply change delta c.memory })[n]? = some d →
      ∃ d₀, s.containers[n]? = some d₀ ∧ d.id = d₀.id ∧ d.account = d₀.account ∧
        (target = n ∧ d.memory = Account.Change.apply change delta d₀.memory ∨
          target ≠ n ∧ d.memory = d₀.memory) := by
    intro n d hd
    rw [Array.getElem?_modify] at hd
    split at hd
    · next hn =>
      obtain ⟨d₀, hd₀, rfl⟩ := Option.map_eq_some_iff.mp hd
      exact ⟨d₀, hd₀, rfl, rfl, .inl ⟨hn, rfl⟩⟩
    · next hn => exact ⟨d, hd, rfl, rfl, .inr ⟨hn, rfl⟩⟩
  constructor
  case memory =>
    intro n d a hd ha
    obtain ⟨d₀, hd₀, hid, hdacc, hmem⟩ := hcon n d hd
    obtain ⟨b, hb, -, hab⟩ := hacc _ a ha
    rw [hdacc] at hb hab
    have hold := h.memory n d₀ b hd₀ hb
    rw [hid]
    rcases hmem with ⟨rfl, hmem⟩ | ⟨hn, hmem⟩
    · obtain rfl : c = d₀ := Option.some.inj (hc.symm.trans hd₀)
      rcases hab with ⟨-, rfl⟩ | ⟨hne, -⟩
      · rw [hmem, hold, Account.balance_enter_self]
      · exact absurd rfl hne
    · rcases hab with ⟨hsame, rfl⟩ | ⟨-, rfl⟩
      · have hne : c.id ≠ d₀.id := fun hid₀ =>
          hn (h.distinct target n c d₀ b hc hd₀ (hsame ▸ hb) hsame hid₀)
        rw [hmem, hold, Account.balance_enter_other _ _ _ hne]
      · rw [hmem, hold]
  case total =>
    intro i a ha
    obtain ⟨b, hb, -, hab⟩ := hacc i a ha
    have hlist : s.containers.toList[target]? = some c := by simpa using hc
    rw [memories, Array.toList_modify, memoryOn_modify i hlist rfl]
    have hold : b.total = memoryOn i s.containers.toList := h.total i b hb
    rcases hab with ⟨hi, rfl⟩ | ⟨hi, rfl⟩
    · rw [if_pos hi, ← hold]
      cases change with
      | added => simp only [Account.enter, Account.Change.apply]; grind
      | removed => simp only [Account.enter, Account.Change.apply]; grind
    · rw [if_neg hi, ← hold]
      grind
  case issued =>
    intro n d a hd ha
    obtain ⟨d₀, hd₀, hid, hdacc, -⟩ := hcon n d hd
    obtain ⟨b, hb, hissued, -⟩ := hacc _ a ha
    rw [hid, hissued]
    exact h.issued n d₀ b hd₀ (hdacc ▸ hb)
  case distinct =>
    intro n k d e a hd he ha hsame hid
    obtain ⟨d₀, hd₀, hid₁, hacc₁, -⟩ := hcon n d hd
    obtain ⟨e₀, he₀, hid₂, hacc₂, -⟩ := hcon k e he
    obtain ⟨b, hb, -, -⟩ := hacc _ a ha
    exact h.distinct n k d₀ e₀ b hd₀ he₀ (hacc₁ ▸ hb) (hacc₁ ▸ hacc₂ ▸ hsame) (hid₁ ▸ hid₂ ▸ hid)
  case reported =>
    intro i a r delta' ha hr
    obtain ⟨b, hb, hissued, hab⟩ := hacc i a ha
    rw [hissued]
    rcases hab with ⟨hi, rfl⟩ | ⟨-, rfl⟩
    · rcases Array.mem_push.mp hr with hr | hr
      · exact h.reported i b r delta' hb hr
      · rw [(Entry.priced.inj hr).1]
        exact h.issued target c b hc (hi ▸ hb)
    · exact h.reported i a r delta' hb hr

theorem Balanced.post {s : Store} (h : s.Balanced) (target : Nat) (change : Change) (slot : Slot)
    (value : Value) : (s.post target change slot value).Balanced := by
  unfold Store.post
  split
  · exact h
  · next c hc =>
    split
    · exact h
    · exact h.charge hc change slot value _

theorem Balanced.posts {s : Store} (h : s.Balanced) (target : Nat)
    (changes : List (Change × Slot × Value)) :
    (changes.foldl (fun s (change, slot, value) => s.post target change slot value) s).Balanced := by
  induction changes generalizing s with
  | nil => exact h
  | cons c rest ih => exact ih (h.post target c.1 c.2.1 c.2.2)

theorem Balanced.commit {s : Store} (h : s.Balanced) (target : Nat) (contents : Contents)
    (changes : List (Change × Slot × Value)) : (s.commit target contents changes).Balanced :=
  (h.withContents target contents).posts target changes

/-- Identities that are issued anew do not touch what is in balance. -/
theorem Balanced.withAccount {s : Store} (h : s.Balanced) (account : Nat) {f : Account → Account}
    (hb : ∀ a id, (f a).balance id = a.balance id) (ht : ∀ a, (f a).total = a.total)
    (hi : ∀ a, a.issued ≤ (f a).issued)
    (hr : ∀ a r delta, .priced r delta ∈ (f a).journal → .priced r delta ∈ a.journal) :
    Balanced { s with accounts := s.accounts.modify account f } := by
  have hacc : ∀ (i : Nat) (a : Account), (s.accounts.modify account f)[i]? = some a →
      ∃ b, s.accounts[i]? = some b ∧ (a = f b ∨ a = b) := by
    intro i a ha
    rw [Array.getElem?_modify] at ha
    split at ha
    · obtain ⟨b, hb, rfl⟩ := Option.map_eq_some_iff.mp ha
      exact ⟨b, hb, .inl rfl⟩
    · exact ⟨a, ha, .inr rfl⟩
  constructor
  case memory =>
    intro n c a hc ha
    obtain ⟨b, hold, rfl | rfl⟩ := hacc _ a ha
    · rw [hb, h.memory n c b hc hold]
    · exact h.memory n c a hc hold
  case total =>
    intro i a ha
    obtain ⟨b, hold, rfl | rfl⟩ := hacc i a ha
    · rw [ht, h.total i b hold, memories, memories]
    · exact h.total i a hold
  case issued =>
    intro n c a hc ha
    obtain ⟨b, hold, rfl | rfl⟩ := hacc _ a ha
    · exact Nat.le_trans (h.issued n c b hc hold) (hi b)
    · exact h.issued n c a hc hold
  case distinct =>
    intro n k c d a hc hd ha hsame hid
    obtain ⟨b, hold, -⟩ := hacc _ a ha
    exact h.distinct n k c d b hc hd hold hsame hid
  case reported =>
    intro i a r delta ha hmem
    obtain ⟨b, hold, rfl | rfl⟩ := hacc i a ha
    · exact Nat.le_trans (h.reported i b r delta hold (hr b r delta hmem)) (hi b)
    · exact h.reported i a r delta hold hmem

theorem Balanced.allocate {s : Store} (h : s.Balanced) (account : Nat) (contents : Contents) :
    (s.allocate account contents).2.Balanced := by
  have hissue : Balanced { s with accounts := s.accounts.modify account (·.issue) } :=
    h.withAccount account (fun _ _ => rfl) (fun _ => rfl) (fun a => Nat.le_succ a.issued)
      fun _ _ _ hm => hm
  have hnew : ∀ a, (s.accounts.modify account (·.issue))[account]? = some a →
      ∃ b, s.accounts[account]? = some b ∧ a = b.issue := by
    intro a ha
    rw [Array.getElem?_modify, if_pos rfl] at ha
    obtain ⟨b, hb, rfl⟩ := Option.map_eq_some_iff.mp ha
    exact ⟨b, hb, rfl⟩
  have hid : ∀ b, s.accounts[account]? = some b →
      (s.accounts[account]?.map (·.issued)).getD 0 + 1 = b.issued + 1 := by
    intro b hb
    rw [hb]
    rfl
  have hcon : ∀ (n : Nat) (c : Container), (s.allocate account contents).2.containers[n]? = some c →
      n = s.containers.size ∧ c = ⟨(s.accounts[account]?.map (·.issued)).getD 0 + 1, account, 0,
        contents⟩ ∨ s.containers[n]? = some c := by
    intro n c hc
    simp only [Store.allocate, Array.getElem?_push] at hc
    split at hc
    · next hn => exact .inl ⟨hn, (Option.some.inj hc).symm⟩
    · exact .inr hc
  -- the container of an old identity is an old one
  have hold : ∀ (n : Nat) (c : Container) (b : Account), s.accounts[account]? = some b →
      s.containers[n]? = some c → c.account = account → c.id ≠ b.issued + 1 := by
    intro n c b hb hc hacc
    have := h.issued n c b hc (hacc ▸ hb)
    omega
  constructor
  case reported => exact hissue.reported
  case memory =>
    intro n c a hc ha
    rcases hcon n c hc with ⟨-, rfl⟩ | hc
    · obtain ⟨b, hb, rfl⟩ := hnew a ha
      refine (b.issue.balance_eq_zero fun r delta hr hrid => ?_).symm
      have hle := h.reported account b r delta hb hr
      rw [hrid, hid b hb] at hle
      exact absurd hle (Nat.not_succ_le_self b.issued)
    · exact hissue.memory n c a hc ha
  case total =>
    intro i a ha
    rw [hissue.total i a ha]
    simp only [memories, Store.allocate, Array.toList_push]
    rw [memoryOn_append, memoryOn_cons]
    simp [memoryOn]
  case issued =>
    intro n c a hc ha
    rcases hcon n c hc with ⟨-, rfl⟩ | hc
    · obtain ⟨b, hb, rfl⟩ := hnew a ha
      rw [hid b hb]
      exact Nat.le_refl _
    · exact hissue.issued n c a hc ha
  case distinct =>
    intro n k c d a hc hd ha hsame hsameId
    rcases hcon n c hc with ⟨hn, rfl⟩ | hc <;> rcases hcon k d hd with ⟨hk, rfl⟩ | hd
    · rw [hn, hk]
    · obtain ⟨b, hb, rfl⟩ := hnew a ha
      rw [hid b hb] at hsameId
      exact absurd hsameId.symm (hold k d b hb hd hsame.symm)
    · have hacc : c.account = account := hsame
      obtain ⟨b, hb, rfl⟩ := hnew a (hacc ▸ ha)
      rw [hid b hb] at hsameId
      exact absurd hsameId (hold n c b hb hc hsame)
    · exact hissue.distinct n k c d a hc hd ha hsame hsameId

theorem Balanced.readOnly {s : Store} (h : s.Balanced) (handle : Handle) :
    (s.readOnly handle).2.Balanced := by
  unfold Store.readOnly
  split
  · refine h.withAccount _ (fun a id => a.balance_issueView _ id) (fun _ => rfl)
      (fun a => Nat.le_succ a.issued) fun a r delta hm => ?_
    rcases Array.mem_push.mp hm with hm | hm
    · exact hm
    · cases hm
  · exact h

theorem Step.balanced {R : Realm} {s t : Store} (hstep : Step R s t) (h : s.Balanced) :
    t.Balanced := by
  cases hstep with
  | commit handle contents changes => exact h.commit handle.target contents changes
  | allocate account contents => exact h.allocate account contents
  | readOnly handle => exact h.readOnly handle

theorem Steps.balanced {R : Realm} {s t : Store} (hsteps : Steps R s t) (h : s.Balanced) :
    t.Balanced := by
  induction hsteps with
  | refl => exact h
  | tail _ hstep ih => exact hstep.balanced ih

end Store

end MeteredScript
