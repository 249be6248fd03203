import Mathlib.Algebra.BigOperators.Ring.Finset
import Mathlib.Algebra.Order.BigOperators.Group.Finset
import Mathlib.Algebra.Order.BigOperators.Group.List
import MeteredScript.Proofs.Store.Holdings

/-!
# Journals at every moment

A journal is told report by report, and what it said at a moment are the reports up to it. At no
moment has a container given out what it had not taken in, and so whatever weighs at least nothing
does so in every container. In particular a container is taken out of another one at most as often
as it was stored there.
-/

namespace MeteredScript

/-! ## Sums over a part of a journal -/

namespace Account

/-- The account with the journal it had before the report of the given number. -/
def before (a : Account) (j : Nat) : Account :=
  { a with journal := (a.journal.toList.take j).toArray }

theorem net_before_succ {a : Account} {j : Nat} {entry : Entry} (h : a.journal[j]? = some entry)
    (f : Report → Int64 → Int) :
    (a.before (j + 1)).net f = (a.before j).net f + entry.signed f := by
  have hlist : a.journal.toList[j]? = some entry := by simpa using h
  simp [net, before, List.take_add_one, hlist]

theorem before_size (a : Account) : a.before a.journal.size = a := by
  have hall : a.journal.toList.take a.journal.size = a.journal.toList :=
    List.take_of_length_le (Nat.le_of_eq Array.length_toList)
  simp only [before, hall]

theorem mem_before {a : Account} {j : Nat} {entry : Entry} (h : entry ∈ (a.before j).journal) :
    ∃ i < j, a.journal[i]? = some entry := by
  have hlist : entry ∈ a.journal.toList.take j := by simpa [before] using h
  obtain ⟨i, hi, rfl⟩ := List.mem_take_iff_getElem.mp hlist
  exact ⟨i, by omega, by simp⟩

/-- Sums can be compared entry by entry. -/
theorem net_le {a : Account} {f g : Report → Int64 → Int}
    (h : ∀ r delta, .priced r delta ∈ a.journal →
      r.change.signed (f r delta) ≤ r.change.signed (g r delta)) : a.net f ≤ a.net g := by
  have hlist : ∀ entry ∈ a.journal.toList, entry.signed f ≤ entry.signed g := by
    intro entry hin
    cases entry with
    | viewed => exact Int.le_refl _
    | priced r delta => exact h r delta (Array.mem_toList_iff.mp hin)
  exact List.sum_le_sum hlist

theorem net_congr {a : Account} {f g : Report → Int64 → Int}
    (h : ∀ r delta, .priced r delta ∈ a.journal → f r delta = g r delta) : a.net f = a.net g := by
  apply le_antisymm
  · exact net_le fun r delta hin => by rw [h r delta hin]
  · exact net_le fun r delta hin => by rw [h r delta hin]

theorem net_add (a : Account) (f g : Report → Int64 → Int) :
    (a.net fun r delta => f r delta + g r delta) = a.net f + a.net g := by
  unfold net
  rw [← List.sum_map_add]
  congr 2
  funext entry
  cases entry with
  | viewed => rfl
  | priced r delta =>
    simp only [Entry.signed]
    cases r.change with
    | added => rfl
    | removed => exact Int.neg_add

/-- A sum over the reports of one container. -/
def netOn (a : Account) (id : Nat) (f : Report → Int64 → Int) : Int :=
  a.net fun r delta => if r.container = id then f r delta else 0

theorem netOn_add (a : Account) (id : Nat) (f g : Report → Int64 → Int) :
    (a.netOn id fun r delta => f r delta + g r delta) = a.netOn id f + a.netOn id g := by
  unfold netOn
  rw [← net_add]
  apply net_congr
  intro r delta _
  split
  · rfl
  · rfl

theorem netOn_congr {a : Account} {id : Nat} {f g : Report → Int64 → Int}
    (h : ∀ r delta, .priced r delta ∈ a.journal → f r delta = g r delta) :
    a.netOn id f = a.netOn id g :=
  net_congr fun r delta hin => by rw [h r delta hin]

end Account

theorem Entry.ofInt_signed (entry : Entry) (id : Nat) :
    Int64.ofInt (entry.signed fun r delta => if r.container = id then delta.toInt else 0) =
      entry.delta .added id - entry.delta .removed id := by
  cases entry with
  | viewed => simp [Entry.delta, Entry.signed]
  | priced r delta =>
    by_cases hid : r.container = id
    · cases hchange : r.change with
      | added => simp [Entry.delta, Entry.signed, Change.signed, hid, hchange]
      | removed => simp [Entry.delta, Entry.signed, Change.signed, hid, hchange]
    · simp [Entry.delta, Entry.signed, hid]

/-- A balance is the sum of the deltas in 64 bits. -/
theorem Account.balance_eq_ofInt (a : Account) (id : Nat) :
    a.balance id = Int64.ofInt (a.netOn id fun _ delta => delta.toInt) := by
  unfold balance sumOf netOn net
  induction a.journal.toList with
  | nil => simp
  | cons entry rest ih =>
    simp only [List.map_cons, List.sum_cons, Int64.ofInt_add, entry.ofInt_signed id, ← ih]
    grind

/-! ## Places -/

/-- The place where a report stores a container or takes it out: the identity of the one container,
and the position of the other. -/
def Report.place? (r : Report) : Option (Nat × Nat) :=
  r.value.handle?.map fun h => (r.container, h.target)

/-- What the place of a report is worth, if it has one. -/
def Report.worth (price : Nat × Nat → Int) (r : Report) : Int := (r.place?.map price).getD 0

def Entry.place? : Entry → Option (Nat × Nat)
  | .priced r _ => r.place?
  | .viewed .. => none

namespace Account

/-- How often a container is stored at a place. -/
def stored (a : Account) (place : Nat × Nat) : Int :=
  a.net fun r _ => if r.place? = some place then 1 else 0

/-- All places of a journal. -/
def places (a : Account) : Finset (Nat × Nat) :=
  (a.journal.toList.filterMap Entry.place?).toFinset

/-- The place of the report of the given number. -/
def placeAt? (a : Account) (j : Nat) : Option (Nat × Nat) := a.journal[j]?.bind Entry.place?

end Account

theorem Entry.signed_worth (entry : Entry) {places : Finset (Nat × Nat)}
    (h : ∀ place ∈ entry.place?, place ∈ places) (price : Nat × Nat → Int) :
    entry.signed (fun r _ => r.worth price) =
      ∑ place ∈ places,
        price place * entry.signed fun r _ => if r.place? = some place then 1 else 0 := by
  cases entry with
  | viewed => simp [Entry.signed]
  | priced r delta =>
    simp only [Entry.signed, Report.worth]
    cases hplace : r.place? with
    | none => simp
    | some place =>
      have hin : place ∈ places := h place hplace
      simp [apply_ite r.change.signed, Change.mul_signed, hin]

namespace Account

variable {price price' : Nat × Nat → Int}

/-- The worth of all places together is that of each, as often as a container is stored there. -/
theorem net_worth (a : Account) (price : Nat × Nat → Int) :
    (a.net fun r _ => r.worth price) = ∑ place ∈ a.places, price place * a.stored place := by
  have hplaces : ∀ entry ∈ a.journal.toList, ∀ place ∈ entry.place?, place ∈ a.places := by
    intro entry hin place hplace
    exact List.mem_toFinset.mpr (List.mem_filterMap.mpr ⟨entry, hin, hplace⟩)
  unfold stored net
  generalize a.journal.toList = entries at hplaces ⊢
  induction entries with
  | nil => simp
  | cons entry rest ih =>
    obtain ⟨hentry, hrest⟩ := List.forall_mem_cons.mp hplaces
    simp only [List.map_cons, List.sum_cons, mul_add, Finset.sum_add_distrib]
    rw [ih hrest, entry.signed_worth hentry]

theorem net_worth_nonneg {a : Account} (hprice : ∀ place, 0 ≤ price place)
    (hstored : ∀ place, 0 ≤ a.stored place) : 0 ≤ a.net fun r _ => r.worth price := by
  rw [net_worth]
  exact Finset.sum_nonneg fun place _ => Int.mul_nonneg (hprice place) (hstored place)

theorem stored_before_succ {a : Account} {j : Nat} {place : Nat × Nat}
    (h : a.placeAt? j ≠ some place) :
    (a.before (j + 1)).stored place = (a.before j).stored place := by
  cases hentry : a.journal[j]? with
  | none =>
    have hsize : a.journal.toList.length ≤ j := by simpa using hentry
    simp only [before, List.take_of_length_le hsize,
      List.take_of_length_le (Nat.le_succ_of_le hsize)]
  | some entry =>
    unfold stored
    rw [net_before_succ hentry]
    simp only [placeAt?, hentry, Option.bind_some] at h
    cases entry with
    | viewed => exact Int.add_zero _
    | priced r delta =>
      have hother : r.place? ≠ some place := h
      simp only [Entry.signed, if_neg hother, Change.signed_zero, Int.add_zero]

/-- What is stored at a place stays the same as long as it is not told of. -/
theorem stored_before_eq {a : Account} {k j : Nat} (hk : k ≤ j) {place : Nat × Nat}
    (h : ∀ l, k ≤ l → l < j → a.placeAt? l ≠ some place) :
    (a.before j).stored place = (a.before k).stored place := by
  induction j, hk using Nat.le_induction with
  | base => rfl
  | succ j hj ih =>
    rw [stored_before_succ (h j hj (Nat.lt_succ_self j)), ih]
    intro l hl hlt
    exact h l hl (Nat.lt_succ_of_lt hlt)

/-- Prices of places where nothing is stored do not count. -/
theorem net_worth_congr {a : Account}
    (h : ∀ place, price place ≠ price' place → a.stored place = 0) :
    (a.net fun r _ => r.worth price) = a.net fun r _ => r.worth price' := by
  rw [net_worth, net_worth]
  apply Finset.sum_congr rfl
  intro place _
  by_cases hsame : price place = price' place
  · rw [hsame]
  · rw [h place hsame, mul_zero, mul_zero]

theorem net_worth_step {a : Account} {price : Nat → Nat × Nat → Int} {count : Report → Int64 → Int}
    (between : ∀ (j : Nat) (r : Report) (delta : Int64), a.journal[j]? = some (.priced r delta) →
      r.change.signed (r.worth (price j)) ≤ r.change.signed (count r delta))
    {j : Nat} (hj : j < a.journal.size)
    (h : ((a.before j).net fun r _ => r.worth (price j)) ≤ (a.before j).net count) :
    ((a.before (j + 1)).net fun r _ => r.worth (price j)) ≤ (a.before (j + 1)).net count := by
  have hentry := Array.getElem?_eq_getElem hj
  have hsigned :
      (a.journal[j].signed fun r _ => r.worth (price j)) ≤ a.journal[j].signed count := by
    cases hcase : a.journal[j] with
    | viewed => exact Int.le_refl 0
    | priced r delta => exact between j r delta (hentry.trans (congrArg some hcase))
  rw [net_before_succ hentry, net_before_succ hentry]
  omega

/-- If at each report the place is worth at most as much as is counted for it, and only places where
nothing is stored change their prices, then at no moment are all places worth more than what was
counted. -/
theorem net_worth_le {a : Account} {price : Nat → Nat × Nat → Int} {count : Report → Int64 → Int}
    (between : ∀ (j : Nat) (r : Report) (delta : Int64), a.journal[j]? = some (.priced r delta) →
      r.change.signed (r.worth (price j)) ≤ r.change.signed (count r delta))
    (kept : ∀ j < a.journal.size, ∀ place, price (j + 1) place ≠ price j place →
      (a.before (j + 1)).stored place = 0) :
    ∀ j ≤ a.journal.size,
      ((a.before j).net fun r _ => r.worth (price j)) ≤ (a.before j).net count := by
  intro j
  induction j with
  | zero => exact fun _ => Int.le_refl 0
  | succ j ih =>
    intro hj
    have hnext := net_worth_step between hj (ih (by omega))
    rwa [net_worth_congr (kept j hj)]

end Account

/-! ## Changes that fit -/

namespace Contents

variable {w : Weight} {c d : Contents} {changes first : List (Change × Slot × Value)}

theorem weigh_nonneg (hw : ∀ k v, 0 ≤ w k v) (c : Contents) : 0 ≤ c.weigh w := by
  apply List.sum_nonneg
  intro x hx
  obtain ⟨p, _, rfl⟩ := List.mem_map.mp hx
  exact hw p.1 p.2

theorem weighAll_append (w : Weight) (first next : List (Change × Slot × Value)) :
    weighAll w (first ++ next) = weighAll w first + weighAll w next := by
  simp [weighAll]

/-- Changes give out only what is there, however many of them are made. -/
theorem weighAll_first_nonneg (hw : ∀ k v, 0 ≤ w k v) (h : c.replayAll changes = some d)
    (hfirst : first <+: changes) : 0 ≤ c.weigh w + weighAll w first := by
  obtain ⟨rest, rfl⟩ := hfirst
  rw [replayAll_append] at h
  obtain ⟨between, hbetween, -⟩ := Option.bind_eq_some_iff.mp h
  rw [← replayAll_weigh w hbetween]
  exact weigh_nonneg hw between

theorem Tells.first_nonneg (hw : ∀ k v, 0 ≤ w k v) (h : c.Tells changes d) (hold : c.IsCopy c)
    (hfirst : first <+: changes) : 0 ≤ c.weigh w + weighAll w first := by
  obtain ⟨copy, hreplay, -⟩ := h.copied c hold
  exact weighAll_first_nonneg hw hreplay hfirst

end Contents

theorem Account.netOn_eq_weighAll (a : Account) (id : Nat) (w : Weight) :
    (a.netOn id fun r _ => w r.slot.key? r.value) = Contents.weighAll w (a.changesOf id) := by
  unfold netOn net changesOf Contents.weighAll
  induction a.journal.toList with
  | nil => rfl
  | cons entry rest ih =>
    rw [List.map_cons, List.sum_cons, ih]
    cases entry with
    | viewed => simp [Entry.signed, Entry.changeOf?, List.filterMap_cons]
    | priced r delta =>
      by_cases hid : r.container = id
      · simp [Entry.signed, Entry.changeOf?, hid]
      · simp [Entry.signed, Entry.changeOf?, hid]

theorem Account.changesOf_before (a : Account) (j id : Nat) :
    (a.before j).changesOf id <+: a.changesOf id := by
  simpa [changesOf, before] using (List.take_prefix j a.journal.toList).filterMap _

/-! ## Stores -/

namespace Store

variable {loose : Nat → Prop} {s t : Store} {w : Weight}

/-- What was told of each container weighs what it holds, and what was told of it at any moment
weighs no less than nothing. -/
structure Covered (w : Weight) (s : Store) : Prop where
  exact : ∀ (n : Nat) (c : Container), s.containers[n]? = some c → c.account < s.accounts.size →
    Contents.weighAll w (s.changesOf c.account c.id) = c.contents.weigh w
  first : ∀ (i id : Nat) (first : List (Change × Slot × Value)), first <+: s.changesOf i id →
    0 ≤ Contents.weighAll w first

theorem Covered.commit (h : s.Covered w) (hb : s.Balanced) {target : Nat} {c : Container}
    (hc : s.containers[target]? = some c) {new : Contents}
    {changes : List (Change × Slot × Value)}
    (hweigh : new.weigh w = c.contents.weigh w + Contents.weighAll w changes)
    (hfirst : ∀ first, first <+: changes → 0 ≤ c.contents.weigh w + Contents.weighAll w first) :
    (s.commit target new changes).Covered w := by
  constructor
  · intro n d hd haccount
    obtain ⟨d₀, hd₀, hid, hacc, hcontents⟩ := face_of_commit hd
    rw [commit_accounts_size, hacc] at haccount
    rw [hacc, hid, hcontents, changesOf_commit hc, Contents.weighAll_append]
    by_cases htarget : target = n
    · subst htarget
      obtain rfl : c = d₀ := Option.some.inj (hc.symm.trans hd₀)
      rw [if_pos ⟨haccount, rfl, rfl⟩, if_pos rfl, h.exact target c hc haccount, hweigh]
    · have hother : ¬ (c.account < s.accounts.size ∧ c.account = d₀.account ∧ c.id = d₀.id) := by
        rintro ⟨hsize, hsame, hsameId⟩
        have ha := Array.getElem?_eq_getElem hsize
        exact htarget (hb.distinct target n c d₀ _ hc hd₀ ha hsame hsameId)
      rw [if_neg hother, if_neg htarget, h.exact n d₀ hd₀ haccount]
      exact Int.add_zero _
  · intro i id first hprefix
    rw [changesOf_commit hc] at hprefix
    rcases List.prefix_or_prefix_of_prefix hprefix (List.prefix_append _ _) with hold | hlonger
    · exact h.first i id first hold
    · obtain ⟨next, rfl⟩ := hlonger
      rw [List.prefix_append_right_inj] at hprefix
      split at hprefix
      · next hsame =>
        obtain ⟨hsize, rfl, rfl⟩ := hsame
        rw [Contents.weighAll_append, h.exact target c hc hsize]
        exact hfirst next hprefix
      · rw [List.prefix_nil.mp hprefix, List.append_nil]
        exact h.first i id _ (List.prefix_refl _)

theorem Covered.allocate (h : s.Covered w) (hb : s.Balanced) (account : Nat) {contents : Contents}
    (empty : contents = contents.blank) : (s.allocate account contents).2.Covered w := by
  constructor
  · intro n d hd haccount
    rw [allocate_accounts_size] at haccount
    rw [changesOf_allocate]
    simp only [Store.allocate, Array.getElem?_push] at hd
    split at hd
    · obtain rfl := Option.some.inj hd
      have ha := Array.getElem?_eq_getElem haccount
      rw [ha, Option.map_some, Option.getD_some, hb.changesOf_unissued ha (Nat.lt_succ_self _),
        empty]
      cases contents <;> rfl
    · exact h.exact n d hd haccount
  · intro i id first hfirst
    rw [changesOf_allocate] at hfirst
    exact h.first i id first hfirst

theorem Covered.readOnly (h : s.Covered w) (handle : Handle) :
    (s.readOnly handle).2.Covered w := by
  constructor
  · intro n d hd haccount
    rw [readOnly_containers] at hd
    rw [readOnly_accounts_size] at haccount
    rw [changesOf_readOnly]
    exact h.exact n d hd haccount
  · intro i id first hfirst
    rw [changesOf_readOnly] at hfirst
    exact h.first i id first hfirst

theorem Move.covered (hw : ∀ k v, 0 ≤ w k v) (hmove : Move loose s t) (h : s.Covered w)
    (hb : s.Balanced) (hweighed : s.Weighed w) : t.Covered w := by
  cases hmove with
  | tell found tells =>
    have hold := hweighed.proper _ _ found
    exact h.commit hb found (tells.weigh_eq hold w) fun _ => tells.first_nonneg hw hold
  | @reorder target c values sorted may found list perm =>
    apply h.commit hb found
    · have hsame := Contents.weigh_of_perm (c := .items values) (d := .items sorted) (perm.map _) w
      rw [list, ← hsame]
      exact (Int.add_zero _).symm
    · intro first hfirst
      rw [List.prefix_nil.mp hfirst]
      exact (Int.add_zero _).symm ▸ Contents.weigh_nonneg hw c.contents
  | allocate account empty => exact h.allocate hb account empty
  | readOnly handle => exact h.readOnly handle

theorem Moves.covered (hmoves : Moves loose s t) (hw : ∀ k v, 0 ≤ w k v) (h : s.Covered w)
    (hb : s.Balanced) (hweighed : s.Weighed w) : t.Covered w := by
  have hall := hmoves.keep (P := fun u => u.Balanced ∧ u.Weighed w ∧ u.Covered w) ?_
    ⟨hb, hweighed, h⟩
  · exact hall.2.2
  · intro u v hmove ⟨hb, hweighed, h⟩
    exact ⟨hmove.step.balanced hb, hmove.weighed hweighed, hmove.covered hw h hb hweighed⟩

/-- At no moment did a container give out more than it had taken in. -/
theorem Covered.netOn_nonneg (h : s.Covered w) {i : Nat} {a : Account}
    (ha : s.accounts[i]? = some a) (j id : Nat) :
    0 ≤ (a.before j).netOn id fun r _ => w r.slot.key? r.value := by
  rw [Account.netOn_eq_weighAll]
  apply h.first i id
  simpa [changesOf, ha] using a.changesOf_before j id

end Store

/-- Handles to one container weigh one, and nothing else weighs anything. -/
def handlesTo (target : Nat) : Weight :=
  fun _ v => if v.handle?.map (·.target) = some target then 1 else 0

theorem handlesTo_nonneg (target : Nat) (k : Option Key) (v : Value) :
    0 ≤ handlesTo target k v := by
  unfold handlesTo
  split
  · decide
  · decide

theorem Report.place?_eq_some {r : Report} {place : Nat × Nat} :
    r.place? = some place ↔
      r.container = place.1 ∧ r.value.handle?.map (·.target) = some place.2 := by
  unfold place?
  cases r.value.handle? with
  | none => simp
  | some h => simp [Prod.ext_iff]

theorem Account.stored_eq_netOn (a : Account) (place : Nat × Nat) :
    a.stored place = a.netOn place.1 fun r _ => handlesTo place.2 r.slot.key? r.value := by
  apply net_congr
  intro r _ _
  simp only [Report.place?_eq_some, handlesTo, ite_and]

/-- A container is taken out of another one at most as often as it was stored there. -/
theorem Store.stored_nonneg {s : Store} (h : ∀ n, s.Covered (handlesTo n)) {i : Nat} {a : Account}
    (ha : s.accounts[i]? = some a) (j : Nat) (place : Nat × Nat) :
    0 ≤ (a.before j).stored place := by
  rw [Account.stored_eq_netOn]
  exact (h place.2).netOn_nonneg ha j place.1

end MeteredScript
