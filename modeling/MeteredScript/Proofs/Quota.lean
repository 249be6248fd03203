import MeteredScript.Proofs.Charges
import MeteredScript.Proofs.Reporting

/-!
# Quotas and nested containers

An account that charges by size charges a container that is stored in another one the memory it has
at that moment, and credits it the memory that it has when it is taken out. In between it may have
changed. The total of the account is what its containers hold apart from each other, and on top of
that what nested containers were charged, less what they were credited.
-/

namespace MeteredScript

/-! ## Totals -/

namespace Account

def charged (a : Account) : Int :=
  (a.journal.toList.map fun
    | .priced r delta => if r.change = .added then nestedCost r delta else 0
    | .viewed .. => 0).sum

def credited (a : Account) : Int :=
  (a.journal.toList.map fun
    | .priced r delta => if r.change = .removed then nestedCost r delta else 0
    | .viewed .. => 0).sum

theorem net_eq (a : Account) : a.net nestedCost = a.charged - a.credited := by
  unfold net charged credited
  induction a.journal.toList with
  | nil => rfl
  | cons entry rest ih =>
    simp only [List.map_cons, List.sum_cons, ih]
    cases entry with
    | viewed => simp only [Entry.signed]; omega
    | priced r delta =>
      simp only [Entry.signed]
      cases r.change with
      | added => simp only [Change.signed, if_true, reduceCtorEq, if_false]; omega
      | removed => simp only [Change.signed, if_true, reduceCtorEq, if_false]; omega

/-- The total counts every report. -/
def Sound (a : Account) : Prop := a.total = Int64.ofInt (a.net fun _ delta => delta.toInt)

theorem Sound.opened (tariff : Tariff) (metered : Bool) : (opened tariff metered).Sound := rfl

theorem Sound.enter {a : Account} (h : a.Sound) (r : Report) (delta : Int64) :
    (a.enter r delta).Sound := by
  unfold Sound at h ⊢
  rw [net_enter]
  simp only [Account.enter, h]
  cases r.change with
  | added => simp [Change.apply, Change.signed]
  | removed => simp [Change.apply, Change.signed, Int64.sub_eq_add_neg]

theorem Sound.issue {a : Account} (h : a.Sound) : a.issue.Sound := h

theorem Sound.issueView {a : Account} (h : a.Sound) (container : Nat) :
    (a.issueView container).Sound := by
  unfold Sound
  rw [net_issueView]
  exact h

end Account

/-! ## Stores -/

namespace Store

variable {loose : Nat → Prop} {s t : Store}

def Sound (s : Store) : Prop := ∀ (i : Nat) (a : Account), s.accounts[i]? = some a → a.Sound

theorem Sound.modify (h : s.Sound) {account : Nat} {f : Account → Account}
    (hf : ∀ a, a.Sound → (f a).Sound) (containers : Array Container) :
    Sound ⟨s.accounts.modify account f, containers⟩ := by
  intro i a ha
  rw [Array.getElem?_modify] at ha
  split at ha
  · obtain ⟨b, hb, rfl⟩ := Option.map_eq_some_iff.mp ha
    exact hf b (h i b hb)
  · exact h i a ha

theorem Sound.post (h : s.Sound) (target : Nat) (change : Change) (slot : Slot) (value : Value) :
    (s.post target change slot value).Sound := by
  unfold Store.post
  split
  · exact h
  · split
    · exact h
    · apply h.modify
      exact fun a ha => ha.enter _ _

theorem Step.sound {R : Realm} (hstep : Step R s t) (h : s.Sound) : t.Sound := by
  cases hstep with
  | commit handle contents changes =>
    have hcontents :
        Sound ⟨s.accounts, s.containers.modify handle.target ({ · with contents })⟩ := h
    exact posts_keep (fun _ change slot value ht => ht.post handle.target change slot value)
      hcontents changes
  | allocate account contents => exact h.modify (fun _ ha => ha.issue) _
  | readOnly handle =>
    unfold Store.readOnly
    split
    · exact h.modify (fun _ ha => ha.issueView _) _
    · exact h

theorem Moves.sound (hmoves : Moves loose s t) (h : s.Sound) : t.Sound :=
  hmoves.keep (fun hmove => hmove.step.sound) h

/-- On which terms an account was opened. -/
def terms (s : Store) (account : Nat) : Option (Tariff × Bool) :=
  s.accounts[account]?.map fun a => (a.tariff, a.metered)

theorem terms_modify (s : Store) (account : Nat) {f : Account → Account}
    (hf : ∀ a, (f a).tariff = a.tariff ∧ (f a).metered = a.metered)
    (containers : Array Container) (i : Nat) :
    terms ⟨s.accounts.modify account f, containers⟩ i = s.terms i := by
  simp only [terms, Array.getElem?_modify]
  split
  · simp [Function.comp_def, hf]
  · rfl

theorem terms_post (s : Store) (target : Nat) (change : Change) (slot : Slot) (value : Value)
    (i : Nat) : (s.post target change slot value).terms i = s.terms i := by
  unfold post
  split
  · rfl
  · split
    · rfl
    · apply terms_modify
      exact fun _ => ⟨rfl, rfl⟩

theorem Step.terms_eq {R : Realm} (h : Step R s t) (i : Nat) : t.terms i = s.terms i := by
  cases h with
  | commit handle contents changes =>
    exact posts_eq (f := fun t : Store => t.terms i)
      (fun t change slot value => terms_post t handle.target change slot value i) _ changes
  | allocate account contents =>
    apply terms_modify
    exact fun _ => ⟨rfl, rfl⟩
  | readOnly handle =>
    unfold Store.readOnly
    split
    · apply terms_modify
      exact fun _ => ⟨rfl, rfl⟩
    · rfl

theorem Moves.terms_eq (h : Moves loose s t) (i : Nat) : t.terms i = s.terms i :=
  h.keep (fun hmove hs => (hmove.step.terms_eq i).trans hs) rfl

theorem Fresh.sound (h : s.Fresh) : s.Sound := by
  intro i a ha
  obtain ⟨tariff, metered, rfl⟩ := h.accounts a (Array.mem_of_getElem? ha)
  exact .opened tariff metered

theorem Fresh.weighed (h : s.Fresh) (w : Weight) : s.Weighed w := by
  constructor
  · intro n c hc
    rw [h.containers] at hc
    simp at hc
  · intro i hi
    obtain ⟨a, ha⟩ : ∃ a, s.accounts[i]? = some a := ⟨_, Array.getElem?_eq_getElem hi⟩
    obtain ⟨tariff, metered, rfl⟩ := h.accounts a (Array.mem_of_getElem? ha)
    simp [netOf, ha, weighOn, h.containers, Account.net, Account.opened]

theorem Fresh.covered (h : s.Fresh) (w : Weight) : s.Covered w := by
  constructor
  · intro n c hc
    rw [h.containers] at hc
    simp at hc
  · intro i id first hfirst
    have hnone : s.changesOf i id = [] := by
      cases ha : s.accounts[i]? with
      | none => simp [changesOf, ha]
      | some a =>
        obtain ⟨tariff, metered, rfl⟩ := h.accounts a (Array.mem_of_getElem? ha)
        simp [changesOf, ha, Account.changesOf, Account.opened]
    rw [hnone, List.prefix_nil] at hfirst
    rw [hfirst]
    exact Int.le_refl 0

theorem Fresh.costed (h : s.Fresh) : s.Costed := by
  intro i a ha _ j r delta hentry
  obtain ⟨tariff, metered, rfl⟩ := h.accounts a (Array.mem_of_getElem? ha)
  simp [Account.opened] at hentry

/-- What the containers of an account hold, each value counted by itself. -/
def held (s : Store) (account : Nat) : Int := s.weighOn ownCost account

theorem weighOn_nonneg {w : Weight} (hw : ∀ k v, 0 ≤ w k v) (s : Store) (account : Nat) :
    0 ≤ s.weighOn w account := by
  apply List.sum_nonneg
  intro x hx
  obtain ⟨c, _, rfl⟩ := List.mem_map.mp hx
  unfold Container.weighOn
  split
  · exact Contents.weigh_nonneg hw c.contents
  · exact Int.le_refl 0

end Store

/-! ## Sums in 64 bits -/

def InRange (x : Int) : Prop := Int64.minValue.toInt ≤ x ∧ x ≤ Int64.maxValue.toInt

instance (x : Int) : Decidable (InRange x) := inferInstanceAs (Decidable (_ ∧ _))

theorem InRange.toInt_ofInt {x : Int} (h : InRange x) : (Int64.ofInt x).toInt = x :=
  Int64.toInt_ofInt_of_le h.1 (Int.lt_add_one_of_le h.2)

namespace Store

/-- The cost of an entry is no larger than the largest 64-bit number. -/
def Uncapped (s : Store) (i : Nat) (a : Account) (j : Nat) : Entry → Prop
  | .priced r _ => s.costBefore i a j r ≤ Int64.maxValue.toInt
  | .viewed .. => True

instance (s : Store) (i : Nat) (a : Account) (j : Nat) (entry : Entry) :
    Decidable (s.Uncapped i a j entry) := by
  cases entry with
  | priced => exact inferInstanceAs (Decidable (_ ≤ _))
  | viewed => exact inferInstanceAs (Decidable True)

/-- Nothing of an account ever went out of 64 bits: not the total, not the memory of a container,
and not what a report cost. -/
structure Unwrapped (s : Store) (i : Nat) (a : Account) : Prop where
  total : ∀ j ≤ a.journal.size, InRange ((a.before j).net fun _ delta => delta.toInt)
  memory : ∀ j ≤ a.journal.size, ∀ id ≤ a.issued,
    InRange ((a.before j).netOn id fun _ delta => delta.toInt)
  costs : ∀ (j : Nat) (h : j < a.journal.size), s.Uncapped i a j a.journal[j]

instance (s : Store) (i : Nat) (a : Account) : Decidable (s.Unwrapped i a) :=
  decidable_of_iff
    ((∀ j ≤ a.journal.size, InRange ((a.before j).net fun _ delta => delta.toInt)) ∧
      (∀ j ≤ a.journal.size, ∀ id ≤ a.issued,
        InRange ((a.before j).netOn id fun _ delta => delta.toInt)) ∧
      ∀ (j : Nat) (h : j < a.journal.size), s.Uncapped i a j a.journal[j])
    ⟨fun h => ⟨h.1, h.2.1, h.2.2⟩, fun h => ⟨h.total, h.memory, h.costs⟩⟩

end Store

/-! ## Steady prices -/

/-- A place is worth its price at most when a container is stored there, and at least when it is
taken out. -/
def Entry.Between (price : Nat × Nat → Int) : Entry → Prop
  | .priced r delta => r.change.signed (r.worth price) ≤ r.change.signed (nestedCost r delta)
  | .viewed .. => True

/-- At every moment there is a price for each place, between what a container is charged when it is
stored there and what it is credited when it is taken out. The price stays the same as long as the
container is there. -/
structure Account.Steady (a : Account) (price : Nat → Nat × Nat → Int) : Prop where
  nonneg : ∀ j ≤ a.journal.size, ∀ place, 0 ≤ price j place
  between : ∀ (j : Nat) (h : j < a.journal.size), a.journal[j].Between (price j)
  kept : ∀ j < a.journal.size, ∀ place, price (j + 1) place ≠ price j place →
    (a.before (j + 1)).stored place = 0

/-- Containers keep their memory as long as they are stored: if the same container is told of at a
place twice, and was there all the time in between, it has the same memory both times. -/
def Store.Rigid (s : Store) (i : Nat) (a : Account) : Prop :=
  ∀ j < a.journal.size, ∀ k < j, ∀ place ∈ a.placeAt? j, a.placeAt? k = some place →
    (∀ l ≤ j, k < l → (a.before l).stored place ≠ 0) →
    s.memoryBefore i a j place.2 = s.memoryBefore i a k place.2

instance (s : Store) (i : Nat) (a : Account) : Decidable (s.Rigid i a) :=
  inferInstanceAs (Decidable (∀ _ < _, ∀ _ < _, ∀ _ ∈ _, _))

theorem Account.Steady.credited_le {a : Account} {price : Nat → Nat × Nat → Int}
    (h : a.Steady price) (hstored : ∀ place, 0 ≤ a.stored place) : a.credited ≤ a.charged := by
  have hbetween : ∀ (j : Nat) (r : Report) (delta : Int64), a.journal[j]? = some (.priced r delta) →
      r.change.signed (r.worth (price j)) ≤ r.change.signed (nestedCost r delta) := by
    intro j r delta hentry
    obtain ⟨hj, heq⟩ := Array.getElem?_eq_some_iff.mp hentry
    have := h.between j hj
    rwa [heq] at this
  have hle := net_worth_le hbetween h.kept a.journal.size (Nat.le_refl _)
  have hnonneg := net_worth_nonneg (h.nonneg a.journal.size (Nat.le_refl _)) hstored
  rw [before_size] at hle
  have := a.net_eq
  omega

/-! ## Metered stores -/

/-- An account of a store that charges by size and never went out of 64 bits. -/
structure Store.Metered (s : Store) (i : Nat) (a : Account) : Prop where
  found : s.accounts[i]? = some a
  tariff : a.tariff = .bySize
  balanced : s.Balanced
  costed : s.Costed
  covered : ∀ w : Weight, (∀ k v, 0 ≤ w k v) → s.Covered w
  unwrapped : s.Unwrapped i a

namespace Store.Metered

variable {s : Store} {i : Nat} {a : Account}

theorem memoryBefore_ge (s : Store) (i : Nat) (a : Account) (j n : Nat) :
    -2 ^ 63 ≤ s.memoryBefore i a j n := by
  unfold memoryBefore
  split
  · split
    · exact Int64.le_toInt _
    · decide
  · decide

theorem toInt_eq (h : s.Metered i a) {j : Nat} {r : Report} {delta : Int64}
    (hentry : a.journal[j]? = some (.priced r delta)) (hbound : s.Bound i r.value) :
    delta.toInt = s.costBefore i a j r := by
  obtain ⟨hj, heq⟩ := Array.getElem?_eq_some_iff.mp hentry
  have hcap : s.costBefore i a j r ≤ Int64.maxValue.toInt := by
    have := h.unwrapped.costs j hj
    rwa [heq] at this
  have hlow : -2 ^ 63 ≤ s.costBefore i a j r := by
    have hown := ownCost_nonneg r.slot.key? r.value
    have hworth : -2 ^ 63 ≤ r.worth fun place => s.memoryBefore i a j place.2 := by
      unfold Report.worth
      cases r.place? with
      | none => simp
      | some place => exact memoryBefore_ge s i a j place.2
    unfold costBefore
    omega
  rw [h.costed i a h.found h.tariff j r delta hentry hbound, Int.min_eq_left hcap,
    Int64.toInt_ofInt_of_le hlow (Int.lt_add_one_of_le hcap)]

/-- A nested container costs the memory that it has at that moment. -/
theorem nestedCost_eq (h : s.Metered i a) {j : Nat} {r : Report} {delta : Int64}
    (hentry : a.journal[j]? = some (.priced r delta)) (hbound : s.Bound i r.value) :
    nestedCost r delta = r.worth fun place => s.memoryBefore i a j place.2 := by
  have hcost := h.toInt_eq hentry hbound
  unfold nestedCost
  cases hv : r.value.handle? with
  | none => simp [Report.worth, Report.place?, hv]
  | some handle =>
    simp only [costBefore, ownCost, Value.ownSize_of_handle hv, ← Slot.keySize_eq,
      Int64.toInt_zero] at hcost
    simp only [Option.isSome_some, if_true]
    omega

theorem delta_eq (h : s.Metered i a) {j : Nat} {r : Report} {delta : Int64}
    (hentry : a.journal[j]? = some (.priced r delta)) :
    delta.toInt = ownCost r.slot.key? r.value + nestedCost r delta := by
  cases hv : r.value.handle? with
  | none =>
    have hbound : s.Bound i r.value := by
      intro handle hhandle
      cases hv.symm.trans hhandle
    rw [h.nestedCost_eq hentry hbound, h.toInt_eq hentry hbound, costBefore]
  | some handle =>
    simp only [nestedCost, hv, Option.isSome_some, if_true, ownCost, Value.ownSize_of_handle hv,
      ← Slot.keySize_eq, Int64.toInt_zero]
    omega

/-- The reports cost their own parts and their nested parts. -/
theorem net_eq (h : s.Metered i a) :
    (a.net fun _ delta => delta.toInt) =
      (a.net fun r _ => ownCost r.slot.key? r.value) + a.net nestedCost := by
  rw [← a.net_add]
  apply Account.net_congr
  intro r delta hin
  obtain ⟨j, hj, heq⟩ := Array.mem_iff_getElem.mp hin
  exact h.delta_eq (Array.getElem?_eq_some_iff.mpr ⟨hj, heq⟩)

theorem netOn_eq (h : s.Metered i a) (j id : Nat) :
    ((a.before j).netOn id fun _ delta => delta.toInt) =
      ((a.before j).netOn id fun r _ => ownCost r.slot.key? r.value) +
        (a.before j).netOn id nestedCost := by
  rw [← Account.netOn_add]
  apply Account.netOn_congr
  intro r delta hin
  obtain ⟨k, -, hentry⟩ := Account.mem_before hin
  exact h.delta_eq hentry

theorem stored_nonneg (h : s.Metered i a) (j : Nat) (place : Nat × Nat) :
    0 ≤ (a.before j).stored place :=
  s.stored_nonneg (fun n => h.covered (handlesTo n) (handlesTo_nonneg n)) h.found j place

theorem memoryBefore_eq (h : s.Metered i a) {j n id : Nat} (hj : j ≤ a.journal.size)
    (hn : s.identity? n = some (i, id)) :
    s.memoryBefore i a j n = (a.before j).netOn id fun _ delta => delta.toInt := by
  obtain ⟨c, hc, hid⟩ := Option.map_eq_some_iff.mp hn
  obtain ⟨rfl, rfl⟩ := Prod.mk.inj hid
  have hissued := h.balanced.issued n c a hc h.found
  simp only [memoryBefore, hn, if_true]
  rw [Account.balance_eq_ofInt, (h.unwrapped.memory j hj c.id hissued).toInt_ofInt]

end Store.Metered

/-! ## Containers that keep their memory -/

namespace Store

variable {s : Store} {i : Nat} {a : Account}

/-- The memory that a container had when its place was last told of, this moment included. -/
def toldMemory (s : Store) (i : Nat) (a : Account) : Nat → Nat × Nat → Int
  | 0, place => s.memoryBefore i a 0 place.2
  | j + 1, place =>
    if a.placeAt? (j + 1) = some place then s.memoryBefore i a (j + 1) place.2
    else s.toldMemory i a j place

theorem toldMemory_of_placeAt {j : Nat} {place : Nat × Nat} (h : a.placeAt? j = some place) :
    s.toldMemory i a j place = s.memoryBefore i a j place.2 := by
  cases j with
  | zero => rfl
  | succ j => exact if_pos h

theorem toldMemory_nonneg {j : Nat} (h : ∀ k ≤ j, ∀ n, 0 ≤ s.memoryBefore i a k n)
    (place : Nat × Nat) : 0 ≤ s.toldMemory i a j place := by
  induction j with
  | zero => exact h 0 (Nat.le_refl 0) place.2
  | succ j ih =>
    rw [toldMemory]
    split
    · exact h (j + 1) (Nat.le_refl _) place.2
    · exact ih fun k hk => h k (Nat.le_succ_of_le hk)

/-- A place was either not told of up to a moment, or it was at some moment and not afterwards. -/
theorem toldMemory_cases (s : Store) (i : Nat) (a : Account) (j : Nat) (place : Nat × Nat) :
    (∀ k ≤ j, a.placeAt? k ≠ some place) ∨
      ∃ k ≤ j, a.placeAt? k = some place ∧
        s.toldMemory i a j place = s.memoryBefore i a k place.2 ∧
        ∀ l, k < l → l ≤ j → a.placeAt? l ≠ some place := by
  induction j with
  | zero =>
    by_cases hplace : a.placeAt? 0 = some place
    · right
      refine ⟨0, Nat.le_refl 0, hplace, rfl, ?_⟩
      intro l hl hle
      omega
    · left
      intro k hk
      rwa [Nat.le_zero.mp hk]
  | succ j ih =>
    by_cases hplace : a.placeAt? (j + 1) = some place
    · right
      refine ⟨j + 1, Nat.le_refl _, hplace, toldMemory_of_placeAt hplace, ?_⟩
      intro l hl hle
      omega
    · rcases ih with hnone | ⟨k, hk, htold, hmemory, hlast⟩
      · left
        intro k hk
        rcases Nat.le_succ_iff.mp hk with hk | rfl
        · exact hnone k hk
        · exact hplace
      · right
        refine ⟨k, Nat.le_succ_of_le hk, htold, ?_, ?_⟩
        · rw [toldMemory, if_neg hplace, hmemory]
        · intro l hl hle
          rcases Nat.le_succ_iff.mp hle with hle | rfl
          · exact hlast l hl hle
          · exact hplace

/-- The memory that a place was last told with changes only if nothing is stored there. -/
theorem Rigid.toldMemory_kept (h : s.Rigid i a) {j : Nat} {place : Nat × Nat}
    (hchanged : s.toldMemory i a (j + 1) place ≠ s.toldMemory i a j place) :
    (a.before (j + 1)).stored place = 0 := by
  have hplace : a.placeAt? (j + 1) = some place := by
    by_contra hother
    exact hchanged (if_neg hother)
  by_contra hstored
  rcases s.toldMemory_cases i a j place with hnone | ⟨k, hk, htold, hmemory, hlast⟩
  · -- never told of, so never stored
    have hzero : (a.before (j + 1)).stored place = (a.before 0).stored place :=
      Account.stored_before_eq (Nat.zero_le _) fun l _ hl => hnone l (Nat.le_of_lt_succ hl)
    exact hstored hzero
  · -- stored since it was last told of, so the memory is the same
    have hsize : j + 1 < a.journal.size := by
      obtain ⟨entry, hentry, -⟩ := Option.bind_eq_some_iff.mp hplace
      exact (Array.getElem?_eq_some_iff.mp hentry).1
    have hstays : ∀ l ≤ j + 1, k < l → (a.before l).stored place ≠ 0 := by
      intro l hl hkl
      have hsame : (a.before (j + 1)).stored place = (a.before l).stored place :=
        Account.stored_before_eq hl fun m hm hmj =>
          hlast m (Nat.lt_of_lt_of_le hkl hm) (Nat.le_of_lt_succ hmj)
      rwa [← hsame]
    have hsame := h (j + 1) hsize k (Nat.lt_succ_of_le hk) place hplace htold hstays
    rw [toldMemory_of_placeAt hplace, hmemory] at hchanged
    exact hchanged hsame

namespace Metered

/-- What places are told with is what they cost. -/
theorem worth_toldMemory (h : s.Metered i a) {j : Nat} {r : Report} {delta : Int64}
    (hentry : a.journal[j]? = some (.priced r delta)) (hbound : s.Bound i r.value) :
    r.worth (s.toldMemory i a j) = nestedCost r delta := by
  rw [h.nestedCost_eq hentry hbound]
  unfold Report.worth
  cases hplace : r.place? with
  | none => rfl
  | some place =>
    have htold : a.placeAt? j = some place := by
      rw [Account.placeAt?, hentry]
      exact hplace
    exact toldMemory_of_placeAt htold

/-- Where each place is worth no less than nothing, what was charged and credited for those in one
container is no less than nothing. -/
theorem netOn_nestedCost_nonneg (h : s.Metered i a)
    (hbound : ∀ n, ∀ identity ∈ s.identity? n, identity.1 = i) (hrigid : s.Rigid i a) {j : Nat}
    (hj : j < a.journal.size) (htold : ∀ place, 0 ≤ s.toldMemory i a j place) (id : Nat) :
    0 ≤ (a.before (j + 1)).netOn id nestedCost := by
  let price (k : Nat) (place : Nat × Nat) : Int :=
    if place.1 = id then s.toldMemory i a k place else 0
  have hworth (k : Nat) (r : Report) :
      r.worth (price k) = if r.container = id then r.worth (s.toldMemory i a k) else 0 := by
    unfold Report.worth Report.place?
    cases r.value.handle? with
    | none => simp
    | some handle => rfl
  have hbetween : ∀ (k : Nat) (r : Report) (delta : Int64), a.journal[k]? = some (.priced r delta) →
      r.change.signed (r.worth (price k)) ≤
        r.change.signed (if r.container = id then nestedCost r delta else 0) := by
    intro k r delta hentry
    rw [hworth, h.worth_toldMemory hentry fun _ _ => hbound _]
  have hkept : ∀ k < a.journal.size, ∀ place, price (k + 1) place ≠ price k place →
      (a.before (k + 1)).stored place = 0 := by
    intro k _ place hchanged
    by_cases hid : place.1 = id
    · simp only [price, if_pos hid] at hchanged
      exact hrigid.toldMemory_kept hchanged
    · simp only [price, if_neg hid, ne_eq, not_true_eq_false] at hchanged
  have hprice : ∀ place, 0 ≤ price j place := by
    intro place
    simp only [price]
    split
    · exact htold place
    · exact Int.le_refl 0
  have hle := Account.net_worth_step hbetween hj
    (Account.net_worth_le hbetween hkept j (Nat.le_of_lt hj))
  exact Int.le_trans (Account.net_worth_nonneg hprice (h.stored_nonneg (j + 1))) hle

/-- The memory of a container is no less than nothing as long as those that are stored in it keep
theirs: by induction that is no less than nothing either. -/
theorem memoryBefore_nonneg (h : s.Metered i a)
    (hbound : ∀ n, ∀ identity ∈ s.identity? n, identity.1 = i) (hrigid : s.Rigid i a) :
    ∀ j ≤ a.journal.size, ∀ n, 0 ≤ s.memoryBefore i a j n := by
  intro j
  induction j using Nat.strong_induction_on with
  | h j ih =>
    intro hj n
    cases hn : s.identity? n with
    | none => simp [memoryBefore, hn]
    | some identity =>
      obtain ⟨account, id⟩ := identity
      have haccount : account = i := hbound n _ hn
      rw [haccount] at hn
      rw [h.memoryBefore_eq hj hn]
      cases j with
      | zero => exact Int.le_refl 0
      | succ j =>
        have htold : ∀ place, 0 ≤ s.toldMemory i a j place := by
          apply toldMemory_nonneg
          intro k hk
          exact ih k (Nat.lt_succ_of_le hk) (Nat.le_trans hk (Nat.le_of_lt hj))
        have hown := (h.covered ownCost ownCost_nonneg).netOn_nonneg h.found (j + 1) id
        have hnested := h.netOn_nestedCost_nonneg hbound hrigid hj htold id
        rw [h.netOn_eq]
        omega

/-- Prices are steady where containers keep their memory. -/
theorem steady (h : s.Metered i a) (hbound : ∀ n, ∀ identity ∈ s.identity? n, identity.1 = i)
    (hrigid : s.Rigid i a) : a.Steady (s.toldMemory i a) := by
  have hmemory := h.memoryBefore_nonneg hbound hrigid
  constructor
  · intro j hj place
    exact toldMemory_nonneg (fun k hk => hmemory k (Nat.le_trans hk hj)) place
  · intro j hj
    have hentry := Array.getElem?_eq_getElem hj
    cases hcase : a.journal[j] with
    | viewed => trivial
    | priced r delta =>
      rw [hcase] at hentry
      simp only [Entry.Between, h.worth_toldMemory hentry fun _ _ => hbound _]
      exact Int.le_refl _
  · intro j _ place hchanged
    exact hrigid.toldMemory_kept hchanged

end Metered

end Store

/-! ## Usage -/

/-- The usage of a metered account that charges by size is what its containers hold, and what nested
containers were charged more than credited, each time the memory they had. So it covers what is held
just if the credits do not exceed the charges. It does so at steady prices, and so if containers
keep their memory as long as they are stored. -/
theorem usage_of_session {loose : Nat → Prop} {start s : Store} (hstart : start.Fresh) {i : Nat}
    (hopened : start.accounts[i]? = some (.opened .bySize true)) (h : Session loose start s)
    {a : Account} (ha : s.accounts[i]? = some a) (hwrap : s.Unwrapped i a) :
    ∃ usage, s.usage? i = some usage ∧
      usage.toInt = s.held i + (a.charged - a.credited) ∧
      (∀ (j : Nat) (r : Report) (delta : Int64), a.journal[j]? = some (.priced r delta) →
        s.Bound i r.value →
        nestedCost r delta = r.worth fun place => s.memoryBefore i a j place.2) ∧
      (s.held i ≤ usage.toInt ↔ a.credited ≤ a.charged) ∧
      (∀ price, a.Steady price → s.held i ≤ usage.toInt ∧ 0 ≤ usage.toInt) ∧
      ((∀ c ∈ s.containers, c.account = i) → s.Rigid i a →
        s.held i ≤ usage.toInt ∧ 0 ≤ usage.toInt) := by
  have hterms := h.moves.terms_eq i
  simp only [Store.terms, ha, hopened, Option.map_some, Option.some.injEq, Prod.mk.injEq] at hterms
  obtain ⟨htariff, hmetered⟩ := hterms
  have hbalanced : s.Balanced :=
    h.moves.keep (P := Store.Balanced) (fun hmove hu => hmove.step.balanced hu) hstart.balanced
  have hcovered (w : Weight) (hw : ∀ k v, 0 ≤ w k v) : s.Covered w :=
    h.moves.covered hw (hstart.covered w) hstart.balanced (hstart.weighed w)
  have hm : s.Metered i a :=
    { found := ha
      tariff := htariff
      balanced := hbalanced
      costed := h.moves.costed hstart.costed hstart.balanced
      covered := hcovered
      unwrapped := hwrap }
  have hi : i < s.accounts.size := (Array.getElem?_eq_some_iff.mp ha).1
  have hheld : (a.net fun r _ => ownCost r.slot.key? r.value) = s.held i := by
    have := (h.moves.weighed (hstart.weighed ownCost)).net i hi
    simpa [Store.netOf, Store.held, ha] using this
  have husage : s.usage? i = some a.total := by
    simp [Store.usage?, ha, Account.usage?, hmetered, Account.opened]
  have htotal : a.total.toInt = s.held i + (a.charged - a.credited) := by
    have hsound : a.total = Int64.ofInt (a.net fun _ delta => delta.toInt) :=
      h.moves.sound hstart.sound i a ha
    have hrange := hwrap.total a.journal.size (Nat.le_refl _)
    rw [Account.before_size] at hrange
    rw [hsound, hrange.toInt_ofInt, hm.net_eq, hheld, a.net_eq]
  have hsteady : ∀ price, a.Steady price → s.held i ≤ a.total.toInt ∧ 0 ≤ a.total.toInt := by
    intro price hprice
    have hstored : ∀ place, 0 ≤ a.stored place := by
      intro place
      have := hm.stored_nonneg a.journal.size place
      rwa [Account.before_size] at this
    have hcredited := hprice.credited_le hstored
    have hnonneg : 0 ≤ s.held i := s.weighOn_nonneg ownCost_nonneg i
    constructor <;> omega
  refine ⟨a.total, husage, htotal, fun _ _ _ => hm.nestedCost_eq, ?_, hsteady, ?_⟩
  · omega
  · intro hall hrigid
    apply hsteady _ (hm.steady ?_ hrigid)
    intro n identity hidentity
    obtain ⟨c, hc, rfl⟩ := Option.map_eq_some_iff.mp hidentity
    exact hall c (Array.mem_of_getElem? hc)

/-! ## Two lists -/

/-- No containers, and a metered account that charges by size. -/
def Store.metered : Store := ⟨#[.opened .bySize true], #[]⟩

theorem Store.metered_fresh : Store.metered.Fresh :=
  ⟨fun a ha => ⟨.bySize, true, by simpa [metered] using ha⟩, rfl⟩

def twoLists : Store := ((Lists.create 0 []).run ((Lists.create 0 []).run .metered).2).2

/-- What a script does by calling a method on one of the lists. -/
def Store.onList (s : Store) (target : Nat) (method : String) (args : List Value) : Store :=
  ((Environment.callBuiltIn 0 (.list ⟨target, .owner⟩) method args).run s).2

/-- The second list takes the first one in, which then grows. -/
def nested : Store :=
  (twoLists.onList 1 "push" [.list ⟨0, .owner⟩]).onList 0 "push" [.str "xxxxxxxxxx"]

/-- The first list is taken out of the second one, and is emptied. -/
def takenOut : Store := nested.onList 1 "pop" []

theorem Session.onList {start s : Store} (h : Session (fun _ => False) start s) (target : Nat)
    {method : String} (args : List Value) (hfits : s.Fits .list ⟨target, .owner⟩)
    (hm : method ≠ "sort" ∧ method ≠ "reverse") :
    Session (fun _ => False) start (s.onList target method args) :=
  .call h (.script 0 method args hfits fun _ _ hor => (hor.elim hm.1 hm.2).elim)

theorem twoLists_session : Session (fun _ => False) .metered twoLists :=
  .create (.create .start (.list 0 [])) (.list 0 [])

theorem nested_session : Session (fun _ => False) .metered nested :=
  (twoLists_session.onList 1 _ (by decide +kernel) (by decide)).onList 0 _ (by decide +kernel)
    (by decide)

theorem takenOut_session : Session (fun _ => False) .metered takenOut :=
  nested_session.onList 1 [] (by decide +kernel) (by decide)

/-- A list that grows inside another one is credited more than it was charged: ten bytes are held at
a usage of nothing, and the usage is negative when they are gone. -/
theorem usage_below_held :
    Store.metered.Fresh ∧ Store.metered.accounts[0]? = some (.opened .bySize true) ∧
      Session (fun _ => False) .metered takenOut ∧
      (∀ a ∈ takenOut.accounts, takenOut.Unwrapped 0 a) ∧
      takenOut.usage? 0 = some 0 ∧ takenOut.held 0 = 10 ∧
      Session (fun _ => False) .metered (takenOut.onList 0 "pop" []) ∧
      (∀ a ∈ (takenOut.onList 0 "pop" []).accounts,
        (takenOut.onList 0 "pop" []).Unwrapped 0 a) ∧
      (takenOut.onList 0 "pop" []).usage? 0 = some (-10) ∧
      (takenOut.onList 0 "pop" []).held 0 = 0 :=
  ⟨Store.metered_fresh, rfl, takenOut_session, by decide +kernel, by decide +kernel,
    by decide +kernel, takenOut_session.onList 0 [] (by decide +kernel) (by decide),
    by decide +kernel, by decide +kernel, by decide +kernel⟩

/-- The first list is stored in the second one and taken out, and then it grows. -/
def grown : Store :=
  ((twoLists.onList 1 "push" [.list ⟨0, .owner⟩]).onList 1 "pop" []).onList 0 "push"
    [.str "xxxxxxxxxx"]

/-- It is stored and taken out again. -/
def restored : Store := (grown.onList 1 "push" [.list ⟨0, .owner⟩]).onList 1 "pop" []

theorem grown_session : Session (fun _ => False) .metered grown :=
  ((twoLists_session.onList 1 _ (by decide +kernel) (by decide)).onList 1 _ (by decide +kernel)
    (by decide)).onList 0 _ (by decide +kernel) (by decide)

theorem restored_session : Session (fun _ => False) .metered restored :=
  (grown_session.onList 1 _ (by decide +kernel) (by decide)).onList 1 _ (by decide +kernel)
    (by decide)

/-- A list that grows between two stays in another one costs ten bytes the second time, and they are
credited. -/
theorem usage_of_nested :
    ∃ (usage : Int64) (a : Account), restored.accounts[0]? = some a ∧
      restored.usage? 0 = some usage ∧ a.charged = 10 ∧ a.credited = 10 ∧
      restored.held 0 = 10 ∧ restored.held 0 ≤ usage.toInt := by
  obtain ⟨a, ha⟩ : ∃ a, restored.accounts[0]? = some a :=
    Option.isSome_iff_exists.mp (by decide +kernel)
  have hin := Array.mem_of_getElem? ha
  have hwrap : ∀ a ∈ restored.accounts, restored.Unwrapped 0 a := by decide +kernel
  have hrigid : ∀ a ∈ restored.accounts, restored.Rigid 0 a := by decide +kernel
  have hsums : ∀ a ∈ restored.accounts, a.charged = 10 ∧ a.credited = 10 := by decide +kernel
  obtain ⟨usage, husage, -, -, -, -, hcovered⟩ :=
    usage_of_session Store.metered_fresh rfl restored_session ha (hwrap a hin)
  obtain ⟨hle, -⟩ := hcovered (by decide +kernel) (hrigid a hin)
  obtain ⟨hcharged, hcredited⟩ := hsums a hin
  exact ⟨usage, a, ha, husage, hcharged, hcredited, by decide +kernel, hle⟩

end MeteredScript
