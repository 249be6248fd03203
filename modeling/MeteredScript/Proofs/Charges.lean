import MeteredScript.Proofs.Store.Moments

/-!
# What reports cost

Priced by size, a value and the key it is kept under cost what they take by themselves, and a
container costs the memory that it has at that moment, which is what the reports up to then say of
it. So a nested container costs the same when it is stored and when it is taken out, unless it
changed in between.
-/

namespace MeteredScript

/-! ## Sizes -/

/-- The size of a value itself. A container has none apart from what it holds. -/
def Value.ownSize : Value → Int64
  | .null => 0
  | .bool _ => 1
  | .int _ | .float _ | .native _ => 8
  | .str text => textSize text
  | .list _ | .map _ | .set _ => 0

/-- What the key and the value cost that are kept in one place of a container. -/
def ownCost : Weight := fun k v => ((k.map Key.size).getD 0).toInt + v.ownSize.toInt

theorem textSize_nonneg (text : String) : 0 ≤ (textSize text).toInt := by
  unfold textSize boundedLength
  rw [Int64.toInt_ofNat_of_lt (by omega)]
  omega

theorem Key.size_nonneg (k : Key) : 0 ≤ k.size.toInt := by
  cases k with
  | str s => exact textSize_nonneg s
  | null | bool | int | float => simp only [size]; decide

theorem Value.ownSize_nonneg (v : Value) : 0 ≤ v.ownSize.toInt := by
  cases v with
  | str s => exact textSize_nonneg s
  | null | bool | int | float | list | map | set | native => simp only [ownSize]; decide

theorem ownCost_nonneg (k : Option Key) (v : Value) : 0 ≤ ownCost k v := by
  have hv := v.ownSize_nonneg
  cases k with
  | none => simpa [ownCost] using hv
  | some k =>
    have hk := k.size_nonneg
    simp only [ownCost, Option.map_some, Option.getD_some]
    omega

theorem Slot.keySize_eq (slot : Slot) : slot.keySize = (slot.key?.map Key.size).getD 0 := by
  cases slot <;> rfl

theorem Store.sizeOf_eq_ownSize (s : Store) {v : Value} (h : v.handle? = none) :
    s.sizeOf v = v.ownSize := by
  cases v with
  | list | map | set => cases h
  | null | bool | int | float | str | native => rfl

theorem Store.sizeOf_eq_memory (s : Store) {v : Value} {h : Handle} (hv : v.handle? = some h) :
    s.sizeOf v = s.memory h := by
  cases v with
  | list | map | set =>
    obtain rfl := Option.some.inj hv
    rfl
  | null | bool | int | float | str | native => cases hv

theorem Value.ownSize_of_handle {v : Value} {h : Handle} (hv : v.handle? = some h) :
    v.ownSize = 0 := by
  cases v with
  | list | map | set => rfl
  | null | bool | int | float | str | native => cases hv

/-- What a report of a nested container cost, its key apart. -/
def nestedCost (r : Report) (delta : Int64) : Int :=
  if r.value.handle?.isSome then delta.toInt - r.slot.keySize.toInt else 0

/-! ## Memory at every moment -/

theorem Account.balance_before_congr {a b : Account} {j : Nat}
    (h : b.journal.toList.take j = a.journal.toList.take j) (id : Nat) :
    (b.before j).balance id = (a.before j).balance id := by
  simp only [balance, sumOf, before, h]

theorem Account.take_push {a : Account} {j : Nat} (hj : j ≤ a.journal.size) (entry : Entry) :
    (a.journal.push entry).toList.take j = a.journal.toList.take j := by
  rw [Array.toList_push, List.take_append_of_le_length (by simpa using hj)]

namespace Store

variable {loose : Nat → Prop} {s t : Store}

/-- The account that a container belongs to, and the identity that it has there. -/
def identity? (s : Store) (n : Nat) : Option (Nat × Nat) :=
  s.containers[n]?.map fun c => (c.account, c.id)

/-- The memory that a container of an account had before the report of the given number: that of
the reports up to then. -/
def memoryBefore (s : Store) (i : Nat) (a : Account) (j n : Nat) : Int :=
  match s.identity? n with
  | some (account, id) => if account = i then ((a.before j).balance id).toInt else 0
  | none => 0

/-- What the key and the value of the report of the given number cost. -/
def costBefore (s : Store) (i : Nat) (a : Account) (j : Nat) (r : Report) : Int :=
  ownCost r.slot.key? r.value + r.worth fun place => s.memoryBefore i a j place.2

/-- A value that is no container of another account. -/
def Bound (s : Store) (i : Nat) (v : Value) : Prop :=
  ∀ h ∈ v.handle?, ∀ identity ∈ s.identity? h.target, identity.1 = i

theorem bound_congr (hid : ∀ n, t.identity? n = s.identity? n) (i : Nat) (v : Value) :
    t.Bound i v ↔ s.Bound i v := by
  simp only [Bound, hid]

/-- Priced by size, each report of a value that is no container of another account cost what its key
and its value cost at that moment. -/
def Costed (s : Store) : Prop :=
  ∀ (i : Nat) (a : Account), s.accounts[i]? = some a → a.tariff = .bySize →
    ∀ (j : Nat) (r : Report) (delta : Int64), a.journal[j]? = some (.priced r delta) →
      s.Bound i r.value →
      delta = Int64.ofInt (min (s.costBefore i a j r) Int64.maxValue.toInt)

/-- The memory is that of all reports. -/
theorem Balanced.memory_eq (h : s.Balanced) {i : Nat} {a : Account} (ha : s.accounts[i]? = some a)
    {n : Nat} (hn : ∀ identity ∈ s.identity? n, identity.1 = i) :
    ((s.containers[n]?.map Container.memory).getD 0).toInt =
      s.memoryBefore i a a.journal.size n := by
  unfold memoryBefore
  cases hc : s.containers[n]? with
  | none =>
    simp only [identity?, hc, Option.map_none]
    rfl
  | some c =>
    have hi : c.account = i := hn (c.account, c.id) (by simp [identity?, hc])
    subst hi
    simp only [identity?, hc, Option.map_some, Option.getD_some, if_true, Account.before_size]
    rw [h.memory n c a hc ha]

/-- A cost depends on the reports up to then only. -/
theorem costBefore_congr {i j : Nat} {a b : Account}
    (hid : ∀ n, t.identity? n = s.identity? n)
    (hj : b.journal.toList.take j = a.journal.toList.take j) (r : Report) :
    t.costBefore i b j r = s.costBefore i a j r := by
  simp only [costBefore, memoryBefore, hid, Account.balance_before_congr hj]

theorem identity?_post (s : Store) (target : Nat) (change : Change) (slot : Slot) (value : Value)
    (n : Nat) : (s.post target change slot value).identity? n = s.identity? n := by
  have hface := congrArg (·.map fun face => (face.2.1, face.1))
    (s.post_face target change slot value n)
  simpa [identity?, Container.face, Function.comp_def] using hface

theorem accounts_post {target : Nat} {c : Container} (hc : s.containers[target]? = some c)
    (change : Change) (slot : Slot) (value : Value) (i : Nat) :
    (s.post target change slot value).accounts[i]? = s.accounts[i]?.map fun a =>
      if c.account = i then
        a.enter ⟨change, c.id, slot, value⟩
          (a.tariff.price a.journal ⟨change, c.id, slot, value⟩ (s.sizeOf value))
      else a := by
  unfold Store.post
  rw [hc]
  dsimp only
  cases ha : s.accounts[c.account]? with
  | none =>
    by_cases hi : c.account = i
    · rw [← hi, ha]
      rfl
    · simp [hi]
  | some a =>
    rw [Array.getElem?_modify]
    by_cases hi : c.account = i
    · rw [← hi, ha]
      simp
    · simp [hi]

/-- The cost of a report is that of its moment, as memory and balance of a container agree. -/
theorem Balanced.price_eq (h : s.Balanced) {i : Nat} {a : Account} (ha : s.accounts[i]? = some a)
    (htariff : a.tariff = .bySize) {r : Report} (hbound : s.Bound i r.value) :
    a.tariff.price a.journal r (s.sizeOf r.value) =
      Int64.ofInt (min (s.costBefore i a a.journal.size r) Int64.maxValue.toInt) := by
  rw [htariff]
  simp only [Tariff.bySize, Slot.keySize_eq, costBefore, ownCost, Report.worth, Report.place?]
  cases hv : r.value.handle? with
  | none => simp [s.sizeOf_eq_ownSize hv]
  | some handle =>
    have hmemory : (s.memory handle).toInt = s.memoryBefore i a a.journal.size handle.target :=
      h.memory_eq ha (hbound handle hv)
    simp [s.sizeOf_eq_memory hv, hmemory, Value.ownSize_of_handle hv]

theorem Costed.post (h : s.Costed) (hb : s.Balanced) (target : Nat) (change : Change) (slot : Slot)
    (value : Value) : (s.post target change slot value).Costed := by
  cases hc : s.containers[target]? with
  | none => simpa only [Store.post, hc] using h
  | some c =>
    intro i b hb' htariff j r delta hentry hbound
    have hid := s.identity?_post target change slot value
    have hbound' : s.Bound i r.value := (bound_congr hid i r.value).mp hbound
    rw [accounts_post hc] at hb'
    obtain ⟨a, ha, rfl⟩ := Option.map_eq_some_iff.mp hb'
    by_cases hi : c.account = i
    · rw [if_pos hi] at htariff hentry ⊢
      simp only [Account.enter, Array.getElem?_push] at hentry
      have hj : j ≤ a.journal.size := by
        split at hentry
        · omega
        · have := (Array.getElem?_eq_some_iff.mp hentry).1
          omega
      rw [costBefore_congr hid (Account.take_push hj _)]
      split at hentry
      · next hnew =>
        obtain ⟨rfl, rfl⟩ := Entry.priced.inj (Option.some.inj hentry)
        rw [hnew]
        exact hb.price_eq ha htariff hbound'
      · exact h i a ha htariff j r delta hentry hbound'
    · rw [if_neg hi] at htariff hentry ⊢
      rw [costBefore_congr hid rfl]
      exact h i a ha htariff j r delta hentry hbound'

theorem Costed.posts (h : s.Costed) (hb : s.Balanced) (target : Nat)
    (changes : List (Change × Slot × Value)) :
    (changes.foldl (fun s (change, slot, value) => s.post target change slot value) s).Costed := by
  induction changes generalizing s with
  | nil => exact h
  | cons head rest ih =>
    obtain ⟨change, slot, value⟩ := head
    exact ih (h.post hb target change slot value) (hb.post target change slot value)

theorem Costed.commit (h : s.Costed) (hb : s.Balanced) (target : Nat) (new : Contents)
    (changes : List (Change × Slot × Value)) : (s.commit target new changes).Costed := by
  have hid : ∀ n,
      identity? ⟨s.accounts, s.containers.modify target ({ · with contents := new })⟩ n =
        s.identity? n := by
    intro n
    simp only [identity?, Array.getElem?_modify]
    split
    · simp [Function.comp_def]
    · rfl
  have hnew : Costed ⟨s.accounts, s.containers.modify target ({ · with contents := new })⟩ := by
    intro i a ha htariff j r delta hentry hbound
    rw [costBefore_congr hid rfl]
    exact h i a ha htariff j r delta hentry ((bound_congr hid i r.value).mp hbound)
  exact hnew.posts (hb.withContents target new) target changes

theorem identity?_allocate (s : Store) (account : Nat) (contents : Contents) (n : Nat) :
    (s.allocate account contents).2.identity? n =
      if n = s.containers.size then
        some (account, (s.accounts[account]?.map (·.issued)).getD 0 + 1)
      else s.identity? n := by
  simp only [identity?, Store.allocate, Array.getElem?_push]
  split <;> rfl

/-- Nothing was reported of a new container yet. -/
theorem memoryBefore_allocate (hb : s.Balanced) {account i : Nat} {a b : Account}
    (ha : s.accounts[i]? = some a) (hjournal : b.journal = a.journal) (contents : Contents)
    (j n : Nat) :
    (s.allocate account contents).2.memoryBefore i b j n = s.memoryBefore i a j n := by
  have hsame : ∀ id, (b.before j).balance id = (a.before j).balance id :=
    Account.balance_before_congr (by rw [hjournal])
  simp only [memoryBefore, identity?_allocate]
  by_cases hn : n = s.containers.size
  · have hnone : s.identity? n = none := by simp [identity?, hn]
    rw [if_pos hn, hnone]
    dsimp only
    split
    · next haccount =>
      subst haccount
      rw [ha, hsame, Account.balance_eq_zero]
      · rfl
      · intro r delta hin hnew
        obtain ⟨k, -, hk⟩ := Account.mem_before hin
        have hissued := hb.reported account a r delta ha (Array.mem_of_getElem? hk)
        simp only [Option.map_some, Option.getD_some] at hnew
        omega
    · rfl
  · rw [if_neg hn]
    simp only [hsame]

theorem Costed.allocate (h : s.Costed) (hb : s.Balanced) (account : Nat) (contents : Contents) :
    (s.allocate account contents).2.Costed := by
  intro i b hb' htariff j r delta hentry hbound
  have hbound' : s.Bound i r.value := by
    intro handle hhandle identity hidentity
    have hold : handle.target ≠ s.containers.size := by
      rintro hsize
      simp [identity?, hsize] at hidentity
    apply hbound handle hhandle
    rwa [identity?_allocate, if_neg hold]
  obtain ⟨a, ha, hsame, hjournal⟩ : ∃ a, s.accounts[i]? = some a ∧ b.tariff = a.tariff ∧
      b.journal = a.journal := by
    simp only [Store.allocate, Array.getElem?_modify] at hb'
    split at hb'
    · obtain ⟨a, ha, rfl⟩ := Option.map_eq_some_iff.mp hb'
      exact ⟨a, ha, rfl, rfl⟩
    · exact ⟨b, hb', rfl, rfl⟩
  have hcost : (s.allocate account contents).2.costBefore i b j r = s.costBefore i a j r := by
    simp only [costBefore, memoryBefore_allocate hb ha hjournal]
  rw [hcost]
  exact h i a ha (hsame ▸ htariff) j r delta (hjournal ▸ hentry) hbound'

theorem Costed.readOnly (h : s.Costed) (handle : Handle) : (s.readOnly handle).2.Costed := by
  intro i b hb htariff j r delta hentry hbound
  have hid : ∀ n, (s.readOnly handle).2.identity? n = s.identity? n := by
    intro n
    simp only [identity?, readOnly_containers]
  obtain ⟨a, ha, hsame, hold, htake⟩ : ∃ a, s.accounts[i]? = some a ∧ b.tariff = a.tariff ∧
      a.journal[j]? = some (.priced r delta) ∧
      b.journal.toList.take j = a.journal.toList.take j := by
    unfold Store.readOnly at hb
    split at hb
    · rw [Array.getElem?_modify] at hb
      split at hb
      · obtain ⟨a, ha, rfl⟩ := Option.map_eq_some_iff.mp hb
        simp only [Account.issueView, Array.getElem?_push] at hentry
        split at hentry
        · cases hentry
        · have hj := (Array.getElem?_eq_some_iff.mp hentry).1
          exact ⟨a, ha, rfl, hentry, Account.take_push (Nat.le_of_lt hj) _⟩
      · exact ⟨b, hb, rfl, hentry, rfl⟩
    · exact ⟨b, hb, rfl, hentry, rfl⟩
  rw [costBefore_congr hid htake]
  exact h i a ha (hsame ▸ htariff) j r delta hold ((bound_congr hid i r.value).mp hbound)

theorem Step.costed {R : Realm} (hstep : Step R s t) (h : s.Costed) (hb : s.Balanced) :
    t.Costed := by
  cases hstep with
  | commit handle contents changes => exact h.commit hb handle.target contents changes
  | allocate account contents => exact h.allocate hb account contents
  | readOnly handle => exact h.readOnly handle

theorem Moves.costed (hmoves : Moves loose s t) (h : s.Costed) (hb : s.Balanced) : t.Costed := by
  have hboth := hmoves.keep (P := fun u => u.Balanced ∧ u.Costed)
    (fun hmove hu => ⟨hmove.step.balanced hu.1, hmove.step.costed hu.2 hu.1⟩) ⟨hb, h⟩
  exact hboth.2

end Store

end MeteredScript
