import MeteredScript.Proofs.Quota

/-!
# The memory of containers of scalars

A scalar costs the same whenever it is stored or taken out, if its price depends on it and on its
key alone. Then the memory of a container that never held anything else is the price of what it
holds, however it came to hold that.
-/

namespace MeteredScript

/-! ## Prices -/

/-- Scalars are priced by what they are and by the key they are kept under, and by nothing else. -/
def Tariff.Prices (tariff : Tariff) (cost : Option Key → Value → Int64) : Prop :=
  ∀ (journal : Array Entry) (r : Report), r.value.isScalar = true →
    tariff.price journal r r.value.ownSize = cost r.slot.key? r.value

/-- The sizes of the key and the value together, at most the largest 64-bit number. -/
def sizeCost (k : Option Key) (v : Value) : Int64 :=
  Int64.ofInt (min (ownCost k v) Int64.maxValue.toInt)

theorem Tariff.bySize_prices : bySize.Prices sizeCost := by
  intro _ r _
  simp only [bySize, sizeCost, ownCost, Slot.keySize_eq]

theorem sizeCost_toInt (k : Option Key) (v : Value) :
    (sizeCost k v).toInt = min (ownCost k v) Int64.maxValue.toInt := by
  have hnonneg := ownCost_nonneg k v
  have hmax : Int64.maxValue.toInt = 2 ^ 63 - 1 := rfl
  apply Int64.toInt_ofInt_of_le <;> omega

theorem Value.handle?_of_isScalar {v : Value} (h : v.isScalar = true) : v.handle? = none := by
  cases v with
  | list | map | set | native => cases h
  | null | bool | int | float | str => rfl

/-! ## Scalars alone -/

/-- No change puts anything but a scalar in. -/
def AddsScalars (changes : List (Change × Slot × Value)) : Prop :=
  ∀ change ∈ changes, change.1 = .added → change.2.2.isScalar = true

instance (changes : List (Change × Slot × Value)) : Decidable (AddsScalars changes) :=
  inferInstanceAs (Decidable (∀ _ ∈ _, _))

theorem addsScalars_append {first next : List (Change × Slot × Value)} :
    AddsScalars (first ++ next) ↔ AddsScalars first ∧ AddsScalars next :=
  List.forall_mem_append

theorem addsScalars_removed {α : Type} (items : List α) (slot : α → Slot) (value : α → Value) :
    AddsScalars (items.map fun x => (.removed, slot x, value x)) := by
  intro change hin hadded
  obtain ⟨x, _, rfl⟩ := List.mem_map.mp hin
  cases hadded

namespace Contents

def Scalar (c : Contents) : Prop := ∀ p ∈ c.holdings, p.2.isScalar = true

/-- The price of all that is held together, in 64 bits. -/
def cost (price : Option Key → Value → Int64) (c : Contents) : Int64 :=
  Int64.ofInt (c.weigh fun k v => (price k v).toInt)

theorem Scalar.of_perm {c d : Contents} (h : c.Scalar) (hp : c.holdings.Perm d.holdings) :
    d.Scalar := fun p hin => h p (hp.mem_iff.mpr hin)

theorem blank_scalar (c : Contents) : c.blank.Scalar := by
  cases c <;> exact fun _ h => absurd h List.not_mem_nil

theorem blank_cost (price : Option Key → Value → Int64) (c : Contents) :
    c.blank.cost price = 0 := by
  cases c <;> rfl

/-- What is taken out was held. So where scalars alone are put in, scalars alone are taken out. -/
theorem Scalar.replay {c d : Contents} (h : c.Scalar) {change : Change} {slot : Slot} {v : Value}
    (hreplay : c.replay (change, slot, v) = some d)
    (hadds : change = .added → v.isScalar = true) : v.isScalar = true ∧ d.Scalar := by
  cases change with
  | added =>
    have hperm := (replay_perm hreplay).1 rfl
    refine ⟨hadds rfl, fun p hin => ?_⟩
    rcases List.mem_cons.mp (hperm.mem_iff.mp hin) with rfl | hin
    · exact hadds rfl
    · exact h p hin
  | removed =>
    have hperm := (replay_perm hreplay).2 rfl
    constructor
    · exact h (slot.key?, v) (hperm.mem_iff.mpr List.mem_cons_self)
    · exact fun p hin => h p (hperm.mem_iff.mpr (List.mem_cons_of_mem _ hin))

theorem Scalar.replayAll {c d : Contents} (h : c.Scalar) {changes : List (Change × Slot × Value)}
    (hreplay : c.replayAll changes = some d) (hadds : AddsScalars changes) :
    (∀ change ∈ changes, change.2.2.isScalar = true) ∧ d.Scalar := by
  induction changes generalizing c with
  | nil =>
    obtain rfl := Option.some.inj hreplay
    exact ⟨fun _ hin => absurd hin List.not_mem_nil, h⟩
  | cons change rest ih =>
    rw [replayAll_cons] at hreplay
    obtain ⟨e, he, hrest⟩ := Option.bind_eq_some_iff.mp hreplay
    obtain ⟨hfirst, hnext⟩ := List.forall_mem_cons.mp hadds
    obtain ⟨hv, hscalar⟩ := h.replay he hfirst
    obtain ⟨hvs, hd⟩ := ih hscalar hrest hnext
    exact ⟨List.forall_mem_cons.mpr ⟨hv, hvs⟩, hd⟩

end Contents

/-! ## Memory -/

namespace Store

variable {loose : Nat → Prop} {s t : Store} {price : Option Key → Value → Int64}

theorem memory_post {target : Nat} {c : Container} (hc : s.containers[target]? = some c)
    {a : Account} (ha : s.accounts[c.account]? = some a) (hprices : a.tariff.Prices price)
    (change : Change) (slot : Slot) {v : Value} (hv : v.isScalar = true) :
    (s.post target change slot v).containers[target]? =
      some { c with
        memory := c.memory + Int64.ofInt (change.signed (price slot.key? v).toInt) } := by
  have hsize := s.sizeOf_eq_ownSize (Value.handle?_of_isScalar hv)
  have hprice := hprices a.journal ⟨change, c.id, slot, v⟩ hv
  simp only [post, hc, ha, Array.getElem?_modify, if_pos, Option.map_some, hsize, hprice]
  cases change with
  | added => simp [Account.Change.apply, Change.signed]
  | removed => simp [Account.Change.apply, Change.signed, Int64.sub_eq_add_neg]

/-- Reports of scalars move the memory by what they cost. -/
theorem memory_posts {target : Nat} {c : Container} (hc : s.containers[target]? = some c)
    {a : Account} (ha : s.accounts[c.account]? = some a) (hprices : a.tariff.Prices price)
    {changes : List (Change × Slot × Value)}
    (hscalar : ∀ change ∈ changes, change.2.2.isScalar = true) :
    (changes.foldl (fun s (change, slot, value) => s.post target change slot value)
        s).containers[target]? =
      some { c with
        memory := c.memory +
          Int64.ofInt (Contents.weighAll (fun k v => (price k v).toInt) changes) } := by
  induction changes generalizing s c a with
  | nil => simp [hc, Contents.weighAll]
  | cons head rest ih =>
    obtain ⟨change, slot, v⟩ := head
    obtain ⟨hv, hrest⟩ := List.forall_mem_cons.mp hscalar
    have hnext := memory_post hc ha hprices change slot hv
    obtain ⟨b, hb, htariff⟩ : ∃ b, (s.post target change slot v).accounts[c.account]? = some b ∧
        b.tariff = a.tariff := by
      have hterms := terms_post s target change slot v c.account
      simp only [terms, ha, Option.map_some] at hterms
      obtain ⟨b, hb, heq⟩ := Option.map_eq_some_iff.mp hterms
      exact ⟨b, hb, congrArg Prod.fst heq⟩
    rw [List.foldl_cons, ih hnext hb (htariff ▸ hprices) hrest]
    simp only [Contents.weighAll, List.map_cons, List.sum_cons, Int64.ofInt_add, Int64.add_assoc]

theorem Step.tariff_eq {R : Realm} (h : Step R s t) {i : Nat} {a : Account}
    (ha : t.accounts[i]? = some a) : ∃ b, s.accounts[i]? = some b ∧ b.tariff = a.tariff := by
  have hterms := h.terms_eq i
  simp only [terms, ha, Option.map_some] at hterms
  obtain ⟨b, hb, heq⟩ := Option.map_eq_some_iff.mp hterms.symm
  exact ⟨b, hb, congrArg Prod.fst heq⟩

/-- A container that was never told to hold anything but scalars holds scalars alone, and its memory
is their price. -/
def Priced (price : Option Key → Value → Int64) (s : Store) : Prop :=
  ∀ (n : Nat) (c : Container) (a : Account), s.containers[n]? = some c →
    s.accounts[c.account]? = some a → a.tariff.Prices price →
    AddsScalars (s.changesOf c.account c.id) →
    c.contents.Scalar ∧ c.memory = c.contents.cost price

theorem Priced.tell (h : s.Priced price) {target : Nat} {c : Container}
    (hc : s.containers[target]? = some c) {new : Contents}
    {changes : List (Change × Slot × Value)} (htells : c.contents.Tells changes new)
    (hproper : c.contents.IsCopy c.contents) : (s.commit target new changes).Priced price := by
  intro n d a hd ha hprices hadds
  have hmove : Move (fun _ => False) s (s.commit target new changes) := .tell hc htells
  obtain ⟨b, hb, htariff⟩ := hmove.step.tariff_eq ha
  obtain ⟨d₀, hd₀, hid, hacc, hcontents⟩ := face_of_commit hd
  rw [changesOf_commit hc, addsScalars_append] at hadds
  rw [hid, hacc] at hadds
  rw [hacc] at hb
  rw [← htariff] at hprices
  obtain ⟨hscalar, hmemory⟩ := h n d₀ b hd₀ hb hprices hadds.1
  by_cases htarget : target = n
  · subst htarget
    obtain rfl : c = d₀ := Option.some.inj (hc.symm.trans hd₀)
    have hsize := (Array.getElem?_eq_some_iff.mp hb).1
    have hchanges : AddsScalars changes := by simpa [hsize] using hadds.2
    obtain ⟨copy, hreplay, hcopy⟩ := htells.copied c.contents hproper
    obtain ⟨hvalues, hcopied⟩ := hscalar.replayAll hreplay hchanges
    have hposts := memory_posts (s := { s with containers := _ }) (found_renewed hc new) hb hprices
      hvalues
    obtain rfl := Option.some.inj (hd.symm.trans hposts)
    refine ⟨hcopied.of_perm hcopy.holdings_perm, ?_⟩
    rw [Contents.cost, htells.weigh_eq hproper, Int64.ofInt_add]
    exact congrArg (· + _) hmemory
  · rw [getElem?_commit_of_ne htarget] at hd
    obtain rfl : d₀ = d := Option.some.inj (hd₀.symm.trans hd)
    exact ⟨hscalar, hmemory⟩

theorem Priced.allocate (h : s.Priced price) (account : Nat) {contents : Contents}
    (empty : contents = contents.blank) : (s.allocate account contents).2.Priced price := by
  intro n d a hd ha hprices hadds
  have hmove : Move (fun _ => False) s (s.allocate account contents).2 := .allocate account empty
  obtain ⟨b, hb, htariff⟩ := hmove.step.tariff_eq ha
  rw [changesOf_allocate] at hadds
  simp only [Store.allocate, Array.getElem?_push] at hd
  split at hd
  · obtain rfl := Option.some.inj hd
    rw [empty]
    exact ⟨contents.blank_scalar, (contents.blank_cost price).symm⟩
  · exact h n d b hd hb (htariff ▸ hprices) hadds

theorem Priced.readOnly (h : s.Priced price) (handle : Handle) :
    (s.readOnly handle).2.Priced price := by
  intro n d a hd ha hprices hadds
  have hmove : Move (fun _ => False) s (s.readOnly handle).2 := .readOnly handle
  obtain ⟨b, hb, htariff⟩ := hmove.step.tariff_eq ha
  rw [changesOf_readOnly] at hadds
  rw [readOnly_containers] at hd
  exact h n d b hd hb (htariff ▸ hprices) hadds

/-- The order of the elements costs nothing. -/
theorem Priced.reorder (h : s.Priced price) {target : Nat} {c : Container}
    (hc : s.containers[target]? = some c) {values sorted : List Value}
    (hlist : c.contents = .items values) (hperm : values.Perm sorted) :
    (s.commit target (.items sorted) []).Priced price := by
  intro n d a hd ha hprices hadds
  have hholdings : c.contents.holdings.Perm (Contents.items sorted).holdings := by
    rw [hlist]
    exact hperm.map _
  rw [commit, List.foldl_nil, Array.getElem?_modify] at hd
  split at hd
  · next htarget =>
    subst htarget
    rw [hc] at hd
    obtain rfl := Option.some.inj hd
    obtain ⟨hscalar, hmemory⟩ := h _ c a hc ha hprices hadds
    refine ⟨hscalar.of_perm hholdings, hmemory.trans ?_⟩
    rw [Contents.cost, Contents.weigh_of_perm hholdings, ← Contents.cost]
  · exact h n d a hd ha hprices hadds

theorem Move.priced (hmove : Move loose s t) (h : s.Priced price)
    (hproper : ∀ (n : Nat) (c : Container), s.containers[n]? = some c →
      c.contents.IsCopy c.contents) : t.Priced price := by
  cases hmove with
  | tell found tells => exact h.tell found tells (hproper _ _ found)
  | reorder _ found list perm => exact h.reorder found list perm
  | allocate account empty => exact h.allocate account empty
  | readOnly handle => exact h.readOnly handle

theorem Fresh.priced (h : s.Fresh) : s.Priced price := by
  intro n c a hc
  rw [h.containers] at hc
  simp at hc

/-- Contents stay proper along the way, so that what is told of them can be replayed. -/
theorem Moves.priced (hmoves : Moves loose s t) (hs : s.Fresh) : t.Priced price := by
  have hboth := hmoves.keep (P := fun u => u.Weighed (fun _ _ => 0) ∧ u.Priced price)
    (fun hmove hu => ⟨hmove.weighed hu.1, hmove.priced hu.2 hu.1.proper⟩)
    ⟨hs.weighed _, hs.priced⟩
  exact hboth.2

/-! ## A container that takes scalars -/

/-- The account of a container prices scalars, and nothing else was ever put into the container. -/
def TakesScalars (price : Option Key → Value → Int64) (s : Store) (n : Nat) : Prop :=
  ∃ c a, s.containers[n]? = some c ∧ s.accounts[c.account]? = some a ∧ a.tariff.Prices price ∧
    AddsScalars (a.changesOf c.id)

variable {n : Nat}

theorem Priced.memory_eq (h : s.Priced price) (hn : s.TakesScalars price n) {c : Container}
    (hc : s.containers[n]? = some c) : c.memory = c.contents.cost price := by
  obtain ⟨d, a, hd, ha, hprices, hadds⟩ := hn
  obtain rfl : c = d := Option.some.inj (hc.symm.trans hd)
  refine (h n c a hc ha hprices ?_).2
  rwa [changesOf, ha]

theorem TakesScalars.commit (hn : s.TakesScalars price n) (new : Contents)
    {changes : List (Change × Slot × Value)} (hadds : AddsScalars changes) :
    (s.commit n new changes).TakesScalars price n := by
  obtain ⟨c, a, hc, ha, hprices, hbefore⟩ := hn
  have hface := s.commit_face n new changes n
  rw [hc] at hface
  obtain ⟨d, hd, hsame⟩ := Option.map_eq_some_iff.mp hface
  simp only [Container.face, Prod.mk.injEq] at hsame
  have hsize := (Array.getElem?_eq_some_iff.mp ha).1
  have hsize' : c.account < (s.commit n new changes).accounts.size := by
    rwa [commit_accounts_size]
  have hb := Array.getElem?_eq_getElem hsize'
  have hstep : Step .everything s (s.commit n new changes) :=
    .commit ⟨n, .owner⟩ new changes trivial rfl fun v _ => Realm.everything_admits v
  obtain ⟨a', ha', htariff⟩ := hstep.tariff_eq hb
  obtain rfl : a = a' := Option.some.inj (ha.symm.trans ha')
  have hchanges := changesOf_commit hc new changes c.account c.id
  rw [if_pos ⟨hsize, rfl, rfl⟩] at hchanges
  simp only [changesOf, hb, ha, Option.map_some, Option.getD_some] at hchanges
  refine ⟨d, _, hd, hsame.2.1.symm ▸ hb, htariff ▸ hprices, ?_⟩
  rw [hsame.1, hchanges]
  exact addsScalars_append.mpr ⟨hbefore, hadds⟩

end Store

/-! ## What operations leave -/

namespace StoreM

/-- The store that an operation leaves has the property, whether it fails or not. -/
def Leaves {α : Type} (P : Store → Prop) (s : Store) (x : StoreM α) : Prop := P (x.run s).2

namespace Leaves

variable {α β : Type} {P : Store → Prop} {s : Store}

theorem pure (hs : P s) (a : α) : Leaves P s (pure a) := hs

theorem commit {h : Handle} {new : Contents} {changes : List (Change × Slot × Value)}
    (hs : P (s.commit h.target new changes)) : Leaves P s (StoreM.commit h new changes) := hs

theorem read {x : StoreM α} {f : α → StoreM β} {a : α} (hx : x.run s = (.ok a, s))
    (hf : Leaves P s (f a)) : Leaves P s (x >>= f) := by
  unfold Leaves
  rw [run_bind, hx]
  exact hf

theorem check {x : Except Fault α} {f : α → StoreM β} (hs : P s)
    (hf : ∀ a, Leaves P s (f a)) : Leaves P s (liftM x >>= f) := by
  cases x with
  | error fault => exact hs
  | ok a => exact hf a

theorem bind {x : StoreM α} {f : α → StoreM β} (hx : Leaves P s x)
    (hf : ∀ a t, P t → Leaves P t (f a)) : Leaves P s (x >>= f) := by
  unfold Leaves at hx ⊢
  rw [run_bind]
  rcases hr : x.run s with ⟨_ | a, t⟩
  · rwa [hr] at hx
  · rw [hr] at hx
    exact hf a t hx

theorem forM {items : List α} {f : α → StoreM PUnit} (hs : P s)
    (hf : ∀ a ∈ items, ∀ t, P t → Leaves P t (f a)) : Leaves P s (items.forM f) := by
  induction items generalizing s with
  | nil => exact hs
  | cons a rest ih =>
    apply bind (hf a List.mem_cons_self s hs)
    intro _ t ht
    exact ih ht fun b hb => hf b (List.mem_cons_of_mem a hb)

end Leaves

/-- What is made of each item without a change of the store is made of all of them so. -/
theorem run_mapM_still {α β : Type} {s : Store} {items : List α} {f : α → StoreM β}
    {Q : β → Prop} (h : ∀ a ∈ items, ∃ b, (f a).run s = (.ok b, s) ∧ Q b) :
    ∃ bs, (items.mapM f).run s = (.ok bs, s) ∧ ∀ b ∈ bs, Q b := by
  induction items with
  | nil => exact ⟨[], rfl, fun _ hb => absurd hb List.not_mem_nil⟩
  | cons a rest ih =>
    obtain ⟨b, hb, hq⟩ := h a List.mem_cons_self
    obtain ⟨bs, hbs, hqs⟩ := ih fun c hc => h c (List.mem_cons_of_mem a hc)
    refine ⟨b :: bs, ?_, List.forall_mem_cons.mpr ⟨hq, hqs⟩⟩
    rw [List.mapM_cons, run_bind, hb]
    dsimp only
    rw [run_bind, hbs]
    rfl

end StoreM

open StoreM (Leaves)

/-! ## Sorting and clearing -/

/-- Operations that put what is there into another order, in place. -/
inductive Reorders (h : Handle) : StoreM Unit → Prop
  | listSort (ascending : Bool) : Reorders h (Lists.sort h ascending)
  | listReverse : Reorders h (Lists.reverse h)
  | mapSortByKey (ascending : Bool) : Reorders h (Maps.sortByKey h ascending)
  | mapSortByValue (ascending : Bool) : Reorders h (Maps.sortByValue h ascending)
  | mapReverse : Reorders h (Maps.reverse h)

/-- Operations that empty a container. -/
inductive Clears (h : Handle) : ValueType → StoreM Unit → Prop
  | list : Clears h .list (Lists.clear h)
  | map : Clears h .map (Maps.clear h)
  | set : Clears h .set (Sets.clear h)

section Operations

variable {loose : Nat → Prop} {s : Store} {price : Option Key → Value → Int64} {h : Handle}
  {x : StoreM Unit}

theorem Store.memory_commit_nil (s : Store) (target : Nat) (new : Contents) (l : Handle) :
    (s.commit target new []).memory l = s.memory l := by
  rw [memory, commit, List.foldl_nil, Array.getElem?_modify]
  split
  · simp [memory, Function.comp_def]
  · rfl

theorem Reorders.memory_eq (hx : Reorders h x) (s : Store) (l : Handle) :
    (x.run s).2.memory l = s.memory l := by
  have done (contents : Contents) :
      Leaves (fun t => t.memory l = s.memory l) s (StoreM.commit h contents []) :=
    .commit (s.memory_commit_nil h.target contents l)
  change Leaves (fun t => t.memory l = s.memory l) s x
  cases hx with
  | listSort ascending => exact .check rfl fun _ => .read rfl (.check rfl fun _ => done _)
  | listReverse => exact .check rfl fun _ => .read rfl (done _)
  | mapSortByKey ascending => exact .check rfl fun _ => .read rfl (.check rfl fun _ => done _)
  | mapSortByValue ascending => exact .check rfl fun _ => .read rfl (.check rfl fun _ => done _)
  | mapReverse => exact .check rfl fun _ => .read rfl (done _)

theorem Clears.run {kind : ValueType} (hx : Clears h kind x) (ho : h.view = .owner) (s : Store) :
    ∃ (contents : Contents) (changes : List (Change × Slot × Value)),
      x.run s = (.ok (), s.commit h.target contents.blank changes) ∧ AddsScalars changes := by
  have checked (operation : String) (f : Unit → StoreM Unit) :
      (liftM (h.checkOwner operation) >>= f).run s = (f ()).run s := by
    simp only [Handle.checkOwner, Handle.isReadOnly, ho]
    rfl
  cases hx with
  | list =>
    refine ⟨.items [], _, checked "clear" _, ?_⟩
    exact addsScalars_removed _ (fun p : Value × Nat => .index p.2) (·.1)
  | map =>
    refine ⟨.entries [], _, checked "clear" _, ?_⟩
    exact addsScalars_removed _ (fun p : Key × Value => .key p.1) (·.2)
  | set =>
    refine ⟨.elements [], _, checked "clear" _, ?_⟩
    exact addsScalars_removed _ (fun _ => .element) Key.toValue

theorem Clears.call {kind : ValueType} (hx : Clears h kind x) (hfits : s.Fits kind h) :
    Call loose s x := by
  cases hx with
  | list => exact .list hfits .clear
  | map => exact .map hfits .clear
  | set => exact .set hfits .clear

end Operations

/-! ## Inverting -/

namespace Entries

/-- No two keys share a value. -/
def Invertible (pairs : List (Key × Value)) : Prop :=
  pairs.Pairwise fun p q => Key.ofValue p.2 ≠ Key.ofValue q.2

instance (pairs : List (Key × Value)) : Decidable (Invertible pairs) :=
  inferInstanceAs (Decidable (pairs.Pairwise _))

theorem addToGroup_of_new {group : Key} {member : Value} {groups : List (Key × List Value)}
    (h : ∀ g ∈ groups, g.1 ≠ group) :
    addToGroup group member groups = groups ++ [(group, [member])] := by
  induction groups with
  | nil => rfl
  | cons g rest ih =>
    obtain ⟨hg, hrest⟩ := List.forall_mem_cons.mp h
    obtain ⟨k, members⟩ := g
    simp only [addToGroup, if_neg hg, ih hrest, List.cons_append]

/-- Each value is in a group of its own, with the one key that holds it. -/
theorem inverseGroups_single {pairs : List (Key × Value)} (hpairs : Invertible pairs)
    {groups : List (Key × List Value)} (h : inverseGroups pairs = .ok groups) :
    ∀ g ∈ groups, ∃ k : Key, g.2 = [k.toValue] := by
  suffices ∀ start : List (Key × List Value), (∀ g ∈ start, ∃ k : Key, g.2 = [k.toValue]) →
      (∀ g ∈ start, ∀ p ∈ pairs, Key.ofValue p.2 ≠ .ok g.1) →
      pairs.foldlM (fun groups (p : Key × Value) =>
        return addToGroup (← Key.ofValue p.2) p.1.toValue groups) start = .ok groups →
      ∀ g ∈ groups, ∃ k : Key, g.2 = [k.toValue] from
    this [] (fun _ hg => absurd hg List.not_mem_nil) (fun _ hg => absurd hg List.not_mem_nil) h
  clear h
  induction pairs with
  | nil => exact fun start hs _ he => Except.ok.inj he ▸ hs
  | cons p rest ih =>
    intro start hs hnew he
    obtain ⟨hp, hrest⟩ := List.pairwise_cons.mp hpairs
    rw [List.foldlM_cons] at he
    rcases hk : Key.ofValue p.2 with fault | group
    · rw [hk] at he
      cases he
    · rw [hk] at he
      have hgroup : ∀ g ∈ start, g.1 ≠ group := by
        rintro g hg rfl
        exact hnew g hg p List.mem_cons_self hk
      have hnext : pure (addToGroup group p.1.toValue start) =
          (.ok (start ++ [(group, [p.1.toValue])]) : Except Fault _) :=
        congrArg _ (addToGroup_of_new hgroup)
      refine ih hrest _ ?_ ?_ ((congrArg (· >>= _) hnext).symm.trans he)
      · exact List.forall_mem_append.mpr ⟨hs, List.forall_mem_singleton.mpr ⟨p.1, rfl⟩⟩
      · intro g hg q hq
        rcases List.mem_append.mp hg with hg | hg
        · exact hnew g hg q (List.mem_cons_of_mem p hq)
        · rw [List.mem_singleton.mp hg]
          exact hk ▸ (hp q hq).symm

end Entries

namespace Maps

variable {s : Store} {price : Option Key → Value → Int64} {m : Handle}

theorem inverted_run (h : Entries.Invertible (s.entries m)) :
    (∃ fault, (inverted m).run s = (.error fault, s)) ∨
      ∃ pairs, (inverted m).run s = (.ok pairs, s) ∧ ∀ p ∈ pairs, p.2.isScalar = true := by
  obtain ⟨f, hrun, hf⟩ : ∃ f : Key × List Value → StoreM (Key × Value),
      (inverted m).run s = ((liftM (Entries.inverseGroups (s.entries m)) : StoreM _) >>=
        fun groups => groups.mapM f).run s ∧
      ∀ k v, f (k, [v]) = pure (k, v) := ⟨_, rfl, fun _ _ => rfl⟩
  rw [hrun]
  rcases hg : Entries.inverseGroups (s.entries m) with fault | groups
  · exact .inl ⟨fault, rfl⟩
  · right
    apply StoreM.run_mapM_still
    intro g hin
    obtain ⟨k, hk⟩ := Entries.inverseGroups_single h hg g hin
    refine ⟨(g.1, k.toValue), ?_, by cases k <;> rfl⟩
    rw [← Prod.eta g, hk, hf]
    rfl

theorem store_takesScalars (hs : s.TakesScalars price m.target) (k : Key) {v : Value}
    (hv : v.isScalar = true) :
    Leaves (·.TakesScalars price m.target) s (store m k v) := by
  have hgone := addsScalars_removed ((s.entries m).lookup k).toList (fun _ => .key k) id
  unfold store
  refine .read rfl ?_
  dsimp only
  split
  · exact .bind (.commit (hs.commit _ hgone)) fun _ _ ht => .pure ht _
  · have hadded : AddsScalars [(.added, .key k, v)] := List.forall_mem_singleton.mpr fun _ => hv
    refine .bind (.commit (hs.commit _ (addsScalars_append.mpr ⟨hgone, hadded⟩))) fun _ _ ht => ?_
    exact .pure ht _

theorem storeAll_takesScalars (hs : s.TakesScalars price m.target) {pairs : List (Key × Value)}
    (hpairs : ∀ p ∈ pairs, p.2.isScalar = true) :
    Leaves (·.TakesScalars price m.target) s (storeAll m pairs) := by
  unfold storeAll
  apply Leaves.forM hs
  intro p hp t ht
  exact .bind (store_takesScalars ht p.1 (hpairs p hp)) fun _ _ hu => .pure hu _

theorem clear_takesScalars (hs : s.TakesScalars price m.target) :
    Leaves (·.TakesScalars price m.target) s (clear m) := by
  unfold clear
  refine .check hs fun _ => .read rfl (.commit (hs.commit _ ?_))
  exact addsScalars_removed _ (fun p : Key × Value => .key p.1) (·.2)

/-- The keys are values then, and no list is stored. -/
theorem invert_takesScalars (hs : s.TakesScalars price m.target)
    (h : Entries.Invertible (s.entries m)) :
    Leaves (·.TakesScalars price m.target) s (invert m) := by
  unfold invert
  refine .check hs fun _ => ?_
  rcases inverted_run h with ⟨fault, hrun⟩ | ⟨pairs, hrun, hpairs⟩
  · unfold Leaves
    rw [run_bind, hrun]
    exact hs
  · refine .read hrun ?_
    exact .bind (clear_takesScalars hs) fun _ _ ht => storeAll_takesScalars ht hpairs

end Maps

/-! ## Exact memory -/

theorem Session.memory_eq {loose : Nat → Prop} {start s : Store} (hstart : start.Fresh)
    (h : Session loose start s) {price : Option Key → Value → Int64} {n : Nat}
    (hn : s.TakesScalars price n) {c : Container} (hc : s.containers[n]? = some c) :
    c.memory = c.contents.cost price :=
  (h.moves.priced hstart).memory_eq hn hc

/-- The memory of a container into which nothing but scalars was ever put is the price of what it
holds: by size, that of the keys and the values. So it does not depend on the history, reordering
does not change it, nothing is left of it once the container is empty, and a map whose keys share no
value can be inverted. -/
theorem memory_of_session {loose : Nat → Prop} {start s : Store} (hstart : start.Fresh)
    (h : Session loose start s) {price : Option Key → Value → Int64} {n : Nat}
    (hn : s.TakesScalars price n) {c : Container} (hc : s.containers[n]? = some c) :
    c.memory = c.contents.cost price ∧
      (∀ metered, s.terms c.account = some (.bySize, metered) →
        c.memory =
          Int64.ofInt (c.contents.weigh fun k v => min (ownCost k v) Int64.maxValue.toInt)) ∧
      (∀ {loose' : Nat → Prop} {start' s' : Store} {n' : Nat} {d : Container}, start'.Fresh →
        Session loose' start' s' → s'.TakesScalars price n' → s'.containers[n']? = some d →
        d.contents.holdings.Perm c.contents.holdings → d.memory = c.memory) ∧
      (∀ {l : Handle} {x : StoreM Unit}, Reorders l x →
        (x.run s).2.memory ⟨n, .owner⟩ = c.memory) ∧
      (∀ {l : Handle} {kind : ValueType} {x : StoreM Unit}, l.target = n → l.view = .owner →
        s.Fits kind l → Clears l kind x → (x.run s).1 = .ok () ∧ (x.run s).2.memory l = 0) ∧
      ∀ {m : Handle} {d : Container}, m.target = n → s.Fits .map m →
        Entries.Invertible (s.entries m) → ((Maps.invert m).run s).2.containers[n]? = some d →
        ((Maps.invert m).run s).2.TakesScalars price n ∧ d.memory = d.contents.cost price := by
  have hmemory := h.memory_eq hstart hn hc
  refine ⟨hmemory, ?_, ?_, ?_, ?_, ?_⟩
  · intro metered hterms
    obtain ⟨d, a, hd, ha, -, hadds⟩ := hn
    obtain rfl : c = d := Option.some.inj (hc.symm.trans hd)
    simp only [Store.terms, ha, Option.map_some, Option.some.injEq, Prod.mk.injEq] at hterms
    have hsize := h.memory_eq hstart ⟨c, a, hc, ha, hterms.1 ▸ Tariff.bySize_prices, hadds⟩ hc
    simpa only [Contents.cost, sizeCost_toInt] using hsize
  · intro loose' start' s' n' d hstart' h' hn' hd hperm
    rw [hmemory, h'.memory_eq hstart' hn' hd, Contents.cost, Contents.weigh_of_perm hperm]
    rfl
  · intro l x hx
    rw [hx.memory_eq s ⟨n, .owner⟩, Store.memory, hc]
    rfl
  · rintro l kind x rfl howner hfits hx
    obtain ⟨contents, changes, hrun, hadds⟩ := hx.run howner s
    have hafter : Session loose start (s.commit l.target contents.blank changes) := by
      have hcall := Session.call h (hx.call hfits)
      rwa [hrun] at hcall
    have hleft := hn.commit contents.blank hadds
    obtain ⟨d, a, hd, -⟩ := hleft
    have hblank : d.contents = contents.blank := by
      obtain ⟨_, _, _, _, hcontents⟩ := Store.face_of_commit hd
      rwa [if_pos rfl] at hcontents
    have hzero := hafter.memory_eq hstart (hn.commit contents.blank hadds) hd
    rw [hblank, Contents.blank_cost] at hzero
    rw [hrun]
    exact ⟨rfl, by rw [Store.memory, hd, Option.map_some, Option.getD_some, hzero]⟩
  · rintro m d rfl hfits hinvertible hd
    have hleft := Maps.invert_takesScalars hn hinvertible
    exact ⟨hleft, Session.memory_eq hstart (.call h (.map hfits .invert)) hleft hd⟩

/-- A null pays for its key, and a call through a view costs nothing. The map can be inverted. -/
theorem memory_of_session_inverted :
    ∃ (s : Store) (c d : Container), Session (fun _ => False) .metered s ∧
      s.TakesScalars sizeCost 0 ∧ s.containers[0]? = some c ∧
      c.contents = .entries [(.str "ab", .int 1), (.bool true, .null)] ∧
      c.memory = c.contents.cost sizeCost ∧ c.memory = 11 ∧
      ((Maps.clear ⟨0, .owner⟩).run s).2.memory ⟨0, .owner⟩ = 0 ∧
      ((Maps.invert ⟨0, .owner⟩).run s).2.containers[0]? = some d ∧
      d.contents = .entries [(.int 1, .str "ab"), (.null, .bool true)] ∧
      d.memory = d.contents.cost sizeCost := by
  let made := ((Maps.create 0 [(.str "ab", .int 1)]).run .metered).2
  have hmade : Session (fun _ => False) .metered made := .create .start (.map 0 _)
  let kept := ((Maps.insert ⟨0, .owner⟩ (.bool true) .null).run made).2
  have hkept : Session (fun _ => False) .metered kept :=
    .call hmade (.map (m := ⟨0, .owner⟩) (by decide +kernel) (.insert _ _))
  let refused := ((Maps.put ⟨0, .readOnly 7⟩ .null (.int 2)).run kept).2
  have hrefused : Session (fun _ => False) .metered refused :=
    .call hkept (.map (m := ⟨0, .readOnly 7⟩) (by decide +kernel) (.put _ _))
  let c : Container := ⟨1, 0, 11, .entries [(.str "ab", .int 1), (.bool true, .null)]⟩
  let d : Container := ⟨1, 0, 11, .entries [(.int 1, .str "ab"), (.null, .bool true)]⟩
  have hc : refused.containers[0]? = some c := by decide +kernel
  have hd : ((Maps.invert ⟨0, .owner⟩).run refused).2.containers[0]? = some d := by
    decide +kernel
  obtain ⟨a, ha⟩ : ∃ a, refused.accounts[0]? = some a :=
    Option.isSome_iff_exists.mp (by decide +kernel)
  have hterms : refused.terms 0 = some (.bySize, true) := hrefused.moves.terms_eq 0
  have htariff : a.tariff = .bySize := by
    rw [Store.terms, ha] at hterms
    exact congrArg Prod.fst (Option.some.inj hterms)
  have hadds : ∀ a ∈ refused.accounts, AddsScalars (a.changesOf 1) := by decide +kernel
  have htakes : refused.TakesScalars sizeCost 0 :=
    ⟨c, a, hc, ha, htariff ▸ Tariff.bySize_prices, hadds a (Array.mem_of_getElem? ha)⟩
  obtain ⟨hmemory, -, -, -, hclear, hinvert⟩ :=
    memory_of_session Store.metered_fresh hrefused htakes hc
  have hempty := hclear (l := ⟨0, .owner⟩) rfl rfl (by decide +kernel) .map
  have hinverted := hinvert (m := ⟨0, .owner⟩) rfl (by decide +kernel) (by decide +kernel) hd
  exact ⟨refused, c, d, hrefused, htakes, hc, rfl, hmemory, rfl, hempty.2, hd, rfl, hinverted.2⟩

end MeteredScript
