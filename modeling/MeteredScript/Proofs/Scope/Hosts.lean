import Mathlib.Data.List.Induction
import MeteredScript.Proofs.Evaluation.Running
import MeteredScript.Proofs.Faults
import MeteredScript.Proofs.Store.Writing

/-!
# Data of a host

What data under names does is up to the host. The results about it ask for laws that they name: that
it stops no evaluation, that it changes nothing where it refuses a value, or that it is read as it
was written. The entries of a map and a plain list obey them. A list of names and values is enough of
a state for data of any kind, as what was written tells what is read.
-/

namespace MeteredScript

namespace DataContext

variable {σ : Type} {c : DataContext σ}

/-! ## Laws -/

/-- The data fails with no fault by which an evaluation is stopped. -/
def Quiet (c : DataContext σ) : Prop :=
  ∀ (key : String) (v : Value) (s : σ), Ordinary ((c.set key v).run s).1

/-- Where the data itself refuses a value for its type, it changes nothing. -/
def RefusesWhole (c : DataContext σ) : Prop :=
  ∀ (key : String) (v : Value) (s : σ) (expected actual : String),
    ((c.set key v).run s).1 = .error (.typeMismatch expected actual) → ((c.set key v).run s).2 = s

/-- In valid states, what is written is read afterwards, other names are as they were, and a write
that fails changes nothing. -/
structure Faithful (c : DataContext σ) (valid : σ → Prop) : Prop where
  stays : ∀ {key : String} {v : Value} {s t : σ}, valid s → (c.set key v).run s = (.ok (), t) →
    valid t
  reads : ∀ {key : String} {v : Value} {s t : σ}, valid s → (c.set key v).run s = (.ok (), t) →
    c.get? t key = some v ∧ c.contains t key = true
  others : ∀ {key other : String} {v : Value} {s t : σ}, valid s →
    (c.set key v).run s = (.ok (), t) → other ≠ key →
    c.get? t other = c.get? s other ∧ c.contains t other = c.contains s other
  fails : ∀ {key : String} {v : Value} {s t : σ} {f : Fault}, valid s →
    (c.set key v).run s = (.error f, t) → t = s

theorem void_refusesWhole : (void : DataContext σ).RefusesWhole := fun _ _ _ _ _ _ => rfl

/-! ### Maps -/

/-- The entries of a map refuse to be written through a view and in no other case. -/
theorem ofMap_set_error {h : Handle} {key : String} {v : Value} {s : Store} {f : Fault}
    (he : (((ofMap h).set key v).run s).1 = .error f) :
    f = .unsupported "insert" ∧ (((ofMap h).set key v).run s).2 = s := by
  cases ho : h.isReadOnly with
  | true =>
    simp only [ofMap, Maps.insert, Handle.checkOwner, ho, if_true] at he ⊢
    exact ⟨(Except.error.inj he).symm, rfl⟩
  | false =>
    simp only [ofMap, Maps.insert, Handle.checkOwner, ho] at he
    cases he

theorem ofMap_quiet (h : Handle) : (ofMap h).Quiet := by
  intro key v s f hf
  rw [(ofMap_set_error hf).1]
  rfl

theorem ofMap_refusesWhole (h : Handle) : (ofMap h).RefusesWhole :=
  fun _ _ _ _ _ he => (ofMap_set_error he).2

/-- A map that is there is written just as its entries are. -/
theorem ofMap_writes {h : Handle} {key : String} {v : Value} {s t : Store} (hs : s.Fits .map h)
    (hrun : ((ofMap h).set key v).run s = (.ok (), t)) :
    s.Writes h (Entries.put (.str key) v (s.entries h)) t := by
  obtain ⟨target, _ | id⟩ := h
  · obtain ⟨w, u, hinsert, hwrites⟩ := Maps.insert_writes hs rfl (.str key) v
    rw [ofMap, run_bind, hinsert] at hrun
    obtain rfl : u = t := congrArg Prod.snd hrun
    exact hwrites
  · cases hrun

theorem ofMap_faithful (h : Handle) : (ofMap h).Faithful fun s => s.Fits .map h where
  stays hs hrun := (ofMap_writes hs hrun).fits
  reads {key v s t} hs hrun := by
    have hget : (t.entries h).lookup (.str key) = some v := by
      rw [(ofMap_writes hs hrun).entries, Entries.lookup_put_self]
    exact ⟨hget, congrArg Option.isSome hget⟩
  others {key other v s t} hs hrun hother := by
    have hkey : Key.str other ≠ Key.str key := fun he => hother (Key.str.inj he)
    have hget : (t.entries h).lookup (.str other) = (s.entries h).lookup (.str other) := by
      rw [(ofMap_writes hs hrun).entries, Entries.lookup_put_of_ne hkey]
    exact ⟨hget, congrArg Option.isSome hget⟩
  fails _ hrun := by
    have hkept := (ofMap_set_error (congrArg Prod.fst hrun)).2
    rwa [hrun] at hkept

/-! ### Lists -/

theorem ofList_set (key : String) (v : Value) (entries : List (String × Value)) :
    (ofList.set key v).run entries =
      if "ro_".toList.isPrefixOf key.toList then (.error (.unsupported key), entries)
      else (.ok (), Entries.put key v entries) := by
  unfold ofList
  dsimp only
  split <;> rfl

theorem ofList_quiet : ofList.Quiet := by
  intro key v entries
  rw [ofList_set]
  split
  · exact Ordinary.error.mpr rfl
  · exact .ok ()

theorem ofList_faithful : ofList.Faithful fun _ => True := by
  constructor
  case stays => exact fun _ _ => trivial
  case reads =>
    intro key v entries t _ hrun
    rw [ofList_set] at hrun
    split at hrun
    · cases hrun
    · obtain rfl := (Prod.mk.inj hrun).2
      have hlookup := Entries.lookup_put_self key v entries
      exact ⟨hlookup, congrArg Option.isSome hlookup⟩
  case others =>
    intro key other v entries t _ hrun hother
    rw [ofList_set] at hrun
    split at hrun
    · cases hrun
    · obtain rfl := (Prod.mk.inj hrun).2
      have hlookup := Entries.lookup_put_of_ne (v := v) hother entries
      exact ⟨hlookup, congrArg Option.isSome hlookup⟩
  case fails =>
    intro key v entries t f _ hrun
    rw [ofList_set] at hrun
    split at hrun
    · exact (Prod.mk.inj hrun).2.symm
    · cases hrun

/-! ## Writes one after another -/

/-- The state after some writes, failed ones included. -/
def after (c : DataContext σ) (s : σ) (writes : List (String × Value)) : σ :=
  writes.foldl (fun s write => ((c.set write.1 write.2).run s).2) s

theorem after_append (c : DataContext σ) (s : σ) (writes more : List (String × Value)) :
    c.after s (writes ++ more) = c.after (c.after s writes) more := List.foldl_append

open Classical in
/-- The same data, which keeps in place of its state the writes that have changed it. -/
noncomputable def recorded (c : DataContext σ) (start : σ) : DataContext (List (String × Value)) where
  get? kept := c.get? (c.after start kept)
  contains kept := c.contains (c.after start kept)
  set key v := fun kept =>
    let state := c.after start kept
    (((c.set key v).run state).1,
      if ((c.set key v).run state).2 = state then kept else kept ++ [(key, v)])

section Recorded

variable (start : σ)

/-- A write that leaves the state as it was is not kept. -/
theorem recorded_set_of_same {key : String} {v : Value} {kept : List (String × Value)}
    (h : ((c.set key v).run (c.after start kept)).2 = c.after start kept) :
    (((c.recorded start).set key v).run kept).2 = kept := if_pos h

theorem recorded_set (key : String) (v : Value) (kept : List (String × Value)) :
    (((c.recorded start).set key v).run kept).1 = ((c.set key v).run (c.after start kept)).1 ∧
      c.after start (((c.recorded start).set key v).run kept).2 =
        ((c.set key v).run (c.after start kept)).2 := by
  refine ⟨rfl, ?_⟩
  by_cases hsame : ((c.set key v).run (c.after start kept)).2 = c.after start kept
  · rw [c.recorded_set_of_same start hsame, hsame]
  · have hkept : (((c.recorded start).set key v).run kept).2 = kept ++ [(key, v)] := if_neg hsame
    rw [hkept, after_append]
    rfl

theorem recorded_run {key : String} {v : Value} {kept kept' : List (String × Value)}
    {result : Except Fault Unit}
    (h : ((c.recorded start).set key v).run kept = (result, kept')) :
    (c.set key v).run (c.after start kept) = (result, c.after start kept') := by
  obtain ⟨hresult, hstate⟩ := c.recorded_set start key v kept
  rw [h] at hresult hstate
  exact Prod.ext hresult.symm hstate.symm

theorem after_recorded (kept writes : List (String × Value)) :
    c.after start ((c.recorded start).after kept writes) =
      c.after (c.after start kept) writes := by
  induction writes generalizing kept with
  | nil => rfl
  | cons write writes ih =>
    have hstep := (c.recorded_set start write.1 write.2 kept).2
    exact (ih _).trans (congrArg (c.after · writes) hstep)

/-- Data of any kind, over a state of any kind, is data over lists of names and values: whatever is
written, it goes on to answer the same. -/
theorem recorded_answers (writes : List (String × Value)) (key : String) (v : Value) :
    let kept := (c.recorded start).after [] writes
    let state := c.after start writes
    (c.recorded start).get? kept key = c.get? state key ∧
      (c.recorded start).contains kept key = c.contains state key ∧
      (((c.recorded start).set key v).run kept).1 = ((c.set key v).run state).1 := by
  have hstate : c.after start ((c.recorded start).after [] writes) = c.after start writes :=
    c.after_recorded start [] writes
  refine ⟨?_, ?_, ?_⟩
  · exact congrArg (c.get? · key) hstate
  · exact congrArg (c.contains · key) hstate
  · exact congrArg (fun state => ((c.set key v).run state).1) hstate

/-! It obeys the laws that the data obeys. -/

variable {start}

theorem Quiet.recorded (h : c.Quiet) : (c.recorded start).Quiet :=
  fun key v kept => h key v (c.after start kept)

theorem RefusesWhole.recorded (h : c.RefusesWhole) : (c.recorded start).RefusesWhole :=
  fun key v kept expected actual he =>
    c.recorded_set_of_same start (h key v (c.after start kept) expected actual he)

theorem Faithful.recorded {valid : σ → Prop} (h : c.Faithful valid) :
    (c.recorded start).Faithful fun kept => valid (c.after start kept) where
  stays hs hrun := h.stays hs (c.recorded_run start hrun)
  reads hs hrun := h.reads hs (c.recorded_run start hrun)
  others hs hrun hother := h.others hs (c.recorded_run start hrun) hother
  fails {key v kept kept' f} hs hrun := by
    have hsame := h.fails hs (c.recorded_run start hrun)
    have hkept : (((c.recorded start).set key v).run kept).2 = kept :=
      c.recorded_set_of_same start ((congrArg Prod.snd (c.recorded_run start hrun)).trans hsame)
    rwa [hrun] at hkept

end Recorded

end DataContext

/-! ## What is handed out -/

namespace HostData

variable {d : HostData} {v w : Value} {key : String}

theorem set_run {result : Except Fault Unit} {state : List (String × Value)}
    (h : (d.rules.set key v).run d.state = (result, state)) :
    (set key v).run d = (result, { d with state }) := by
  have hresult : ((d.rules.set key v).run d.state).1 = result := congrArg Prod.fst h
  have hstate : ((d.rules.set key v).run d.state).2 = state := congrArg Prod.snd h
  rw [← hresult, ← hstate]
  rfl

/-- The value can be handed out without having been written: it is there, or can come from what is
there. -/
def Stocks (d : HostData) (v : Value) : Prop :=
  ∃ (writes : List (String × Value)) (key : String),
    v ∉ writes.map (·.2) ∧ d.rules.get? (d.rules.after d.state writes) key = some v

theorem Stocks.of_get? (h : d.get? key = some v) : d.Stocks v := ⟨[], key, List.not_mem_nil, h⟩

/-- What is written is all that a write adds. -/
theorem Stocks.of_set (h : ((HostData.set key w).run d).2.Stocks v) : v = w ∨ d.Stocks v := by
  obtain ⟨writes, other, hnew, hget⟩ := h
  by_cases hv : v = w
  · exact .inl hv
  · refine .inr ⟨(key, w) :: writes, other, ?_, hget⟩
    rw [List.map_cons, List.mem_cons, not_or]
    exact ⟨hv, hnew⟩

end HostData

/-- A plain list hands out what is in it. -/
theorem HostData.stocks_ofList {entries : List (String × Value)} {v : Value}
    (h : (⟨.ofList, entries⟩ : HostData).Stocks v) : ∃ p ∈ entries, p.2 = v := by
  obtain ⟨writes, key, hnew, hget⟩ := h
  induction writes generalizing entries with
  | nil => exact ⟨(key, v), mem_of_lookup_eq_some hget, rfl⟩
  | cons write writes ih =>
    rw [List.map_cons, List.mem_cons, not_or] at hnew
    rw [DataContext.after, List.foldl_cons, ← DataContext.after, DataContext.ofList_set] at hget
    split at hget
    · exact ih hnew.2 hget
    · have hput : DataContext.ofList.get? (DataContext.ofList.after
          (Entries.put write.1 write.2 entries) writes) key = some v := hget
      obtain ⟨p, hp, rfl⟩ := ih hnew.2 hput
      rcases Entries.mem_put hp with rfl | hp
      · exact absurd rfl hnew.1
      · exact ⟨p, hp, rfl⟩

/-! ## Data of a machine -/

namespace Machine

variable {m : Machine}

theorem data_setData (m : Machine) (i : Nat) (d : HostData) (j : Nat) :
    (m.setData i d).data j = if i = j ∧ i < m.tables.size then d else m.data j := by
  unfold data setData
  rw [Array.getD_eq_getD_getElem?, Array.getD_eq_getD_getElem?, Array.getElem?_setIfInBounds]
  by_cases hij : i = j
  · subst hij
    by_cases hi : i < m.tables.size
    · simp [hi]
    · simp [hi]
  · simp [hij]

/-- All data of the host obeys a law. -/
def DataObeys (m : Machine) (law : DataContext (List (String × Value)) → Prop) : Prop :=
  ∀ i, law (m.data i).rules

theorem DataObeys.of_tables {law : DataContext (List (String × Value)) → Prop} {m' : Machine}
    (h : m.DataObeys law) (htables : m'.tables = m.tables) : m'.DataObeys law := by
  intro i
  rw [data, htables]
  exact h i

theorem DataObeys.of_no_data {law : DataContext (List (String × Value)) → Prop}
    (hvoid : law .void) (htables : m.tables = #[]) : m.DataObeys law := by
  intro i
  rw [data, htables]
  exact hvoid

/-- Data obeys its laws whatever it keeps. -/
theorem DataObeys.setData {law : DataContext (List (String × Value)) → Prop} (h : m.DataObeys law)
    {i : Nat} {d : HostData} (hd : d.rules = (m.data i).rules) : (m.setData i d).DataObeys law := by
  intro j
  rw [data_setData]
  split
  · rw [hd]
    exact h i
  · exact h j

theorem stocks_setData {i j : Nat} {d : HostData} {v : Value}
    (h : ((m.setData i d).data j).Stocks v) : i = j ∧ d.Stocks v ∨ (m.data j).Stocks v := by
  rw [data_setData] at h
  split at h
  · next hi => exact .inl ⟨hi.1, h⟩
  · exact .inr h

theorem setData_data (m : Machine) (i : Nat) : m.setData i (m.data i) = m := by
  have htables : m.tables.setIfInBounds i (m.data i) = m.tables := by
    refine Array.ext_getElem? fun j => ?_
    rw [Array.getElem?_setIfInBounds, data, Array.getD_eq_getD_getElem?]
    split
    · next hij =>
      subst hij
      split
      · next hi => rw [Array.getElem?_eq_getElem hi, Option.getD_some]
      · next hi => rw [Array.getElem?_eq_none (Nat.le_of_not_lt hi)]
    · rfl
  rw [setData, htables]

end Machine

/-! ## Writing the names of a host -/

namespace HostSource

variable {m : Machine} {key expected actual : String} {v : Value}

/-- Entries of a map are not written where the map is seen through a view, and in no other case does
writing them fail. -/
theorem set_map_error {h : Handle} {f : Fault}
    (he : (((map h).set key v).run m).1 = .error f) :
    f = .unsupported "insert" ∧ (((map h).set key v).run m).2 = m := by
  have hset : f = .unsupported "insert" ∧
      (((DataContext.ofMap h).set key v).run m.store).2 = m.store := DataContext.ofMap_set_error he
  refine ⟨hset.1, ?_⟩
  change { m with store := (((DataContext.ofMap h).set key v).run m.store).2 } = m
  rw [hset.2]

theorem set_table (i : Nat) (key : String) (v : Value) (m : Machine) :
    ((table i).set key v).run m =
      (((HostData.set key v).run (m.data i)).1,
        m.setData i ((HostData.set key v).run (m.data i)).2) := rfl

/-- No check of a type is made of what is written. A mismatch there is one that data of the host's
own has raised itself. -/
theorem set_mismatch {source : HostSource}
    (he : ((source.set key v).run m).1 = .error (.typeMismatch expected actual)) :
    ∃ i, source = .table i ∧
      ((HostData.set key v).run (m.data i)).1 = .error (.typeMismatch expected actual) := by
  cases source with
  | map h =>
    have hfault := (set_map_error he).1
    cases hfault
  | table i => exact ⟨i, rfl, he⟩

/-- Such a mismatch changes nothing if data of the host's own refuses values that way. -/
theorem set_refused (hlaw : m.DataObeys DataContext.RefusesWhole) {source : HostSource}
    (he : ((source.set key v).run m).1 = .error (.typeMismatch expected actual)) :
    ((source.set key v).run m).2 = m := by
  obtain ⟨i, rfl, hset⟩ := set_mismatch he
  have hstate := hlaw i key v (m.data i).state expected actual hset
  have hdata : ((HostData.set key v).run (m.data i)).2 = m.data i :=
    congrArg (fun state => { m.data i with state }) hstate
  rw [set_table, hdata, Machine.setData_data]

end HostSource

end MeteredScript
