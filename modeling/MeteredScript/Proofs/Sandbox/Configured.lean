import Mathlib.Data.List.Induction
import Mathlib.Data.Option.Basic
import MeteredScript.Proofs.Evaluation.Running
import MeteredScript.Proofs.Sandbox.History

/-!
# What a configuration was built from

A configuration is given texts: short names with the types that they are imported for, and native
types with their methods. It keeps interned paths. Whatever else is in the table, a short name leads
to the path of its type, and the types that are registered are those of the texts.
-/

namespace MeteredScript

namespace ClassPath

variable {t : Interner} {path : ClassPath}

theorem Spells.dotted (ht : t.Sound) {name : String} (h : Spells t path (words name)) :
    path.dotted t = name := by
  rw [ClassPath.dotted, h.lookup ht, intercalate_words]

/-- A path spells one name only. -/
theorem Spells.name_eq (ht : t.Sound) {name other : String} (h : Spells t path (words name))
    (k : Spells t path (words other)) : name = other := by
  rw [← h.dotted ht, k.dotted ht]

/-- A name is spelled by one path only. -/
theorem Spells.path_eq {parts : List String} {other : ClassPath} (h : Spells t path parts)
    (k : Spells t other parts) : path = other := by
  have hsegments : path.segments.map some = other.segments.map some := by rw [← h.names, k.names]
  have hinj := List.map_injective_iff.mpr (Option.some_injective Name)
  obtain ⟨segments⟩ := path
  obtain ⟨others⟩ := other
  exact congrArg ClassPath.mk (hinj hsegments)

end ClassPath

open ClassPath (Spells words)

/-- A well-formed name that is spelled by a path. -/
structure ClassPath.Written (t : Interner) (path : ClassPath) (name : String) : Prop where
  wellFormed : "" ∉ words name
  spells : Spells t path (words name)

theorem ClassPath.Written.grow {t u : Interner} (hg : t.Grows u) (ht : t.Sound) (hu : u.Sound)
    {path : ClassPath} {name : String} (h : Written t path name) : Written u path name :=
  ⟨h.wellFormed, h.spells.grow hg ht hu⟩

theorem Sandbox.written_of_intern {t u : Interner} (ht : t.Sound) {name : String}
    {path : ClassPath} (h : (ClassPath.intern name).run t = (some path, u)) :
    u.Sound ∧ t.Grows u ∧ ClassPath.Written u path name := by
  obtain ⟨hs, hg, hn⟩ := run_intern ht name
  rw [h] at hs hg hn
  split at hn
  · cases hn
  · next hw =>
    obtain ⟨other, hp, hsp⟩ := hn
    obtain rfl := Option.some.inj hp
    exact ⟨hs, hg, hw, hsp⟩

namespace Configuration

/-! ## Imports -/

/-- Short names are bound as texts bind them: all of these are in the table, and each leads to the
path of its type. -/
structure Imports (t : Interner) (bound : List (Name × ClassPath))
    (imports : List (String × String)) : Prop where
  known : ∀ p ∈ bound, t.Knows p.1
  interned : ∀ p ∈ imports, ∃ n, t.get? p.1 = some n
  leads : ∀ n, t.Knows n → bound.lookup n = none ∧ imports.lookup (t.lookup n) = none ∨
    ∃ path full, bound.lookup n = some path ∧ imports.lookup (t.lookup n) = some full ∧
      ClassPath.Written t path full

theorem Imports.nil (t : Interner) : Imports t [] [] :=
  ⟨by simp, by simp, fun _ _ => .inl ⟨rfl, rfl⟩⟩

theorem Imports.grow {t u : Interner} (hg : t.Grows u) (ht : t.Sound) (hu : u.Sound)
    {bound : List (Name × ClassPath)} {imports : List (String × String)}
    (h : Imports t bound imports) : Imports u bound imports := by
  constructor
  case known =>
    intro p hp
    exact hg.knows (h.known p hp)
  case interned =>
    intro p hp
    obtain ⟨n, hn⟩ := h.interned p hp
    exact ⟨n, hg.get? hu ht hn⟩
  case leads =>
    intro n hn
    by_cases hk : t.Knows n
    · rw [hg.lookup hk]
      rcases h.leads n hk with hnone | ⟨path, full, hb, hi, hw⟩
      · exact .inl hnone
      · exact .inr ⟨path, full, hb, hi, hw.grow hg ht hu⟩
    · -- a name that is new to the table is bound neither way
      have hbound : bound.lookup n = none := by
        by_contra hne
        obtain ⟨path, hp⟩ := Option.ne_none_iff_exists'.mp hne
        exact hk (h.known _ (mem_of_lookup_eq_some hp))
      have himports : imports.lookup (u.lookup n) = none := by
        by_contra hne
        obtain ⟨name, hp⟩ := Option.ne_none_iff_exists'.mp hne
        obtain ⟨m, hm⟩ := h.interned _ (mem_of_lookup_eq_some hp)
        have hfound : u.get? (u.lookup n) = some m := hg.get? hu ht hm
        have hsame : m = n := Option.some.inj (hfound.symm.trans (hu.get?_lookup hn))
        exact hk (hsame ▸ (ht.get?_eq_some_iff.mp hm).1)
      exact .inl ⟨hbound, himports⟩

/-- A short name that is bound again keeps its type, and a new one gets its own. -/
theorem Imports.add {t : Interner} (ht : t.Sound) {bound bound' : List (Name × ClassPath)}
    {imports : List (String × String)} (h : Imports t bound imports) {short name : String}
    {n : Name} (hn : t.get? short = some n) {path : ClassPath}
    (hw : ClassPath.Written t path name)
    (hb : bound.lookup n = some path ∧ bound' = bound ∨
      bound.lookup n = none ∧ bound' = (n, path) :: bound) :
    Imports t bound' (imports ++ [(short, name)]) := by
  obtain ⟨hknown, hlookup⟩ := ht.get?_eq_some_iff.mp hn
  have hfirst := h.leads n hknown
  rw [hlookup] at hfirst
  refine ⟨?_, ?_, fun m hm => ?_⟩
  · rcases hb with ⟨-, rfl⟩ | ⟨-, rfl⟩
    · exact h.known
    · exact List.forall_mem_cons.mpr ⟨hknown, h.known⟩
  · exact List.forall_mem_append.mpr ⟨h.interned, List.forall_mem_singleton.mpr ⟨n, hn⟩⟩
  rw [List.lookup_append]
  by_cases hmn : m = n
  · subst hmn
    rw [hlookup]
    right
    rcases hb with ⟨hl, rfl⟩ | ⟨hl, rfl⟩
    · rcases hfirst with ⟨hnone, -⟩ | ⟨path', full, hb', hi, hw'⟩
      · cases hl.symm.trans hnone
      · exact ⟨path', full, hb', by rw [hi, Option.some_or], hw'⟩
    · rcases hfirst with ⟨-, hi⟩ | ⟨path', full, hb', -⟩
      · refine ⟨path, name, List.lookup_cons_self, ?_, hw⟩
        rw [hi, Option.none_or, List.lookup_cons_self]
      · cases hl.symm.trans hb'
  · have htext : ¬ t.lookup m = short := by
      intro he
      exact hmn (ht.lookup_inj hm hknown (he.trans hlookup.symm))
    have hlast : [(short, name)].lookup (t.lookup m) = none := by simp [htext]
    have hrest : bound'.lookup m = bound.lookup m := by
      rcases hb with ⟨-, rfl⟩ | ⟨-, rfl⟩
      · rfl
      · rw [List.lookup_cons, beq_false_of_ne hmn]
    rw [hlast, hrest, Option.or_none]
    exact h.leads m hm

theorem run_onNames {α : Type} (x : StateM Interner α) (t : Interner) :
    (onNames x).run t = (.ok (x.run t).1, (x.run t).2) := rfl

theorem run_readPath (name : String) (t : Interner) :
    (readPath name).run t = (match ((ClassPath.intern name).run t).1 with
      | some path => .ok path
      | none => .error (.sandbox (.invalidName name)), ((ClassPath.intern name).run t).2) := by
  rw [readPath, run_bind, run_onNames]
  dsimp only
  cases ((ClassPath.intern name).run t).1 <;> rfl

/-- A name that is read as a path is well-formed, and the path spells it. -/
theorem readPath_ok {t u : Interner} (ht : t.Sound) {name : String} {path : ClassPath}
    (h : (readPath name).run t = (.ok path, u)) :
    u.Sound ∧ t.Grows u ∧ ClassPath.Written u path name := by
  apply Sandbox.written_of_intern ht
  rw [run_readPath] at h
  obtain ⟨hpath, rfl⟩ := Prod.mk.inj h
  rcases hrun : (ClassPath.intern name).run t with ⟨_ | other, v⟩
  · rw [hrun] at hpath
    cases hpath
  · rw [hrun] at hpath
    rw [Except.ok.inj hpath]

/-- One import more was bound. -/
theorem bindImports_concat {imports : List (String × String)} {short name : String}
    {bound : List (Name × ClassPath)} {t u : Interner}
    (h : (bindImports (imports ++ [(short, name)])).run t = (.ok bound, u)) :
    ∃ before t₁ path t₂, (bindImports imports).run t = (.ok before, t₁) ∧
      (readPath name).run t₁ = (.ok path, t₂) ∧ u = (Interner.intern short t₂).2 ∧
      (before.lookup (Interner.intern short t₂).1 = some path ∧ bound = before ∨
        before.lookup (Interner.intern short t₂).1 = none ∧
          bound = ((Interner.intern short t₂).1, path) :: before) := by
  unfold bindImports at h
  rw [List.foldlM_append] at h
  obtain ⟨before, t₁, hbefore, hlast⟩ := run_bind_ok h
  rw [List.foldlM_cons] at hlast
  obtain ⟨after, t₃, hone, hnil⟩ := run_bind_ok hlast
  obtain ⟨path, t₂, hpath, hbind⟩ := run_bind_ok hone
  refine ⟨before, t₁, path, t₂, hbefore, hpath, ?_⟩
  have hend : (Except.ok after, t₃) = (Except.ok bound, u) := hnil
  rw [hend, run_bind, run_onNames] at hbind
  dsimp only at hbind
  split at hbind
  · next first hfirst =>
    split at hbind
    · next hsame =>
      obtain ⟨hbound, hu⟩ := Prod.mk.inj hbind
      exact ⟨hu.symm, .inl ⟨hsame ▸ hfirst, (Except.ok.inj hbound).symm⟩⟩
    · cases (Prod.mk.inj hbind).1
  · next hnone =>
    obtain ⟨hbound, hu⟩ := Prod.mk.inj hbind
    exact ⟨hu.symm, .inr ⟨hnone, (Except.ok.inj hbound).symm⟩⟩

theorem imports_of_bindImports {t u : Interner} (ht : t.Sound) {imports : List (String × String)}
    {bound : List (Name × ClassPath)} (h : (bindImports imports).run t = (.ok bound, u)) :
    u.Sound ∧ t.Grows u ∧ Imports u bound imports := by
  induction imports using List.reverseRecOn generalizing bound u with
  | nil =>
    obtain ⟨hbound, rfl⟩ := Prod.mk.inj h
    obtain rfl := Except.ok.inj hbound
    exact ⟨ht, .refl _, .nil _⟩
  | append_singleton imports last ih =>
    obtain ⟨before, t₁, path, t₂, hbefore, hpath, rfl, hbound⟩ := bindImports_concat h
    obtain ⟨hs₁, hg₁, himports⟩ := ih hbefore
    obtain ⟨hs₂, hg₂, hw⟩ := readPath_ok hs₁ hpath
    have hs₃ := hs₂.intern last.1
    have hg₃ := Interner.grows_intern t₂ last.1
    refine ⟨hs₃, hg₁.trans (hg₂.trans hg₃), ?_⟩
    exact (himports.grow (hg₂.trans hg₃) hs₁ hs₃).add hs₃ (Interner.get?_intern _ last.1)
      (hw.grow hg₃ hs₂ hs₃) hbound

/-! ## Native types -/

/-- The types that are registered are those of the texts, each under its own name. -/
structure Registers (t : Interner) (types : List NativeType) (names : List String) : Prop where
  written : ∀ type ∈ types, type.name ∈ names ∧ ClassPath.Written t type.path type.name
  found : ∀ name ∈ names, ∃ type ∈ types, type.name = name

theorem Registers.grow {t u : Interner} (hg : t.Grows u) (ht : t.Sound) (hu : u.Sound)
    {types : List NativeType} {names : List String} (h : Registers t types names) :
    Registers u types names := by
  constructor
  case written =>
    intro type hm
    obtain ⟨hname, hpath⟩ := h.written type hm
    exact ⟨hname, hpath.grow hg ht hu⟩
  case found => exact h.found

theorem map_type_define (path : ClassPath) (name : String) (method : Name) (f : Native)
    (classes : List NativeClass) :
    (define path name method f classes).map (·.type) =
      if path ∈ classes.map (·.type.path) then classes.map (·.type)
      else classes.map (·.type) ++ [⟨path, name⟩] := by
  induction classes with
  | nil => rfl
  | cons c rest ih =>
    by_cases hc : c.type.path = path
    · simp [define, hc]
    · simp only [define, if_neg hc, List.map_cons, ih, List.mem_cons, Ne.symm hc, false_or]
      split <;> rfl

/-- A type that is registered once more keeps its name, which is the one it is given. -/
theorem Registers.define {t : Interner} (ht : t.Sound) {classes : List NativeClass}
    {names : List String} (h : Registers t (classes.map (·.type)) names) {path : ClassPath}
    {name : String} (hw : ClassPath.Written t path name) (method : Name) (f : Native) :
    Registers t ((Configuration.define path name method f classes).map (·.type))
      (names ++ [name]) := by
  rw [map_type_define]
  have hgrown : ∀ type ∈ classes.map (·.type), type.name ∈ names ++ [name] ∧
      ClassPath.Written t type.path type.name :=
    fun type hm => ⟨List.mem_append_left _ (h.written type hm).1, (h.written type hm).2⟩
  split
  · next hin =>
    obtain ⟨c, hc, rfl⟩ := List.mem_map.mp hin
    have hname : c.type.name = name :=
      (h.written _ (List.mem_map_of_mem hc)).2.spells.name_eq ht hw.spells
    refine ⟨hgrown, List.forall_mem_append.mpr ⟨h.found, ?_⟩⟩
    exact List.forall_mem_singleton.mpr ⟨c.type, List.mem_map_of_mem hc, hname⟩
  · constructor
    case written =>
      refine List.forall_mem_append.mpr ⟨hgrown, ?_⟩
      exact List.forall_mem_singleton.mpr ⟨List.mem_append_right _ List.mem_cons_self, hw⟩
    case found =>
      rw [List.forall_mem_append]
      constructor
      · intro other hm
        obtain ⟨type, htype, hname⟩ := h.found other hm
        exact ⟨type, List.mem_append_left _ htype, hname⟩
      · exact List.forall_mem_singleton.mpr
          ⟨⟨path, name⟩, List.mem_append_right _ List.mem_cons_self, rfl⟩

/-- One method more was registered. -/
theorem register_concat {natives : List (String × String × Native)} {name method : String}
    {f : Native} {classes : List NativeClass} {t u : Interner}
    (h : (register (natives ++ [(name, method, f)])).run t = (.ok classes, u)) :
    ∃ before t₁ path t₂, (register natives).run t = (.ok before, t₁) ∧
      (readPath name).run t₁ = (.ok path, t₂) ∧ u = (Interner.intern method t₂).2 ∧
      classes = define path name (Interner.intern method t₂).1 f before := by
  unfold register at h
  rw [List.foldlM_append] at h
  obtain ⟨before, t₁, hbefore, hlast⟩ := run_bind_ok h
  rw [List.foldlM_cons] at hlast
  obtain ⟨after, t₃, hone, hnil⟩ := run_bind_ok hlast
  obtain ⟨path, t₂, hpath, hdefine⟩ := run_bind_ok hone
  have hend : (Except.ok after, t₃) = (Except.ok classes, u) := hnil
  rw [hend, run_bind, run_onNames] at hdefine
  obtain ⟨hclasses, hu⟩ := Prod.mk.inj hdefine
  exact ⟨before, t₁, path, t₂, hbefore, hpath, hu.symm, (Except.ok.inj hclasses).symm⟩

theorem registers_of_register {t u : Interner} (ht : t.Sound)
    {natives : List (String × String × Native)} {classes : List NativeClass}
    (h : (register natives).run t = (.ok classes, u)) :
    u.Sound ∧ t.Grows u ∧ Registers u (classes.map (·.type)) (natives.map (·.1)) := by
  induction natives using List.reverseRecOn generalizing classes u with
  | nil =>
    obtain ⟨hclasses, rfl⟩ := Prod.mk.inj h
    obtain rfl := Except.ok.inj hclasses
    exact ⟨ht, .refl _, by simp, by simp⟩
  | append_singleton natives last ih =>
    obtain ⟨before, t₁, path, t₂, hbefore, hpath, rfl, rfl⟩ := register_concat h
    obtain ⟨hs₁, hg₁, hregisters⟩ := ih hbefore
    obtain ⟨hs₂, hg₂, hw⟩ := readPath_ok hs₁ hpath
    have hs₃ := hs₂.intern last.2.1
    have hg₃ := Interner.grows_intern t₂ last.2.1
    refine ⟨hs₃, hg₁.trans (hg₂.trans hg₃), ?_⟩
    rw [List.map_append]
    exact (hregisters.grow (hg₂.trans hg₃) hs₁ hs₃).define hs₃ (hw.grow hg₃ hs₂ hs₃) _ _

/-- The type of a path is found exactly if the name that the path spells was registered. -/
theorem Registers.native? {t : Interner} (ht : t.Sound) {c : Configuration} {names : List String}
    (h : Registers t (c.natives.map (·.type)) names) {path : ClassPath} {full : String}
    (hs : Spells t path (words full)) :
    (full ∈ names → ∃ n ∈ c.natives, c.native? path = some n ∧ n.type.path = path ∧
      n.type.name = full) ∧ (full ∉ names → c.native? path = none) := by
  have hname : ∀ n ∈ c.natives, n.type.path = path → n.type.name = full ∧ full ∈ names := by
    rintro n hn rfl
    obtain ⟨hin, hw⟩ := h.written _ (List.mem_map_of_mem hn)
    have hfull := hw.spells.name_eq ht hs
    exact ⟨hfull, hfull ▸ hin⟩
  constructor
  · intro hin
    obtain ⟨type, htype, hfull⟩ := h.found full hin
    obtain ⟨n, hn, rfl⟩ := List.mem_map.mp htype
    have hpath : n.type.path = path := by
      refine (h.written _ htype).2.spells.path_eq ?_
      rw [hfull]
      exact hs
    obtain ⟨m, hm⟩ : ∃ m, c.native? path = some m :=
      Option.isSome_iff_exists.mp (List.find?_isSome.mpr ⟨n, hn, decide_eq_true hpath⟩)
    have hmem := List.mem_of_find?_eq_some hm
    have hmpath : m.type.path = path := by simpa using List.find?_some hm
    exact ⟨m, hmem, hm, hmpath, (hname m hmem hmpath).1⟩
  · intro hout
    apply List.find?_eq_none.mpr
    intro n hn hpath
    exact hout (hname n hn (by simpa using hpath)).2

/-- A name that was registered is known to the table. -/
theorem Registers.known {t : Interner} {types : List NativeType} {names : List String}
    (h : Registers t types names) {full : String} (hin : full ∈ names) :
    ∃ path, Spells t path (words full) := by
  obtain ⟨type, htype, rfl⟩ := h.found full hin
  exact ⟨type.path, (h.written type htype).2.spells⟩

end Configuration

/-! ## Hosts -/

namespace Host

theorem run_onNames {α : Type} (table : Nat) (x : StateM Interner α) (h : Host) :
    (Host.onNames table x).run h = ((x.run (h.names table)).1,
      { h with tables := h.tables.setIfInBounds table (x.run (h.names table)).2 }) := rfl

/-- Imports and native types are read on table 0. A sandbox of another table is refused. -/
theorem configure_run (h : Host) (i : Nat) (imports : List (String × String))
    (natives : List (String × String × Native)) (strong : Bool) :
    (configure (some i) imports natives strong).run h =
      if (h.sandbox i).table ≠ 0 then (.error .foreignInterner, h)
      else match (do
          let imports ← Configuration.bindImports imports
          let natives ← Configuration.register natives
          return (imports, natives) : Configuration.ConfigureM _).run (h.names 0) with
        | (.error fault, t) => (.error fault, { h with tables := h.tables.setIfInBounds 0 t })
        | (.ok (bound, classes), t) => (.ok h.configurations.size,
            { h with
              tables := h.tables.setIfInBounds 0 t
              configurations := h.configurations.push ⟨i, bound, classes, strong⟩ }) := by
  unfold configure
  simp only [StateT.run_bind, StateT.run_get, pure_bind, Option.any_some]
  by_cases hk : (h.sandbox i).table ≠ 0
  · rw [if_pos (decide_eq_true hk), if_pos hk]
    rfl
  · rw [if_neg (by simpa using hk), if_neg hk, StateT.run_bind, run_onNames]
    generalize ExceptT.run _ = built
    simp only [StateT.run]
    rcases built (h.names 0) with ⟨_ | ⟨bound, classes⟩, t⟩ <;> rfl

/-- A configuration that was built keeps what was read. -/
theorem configure_ok {h h' : Host} {i c : Nat} {imports : List (String × String)}
    {natives : List (String × String × Native)} {strong : Bool}
    (hbuilt : (configure (some i) imports natives strong).run h = (.ok c, h')) :
    ∃ bound t classes u, (Configuration.bindImports imports).run (h.names 0) = (.ok bound, t) ∧
      (Configuration.register natives).run t = (.ok classes, u) ∧
      h'.configuration c = ⟨i, bound, classes, strong⟩ ∧
      h'.tables = h.tables.setIfInBounds 0 u := by
  rw [configure_run] at hbuilt
  split at hbuilt
  · cases (Prod.mk.inj hbuilt).1
  · split at hbuilt
    · cases (Prod.mk.inj hbuilt).1
    · next bound classes u hread =>
      obtain ⟨hc, rfl⟩ := Prod.mk.inj hbuilt
      obtain rfl := Except.ok.inj hc
      obtain ⟨bound', t, hbound, hrest⟩ := run_bind_ok hread
      obtain ⟨classes', v, hclasses, hpair⟩ := run_bind_ok hrest
      have hend : (Except.ok (bound', classes'), v) =
        ((Except.ok (bound, classes), u) : Except ConfigurationFault _ × _) := hpair
      obtain ⟨hboth, rfl⟩ := Prod.mk.inj hend
      obtain ⟨rfl, rfl⟩ := Prod.mk.inj (Except.ok.inj hboth)
      exact ⟨bound', t, classes', v, hbound, hclasses, by simp [configuration], rfl⟩

end Host

end MeteredScript
