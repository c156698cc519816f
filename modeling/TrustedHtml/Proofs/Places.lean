import TrustedHtml.Proofs.Session

/-!
# Places of Schemas

A schema has a place: the path of subsections that leads to it. Identities are what handles are
checked by, but they are given out by the library itself; so that a handle belongs to the schema
it was given out by can only be said by places. In a proper scope there is one identity for each
place. Growth keeps places: a schema that is there stays where it is, and at a place that was
free there can only be a schema that is new.

The schema of rows also tells where it belongs. No operation changes what it tells, and the
subsection it tells of keeps its place and its name, so this stays true as well.

## Main definitions

* `Schema.at?`: the schema at a place.
* `Schema.Backed`: schemas of rows tell where they belong.
* `Schema.KeepsBacked`: a later state that does not change what is told.

## Main results

* `Schema.eq_of_at?_id_eq`: identities tell places apart.
* `Scope.Grows.at?_cases`: growth keeps places.
* `SchemaCall.run_keepsBacked`: calls do not change what is told.
-/

namespace TrustedHtml

/-- Entries of which something is in both are the same one, if what is in the entries is
distinct. -/
theorem index_eq_of_nodup_flatMap {α β : Type} {f : α → List β} {entries : List α} {i j : ℕ}
    {a b : α} {x : β} (h : (entries.flatMap f).Nodup) (ha : entries[i]? = some a)
    (hb : entries[j]? = some b) (hxa : x ∈ f a) (hxb : x ∈ f b) : i = j := by
  induction entries generalizing i j with
  | nil => cases ha
  | cons entry rest ih =>
      rw [List.flatMap_cons, List.nodup_append'] at h
      obtain ⟨-, hrest, hdisjoint⟩ := h
      cases i with
      | zero =>
          cases j with
          | zero => rfl
          | succ j =>
              obtain rfl : entry = a := Option.some.inj ha
              have hlater := List.mem_of_getElem? (l := rest) hb
              exact (hdisjoint hxa (List.mem_flatMap.mpr ⟨b, hlater, hxb⟩)).elim
      | succ i =>
          cases j with
          | zero =>
              obtain rfl : entry = b := Option.some.inj hb
              have hlater := List.mem_of_getElem? (l := rest) ha
              exact (hdisjoint hxb (List.mem_flatMap.mpr ⟨a, hlater, hxa⟩)).elim
          | succ j => exact congrArg Nat.succ (ih hrest ha hb)

namespace Schema

/-! ### Places -/

/-- The schema at the end of a path, which goes through subsections by their places. -/
def at? : List ℕ → Schema → Option Schema
  | [], s => some s
  | i :: path, s => s.subsections[i]?.bind fun sub => at? path sub.2

variable {s f c d : Schema} {path path' : List ℕ} {i : ℕ}

/-- A path that goes through a subsection. -/
theorem at?_cons_eq_some : s.at? (i :: path) = some d ↔
    ∃ sub, s.subsections[i]? = some sub ∧ sub.2.at? path = some d := by
  rw [at?, Option.bind_eq_some_iff]

/-- A path is gone one part after the other. -/
theorem at?_append (s : Schema) : ∀ path path' : List ℕ,
    s.at? (path ++ path') = (s.at? path).bind (·.at? path')
  | [], path' => rfl
  | i :: path, path' => by
      rw [List.cons_append, at?, at?]
      cases s.subsections[i]? with
      | none => rfl
      | some sub => exact sub.2.at?_append path path'

/-- What is at a place is in the family. -/
theorem mem_family_of_at? (h : s.at? path = some d) : d ∈ s.family := by
  induction path generalizing s with
  | nil =>
      obtain rfl := Option.some.inj h
      exact mem_family_self s
  | cons i path ih =>
      obtain ⟨sub, hsub, hd⟩ := at?_cons_eq_some.mp h
      exact mem_family_of_mem (List.mem_of_getElem? hsub) (ih hd)

mutual

/-- Every member of a family has a place. -/
theorem exists_at?_of_mem : ∀ {s d : Schema}, d ∈ s.family → ∃ path, s.at? path = some d
  | ⟨_, _, _, _, subsections⟩, d, h => by
      obtain rfl | ⟨sub, hsub, hd⟩ := mem_family_iff.mp h
      · exact ⟨[], rfl⟩
      · obtain ⟨path, hpath⟩ := exists_at?_of_mem_rows subsections hsub hd
        obtain ⟨i, hi⟩ := List.getElem?_of_mem hsub
        exact ⟨i :: path, at?_cons_eq_some.mpr ⟨sub, hi, hpath⟩⟩

/-- Every member of the family of the schema of rows has a place there. -/
theorem exists_at?_of_mem_rows : ∀ (subsections : List (Tag × Schema)) {sub : Tag × Schema}
    {d : Schema}, sub ∈ subsections → d ∈ sub.2.family → ∃ path, sub.2.at? path = some d
  | (_, _) :: rest, _, _, hsub, hd => by
      rcases List.mem_cons.mp hsub with rfl | hsub
      · exact exists_at?_of_mem hd
      · exact exists_at?_of_mem_rows rest hsub hd

end

/-- **Identities tell places apart.** -/
theorem eq_of_at?_id_eq (h : s.ids.Nodup) (hc : s.at? path = some c) (hd : s.at? path' = some d)
    (hid : c.id = d.id) : path = path' := by
  induction path generalizing s path' with
  | nil =>
      obtain rfl := Option.some.inj hc
      cases path' with
      | nil => rfl
      | cons j path' =>
          obtain ⟨sub, hsub, hd⟩ := at?_cons_eq_some.mp hd
          rw [ids_eq, List.nodup_cons] at h
          refine (h.1 (List.mem_flatMap.mpr ⟨sub, List.mem_of_getElem? hsub, ?_⟩)).elim
          rw [hid]
          exact mem_ids_of_mem (mem_family_of_at? hd)
  | cons i path ih =>
      obtain ⟨sub, hsub, hc⟩ := at?_cons_eq_some.mp hc
      have hids := h
      rw [ids_eq, List.nodup_cons] at hids
      cases path' with
      | nil =>
          obtain rfl := Option.some.inj hd
          refine (hids.1 (List.mem_flatMap.mpr ⟨sub, List.mem_of_getElem? hsub, ?_⟩)).elim
          rw [← hid]
          exact mem_ids_of_mem (mem_family_of_at? hc)
      | cons j path' =>
          obtain ⟨sub', hsub', hd⟩ := at?_cons_eq_some.mp hd
          have hmem : c.id ∈ sub'.2.ids := hid ▸ mem_ids_of_mem (mem_family_of_at? hd)
          obtain rfl := index_eq_of_nodup_flatMap hids.2 hsub hsub'
            (mem_ids_of_mem (mem_family_of_at? hc)) hmem
          obtain rfl := Option.some.inj (hsub.symm.trans hsub')
          have hinner := (List.nodup_flatMap.mp hids.2).1 sub (List.mem_of_getElem? hsub)
          rw [ih hinner hc hd]

/-- A later state has a later state of what is at a place at the same place. -/
theorem Extends.at? (h : s.Extends f) (hc : s.at? path = some c) :
    ∃ d, f.at? path = some d ∧ c.Extends d := by
  induction path generalizing s f with
  | nil =>
      obtain rfl := Option.some.inj hc
      exact ⟨f, rfl, h⟩
  | cons i path ih =>
      obtain ⟨⟨t, child⟩, hsub, hc⟩ := at?_cons_eq_some.mp hc
      obtain ⟨later, hlater, hext⟩ := h.subsection hsub
      obtain ⟨d, hd, hext'⟩ := ih hext hc
      exact ⟨d, at?_cons_eq_some.mpr ⟨(t, later), hlater, hd⟩, hext'⟩

end Schema

/-- **Growth keeps places**: what is at a place is a later state of what was there, or the place
was free and the schema is new. -/
theorem Scope.Grows.at?_cases {s f : Scope} (h : s.Grows f) {path : List ℕ} {d : Schema}
    (hd : f.schema.at? path = some d) :
    (∃ c, s.schema.at? path = some c ∧ c.Extends d) ∨
      (s.schema.at? path = none ∧ s.next ≤ d.id.number) := by
  cases hc : s.schema.at? path with
  | some c =>
      obtain ⟨later, hlater, hext⟩ := h.grown.at? hc
      obtain rfl := Option.some.inj (hlater.symm.trans hd)
      exact .inl ⟨c, rfl, hext⟩
  | none =>
      rcases h.members d (Schema.mem_family_of_at? hd) with ⟨c, hmem, hext⟩ | hnew
      · -- A member of the old family keeps its place, which is then the one of `d`.
        obtain ⟨path', hc'⟩ := Schema.exists_at?_of_mem hmem
        obtain ⟨later, hlater, hext'⟩ := h.grown.at? hc'
        have hid : later.id = d.id := hext'.id_eq.trans hext.id_eq.symm
        obtain rfl := Schema.eq_of_at?_id_eq h.proper.distinct hlater hd hid
        rw [hc] at hc'
        cases hc'
      · exact .inr ⟨rfl, hnew⟩

/-! ### What schemas of rows tell -/

namespace Schema

/-- **Schemas of rows tell where they belong**: the schema, the place and the name of their
subsection, at every level of nesting. -/
inductive Backed : Schema → Prop
  | intro {s : Schema} (nesting : ∀ (i : ℕ) (sub : Tag × Schema), s.subsections[i]? = some sub →
      sub.2.nesting = some ⟨s.id, i, sub.1.name⟩)
      (children : ∀ sub ∈ s.subsections, Backed sub.2) : Backed s

variable {s f g c d : Schema}

/-- What is at a place of a schema in which all schemas tell where they belong is one. -/
theorem Backed.at? {path : List ℕ} (h : s.Backed) (hd : s.at? path = some d) : d.Backed := by
  induction path generalizing s with
  | nil => exact Option.some.inj hd ▸ h
  | cons i path ih =>
      obtain ⟨sub, hsub, hd⟩ := at?_cons_eq_some.mp hd
      obtain ⟨-, children⟩ := h
      exact ih (children sub (List.mem_of_getElem? hsub)) hd

/-- A later state that belongs to the same place, and in which schemas of rows tell where they
belong if they did. -/
structure KeepsBacked (s f : Schema) : Prop where
  id_eq : f.id = s.id
  nesting_eq : f.nesting = s.nesting
  backed : s.Backed → f.Backed

/-- A schema without a change. -/
theorem KeepsBacked.refl (s : Schema) : s.KeepsBacked s :=
  ⟨rfl, rfl, fun h => h⟩

/-- One change after another. -/
theorem KeepsBacked.trans (h : s.KeepsBacked f) (h' : f.KeepsBacked g) : s.KeepsBacked g :=
  ⟨h'.id_eq.trans h.id_eq, h'.nesting_eq.trans h.nesting_eq, h'.backed ∘ h.backed⟩

/-- A change that leaves the subsections as they are. -/
theorem keepsBacked_of_subsections_eq (hid : f.id = s.id) (hnesting : f.nesting = s.nesting)
    (hsub : f.subsections = s.subsections) : s.KeepsBacked f := by
  refine ⟨hid, hnesting, ?_⟩
  rintro ⟨nesting, children⟩
  refine .intro ?_ ?_
  · rw [hid, hsub]
    exact nesting
  · rw [hsub]
    exact children

/-- Declaring a variable. -/
theorem declare_keepsBacked (s : Schema) (name : SlotName) (level : TrustLevel) :
    s.KeepsBacked (s.declare name level).2 := by
  rw [declare]
  split <;> exact keepsBacked_of_subsections_eq rfl rfl rfl

/-- Working on the schema of the rows of a subsection. -/
theorem setChild_keepsBacked {t : Tag} (hsub : s.subsections[t.index]? = some (t, c))
    (h : c.KeepsBacked d) : s.KeepsBacked (s.setChild t d) := by
  refine ⟨rfl, rfl, ?_⟩
  rintro ⟨nesting, children⟩
  refine .intro (fun i sub hi => ?_) fun sub hmem => ?_
  · rcases getElem?_set_cases hi with ⟨rfl, rfl⟩ | ⟨-, hi⟩
    · exact h.nesting_eq.trans (nesting _ _ hsub)
    · exact nesting i sub hi
  · rcases List.mem_or_eq_of_mem_set hmem with hmem | rfl
    · exact children sub hmem
    · exact h.backed (children _ (List.mem_of_getElem? hsub))

end Schema

namespace Scope

open Schema

/-- Declaring a subsection. -/
theorem declareSubsection_keepsBacked (s : Scope) (name : SlotName) :
    s.schema.KeepsBacked (s.declareSubsection name).2.schema := by
  rw [declareSubsection]
  split
  · exact .refl _
  · refine ⟨rfl, rfl, ?_⟩
    rintro ⟨nesting, children⟩
    refine .intro (fun i sub hi => ?_) fun sub hmem => ?_
    · rcases getElem?_concat_cases hi with hi | ⟨rfl, rfl⟩
      · exact nesting i sub hi
      · rfl
    · rcases List.mem_append.mp hmem with hmem | hmem
      · exact children sub hmem
      · obtain rfl := List.mem_singleton.mp hmem
        exact .intro (by simp) (by simp)

mutual

/-- A declaration. -/
theorem use_keepsBacked {s : Scope} (h : s.schema.WellFormed) :
    ∀ u : Use, s.schema.KeepsBacked (s.use u).schema
  | .scalar name level => s.schema.declare_keepsBacked name level
  | .subsection name uses => by
      obtain ⟨hsub, -⟩ := getElem?_declareSubsection h name
      have hinside := (declareSubsection_wellFormed h name).child (List.mem_of_getElem? hsub)
      have hrows : (s.inside name).schema.KeepsBacked ((s.inside name).useAll uses).schema :=
        useAll_keepsBacked hinside uses
      exact (s.declareSubsection_keepsBacked name).trans (setChild_keepsBacked hsub hrows)

/-- **Declarations do not change what schemas of rows tell.** -/
theorem useAll_keepsBacked {s : Scope} (h : s.schema.WellFormed) :
    ∀ uses : List Use, s.schema.KeepsBacked (s.useAll uses).schema
  | [] => .refl _
  | u :: rest =>
      (use_keepsBacked h u).trans (useAll_keepsBacked (useAll_wellFormed h [u]).1 rest)

end

end Scope

/-- An operation that only declares does not change what schemas of rows tell. -/
theorem Declaring.OnlyDeclares.keepsBacked {α : Type} {act : Declaring α} {s : Scope}
    (hact : act.OnlyDeclares) (h : s.schema.WellFormed) :
    s.schema.KeepsBacked (act.after s).schema := by
  obtain ⟨uses, hafter⟩ := hact s
  rw [hafter]
  exact Scope.useAll_keepsBacked h uses

/-- **Calls do not change what schemas of rows tell**, if what their handles tell is true. -/
theorem SchemaCall.run_keepsBacked {s : Scope} (h : s.schema.WellFormed) {call : SchemaCall}
    (htags : ∀ t ∈ call.tags, ∀ d ∈ s.schema.family, d.id = t.parent → d.HasRows t) :
    s.schema.KeepsBacked (call.run.after s).schema := by
  induction call generalizing s with
  | declare name level =>
      exact ((Declaring.varName_onlyDeclares name).bind fun slot =>
        (Declaring.scalar_onlyDeclares slot level).discard).keepsBacked h
  | attach v extra => exact (Declaring.attach_onlyDeclares v extra).discard.keepsBacked h
  | declareSubsection name =>
      exact ((Declaring.subsectionName_onlyDeclares name).bind fun slot =>
        ((Declaring.OnlyDeclares.pure ()).inSubsection slot).discard).keepsBacked h
  | setStrict strict => exact Schema.keepsBacked_of_subsections_eq rfl rfl rfl
  | declareBindings args => exact (Declaring.bindings_onlyDeclares args).keepsBacked h
  | inChild t call ih =>
      cases hchild : s.schema.child t with
      | error m =>
          rw [run, Declaring.after, Declaring.inChild, hchild]
          exact .refl _
      | ok child =>
          obtain ⟨hparent, sub, hat, rfl⟩ := Schema.child_eq_ok hchild
          obtain ⟨c, hsub⟩ := htags t List.mem_cons_self _ (Schema.mem_family_self _) hparent.symm
          rw [hsub] at hat
          cases hat
          have hmem := List.mem_of_getElem? hsub
          rw [run, Declaring.after_inChild hchild]
          refine Schema.setChild_keepsBacked hsub
            (ih (s := ⟨c, s.next⟩) (h.child hmem) fun t' ht' d hd => ?_)
          exact htags t' (List.mem_cons_of_mem _ ht') d (Schema.mem_family_of_mem hmem hd)

end TrustedHtml
