import TrustedHtml.Proofs.Families
import TrustedHtml.Proofs.OnlyDeclares

/-!
# Sessions

A program that uses the library makes new schemas, declares on them in any order, compiles trees
against some of them, and keeps handles to variables and subsections to use later. A session is
what there is after some of these steps: the schemas that are still being declared on, the
templates, and all handles that were given out. Compiling takes a schema, whether it succeeds or
fails; there are no copies of schemas.

What makes handles good is an invariant of sessions: every schema is in order, no two schemas
have the same identity, wherever they are nested, and what a handle tells is true of the schema
whose identity it carries, if that schema is still there. Every step keeps it, because schemas
only grow.

## Main definitions

* `SchemaCall`: what can be done with a schema.
* `Session`, `Session.Step`, `Session.Reached`: what there is after some steps.
* `Schema.Has`, `Schema.HasRows`: what a handle tells is true.
* `Session.Valid`: the invariant of sessions.

## Main results

* `SchemaCall.run_grows`: calls let a schema grow.
* `Session.Reached.valid`: **the invariant holds after any steps.**
-/

namespace TrustedHtml

/-! ### Calls -/

/-- A call that changes a schema. -/
inductive SchemaCall where
  | declare (name : String) (level : TrustLevel)
  | attach (v : Var) (extra : TrustLevel)
  | declareSubsection (name : String)
  | setStrict (strict : Bool)
  /-- Declare the names that arguments use. -/
  | declareBindings (args : List BindArg)
  /-- A call on the schema of the rows of a subsection. -/
  | inChild (t : Tag) (call : SchemaCall)

namespace SchemaCall

/-- Carry out a call. -/
def run : SchemaCall → Declaring Unit
  | declare name level => do discard <| Declaring.scalar (← Declaring.varName name) level
  | attach v extra => discard <| Declaring.attach v extra
  | declareSubsection name => do
      discard <| Declaring.inSubsection (← Declaring.subsectionName name) (pure ())
  | setStrict strict => fun s => .ok () { s with schema := s.schema.setStrict strict }
  | declareBindings args => Declaring.bindings args
  | inChild t call => Declaring.inChild t call.run

/-- The handles through which a call reaches the schema it is made on. -/
def tags : SchemaCall → List Tag
  | inChild t call => t :: call.tags
  | _ => []

end SchemaCall

/-- What a variable tells is true of a schema: its place is one of those of the schema, and has
its name. -/
def Schema.Has (s : Schema) (v : Var) : Prop :=
  ∃ slot, s.scalars[v.index]? = some slot ∧ slot.name = v.name

/-- What a subsection tells is true of a schema: it is the one at its place. -/
def Schema.HasRows (s : Schema) (t : Tag) : Prop :=
  ∃ d, s.subsections[t.index]? = some (t, d)

namespace Schema

variable {s f : Schema}

/-- What a variable tells stays true. -/
theorem Has.extend {v : Var} (h : s.Has v) (hext : s.Extends f) : f.Has v := by
  obtain ⟨slot, hslot, hname⟩ := h
  obtain ⟨later, hlater, hname', -⟩ := hext.scalar hslot
  exact ⟨later, hlater, hname'.trans hname⟩

/-- What a subsection tells stays true. -/
theorem HasRows.extend {t : Tag} (h : s.HasRows t) (hext : s.Extends f) : f.HasRows t := by
  obtain ⟨c, hsub⟩ := h
  obtain ⟨d, hd, -⟩ := hext.subsection hsub
  exact ⟨d, hd⟩

end Schema

namespace Declaring

variable {α : Type} {act : Declaring α} {s : Scope}

/-- An operation that only declares lets a schema grow. -/
theorem OnlyDeclares.grows (hact : act.OnlyDeclares) (h : s.Proper) : s.Grows (act.after s) := by
  obtain ⟨uses, hafter⟩ := hact s
  rw [hafter]
  exact Scope.useAll_grows h uses

/-- What working on the schema of rows leaves. -/
theorem after_inChild {t : Tag} {child : Schema} (hchild : s.schema.child t = .ok child) :
    (inChild t act).after s = ⟨s.schema.setChild t (act.after ⟨child, s.next⟩).schema,
      (act.after ⟨child, s.next⟩).next⟩ := by
  rw [after, after, inChild, hchild]
  dsimp only
  cases act ⟨child, s.next⟩ <;> rfl

end Declaring

/-- **Calls let a schema grow**, if what their handles tell is true. -/
theorem SchemaCall.run_grows {s : Scope} (h : s.Proper) {call : SchemaCall}
    (htags : ∀ t ∈ call.tags, ∀ d ∈ s.schema.family, d.id = t.parent → d.HasRows t) :
    s.Grows (call.run.after s) := by
  induction call generalizing s with
  | declare name level =>
      exact ((Declaring.varName_onlyDeclares name).bind fun slot =>
        (Declaring.scalar_onlyDeclares slot level).discard).grows h
  | attach v extra => exact (Declaring.attach_onlyDeclares v extra).discard.grows h
  | declareSubsection name =>
      exact ((Declaring.subsectionName_onlyDeclares name).bind fun slot =>
        ((Declaring.OnlyDeclares.pure ()).inSubsection slot).discard).grows h
  | setStrict strict => exact Scope.setStrict_grows h strict
  | declareBindings args => exact (Declaring.bindings_onlyDeclares args).grows h
  | inChild t call ih =>
      cases hchild : s.schema.child t with
      | error m =>
          rw [run, Declaring.after, Declaring.inChild, hchild]
          exact .refl h
      | ok child =>
          obtain ⟨hparent, sub, hat, rfl⟩ := Schema.child_eq_ok hchild
          obtain ⟨c, hsub⟩ := htags t List.mem_cons_self _ (Schema.mem_family_self _) hparent.symm
          rw [hsub] at hat
          cases hat
          have hmem := List.mem_of_getElem? hsub
          rw [run, Declaring.after_inChild hchild]
          refine Scope.setChild_grows h hsub (ih (h.child hmem) fun t' ht' d hd => ?_)
          exact htags t' (List.mem_cons_of_mem _ ht') d (Schema.mem_family_of_mem hmem hd)

/-! ### Sessions -/

/-- Something that has a schema: one that is still being declared on, or a template. -/
inductive Holder where
  | draft (s : Schema)
  | template (t : Template)

/-- The schema of a holder. -/
def Holder.schema : Holder → Schema
  | draft s => s
  | template t => t.schema

/-- What there is after some steps, the number of the next schema, and the handles that were
given out. -/
structure Session where
  holders : List Holder
  next : ℕ
  vars : List Var
  tags : List Tag

namespace Session

/-- All schemas there are, at every level of nesting. -/
def schemas (σ : Session) : List Schema :=
  σ.holders.flatMap (·.schema.family)

variable {σ τ : Session}

section

variable [UrlReader]

/-- **One step** of a program. -/
inductive Step (σ : Session) : Session → Prop
  | newRoot : Step σ { σ with
      holders := σ.holders ++ [.draft (Scope.newRoot σ.next).schema], next := σ.next + 1 }
  /-- A call, which can fail. The handles that it goes through have to be given out before. -/
  | call {i : ℕ} {s : Schema} {call : SchemaCall} (hdraft : σ.holders[i]? = some (.draft s))
      (htags : ∀ t ∈ call.tags, t ∈ σ.tags) : Step σ { σ with
        holders := σ.holders.set i (.draft (call.run.after ⟨s, σ.next⟩).schema),
        next := (call.run.after ⟨s, σ.next⟩).next }
  | compile {i : ℕ} {s : Schema} {node : Node} {o : LayoutOptions} {t : Template} {next : ℕ}
      (hdraft : σ.holders[i]? = some (.draft s))
      (hcompile : node.compile o ⟨s, σ.next⟩ = (.ok t, next)) :
      Step σ { σ with holders := σ.holders.set i (.template t), next }
  /-- A tree is refused. Its schema is lost. -/
  | refuse {i : ℕ} {s : Schema} {node : Node} {o : LayoutOptions} {e : Abort} {next : ℕ}
      (hdraft : σ.holders[i]? = some (.draft s))
      (hcompile : node.compile o ⟨s, σ.next⟩ = (.error e, next)) :
      Step σ { σ with holders := σ.holders.eraseIdx i, next }
  /-- A handle to a variable is given out, with what it requires now or with less, which it has
  required before. -/
  | giveVar {s : Schema} {v : Var} {level : TrustLevel} (hs : s ∈ σ.schemas)
      (hv : v ∈ s.scalars) (hlevel : level ≤ v.level) :
      Step σ { σ with vars := { v with level } :: σ.vars }
  | giveTag {s : Schema} {sub : Tag × Schema} (hs : s ∈ σ.schemas)
      (hsub : sub ∈ s.subsections) : Step σ { σ with tags := sub.1 :: σ.tags }

/-- **What there is after some steps**, from nothing. -/
inductive Reached : Session → Prop
  | start (next : ℕ) : Reached ⟨[], next, [], []⟩
  | step {σ τ : Session} (h : Reached σ) (hstep : σ.Step τ) : Reached τ

end

/-! ### The invariant -/

/-- **The invariant of sessions.** -/
structure Valid (σ : Session) : Prop where
  inOrder : ∀ holder ∈ σ.holders, holder.schema.InOrder
  distinct : (σ.holders.flatMap (·.schema.ids)).Nodup
  fresh : ∀ id ∈ σ.holders.flatMap (·.schema.ids), id.number < σ.next
  vars : ∀ v ∈ σ.vars, ∃ id, v.schema = some id ∧ id.number < σ.next ∧
    ∀ s ∈ σ.schemas, s.id = id → s.Has v
  tags : ∀ t ∈ σ.tags, t.parent.number < σ.next ∧
    ∀ s ∈ σ.schemas, s.id = t.parent → s.HasRows t

/-- The identities of the schemas that there are. -/
theorem map_id_schemas (σ : Session) :
    σ.schemas.map (·.id) = σ.holders.flatMap (·.schema.ids) := by
  rw [schemas, List.map_flatMap]
  rfl

/-- A schema that a holder has. -/
theorem mem_schemas_of_mem {holder : Holder} (h : holder ∈ σ.holders) :
    holder.schema ∈ σ.schemas :=
  List.mem_flatMap.mpr ⟨holder, h, Schema.mem_family_self _⟩

/-- A member of the family of a schema that a holder has. -/
theorem mem_schemas_of_mem_family {holder : Holder} (h : holder ∈ σ.holders) {d : Schema}
    (hd : d ∈ holder.schema.family) : d ∈ σ.schemas :=
  List.mem_flatMap.mpr ⟨holder, h, hd⟩

namespace Valid

/-- Every schema is in order. -/
theorem inOrder_of_mem (h : σ.Valid) {s : Schema} (hs : s ∈ σ.schemas) : s.InOrder := by
  obtain ⟨holder, hholder, hs⟩ := List.mem_flatMap.mp hs
  exact (h.inOrder holder hholder).of_mem_family hs

/-- Every identity was given out. -/
theorem id_lt (h : σ.Valid) {s : Schema} (hs : s ∈ σ.schemas) : s.id.number < σ.next := by
  refine h.fresh s.id ?_
  rw [← map_id_schemas]
  exact List.mem_map_of_mem hs

/-- **Schemas are told apart by their identities.** -/
theorem eq_of_id_eq (h : σ.Valid) {s s' : Schema} (hs : s ∈ σ.schemas) (hs' : s' ∈ σ.schemas)
    (hid : s.id = s'.id) : s = s' := by
  have hdistinct := h.distinct
  rw [← map_id_schemas] at hdistinct
  exact List.inj_on_of_nodup_map hdistinct hs hs' hid

/-- The schema of a holder makes a proper scope. -/
theorem proper (h : σ.Valid) {holder : Holder} (hholder : holder ∈ σ.holders) :
    Scope.Proper ⟨holder.schema, σ.next⟩ where
  inOrder := h.inOrder holder hholder
  distinct := (List.nodup_flatMap.mp h.distinct).1 holder hholder
  fresh id hid := h.fresh id (List.mem_flatMap.mpr ⟨holder, hholder, hid⟩)

end Valid

/-- The schemas of rows of a schema that there is are there as well. -/
theorem rows_mem_schemas {s : Schema} (hs : s ∈ σ.schemas) {sub : Tag × Schema}
    (hsub : sub ∈ s.subsections) : sub.2 ∈ σ.schemas := by
  obtain ⟨holder, hholder, hs⟩ := List.mem_flatMap.mp hs
  have hrows := Schema.mem_family_of_mem hsub (Schema.mem_family_self sub.2)
  exact mem_schemas_of_mem_family hholder (Schema.mem_family_trans hs hrows)

/-! ### What steps keep -/

/-- All schemas of a session are later states of those before, or new, and the handles are the
same. -/
structure Follows (σ τ : Session) : Prop where
  next_le : σ.next ≤ τ.next
  schemas : ∀ d ∈ τ.schemas, (∃ c ∈ σ.schemas, c.Extends d) ∨ σ.next ≤ d.id.number
  vars_eq : τ.vars = σ.vars
  tags_eq : τ.tags = σ.tags

/-- What handles tell stays true. -/
theorem Valid.follow (h : σ.Valid) (hfollows : σ.Follows τ)
    (hinOrder : ∀ holder ∈ τ.holders, holder.schema.InOrder)
    (hdistinct : (τ.holders.flatMap (·.schema.ids)).Nodup)
    (hfresh : ∀ id ∈ τ.holders.flatMap (·.schema.ids), id.number < τ.next) : τ.Valid := by
  obtain ⟨hnext, hschemas, hvars, htags⟩ := hfollows
  refine ⟨hinOrder, hdistinct, hfresh, fun v hv => ?_, fun t ht => ?_⟩
  · rw [hvars] at hv
    obtain ⟨id, hattached, hlt, hhas⟩ := h.vars v hv
    refine ⟨id, hattached, hlt.trans_le hnext, fun d hd hid => ?_⟩
    rcases hschemas d hd with ⟨c, hc, hext⟩ | hnew
    · exact (hhas c hc (hext.id_eq.symm.trans hid)).extend hext
    · rw [hid] at hnew
      exact absurd hlt (Nat.not_lt.mpr hnew)
  · rw [htags] at ht
    obtain ⟨hlt, hhas⟩ := h.tags t ht
    refine ⟨hlt.trans_le hnext, fun d hd hid => ?_⟩
    rcases hschemas d hd with ⟨c, hc, hext⟩ | hnew
    · exact (hhas c hc (hext.id_eq.symm.trans hid)).extend hext
    · rw [hid] at hnew
      exact absurd hlt (Nat.not_lt.mpr hnew)

/-- A schema is taken by a later state of it. -/
theorem Valid.set (h : σ.Valid) {i : ℕ} {before after : Holder} {next : ℕ}
    (hi : σ.holders[i]? = some before)
    (hgrows : Scope.Grows ⟨before.schema, σ.next⟩ ⟨after.schema, next⟩) :
    Valid { σ with holders := σ.holders.set i after, next } := by
  have hmem := List.mem_of_getElem? hi
  refine h.follow ⟨hgrows.next_le, fun d hd => ?_, rfl, rfl⟩ ?_ ?_ ?_
  · rcases mem_flatMap_set hd with hd | hd
    · refine (hgrows.members d hd).imp_left ?_
      rintro ⟨c, hc, hext⟩
      exact ⟨c, mem_schemas_of_mem_family hmem hc, hext⟩
    · exact .inl ⟨d, hd, .refl d⟩
  · intro holder hholder
    rcases List.mem_or_eq_of_mem_set hholder with hholder | rfl
    · exact h.inOrder holder hholder
    · exact hgrows.proper.inOrder
  · refine nodup_flatMap_set h.distinct hi hgrows.proper.distinct fun id hid => ?_
    refine (hgrows.mem_ids hid).imp_right fun hnew hold => ?_
    exact absurd (h.fresh id hold) (Nat.not_lt.mpr hnew)
  · intro id hid
    rcases mem_flatMap_set hid with hid | hid
    · exact hgrows.proper.fresh id hid
    · exact (h.fresh id hid).trans_le hgrows.next_le

/-- Every schema makes a proper scope. -/
theorem Valid.proper_of_mem (h : σ.Valid) {s : Schema} (hs : s ∈ σ.schemas) :
    Scope.Proper ⟨s, σ.next⟩ := by
  obtain ⟨holder, hholder, hmem⟩ := List.mem_flatMap.mp hs
  exact (h.proper hholder).of_mem_family hmem

/-- The schemas of a family are there on their own, with all handles. -/
theorem Valid.focus (h : σ.Valid) {s : Schema} (hs : s ∈ σ.schemas) :
    Valid { σ with holders := [.draft s] } := by
  have hproper := h.proper_of_mem hs
  obtain ⟨holder, hholder, hmem⟩ := List.mem_flatMap.mp hs
  have hfamily : ∀ d, d ∈ schemas { σ with holders := [.draft s] } → d ∈ σ.schemas := by
    intro d hd
    rw [schemas, List.flatMap_singleton] at hd
    exact mem_schemas_of_mem_family hholder (Schema.mem_family_trans hmem hd)
  refine ⟨?_, ?_, ?_, fun v hv => ?_, fun t ht => ?_⟩
  · intro other hother
    obtain rfl := List.mem_singleton.mp hother
    exact hproper.inOrder
  · rw [List.flatMap_singleton]
    exact hproper.distinct
  · rw [List.flatMap_singleton]
    exact hproper.fresh
  · obtain ⟨id, hattached, hlt, hhas⟩ := h.vars v hv
    exact ⟨id, hattached, hlt, fun d hd hid => hhas d (hfamily d hd) hid⟩
  · obtain ⟨hlt, hhas⟩ := h.tags t ht
    exact ⟨hlt, fun d hd hid => hhas d (hfamily d hd) hid⟩

/-- A schema is lost. -/
theorem Valid.erase (h : σ.Valid) (i : ℕ) {next : ℕ} (hnext : σ.next ≤ next) :
    Valid { σ with holders := σ.holders.eraseIdx i, next } := by
  have hsub := List.eraseIdx_sublist σ.holders i
  refine h.follow ⟨hnext, fun d hd => .inl ⟨d, ?_, .refl d⟩, rfl, rfl⟩ ?_ ?_ ?_
  · exact (hsub.flatMap _).subset hd
  · exact fun holder hholder => h.inOrder holder (hsub.subset hholder)
  · exact h.distinct.sublist (hsub.flatMap _)
  · exact fun id hid => (h.fresh id ((hsub.flatMap _).subset hid)).trans_le hnext

/-- A new schema is made. -/
theorem Valid.newRoot (h : σ.Valid) : Valid { σ with
    holders := σ.holders ++ [.draft (Scope.newRoot σ.next).schema], next := σ.next + 1 } := by
  have hnew : ∀ id ∈ (Scope.newRoot σ.next).schema.ids, id = ⟨σ.next⟩ := fun id hid =>
    List.mem_singleton.mp hid
  refine h.follow ⟨Nat.le_succ _, fun d hd => ?_, rfl, rfl⟩ ?_ ?_ ?_
  · rw [schemas, List.flatMap_append, List.mem_append, List.flatMap_singleton] at hd
    rcases hd with hd | hd
    · exact .inl ⟨d, hd, .refl d⟩
    · obtain rfl := List.mem_singleton.mp hd
      exact .inr (le_refl σ.next)
  · intro holder hholder
    rcases List.mem_append.mp hholder with hholder | hholder
    · exact h.inOrder holder hholder
    · obtain rfl := List.mem_singleton.mp hholder
      exact (Scope.newRoot_proper σ.next).inOrder
  · rw [List.flatMap_append, List.flatMap_singleton, List.nodup_append']
    refine ⟨h.distinct, (Scope.newRoot_proper σ.next).distinct, fun id hid hlast => ?_⟩
    obtain rfl := hnew id hlast
    exact absurd (h.fresh _ hid) (Nat.lt_irrefl _)
  · intro id hid
    rw [List.flatMap_append, List.mem_append, List.flatMap_singleton] at hid
    rcases hid with hid | hid
    · exact Nat.lt_succ_of_lt (h.fresh id hid)
    · obtain rfl := hnew id hid
      exact Nat.lt_succ_self σ.next

/-- A handle to a variable is given out. -/
theorem Valid.giveVar (h : σ.Valid) {s : Schema} {v : Var} (hs : s ∈ σ.schemas)
    (hv : v ∈ s.scalars) (level : TrustLevel) :
    Valid { σ with vars := { v with level } :: σ.vars } := by
  have hgiven : ∃ id, v.schema = some id ∧ id.number < σ.next ∧
      ∀ d ∈ σ.schemas, d.id = id → d.Has { v with level } := by
    obtain ⟨hat, hattached⟩ := (h.inOrder_of_mem hs).wellFormed.coherent.var_of_mem hv
    refine ⟨s.id, hattached, h.id_lt hs, fun d hd hid => ?_⟩
    obtain rfl := h.eq_of_id_eq hd hs hid
    exact ⟨v, hat, rfl⟩
  refine ⟨h.inOrder, h.distinct, h.fresh, fun w hw => ?_, h.tags⟩
  rcases List.mem_cons.mp hw with rfl | hw
  · exact hgiven
  · exact h.vars w hw

/-- A handle to a subsection is given out. -/
theorem Valid.giveTag (h : σ.Valid) {s : Schema} {sub : Tag × Schema} (hs : s ∈ σ.schemas)
    (hsub : sub ∈ s.subsections) : Valid { σ with tags := sub.1 :: σ.tags } := by
  have hgiven : sub.1.parent.number < σ.next ∧
      ∀ d ∈ σ.schemas, d.id = sub.1.parent → d.HasRows sub.1 := by
    obtain ⟨hat, hparent⟩ := (h.inOrder_of_mem hs).wellFormed.coherent.tag_of_mem hsub
    rw [hparent]
    refine ⟨h.id_lt hs, fun d hd hid => ?_⟩
    obtain rfl := h.eq_of_id_eq hd hs hid
    exact ⟨sub.2, hat⟩
  refine ⟨h.inOrder, h.distinct, h.fresh, h.vars, fun t ht => ?_⟩
  rcases List.mem_cons.mp ht with rfl | ht
  · exact hgiven
  · exact h.tags t ht

variable [UrlReader]

/-- **One step keeps the invariant.** -/
theorem Valid.step (h : σ.Valid) (hstep : σ.Step τ) : τ.Valid := by
  cases hstep with
  | newRoot => exact h.newRoot
  | @call i s call hdraft htags =>
      have hmem := List.mem_of_getElem? hdraft
      refine h.set hdraft (SchemaCall.run_grows (h.proper hmem) fun t ht d hd hid => ?_)
      exact (h.tags t (htags t ht)).2 d (mem_schemas_of_mem_family hmem hd) hid
  | @compile i s node o t next hdraft hcompile =>
      obtain ⟨uses, hnext, hschema⟩ := node.compile_declares o ⟨s, σ.next⟩
      rw [hcompile] at hnext hschema
      have hgrows := Scope.useAll_grows (h.proper (List.mem_of_getElem? hdraft)) uses
      have hafter : Scope.useAll ⟨s, σ.next⟩ uses = ⟨t.schema, next⟩ := by
        rw [hschema t rfl]
        exact congrArg (Scope.mk _) hnext.symm
      rw [Holder.schema, hafter] at hgrows
      exact h.set hdraft hgrows
  | @refuse i s node o e next hdraft hcompile =>
      obtain ⟨uses, hnext, -⟩ := node.compile_declares o ⟨s, σ.next⟩
      rw [hcompile] at hnext
      have hgrows := Scope.useAll_grows (h.proper (List.mem_of_getElem? hdraft)) uses
      exact h.erase i (hgrows.next_le.trans_eq hnext.symm)
  | giveVar hs hv hlevel => exact h.giveVar hs hv _
  | giveTag hs hsub => exact h.giveTag hs hsub

/-- **The invariant holds after any steps.** -/
theorem Reached.valid (h : σ.Reached) : σ.Valid := by
  induction h with
  | start next => exact ⟨nofun, List.nodup_nil, nofun, nofun, nofun⟩
  | step _ hstep ih => exact ih.step hstep

/-- A session in which one tree has been compiled against a new schema. -/
theorem reached_of_compile {node : Node} {o : LayoutOptions} {t : Template} {next later : ℕ}
    (h : node.compile o (.newRoot next) = (.ok t, later)) :
    Reached ⟨[.template t], later, [], []⟩ := by
  have hroot : Reached ⟨[.draft (Scope.newRoot next).schema], next + 1, [], []⟩ :=
    .step (.start next) .newRoot
  exact hroot.step (@Step.compile _ _ 0 _ _ _ _ _ rfl h)

/-- A call on the only schema there is. -/
theorem Reached.call {s s' : Schema} {next next' : ℕ} {vars : List Var} {tags : List Tag}
    (h : Reached ⟨[.draft s], next, vars, tags⟩) (call : SchemaCall)
    (htags : ∀ t ∈ call.tags, t ∈ tags) (hrun : call.run.after ⟨s, next⟩ = ⟨s', next'⟩) :
    Reached ⟨[.draft s'], next', vars, tags⟩ := by
  have hcalled := h.step (@Step.call _ _ 0 s call rfl htags)
  rwa [hrun] at hcalled

end Session

end TrustedHtml
