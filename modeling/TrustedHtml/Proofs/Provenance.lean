import Mathlib.Data.List.ReduceOption
import TrustedHtml.Proofs.Places
import TrustedHtml.Proofs.Wiring
import TrustedHtml.Url.Web

/-!
# The Provenance of Handles

A handle is accepted by the schema whose identity it carries, and identities are what the library
makes of the order in which schemas come into being. What a program that uses the library knows
is something else: it has made some roots, and got a handle from one of them, or from a schema
that is nested in one at some place. This module compares the two. A history is a session in
which roots are numbered for good, the lost ones included, and every handle that was given out is
recorded with the schema that it came from, which is told by a root and a path.

Handles are given out by declarations and searches, which both give what the schema has then, and
are found in the chunks of templates. Whatever became of the schemas since, a schema accepts a
handle exactly if it is the one that the handle came from, and then the handle leads to a place
which is there, and has the name and, for a subsection, the rows that it had.

## Main definitions

* `Handle`: variables and subsections.
* `Origin`, `History`, `History.Step`, `History.Reached`: sessions with the provenance of handles.
* `Schema.Represents`, `Schema.Keeps`: what tables and handles are good for.

## Main results

* `History.Reached.session`: a history is a session.
* `History.Owned.follow`: what a handle tells stays true of the schema it came from, and of no
  other one.
* `History.Reached.provenance_sound`: **handles are accepted where they came from**, and lead there.
-/

namespace TrustedHtml

/-! ### Handles -/

/-- A handle to a variable or to a subsection. -/
inductive Handle where
  | var (v : Var)
  | tag (t : Tag)

namespace Handle

/-- The identity of the schema of which a handle tells. A free variable tells of none. -/
def owner : Handle → Option SchemaId
  | var v => v.schema
  | tag t => some t.parent

/-- A handle to a subsection. -/
def tag? : Handle → Option Tag
  | var _ => none
  | tag t => some t

end Handle

namespace Schema

/-- Whether a handle can be used with a schema. -/
def check (s : Schema) (user : HandleUser) : Handle → Except Misuse Unit
  | .var v => s.checkVar v
  | .tag t => s.checkTag t user

/-- The handles of the variables and subsections that a schema has now. -/
def Gives (s : Schema) : Handle → Prop
  | .var v => v ∈ s.scalars
  | .tag t => ∃ d, (t, d) ∈ s.subsections

/-- What a handle tells is true of a schema, and the handle is one of it. -/
def Bears (s : Schema) : Handle → Prop
  | .var v => v.schema = some s.id ∧ s.Has v
  | .tag t => t.parent = s.id ∧ s.HasRows t

/-- **A handle leads to its place**, which is there: for a variable it has the name of the handle,
and for a subsection the rows have the schema that the handle tells of. -/
def Keeps (s : Schema) : Handle → Prop
  | .var v => ∃ w, s.scalars[v.index]? = some w ∧ w.name = v.name ∧ s.slotLevel v = .ok w.level
  | .tag t => ∃ d, s.subsections[t.index]? = some (t, d) ∧ d.id = t.child ∧ s.child t = .ok d

/-- **A schema represents what was declared**: every variable and every subsection stands where
its handle tells, the schemas of rows tell of the subsection they belong to, and names lead to
those and only to those who have them. -/
structure Represents (s : Schema) : Prop where
  var_at : ∀ (i : ℕ) (v : Var), s.scalars[i]? = some v →
    v.index = i ∧ v.schema = some s.id ∧ v.name.text ≠ ""
  var_names : (s.scalars.map (·.name.text)).Nodup
  var_table : ∀ name v, s.scalar? name = some v ↔
    s.scalars[v.index]? = some v ∧ v.name.text = name
  tag_at : ∀ (i : ℕ) (t : Tag) (d : Schema), s.subsections[i]? = some (t, d) →
    t.index = i ∧ t.parent = s.id ∧ t.child = d.id ∧ t.name.text ≠ "" ∧
      d.nesting = some ⟨s.id, i, t.name⟩
  tag_names : (s.subsections.map (·.1.name.text)).Nodup
  tag_table : ∀ name t, s.subsection? name = some t ↔
    ∃ d, s.subsections[t.index]? = some (t, d) ∧ t.name.text = name

variable {s f : Schema} {handle : Handle}

/-- A handle can be used with the schema of which it tells. -/
theorem check_eq_ok_iff (user : HandleUser) :
    s.check user handle = .ok () ↔ handle.owner = some s.id := by
  cases handle with
  | var v =>
      rw [check, checkVar, Handle.owner]
      cases v.schema with
      | none => simp
      | some id =>
          dsimp only
          rw [Option.some_inj]
          split <;> simp [*]
  | tag t =>
      rw [check, checkTag, Handle.owner, Option.some_inj]
      split <;> simp [*]

/-- A schema bears its handles. -/
theorem WellFormed.bears (h : s.WellFormed) (hgives : s.Gives handle) : s.Bears handle := by
  cases handle with
  | var v =>
      obtain ⟨hat, hattached⟩ := h.coherent.var_of_mem hgives
      exact ⟨hattached, v, hat, rfl⟩
  | tag t =>
      obtain ⟨d, hmem⟩ := hgives
      obtain ⟨hat, hparent⟩ := h.coherent.tag_of_mem hmem
      exact ⟨hparent, d, hat⟩

/-- A handle tells of the schema that bears it. -/
theorem Bears.owner_eq (h : s.Bears handle) : handle.owner = some s.id := by
  cases handle with
  | var v => exact h.1
  | tag t => exact congrArg some h.1

/-- What a schema bears, every later state bears. -/
theorem Bears.extend (h : s.Bears handle) (hext : s.Extends f) : f.Bears handle := by
  cases handle with
  | var v => exact ⟨by rw [h.1, hext.id_eq], h.2.extend hext⟩
  | tag t => exact ⟨by rw [h.1, hext.id_eq], h.2.extend hext⟩

/-- What a schema in order bears leads to its place. -/
theorem Bears.keeps (h : s.Bears handle) (horder : s.InOrder) : s.Keeps handle := by
  cases handle with
  | var v =>
      obtain ⟨-, w, hat, hname⟩ := h
      exact ⟨w, hat, hname, by rw [slotLevel, hat]⟩
  | tag t =>
      obtain ⟨hparent, d, hat⟩ := h
      obtain ⟨hids, -⟩ := horder.linked
      have hcheck : s.check .schema (.tag t) = .ok () :=
        (check_eq_ok_iff .schema).mpr (congrArg some hparent)
      refine ⟨d, hat, (hids _ (List.mem_of_getElem? hat)).symm, ?_⟩
      rw [check] at hcheck
      rw [child, hcheck]
      simp only [hat]
      rfl

/-- What a declaration answers with is among what the schema has then. -/
theorem gives_declare (h : s.WellFormed) (name : SlotName) (level : TrustLevel) :
    (s.declare name level).2.Gives (.var (s.declare name level).1) := by
  rcases h.coherent.declare_cases name level with ⟨v, hv, -, heq⟩ | ⟨-, heq⟩
  · rw [heq]
    exact List.mem_of_getElem? (List.getElem?_set_self (List.getElem?_eq_some_iff.mp hv).1)
  · rw [heq]
    exact List.mem_append_right _ (List.mem_singleton_self _)

/-- Names with different texts are different. -/
theorem nodup_texts {α : Type} {key : α → SlotName} {entries : List α}
    (h : (entries.map key).Nodup) : (entries.map fun a => (key a).text).Nodup := by
  have htexts := h.map (f := SlotName.text) fun a b => SlotName.text_inj.mp
  rwa [List.map_map] at htexts

/-- **A schema in order represents what was declared**, if the schemas of rows tell where they
belong. -/
theorem InOrder.represents (h : s.InOrder) (hbacked : s.Backed) : s.Represents where
  var_at i v hv := by
    obtain ⟨hindex, hattached⟩ := h.wellFormed.coherent.var_at hv
    exact ⟨hindex, hattached, v.name.text_ne⟩
  var_names := nodup_texts h.wellFormed.coherent.var_names
  var_table name v := by
    constructor
    · intro hfind
      obtain ⟨hat, -, hname⟩ := h.wellFormed.of_scalar?_eq hfind
      exact ⟨hat, hname⟩
    · rintro ⟨hat, rfl⟩
      exact h.wellFormed.coherent.scalar?_eq_some_iff.mpr ⟨hat, rfl⟩
  tag_at i t d hsub := by
    obtain ⟨hindex, hparent⟩ := h.wellFormed.coherent.tag_at hsub
    obtain ⟨hids, -⟩ := h.linked
    obtain ⟨hnesting, -⟩ := hbacked
    exact ⟨hindex, hparent, hids _ (List.mem_of_getElem? hsub), t.name.text_ne,
      hnesting i (t, d) hsub⟩
  tag_names := nodup_texts h.wellFormed.coherent.tag_names
  tag_table name t := by
    constructor
    · exact h.wellFormed.of_subsection?_eq
    · rintro ⟨d, hat, rfl⟩
      exact h.wellFormed.subsection?_eq hat

end Schema

/-! ### Handles in programs -/

/-- **A handle occurs in a chunk**, at the end of a path of subsections from the surroundings of
the chunk. -/
inductive Chunk.Mentions : Chunk → List ℕ → Handle → Prop
  | scalar {v : Var} {reflow : Option Reflow} : Mentions (.scalar v reflow) [] (.var v)
  | subsection {t : Tag} {program : Program} : Mentions (.subsection t program) [] (.tag t)
  | rows {t : Tag} {program : Program} {chunk : Chunk} {path : List ℕ} {handle : Handle}
      (hchunk : chunk ∈ program) (h : Mentions chunk path handle) :
      Mentions (.subsection t program) (t.index :: path) handle
  | case {cases : List (Condition × Option Program)} {default : Option Program}
      {condition : Condition} {program : Program} {chunk : Chunk} {path : List ℕ}
      {handle : Handle} (hcase : (condition, some program) ∈ cases) (hchunk : chunk ∈ program)
      (h : Mentions chunk path handle) : Mentions (.switch cases default) path handle
  | otherwise {cases : List (Condition × Option Program)} {program : Program} {chunk : Chunk}
      {path : List ℕ} {handle : Handle} (hchunk : chunk ∈ program)
      (h : Mentions chunk path handle) : Mentions (.switch cases (some program)) path handle

/-- A handle in a wired chunk is one of the schema at the end of its path. -/
theorem Chunk.Mentions.bears {chunk : Chunk} {path : List ℕ} {handle : Handle}
    (h : chunk.Mentions path handle) {s : Schema} (hwired : chunk.Wired s) :
    ∃ d, s.at? path = some d ∧ d.Bears handle := by
  induction h generalizing s with
  | scalar =>
      obtain ⟨⟩ | ⟨hattached, hhas⟩ := hwired
      exact ⟨s, rfl, hattached, hhas⟩
  | subsection =>
      cases hwired with
      | subsection hparent hrows _ _ => exact ⟨s, rfl, hparent, _, hrows⟩
  | rows hchunk _ ih =>
      cases hwired with
      | subsection _ hrows _ hprogram =>
          obtain ⟨d, hd, hbears⟩ := ih (hprogram _ hchunk)
          exact ⟨d, Schema.at?_cons_eq_some.mpr ⟨_, hrows, hd⟩, hbears⟩
  | case hcase hchunk _ ih =>
      cases hwired with
      | switch houtputs _ => exact ih (houtputs _ _ hcase _ hchunk)
  | otherwise hchunk _ ih =>
      cases hwired with
      | switch _ hotherwise => exact ih (hotherwise _ rfl _ hchunk)

/-! ### Histories -/

/-- A schema, by the number of its root and the path that leads to it. -/
structure Origin where
  root : ℕ
  path : List ℕ

/-- What there is after some steps: the roots in the order in which they were made, with nothing
for those that are lost, the number of the next schema, and the handles that were given out, with
the schemas they came from. -/
structure History where
  roots : List (Option Holder)
  next : ℕ
  /-- Free variables come from no schema. -/
  given : List (Option Origin × Handle)

namespace History

/-- The schema that is at a place now. -/
def at? (h : History) (p : Origin) : Option Schema :=
  (h.roots[p.root]?).join.bind (·.schema.at? p.path)

/-- What there is, without numbers and provenance. -/
def session (h : History) : Session :=
  ⟨h.roots.reduceOption, h.next, [], h.given.filterMap (·.2.tag?)⟩

/-- A handle is given out. -/
def give (h : History) (p : Option Origin) (handle : Handle) : History :=
  { h with given := (p, handle) :: h.given }

section

variable [UrlReader]

/-- **One step** of a program. -/
inductive Step (h : History) : History → Prop
  | newRoot : Step h { h with
      roots := h.roots ++ [some (.draft (Scope.newRoot h.next).schema)], next := h.next + 1 }
  /-- A call, which can fail. The handles that it goes through have to be given out before. -/
  | call {i : ℕ} {s : Schema} {call : SchemaCall}
      (hdraft : h.roots[i]? = some (some (.draft s)))
      (htags : ∀ t ∈ call.tags, ∃ p, (p, .tag t) ∈ h.given) : Step h { h with
        roots := h.roots.set i (some (.draft (call.run.after ⟨s, h.next⟩).schema)),
        next := (call.run.after ⟨s, h.next⟩).next }
  | compile {i : ℕ} {s : Schema} {node : Node} {o : LayoutOptions} {t : Template} {next : ℕ}
      (hdraft : h.roots[i]? = some (some (.draft s)))
      (hcompile : node.compile o ⟨s, h.next⟩ = (.ok t, next)) :
      Step h { h with roots := h.roots.set i (some (.template t)), next }
  /-- A tree is refused. Its schema is lost. -/
  | refuse {i : ℕ} {s : Schema} {node : Node} {o : LayoutOptions} {e : Abort} {next : ℕ}
      (hdraft : h.roots[i]? = some (some (.draft s)))
      (hcompile : node.compile o ⟨s, h.next⟩ = (.error e, next)) :
      Step h { h with roots := h.roots.set i none, next }
  /-- A handle is given out by a declaration, by a search or in a list of all there are. -/
  | read {p : Origin} {s : Schema} {handle : Handle} (hs : h.at? p = some s)
      (hgives : s.Gives handle) : Step h (h.give (some p) handle)
  /-- A handle is found in the program of a template. -/
  | mention {i : ℕ} {t : Template} {chunk : Chunk} {path : List ℕ} {handle : Handle}
      (ht : h.roots[i]? = some (some (.template t))) (hchunk : chunk ∈ t.program)
      (hmentions : chunk.Mentions path handle) : Step h (h.give (some ⟨i, path⟩) handle)
  | free (name : SlotName) : Step h (h.give none (.var (.ofName name)))

/-- **What there is after some steps**, from nothing. -/
inductive Reached : History → Prop
  | start (next : ℕ) : Reached ⟨[], next, []⟩
  | step {h h' : History} (hh : Reached h) (hstep : h.Step h') : Reached h'

end

variable {h h' : History} {p q : Origin} {s : Schema} {i : ℕ} {holder after : Holder}

/-! ### Histories are sessions -/

/-- A schema that is at a place belongs to a root. -/
theorem at?_eq_some : h.at? p = some s ↔
    ∃ holder, h.roots[p.root]? = some (some holder) ∧ holder.schema.at? p.path = some s := by
  rw [at?, Option.bind_eq_some_iff]
  simp only [Option.join_eq_some_iff]

/-- Where a root stands if those that are lost are left out. -/
theorem exists_index {roots : List (Option Holder)} (hi : roots[i]? = some (some holder)) :
    ∃ j, roots.reduceOption[j]? = some holder ∧
      (∀ after, (roots.set i (some after)).reduceOption = roots.reduceOption.set j after) ∧
      (roots.set i none).reduceOption = roots.reduceOption.eraseIdx j := by
  induction roots generalizing i with
  | nil => cases hi
  | cons first rest ih =>
      cases i with
      | zero =>
          obtain rfl : first = some holder := Option.some.inj hi
          exact ⟨0, rfl, fun _ => rfl, rfl⟩
      | succ i =>
          obtain ⟨j, hj, hset, hlost⟩ := ih hi
          cases first with
          | none => exact ⟨j, hj, hset, hlost⟩
          | some other =>
              refine ⟨j + 1, hj, fun after => ?_, ?_⟩
              · exact congrArg (other :: ·) (hset after)
              · exact congrArg (other :: ·) hlost

/-- A schema that is at a place is one of those there are. -/
theorem mem_schemas_of_at? (hs : h.at? p = some s) : s ∈ h.session.schemas := by
  obtain ⟨holder, hholder, hs⟩ := at?_eq_some.mp hs
  have hmem : holder ∈ h.session.holders :=
    List.reduceOption_mem_iff.mpr (List.mem_of_getElem? hholder)
  exact Session.mem_schemas_of_mem_family hmem (Schema.mem_family_of_at? hs)

/-- A handle that a schema bears is given out in the session. -/
theorem session_give [UrlReader] (hreached : h.session.Reached) {handle : Handle}
    (hs : s ∈ h.session.schemas) (hbears : s.Bears handle) (p : Option Origin) :
    (h.give p handle).session.Reached := by
  cases handle with
  | var v => exact hreached
  | tag t =>
      obtain ⟨-, d, hat⟩ := hbears
      exact hreached.step (.giveTag hs (List.mem_of_getElem? hat))

/-- What a template mentions, a schema of it bears. -/
theorem bears_of_mentions [UrlReader] (hreached : h.session.Reached) {t : Template}
    (ht : h.roots[i]? = some (some (.template t))) {chunk : Chunk} (hchunk : chunk ∈ t.program)
    {path : List ℕ} {handle : Handle} (hmentions : chunk.Mentions path handle) :
    ∃ d, h.at? ⟨i, path⟩ = some d ∧ d.Bears handle := by
  have hmem : .template t ∈ h.session.holders :=
    List.reduceOption_mem_iff.mpr (List.mem_of_getElem? ht)
  obtain ⟨d, hd, hbears⟩ := hmentions.bears (hreached.wired t hmem chunk hchunk)
  exact ⟨d, at?_eq_some.mpr ⟨_, ht, hd⟩, hbears⟩

/-- What a schema that is there gives, it bears. -/
theorem bears_of_gives [UrlReader] (hreached : h.session.Reached) (hs : h.at? p = some s)
    {handle : Handle} (hgives : s.Gives handle) : s.Bears handle :=
  (hreached.valid.inOrder_of_mem (mem_schemas_of_at? hs)).wellFormed.bears hgives

/-- **A history is a session.** -/
theorem Reached.session [UrlReader] (hh : h.Reached) : h.session.Reached := by
  induction hh with
  | start next => exact .start next
  | @step h h' _ hstep ih =>
      cases hstep with
      | newRoot =>
          rw [History.session, List.reduceOption_append]
          exact ih.step .newRoot
      | call hdraft htags =>
          obtain ⟨j, hj, hset, -⟩ := exists_index hdraft
          rw [History.session, hset]
          refine ih.step (.call hj fun t ht => ?_)
          obtain ⟨p, hp⟩ := htags t ht
          exact List.mem_filterMap.mpr ⟨_, hp, rfl⟩
      | compile hdraft hcompile =>
          obtain ⟨j, hj, hset, -⟩ := exists_index hdraft
          rw [History.session, hset]
          exact ih.step (.compile hj hcompile)
      | refuse hdraft hcompile =>
          obtain ⟨j, hj, -, hlost⟩ := exists_index hdraft
          rw [History.session, hlost]
          exact ih.step (.refuse hj hcompile)
      | read hs hgives =>
          exact session_give ih (mem_schemas_of_at? hs) (bears_of_gives ih hs hgives) _
      | mention ht hchunk hmentions =>
          obtain ⟨d, hd, hbears⟩ := bears_of_mentions ih ht hchunk hmentions
          exact session_give ih (mem_schemas_of_at? hd) hbears _
      | free name => exact ih

/-! ### What a step does to places -/

/-- **A place is known**: there is a schema, or its root is lost. -/
def Knows (h : History) (p : Origin) : Prop :=
  h.roots[p.root]? = some none ∨ ∃ s, h.at? p = some s

/-- **Later, every schema is a later state of the one at its place**, or it is new, and so is the
place. What schemas of rows told stays true, and no place is forgotten. -/
structure Follows (h h' : History) : Prop where
  next_le : h.next ≤ h'.next
  knows : ∀ p, h.Knows p → h'.Knows p
  places : ∀ p d, h'.at? p = some d →
    (∃ c, h.at? p = some c ∧ c.Extends d) ∨ (¬ h.Knows p ∧ h.next ≤ d.id.number)
  backed : (∀ p c, h.at? p = some c → c.Backed) → ∀ p d, h'.at? p = some d → d.Backed

/-- A place at another root than the one that is replaced. -/
theorem at?_set_ne {o : Option Holder} {next : ℕ} (hp : p.root ≠ i) :
    at? { h with roots := h.roots.set i o, next } p = h.at? p := by
  rw [at?, at?, List.getElem?_set_ne hp.symm]

/-- A place at the root that is replaced. -/
theorem at?_set_self {o : Option Holder} {next : ℕ} {path : List ℕ}
    (hi : h.roots[i]? = some (some holder)) :
    at? { h with roots := h.roots.set i o, next } ⟨i, path⟩ = o.bind (·.schema.at? path) := by
  rw [at?, List.getElem?_set_self (List.getElem?_eq_some_iff.mp hi).1]
  rfl

/-- A root is replaced by a later state. -/
theorem follows_set {next : ℕ} (hi : h.roots[i]? = some (some holder))
    (hgrows : Scope.Grows ⟨holder.schema, h.next⟩ ⟨after.schema, next⟩)
    (hkeeps : holder.schema.KeepsBacked after.schema) :
    h.Follows { h with roots := h.roots.set i (some after), next } where
  next_le := hgrows.next_le
  knows p hp := by
    obtain ⟨root, path⟩ := p
    by_cases hroot : root = i
    · subst hroot
      rcases hp with hlost | ⟨c, hc⟩
      · rw [hi] at hlost
        cases hlost
      · rw [at?, hi] at hc
        obtain ⟨d, hd, -⟩ := hgrows.grown.at? hc
        exact .inr ⟨d, by rw [at?_set_self hi]; exact hd⟩
    · refine hp.imp (fun hlost => ?_) fun hc => ?_
      · exact (List.getElem?_set_ne (Ne.symm hroot)).trans hlost
      · rwa [at?_set_ne hroot]
  places p d hd := by
    obtain ⟨root, path⟩ := p
    by_cases hroot : root = i
    · subst hroot
      rw [at?_set_self hi] at hd
      have hbefore : h.at? ⟨root, path⟩ = holder.schema.at? path := by
        rw [at?, hi]
        rfl
      rw [Knows, hbefore, hi]
      refine (hgrows.at?_cases hd).imp_right ?_
      rintro ⟨hfree, hnew⟩
      rw [hfree]
      refine ⟨?_, hnew⟩
      rintro (hlost | ⟨c, hc⟩)
      · cases hlost
      · cases hc
    · rw [at?_set_ne hroot] at hd
      exact .inl ⟨d, hd, .refl d⟩
  backed hbacked p d hd := by
    obtain ⟨root, path⟩ := p
    by_cases hroot : root = i
    · subst hroot
      rw [at?_set_self hi] at hd
      have hbefore : holder.schema.Backed :=
        hbacked ⟨root, []⟩ _ (at?_eq_some.mpr ⟨holder, hi, rfl⟩)
      exact (hkeeps.backed hbefore).at? hd
    · rw [at?_set_ne hroot] at hd
      exact hbacked _ _ hd

/-- A root is lost. -/
theorem follows_lose {next : ℕ} (hi : h.roots[i]? = some (some holder)) (hnext : h.next ≤ next) :
    h.Follows { h with roots := h.roots.set i none, next } := by
  have hold : ∀ p d, at? { h with roots := h.roots.set i none, next } p = some d →
      h.at? p = some d := by
    intro p d hd
    obtain ⟨root, path⟩ := p
    by_cases hroot : root = i
    · subst hroot
      rw [at?_set_self hi] at hd
      cases hd
    · rwa [at?_set_ne hroot] at hd
  refine ⟨hnext, fun p hp => ?_, fun p d hd => .inl ⟨d, hold p d hd, .refl d⟩,
    fun hbacked p d hd => hbacked p d (hold p d hd)⟩
  by_cases hroot : p.root = i
  · subst hroot
    exact .inl (List.getElem?_set_self (List.getElem?_eq_some_iff.mp hi).1)
  · refine hp.imp (fun hlost => ?_) fun hc => ?_
    · exact (List.getElem?_set_ne (Ne.symm hroot)).trans hlost
    · rwa [at?_set_ne hroot]

/-- A root is made. -/
theorem follows_newRoot (h : History) : h.Follows { h with
    roots := h.roots ++ [some (.draft (Scope.newRoot h.next).schema)], next := h.next + 1 } := by
  have hcases : ∀ p d, at? { h with
      roots := h.roots ++ [some (.draft (Scope.newRoot h.next).schema)], next := h.next + 1 } p =
        some d → h.at? p = some d ∨
          (h.roots[p.root]? = none ∧ d = (Scope.newRoot h.next).schema) := by
    intro p d hd
    obtain ⟨holder, hholder, hd⟩ := at?_eq_some.mp hd
    rcases Schema.getElem?_concat_cases hholder with hold | ⟨hroot, hnew⟩
    · exact .inl (at?_eq_some.mpr ⟨holder, hold, hd⟩)
    · obtain rfl := Option.some.inj hnew
      refine .inr ⟨?_, List.mem_singleton.mp (Schema.mem_family_of_at? hd)⟩
      rw [hroot]
      exact List.getElem?_eq_none (le_refl _)
  have hkept : ∀ {j : ℕ} {o : Option Holder}, h.roots[j]? = some o →
      (h.roots ++ [some (.draft (Scope.newRoot h.next).schema)])[j]? = some o := by
    intro j o ho
    rw [List.getElem?_append_left (List.getElem?_eq_some_iff.mp ho).1]
    exact ho
  refine ⟨Nat.le_succ _, fun p hp => ?_, fun p d hd => ?_, fun hbacked p d hd => ?_⟩
  · refine hp.imp hkept ?_
    rintro ⟨c, hc⟩
    obtain ⟨holder, hholder, hc⟩ := at?_eq_some.mp hc
    exact ⟨c, at?_eq_some.mpr ⟨holder, hkept hholder, hc⟩⟩
  · refine (hcases p d hd).imp (fun hold => ⟨d, hold, .refl d⟩) ?_
    rintro ⟨hfree, rfl⟩
    refine ⟨?_, le_refl h.next⟩
    rw [Knows, at?, hfree]
    rintro (hlost | ⟨c, hc⟩)
    · cases hlost
    · cases hc
  · rcases hcases p d hd with hold | ⟨-, rfl⟩
    · exact hbacked p d hold
    · exact .intro nofun nofun

/-- A schema is followed by itself, whatever is given out. -/
theorem follows_give (h : History) (p : Option Origin) (handle : Handle) :
    h.Follows (h.give p handle) :=
  ⟨le_refl _, fun _ hp => hp, fun _ d hd => .inl ⟨d, hd, .refl d⟩, fun hbacked => hbacked⟩

/-- A call lets a root grow, and does not change what schemas of rows tell. -/
theorem follows_call [UrlReader] (hreached : h.session.Reached)
    (hdraft : h.roots[i]? = some (some (.draft s))) {call : SchemaCall}
    (htags : ∀ t ∈ call.tags, ∃ p, (p, .tag t) ∈ h.given) : h.Follows { h with
      roots := h.roots.set i (some (.draft (call.run.after ⟨s, h.next⟩).schema)),
      next := (call.run.after ⟨s, h.next⟩).next } := by
  have hmem : .draft s ∈ h.session.holders :=
    List.reduceOption_mem_iff.mpr (List.mem_of_getElem? hdraft)
  have htold : ∀ t ∈ call.tags, ∀ d ∈ s.family, d.id = t.parent → d.HasRows t := by
    intro t ht d hd hid
    obtain ⟨p, hp⟩ := htags t ht
    have hgiven : t ∈ h.session.tags := List.mem_filterMap.mpr ⟨_, hp, rfl⟩
    exact (hreached.valid.tags t hgiven).2 d (Session.mem_schemas_of_mem_family hmem hd) hid
  have hproper := hreached.valid.proper hmem
  exact follows_set hdraft (SchemaCall.run_grows hproper htold)
    (SchemaCall.run_keepsBacked (s := ⟨s, h.next⟩) hproper.inOrder.wellFormed htold)

/-- Compiling lets a root grow, and does not change what schemas of rows tell. -/
theorem follows_compile [UrlReader] (hreached : h.session.Reached) {node : Node}
    {o : LayoutOptions} {t : Template} {next : ℕ}
    (hdraft : h.roots[i]? = some (some (.draft s)))
    (hcompile : node.compile o ⟨s, h.next⟩ = (.ok t, next)) :
    h.Follows { h with roots := h.roots.set i (some (.template t)), next } := by
  have hproper : Scope.Proper ⟨s, h.next⟩ :=
    hreached.valid.proper (List.reduceOption_mem_iff.mpr (List.mem_of_getElem? hdraft))
  obtain ⟨uses, hnext, hschema⟩ := node.compile_declares o ⟨s, h.next⟩
  rw [hcompile] at hnext hschema
  have hafter : Scope.useAll ⟨s, h.next⟩ uses = ⟨t.schema, next⟩ := by
    rw [hschema t rfl]
    exact congrArg (Scope.mk _) hnext.symm
  have hgrows := Scope.useAll_grows hproper uses
  have hkeeps := Scope.useAll_keepsBacked hproper.inOrder.wellFormed uses
  rw [hafter] at hgrows hkeeps
  exact follows_set hdraft hgrows hkeeps

/-- A tree that is refused still takes identities. -/
theorem follows_refuse [UrlReader] (hreached : h.session.Reached) {node : Node}
    {o : LayoutOptions} {e : Abort} {next : ℕ} (hdraft : h.roots[i]? = some (some (.draft s)))
    (hcompile : node.compile o ⟨s, h.next⟩ = (.error e, next)) :
    h.Follows { h with roots := h.roots.set i none, next } := by
  have hproper : Scope.Proper ⟨s, h.next⟩ :=
    hreached.valid.proper (List.reduceOption_mem_iff.mpr (List.mem_of_getElem? hdraft))
  obtain ⟨uses, hnext, -⟩ := node.compile_declares o ⟨s, h.next⟩
  rw [hcompile] at hnext
  exact follows_lose hdraft ((Scope.useAll_grows hproper uses).next_le.trans_eq hnext.symm)

/-! ### Where handles are accepted -/

/-- What is in the roots that are not lost. -/
theorem flatMap_reduceOption {β : Type} (f : Holder → List β) (roots : List (Option Holder)) :
    roots.reduceOption.flatMap f = roots.flatMap fun root => root.elim [] f := by
  induction roots with
  | nil => rfl
  | cons first rest ih =>
      cases first with
      | none => exact ih
      | some holder => exact congrArg (f holder ++ ·) ih

/-- **There is one identity for each place.** -/
theorem eq_of_at?_id_eq (hvalid : h.session.Valid) {s' : Schema} (hs : h.at? p = some s)
    (hs' : h.at? q = some s') (hid : s.id = s'.id) : p = q := by
  obtain ⟨root, path⟩ := p
  obtain ⟨root', path'⟩ := q
  obtain ⟨holder, hholder, hs⟩ := at?_eq_some.mp hs
  obtain ⟨holder', hholder', hs'⟩ := at?_eq_some.mp hs'
  have hmem : s.id ∈ holder.schema.ids := Schema.mem_ids_of_mem (Schema.mem_family_of_at? hs)
  have hmem' : s'.id ∈ holder'.schema.ids := Schema.mem_ids_of_mem (Schema.mem_family_of_at? hs')
  have hdistinct := hvalid.distinct
  rw [session, flatMap_reduceOption] at hdistinct
  obtain rfl : root = root' :=
    index_eq_of_nodup_flatMap hdistinct hholder hholder' hmem (hid ▸ hmem')
  obtain rfl := Option.some.inj (Option.some.inj (hholder.symm.trans hholder'))
  have hholders := List.reduceOption_mem_iff.mpr (List.mem_of_getElem? hholder)
  exact congrArg (Origin.mk root)
    (Schema.eq_of_at?_id_eq (hvalid.proper hholders).distinct hs hs' hid)

/-- **A handle is one of the schema at a place**: it tells of an identity that was given out, which
is the identity of the schema that is there now, and of no other one. -/
structure Owned (h : History) (p : Origin) (handle : Handle) : Prop where
  known : h.Knows p
  owner : ∃ id, handle.owner = some id ∧ id.number < h.next ∧
    ∀ q s, h.at? q = some s → (s.id = id ↔ q = p)
  bears : ∀ s, h.at? p = some s → s.Bears handle

/-- A handle that a schema bears is one of the schema at its place. -/
theorem owned_of_bears (hvalid : h.session.Valid) (hs : h.at? p = some s) {handle : Handle}
    (hbears : s.Bears handle) : h.Owned p handle := by
  refine ⟨.inr ⟨s, hs⟩, ⟨s.id, hbears.owner_eq, hvalid.id_lt (mem_schemas_of_at? hs), ?_⟩, ?_⟩
  · intro q d hd
    constructor
    · exact eq_of_at?_id_eq hvalid hd hs
    · rintro rfl
      rw [Option.some.inj (hd.symm.trans hs)]
  · intro d hd
    rwa [Option.some.inj (hd.symm.trans hs)]

/-- **A handle stays one of the schema at its place.** -/
theorem Owned.follow {handle : Handle} (howned : h.Owned p handle) (hfollows : h.Follows h') :
    h'.Owned p handle := by
  obtain ⟨hknown, ⟨id, howner, hlt, hid⟩, hbears⟩ := howned
  refine ⟨hfollows.knows p hknown, ⟨id, howner, hlt.trans_le hfollows.next_le, ?_⟩, ?_⟩
  · intro q d hd
    rcases hfollows.places q d hd with ⟨c, hc, hext⟩ | ⟨hunknown, hnew⟩
    · rw [hext.id_eq]
      exact hid q c hc
    · -- A new schema has a new identity, at a place that no handle came from.
      constructor
      · rintro rfl
        exact absurd hlt (Nat.not_lt.mpr hnew)
      · rintro rfl
        exact absurd hknown hunknown
  · intro d hd
    rcases hfollows.places p d hd with ⟨c, hc, hext⟩ | ⟨hunknown, -⟩
    · exact (hbears c hc).extend hext
    · exact absurd hknown hunknown

/-- **The invariant of histories**, besides that of the session. -/
structure Tracked (h : History) : Prop where
  backed : ∀ p s, h.at? p = some s → s.Backed
  owned : ∀ p handle, (some p, handle) ∈ h.given → h.Owned p handle
  free : ∀ handle, (none, handle) ∈ h.given → handle.owner = none

/-- A step that gives out no handle. -/
theorem Tracked.follow (ht : h.Tracked) (hfollows : h.Follows h') (hgiven : h'.given = h.given) :
    h'.Tracked := by
  refine ⟨hfollows.backed ht.backed, fun p handle hmem => ?_, fun handle hmem => ?_⟩
  · rw [hgiven] at hmem
    exact (ht.owned p handle hmem).follow hfollows
  · rw [hgiven] at hmem
    exact ht.free handle hmem

/-- A handle of a schema is given out. -/
theorem Tracked.give (ht : h.Tracked) {handle : Handle} (howned : h.Owned p handle) :
    (h.give (some p) handle).Tracked := by
  refine ⟨ht.backed, fun q other hmem => ?_, fun other hmem => ?_⟩
  · rcases List.mem_cons.mp hmem with heq | hmem
    · obtain ⟨rfl, rfl⟩ : q = p ∧ other = handle := by simpa using heq
      exact howned.follow (h.follows_give _ _)
    · exact (ht.owned q other hmem).follow (h.follows_give _ _)
  · rcases List.mem_cons.mp hmem with heq | hmem
    · cases heq
    · exact ht.free other hmem

/-- A free variable is given out. -/
theorem Tracked.giveFree (ht : h.Tracked) (name : SlotName) :
    (h.give none (.var (.ofName name))).Tracked := by
  refine ⟨ht.backed, fun q other hmem => ?_, fun other hmem => ?_⟩
  · rcases List.mem_cons.mp hmem with heq | hmem
    · cases heq
    · exact (ht.owned q other hmem).follow (h.follows_give _ _)
  · rcases List.mem_cons.mp hmem with heq | hmem
    · cases heq
      rfl
    · exact ht.free other hmem

section

variable [UrlReader]

/-- **One step keeps the invariant.** -/
theorem Tracked.step (ht : h.Tracked) (hreached : h.session.Reached) (hstep : h.Step h') :
    h'.Tracked := by
  cases hstep with
  | newRoot => exact ht.follow h.follows_newRoot rfl
  | call hdraft htags => exact ht.follow (follows_call hreached hdraft htags) rfl
  | compile hdraft hcompile => exact ht.follow (follows_compile hreached hdraft hcompile) rfl
  | refuse hdraft hcompile => exact ht.follow (follows_refuse hreached hdraft hcompile) rfl
  | read hs hgives =>
      exact ht.give (owned_of_bears hreached.valid hs (bears_of_gives hreached hs hgives))
  | mention hroot hchunk hmentions =>
      obtain ⟨d, hd, hbears⟩ := bears_of_mentions hreached hroot hchunk hmentions
      exact ht.give (owned_of_bears hreached.valid hd hbears)
  | free name => exact ht.giveFree name

/-- **The invariant holds after any steps.** -/
theorem Reached.tracked (hh : h.Reached) : h.Tracked := by
  induction hh with
  | start next => exact ⟨nofun, nofun, nofun⟩
  | step hh hstep ih => exact ih.step hh.session hstep

end

/-- **Tables and handles are sound**: every schema represents what was declared, no two schemas
have the same identity, and every handle that was given out is accepted by the schema that it
came from and by no other one, and leads to its place there. -/
structure Sound (h : History) : Prop where
  represents : ∀ p s, h.at? p = some s → s.Represents
  distinct : ∀ p q s s', h.at? p = some s → h.at? q = some s' → s.id = s'.id → p = q
  accepts : ∀ p handle, (p, handle) ∈ h.given → ∀ q s, h.at? q = some s →
    ∀ user, s.check user handle = .ok () ↔ p = some q
  keeps : ∀ p handle, (some p, handle) ∈ h.given → ∀ s, h.at? p = some s → s.Keeps handle

/-- **Handles are accepted where they came from**, and lead there, after any steps. -/
theorem Reached.provenance_sound [UrlReader] (hh : h.Reached) : h.Sound := by
  have hvalid := hh.session.valid
  obtain ⟨hbacked, howned, hfree⟩ := hh.tracked
  have horder : ∀ p s, h.at? p = some s → s.InOrder := fun p s hs =>
    hvalid.inOrder_of_mem (mem_schemas_of_at? hs)
  refine ⟨fun p s hs => (horder p s hs).represents (hbacked p s hs),
    fun p q s s' => eq_of_at?_id_eq hvalid, fun p handle hmem q s hs user => ?_,
    fun p handle hmem s hs => ((howned p handle hmem).bears s hs).keeps (horder p s hs)⟩
  rw [Schema.check_eq_ok_iff]
  cases p with
  | none =>
      rw [hfree handle hmem]
      exact ⟨nofun, nofun⟩
  | some p =>
      obtain ⟨id, howner, -, hid⟩ := (howned p handle hmem).owner
      rw [howner, Option.some_inj, Option.some_inj, eq_comm, hid q s hs, eq_comm]

/-! ### Two roots -/

/-- A call on one of the roots. -/
theorem Reached.call [UrlReader] {s' : Schema} {next : ℕ} (hh : h.Reached)
    (hdraft : h.roots[i]? = some (some (.draft s))) (call : SchemaCall)
    (htags : ∀ t ∈ call.tags, ∃ p, (p, .tag t) ∈ h.given)
    (hrun : call.run.after ⟨s, h.next⟩ = ⟨s', next⟩) :
    Reached { h with roots := h.roots.set i (some (.draft s')), next } := by
  have hcalled := hh.step (.call hdraft htags)
  rwa [hrun] at hcalled

/-- The subsection of the first root. -/
def trackTag : Tag :=
  ⟨0, ⟨"tracks", by decide⟩, ⟨1⟩, ⟨3⟩⟩

/-- The variable of its rows, as it is first declared. -/
def trackTitle : Var :=
  ⟨0, ⟨"song", by decide⟩, .untrusted, some ⟨3⟩⟩

/-- The schema of the rows with the variable. -/
def trackRow (level : TrustLevel) : Schema :=
  ⟨⟨3⟩, false, some ⟨⟨1⟩, 0, ⟨"tracks", by decide⟩⟩, [{ trackTitle with level }], []⟩

/-- The second root, with a variable of the same name. -/
def artistPage : Schema :=
  ⟨⟨2⟩, false, none, [⟨0, ⟨"song", by decide⟩, .untrusted, some ⟨2⟩⟩], []⟩

/-- Two roots, after more has been required of the variable in the rows of the first one. -/
def albums : History where
  roots := [some (.draft ⟨⟨1⟩, false, none, [], [(trackTag, trackRow .htmlSafe)]⟩),
    some (.draft artistPage)]
  next := 4
  given := [(some ⟨0, [0]⟩, .var trackTitle), (some ⟨0, []⟩, .tag trackTag)]

/-- How `albums` comes about. -/
theorem reached_albums : albums.Reached := by
  have hroots : Reached ⟨[some (.draft (.root ⟨1⟩)), some (.draft (.root ⟨2⟩))], 3, []⟩ :=
    ((Reached.start 1).step .newRoot).step .newRoot
  have hartist : Reached ⟨[some (.draft (.root ⟨1⟩)), some (.draft artistPage)], 3, []⟩ :=
    hroots.call (i := 1) rfl (.declare "song" .untrusted) nofun rfl
  have htracks : Reached ⟨[some (.draft ⟨⟨1⟩, false, none, [],
      [(trackTag, { trackRow .untrusted with scalars := [] })]⟩), some (.draft artistPage)], 4,
      []⟩ :=
    hartist.call (i := 0) rfl (.declareSubsection "tracks") nofun rfl
  have htag := htracks.step
    (@Step.read _ _ ⟨0, []⟩ _ (.tag trackTag) rfl ⟨_, List.mem_cons_self⟩)
  have hgiven : ∀ t ∈ [trackTag], ∃ p, (p, Handle.tag t) ∈ [(some (⟨0, []⟩ : Origin),
      Handle.tag trackTag)] := fun t ht => by
    rw [List.mem_singleton.mp ht]
    exact ⟨_, List.mem_cons_self⟩
  have htitle : Reached ⟨[some (.draft ⟨⟨1⟩, false, none, [], [(trackTag, trackRow .untrusted)]⟩),
      some (.draft artistPage)], 4, [(some ⟨0, []⟩, .tag trackTag)]⟩ :=
    htag.call (i := 0) rfl (.inChild trackTag (.declare "song" .untrusted)) hgiven rfl
  have hvar := htitle.step
    (@Step.read _ _ ⟨0, [0]⟩ _ (.var trackTitle) rfl List.mem_cons_self)
  have hlater : ∀ t ∈ [trackTag], ∃ p, (p, Handle.tag t) ∈ albums.given := fun t ht => by
    rw [List.mem_singleton.mp ht]
    exact ⟨_, List.mem_cons_of_mem _ List.mem_cons_self⟩
  exact hvar.call (i := 0) rfl (.inChild trackTag (.declare "song" .htmlSafe)) hlater rfl

/-- The variable of the tracks is accepted by the schema of the tracks only, which requires more
of it by now than the handle tells. -/
theorem provenance_sound_albums : albums.Sound ∧
    albums.at? ⟨0, [0]⟩ = some (trackRow .htmlSafe) ∧
    (trackRow .htmlSafe).checkVar trackTitle = .ok () ∧
    (trackRow .htmlSafe).slotLevel trackTitle = .ok .htmlSafe ∧
    artistPage.checkVar trackTitle ≠ .ok () := by
  have hsound := reached_albums.provenance_sound
  have hgiven : (some ⟨0, [0]⟩, Handle.var trackTitle) ∈ albums.given := List.mem_cons_self
  refine ⟨hsound, rfl, ?_, rfl, fun haccepts => ?_⟩
  · exact (hsound.accepts _ _ hgiven ⟨0, [0]⟩ _ rfl .valueSet).mpr rfl
  · cases (hsound.accepts _ _ hgiven ⟨1, []⟩ artistPage rfl .valueSet).mp haccepts

end History

end TrustedHtml
