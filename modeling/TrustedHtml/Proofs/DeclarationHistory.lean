import TrustedHtml.Proofs.DeclaredSchema
import TrustedHtml.Proofs.Provenance
import TrustedHtml.Proofs.Settling

/-!
# The History of Declarations

Variables and subsections are declared on a schema one after the other, some of them more than
once, with handles of the same schema, of other ones, or of none. What the schema is in the end
depends on the history in two ways only. The level of a name is the join of what it was and of all
that was declared for it, so it does not depend on the order at all. And names have their places
in the order in which they were first declared, behind those that were there before.

So a handle can be behind, but not wrong: it tells the level that was required when it was given
out, and if that is joined with what is required later, nothing more is required. And a history
that is repeated changes nothing.

An empty name is refused, and the schema stays as it is.

## Main definitions

* `Declaration`, `Declaration.make`, `Scope.declareAll`: declarations and their histories.
* `Declaration.required`: what a history requires of a name.
* `Scope.Records`: what a history leaves.

## Main results

* `Declaration.required_congr`: the order of declarations does not matter to levels.
* `Scope.declareAll_of_extends`: a history that is repeated changes nothing.
* `Scope.declareAll_records`: **levels are joined, places are kept, and handles are behind.**
-/

namespace TrustedHtml

/-! ### Declarations -/

/-- A declaration of a variable or a subsection. -/
inductive Declaration where
  | scalar (name : String) (level : TrustLevel)
  | attach (v : Var) (extra : TrustLevel)
  | subsection (name : String)

namespace Declaration

/-- Make a declaration, which answers with a handle. -/
def make : Declaration → Declaring Handle
  | scalar name level => do return .var (← Declaring.scalar (← Declaring.varName name) level)
  | attach v extra => do return .var (← Declaring.attach v extra)
  | subsection name => do
      let (t, _) ← Declaring.inSubsection (← Declaring.subsectionName name) (pure ())
      return .tag t

/-- The name that is declared. -/
def name : Declaration → String
  | scalar name _ => name
  | attach v _ => v.name.text
  | subsection name => name

/-- The variable that is declared, if one is. -/
def scalarName? : Declaration → Option SlotName
  | scalar name _ => SlotName.ofString? name
  | attach v _ => some v.name
  | subsection _ => none

/-- The subsection that is declared, if one is. -/
def subsectionName? : Declaration → Option SlotName
  | scalar _ _ => none
  | attach _ _ => none
  | subsection name => SlotName.ofString? name

/-- What a declaration requires of the variable of the given name; `⊥` if it is of another one, or
refused. A handle is declared at the level that it tells, joined with a further one. -/
def requires (name : String) : Declaration → WithBot TrustLevel
  | scalar slot level => if slot = name ∧ slot ≠ "" then level else ⊥
  | attach v extra => if v.name.text = name then ((v.level ⊔ extra : TrustLevel) : WithBot _) else ⊥
  | subsection _ => ⊥

/-- What declarations together require. -/
def required (name : String) (ds : List Declaration) : WithBot TrustLevel :=
  ds.foldr (fun d level => d.requires name ⊔ level) ⊥

/-- What is declared, if it is not refused. -/
def use? : Declaration → Option Use
  | scalar name level => (SlotName.ofString? name).map (.scalar · level)
  | attach v extra => some (.scalar v.name (v.level ⊔ extra))
  | subsection name => (SlotName.ofString? name).map (.subsection · [])

variable {ds ds' : List Declaration} {name : String}

/-! ### Levels -/

/-- What is above all that declarations require. -/
theorem required_le_iff {level : WithBot TrustLevel} :
    required name ds ≤ level ↔ ∀ d ∈ ds, d.requires name ≤ level := by
  induction ds with
  | nil => simp [required]
  | cons d rest ih =>
      rw [required, List.foldr_cons, sup_le_iff, List.forall_mem_cons]
      exact and_congr_right fun _ => ih

/-- **The order of declarations does not matter** to levels, nor how often they are made. -/
theorem required_congr (h : ∀ d, d ∈ ds ↔ d ∈ ds') : required name ds = required name ds' := by
  refine le_antisymm (required_le_iff.mpr fun d hd => ?_) (required_le_iff.mpr fun d hd => ?_)
  · exact required_le_iff.mp (le_refl _) d ((h d).mp hd)
  · exact required_le_iff.mp (le_refl _) d ((h d).mpr hd)

/-- What a declaration requires is what it uses. -/
theorem requires_eq (d : Declaration) (name : String) :
    d.requires name = Use.levelAtAll name [] d.use?.toList := by
  cases d with
  | scalar slot level =>
      rw [requires, use?, SlotName.ofString?]
      by_cases hempty : slot = ""
      · rw [dif_pos hempty, if_neg fun h => h.2 hempty]
        rfl
      · rw [dif_neg hempty]
        simp [Use.levelAtAll, Use.levelAt, hempty]
  | attach v extra => simp [requires, use?, Use.levelAtAll, Use.levelAt]
  | subsection slot =>
      rw [requires, use?]
      cases SlotName.ofString? slot <;> simp [Use.levelAtAll, Use.levelAt]

/-- What declarations require is what they use. -/
theorem required_eq (ds : List Declaration) (name : String) :
    required name ds = Use.levelAtAll name [] (ds.filterMap use?) := by
  induction ds with
  | nil => rfl
  | cons d rest ih =>
      rw [required, List.foldr_cons, ← required, requires_eq, ih]
      cases huse : d.use? with
      | none =>
          rw [List.filterMap_cons_none huse]
          exact bot_sup_eq _
      | some u =>
          rw [List.filterMap_cons_some huse]
          exact congrArg (· ⊔ _) (sup_bot_eq _)

/-! ### Names -/

/-- The variables that are declared are those that are used. -/
theorem filterMap_scalarName? (ds : List Declaration) :
    ds.filterMap scalarName? = (Use.scalars (ds.filterMap use?)).map (·.1) := by
  rw [Use.scalars, List.filterMap_filterMap, List.map_filterMap]
  refine List.filterMap_congr fun d _ => ?_
  cases d with
  | scalar slot level =>
      rw [scalarName?, use?]
      cases SlotName.ofString? slot <;> rfl
  | attach v extra => rfl
  | subsection slot =>
      rw [scalarName?, use?]
      cases SlotName.ofString? slot <;> rfl

/-- The subsections that are declared are those that are used. -/
theorem filterMap_subsectionName? (ds : List Declaration) :
    ds.filterMap subsectionName? = Use.subsections (ds.filterMap use?) := by
  rw [Use.subsections, List.filterMap_filterMap]
  refine List.filterMap_congr fun d _ => ?_
  cases d with
  | scalar slot level =>
      rw [subsectionName?, use?]
      cases SlotName.ofString? slot <;> rfl
  | attach v extra => rfl
  | subsection slot =>
      rw [subsectionName?, use?]
      cases SlotName.ofString? slot <;> rfl

/-! ### Making declarations -/

/-- A text that is no name is empty. -/
theorem eq_empty_of_ofString?_eq_none {name : String} (h : SlotName.ofString? name = none) :
    name = "" := by
  rw [SlotName.ofString?] at h
  split at h
  · assumption
  · cases h

/-- Declaring a subsection without a declaration for its rows. -/
theorem inSubsection_pure {s : Scope} (h : s.schema.WellFormed) (name : SlotName) :
    Declaring.inSubsection name (pure ()) s =
      .ok ((s.declareSubsection name).1.1, ()) (s.declareSubsection name).2 := by
  obtain ⟨hsub, -⟩ := Scope.getElem?_declareSubsection h name
  exact congrArg (fun schema => EStateM.Result.ok (_, ()) (Scope.mk schema _))
    (Schema.setChild_self hsub)

/-- **Making a declaration** answers with the handle of the variable or the subsection that is
declared, or refuses an empty name and changes nothing. -/
theorem make_cases {s : Scope} (h : s.schema.WellFormed) (d : Declaration) :
    (∃ name level, d.use? = some (.scalar name level) ∧ d.scalarName? = some name ∧
      d.make s = .ok (.var (s.schema.declare name level).1)
        ⟨(s.schema.declare name level).2, s.next⟩) ∨
    (∃ name, d.use? = some (.subsection name []) ∧ d.subsectionName? = some name ∧
      d.make s = .ok (.tag (s.declareSubsection name).1.1) (s.declareSubsection name).2) ∨
    (d.use? = none ∧ d.name = "" ∧ ∃ m, d.make s = .error (.misuse m) s) := by
  cases d with
  | scalar name level =>
      rw [use?, scalarName?, make, Declaring.varName]
      cases hslot : SlotName.ofString? name with
      | none => exact .inr (.inr ⟨rfl, eq_empty_of_ofString?_eq_none hslot, _, rfl⟩)
      | some slot => exact .inl ⟨slot, level, rfl, rfl, rfl⟩
  | attach v extra => exact .inl ⟨v.name, v.level ⊔ extra, rfl, rfl, rfl⟩
  | subsection name =>
      rw [use?, subsectionName?, make, Declaring.subsectionName]
      cases hslot : SlotName.ofString? name with
      | none => exact .inr (.inr ⟨rfl, eq_empty_of_ofString?_eq_none hslot, _, rfl⟩)
      | some slot =>
          refine .inr (.inl ⟨slot, rfl, rfl, ?_⟩)
          dsimp only
          rw [pure_bind]
          simp only [Bind.bind, EStateM.bind, inSubsection_pure h]
          rfl

/-- What a declaration leaves is what its use leaves. -/
theorem after_make {s : Scope} (h : s.schema.WellFormed) (d : Declaration) :
    d.make.after s = s.useAll d.use?.toList := by
  rcases d.make_cases h with ⟨name, level, huse, -, hmake⟩ | ⟨name, huse, -, hmake⟩ |
    ⟨huse, -, m, hmake⟩ <;> rw [Declaring.after, hmake, huse]
  · rfl
  · have hsub := inSubsection_pure h name
    exact (congrArg (fun r => Declaring.after (fun _ => r) s) hsub).symm
  · rfl

/-- A declaration lets a schema grow. -/
theorem after_make_wellFormed {s : Scope} (h : s.schema.WellFormed) (d : Declaration) :
    (d.make.after s).schema.WellFormed ∧ s.schema.Extends (d.make.after s).schema := by
  rw [after_make h]
  exact Scope.useAll_wellFormed h _

/-- **A declaration that is repeated changes nothing**, whatever was declared since. -/
theorem after_make_of_extends {s g : Scope} (h : s.schema.WellFormed) (hg : g.schema.WellFormed)
    {d : Declaration} (hext : (d.make.after s).schema.Extends g.schema) : d.make.after g = g := by
  rw [after_make h] at hext
  rw [after_make hg]
  rcases d.make_cases h with ⟨name, level, huse, -⟩ | ⟨name, huse, -⟩ | ⟨huse, -⟩ <;>
    rw [huse] at hext ⊢
  · exact (Declaring.scalar_settles name level).after_eq h hg hext
  · exact ((Declaring.Settles.pure ()).inSubsection name).after_eq h hg hext
  · rfl

end Declaration

namespace Scope

/-- Make declarations in order. -/
def declareAll (s : Scope) (ds : List Declaration) : Scope :=
  ds.foldl (fun s d => d.make.after s) s

variable {s g : Scope}

/-- The first declaration, and those behind it. -/
@[simp] theorem declareAll_cons (s : Scope) (d : Declaration) (rest : List Declaration) :
    s.declareAll (d :: rest) = (d.make.after s).declareAll rest := rfl

/-- Declarations one after the other. -/
theorem declareAll_append (s : Scope) (ds later : List Declaration) :
    s.declareAll (ds ++ later) = (s.declareAll ds).declareAll later :=
  List.foldl_append ..

/-- Declarations leave what their uses leave. -/
theorem declareAll_eq_useAll (h : s.schema.WellFormed) (ds : List Declaration) :
    s.declareAll ds = s.useAll (ds.filterMap Declaration.use?) := by
  induction ds generalizing s with
  | nil => rfl
  | cons d rest ih =>
      have hafter := d.after_make h
      have hwf := (useAll_wellFormed h d.use?.toList).1
      rw [declareAll_cons, hafter, ih hwf, ← useAll_append]
      cases huse : d.use? with
      | none => rw [List.filterMap_cons_none huse]; rfl
      | some u => rw [List.filterMap_cons_some huse]; rfl

/-- Declarations let a schema grow. -/
theorem declareAll_wellFormed (h : s.schema.WellFormed) (ds : List Declaration) :
    (s.declareAll ds).schema.WellFormed ∧ s.schema.Extends (s.declareAll ds).schema := by
  rw [declareAll_eq_useAll h]
  exact useAll_wellFormed h _

/-- **A history that is repeated changes nothing**, whatever was declared since. -/
theorem declareAll_of_extends {ds : List Declaration} (h : s.schema.WellFormed)
    (hg : g.schema.WellFormed) (hext : (s.declareAll ds).schema.Extends g.schema) :
    g.declareAll ds = g := by
  induction ds generalizing s with
  | nil => rfl
  | cons d rest ih =>
      have hwf := (d.after_make_wellFormed h).1
      have hrest := (declareAll_wellFormed hwf rest).2
      rw [declareAll_cons, Declaration.after_make_of_extends h hg (hrest.trans hext)]
      exact ih hwf hext

end Scope

/-! ### What a history leaves -/

/-- **What a declaration answers with**, behind other ones: a handle of the name that is declared,
which tells the level that was required up to then, and leads to the place that the name has in
the end, where nothing is added by joining that level. An empty name is refused. -/
def Declaration.AnsweredIn (d : Declaration) (s : Scope) (earlier : List Declaration) (f : Schema) :
    Prop :=
  (∃ v : Var, d.scalarName? = some v.name ∧
    d.make (s.declareAll earlier) = .ok (.var v) (s.declareAll (earlier ++ [d])) ∧
    (v.level : WithBot TrustLevel) =
      s.schema.levelOf v.name.text ⊔ required v.name.text (earlier ++ [d]) ∧
    ∃ w, f.scalars[v.index]? = some w ∧ w.name = v.name ∧ v.level ⊔ w.level = w.level) ∨
  (∃ t : Tag, d.subsectionName? = some t.name ∧
    d.make (s.declareAll earlier) = .ok (.tag t) (s.declareAll (earlier ++ [d])) ∧
    ∃ rows, f.subsections[t.index]? = some (t, rows)) ∨
  (d.name = "" ∧ s.declareAll (earlier ++ [d]) = s.declareAll earlier ∧
    ∃ m, d.make (s.declareAll earlier) = .error (.misuse m) (s.declareAll earlier))

/-- **What a history of declarations leaves.** -/
structure Scope.Records (s : Scope) (ds : List Declaration) (f : Scope) : Prop where
  levels : ∀ name, f.schema.levelOf name = s.schema.levelOf name ⊔ Declaration.required name ds
  /-- A variable that was there keeps its place. -/
  known : ∀ (name : String) (v : Var), s.schema.scalar? name = some v →
    ∃ w, f.schema.scalar? name = some w ∧ w.index = v.index
  /-- Variables that are new stand behind them, in the order of their first declarations. -/
  new : ∀ (k : ℕ) (name : SlotName),
    (newNames (s.schema.scalars.map (·.name)) (ds.filterMap Declaration.scalarName?))[k]? =
      some name → ∃ w, f.schema.scalar? name.text = some w ∧ w.index = s.schema.scalars.length + k
  names : f.schema.scalars.map (·.name) = s.schema.scalars.map (·.name) ++
    newNames (s.schema.scalars.map (·.name)) (ds.filterMap Declaration.scalarName?)
  /-- A subsection that was there keeps its place, its handle and the schema of its rows. -/
  knownRows : ∀ (i : ℕ) (sub : Tag × Schema), s.schema.subsections[i]? = some sub →
    f.schema.subsections[i]? = some sub
  newRows : ∀ (k : ℕ) (name : SlotName),
    (newNames (s.schema.subsections.map (·.1.name))
      (ds.filterMap Declaration.subsectionName?))[k]? = some name →
        ∃ t, f.schema.subsection? name.text = some t ∧ t.index = s.schema.subsections.length + k
  rowNames : f.schema.subsections.map (·.1.name) = s.schema.subsections.map (·.1.name) ++
    newNames (s.schema.subsections.map (·.1.name)) (ds.filterMap Declaration.subsectionName?)
  answers : ∀ earlier d later, ds = earlier ++ d :: later → d.AnsweredIn s earlier f.schema

/-- The entry with a name that stands behind others. -/
theorem exists_getElem?_of_map_eq_append {α : Type} {key : α → SlotName} {entries : List α}
    {known new : List SlotName} (h : entries.map key = known ++ new) {k : ℕ} {name : SlotName}
    (hname : new[k]? = some name) : ∃ a, entries[known.length + k]? = some a ∧ key a = name := by
  have hat : (entries.map key)[known.length + k]? = some name := by
    rw [h, List.getElem?_append_right (Nat.le_add_right _ _), Nat.add_sub_cancel_left]
    exact hname
  rw [List.getElem?_map, Option.map_eq_some_iff] at hat
  exact hat

namespace Schema

/-- The handle of a declaration is the variable that stands at its place then. -/
theorem getElem?_declare {s : Schema} (h : s.WellFormed) (name : SlotName) (level : TrustLevel) :
    (s.declare name level).2.scalars[(s.declare name level).1.index]? =
      some (s.declare name level).1 :=
  ((declare_wellFormed h name level).coherent.var_of_mem (gives_declare h name level)).1

/-- The level that is found under the name of a variable that stands at its place. -/
theorem WellFormed.levelOf_eq {s : Schema} (h : s.WellFormed) {v : Var}
    (hv : s.scalars[v.index]? = some v) : s.levelOf v.name.text = v.level :=
  levelOf_eq_coe_iff.mpr ⟨v, h.coherent.scalar?_eq_some_iff.mpr ⟨hv, rfl⟩, rfl⟩

end Schema

namespace Scope

variable {s : Scope}

/-- What is required in the end. -/
theorem levelOf_declareAll (h : s.schema.WellFormed) (ds : List Declaration) (name : String) :
    (s.declareAll ds).schema.levelOf name =
      s.schema.levelOf name ⊔ Declaration.required name ds := by
  rw [declareAll_eq_useAll h, Declaration.required_eq]
  exact levelAt_useAll h name [] _

/-- Subsections that were there stay as they are. -/
theorem getElem?_subsections_declareAll (h : s.schema.WellFormed) (ds : List Declaration) {i : ℕ}
    {sub : Tag × Schema} (hsub : s.schema.subsections[i]? = some sub) :
    (s.declareAll ds).schema.subsections[i]? = some sub := by
  induction ds generalizing s with
  | nil => exact hsub
  | cons d rest ih =>
      rw [declareAll_cons]
      refine ih (d.after_make_wellFormed h).1 ?_
      rw [Declaring.after]
      rcases d.make_cases h with ⟨name, level, -, -, hmake⟩ | ⟨name, -, -, hmake⟩ |
        ⟨-, -, m, hmake⟩ <;> rw [hmake]
      · exact (s.schema.declare_rest name level).1 ▸ hsub
      · rcases declareSubsection_cases h.coherent name with ⟨_, -, -, heq⟩ | ⟨_, -, -, heq⟩ <;>
          rw [heq]
        · exact hsub
        · exact (List.getElem?_append_left (List.getElem?_eq_some_iff.mp hsub).1).trans hsub
      · exact hsub

/-- What a declaration answers with, behind other ones and before other ones. -/
theorem answeredIn_declareAll (h : s.schema.WellFormed) (earlier : List Declaration)
    (d : Declaration) (later : List Declaration) :
    d.AnsweredIn s earlier (s.declareAll (earlier ++ d :: later)).schema := by
  have hmid := (declareAll_wellFormed h earlier).1
  have hthen := d.after_make_wellFormed hmid
  have hlast : s.declareAll (earlier ++ [d]) = d.make.after (s.declareAll earlier) :=
    declareAll_append s earlier [d]
  have hlevel := levelOf_declareAll h (earlier ++ [d])
  have hext : (d.make.after (s.declareAll earlier)).schema.Extends
      (s.declareAll (earlier ++ d :: later)).schema := by
    rw [declareAll_append, declareAll_cons]
    exact (declareAll_wellFormed hthen.1 later).2
  rw [Declaration.AnsweredIn]
  rw [hlast] at hlevel ⊢
  rw [Declaring.after] at hlevel hthen hext ⊢
  rcases d.make_cases hmid with ⟨name, level, -, hname, hmake⟩ | ⟨name, -, hname, hmake⟩ |
    ⟨-, hempty, m, hmake⟩ <;> rw [hmake] at hlevel hthen hext ⊢
  · have hslot := Schema.getElem?_declare hmid name level
    obtain ⟨w, hw, hwname, hle⟩ := hext.scalar hslot
    obtain ⟨-, hvname, -⟩ := Schema.offers_declare hmid name level
    refine .inl ⟨_, by rw [hvname]; exact hname, rfl, ?_, w, hw, hwname, sup_eq_right.mpr hle⟩
    rw [← hlevel]
    exact (hthen.1.levelOf_eq hslot).symm
  · obtain ⟨hsub, hsubname⟩ := getElem?_declareSubsection hmid name
    obtain ⟨rows, hrows, -⟩ := hext.subsection hsub
    exact .inr (.inl ⟨_, by rw [hsubname]; exact hname, rfl, rows, hrows⟩)
  · exact .inr (.inr ⟨hempty, rfl, m, rfl⟩)

/-- What declarations leave. -/
theorem records_declareAll (h : s.schema.WellFormed) (ds : List Declaration) :
    s.Records ds (s.declareAll ds) := by
  obtain ⟨hwf, hext⟩ := declareAll_wellFormed h ds
  have huses := useAll_withUses h (ds.filterMap Declaration.use?)
  rw [← declareAll_eq_useAll h] at huses
  have hnames := huses.scalar_names
  obtain ⟨-, -, hrows, -, -⟩ := huses
  rw [← Declaration.filterMap_scalarName?] at hnames
  rw [← Declaration.filterMap_subsectionName?] at hrows
  refine ⟨levelOf_declareAll h ds, fun name v hv => ?_, fun k name hname => ?_, hnames,
    fun i sub => getElem?_subsections_declareAll h ds, fun k name hname => ?_, hrows, ?_⟩
  · obtain ⟨hat, -, rfl⟩ := h.of_scalar?_eq hv
    obtain ⟨w, hw, hname, -⟩ := hext.scalar hat
    have hindex := (hwf.coherent.var_at hw).1
    exact ⟨w, hname ▸ hwf.coherent.scalar?_eq_some_iff.mpr ⟨hindex.symm ▸ hw, rfl⟩, hindex⟩
  · obtain ⟨w, hw, rfl⟩ := exists_getElem?_of_map_eq_append hnames hname
    have hindex := (hwf.coherent.var_at hw).1
    rw [List.length_map] at hindex hw
    exact ⟨w, hwf.coherent.scalar?_eq_some_iff.mpr ⟨hindex.symm ▸ hw, rfl⟩, hindex⟩
  · obtain ⟨⟨t, d⟩, hsub, rfl⟩ := exists_getElem?_of_map_eq_append hrows hname
    have hindex := (hwf.coherent.tag_at hsub).1
    rw [List.length_map] at hindex hsub
    exact ⟨t, hwf.subsection?_eq (hindex.symm ▸ hsub), hindex⟩
  · rintro earlier d later rfl
    exact answeredIn_declareAll h earlier d later

/-- **Levels are joined, places are kept, and handles are behind**, whatever is declared in
whatever order; and declaring the same again, one by one or as the names of arguments, changes
nothing. -/
theorem declareAll_records (h : s.schema.WellFormed) (ds : List Declaration) :
    s.Records ds (s.declareAll ds) ∧
      (∀ ds', (∀ d, d ∈ ds' ↔ d ∈ ds) → ∀ name, (s.declareAll ds').schema.levelOf name =
        (s.declareAll ds).schema.levelOf name) ∧
      (s.declareAll ds).declareAll ds = s.declareAll ds ∧
      ∀ args, Declaring.bindings args ((Declaring.bindings args).after s) =
        Declaring.bindings args s := by
  refine ⟨records_declareAll h ds, fun ds' hsame name => ?_, ?_, fun args => ?_⟩
  · rw [levelOf_declareAll h, levelOf_declareAll h, Declaration.required_congr hsame]
  · exact declareAll_of_extends h (declareAll_wellFormed h ds).1 (.refl _)
  · exact (Declaring.bindings_settles args).twice h

/-- Declarations on the schema for accounts: a name that is there and one that is not, both more
than once, a handle from nowhere, and an empty name. -/
def accountHistory : List Declaration :=
  [.scalar "owner" .textSafe, .attach (.ofName ⟨"signature", by decide⟩) .textSafe,
    .subsection "talents", .scalar "" .fullyTrusted, .scalar "signature" .urlSafe,
    .subsection "talents"]

/-- What is declared for accounts, and what that leaves. -/
theorem declareAll_records_account :
    Node.accountScope.Records accountHistory (Node.accountScope.declareAll accountHistory) ∧
      (Node.accountScope.declareAll accountHistory).declareAll accountHistory =
        Node.accountScope.declareAll accountHistory ∧
      (Node.accountScope.declareAll accountHistory).schema.scalars.map
          (fun v => (v.name.text, v.level)) =
        [("title", .untrusted), ("owner", TrustLevel.urlSafe ⊔ .textSafe),
          ("signature", TrustLevel.textSafe ⊔ .urlSafe)] ∧
      (Node.accountScope.declareAll accountHistory).schema.subsections.length = 1 := by
  have hwf : Node.accountScope.schema.WellFormed :=
    Schema.setStrict_wellFormed (Scope.useAll_wellFormed (s := .newRoot 1)
      (Schema.wellFormed_of_empty rfl rfl) _).1 true
  obtain ⟨hrecords, -, hagain, -⟩ := declareAll_records hwf accountHistory
  exact ⟨hrecords, hagain, by decide +kernel, by decide +kernel⟩

end Scope

end TrustedHtml
