import TrustedHtml.Proofs.BindingMeaning

/-!
# Names Instead of Handles

A handle leads to a place at once, and a name through the table of names. That makes no
difference: if handles in arguments are replaced by their names, at any depth, binding gives the
same values, or the same failure under the same steps. A variable of another schema, or of none,
counts as its name anyway. A subsection has to belong to the schema that it is used with, because
its name would not be refused.

## Main definitions

* `Schema.rowsFor?`: the schema that rows are bound for.
* `BindArg.Renamed`: an argument with names instead of some handles.

## Main results

* `Binding.applyArg_scalar_eq`, `Binding.applyArg_rows_eq`: what is done for an argument.
* `Session.Reached.bind_renamed`: **binding is the same.**
-/

namespace TrustedHtml

/-- The schema that rows are bound for, unless they are ignored or refused. -/
def Schema.rowsFor? (s : Schema) : Key Tag → Option Schema
  | .name n => s.rows? n
  | .handle t => if t.parent = s.id then s.rows? t.name.text else none

namespace BindArg

mutual

/-- **An argument with names instead of some handles**, in arguments for a schema, or for none if
they are in rows that are ignored or refused. -/
inductive Renamed : Option Schema → BindArg → BindArg → Prop
  | scalar {o : Option Schema} {key : Key Var} {value : SafeString} {level : TrustLevel} :
      Renamed o (.scalar key value level) (.scalar key value level)
  | varName {o : Option Schema} {v : Var} {value : SafeString} {level : TrustLevel} :
      Renamed o (.scalar (.handle v) value level) (.scalar (.name v.name.text) value level)
  | rows {o : Option Schema} {key : Key Tag} {given given' : List (List BindArg)}
      (hgiven : RowsRenamed (o.bind (·.rowsFor? key)) given given') :
      Renamed o (.rows key given) (.rows key given')
  | tagName {o : Option Schema} {t : Tag} {given given' : List (List BindArg)}
      (hown : ∀ s, o = some s → t.parent = s.id)
      (hgiven : RowsRenamed (o.bind (·.rowsFor? (.handle t))) given given') :
      Renamed o (.rows (.handle t) given) (.rows (.name t.name.text) given')

/-- Rows with names instead of some handles. -/
inductive RowsRenamed : Option Schema → List (List BindArg) → List (List BindArg) → Prop
  | nil {o : Option Schema} : RowsRenamed o [] []
  | cons {o : Option Schema} {row row' : List BindArg} {rest rest' : List (List BindArg)}
      (hrow : AllRenamed o row row') (hrest : RowsRenamed o rest rest') :
      RowsRenamed o (row :: rest) (row' :: rest')

/-- **Arguments with names instead of some handles**, at any depth. -/
inductive AllRenamed : Option Schema → List BindArg → List BindArg → Prop
  | nil {o : Option Schema} : AllRenamed o [] []
  | cons {o : Option Schema} {arg arg' : BindArg} {rest rest' : List BindArg}
      (harg : Renamed o arg arg') (hrest : AllRenamed o rest rest') :
      AllRenamed o (arg :: rest) (arg' :: rest')

end

/-- There are as many rows with names as there were with handles. -/
theorem RowsRenamed.length_eq {o : Option Schema} {given given' : List (List BindArg)}
    (h : RowsRenamed o given given') : given'.length = given.length := by
  induction given generalizing given' with
  | nil =>
      cases h
      rfl
  | cons row rest ih =>
      cases h with
      | cons _ hrest => rw [List.length_cons, List.length_cons, ih hrest]

end BindArg

namespace Binding

variable {σ : Session} {s : Schema}

/-- A subsection of a schema is found under its name. -/
theorem resolveTag?_name (hσ : σ.Valid) (hs : s ∈ σ.schemas) {t : Tag} (ht : t ∈ σ.tags)
    (hown : t.parent = s.id) : resolveTag? s (.name t.name.text) = resolveTag? s (.handle t) := by
  obtain ⟨d, hat⟩ := (hσ.tags t ht).2 s hs hown.symm
  rw [resolveTag?, resolveTag?, if_pos hown,
    (hσ.inOrder_of_mem hs).wellFormed.subsection?_eq hat]

/-- The subsection that a key leads to is that of the schema its rows are bound for. -/
theorem child_of_resolveTag? (hσ : σ.Valid) (hs : s ∈ σ.schemas) {key : Key Tag}
    {given : List (List BindArg)} (hgave : σ.Gave (.rows key given)) {t : Tag}
    (hresolve : resolveTag? s key = .ok (some t)) :
    ∃ child ∈ σ.schemas, s.child t = .ok child ∧ s.rowsFor? key = some child := by
  rcases resolveTag?_cases hσ hs hgave with ⟨other, child, hother, hkey, hrows, hfind⟩ |
    ⟨_, rfl, hother, -⟩ | ⟨_, rfl, -, hother⟩
  · rw [hresolve] at hother
    cases hother
    obtain ⟨t', hfind', hat, -, -, -, hchild⟩ := (hσ.inOrder_of_mem hs).subsection?_eq hrows
    obtain rfl : t' = t := Option.some.inj (hfind'.symm.trans hfind)
    refine ⟨child, Session.rows_mem_schemas hs (List.mem_of_getElem? hat), hchild, ?_⟩
    cases key with
    | name n => exact hrows
    | handle t =>
        rw [Schema.rowsFor?, if_pos (hkey t rfl)]
        exact hrows
  · rw [hresolve] at hother
    cases hother
  · rw [hresolve] at hother
    cases hother

variable [UrlReader]

/-- **Strings are stored by name**: what is done for a string is told by its name alone. -/
theorem applyArg_scalar_eq (hσ : σ.Valid) {vs : ValueSet} (hs : vs.schema ∈ σ.schemas)
    {key : Key Var} {value : SafeString} {level : TrustLevel}
    (hgave : σ.Gave (.scalar key value level)) :
    applyArg vs (.scalar key value level) =
      match vs.schema.scalar? (BindArg.scalar key value level).name with
      | some slot => vs.setScalarRequiring slot value level
      | none => undeclared vs .var (BindArg.scalar key value level).name := by
  have hwf := (hσ.inOrder_of_mem hs).wellFormed
  rw [applyArg]
  rcases resolveVar?_cases hσ hs hgave with ⟨v, slot, hresolve, hslot, hsame⟩ | ⟨hresolve, hslot⟩
  · rw [hresolve, hslot]
    dsimp only
    rw [hsame, setScalarRequiring_eq (hwf.of_scalar?_eq hslot).2.1]
  · rw [hresolve, hslot]

/-- **What is done for rows** depends on the subsection that is found, on the name, and on what is
done for the rows. -/
theorem applyArg_rows_eq (hσ : σ.Valid) {vs : ValueSet} (hs : vs.schema ∈ σ.schemas)
    {key key' : Key Tag} {given given' : List (List BindArg)} (hgave : σ.Gave (.rows key given))
    (hresolve : resolveTag? vs.schema key' = resolveTag? vs.schema key)
    (hname : (BindArg.rows key' given').name = (BindArg.rows key given).name)
    (hlength : given'.length = given.length)
    (hrows : ∀ child ∈ σ.schemas, vs.schema.rowsFor? key = some child → ∀ name number count,
      applyRows child name number count given' = applyRows child name number count given) :
    applyArg vs (.rows key' given') = applyArg vs (.rows key given) := by
  rw [applyArg, applyArg, hresolve, hname, hlength]
  cases hfound : resolveTag? vs.schema key with
  | error e => rfl
  | ok resolved =>
      cases resolved with
      | none => rfl
      | some t =>
          obtain ⟨child, hmem, hchild, hfor⟩ := child_of_resolveTag? hσ hs hgave hfound
          simp only [bind, Except.bind, hchild, Except.mapError, hrows child hmem hfor]

/-- Names instead of handles in an argument make no difference to values of a session. -/
def Nameable (σ : Session) (arg : BindArg) : Prop :=
  ∀ vs : ValueSet, vs.schema ∈ σ.schemas → ∀ arg', BindArg.Renamed (some vs.schema) arg arg' →
    applyArg vs arg' = applyArg vs arg

/-- Arguments can be renamed if each of them can. -/
theorem applyAll_renamed {args args' : List BindArg} (hargs : ∀ arg ∈ args, Nameable σ arg)
    {vs : ValueSet} (hs : vs.schema ∈ σ.schemas)
    (h : BindArg.AllRenamed (some vs.schema) args args') :
    applyAll vs args' = applyAll vs args := by
  induction args generalizing args' vs with
  | nil =>
      cases h
      rfl
  | cons arg rest ih =>
      obtain ⟨hnameable, hrest⟩ := List.forall_mem_cons.mp hargs
      cases h with
      | cons harg hlater =>
          rw [applyAll, applyAll, hnameable vs hs _ harg]
          cases happly : applyArg vs arg with
          | error e => rfl
          | ok mid =>
              have hschema := applyArg_schema_eq happly
              rw [← hschema] at hs hlater
              exact ih hrest hs hlater

/-- Rows can be renamed if all arguments in them can. -/
theorem applyRows_renamed {given given' : List (List BindArg)} {child : Schema}
    (hgiven : ∀ row ∈ given, ∀ arg ∈ row, Nameable σ arg) (hchild : child ∈ σ.schemas)
    (h : BindArg.RowsRenamed (some child) given given') (name : String) (number count : ℕ) :
    applyRows child name number count given' = applyRows child name number count given := by
  induction given generalizing given' number with
  | nil =>
      cases h
      rfl
  | cons row rest ih =>
      obtain ⟨hnameable, hrest⟩ := List.forall_mem_cons.mp hgiven
      cases h with
      | cons hrow hlater =>
          have happly := @applyAll_renamed _ _ _ _ hnameable child.valueSet hchild hrow
          rw [applyRows, applyRows, happly, ih hrest hlater]

/-- **Names instead of handles make no difference**, if the handles were given out. -/
theorem nameable (hσ : σ.Valid) {args : List BindArg} (hargs : BindArg.AllEverywhere σ.Gave args) :
    ∀ arg ∈ args, Nameable σ arg := by
  have hind : BindArg.Inductive σ.Gave (Nameable σ) := by
    refine ⟨fun key value level hgave vs hs arg' h => ?_,
      fun key given hgave hgiven vs hs arg' h => ?_⟩
    · cases h with
      | scalar => rfl
      | @varName _ v =>
          have hgave' : σ.Gave (.scalar (.name v.name.text) value level) := trivial
          rw [applyArg_scalar_eq hσ hs hgave, applyArg_scalar_eq hσ hs hgave']
          rfl
    · have hrows : ∀ {given'}, BindArg.RowsRenamed (vs.schema.rowsFor? key) given given' →
          ∀ child ∈ σ.schemas, vs.schema.rowsFor? key = some child → ∀ name number count,
          applyRows child name number count given' = applyRows child name number count given := by
        intro given' h child hchild hfor name number count
        rw [hfor] at h
        exact applyRows_renamed hgiven hchild h name number count
      cases h with
      | rows h =>
          have hname : ∀ given', (BindArg.rows key given').name = (BindArg.rows key given).name :=
            fun _ => by cases key <;> rfl
          exact applyArg_rows_eq hσ hs hgave rfl (hname _) h.length_eq (hrows h)
      | tagName hown h =>
          exact applyArg_rows_eq hσ hs hgave (resolveTag?_name hσ hs hgave (hown _ rfl)) rfl
            h.length_eq (hrows h)
  exact hind.holds_all args hargs

end Binding

namespace Session

/-- **Binding is the same with names instead of handles**, for a schema of a session and arguments
whose handles were given out: there are the same values, at every level of nesting, or there is the
same failure, under the same steps. -/
theorem Reached.bind_renamed [UrlReader] {σ : Session} (hσ : σ.Reached) {s : Schema}
    (hs : s ∈ σ.schemas) {args args' : List BindArg} (hargs : BindArg.AllEverywhere σ.Gave args)
    (h : BindArg.AllRenamed (some s) args args') : s.bind args' = s.bind args := by
  have hnameable := Binding.nameable hσ.valid hargs
  have happly := @Binding.applyAll_renamed _ _ _ _ hnameable s.valueSet hs h
  rw [Schema.bind, Schema.bind, ValueSet.bindInto, ValueSet.bindInto, happly]

end Session

/-- A caption and two links, all through handles; the second link has a label and a caption, which
a link does not have. -/
def handleArgs : List BindArg := [
  .scalar (.handle captionVar) (.untrusted "a < b") .untrusted,
  .rows (.handle linksTag) [
    [.scalar (.name "label") (.untrusted "home") .untrusted],
    [.scalar (.handle (.ofName labelVar.name)) (.untrusted "c < d") .untrusted,
      .scalar (.handle captionVar) (.untrusted "x") .untrusted]]]

/-- The same without handles. -/
def nameArgs : List BindArg := [
  .scalar (.name "caption") (.untrusted "a < b") .untrusted,
  .rows (.name "links") [
    [.scalar (.name "label") (.untrusted "home") .untrusted],
    [.scalar (.name "label") (.untrusted "c < d") .untrusted,
      .scalar (.name "caption") (.untrusted "x") .untrusted]]]

namespace Session

/-- The handles to `directory` are as good as names, and there are values. -/
theorem bind_nameArgs :
    BindArg.AllEverywhere withDirectory.Gave handleArgs ∧
    BindArg.AllRenamed (some directory) handleArgs nameArgs ∧
    directory.bind nameArgs = directory.bind handleArgs ∧
    (directory.bind handleArgs).toOption.isSome := by
  have hgave : BindArg.AllEverywhere withDirectory.Gave handleArgs := by
    simp [handleArgs, BindArg.AllEverywhere, BindArg.Everywhere, BindArg.RowsEverywhere, Gave,
      withDirectory, Var.ofName]
  have hrenamed : BindArg.AllRenamed (some directory) handleArgs nameArgs := by
    refine .cons .varName (.cons (.tagName (fun s hs => ?_) ?_) .nil)
    · cases hs
      rfl
    · exact .cons (.cons .scalar .nil) (.cons (.cons .varName (.cons .varName .nil)) .nil)
  have hmem : directory ∈ withDirectory.schemas := List.mem_cons_self
  exact ⟨hgave, hrenamed, reached_withDirectory.bind_renamed hmem hgave hrenamed,
    by decide +kernel⟩

end Session

end TrustedHtml
