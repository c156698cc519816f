import TrustedHtml.Proofs.Session
import TrustedHtml.Proofs.Traversal

/-!
# Admissible Arguments

Whether an argument can be bound depends on the schema that it is addressed to, and neither on
the arguments in front of it nor on those that replace it. `BindArg.Admissible` lists the ways in
which it can, and `BindArg.Refused` those in which it cannot, with the failure. Both are told by
names alone, although arguments can carry handles: in a session a handle that was given out leads
to the place of its name, if it belongs to the schema.

## Main definitions

* `Session.Gave`: the handle of an argument was given out.
* `BindArg.Admissible`, `BindArg.Refused`: arguments that can be bound, and arguments that cannot.
* `Binding.Decided`: an argument is applied if it is admissible, and refused else.

## Main results

* `Binding.resolveVar?_cases`, `Binding.resolveTag?_cases`: what keys lead to.
* `Binding.decided_scalar`, `Binding.decided_rows`: **strings and rows are decided**, if their
  handles were given out and, for rows, if everything in them is.
-/

namespace TrustedHtml

/-- The handle that an argument carries was given out, or it is a variable that is in no schema
yet. -/
def Session.Gave (σ : Session) : BindArg → Prop
  | .scalar (.handle v) _ _ => v.schema = none ∨ v ∈ σ.vars
  | .rows (.handle t) _ => t ∈ σ.tags
  | _ => True

namespace BindArg

variable [UrlReader]

/-! ### Admissible arguments -/

/-- **An argument can be bound** to a schema: a string if its name is declared and its check
passes at what is required now, joined with what the argument requires; rows if their name is
declared, a handle belongs to the schema, and everything in them can be bound to the schema of
the rows; and a name that is not declared, if the schema is not strict. -/
inductive Admissible : Schema → BindArg → Prop
  | string {s : Schema} {key : Key Var} {value : SafeString} {level : TrustLevel} {slot : Var}
      {text : String} (hslot : s.scalar? (scalar key value level).name = some slot)
      (hcheck : value.check (slot.level ⊔ level) = .ok text) :
      Admissible s (scalar key value level)
  | ignoredString {s : Schema} {key : Key Var} {value : SafeString} {level : TrustLevel}
      (hslot : s.scalar? (scalar key value level).name = none) (hstrict : s.strict = false) :
      Admissible s (scalar key value level)
  | series {s child : Schema} {key : Key Tag} {given : List (List BindArg)}
      (hkey : ∀ t, key = .handle t → t.parent = s.id)
      (hrows : s.rows? (rows key given).name = some child)
      (hgiven : ∀ row ∈ given, ∀ arg ∈ row, Admissible child arg) : Admissible s (rows key given)
  | ignoredSeries {s : Schema} {name : String} {given : List (List BindArg)}
      (hrows : s.rows? name = none) (hstrict : s.strict = false) :
      Admissible s (rows (.name name) given)

/-- **An argument cannot be bound** to a schema, for the failure that is told. In rows it is the
failure of the first argument that cannot be bound, in the first row that has one. -/
inductive Refused : Schema → BindArg → Failure → Prop
  | trust {s : Schema} {key : Key Var} {value : SafeString} {level : TrustLevel} {slot : Var}
      {source : TrustError} (hslot : s.scalar? (scalar key value level).name = some slot)
      (hcheck : value.check (slot.level ⊔ level) = .error source) :
      Refused s (scalar key value level)
        (.ofCause (.bind (.trust (scalar key value level).name source)))
  | undefinedString {s : Schema} {key : Key Var} {value : SafeString} {level : TrustLevel}
      (hslot : s.scalar? (scalar key value level).name = none) (hstrict : s.strict = true) :
      Refused s (scalar key value level)
        (.ofCause (.bind (.undefined .var (scalar key value level).name)))
  | foreign {s : Schema} {t : Tag} {given : List (List BindArg)} (hparent : t.parent ≠ s.id) :
      Refused s (rows (.handle t) given) (.ofCause (.bind (.foreignSubsection t.name.text)))
  | undefinedSeries {s : Schema} {name : String} {given : List (List BindArg)}
      (hrows : s.rows? name = none) (hstrict : s.strict = true) :
      Refused s (rows (.name name) given) (.ofCause (.bind (.undefined .subsection name)))
  | row {s child : Schema} {key : Key Tag} {given earlier later : List (List BindArg)}
      {before after : List BindArg} {arg : BindArg} {f : Failure}
      (hkey : ∀ t, key = .handle t → t.parent = s.id)
      (hrows : s.rows? (rows key given).name = some child)
      (hgiven : given = earlier ++ (before ++ arg :: after) :: later)
      (hearlier : ∀ row ∈ earlier, ∀ other ∈ row, other.Admissible child)
      (hbefore : ∀ other ∈ before, other.Admissible child) (h : Refused child arg f) :
      Refused s (rows key given) { f with
        steps := .row (earlier.length + 1) given.length (rows key given).name :: f.steps }

variable {s : Schema} {arg : BindArg} {f : Failure}

/-- An argument that cannot be bound is none that can. -/
theorem Refused.not_admissible (h : arg.Refused s f) : ¬ arg.Admissible s := by
  induction h with
  | trust hslot hcheck =>
      intro hadmissible
      cases hadmissible with
      | string hslot' hcheck' =>
          rw [hslot] at hslot'
          cases hslot'
          rw [hcheck] at hcheck'
          cases hcheck'
      | ignoredString hslot' _ =>
          rw [hslot] at hslot'
          cases hslot'
  | undefinedString hslot hstrict =>
      intro hadmissible
      cases hadmissible with
      | string hslot' _ =>
          rw [hslot] at hslot'
          cases hslot'
      | ignoredString _ hstrict' =>
          rw [hstrict] at hstrict'
          cases hstrict'
  | foreign hparent =>
      intro hadmissible
      cases hadmissible with
      | series hkey _ _ => exact hparent (hkey _ rfl)
  | undefinedSeries hrows hstrict =>
      intro hadmissible
      cases hadmissible with
      | series _ hrows' _ =>
          rw [name, hrows] at hrows'
          cases hrows'
      | ignoredSeries _ hstrict' =>
          rw [hstrict] at hstrict'
          cases hstrict'
  | row hkey hrows hgiven _ _ _ ih =>
      intro hadmissible
      cases hadmissible with
      | series _ hrows' hall =>
          rw [hrows] at hrows'
          cases hrows'
          refine ih (hall _ (hgiven ▸ List.mem_append_right _ List.mem_cons_self) _ ?_)
          exact List.mem_append_right _ List.mem_cons_self
      | ignoredSeries hrows' _ =>
          rw [name, hrows'] at hrows
          cases hrows

end BindArg

namespace Binding

variable {σ : Session} {s : Schema}

/-! ### Keys -/

/-- **The key of a string leads to the variable of its name**, be it a handle or not, or to none
if the name is not declared. -/
theorem resolveVar?_cases (hσ : σ.Valid) (hs : s ∈ σ.schemas) {key : Key Var} {value : SafeString}
    {level : TrustLevel} (hgave : σ.Gave (.scalar key value level)) :
    (∃ v slot, resolveVar? s key = some v ∧
      s.scalar? (BindArg.scalar key value level).name = some slot ∧
      v = { slot with level := v.level }) ∨
    (resolveVar? s key = none ∧ s.scalar? (BindArg.scalar key value level).name = none) := by
  have hcoherent := (hσ.inOrder_of_mem hs).wellFormed.coherent
  have hnamed : ∀ name, (∃ v slot, s.scalar? name = some v ∧ s.scalar? name = some slot ∧
      v = { slot with level := v.level }) ∨ (s.scalar? name = none ∧ s.scalar? name = none) := by
    intro name
    cases hfind : s.scalar? name with
    | none => exact .inr ⟨rfl, rfl⟩
    | some slot => exact .inl ⟨slot, slot, rfl, rfl, rfl⟩
  cases key with
  | name n => exact hnamed n
  | handle v =>
      by_cases hown : v.schema = some s.id
      · have hgiven : v ∈ σ.vars := hgave.resolve_left (by rw [hown]; exact nofun)
        obtain ⟨id, hattached, -, hhas⟩ := hσ.vars v hgiven
        rw [hown] at hattached
        obtain ⟨slot, hslot, hname⟩ := hhas s hs (Option.some.inj hattached)
        obtain ⟨hindex, hschema⟩ := hcoherent.var_at hslot
        refine .inl ⟨v, slot, by rw [resolveVar?, if_pos hown], ?_, ?_⟩
        · refine hcoherent.scalar?_eq_some_iff.mpr ⟨?_, hname⟩
          rw [hindex, hslot]
        · obtain ⟨_, _, _, _⟩ := v
          obtain ⟨_, _, _, _⟩ := slot
          cases hname
          cases hindex
          cases hschema
          cases hown
          rfl
      · rw [resolveVar?, if_neg hown]
        exact hnamed v.name.text

/-- **The key of rows leads to the subsection of its name**, unless the name is not declared, or
it is a handle that does not belong to the schema. -/
theorem resolveTag?_cases (hσ : σ.Valid) (hs : s ∈ σ.schemas) {key : Key Tag}
    {given : List (List BindArg)} (hgave : σ.Gave (.rows key given)) :
    (∃ t child, resolveTag? s key = .ok (some t) ∧ (∀ h, key = .handle h → h.parent = s.id) ∧
      s.rows? (BindArg.rows key given).name = some child ∧
      s.subsection? (BindArg.rows key given).name = some t) ∨
    (∃ name, key = .name name ∧ resolveTag? s key = .ok none ∧ s.rows? name = none) ∨
    (∃ t, key = .handle t ∧ t.parent ≠ s.id ∧
      resolveTag? s key = .error (.ofCause (.bind (.foreignSubsection t.name.text)))) := by
  have hinOrder := hσ.inOrder_of_mem hs
  cases key with
  | name n =>
      cases hrows : s.rows? n with
      | none =>
          refine .inr (.inl ⟨n, rfl, ?_, hrows⟩)
          rw [resolveTag?, Schema.subsection?_eq_none hrows]
      | some child =>
          obtain ⟨t, hfind, -⟩ := hinOrder.subsection?_eq hrows
          refine .inl ⟨t, child, by rw [resolveTag?, hfind], fun other hother => ?_, hrows, hfind⟩
          cases hother
  | handle t =>
      by_cases hparent : t.parent = s.id
      · obtain ⟨child, hsub⟩ := (hσ.tags t hgave).2 s hs hparent.symm
        have hfind := hinOrder.wellFormed.subsection?_eq hsub
        refine .inl ⟨t, child, by rw [resolveTag?, if_pos hparent], fun other hother => ?_,
          hinOrder.wellFormed.rows?_eq hsub, hfind⟩
        cases hother
        exact hparent
      · exact .inr (.inr ⟨t, rfl, hparent, by rw [resolveTag?, if_neg hparent]⟩)

/-! ### Applying arguments -/

variable [UrlReader]

/-- An argument is applied to any values, if it is admissible, and refused else. -/
def Decided (σ : Session) (arg : BindArg) : Prop :=
  ∀ vs : ValueSet, vs.schema ∈ σ.schemas →
    (arg.Admissible vs.schema ∧ ∃ vs', applyArg vs arg = .ok vs') ∨
    (∃ f, arg.Refused vs.schema f ∧ applyArg vs arg = .error (.failure f))

/-- The first of several arguments that is not admissible is refused. -/
def FirstRefused (s : Schema) (args : List BindArg) (f : Failure) : Prop :=
  ∃ before arg after, args = before ++ arg :: after ∧ (∀ other ∈ before, other.Admissible s) ∧
    arg.Refused s f

/-- What a handle stores is what its variable stores. -/
theorem setScalarRequiring_eq {vs : ValueSet} {slot : Var} (h : slot.schema = some vs.schema.id)
    (level : TrustLevel) (value : SafeString) (extra : TrustLevel) :
    vs.setScalarRequiring { slot with level } value extra =
      vs.setScalarRequiring slot value extra := by
  have hhandle := @Schema.checkVar_eq_ok vs.schema { slot with level } h
  rw [ValueSet.setScalarRequiring, ValueSet.setScalarRequiring, hhandle, Schema.checkVar_eq_ok h]
  rfl

/-- A string is applied if it is admissible, and refused else. -/
theorem decided_scalar (hσ : σ.Valid) {key : Key Var} {value : SafeString} {level : TrustLevel}
    (hgave : σ.Gave (.scalar key value level)) : Decided σ (.scalar key value level) := by
  intro vs hs
  have hwf := (hσ.inOrder_of_mem hs).wellFormed
  rw [applyArg]
  rcases resolveVar?_cases hσ hs hgave with ⟨v, slot, hresolve, hslot, hsame⟩ | ⟨hresolve, hslot⟩
  · have hattached := (hwf.of_scalar?_eq hslot).2.1
    have hset : vs.setScalarRequiring v value level = vs.setScalarRequiring slot value level := by
      rw [hsame, setScalarRequiring_eq hattached]
    rw [hresolve]
    dsimp only
    rw [hset, ValueSet.setScalarRequiring_of_find hwf hslot]
    cases hcheck : value.check (slot.level ⊔ level) with
    | error source => exact .inr ⟨_, .trust hslot hcheck, rfl⟩
    | ok text =>
        obtain ⟨ws, hstore, -⟩ := ValueSet.exists_store hwf hslot text
        refine .inl ⟨.string hslot hcheck, ws, ?_⟩
        dsimp only
        rw [hstore]
        rfl
  · rw [hresolve]
    dsimp only
    rw [undeclared]
    cases hstrict : vs.schema.strict with
    | true => exact .inr ⟨_, .undefinedString hslot hstrict, rfl⟩
    | false => exact .inl ⟨.ignoredString hslot hstrict, vs, rfl⟩

/-- Arguments are applied if all of them are admissible, and the first that is not is refused
else. -/
theorem applyAll_cases {args : List BindArg} (hargs : ∀ arg ∈ args, Decided σ arg)
    {vs : ValueSet} (hs : vs.schema ∈ σ.schemas) :
    ((∀ arg ∈ args, arg.Admissible vs.schema) ∧ ∃ vs', applyAll vs args = (vs', none)) ∨
    (∃ vs' f, FirstRefused vs.schema args f ∧ applyAll vs args = (vs', some (.failure f))) := by
  induction args generalizing vs with
  | nil => exact .inl ⟨List.forall_mem_nil _, vs, by rw [applyAll]⟩
  | cons arg rest ih =>
      obtain ⟨harg, hrest⟩ := List.forall_mem_cons.mp hargs
      rw [applyAll]
      rcases harg vs hs with ⟨hadmissible, mid, happly⟩ | ⟨f, hrefused, happly⟩
      · have hschema := applyArg_schema_eq happly
        rw [happly]
        dsimp only
        rw [← hschema] at hs hadmissible ⊢
        rcases ih hrest hs with ⟨hall, hok⟩ | ⟨vs', f, hfirst, herror⟩
        · exact .inl ⟨List.forall_mem_cons.mpr ⟨hadmissible, hall⟩, hok⟩
        · obtain ⟨before, other, after, rfl, hbefore, hrefused⟩ := hfirst
          refine .inr ⟨vs', f, ⟨arg :: before, other, after, rfl, ?_, hrefused⟩, herror⟩
          exact List.forall_mem_cons.mpr ⟨hadmissible, hbefore⟩
      · rw [happly]
        exact .inr ⟨vs, f, ⟨[], arg, rest, rfl, List.forall_mem_nil _, hrefused⟩, rfl⟩

/-- Rows are made if all arguments in them are admissible, and the first that is not is refused
else, with the number of its row. -/
theorem applyRows_cases {child : Schema} (hchild : child ∈ σ.schemas)
    {given : List (List BindArg)} (hgiven : ∀ row ∈ given, ∀ arg ∈ row, Decided σ arg)
    (name : String) (number count : ℕ) :
    ((∀ row ∈ given, ∀ arg ∈ row, arg.Admissible child) ∧
      ∃ bound, applyRows child name number count given = .ok bound) ∨
    (∃ earlier row later f, given = earlier ++ row :: later ∧
      (∀ row ∈ earlier, ∀ arg ∈ row, arg.Admissible child) ∧ FirstRefused child row f ∧
      applyRows child name number count given = .error (.failure { f with
        steps := .row (number + earlier.length) count name :: f.steps })) := by
  induction given generalizing number with
  | nil => exact .inl ⟨List.forall_mem_nil _, [], by rw [applyRows]⟩
  | cons row rest ih =>
      obtain ⟨hrow, hrest⟩ := List.forall_mem_cons.mp hgiven
      rw [applyRows]
      rcases @applyAll_cases σ _ row hrow child.valueSet hchild with
        ⟨hall, vs, happly⟩ | ⟨vs, f, hfirst, happly⟩
      · rw [happly]
        dsimp only
        rcases ih hrest (number + 1) with
          ⟨hlater, bound, hok⟩ | ⟨earlier, other, later, f, rfl, hearlier, hfirst, herror⟩
        · exact .inl ⟨List.forall_mem_cons.mpr ⟨hall, hlater⟩, vs :: bound, by rw [hok]; rfl⟩
        · refine .inr ⟨row :: earlier, other, later, f, rfl, ?_, hfirst, ?_⟩
          · exact List.forall_mem_cons.mpr ⟨hall, hearlier⟩
          · rw [herror, List.length_cons, Nat.add_right_comm, Nat.add_assoc]
            rfl
      · rw [happly]
        exact .inr ⟨[], row, rest, f, rfl, List.forall_mem_nil _, hfirst, rfl⟩

/-- Rows are applied if they are admissible, and refused else. -/
theorem decided_rows (hσ : σ.Valid) {key : Key Tag} {given : List (List BindArg)}
    (hgave : σ.Gave (.rows key given)) (hgiven : ∀ row ∈ given, ∀ arg ∈ row, Decided σ arg) :
    Decided σ (.rows key given) := by
  intro vs hs
  have hinOrder := hσ.inOrder_of_mem hs
  rw [applyArg]
  rcases resolveTag?_cases hσ hs hgave with ⟨t, child, hresolve, hkey, hrows, hfind⟩ |
    ⟨name, rfl, hresolve, hrows⟩ | ⟨t, rfl, hparent, hresolve⟩
  · obtain ⟨t', hfind', hsub, hname, -, -, hchild⟩ := hinOrder.subsection?_eq hrows
    obtain rfl : t' = t := Option.some.inj (hfind'.symm.trans hfind)
    have hmem := Session.rows_mem_schemas hs (List.mem_of_getElem? hsub)
    rw [hresolve]
    dsimp only [bind, Except.bind]
    rw [hchild, hname]
    dsimp only [Except.mapError]
    rcases applyRows_cases hmem hgiven (BindArg.rows key given).name 1 given.length with
      ⟨hall, bound, hok⟩ | ⟨earlier, row, later, f, hsplit, hearlier, hfirst, herror⟩
    · obtain ⟨ws, hset, -⟩ := ValueSet.setRows_named hinOrder hrows hfind
        (schema_eq_of_applyRows hok)
      rw [hok]
      dsimp only
      rw [hset]
      exact .inl ⟨.series hkey hrows hall, ws, rfl⟩
    · obtain ⟨before, arg, after, rfl, hbefore, hrefused⟩ := hfirst
      rw [herror, Nat.add_comm]
      exact .inr ⟨_, .row hkey hrows hsplit hearlier hbefore hrefused, rfl⟩
  · rw [hresolve]
    dsimp only [bind, Except.bind]
    rw [undeclared]
    cases hstrict : vs.schema.strict with
    | true => exact .inr ⟨_, .undefinedSeries hrows hstrict, rfl⟩
    | false => exact .inl ⟨.ignoredSeries hrows hstrict, vs, rfl⟩
  · rw [hresolve]
    exact .inr ⟨_, .foreign hparent, rfl⟩

end Binding

end TrustedHtml
