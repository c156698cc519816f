import TrustedHtml.Proofs.BindingMeaning
import TrustedHtml.Proofs.Strictness

/-!
# Resolving What Was Declared

Names that arguments use can be declared, and then bound. The two passes find their places in
different ways: declaring takes the name of any variable, be its handle one of the schema or not,
and gathers what all rows of all arguments of a name use in one schema; binding goes by the place
that a handle tells, or by name. Nevertheless whatever has been declared is found, and so is
everything that is addressed in the same places by the same keys, be a schema strict or not. What
can still be refused is a string, for its check.

## Main definitions

* `BindArg.Resolves`: all names of an argument are declared.
* `BindArg.Passes`: all strings of an argument pass their checks.
* `BindArg.DrawnFrom`: an argument is addressed by keys that occur in the same places.

## Main results

* `Declaring.bindings_ensures`: **what was declared can be resolved from then on.**
* `BindArg.Refused.cause_of_resolves`, `BindArg.Resolves.admissible_iff`: what can be refused.
* `Session.Reached.bind_declared`: **binding what was declared.**
-/

namespace TrustedHtml

/-- The arguments in all rows that arguments give for a name. -/
def Binding.inRows (name : String) (args : List BindArg) : List BindArg :=
  (args.filterMap (·.seriesFor? name)).flatten.flatten

/-- Where the arguments in rows come from. -/
theorem Binding.mem_inRows {name : String} {args : List BindArg} {arg : BindArg} :
    arg ∈ inRows name args ↔ ∃ key given, BindArg.rows key given ∈ args ∧
      (BindArg.rows key given).name = name ∧ ∃ row ∈ given, arg ∈ row := by
  rw [inRows, List.mem_flatten]
  constructor
  · rintro ⟨row, hrow, harg⟩
    obtain ⟨given, hgiven, hrow⟩ := List.mem_flatten.mp hrow
    obtain ⟨other, hother, hfor⟩ := List.mem_filterMap.mp hgiven
    cases other with
    | scalar key value level => cases hfor
    | rows key series =>
        rw [BindArg.seriesFor?] at hfor
        split at hfor
        · rename_i hname
          cases hfor
          exact ⟨key, given, hother, hname, row, hrow, harg⟩
        · cases hfor
  · rintro ⟨key, given, hmem, hname, row, hrow, harg⟩
    refine ⟨row, List.mem_flatten.mpr ⟨given, List.mem_filterMap.mpr ⟨_, hmem, ?_⟩, hrow⟩, harg⟩
    rw [BindArg.seriesFor?, if_pos hname]

namespace BindArg

/-! ### Arguments that can be resolved -/

/-- **An argument can be resolved**: the name of a string is declared; and for rows the name is
declared, a handle belongs to the schema, and everything in them can be resolved in the schema of
the rows. -/
inductive Resolves : Schema → BindArg → Prop
  | scalar {s : Schema} {key : Key Var} {value : SafeString} {level : TrustLevel} {slot : Var}
      (hslot : s.scalar? (scalar key value level).name = some slot) :
      Resolves s (scalar key value level)
  | rows {s child : Schema} {key : Key Tag} {given : List (List BindArg)}
      (hkey : ∀ t, key = .handle t → t.parent = s.id)
      (hrows : s.rows? (rows key given).name = some child)
      (hgiven : ∀ row ∈ given, ∀ arg ∈ row, Resolves child arg) : Resolves s (rows key given)

/-- **An argument is drawn from others**: its key is that of one of them, or the name of such a
key, and the arguments in its rows are drawn from those in all rows of that name. -/
inductive DrawnFrom : List BindArg → BindArg → Prop
  | scalar {scope : List BindArg} {key key' : Key Var} {value value' : SafeString}
      {level level' : TrustLevel} (hmem : scalar key' value' level' ∈ scope)
      (hkey : key = key' ∨ key = .name (scalar key' value' level').name) :
      DrawnFrom scope (scalar key value level)
  | rows {scope : List BindArg} {key key' : Key Tag} {given given' : List (List BindArg)}
      (hmem : rows key' given' ∈ scope)
      (hkey : key = key' ∨ key = .name (rows key' given').name)
      (hgiven : ∀ row ∈ given, ∀ arg ∈ row,
        DrawnFrom (Binding.inRows (rows key given).name scope) arg) :
      DrawnFrom scope (rows key given)

variable {s : Schema} {arg : BindArg} {scope : List BindArg}

/-- Arguments are drawn from themselves. -/
theorem drawnFrom_self {P : BindArg → Prop} {args : List BindArg} (h : AllEverywhere P args) :
    ∀ arg ∈ args, arg.DrawnFrom args := by
  have hind : Inductive P fun arg => ∀ scope, arg ∈ scope → DrawnFrom scope arg := by
    refine ⟨fun key value level _ scope hmem => .scalar hmem (.inl rfl),
      fun key given _ hgiven scope hmem => .rows hmem (.inl rfl) fun row hrow arg harg => ?_⟩
    refine hgiven row hrow arg harg _ (Binding.mem_inRows.mpr ?_)
    exact ⟨key, given, hmem, rfl, row, hrow, harg⟩
  exact fun arg harg => hind.holds_all args h arg harg args harg

/-- The name of an argument is that of the one its key is drawn from. -/
theorem name_rows_of_key {key key' : Key Tag} {given given' : List (List BindArg)}
    (h : key = key' ∨ key = .name (rows key' given').name) :
    (rows key given).name = (rows key' given').name := by
  rcases h with rfl | rfl
  · cases key <;> rfl
  · rfl

/-- The name of an argument is that of the one its key is drawn from. -/
theorem name_scalar_of_key {key key' : Key Var} {value value' : SafeString}
    {level level' : TrustLevel} (h : key = key' ∨ key = .name (scalar key' value' level').name) :
    (scalar key value level).name = (scalar key' value' level').name := by
  rcases h with rfl | rfl
  · cases key <;> rfl
  · rfl

/-- **What is drawn from arguments that can be resolved can be resolved.** -/
theorem DrawnFrom.resolves (h : arg.DrawnFrom scope) (hscope : ∀ other ∈ scope, other.Resolves s) :
    arg.Resolves s := by
  induction h generalizing s with
  | scalar hmem hkey =>
      cases hscope _ hmem with
      | scalar hslot =>
          rw [← name_scalar_of_key hkey] at hslot
          exact .scalar hslot
  | @rows scope key key' given given' hmem hkey _ ih =>
      have hname : (BindArg.rows key given).name = (BindArg.rows key' given').name :=
        name_rows_of_key hkey
      cases hscope _ hmem with
      | @rows _ child _ _ hown hrows _ =>
          refine .rows (fun t ht => ?_) (hname ▸ hrows) fun row hrow arg harg => ?_
          · rcases hkey with rfl | rfl
            · exact hown t ht
            · cases ht
          · refine ih row hrow arg harg fun other hother => ?_
            -- all rows of the name are rows for the same schema
            obtain ⟨_, _, hmem', hname', row', hrow', hother⟩ := Binding.mem_inRows.mp hother
            cases hscope _ hmem' with
            | rows _ hrows' hgiven' =>
                rw [hname', hname, hrows] at hrows'
                cases hrows'
                exact hgiven' row' hrow' other hother

section

variable [UrlReader]

/-- **All strings of an argument pass their checks**, at what is required now, joined with what the
argument requires. -/
inductive Passes : Schema → BindArg → Prop
  | scalar {s : Schema} {key : Key Var} {value : SafeString} {level : TrustLevel}
      (hcheck : ∀ slot, s.scalar? (scalar key value level).name = some slot →
        ∃ text, value.check (slot.level ⊔ level) = .ok text) : Passes s (scalar key value level)
  | rows {s : Schema} {key : Key Tag} {given : List (List BindArg)}
      (hgiven : ∀ child, s.rows? (rows key given).name = some child →
        ∀ row ∈ given, ∀ arg ∈ row, Passes child arg) : Passes s (rows key given)

/-- An argument that can be resolved can be bound if its strings pass their checks. -/
theorem Resolves.admissible_iff (h : arg.Resolves s) : arg.Admissible s ↔ arg.Passes s := by
  induction h with
  | scalar hslot =>
      constructor
      · intro hadmissible
        refine .scalar fun slot hslot' => ?_
        cases hadmissible with
        | string hfound hcheck =>
            rw [hfound] at hslot'
            cases hslot'
            exact ⟨_, hcheck⟩
        | ignoredString hnone _ =>
            rw [hnone] at hslot'
            cases hslot'
      · intro hpasses
        cases hpasses with
        | scalar hcheck =>
            obtain ⟨text, htext⟩ := hcheck _ hslot
            exact .string hslot htext
  | rows hkey hrows _ ih =>
      constructor
      · intro hadmissible
        refine .rows fun child hchild row hrow arg harg => ?_
        rw [hrows] at hchild
        cases hchild
        cases hadmissible with
        | series _ hfound hgiven =>
            rw [hrows] at hfound
            cases hfound
            exact (ih row hrow arg harg).mp (hgiven row hrow arg harg)
        | ignoredSeries hnone _ =>
            rw [name, hnone] at hrows
            cases hrows
      · intro hpasses
        cases hpasses with
        | rows hgiven =>
            exact .series hkey hrows fun row hrow arg harg =>
              (ih row hrow arg harg).mpr (hgiven _ hrows row hrow arg harg)

/-- An argument that can be resolved is refused for a check only. -/
theorem Refused.cause_of_resolves {f : Failure} (h : arg.Refused s f) (hresolves : arg.Resolves s) :
    ∃ name source, f.cause = .bind (.trust name source) := by
  induction h with
  | trust _ _ => exact ⟨_, _, rfl⟩
  | undefinedString hnone _ =>
      cases hresolves with
      | scalar hslot =>
          rw [hnone] at hslot
          cases hslot
  | foreign hparent =>
      cases hresolves with
      | rows hkey _ _ => exact absurd (hkey _ rfl) hparent
  | undefinedSeries hnone _ =>
      cases hresolves with
      | rows _ hrows _ =>
          rw [name, hnone] at hrows
          cases hrows
  | row _ hrows hgiven _ _ _ ih =>
      cases hresolves with
      | rows _ hrows' hall =>
          rw [hrows] at hrows'
          cases hrows'
          refine ih (hall _ (hgiven ▸ List.mem_append_right _ List.mem_cons_self) _ ?_)
          exact List.mem_append_right _ List.mem_cons_self

/-- What is drawn from arguments whose handles were given out is decided. -/
theorem DrawnFrom.decided {σ : Session} (hσ : σ.Valid) (h : arg.DrawnFrom scope)
    (hscope : ∀ other ∈ scope, other.Everywhere σ.Gave) : Binding.Decided σ arg := by
  induction h with
  | @scalar _ key _ _ _ _ _ hmem hkey =>
      refine Binding.decided_scalar hσ ?_
      rcases hkey with rfl | rfl
      · have hgave := hscope _ hmem
        cases key <;> exact hgave
      · trivial
  | @rows scope key key' given given' hmem hkey _ ih =>
      have hgave := (hscope _ hmem).1
      refine Binding.decided_rows hσ ?_ fun row hrow arg harg => ih row hrow arg harg ?_
      · rcases hkey with rfl | rfl
        · cases key <;> exact hgave
        · trivial
      · intro other hother
        obtain ⟨_, _, hmem', -, row', hrow', hother⟩ := Binding.mem_inRows.mp hother
        exact ((hscope _ hmem').2.of_mem hrow').of_mem hother

end

end BindArg

/-! ### What declaring ensures -/

namespace Declaring

mutual

/-- What an argument uses can be resolved from then on. -/
theorem binding_ensures : ∀ arg : BindArg,
    (binding arg).Ensures fun f _ => f.WellFormed → arg.Resolves f
  | .scalar (.handle v) _ level => (attach_ensures v level).discard.mono fun f _ h hwf => by
      obtain ⟨w, hoffers⟩ := h
      obtain ⟨slot, hslot, -⟩ := hoffers.scalar?_eq hwf
      exact .scalar hslot
  | .scalar (.name n) _ level => (varName_ensures n).bind fun name =>
      (scalar_ensures name level).discard.mono fun f _ h hname hwf => by
        obtain ⟨w, hoffers⟩ := h
        obtain ⟨slot, hslot, -⟩ := hoffers.scalar?_eq hwf
        rw [hname] at hslot
        exact .scalar hslot
  | .rows key given => (keyTagName_ensures key given).bind fun name =>
      ((bindingRows_ensures given).inSubsection name).discard.mono fun f _ h hkey hwf => by
        obtain ⟨⟨t, _⟩, d, hat, rfl, hresolves⟩ := h
        obtain ⟨hname, hown⟩ := hkey
        have hrows := hwf.rows?_eq hat
        rw [hname] at hrows
        exact .rows hown hrows (hresolves (hwf.child (List.mem_of_getElem? hat)))

/-- What rows use can be resolved from then on. -/
theorem bindingRows_ensures : ∀ given : List (List BindArg), (bindingRows given).Ensures fun f _ =>
    f.WellFormed → ∀ row ∈ given, ∀ arg ∈ row, arg.Resolves f
  | [] => .pure fun _ _ => nofun
  | row :: rest => (bindings_ensures row).bind fun _ =>
      (bindingRows_ensures rest).mono fun _ _ hrest hrow hwf =>
        List.forall_mem_cons.mpr ⟨hrow hwf, hrest hwf⟩

/-- **What arguments use can be resolved from then on.** -/
theorem bindings_ensures : ∀ args : List BindArg,
    (bindings args).Ensures fun f _ => f.WellFormed → ∀ arg ∈ args, arg.Resolves f
  | [] => .pure fun _ _ => nofun
  | arg :: rest => (binding_ensures arg).bind fun _ =>
      (bindings_ensures rest).mono fun _ _ hrest harg hwf =>
        List.forall_mem_cons.mpr ⟨harg hwf, hrest hwf⟩

end

end Declaring

namespace Session

section

variable {σ : Session} {s : Schema}

/-- A schema that is there on its own is there. -/
theorem mem_schemas_of_draft (s : Schema) (next : ℕ) (vars : List Var) (tags : List Tag) :
    s ∈ schemas ⟨[.draft s], next, vars, tags⟩ :=
  List.mem_append_left _ (Schema.mem_family_self s)

/-- A schema that has been declared on is there on its own, with all handles. -/
theorem Valid.declared (hσ : σ.Valid) (hs : s ∈ σ.schemas) {act : Declaring Unit}
    (hact : act.OnlyDeclares) :
    Valid ⟨[.draft (act.after ⟨s, σ.next⟩).schema], (act.after ⟨s, σ.next⟩).next, σ.vars,
      σ.tags⟩ :=
  @Valid.set _ (hσ.focus hs) 0 (.draft s) (.draft _) _ rfl
    (hact.grows (hσ.proper_of_mem hs))

/-- A schema that is there on its own can have any strictness. -/
theorem Valid.withStrictness {next : ℕ} {vars : List Var} {tags : List Tag}
    (h : Valid ⟨[.draft s], next, vars, tags⟩) (strict : SchemaId → Bool) :
    Valid ⟨[.draft (s.withStrictness strict)], next, vars, tags⟩ :=
  @Valid.set _ h 0 (.draft s) (.draft _) _ rfl
    (Scope.withStrictness_grows (h.proper (List.mem_singleton_self (Holder.draft s))) strict)

variable [UrlReader] {args : List BindArg}

/-- Arguments that can be resolved are bound exactly if all strings pass their checks, and if they
are not, it is for a check. -/
theorem bind_of_resolves (hs : s ∈ σ.schemas) (hresolves : ∀ arg ∈ args, arg.Resolves s)
    (hdecided : ∀ arg ∈ args, Binding.Decided σ arg) :
    ((∃ vs, s.bind args = .ok vs) ∨ ∃ name source steps,
      s.bind args = .error (.failure ⟨.bind (.trust name source), steps⟩)) ∧
    ((∃ vs, s.bind args = .ok vs) ↔ ∀ arg ∈ args, arg.Passes s) := by
  have hiff : (∀ arg ∈ args, arg.Admissible s) ↔ ∀ arg ∈ args, arg.Passes s :=
    forall₂_congr fun arg harg => (hresolves arg harg).admissible_iff
  rcases Binding.bind_cases hs hdecided with ⟨hall, vs, hbind⟩ | ⟨failure, hfirst, hbind⟩
  · rw [hbind]
    exact ⟨.inl ⟨vs, rfl⟩, fun _ => hiff.mp hall, fun _ => ⟨vs, rfl⟩⟩
  · have hnot := hfirst.not_all
    obtain ⟨before, arg, after, hsplit, -, hrefused⟩ := hfirst
    have harg : arg ∈ args := hsplit ▸ List.mem_append_right _ List.mem_cons_self
    obtain ⟨name, source, hcause⟩ := hrefused.cause_of_resolves (hresolves arg harg)
    obtain ⟨cause, steps⟩ := failure
    obtain rfl : cause = _ := hcause
    rw [hbind]
    refine ⟨.inr ⟨name, source, steps, rfl⟩, ?_, fun hpasses => absurd (hiff.mpr hpasses) hnot⟩
    rintro ⟨vs, hvs⟩
    cases hvs

/-- **Binding what was declared.** If all names that arguments use can be declared on a schema of a
session, then afterwards, whatever schemas are made strict or not, those arguments are bound, and
so are all that are drawn from them: there are values exactly if all strings pass their checks, and
if there are none, it is for a check. -/
theorem Reached.bind_declared (hσ : σ.Reached) (hs : s ∈ σ.schemas)
    (hargs : BindArg.AllEverywhere σ.Gave args) {declared : Scope}
    (hrun : Declaring.bindings args ⟨s, σ.next⟩ = .ok () declared) (strict : SchemaId → Bool) :
    (∀ arg ∈ args, arg.DrawnFrom args) ∧
    ∀ args', (∀ arg ∈ args', arg.DrawnFrom args) →
      ((∃ vs, (declared.schema.withStrictness strict).bind args' = .ok vs) ∨
        ∃ name source steps, (declared.schema.withStrictness strict).bind args' =
          .error (.failure ⟨.bind (.trust name source), steps⟩)) ∧
      ((∃ vs, (declared.schema.withStrictness strict).bind args' = .ok vs) ↔
        ∀ arg ∈ args', arg.Passes (declared.schema.withStrictness strict)) := by
  refine ⟨BindArg.drawnFrom_self hargs, fun args' hdrawn => ?_⟩
  have hwf := (hσ.valid.inOrder_of_mem hs).wellFormed
  have hvalid : Valid ⟨[.draft declared.schema], declared.next, σ.vars, σ.tags⟩ := by
    simpa only [Declaring.after, hrun] using
      hσ.valid.declared hs (Declaring.bindings_onlyDeclares args)
  have hstrict := hvalid.withStrictness strict
  have hmem := mem_schemas_of_draft (declared.schema.withStrictness strict) declared.next σ.vars
    σ.tags
  obtain ⟨hdeclared, -, hlater⟩ := (Declaring.bindings_ensures args).ok hwf hrun
  refine bind_of_resolves hmem (fun arg harg => ?_) fun arg harg => ?_
  · exact (hdrawn arg harg).resolves
      (hlater hdeclared.withStrictness.2 (hstrict.inOrder_of_mem hmem).wellFormed)
  · exact (hdrawn arg harg).decided hstrict fun other hother => hargs.of_mem hother

end

end Session

/-- A caption, and a subtitle and a target that `directory` and its links do not have. -/
def fullArgs : List BindArg := [
  .scalar (.handle captionVar) (.untrusted "a < b") .untrusted,
  .scalar (.name "subtitle") (.untrusted "c < d") .textSafe,
  .rows (.handle linksTag) [[.scalar (.name "label") (.untrusted "home") .untrusted]],
  .rows (.name "links") [[.scalar (.name "target") (.untrusted "/") .urlSafe]]]

/-- `directory` with all of that declared. -/
def fullScope : Scope :=
  (Declaring.bindings fullArgs).after ⟨directory, 3⟩

/-- Two links, the second of which has a target. -/
def linksArgs (target : SafeString) : List BindArg := [
  .rows (.name "links") [
    [.scalar (.name "label") (.untrusted "home") .untrusted],
    [.scalar (.name "target") target .untrusted,
      .scalar (.name "label") (.untrusted "b & c") .textSafe]]]

/-- Links are drawn from those that were declared. -/
theorem linksArgs_drawnFrom (target : SafeString) :
    ∀ arg ∈ linksArgs target, arg.DrawnFrom fullArgs := by
  have hlabel : BindArg.scalar (.name "label") (.untrusted "home") .untrusted ∈
      Binding.inRows "links" fullArgs := by
    simp [Binding.inRows, fullArgs, BindArg.seriesFor?, BindArg.name, linksTag]
  have htarget : BindArg.scalar (.name "target") (.untrusted "/") .urlSafe ∈
      Binding.inRows "links" fullArgs := by
    simp [Binding.inRows, fullArgs, BindArg.seriesFor?, BindArg.name, linksTag]
  intro arg harg
  obtain rfl := List.mem_singleton.mp harg
  refine .rows (List.mem_cons_of_mem _ (List.mem_cons_of_mem _ List.mem_cons_self)) (.inr rfl) ?_
  intro row hrow arg harg
  rcases List.mem_pair.mp hrow with rfl | rfl
  · obtain rfl := List.mem_singleton.mp harg
    exact .scalar hlabel (.inl rfl)
  · rcases List.mem_pair.mp harg with rfl | rfl
    · exact .scalar htarget (.inl rfl)
    · exact .scalar hlabel (.inl rfl)

namespace Session

/-- Links are bound to `directory` once their names are declared and all of it is strict. A target
that does not pass its check is refused for that. -/
theorem bind_declared_directory :
    BindArg.AllEverywhere withDirectory.Gave fullArgs ∧
    Declaring.bindings fullArgs ⟨directory, 3⟩ = .ok () fullScope ∧
    (∀ arg ∈ linksArgs (.untrusted "/next"),
      arg.Passes (fullScope.schema.withStrictness fun _ => true)) ∧
    ∃ name source steps, (fullScope.schema.withStrictness fun _ => true).bind
      (linksArgs ⟨.textSafe, "/next"⟩) = .error (.failure ⟨.bind (.trust name source), steps⟩) := by
  have hgave : BindArg.AllEverywhere withDirectory.Gave fullArgs := by
    simp [fullArgs, BindArg.AllEverywhere, BindArg.Everywhere, BindArg.RowsEverywhere, Gave,
      withDirectory]
  have hmem : directory ∈ withDirectory.schemas := List.mem_cons_self
  have hrun : Declaring.bindings fullArgs ⟨directory, 3⟩ = .ok () fullScope := rfl
  have hbind := fun target =>
    (reached_withDirectory.bind_declared hmem hgave hrun fun _ => true).2 _
      (linksArgs_drawnFrom target)
  refine ⟨hgave, hrun, (hbind _).2.mp ?_, (hbind _).1.resolve_left ?_⟩
  · have hok : ((fullScope.schema.withStrictness fun _ => true).bind
        (linksArgs (.untrusted "/next"))).toOption.isSome := by
      decide +kernel
    cases hbound : (fullScope.schema.withStrictness fun _ => true).bind
        (linksArgs (.untrusted "/next")) with
    | ok vs => exact ⟨vs, rfl⟩
    | error e =>
        rw [hbound] at hok
        cases hok
  · rintro ⟨vs, hbound⟩
    have hnone : ((fullScope.schema.withStrictness fun _ => true).bind
        (linksArgs ⟨.textSafe, "/next"⟩)).toOption.isNone := by
      decide +kernel
    rw [hbound] at hnone
    cases hnone

end Session

end TrustedHtml
