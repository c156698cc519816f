import TrustedHtml.Proofs.Admissible

/-!
# What Binding Means

Binding arguments to a schema of a session succeeds if all of them are admissible, those that are
replaced by later ones included; the first that is not is refused else. What the values mean that
it yields is told by names: the last string for a name counts, as its check gives it, and the last
rows, each of which has the meaning of its arguments. What nothing is given for is empty.

## Main definitions

* `Binding.lastString?`, `Binding.lastSeries`: what is given for a name.
* `ValueSet.Means`: values have the strings and rows that arguments give.

## Main results

* `Session.Reached.bind_means`: **what binding yields.**
-/

namespace TrustedHtml

/-! ### What is given for a name -/

namespace BindArg

/-- The string that an argument gives for a name, with the level it requires. -/
def stringFor? (name : String) : BindArg → Option (SafeString × TrustLevel)
  | scalar key value level =>
      if (scalar key value level).name = name then some (value, level) else none
  | rows .. => none

/-- The rows that an argument gives for a name. -/
def seriesFor? (name : String) : BindArg → Option (List (List BindArg))
  | scalar .. => none
  | rows key given => if (rows key given).name = name then some given else none

/-- The rows of an argument; a string has none. -/
def given : BindArg → List (List BindArg)
  | scalar .. => []
  | rows _ given => given

end BindArg

namespace Binding

/-- The last string that arguments give for a name, with the level it requires. -/
def lastString? (name : String) (args : List BindArg) : Option (SafeString × TrustLevel) :=
  (args.filterMap (·.stringFor? name)).getLast?

/-- The last rows that arguments give for a name; none if there are none. -/
def lastSeries (name : String) (args : List BindArg) : List (List BindArg) :=
  (args.filterMap (·.seriesFor? name)).getLast?.getD []

/-- The text for a variable that requires a level now: empty if no string is given, and what the
check makes of it else. -/
def textOf [UrlReader] (required : TrustLevel) :
    Option (SafeString × TrustLevel) → Except TrustError String
  | none => .ok ""
  | some (value, level) => value.check (required ⊔ level)

end Binding

/-- **Values have the strings and rows that arguments give**: every variable reads the text of the
last string for its name, and every subsection reads as many rows as are given last for its name,
in their order and with their meanings. -/
inductive ValueSet.Means [UrlReader] : Schema → List BindArg → ValueSet → Prop
  | intro {s : Schema} {args : List BindArg} {vs : ValueSet} (schema_eq : vs.schema = s)
      (strings : ∀ slot ∈ s.scalars, ∃ text,
        Binding.textOf slot.level (Binding.lastString? slot.name.text args) = .ok text ∧
          vs.getScalar slot = .ok text)
      (series : ∀ sub ∈ s.subsections, ∃ rows, vs.getStream sub.1 = .ok (.ofRows rows) ∧
        rows.length = (Binding.lastSeries sub.1.name.text args).length)
      (rows : ∀ sub ∈ s.subsections, ∀ rows, vs.getStream sub.1 = .ok (.ofRows rows) →
        ∀ (i : ℕ) (row : ValueSet) (given : List BindArg), rows[i]? = some row →
          (Binding.lastSeries sub.1.name.text args)[i]? = some given → Means sub.2 given row) :
      Means s args vs

namespace Binding

variable {σ : Session} {s : Schema}

/-! ### Names and places -/

/-- What an argument gives for the place of a variable is what it gives for its name. -/
theorem scalarFor?_eq (hσ : σ.Valid) (hs : s ∈ σ.schemas) {arg : BindArg} (hgave : σ.Gave arg)
    {slot : Var} (hslot : slot ∈ s.scalars) :
    arg.scalarFor? s slot.index = arg.stringFor? slot.name.text := by
  have hwf := (hσ.inOrder_of_mem hs).wellFormed
  have hfind : s.scalar? slot.name.text = some slot :=
    hwf.coherent.scalar?_eq_some_iff.mpr ⟨(hwf.coherent.var_of_mem hslot).1, rfl⟩
  cases arg with
  | rows key given => rfl
  | scalar key value level =>
      rw [BindArg.scalarFor?, BindArg.stringFor?]
      rcases resolveVar?_cases hσ hs hgave with
        ⟨v, other, hresolve, hother, hsame⟩ | ⟨hresolve, hother⟩
      · obtain ⟨hat, -, hname⟩ := hwf.of_scalar?_eq hother
        have hindex : v.index = other.index := by rw [hsame]
        rw [hresolve]
        dsimp only
        rw [hindex]
        -- variables have one place for one name
        refine if_congr ⟨fun hplace => ?_, fun hsame => ?_⟩ rfl rfl
        · rw [hplace, (hwf.of_scalar?_eq hfind).1] at hat
          rw [← hname, Option.some.inj hat]
        · rw [hsame, hfind] at hother
          rw [Option.some.inj hother]
      · rw [hresolve]
        dsimp only
        refine (if_neg fun hname => ?_).symm
        rw [hname, hfind] at hother
        cases hother

/-- What an argument gives for the place of a subsection is what it gives for its name, if it is
admissible. -/
theorem rowsFor?_eq [UrlReader] (hσ : σ.Valid) (hs : s ∈ σ.schemas) {arg : BindArg}
    (hgave : σ.Gave arg) (hadmissible : arg.Admissible s) {sub : Tag × Schema}
    (hsub : sub ∈ s.subsections) :
    arg.rowsFor? s sub.1.index = arg.seriesFor? sub.1.name.text := by
  have hwf := (hσ.inOrder_of_mem hs).wellFormed
  obtain ⟨t, child⟩ := sub
  obtain ⟨hat, -⟩ := hwf.coherent.tag_of_mem hsub
  have hfind : s.subsection? t.name.text = some t := hwf.subsection?_eq hat
  cases arg with
  | scalar key value level => rfl
  | rows key given =>
      rw [BindArg.rowsFor?, BindArg.seriesFor?]
      rcases resolveTag?_cases hσ hs hgave with ⟨other, d, hresolve, -, -, hother⟩ |
        ⟨name, rfl, hresolve, hnone⟩ | ⟨foreign, rfl, hparent, -⟩
      · rw [hresolve]
        dsimp only
        refine if_congr ⟨fun hplace => ?_, fun hsame => ?_⟩ rfl rfl
        · obtain ⟨_, hother, hname⟩ := hwf.of_subsection?_eq hother
          rw [hplace, hat] at hother
          cases hother
          exact hname.symm
        · rw [hsame, hfind] at hother
          rw [Option.some.inj hother]
      · rw [hresolve]
        dsimp only
        refine (if_neg fun hname => ?_).symm
        rw [BindArg.name] at hname
        rw [hname, hwf.rows?_eq hat] at hnone
        cases hnone
      · cases hadmissible with
        | series hkey _ _ => exact absurd (hkey _ rfl) hparent

variable {args : List BindArg}

/-- The last string for the place of a variable is the last one for its name. -/
theorem lastScalar?_eq (hσ : σ.Valid) (hs : s ∈ σ.schemas) (hgave : ∀ arg ∈ args, σ.Gave arg)
    {slot : Var} (hslot : slot ∈ s.scalars) :
    lastScalar? s slot.index args = lastString? slot.name.text args := by
  rw [lastScalar?, lastString?, List.filterMap_congr fun arg harg =>
    scalarFor?_eq hσ hs (hgave arg harg) hslot]

variable [UrlReader]

/-- The last rows for the place of a subsection are the last ones for its name. -/
theorem lastRows_eq (hσ : σ.Valid) (hs : s ∈ σ.schemas) (hgave : ∀ arg ∈ args, σ.Gave arg)
    (hadmissible : ∀ arg ∈ args, arg.Admissible s) {sub : Tag × Schema}
    (hsub : sub ∈ s.subsections) :
    lastRows s sub.1.index args = lastSeries sub.1.name.text args := by
  rw [lastRows, lastSeries, List.filterMap_congr fun arg harg =>
    rowsFor?_eq hσ hs (hgave arg harg) (hadmissible arg harg) hsub]

/-! ### What binding yields -/

/-- Arguments are bound if all of them are admissible, and the first that is not is refused
else. -/
theorem bind_cases (hs : s ∈ σ.schemas) (hargs : ∀ arg ∈ args, Decided σ arg) :
    ((∀ arg ∈ args, arg.Admissible s) ∧ ∃ vs, s.bind args = .ok vs) ∨
    (∃ f, FirstRefused s args f ∧ s.bind args = .error (.failure f)) := by
  rw [Schema.bind, ValueSet.bindInto]
  rcases @applyAll_cases σ _ args hargs s.valueSet hs with
    ⟨hall, vs, happly⟩ | ⟨vs, f, hfirst, happly⟩
  · rw [happly]
    exact .inl ⟨hall, vs, rfl⟩
  · rw [happly]
    exact .inr ⟨f, hfirst, rfl⟩

/-- Arguments of which the first one that is not admissible is refused are not all admissible. -/
theorem FirstRefused.not_all {f : Failure} (h : FirstRefused s args f) :
    ¬ ∀ arg ∈ args, arg.Admissible s := by
  obtain ⟨before, arg, after, rfl, -, hrefused⟩ := h
  exact fun hall => hrefused.not_admissible (hall arg (List.mem_append_right _ List.mem_cons_self))

/-- **Binding yields what arguments mean**, if it does for the arguments of all rows. -/
theorem means_of_bind (hσ : σ.Valid) (hs : s ∈ σ.schemas) (hgave : ∀ arg ∈ args, σ.Gave arg)
    (hadmissible : ∀ arg ∈ args, arg.Admissible s)
    (hrows : ∀ arg ∈ args, ∀ row ∈ arg.given, ∀ d ∈ σ.schemas, ∀ ws, d.bind row = .ok ws →
      ws.Means d row) {vs : ValueSet} (hbind : s.bind args = .ok vs) : vs.Means s args := by
  have hwf := (hσ.inOrder_of_mem hs).wellFormed
  have hbound := Schema.bound_of_bind hbind
  have hstream : ∀ sub ∈ s.subsections, ∃ rows, vs.getStream sub.1 = .ok (.ofRows rows) ∧
      List.Forall₂ (fun row given => sub.2.bind given = .ok row) rows
        (lastSeries sub.1.name.text args) := by
    intro sub hsub
    obtain ⟨rows, hget, -, hall⟩ := hbound.getStream_eq hwf (hwf.coherent.tag_of_mem hsub).1
    exact ⟨rows, hget, lastRows_eq hσ hs hgave hadmissible hsub ▸ hall⟩
  refine .intro hbound.schema_eq (fun slot hslot => ?_) (fun sub hsub => ?_) ?_
  · obtain ⟨hat, hattached⟩ := hwf.coherent.var_of_mem hslot
    rw [← hbound.schema_eq] at hattached
    refine ⟨vs.valueAt slot.index, ?_, ValueSet.getScalar_of_attached hattached⟩
    rw [← lastScalar?_eq hσ hs hgave hslot]
    cases hlast : lastScalar? s slot.index args with
    | none => rw [textOf, hbound.unset hlast]
    | some last =>
        obtain ⟨other, hother, hcheck⟩ := hbound.checked hlast
        rw [hat] at hother
        cases hother
        exact hcheck
  · obtain ⟨rows, hget, hall⟩ := hstream sub hsub
    exact ⟨rows, hget, hall.length_eq⟩
  · intro sub hsub rows hget i row given hrow hgiven
    obtain ⟨rows', hget', hall⟩ := hstream sub hsub
    rw [hget] at hget'
    cases hget'
    -- the arguments of a row are those of a row that was given, of which the meaning is known
    have hlast := lastRows_eq hσ hs hgave hadmissible hsub ▸ List.mem_of_getElem? hgiven
    obtain ⟨key, series, harg, hmem⟩ := mem_of_mem_lastRows hlast
    obtain ⟨hi, rfl⟩ := List.getElem?_eq_some_iff.mp hrow
    obtain ⟨hi', rfl⟩ := List.getElem?_eq_some_iff.mp hgiven
    exact hrows _ harg _ hmem _ (Session.rows_mem_schemas hs hsub) _ (hall.get hi hi')

/-- What is known of an argument whose handles were given out, and of its rows. Which schema rows
are bound for is not known yet, so it has to hold for all of them. -/
structure Understood (σ : Session) (arg : BindArg) : Prop where
  gave : σ.Gave arg
  decided : Decided σ arg
  rows : ∀ row ∈ arg.given, ∀ d ∈ σ.schemas, ∀ ws, d.bind row = .ok ws → ws.Means d row

/-- Arguments that are understood are bound to what they mean. -/
theorem Understood.means (hσ : σ.Valid) (hs : s ∈ σ.schemas)
    (hargs : ∀ arg ∈ args, Understood σ arg) {vs : ValueSet} (hbind : s.bind args = .ok vs) :
    vs.Means s args := by
  rcases bind_cases hs fun arg harg => (hargs arg harg).decided with ⟨hall, -⟩ | ⟨f, -, herror⟩
  · exact means_of_bind hσ hs (fun arg harg => (hargs arg harg).gave) hall
      (fun arg harg => (hargs arg harg).rows) hbind
  · rw [hbind] at herror
    cases herror

/-- **Arguments whose handles were given out are understood.** -/
theorem understood (hσ : σ.Valid) (hargs : BindArg.AllEverywhere σ.Gave args) :
    ∀ arg ∈ args, Understood σ arg := by
  have hind : BindArg.Inductive σ.Gave (Understood σ) := by
    refine ⟨fun key value level hgave => ?_, fun key given hgave hgiven => ?_⟩
    · exact ⟨hgave, decided_scalar hσ hgave, nofun⟩
    · refine ⟨hgave, decided_rows hσ hgave fun row hrow arg harg => ?_, fun row hrow d hd ws => ?_⟩
      · exact (hgiven row hrow arg harg).decided
      · exact Understood.means hσ hd (hgiven row hrow)
  exact hind.holds_all args hargs

end Binding

namespace Session

variable [UrlReader] {σ : Session}

/-- **What binding yields**, for a schema of a session and arguments whose handles were given out.
There are values exactly if all arguments are admissible; they mean what the arguments give, at
every level of nesting; and if there are none, the failure is that of the first argument that is
not admissible. -/
theorem Reached.bind_means (hσ : σ.Reached) {s : Schema} (hs : s ∈ σ.schemas)
    {args : List BindArg} (hargs : BindArg.AllEverywhere σ.Gave args) :
    ((∃ vs, s.bind args = .ok vs) ↔ ∀ arg ∈ args, arg.Admissible s) ∧
    (∀ vs, s.bind args = .ok vs → vs.Means s args) ∧
    ∀ e, s.bind args = .error e → ∃ before arg after f, args = before ++ arg :: after ∧
      (∀ other ∈ before, other.Admissible s) ∧ ¬ arg.Admissible s ∧ arg.Refused s f ∧
        e = .failure f := by
  have hunderstood := Binding.understood hσ.valid hargs
  have hmeans : ∀ vs, s.bind args = .ok vs → vs.Means s args := fun vs hbind =>
    Binding.Understood.means hσ.valid hs hunderstood hbind
  rcases Binding.bind_cases hs fun arg harg => (hunderstood arg harg).decided with
    ⟨hall, hok⟩ | ⟨f, hfirst, herror⟩
  · refine ⟨⟨fun _ => hall, fun _ => hok⟩, hmeans, fun e herror => ?_⟩
    obtain ⟨vs, hok⟩ := hok
    rw [hok] at herror
    cases herror
  · refine ⟨⟨?_, fun hall => absurd hall hfirst.not_all⟩, hmeans, fun e he => ?_⟩
    · rintro ⟨vs, hok⟩
      rw [hok] at herror
      cases herror
    · rw [herror] at he
      cases he
      obtain ⟨before, arg, after, hargs, hbefore, hrefused⟩ := hfirst
      exact ⟨before, arg, after, f, hargs, hbefore, hrefused.not_admissible, hrefused, rfl⟩

end Session

/-- The variable `caption` of `directory`. -/
def captionVar : Var := ⟨0, ⟨"caption", by decide⟩, .textSafe, some ⟨1⟩⟩

/-- The subsection `links` of `directory`. -/
def linksTag : Tag := ⟨0, ⟨"links", by decide⟩, ⟨1⟩, ⟨2⟩⟩

/-- The variable `label` of a link. -/
def labelVar : Var := ⟨0, ⟨"label", by decide⟩, .textSafe, some ⟨2⟩⟩

/-- The schema of the rows of `links`. -/
def linkRow : Schema := ⟨⟨2⟩, false, some ⟨⟨1⟩, 0, linksTag.name⟩, [labelVar], []⟩

/-- A strict schema with a caption, and with links that have labels. -/
def directory : Schema := ⟨⟨1⟩, true, none, [captionVar], [(linksTag, linkRow)]⟩

/-- Two captions, the second of which counts, and two links, one of which has a name that is
ignored. -/
def directoryArgs : List BindArg := [
  .scalar (.name "caption") (.untrusted "draft") .untrusted,
  .scalar (.handle captionVar) (.untrusted "a < b") .untrusted,
  .rows (.handle linksTag) [
    [.scalar (.name "label") (.untrusted "home") .untrusted],
    [.scalar (.name "unknown") (.untrusted "x") .untrusted]]]

/-- Two links, the second of which has a label that its place does not accept, and behind them a
name that `directory` does not declare. -/
def misplacedArgs : List BindArg := [
  .scalar (.name "caption") (.untrusted "a < b") .untrusted,
  .rows (.name "links") [
    [.scalar (.name "label") (.untrusted "home") .untrusted],
    [.scalar (.name "label") ⟨.urlSafe, "/"⟩ .untrusted]],
  .scalar (.name "unknown") (.untrusted "x") .untrusted]

namespace Session

/-- A session with `directory`, in which handles to its caption and its links were given out. -/
def withDirectory : Session := ⟨[.draft directory], 3, [captionVar], [linksTag]⟩

/-- `directory` can be made. -/
theorem reached_withDirectory : withDirectory.Reached := by
  have hroot : Reached ⟨[.draft (.root ⟨1⟩)], 2, [], []⟩ := .step (.start 1) .newRoot
  have hcaption : Reached ⟨[.draft ⟨⟨1⟩, false, none, [captionVar], []⟩], 2, [], []⟩ :=
    hroot.call (.declare "caption" .textSafe) nofun rfl
  have hlinks : Reached ⟨[.draft ⟨⟨1⟩, false, none, [captionVar],
      [(linksTag, { linkRow with scalars := [] })]⟩], 3, [], []⟩ :=
    hcaption.call (.declareSubsection "links") nofun rfl
  have hgiven := hlinks.step (@Step.giveTag _ _ _ (linksTag, { linkRow with scalars := [] })
    List.mem_cons_self List.mem_cons_self)
  have hlabel : Reached ⟨[.draft (directory.setStrict false)], 3, [], [linksTag]⟩ :=
    hgiven.call (.inChild linksTag (.declare "label" .textSafe)) (by decide) rfl
  have hstrict : Reached ⟨[.draft directory], 3, [], [linksTag]⟩ :=
    hlabel.call (.setStrict true) nofun rfl
  exact hstrict.step
    (@Step.giveVar _ _ directory captionVar _ List.mem_cons_self List.mem_cons_self (le_refl _))

/-- What `directory` is bound to, and what is refused: the label of the second link, before the
name that is not declared. -/
theorem bind_means_directory :
    (∃ vs, directory.bind directoryArgs = .ok vs ∧ vs.Means directory directoryArgs ∧
      ∀ arg ∈ directoryArgs, arg.Admissible directory) ∧
    ∃ before arg after, misplacedArgs = before ++ arg :: after ∧
      (∀ other ∈ before, other.Admissible directory) ∧ ¬ arg.Admissible directory ∧
      directory.bind misplacedArgs = .error (.failure
        ⟨.bind (.trust "label" (.unsatisfied .urlSafe .textSafe)), [.row 2 2 "links"]⟩) := by
  have hmem : directory ∈ withDirectory.schemas := List.mem_cons_self
  constructor
  · have hgave : BindArg.AllEverywhere withDirectory.Gave directoryArgs := by
      simp [directoryArgs, BindArg.AllEverywhere, BindArg.Everywhere, BindArg.RowsEverywhere, Gave,
        withDirectory]
    obtain ⟨hadmissible, hmeans, -⟩ := reached_withDirectory.bind_means hmem hgave
    have hok : (directory.bind directoryArgs).toOption.isSome := by decide +kernel
    cases hbind : directory.bind directoryArgs with
    | error e =>
        rw [hbind] at hok
        cases hok
    | ok vs => exact ⟨vs, rfl, hmeans vs hbind, hadmissible.mp ⟨vs, hbind⟩⟩
  · have hgave : BindArg.AllEverywhere withDirectory.Gave misplacedArgs := by
      simp [misplacedArgs, BindArg.AllEverywhere, BindArg.Everywhere, BindArg.RowsEverywhere, Gave]
    obtain ⟨-, -, hrefused⟩ := reached_withDirectory.bind_means hmem hgave
    have hrun : (directory.bind misplacedArgs).map (fun _ => ()) = .error (.failure
        ⟨.bind (.trust "label" (.unsatisfied .urlSafe .textSafe)), [.row 2 2 "links"]⟩) := by
      decide +kernel
    cases hbind : directory.bind misplacedArgs with
    | ok vs =>
        rw [hbind] at hrun
        cases hrun
    | error e =>
        rw [hbind] at hrun
        obtain rfl := Except.error.inj hrun
        obtain ⟨before, arg, after, -, hargs, hbefore, harg, -⟩ := hrefused _ hbind
        exact ⟨before, arg, after, hargs, hbefore, harg, rfl⟩

end Session

end TrustedHtml
