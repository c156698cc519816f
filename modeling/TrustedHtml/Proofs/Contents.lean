import TrustedHtml.Proofs.BindingMeaning

/-!
# What Value Sets Hold

Strings and rows are stored in a value set by one call after the other, in any order and through
handles that can be older than declarations by which the schema grew since. Places are provided
all at once when something is first stored, and strings can be refused in between. Told by names
a value set is a map with empty defaults nevertheless: what was stored last under a name is read
under that name, and what was refused was never stored.

## Main definitions

* `ValueCall`: a call that stores something in a value set.
* `ValueCall.Fits`: the handle of a call was given out and belongs to the schema.
* `ValueCall.lastText`, `ValueCall.lastStream`: what calls have stored last under a name.
* `ValueSet.Holds`: every place holds what was stored last under its name.
* `ValueSet.Reads`, `ValueCall.Outcome`: what handles read after some calls, and what one call does.

## Main results

* `ValueCall.run_cases`: what one call can do.
* `ValueSet.Holds.after`, `ValueSet.Holds.afterCalls`: **the description stays true**.
* `Session.Reached.contents_of_calls`: **a value set is a map with empty defaults.**
-/

namespace TrustedHtml

/-! ### Calls -/

/-- A call that stores something in a value set. -/
inductive ValueCall where
  | setScalar (v : Var) (value : SafeString)
  | setConst (v : Var) (text : String)
  | setStream (t : Tag) (stream : RowStream ValueSet)
  | setRows (t : Tag) (rows : List ValueSet)

namespace ValueCall

/-- The name that a call stores something under. -/
def name : ValueCall → String
  | setScalar v _ | setConst v _ => v.name.text
  | setStream t _ | setRows t _ => t.name.text

/-- **The handle of a call was given out and belongs to the schema**, and so do rows to the schema
of the subsection. -/
def Fits (σ : Session) (s : Schema) : ValueCall → Prop
  | setScalar v _ | setConst v _ => v ∈ σ.vars ∧ v.schema = some s.id
  | setStream t _ => t ∈ σ.tags ∧ t.parent = s.id
  | setRows t rows => t ∈ σ.tags ∧ t.parent = s.id ∧ ∀ row ∈ rows, row.schema.id = t.child

/-- The rows that a call gives for a name. -/
def streamFor? (name : String) : ValueCall → Option (RowStream ValueSet)
  | setStream t stream => if t.name.text = name then some stream else none
  | setRows t rows => if t.name.text = name then some (.ofRows rows) else none
  | _ => none

/-- The rows that calls have stored last under a name; none if there are none. -/
def lastStream (name : String) (calls : List ValueCall) : RowStream ValueSet :=
  (calls.filterMap (·.streamFor? name)).getLast?.getD .empty

/-- The rows of a later call count. -/
theorem lastStream_concat (name : String) (calls : List ValueCall) (call : ValueCall) :
    lastStream name (calls ++ [call]) = (call.streamFor? name).getD (lastStream name calls) := by
  rw [lastStream, List.filterMap_append, List.getLast?_append]
  cases h : call.streamFor? name <;> simp [h, lastStream]

variable [UrlReader]

/-- Carry out a call. -/
def run (vs : ValueSet) : ValueCall → Except Abort ValueSet
  | setScalar v value => vs.setScalar v value
  | setConst v text => (vs.setConst v text).mapError .misuse
  | setStream t stream => (vs.setStream t stream).mapError .misuse
  | setRows t rows => (vs.setRows t rows).mapError .misuse

/-- What is there after a call: the same values as before, if it fails. -/
def after (vs : ValueSet) (call : ValueCall) : ValueSet :=
  (call.run vs).toOption.getD vs

/-- **A call is refused**: its string does not meet what the place of its variable requires. -/
def Refused (s : Schema) (source : TrustError) : ValueCall → Prop
  | setScalar v value =>
      ∃ slot, s.scalar? v.name.text = some slot ∧ value.check slot.level = .error source
  | _ => False

/-- The string that a call gives for a name: a literal as it is, and any other string as its check
gives it, unless it is refused. -/
def textFor? (s : Schema) (name : String) : ValueCall → Option String
  | setScalar v value =>
      if v.name.text = name then
        (s.scalar? name).bind fun slot => (value.check slot.level).toOption
      else none
  | setConst v text => if v.name.text = name then some text else none
  | _ => none

/-- The string that calls have stored last under a name; empty if there is none. -/
def lastText (s : Schema) (name : String) (calls : List ValueCall) : String :=
  (calls.filterMap (·.textFor? s name)).getLast?.getD ""

/-- The string of a later call counts. -/
theorem lastText_concat (s : Schema) (name : String) (calls : List ValueCall) (call : ValueCall) :
    lastText s name (calls ++ [call]) = (call.textFor? s name).getD (lastText s name calls) := by
  rw [lastText, List.filterMap_append, List.getLast?_append]
  cases h : call.textFor? s name <;> simp [h, lastText]

end ValueCall

/-- What is there after calls, the failing ones included. -/
def ValueSet.afterCalls [UrlReader] (vs : ValueSet) (calls : List ValueCall) : ValueSet :=
  calls.foldl ValueCall.after vs

/-! ### Places and names -/

namespace Schema

variable {s : Schema}

/-- Variables have one place for one name. -/
theorem WellFormed.index_eq_iff (h : s.WellFormed) {a b : Var} (ha : a ∈ s.scalars)
    (hb : b ∈ s.scalars) : a.index = b.index ↔ a.name.text = b.name.text := by
  obtain ⟨hat, -⟩ := h.coherent.var_of_mem ha
  obtain ⟨hbt, -⟩ := h.coherent.var_of_mem hb
  constructor
  · intro hindex
    rw [hindex, hbt] at hat
    rw [Option.some.inj hat]
  · intro hname
    have hfind := h.coherent.scalar?_eq_some_iff.mpr ⟨hat, rfl⟩
    rw [hname, h.coherent.scalar?_eq_some_iff.mpr ⟨hbt, rfl⟩] at hfind
    rw [Option.some.inj hfind]

/-- Subsections have one place for one name. -/
theorem WellFormed.tag_index_eq_iff (h : s.WellFormed) {a b : Tag × Schema}
    (ha : a ∈ s.subsections) (hb : b ∈ s.subsections) :
    a.1.index = b.1.index ↔ a.1.name.text = b.1.name.text := by
  obtain ⟨hat, -⟩ := h.coherent.tag_of_mem ha
  obtain ⟨hbt, -⟩ := h.coherent.tag_of_mem hb
  constructor
  · intro hindex
    rw [hindex, hbt] at hat
    rw [Option.some.inj hat]
  · intro hname
    have hfind := h.subsection?_eq hat
    rw [hname, h.subsection?_eq hbt] at hfind
    rw [Option.some.inj hfind]

end Schema

namespace Session

variable {σ : Session} {s : Schema}

/-- A handle that belongs to a schema is the variable of its name, with the level that was required
when it was given out. -/
theorem Valid.slot_of_handle (hσ : σ.Valid) (hs : s ∈ σ.schemas) {v : Var} (hv : v ∈ σ.vars)
    (hown : v.schema = some s.id) :
    ∃ slot, s.scalar? v.name.text = some slot ∧ v.index = slot.index ∧
      v = { slot with level := v.level } := by
  rcases @Binding.resolveVar?_cases σ s hσ hs (.handle v) (.constant "") .untrusted (.inr hv) with
    ⟨w, slot, hresolve, hslot, hsame⟩ | ⟨hresolve, -⟩
  · rw [Binding.resolveVar?, if_pos hown] at hresolve
    cases hresolve
    exact ⟨slot, hslot, by rw [hsame], hsame⟩
  · rw [Binding.resolveVar?, if_pos hown] at hresolve
    cases hresolve

end Session

namespace ValueSet

variable {vs : ValueSet}

/-- Storing provides all places, or there are all of them already. -/
theorem length_set_provide {α : Type} {index count : ℕ} (h : index < count) (a default : α)
    {places : List α} (hplaces : places.length = 0 ∨ places.length = count) :
    ((provide index count default places).set index a).length = count := by
  rw [List.length_set, provide]
  split
  · rw [List.length_append, List.length_replicate]
    omega
  · omega

/-- What can be read after a string has been stored at a place of the schema. -/
theorem valueAt_stored {index : ℕ} (h : index < vs.schema.scalars.length) (text : String) (i : ℕ) :
    (vs.stored index text).valueAt i = if index = i then text else vs.valueAt i :=
  getD_of_put (put_provide h text "" vs.values) i

/-- What can be read after rows have been set at a place of the schema. -/
theorem streamAt_storedStream {index : ℕ} (h : index < vs.schema.subsections.length)
    (stream : RowStream ValueSet) (i : ℕ) :
    (vs.storedStream index stream).streamAt i = if index = i then stream else vs.streamAt i := by
  rw [streamAt, storedStream, getD_of_put (put_provide h (some stream) none vs.streams) i]
  split <;> rfl

end ValueSet

section

/-! ### One call -/

variable [UrlReader] {σ : Session} {s : Schema} {vs : ValueSet}

/-- Storing through a handle comes down to the check for the place of its name. -/
theorem ValueSet.setScalar_of_handle (h : vs.schema.WellFormed) {v slot : Var}
    (hslot : vs.schema.scalar? v.name.text = some slot)
    (hsame : v = { slot with level := v.level }) (value : SafeString) :
    vs.setScalar v value = match value.check slot.level with
      | .ok text => .ok (vs.stored slot.index text)
      | .error source => .error (.ofCause (.bind (.trust v.name.text source))) := by
  obtain ⟨hat, hattached, -⟩ := h.of_scalar?_eq hslot
  have hset : vs.setScalar v value = vs.setScalarRequiring slot value .untrusted := by
    rw [setScalar, hsame, Binding.setScalarRequiring_eq hattached]
  rw [hset, setScalarRequiring_of_find h hslot,
    sup_eq_left.mpr (TrustLevel.untrusted_le slot.level)]
  cases value.check slot.level with
  | error source => rfl
  | ok text =>
      dsimp only
      rw [store_eq_stored (List.getElem?_eq_some_iff.mp hat).1]
      rfl

namespace ValueCall

/-- **What one call can do**: it is refused; or it stores a string at the place of its name; or it
sets rows there. -/
theorem run_cases (hσ : σ.Valid) (hs : vs.schema ∈ σ.schemas) {call : ValueCall}
    (hfits : call.Fits σ vs.schema) :
    (∃ source, call.Refused vs.schema source ∧ (∀ name, call.textFor? vs.schema name = none) ∧
      (∀ name, call.streamFor? name = none) ∧
      call.run vs = .error (.ofCause (.bind (.trust call.name source)))) ∨
    (∃ slot ∈ vs.schema.scalars, ∃ text, (∀ source, ¬ call.Refused vs.schema source) ∧
      (∀ name, call.textFor? vs.schema name = if slot.name.text = name then some text else none) ∧
      (∀ name, call.streamFor? name = none) ∧ call.run vs = .ok (vs.stored slot.index text)) ∨
    (∃ sub ∈ vs.schema.subsections, ∃ stream, (∀ source, ¬ call.Refused vs.schema source) ∧
      (∀ name, call.textFor? vs.schema name = none) ∧
      (∀ name, call.streamFor? name = if sub.1.name.text = name then some stream else none) ∧
      call.run vs = .ok (vs.storedStream sub.1.index stream)) := by
  have hwf := (hσ.inOrder_of_mem hs).wellFormed
  have hstream : ∀ {t : Tag} (stream : RowStream ValueSet), t ∈ σ.tags → t.parent = vs.schema.id →
      ∃ d, (t, d) ∈ vs.schema.subsections ∧
        vs.setStream t stream = .ok (vs.storedStream t.index stream) := by
    intro t stream ht hown
    obtain ⟨d, hat⟩ := (hσ.tags t ht).2 _ hs hown.symm
    exact ⟨d, List.mem_of_getElem? hat,
      ValueSet.setStream_eq_stored hown (List.getElem?_eq_some_iff.mp hat).1 stream⟩
  cases call with
  | setScalar v value =>
      obtain ⟨hv, hown⟩ := hfits
      obtain ⟨slot, hslot, -, hsame⟩ := hσ.slot_of_handle hs hv hown
      obtain ⟨hat, -, hname⟩ := hwf.of_scalar?_eq hslot
      have hrun := ValueSet.setScalar_of_handle hwf hslot hsame value
      have htext : ∀ name, (setScalar v value).textFor? vs.schema name =
          if slot.name.text = name then (value.check slot.level).toOption else none := by
        intro name
        rw [textFor?, hname]
        split
        · rename_i hsame
          rw [← hsame, hslot, Option.bind_some]
        · rfl
      cases hcheck : value.check slot.level with
      | error source =>
          rw [hcheck] at hrun htext
          refine .inl ⟨source, ⟨slot, hslot, hcheck⟩, fun name => ?_, fun _ => rfl, hrun⟩
          rw [htext, Except.toOption, ite_self]
      | ok text =>
          rw [hcheck] at hrun htext
          refine .inr (.inl ⟨slot, List.mem_of_getElem? hat, text, ?_, htext, fun _ => rfl, hrun⟩)
          rintro source ⟨other, hother, herror⟩
          rw [hslot] at hother
          cases hother
          rw [hcheck] at herror
          cases herror
  | setConst v text =>
      obtain ⟨hv, hown⟩ := hfits
      obtain ⟨slot, hslot, hindex, -⟩ := hσ.slot_of_handle hs hv hown
      obtain ⟨hat, -, hname⟩ := hwf.of_scalar?_eq hslot
      refine .inr (.inl ⟨slot, List.mem_of_getElem? hat, text, fun _ => id, fun name => ?_,
        fun _ => rfl, ?_⟩)
      · rw [textFor?, hname]
      · have hlt : v.index < vs.schema.scalars.length := by
          rw [hindex]
          exact (List.getElem?_eq_some_iff.mp hat).1
        rw [run, ValueSet.setConst, Schema.checkVar_eq_ok hown, ← hindex]
        simp only [bind, Except.bind, ValueSet.store_eq_stored hlt, Except.mapError]
  | setStream t stream =>
      obtain ⟨ht, hown⟩ := hfits
      obtain ⟨d, hmem, hset⟩ := hstream stream ht hown
      refine .inr (.inr ⟨(t, d), hmem, stream, fun _ => id, fun _ => rfl, fun _ => rfl, ?_⟩)
      rw [run, hset]
      rfl
  | setRows t rows =>
      obtain ⟨ht, hown, hrows⟩ := hfits
      obtain ⟨d, hmem, hset⟩ := hstream (.ofRows rows) ht hown
      refine .inr (.inr ⟨(t, d), hmem, .ofRows rows, fun _ => id, fun _ => rfl, fun _ => rfl, ?_⟩)
      rw [run, ValueSet.setRows_eq_setStream hrows, hset]
      rfl

/-- After a call that succeeds there is what it gives. -/
theorem after_of_run {call : ValueCall} {vs' : ValueSet} (h : call.run vs = .ok vs') :
    call.after vs = vs' := by
  rw [after, h]
  rfl

/-- After a call that fails there is what was there before. -/
theorem after_of_error {call : ValueCall} {e : Abort} (h : call.run vs = .error e) :
    call.after vs = vs := by
  rw [after, h]
  rfl

end ValueCall

/-! ### Some calls -/

namespace ValueSet

/-- **Every place holds what was stored last under its name**, and there are all places or none. -/
structure Holds (s : Schema) (calls : List ValueCall) (vs : ValueSet) : Prop where
  schema_eq : vs.schema = s
  strings : ∀ slot ∈ s.scalars,
    vs.valueAt slot.index = ValueCall.lastText s slot.name.text calls
  streams : ∀ sub ∈ s.subsections,
    vs.streamAt sub.1.index = ValueCall.lastStream sub.1.name.text calls
  values_length : vs.values.length = 0 ∨ vs.values.length = s.scalars.length
  streams_length : vs.streams.length = 0 ∨ vs.streams.length = s.subsections.length

namespace Holds

variable {calls : List ValueCall}

/-- A new value set holds nothing. -/
theorem new (s : Schema) : s.valueSet.Holds s [] where
  schema_eq := rfl
  strings _ _ := rfl
  streams _ _ := rfl
  values_length := .inl rfl
  streams_length := .inl rfl

/-- **One call keeps the description true.** -/
theorem after (hσ : σ.Valid) (hs : s ∈ σ.schemas) (h : vs.Holds s calls) {call : ValueCall}
    (hfits : call.Fits σ s) : (call.after vs).Holds s (calls ++ [call]) := by
  obtain ⟨rfl, hstrings, hstreams, hvalues, hplaces⟩ := h
  have hwf := (hσ.inOrder_of_mem hs).wellFormed
  rcases ValueCall.run_cases hσ hs hfits with ⟨_, -, htext, hstream, hrun⟩ |
    ⟨slot, hslot, text, -, htext, hstream, hrun⟩ | ⟨sub, hsub, stream, -, htext, hstream, hrun⟩
  · rw [ValueCall.after_of_error hrun]
    refine ⟨rfl, fun other hother => ?_, fun other hother => ?_, hvalues, hplaces⟩
    · rw [ValueCall.lastText_concat, htext]
      exact hstrings other hother
    · rw [ValueCall.lastStream_concat, hstream]
      exact hstreams other hother
  · rw [ValueCall.after_of_run hrun]
    have hlt := (List.getElem?_eq_some_iff.mp (hwf.coherent.var_of_mem hslot).1).1
    refine ⟨rfl, fun other hother => ?_, fun other hother => ?_,
      .inr (length_set_provide hlt text "" hvalues), hplaces⟩
    · rw [valueAt_stored hlt, ValueCall.lastText_concat, htext, hstrings other hother]
      simp only [hwf.index_eq_iff hslot hother]
      split <;> rfl
    · rw [ValueCall.lastStream_concat, hstream]
      exact hstreams other hother
  · rw [ValueCall.after_of_run hrun]
    have hlt := (List.getElem?_eq_some_iff.mp (hwf.coherent.tag_of_mem hsub).1).1
    refine ⟨rfl, fun other hother => ?_, fun other hother => ?_, hvalues,
      .inr (length_set_provide hlt (some stream) none hplaces)⟩
    · rw [ValueCall.lastText_concat, htext]
      exact hstrings other hother
    · rw [streamAt_storedStream hlt, ValueCall.lastStream_concat, hstream, hstreams other hother]
      simp only [hwf.tag_index_eq_iff hsub hother]
      split <;> rfl

/-- What holds after some calls holds after all of them. -/
theorem afterCalls (hσ : σ.Valid) (hs : s ∈ σ.schemas) {later : List ValueCall}
    (h : vs.Holds s calls) (hfits : ∀ call ∈ later, call.Fits σ s) :
    (vs.afterCalls later).Holds s (calls ++ later) := by
  induction later generalizing vs calls with
  | nil => rwa [List.append_nil]
  | cons call rest ih =>
      obtain ⟨hcall, hrest⟩ := List.forall_mem_cons.mp hfits
      rw [List.append_cons]
      exact ih (h.after hσ hs hcall) hrest

end Holds

/-- **Values read as calls have left them**, through every handle that was given out, and there are
all places or none. -/
structure Reads (σ : Session) (s : Schema) (calls : List ValueCall) (vs : ValueSet) : Prop where
  strings : ∀ v ∈ σ.vars, v.schema = some s.id →
    vs.getScalar v = .ok (ValueCall.lastText s v.name.text calls)
  named : ∀ v ∈ σ.vars, v.schema = some s.id →
    vs.scalarByName v.name.text = (vs.getScalar v).toOption
  streams : ∀ t ∈ σ.tags, t.parent = s.id →
    vs.getStream t = .ok (ValueCall.lastStream t.name.text calls)
  values_length : vs.values.length = 0 ∨ vs.values.length = s.scalars.length
  streams_length : vs.streams.length = 0 ∨ vs.streams.length = s.subsections.length

/-- What places hold is what handles read. -/
theorem Holds.reads (hσ : σ.Valid) (hs : s ∈ σ.schemas) {calls : List ValueCall}
    (h : vs.Holds s calls) : vs.Reads σ s calls := by
  obtain ⟨rfl, hstrings, hstreams, hvalues, hplaces⟩ := h
  have hwf := (hσ.inOrder_of_mem hs).wellFormed
  refine ⟨fun v hv hown => ?_, fun v hv hown => ?_, fun t ht hown => ?_, hvalues, hplaces⟩
  · obtain ⟨slot, hslot, hindex, -⟩ := hσ.slot_of_handle hs hv hown
    obtain ⟨hat, -, hname⟩ := hwf.of_scalar?_eq hslot
    rw [getScalar_of_attached hown, hindex, hstrings slot (List.mem_of_getElem? hat), hname]
  · obtain ⟨slot, hslot, hindex, -⟩ := hσ.slot_of_handle hs hv hown
    rw [getScalar_of_attached hown, scalarByName, hslot, hindex]
    rfl
  · obtain ⟨d, hat⟩ := (hσ.tags t ht).2 _ hs hown.symm
    rw [getStream_of_parent hown, hstreams (t, d) (List.mem_of_getElem? hat)]

end ValueSet

/-- **What one more call does**: a string that does not meet what its place requires is refused,
and the values stay as they are; any other call sets what is read under its name, and everything
else stays as it is. -/
inductive ValueCall.Outcome (σ : Session) (s : Schema) (vs : ValueSet) (call : ValueCall) : Prop
  | refused {source : TrustError} (refused : call.Refused s source)
      (run_eq : call.run vs = .error (.ofCause (.bind (.trust call.name source))))
      (after_eq : call.after vs = vs)
  | stored {vs' : ValueSet} (accepted : ∀ source, ¬ call.Refused s source)
      (run_eq : call.run vs = .ok vs') (after_eq : call.after vs = vs')
      (strings : ∀ v ∈ σ.vars, v.schema = some s.id → vs'.getScalar v =
        (vs.getScalar v).map fun text => (call.textFor? s v.name.text).getD text)
      (streams : ∀ t ∈ σ.tags, t.parent = s.id → vs'.getStream t =
        (vs.getStream t).map fun stream => (call.streamFor? t.name.text).getD stream)

/-- One more call is refused, or it changes what its name reads. -/
theorem ValueSet.Holds.outcome (hσ : σ.Valid) (hs : s ∈ σ.schemas) {calls : List ValueCall}
    (h : vs.Holds s calls) {call : ValueCall} (hfits : call.Fits σ s) : call.Outcome σ s vs := by
  have hbefore := h.reads hσ hs
  have hreads := (h.after hσ hs hfits).reads hσ hs
  have hstored : ∀ {vs'}, (∀ source, ¬ call.Refused s source) → call.run vs = .ok vs' →
      call.Outcome σ s vs := by
    intro vs' haccepted hrun
    rw [ValueCall.after_of_run hrun] at hreads
    refine .stored haccepted hrun (ValueCall.after_of_run hrun) (fun v hv hown => ?_)
      fun t ht hown => ?_
    · rw [hreads.strings v hv hown, hbefore.strings v hv hown, ValueCall.lastText_concat]
      rfl
    · rw [hreads.streams t ht hown, hbefore.streams t ht hown, ValueCall.lastStream_concat]
      rfl
  obtain rfl := h.schema_eq
  rcases ValueCall.run_cases hσ hs hfits with ⟨_, hrefused, -, -, hrun⟩ |
    ⟨_, -, _, haccepted, -, -, hrun⟩ | ⟨_, -, _, haccepted, -, -, hrun⟩
  · exact .refused hrefused hrun (ValueCall.after_of_error hrun)
  · exact hstored haccepted hrun
  · exact hstored haccepted hrun

namespace Session

/-- **A value set is a map with empty defaults.** After any calls on a new value set for a schema
of a session, through handles that were given out and belong to the schema, a variable reads the
string that was stored last under its name, as its check gave it, and a subsection the rows that
were set last, be it empty if there are none; a name reads what its handles read. One more call is
refused and changes nothing, or it sets what its name reads and nothing else. -/
theorem Reached.contents_of_calls (hσ : σ.Reached) (hs : s ∈ σ.schemas) {calls : List ValueCall}
    (hcalls : ∀ call ∈ calls, call.Fits σ s) :
    (s.valueSet.afterCalls calls).Reads σ s calls ∧
      ∀ call : ValueCall, call.Fits σ s → call.Outcome σ s (s.valueSet.afterCalls calls) := by
  have hholds : (s.valueSet.afterCalls calls).Holds s calls :=
    (ValueSet.Holds.new s).afterCalls hσ.valid hs hcalls
  exact ⟨hholds.reads hσ.valid hs, fun call hfits => hholds.outcome hσ.valid hs hfits⟩

end Session

end

/-- A caption, another one that is refused, a link, and no links instead. -/
def directoryCalls : List ValueCall := [
  .setScalar captionVar (.untrusted "a < b"),
  .setScalar captionVar ⟨.urlSafe, "/"⟩,
  .setRows linksTag [linkRow.valueSet],
  .setStream linksTag .empty]

namespace Session

/-- What values for `directory` hold after some calls: the caption that was not refused, and no
links. A caption that is refused once more leaves it as it is. -/
theorem contents_of_directoryCalls :
    (∀ call ∈ directoryCalls, call.Fits withDirectory directory) ∧
    (directory.valueSet.afterCalls directoryCalls).getScalar captionVar = .ok "a &lt; b" ∧
    (directory.valueSet.afterCalls directoryCalls).getStream linksTag = .ok .empty ∧
    (ValueCall.setScalar captionVar ⟨.urlSafe, "/"⟩).Outcome withDirectory directory
      (directory.valueSet.afterCalls directoryCalls) := by
  have hfits : ∀ call ∈ directoryCalls, call.Fits withDirectory directory := by
    simp [directoryCalls, ValueCall.Fits, withDirectory, captionVar, linksTag, directory,
      linkRow, Schema.valueSet]
  have hmem : directory ∈ withDirectory.schemas := List.mem_cons_self
  obtain ⟨hreads, houtcome⟩ := reached_withDirectory.contents_of_calls hmem hfits
  refine ⟨hfits, ?_, ?_, houtcome _ ⟨List.mem_cons_self, rfl⟩⟩
  · have hlast : ValueCall.lastText directory captionVar.name.text directoryCalls = "a &lt; b" := by
      decide +kernel
    rw [hreads.strings captionVar List.mem_cons_self rfl, hlast]
  · exact hreads.streams linksTag List.mem_cons_self rfl

end Session

end TrustedHtml
