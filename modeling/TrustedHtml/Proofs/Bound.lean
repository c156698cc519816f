import TrustedHtml.Binding.Bind
import TrustedHtml.Proofs.SchemaGrowth

/-!
# What Binding Stores

Arguments are applied one after the other, and several of them can address the same place.
`ValueSet.Bound s args vs` says what `vs` holds after `args` have been applied to a new value
set for `s`. The last argument for a place counts: a variable holds what the check of the
last string gave, at the level of its place joined with the level of the argument, and a
subsection holds one row for every list of arguments in the last rows. What no argument
addresses is as it was in the beginning.

## Main results

* `Binding.applyArg_bound`: **one argument keeps the description true**.
* `Schema.bound_of_bind`: it is true of what binding yields, and of every row in it.
-/

namespace TrustedHtml

/-- A sequence of two operations succeeds if both do. -/
theorem Except.bind_eq_ok {ε α β : Type} {x : Except ε α} {k : α → Except ε β} {b : β} :
    x >>= k = .ok b ↔ ∃ a, x = .ok a ∧ k a = .ok b := by
  constructor
  · intro h
    cases x with
    | ok a => exact ⟨a, rfl, h⟩
    | error e => cases h
  · rintro ⟨a, rfl, h⟩
    exact h

/-- Restating an error changes nothing about success. -/
theorem Except.mapError_eq_ok {ε δ α : Type} {x : Except ε α} {f : ε → δ} {a : α} :
    x.mapError f = .ok a ↔ x = .ok a := by
  cases x <;> simp [Except.mapError]

/-- A subsection that belongs to a schema carries its identity. -/
theorem Schema.parent_eq_of_checkTag {s : Schema} {t : Tag} {user : HandleUser}
    (h : s.checkTag t user = .ok ()) : t.parent = s.id := by
  rw [checkTag] at h
  split at h
  · assumption
  · cases h

/-! ### Places -/

namespace ValueSet

/-- Providing places changes nothing that can be read. -/
theorem getElem?_provide {α : Type} (index count : ℕ) (a : α) (places : List α) (i : ℕ) :
    (provide index count a places)[i]?.getD a = places[i]?.getD a := by
  rw [provide]
  split
  · by_cases hi : i < places.length
    · rw [List.getElem?_append_left hi]
    · rw [List.getElem?_append_right (by omega), List.getElem?_eq_none (Nat.le_of_not_lt hi),
        List.getElem?_replicate]
      split <;> rfl
  · rfl

/-- Only the place that is put to changes. -/
theorem getD_of_put {α : Type} {index count : ℕ} {a default : α} {places changed : List α}
    (h : put index a (provide index count default places) = .ok changed) (i : ℕ) :
    changed[i]?.getD default = if index = i then a else places[i]?.getD default := by
  rw [put] at h
  split at h
  · rename_i hlt
    cases h
    rw [List.getElem?_set]
    split
    · rfl
    · exact getElem?_provide index count default places i
  · cases h

variable {vs vs' : ValueSet}

/-- What storing a string does, if it succeeds. -/
theorem store_eq_ok {v : Var} {text : String} (h : vs.store v text = .ok vs') :
    vs'.schema = vs.schema ∧ vs'.streams = vs.streams ∧
      ∀ i, vs'.valueAt i = if v.index = i then text else vs.valueAt i := by
  obtain ⟨values, hput, hpure⟩ := Except.bind_eq_ok.mp h
  cases hpure
  exact ⟨rfl, rfl, getD_of_put hput⟩

/-- What setting a source of rows does, if it succeeds. -/
theorem setStream_eq_ok {t : Tag} {stream : RowStream ValueSet}
    (h : vs.setStream t stream = .ok vs') :
    t.parent = vs.schema.id ∧ vs'.schema = vs.schema ∧ vs'.values = vs.values ∧
      ∀ i, vs'.streamAt i = if t.index = i then stream else vs.streamAt i := by
  obtain ⟨_, htag, h⟩ := Except.bind_eq_ok.mp h
  obtain ⟨streams, hput, hpure⟩ := Except.bind_eq_ok.mp h
  cases hpure
  refine ⟨Schema.parent_eq_of_checkTag htag, rfl, rfl, fun i => ?_⟩
  rw [streamAt, getD_of_put hput]
  split <;> rfl

/-- Rows that are accepted carry the identity that the handle tells. -/
theorem setStream_of_setRows {t : Tag} {rows : List ValueSet} (h : vs.setRows t rows = .ok vs') :
    (∀ row ∈ rows, row.schema.id = t.child) ∧ vs.setStream t (.ofRows rows) = .ok vs' := by
  rw [setRows] at h
  split at h
  · cases h
  · rename_i hnone
    refine ⟨fun row hrow => ?_, h⟩
    have hrow' := List.find?_eq_none.mp hnone row hrow
    simpa using hrow'

/-- What setting rows does, if it succeeds. -/
theorem setRows_eq_ok {t : Tag} {rows : List ValueSet} (h : vs.setRows t rows = .ok vs') :
    vs'.schema = vs.schema ∧ vs'.values = vs.values ∧
      ∀ i, vs'.streamAt i = if t.index = i then .ofRows rows else vs.streamAt i := by
  obtain ⟨-, hstream⟩ := setStream_of_setRows h
  exact (setStream_eq_ok hstream).2

variable [UrlReader]

/-- What storing a checked string does, if it succeeds. -/
theorem setScalarRequiring_eq_ok {v : Var} {value : SafeString} {extra : TrustLevel}
    (h : vs.setScalarRequiring v value extra = .ok vs') :
    ∃ slot text, vs.schema.scalars[v.index]? = some slot ∧
      value.check (slot.level ⊔ extra) = .ok text ∧ vs.store v text = .ok vs' := by
  obtain ⟨_, _, h⟩ := Except.bind_eq_ok.mp h
  obtain ⟨level, hlevel, h⟩ := Except.bind_eq_ok.mp h
  rw [Except.mapError_eq_ok, Schema.slotLevel] at hlevel
  split at hlevel
  · rename_i slot hslot
    cases hlevel
    dsimp only at h
    split at h
    · rename_i text hcheck
      exact ⟨slot, text, hslot, hcheck, Except.mapError_eq_ok.mp h⟩
    · cases h
  · cases hlevel

end ValueSet

/-- A variable that is attached to a schema belongs to it. -/
theorem Schema.checkVar_eq_ok {s : Schema} {v : Var} (h : v.schema = some s.id) :
    s.checkVar v = .ok () := by
  rw [checkVar, h]
  exact if_pos rfl

/-- A variable of the schema reads what stands at its place. -/
theorem ValueSet.getScalar_of_attached {vs : ValueSet} {v : Var}
    (h : v.schema = some vs.schema.id) : vs.getScalar v = .ok (vs.valueAt v.index) := by
  rw [getScalar, Schema.checkVar_eq_ok h]
  rfl

/-- A subsection of the schema reads what stands at its place. -/
theorem ValueSet.getStream_of_parent {vs : ValueSet} {t : Tag} (h : t.parent = vs.schema.id) :
    vs.getStream t = .ok (vs.streamAt t.index) := by
  rw [getStream, Schema.checkTag, if_pos h]
  rfl

/-- The schema of rows is found through handles of the schema only, at the place they tell. -/
theorem Schema.child_eq_ok {s child : Schema} {t : Tag} (h : s.child t = .ok child) :
    t.parent = s.id ∧ ∃ sub, s.subsections[t.index]? = some sub ∧ child = sub.2 := by
  obtain ⟨_, htag, hchild⟩ := Except.bind_eq_ok.mp h
  refine ⟨parent_eq_of_checkTag htag, ?_⟩
  split at hchild
  · rename_i sub hsub
    cases hchild
    exact ⟨sub, hsub, rfl⟩
  · cases hchild

/-- A schema without the name of an argument ignores the argument, if it is not strict. -/
theorem Binding.undeclared_eq_ok {vs vs' : ValueSet} {kind : SlotKind} {name : String}
    (h : undeclared vs kind name = .ok vs') : vs' = vs := by
  rw [undeclared] at h
  split at h <;> cases h
  rfl

/-! ### What arguments address -/

/-- The string that an argument gives for a place, with the level it requires. -/
def BindArg.scalarFor? (s : Schema) (index : ℕ) : BindArg → Option (SafeString × TrustLevel)
  | .scalar key value level =>
      match Binding.resolveVar? s key with
      | some v => if v.index = index then some (value, level) else none
      | none => none
  | .rows .. => none

/-- The rows that an argument gives for a subsection. -/
def BindArg.rowsFor? (s : Schema) (index : ℕ) : BindArg → Option (List (List BindArg))
  | .scalar .. => none
  | .rows key given =>
      match Binding.resolveTag? s key with
      | .ok (some t) => if t.index = index then some given else none
      | _ => none

namespace Binding

/-- The last string that arguments give for a place, with the level it requires. -/
def lastScalar? (s : Schema) (index : ℕ) (args : List BindArg) :
    Option (SafeString × TrustLevel) :=
  (args.filterMap (·.scalarFor? s index)).getLast?

/-- The last rows that arguments give for a subsection; none if there are none. -/
def lastRows (s : Schema) (index : ℕ) (args : List BindArg) : List (List BindArg) :=
  (args.filterMap (·.rowsFor? s index)).getLast?.getD []

/-- The string of a later argument counts. -/
theorem lastScalar?_concat (s : Schema) (index : ℕ) (args : List BindArg) (arg : BindArg) :
    lastScalar? s index (args ++ [arg]) =
      (arg.scalarFor? s index).or (lastScalar? s index args) := by
  rw [lastScalar?, List.filterMap_append, List.getLast?_append]
  cases h : arg.scalarFor? s index <;> simp [h, lastScalar?]

/-- The rows of a later argument count. -/
theorem lastRows_concat (s : Schema) (index : ℕ) (args : List BindArg) (arg : BindArg) :
    lastRows s index (args ++ [arg]) = (arg.rowsFor? s index).getD (lastRows s index args) := by
  rw [lastRows, List.filterMap_append, List.getLast?_append]
  cases h : arg.rowsFor? s index <;> simp [h, lastRows]

end Binding

variable [UrlReader]

/-- What a value set holds after arguments have been applied to a new one. -/
structure ValueSet.Bound (s : Schema) (args : List BindArg) (vs : ValueSet) : Prop where
  schema_eq : vs.schema = s
  unset : ∀ {i : ℕ}, Binding.lastScalar? s i args = none → vs.valueAt i = ""
  checked : ∀ {i : ℕ} {value : SafeString} {level : TrustLevel},
    Binding.lastScalar? s i args = some (value, level) →
      ∃ slot, s.scalars[i]? = some slot ∧ value.check (slot.level ⊔ level) = .ok (vs.valueAt i)
  rows : ∀ {i : ℕ} {sub : Tag × Schema}, s.subsections[i]? = some sub →
    ∃ bound, vs.streamAt i = .ofRows bound ∧
      List.Forall₂ (fun row args => sub.2.bind args = .ok row) bound (Binding.lastRows s i args)

/-! ### Applying arguments -/

namespace ValueSet.Bound

variable {s : Schema} {args : List BindArg} {vs vs' : ValueSet}

/-- A new value set holds nothing. -/
theorem new (s : Schema) : Bound s [] s.valueSet where
  schema_eq := rfl
  unset _ := rfl
  checked h := by cases h
  rows _ := ⟨[], rfl, .nil⟩

/-- An argument that addresses nothing changes nothing. -/
theorem ignored (h : Bound s args vs) {arg : BindArg}
    (hscalar : ∀ i, arg.scalarFor? s i = none) (hrows : ∀ i, arg.rowsFor? s i = none) :
    Bound s (args ++ [arg]) vs where
  schema_eq := h.schema_eq
  unset {i} hlast := by
    rw [Binding.lastScalar?_concat, hscalar] at hlast
    exact h.unset hlast
  checked {i value level} hlast := by
    rw [Binding.lastScalar?_concat, hscalar] at hlast
    exact h.checked hlast
  rows {i sub} hsub := by
    rw [Binding.lastRows_concat, hrows]
    exact h.rows hsub

/-- A string that is stored is the last one for its place. -/
theorem scalar (h : Bound s args vs) {key : Key Var} {value : SafeString} {level : TrustLevel}
    {v : Var} (hresolve : Binding.resolveVar? s key = some v)
    (hset : vs.setScalarRequiring v value level = .ok vs') :
    Bound s (args ++ [.scalar key value level]) vs' := by
  have hfor : ∀ i, (BindArg.scalar key value level).scalarFor? s i =
      if v.index = i then some (value, level) else none := by
    intro i
    rw [BindArg.scalarFor?, hresolve]
  obtain ⟨slot, text, hslot, hcheck, hstore⟩ := ValueSet.setScalarRequiring_eq_ok hset
  obtain ⟨hschema, hstreams, hvalues⟩ := ValueSet.store_eq_ok hstore
  rw [h.schema_eq] at hslot
  constructor
  · rw [hschema, h.schema_eq]
  · intro i hlast
    rw [Binding.lastScalar?_concat, hfor] at hlast
    rw [hvalues]
    split at hlast
    · cases hlast
    · rename_i hne
      rw [if_neg hne]
      exact h.unset hlast
  · intro i last extra hlast
    rw [Binding.lastScalar?_concat, hfor] at hlast
    rw [hvalues]
    split at hlast
    · rename_i heq
      cases hlast
      subst heq
      rw [if_pos rfl]
      exact ⟨slot, hslot, hcheck⟩
    · rename_i hne
      rw [if_neg hne]
      exact h.checked hlast
  · intro i sub hsub
    rw [Binding.lastRows_concat, ValueSet.streamAt, hstreams]
    exact h.rows hsub

/-- Rows that are stored are the last ones for their subsection. -/
theorem setRows (h : Bound s args vs) {key : Key Tag} {given : List (List BindArg)} {t : Tag}
    {child : Schema} {bound : List ValueSet} (hresolve : Binding.resolveTag? s key = .ok (some t))
    (hchild : s.child t = .ok child)
    (hbound : List.Forall₂ (fun row args => child.bind args = .ok row) bound given)
    (hset : vs.setRows t bound = .ok vs') : Bound s (args ++ [.rows key given]) vs' := by
  have hfor : ∀ i, (BindArg.rows key given).rowsFor? s i =
      if t.index = i then some given else none := by
    intro i
    rw [BindArg.rowsFor?, hresolve]
  obtain ⟨hschema, hvalues, hstreams⟩ := ValueSet.setRows_eq_ok hset
  constructor
  · rw [hschema, h.schema_eq]
  · intro i hlast
    rw [Binding.lastScalar?_concat] at hlast
    rw [ValueSet.valueAt, hvalues]
    exact h.unset hlast
  · intro i last extra hlast
    rw [Binding.lastScalar?_concat] at hlast
    rw [ValueSet.valueAt, hvalues]
    exact h.checked hlast
  · intro i sub hsub
    rw [Binding.lastRows_concat, hfor, hstreams]
    split
    · rename_i heq
      subst heq
      obtain ⟨-, _, hsub', rfl⟩ := Schema.child_eq_ok hchild
      rw [hsub] at hsub'
      cases hsub'
      exact ⟨bound, rfl, hbound⟩
    · exact h.rows hsub

end ValueSet.Bound

/-- A schema is bound if all arguments can be applied to a new value set for it. -/
theorem Schema.bind_eq_ok_iff {s : Schema} {args : List BindArg} {vs : ValueSet} :
    s.bind args = .ok vs ↔ Binding.applyAll s.valueSet args = (vs, none) := by
  rw [bind, ValueSet.bindInto]
  split
  · rename_i bound happly
    rw [happly]
    simp
  · rename_i bound e happly
    rw [happly]
    simp

namespace Binding

/-- The rows that are made are bound to the arguments they were made from. -/
theorem applyRows_eq_ok {child : Schema} {name : String} {number count : ℕ} :
    ∀ {given : List (List BindArg)} {bound : List ValueSet},
      applyRows child name number count given = .ok bound →
        List.Forall₂ (fun row args => child.bind args = .ok row) bound given
  | [], bound, h => by
      rw [applyRows] at h
      cases h
      exact .nil
  | args :: rest, bound, h => by
      rw [applyRows] at h
      split at h
      rename_i vs stopped happly
      split at h
      · cases h
      · obtain ⟨later, hlater, hpure⟩ := Except.bind_eq_ok.mp h
        cases hpure
        exact .cons (Schema.bind_eq_ok_iff.mpr happly) (applyRows_eq_ok hlater)

/-- An argument leaves the schema of a value set as it is. -/
theorem applyArg_schema_eq {vs vs' : ValueSet} : ∀ {arg : BindArg}, applyArg vs arg = .ok vs' →
    vs'.schema = vs.schema
  | .scalar key value level, happly => by
      rw [applyArg] at happly
      split at happly
      · obtain ⟨_, _, _, _, hstore⟩ := ValueSet.setScalarRequiring_eq_ok happly
        exact (ValueSet.store_eq_ok hstore).1
      · rw [undeclared_eq_ok happly]
  | .rows key given, happly => by
      rw [applyArg] at happly
      obtain ⟨resolved, -, happly⟩ := Except.bind_eq_ok.mp happly
      cases resolved with
      | some t =>
          obtain ⟨child, -, happly⟩ := Except.bind_eq_ok.mp happly
          obtain ⟨bound, -, hset⟩ := Except.bind_eq_ok.mp happly
          rw [Except.mapError_eq_ok] at hset
          exact (ValueSet.setRows_eq_ok hset).1
      | none => rw [undeclared_eq_ok happly]

/-- **One argument keeps the description true**: a value set that holds what some arguments
give holds, after one more, what that one gives as well. -/
theorem applyArg_bound {s : Schema} {args : List BindArg} {vs vs' : ValueSet}
    (h : vs.Bound s args) : ∀ {arg : BindArg}, applyArg vs arg = .ok vs' →
      vs'.Bound s (args ++ [arg])
  | .scalar key value level, happly => by
      rw [applyArg, h.schema_eq] at happly
      split at happly
      · rename_i v hresolve
        exact h.scalar hresolve happly
      · rename_i hresolve
        obtain rfl := undeclared_eq_ok happly
        refine h.ignored (fun i => ?_) fun _ => rfl
        rw [BindArg.scalarFor?, hresolve]
  | .rows key given, happly => by
      rw [applyArg, h.schema_eq] at happly
      obtain ⟨resolved, hresolve, happly⟩ := Except.bind_eq_ok.mp happly
      cases resolved with
      | some t =>
          obtain ⟨child, hchild, happly⟩ := Except.bind_eq_ok.mp happly
          obtain ⟨bound, hbound, hset⟩ := Except.bind_eq_ok.mp happly
          rw [Except.mapError_eq_ok] at hchild hset
          exact h.setRows hresolve hchild (applyRows_eq_ok hbound) hset
      | none =>
          obtain rfl := undeclared_eq_ok happly
          refine h.ignored (fun _ => rfl) fun i => ?_
          rw [BindArg.rowsFor?, hresolve]

/-- If all arguments can be applied, the first one can, and the others after it. -/
theorem applyAll_cons_eq {arg : BindArg} {rest : List BindArg} {vs vs' : ValueSet}
    (h : applyAll vs (arg :: rest) = (vs', none)) :
    ∃ mid, applyArg vs arg = .ok mid ∧ applyAll mid rest = (vs', none) := by
  rw [applyAll] at h
  split at h
  · rename_i mid hmid
    exact ⟨mid, hmid, h⟩
  · cases h

/-- What holds after some arguments holds after all of them. -/
theorem applyAll_bound {s : Schema} : ∀ {args done : List BindArg} {vs vs' : ValueSet},
    vs.Bound s done → applyAll vs args = (vs', none) → vs'.Bound s (done ++ args)
  | [], done, vs, vs', h, happly => by
      rw [applyAll] at happly
      cases happly
      rwa [List.append_nil]
  | arg :: rest, done, vs, vs', h, happly => by
      obtain ⟨mid, hmid, happly⟩ := applyAll_cons_eq happly
      rw [List.append_cons]
      exact applyAll_bound (applyArg_bound h hmid) happly

end Binding

/-- **What binding yields** holds the last string for every variable, checked at the level of
its place, and the last rows for every subsection. -/
theorem Schema.bound_of_bind {s : Schema} {args : List BindArg} {vs : ValueSet}
    (h : s.bind args = .ok vs) : vs.Bound s args :=
  Binding.applyAll_bound (.new s) (Schema.bind_eq_ok_iff.mp h)

/-- The rows that are made have the schema they are made for. -/
theorem Binding.schema_eq_of_applyRows {child : Schema} {name : String} {number count : ℕ}
    {given : List (List BindArg)} {bound : List ValueSet}
    (h : Binding.applyRows child name number count given = .ok bound) :
    ∀ row ∈ bound, row.schema = child := by
  have hbound : List.Forall₂ (fun row _ => row.schema = child ∧ True) bound given :=
    (Binding.applyRows_eq_ok h).imp fun _ _ hrow => ⟨(Schema.bound_of_bind hrow).schema_eq, trivial⟩
  exact ((List.forall₂_and_left _ _).mp hbound).1

/-! ### Reading through handles -/

namespace ValueSet.Bound

variable {f : Schema} {args : List BindArg} {vs : ValueSet}

/-- A handle that is offered reads what stands at its place. -/
theorem getScalar_eq (h : vs.Bound f args) {w : Var} {name : SlotName} {level : TrustLevel}
    (hoffer : f.Offers w name level) : vs.getScalar w = .ok (vs.valueAt w.index) :=
  getScalar_of_attached (by rw [h.schema_eq, hoffer.attached])

/-- The name of a variable that is offered reads what its handle reads. -/
theorem scalarByName_eq (h : vs.Bound f args) (hwf : f.WellFormed) {w : Var} {name : SlotName}
    {level : TrustLevel} (hoffer : f.Offers w name level) :
    vs.scalarByName name.text = some (vs.valueAt w.index) := by
  obtain ⟨slot, hfind, hindex, -⟩ := hoffer.scalar?_eq hwf
  rw [scalarByName, h.schema_eq, hfind, Option.map_some, hindex]

/-- The handle of a subsection reads rows that are bound to the last rows for it. -/
theorem getStream_eq (h : vs.Bound f args) (hwf : f.WellFormed) {t : Tag} {d : Schema}
    (hsub : f.subsections[t.index]? = some (t, d)) :
    ∃ bound, vs.getStream t = .ok (.ofRows bound) ∧ vs.streamAt t.index = .ofRows bound ∧
      List.Forall₂ (fun row args => d.bind args = .ok row) bound
        (Binding.lastRows f t.index args) := by
  obtain ⟨bound, hstream, hbound⟩ := h.rows hsub
  refine ⟨bound, ?_, hstream, hbound⟩
  rw [getStream_of_parent (by rw [h.schema_eq, (hwf.coherent.tag_at hsub).2]), hstream]

end ValueSet.Bound

end TrustedHtml
