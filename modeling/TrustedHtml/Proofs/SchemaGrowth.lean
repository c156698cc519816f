import Mathlib.Data.List.Nodup
import TrustedHtml.Proofs.TrustOrder
import TrustedHtml.Schema.Declare

/-!
# Growth of Schemas

Handles are given out while a schema is still being declared on, and are used when it is
complete. What makes this sound is that a schema only ever grows: a variable keeps its place
and its name and its level is only raised, a subsection keeps its place and its handle, and
the schema of its rows grows in the same sense.

Two notions carry this. A schema is *well-formed* if every variable and every subsection
stands at the place and under the identity that its handle tells, under a name of its own, at
every level of nesting. A new schema is, and so is what every operation on schemas makes of
one: declaring, setting the strictness and replacing the schema of rows. And a schema *extends*
another one if it is a later state of it. Every declaration yields a well-formed schema that extends
the one before, and a handle that every later schema *offers*.

## Main results

* `Schema.Extends.refl`, `Schema.Extends.trans`: extension is a preorder.
* `Schema.declare_wellFormed`, `Schema.extends_declare`, `Schema.offers_declare`: declaring a
  variable.
* `Scope.declareSubsection_wellFormed`, `Schema.setChild_wellFormed`: declaring a subsection
  and working on the schema of its rows.
-/

namespace TrustedHtml

/-- Names are told apart by their texts. -/
theorem SlotName.text_inj {a b : SlotName} : a.text = b.text ↔ a = b := by
  constructor
  · intro h
    obtain ⟨_, _⟩ := a
    obtain ⟨_, _⟩ := b
    cases h
    rfl
  · rintro rfl
    rfl

/-- Among entries with names of their own, a search for the name of one finds that one. -/
theorem find?_of_nodup_names {α : Type} {key : α → SlotName} {entries : List α}
    (h : (entries.map key).Nodup) {a : α} (ha : a ∈ entries) {p : α → Bool}
    (hp : ∀ b, p b = true ↔ key b = key a) : entries.find? p = some a := by
  cases hfind : entries.find? p with
  | none => exact absurd ((hp a).mpr rfl) (List.find?_eq_none.mp hfind a ha)
  | some b =>
      have hkey : key b = key a := (hp b).mp (List.find?_some hfind)
      rw [List.inj_on_of_nodup_map h (List.mem_of_find?_eq_some hfind) ha hkey]

/-- A search for a name that no entry has finds nothing. -/
theorem find?_eq_none_of_new {α : Type} {key : α → SlotName} {entries : List α} {name : SlotName}
    (h : name ∉ entries.map key) : entries.find? (fun a => (key a).text == name.text) = none := by
  rw [List.find?_eq_none]
  intro a ha htext
  exact h (List.mem_map.mpr ⟨a, ha, SlotName.text_inj.mp (beq_iff_eq.mp htext)⟩)

namespace Schema

/-- A schema whose variables and subsections stand where their handles tell, each under a
name of its own. Nothing is said about the schemas of the rows. -/
structure Coherent (s : Schema) : Prop where
  var_at : ∀ {i : ℕ} {v : Var}, s.scalars[i]? = some v → v.index = i ∧ v.schema = some s.id
  var_names : (s.scalars.map (·.name)).Nodup
  tag_at : ∀ {i : ℕ} {sub : Tag × Schema}, s.subsections[i]? = some sub →
    sub.1.index = i ∧ sub.1.parent = s.id
  tag_names : (s.subsections.map (·.1.name)).Nodup

/-- **Well-formed** schemas: coherent at every level of nesting. -/
inductive WellFormed : Schema → Prop
  | intro {s : Schema} (coherent : s.Coherent)
      (children : ∀ sub ∈ s.subsections, WellFormed sub.2) : WellFormed s

/-- `s.Extends f` if `f` is a later state of `s`. -/
inductive Extends : Schema → Schema → Prop
  | intro {s f : Schema} (id : f.id = s.id)
      (scalars : ∀ (i : ℕ) (v : Var), s.scalars[i]? = some v →
        ∃ w, f.scalars[i]? = some w ∧ w.name = v.name ∧ v.level ≤ w.level)
      (tags : ∀ (i : ℕ) (sub : Tag × Schema), s.subsections[i]? = some sub →
        ∃ d, f.subsections[i]? = some (sub.1, d))
      (children : ∀ (i : ℕ) (a b : Tag × Schema), s.subsections[i]? = some a →
        f.subsections[i]? = some b → Extends a.2 b.2) : Extends s f

/-- `w` is a handle to the variable `name` of `f`, whose place requires at least `level`. -/
structure Offers (f : Schema) (w : Var) (name : SlotName) (level : TrustLevel) : Prop where
  attached : w.schema = some f.id
  name_eq : w.name = name
  slot : ∃ v, f.scalars[w.index]? = some v ∧ v.name = name ∧ level ≤ v.level

variable {s f g : Schema} {name : SlotName} {level : TrustLevel}

/-! ### Well-formed schemas -/

/-- A well-formed schema is coherent. -/
theorem WellFormed.coherent (h : s.WellFormed) : s.Coherent := by
  cases h with
  | intro coherent _ => exact coherent

/-- The schemas of the rows of a well-formed schema are well-formed. -/
theorem WellFormed.child (h : s.WellFormed) {sub : Tag × Schema} (hmem : sub ∈ s.subsections) :
    sub.2.WellFormed := by
  cases h with
  | intro _ children => exact children sub hmem

/-- A new schema, whatever it is the schema of, is well-formed. -/
theorem wellFormed_of_empty (hs : s.scalars = []) (hsub : s.subsections = []) :
    s.WellFormed := by
  refine .intro ⟨?_, ?_, ?_, ?_⟩ ?_
  · intro i v h
    rw [hs] at h
    cases h
  · rw [hs]
    exact List.nodup_nil
  · intro i sub h
    rw [hsub] at h
    cases h
  · rw [hsub]
    exact List.nodup_nil
  · intro sub h
    rw [hsub] at h
    cases h

/-- Strictness is no matter of form. -/
theorem setStrict_wellFormed (h : s.WellFormed) (strict : Bool) :
    (s.setStrict strict).WellFormed :=
  .intro ⟨h.coherent.var_at, h.coherent.var_names, h.coherent.tag_at, h.coherent.tag_names⟩
    fun _ hmem => h.child hmem

/-- The variables of a coherent schema stand at their places. -/
theorem Coherent.var_of_mem (h : s.Coherent) {v : Var} (hv : v ∈ s.scalars) :
    s.scalars[v.index]? = some v ∧ v.schema = some s.id := by
  obtain ⟨i, hi⟩ := List.getElem?_of_mem hv
  obtain ⟨rfl, hattached⟩ := h.var_at hi
  exact ⟨hi, hattached⟩

/-- The subsections of a coherent schema stand at their places. -/
theorem Coherent.tag_of_mem (h : s.Coherent) {sub : Tag × Schema} (hsub : sub ∈ s.subsections) :
    s.subsections[sub.1.index]? = some sub ∧ sub.1.parent = s.id := by
  obtain ⟨i, hi⟩ := List.getElem?_of_mem hsub
  obtain ⟨hindex, hparent⟩ := h.tag_at hi
  exact ⟨hindex ▸ hi, hparent⟩

/-- In a coherent schema the variable found under a name is the one at its place. -/
theorem Coherent.scalar?_eq_some_iff (h : s.Coherent) {v : Var} {name : SlotName} :
    s.scalar? name.text = some v ↔ s.scalars[v.index]? = some v ∧ v.name = name := by
  constructor
  · intro hfind
    refine ⟨(h.var_of_mem (List.mem_of_find?_eq_some hfind)).1, SlotName.text_inj.mp ?_⟩
    have hname := List.find?_some hfind
    exact beq_iff_eq.mp hname
  · rintro ⟨hv, rfl⟩
    exact find?_of_nodup_names h.var_names (List.mem_of_getElem? hv)
      fun w => by rw [beq_iff_eq, SlotName.text_inj]

/-- In a coherent schema the subsection found under a name is the one at its place. -/
theorem Coherent.find_subsection_eq_some_iff (h : s.Coherent) {sub : Tag × Schema}
    {name : SlotName} :
    (s.subsections.find? fun sub => sub.1.name.text == name.text) = some sub ↔
      s.subsections[sub.1.index]? = some sub ∧ sub.1.name = name := by
  constructor
  · intro hfind
    refine ⟨(h.tag_of_mem (List.mem_of_find?_eq_some hfind)).1, SlotName.text_inj.mp ?_⟩
    have hname := List.find?_some hfind
    exact beq_iff_eq.mp hname
  · rintro ⟨hsub, rfl⟩
    exact find?_of_nodup_names h.tag_names (List.mem_of_getElem? hsub)
      fun other => by rw [beq_iff_eq, SlotName.text_inj]

/-! ### Extension is a preorder -/

/-- A variable of a schema is a variable of every later state, at the same place. -/
theorem Extends.scalar (h : s.Extends f) {i : ℕ} {v : Var} (hv : s.scalars[i]? = some v) :
    ∃ w, f.scalars[i]? = some w ∧ w.name = v.name ∧ v.level ≤ w.level := by
  cases h with
  | intro _ scalars _ _ => exact scalars i v hv

/-- A subsection of a schema is a subsection of every later state, at the same place and
under the same handle, and the schema of its rows has grown. -/
theorem Extends.subsection (h : s.Extends f) {i : ℕ} {t : Tag} {c : Schema}
    (hsub : s.subsections[i]? = some (t, c)) :
    ∃ d, f.subsections[i]? = some (t, d) ∧ c.Extends d := by
  cases h with
  | intro _ _ tags children =>
      obtain ⟨d, hd⟩ := tags i (t, c) hsub
      exact ⟨d, hd, children i (t, c) (t, d) hsub hd⟩

/-- The identity of a schema never changes. -/
theorem Extends.id_eq (h : s.Extends f) : f.id = s.id := by
  cases h with
  | intro id _ _ _ => exact id

mutual

/-- A schema extends itself. -/
theorem Extends.refl : ∀ s : Schema, s.Extends s
  | ⟨id, strict, nesting, scalars, subsections⟩ => by
      refine .intro rfl (fun _ v hv => ⟨v, hv, rfl, le_refl _⟩)
        (fun _ sub hsub => ⟨sub.2, hsub⟩) ?_
      intro i a b ha hb
      obtain rfl : a = b := Option.some.inj (ha.symm.trans hb)
      exact extends_refl_of_mem subsections a (List.mem_of_getElem? ha)

/-- The schemas of the rows of subsections extend themselves. -/
theorem extends_refl_of_mem : ∀ (subsections : List (Tag × Schema)) (sub : Tag × Schema),
    sub ∈ subsections → sub.2.Extends sub.2
  | [], _, hmem => absurd hmem List.not_mem_nil
  | (t, c) :: rest, sub, hmem => by
      rcases List.mem_cons.mp hmem with rfl | hmem
      · exact Extends.refl c
      · exact extends_refl_of_mem rest sub hmem

end

/-- A later state of a later state is a later state. -/
theorem Extends.trans (h₁ : s.Extends f) (h₂ : f.Extends g) : s.Extends g := by
  induction h₁ generalizing g with
  | intro id scalars tags children ih =>
      refine .intro (h₂.id_eq.trans id) ?_ ?_ ?_
      · intro i v hv
        obtain ⟨w, hw, hname, hlevel⟩ := scalars i v hv
        obtain ⟨u, hu, hname', hlevel'⟩ := h₂.scalar hw
        exact ⟨u, hu, hname'.trans hname, le_trans hlevel hlevel'⟩
      · intro i sub hsub
        obtain ⟨d, hd⟩ := tags i sub hsub
        obtain ⟨e, he, -⟩ := h₂.subsection hd
        exact ⟨e, he⟩
      · intro i a b ha hb
        obtain ⟨d, hd⟩ := tags i a ha
        obtain ⟨e, he, hext⟩ := h₂.subsection hd
        obtain rfl : (a.1, e) = b := Option.some.inj (he.symm.trans hb)
        exact ih i a (a.1, d) ha hd hext

/-- What a schema offers, every later state offers. -/
theorem Offers.extend {w : Var} (h : s.Offers w name level) (hext : s.Extends f) :
    f.Offers w name level := by
  obtain ⟨hattached, hname, v, hv, hvname, hlevel⟩ := h
  obtain ⟨u, hu, huname, hulevel⟩ := hext.scalar hv
  refine ⟨?_, hname, u, hu, huname.trans hvname, le_trans hlevel hulevel⟩
  rw [hattached, hext.id_eq]

/-! ### Finding what is offered -/

/-- The name of a variable that is offered leads to the place that its handle leads to. -/
theorem Offers.scalar?_eq {w : Var} (h : f.Offers w name level) (hwf : f.WellFormed) :
    ∃ slot, f.scalar? name.text = some slot ∧ slot.index = w.index ∧
      f.scalars[w.index]? = some slot ∧ level ≤ slot.level := by
  obtain ⟨-, -, slot, hslot, hname, hlevel⟩ := h
  have hindex := (hwf.coherent.var_at hslot).1
  refine ⟨slot, hwf.coherent.scalar?_eq_some_iff.mpr ⟨?_, hname⟩, hindex, hslot, hlevel⟩
  rwa [hindex]

/-- The variable of a name stands at its place. -/
theorem WellFormed.of_scalar?_eq (h : f.WellFormed) {name : String} {v : Var}
    (hfind : f.scalar? name = some v) :
    f.scalars[v.index]? = some v ∧ v.schema = some f.id ∧ v.name.text = name := by
  obtain ⟨hat, hattached⟩ := h.coherent.var_of_mem (List.mem_of_find?_eq_some hfind)
  have hname := List.find?_some hfind
  exact ⟨hat, hattached, beq_iff_eq.mp hname⟩

/-- The name of a subsection leads to its handle. -/
theorem WellFormed.subsection?_eq (h : f.WellFormed) {t : Tag} {d : Schema}
    (hsub : f.subsections[t.index]? = some (t, d)) : f.subsection? t.name.text = some t := by
  have hfind := (@Coherent.find_subsection_eq_some_iff f h.coherent (t, d) t.name).mpr ⟨hsub, rfl⟩
  rw [subsection?, hfind]
  rfl

/-- What is found under a name is a subsection, at the place that its handle tells. -/
theorem WellFormed.of_subsection?_eq (h : f.WellFormed) {name : String} {t : Tag}
    (hfind : f.subsection? name = some t) :
    ∃ d, f.subsections[t.index]? = some (t, d) ∧ t.name.text = name := by
  rw [subsection?, Option.map_eq_some_iff] at hfind
  obtain ⟨⟨t, d⟩, hsub, rfl⟩ := hfind
  obtain ⟨hat, -⟩ := h.coherent.tag_of_mem (List.mem_of_find?_eq_some hsub)
  have hname := List.find?_some hsub
  exact ⟨d, hat, beq_iff_eq.mp hname⟩

/-! ### Declaring a variable -/

/-- The entry at a place is the new one if something was put there, and the old one else. -/
theorem getElem?_set_cases {α : Type} {entries : List α} {i j : ℕ} {a b : α}
    (h : (entries.set i a)[j]? = some b) : (i = j ∧ a = b) ∨ (i ≠ j ∧ entries[j]? = some b) := by
  rw [List.getElem?_set] at h
  split at h
  · rename_i hij
    split at h
    · exact Or.inl ⟨hij, Option.some.inj h⟩
    · cases h
  · rename_i hij
    exact Or.inr ⟨hij, h⟩

/-- The last of several entries stands behind the others. -/
theorem getElem?_concat_cases {α : Type} {entries : List α} {i : ℕ} {a b : α}
    (h : (entries ++ [a])[i]? = some b) :
    entries[i]? = some b ∨ (i = entries.length ∧ a = b) := by
  rw [List.getElem?_append] at h
  split at h
  · exact Or.inl h
  · rename_i hlt
    obtain ⟨hi, hget⟩ := List.getElem?_eq_some_iff.mp h
    rw [List.length_singleton] at hi
    refine Or.inr ⟨by omega, ?_⟩
    rw [← hget, List.getElem_singleton]

/-- Replacing an entry by one with the same name keeps the names. -/
theorem map_names_set {α : Type} {key : α → SlotName} {entries : List α} {i : ℕ} {a b : α}
    (ha : entries[i]? = some a) (h : key b = key a) :
    (entries.set i b).map key = entries.map key := by
  refine List.ext_getElem? fun j => ?_
  rw [List.getElem?_map, List.getElem?_map, List.getElem?_set]
  split
  · rename_i hij
    rw [if_pos (List.getElem?_eq_some_iff.mp ha).1, ← hij, ha, Option.map_some,
      Option.map_some, h]
  · rfl

/-- Replacing an entry by one with the same name keeps the names distinct. -/
theorem nodup_names_set {α : Type} {key : α → SlotName} {entries : List α} {i : ℕ} {a b : α}
    (hnodup : (entries.map key).Nodup) (ha : entries[i]? = some a) (h : key b = key a) :
    ((entries.set i b).map key).Nodup := by
  rw [map_names_set ha h]
  exact hnodup

/-- Adding an entry with a new name keeps the names distinct. -/
theorem nodup_names_concat {α : Type} {key : α → SlotName} {entries : List α} {a : α}
    (hnodup : (entries.map key).Nodup) (hnew : key a ∉ entries.map key) :
    ((entries ++ [a]).map key).Nodup := by
  rw [List.map_append, List.map_singleton, List.nodup_append]
  refine ⟨hnodup, List.nodup_singleton _, ?_⟩
  intro b hb c hc
  rw [List.mem_singleton.mp hc]
  rintro rfl
  exact hnew hb

/-- Declaring a name either raises the level of the variable that has it, or adds a variable
behind the others. -/
theorem Coherent.declare_cases (h : s.Coherent) (name : SlotName) (level : TrustLevel) :
    (∃ v : Var, s.scalars[v.index]? = some v ∧ v.name = name ∧
      s.declare name level = ({ v with level := v.level ⊔ level },
        { s with scalars := s.scalars.set v.index { v with level := v.level ⊔ level } })) ∨
    (name ∉ s.scalars.map (·.name) ∧
      s.declare name level = (⟨s.scalars.length, name, level, some s.id⟩,
        { s with scalars := s.scalars ++ [⟨s.scalars.length, name, level, some s.id⟩] })) := by
  cases hfind : s.scalar? name.text with
  | some v =>
      obtain ⟨hv, hname⟩ := h.scalar?_eq_some_iff.mp hfind
      refine Or.inl ⟨v, hv, hname, ?_⟩
      rw [declare, hfind]
      rfl
  | none =>
      refine Or.inr ⟨?_, by rw [declare, hfind]⟩
      intro hmem
      obtain ⟨v, hv, rfl⟩ := List.mem_map.mp hmem
      exact List.find?_eq_none.mp hfind v hv (beq_self_eq_true _)

/-- Declaring a variable keeps a schema well-formed. -/
theorem declare_wellFormed (h : s.WellFormed) (name : SlotName) (level : TrustLevel) :
    (s.declare name level).2.WellFormed := by
  have hc := h.coherent
  rcases hc.declare_cases name level with ⟨v, hv, -, heq⟩ | ⟨hnew, heq⟩
  · rw [heq]
    refine .intro ⟨?_, ?_, hc.tag_at, hc.tag_names⟩ fun _ hmem => h.child hmem
    · intro j w hw
      rcases getElem?_set_cases hw with ⟨rfl, rfl⟩ | ⟨-, hw⟩
      · exact ⟨rfl, (hc.var_at hv).2⟩
      · exact hc.var_at hw
    · exact nodup_names_set hc.var_names hv rfl
  · rw [heq]
    refine .intro ⟨?_, ?_, hc.tag_at, hc.tag_names⟩ fun _ hmem => h.child hmem
    · intro j w hw
      rcases getElem?_concat_cases hw with hw | ⟨rfl, rfl⟩
      · exact hc.var_at hw
      · exact ⟨rfl, rfl⟩
    · exact nodup_names_concat hc.var_names hnew

/-- Declaring a variable yields a later state. -/
theorem extends_declare (h : s.WellFormed) (name : SlotName) (level : TrustLevel) :
    s.Extends (s.declare name level).2 := by
  have hchildren : ∀ (i : ℕ) (a b : Tag × Schema), s.subsections[i]? = some a →
      s.subsections[i]? = some b → a.2.Extends b.2 := by
    intro i a b ha hb
    obtain rfl : a = b := Option.some.inj (ha.symm.trans hb)
    exact .refl a.2
  rcases h.coherent.declare_cases name level with ⟨v, hv, -, heq⟩ | ⟨-, heq⟩
  · rw [heq]
    refine .intro rfl ?_ (fun _ sub hsub => ⟨sub.2, hsub⟩) hchildren
    intro i w hw
    by_cases hi : v.index = i
    · subst hi
      obtain rfl : v = w := Option.some.inj (hv.symm.trans hw)
      exact ⟨_, List.getElem?_set_self (List.getElem?_eq_some_iff.mp hv).1, rfl, le_sup_left⟩
    · refine ⟨w, ?_, rfl, le_refl _⟩
      rw [List.getElem?_set_ne hi]
      exact hw
  · rw [heq]
    refine .intro rfl ?_ (fun _ sub hsub => ⟨sub.2, hsub⟩) hchildren
    intro i w hw
    refine ⟨w, ?_, rfl, le_refl _⟩
    rw [List.getElem?_append_left (List.getElem?_eq_some_iff.mp hw).1]
    exact hw

/-- The handle of a declaration is offered by the schema that results. -/
theorem offers_declare (h : s.WellFormed) (name : SlotName) (level : TrustLevel) :
    (s.declare name level).2.Offers (s.declare name level).1 name level := by
  rcases h.coherent.declare_cases name level with ⟨v, hv, hname, heq⟩ | ⟨-, heq⟩
  · rw [heq]
    exact ⟨(h.coherent.var_at hv).2, hname, _,
      List.getElem?_set_self (List.getElem?_eq_some_iff.mp hv).1, hname, le_sup_right⟩
  · rw [heq]
    exact ⟨rfl, rfl, _, List.getElem?_concat_length, rfl, le_refl _⟩

/-! ### The schemas of rows -/

/-- Replacing the schema of the rows of a subsection by a well-formed one keeps a schema
well-formed. -/
theorem setChild_wellFormed {t : Tag} {c d : Schema} (h : s.WellFormed)
    (hsub : s.subsections[t.index]? = some (t, c)) (hd : d.WellFormed) :
    (s.setChild t d).WellFormed := by
  have hc := h.coherent
  refine .intro ⟨hc.var_at, hc.var_names, ?_, ?_⟩ ?_
  · intro i sub hi
    rcases getElem?_set_cases hi with ⟨rfl, rfl⟩ | ⟨-, hi⟩
    · exact ⟨rfl, (hc.tag_at hsub).2⟩
    · exact hc.tag_at hi
  · exact nodup_names_set hc.tag_names hsub rfl
  · intro sub hmem
    obtain ⟨i, hi⟩ := List.getElem?_of_mem hmem
    rcases getElem?_set_cases hi with ⟨rfl, rfl⟩ | ⟨-, hi⟩
    · exact hd
    · exact h.child (List.mem_of_getElem? hi)

/-- Replacing the schema of the rows of a subsection by a later state yields a later state. -/
theorem extends_setChild {t : Tag} {c d : Schema} (hsub : s.subsections[t.index]? = some (t, c))
    (hext : c.Extends d) : s.Extends (s.setChild t d) := by
  have hlt : t.index < s.subsections.length := (List.getElem?_eq_some_iff.mp hsub).1
  refine .intro rfl (fun _ v hv => ⟨v, hv, rfl, le_refl _⟩) ?_ ?_
  · intro i sub hi
    by_cases hti : t.index = i
    · subst hti
      obtain rfl : (t, c) = sub := Option.some.inj (hsub.symm.trans hi)
      exact ⟨d, List.getElem?_set_self hlt⟩
    · refine ⟨sub.2, ?_⟩
      rw [setChild, List.getElem?_set_ne hti]
      exact hi
  · intro i a b ha hb
    rcases getElem?_set_cases hb with ⟨rfl, rfl⟩ | ⟨-, hb⟩
    · obtain rfl : (t, c) = a := Option.some.inj (hsub.symm.trans ha)
      exact hext
    · obtain rfl : a = b := Option.some.inj (ha.symm.trans hb)
      exact .refl a.2

/-- The schema that was put in place is the one that is found there. -/
theorem getElem?_setChild {t : Tag} {c : Schema} (hsub : s.subsections[t.index]? = some (t, c))
    (d : Schema) : (s.setChild t d).subsections[t.index]? = some (t, d) :=
  List.getElem?_set_self (List.getElem?_eq_some_iff.mp hsub).1

end Schema

/-! ### Declaring a subsection -/

namespace Scope

variable {s : Scope} {name : SlotName}

/-- Declaring a subsection either finds the one that has the name, or adds one behind the
others, with a schema of its own. -/
theorem declareSubsection_cases (h : s.schema.Coherent) (name : SlotName) :
    (∃ sub : Tag × Schema, s.schema.subsections[sub.1.index]? = some sub ∧ sub.1.name = name ∧
      s.declareSubsection name = (sub, s)) ∨
    (∃ sub : Tag × Schema, name ∉ s.schema.subsections.map (·.1.name) ∧
      sub = ((⟨s.schema.subsections.length, name, s.schema.id, ⟨s.next⟩⟩ : Tag),
        (⟨⟨s.next⟩, false, some ⟨s.schema.id, s.schema.subsections.length, name⟩, [], []⟩
          : Schema)) ∧
      s.declareSubsection name = (sub,
        ⟨{ s.schema with subsections := s.schema.subsections ++ [sub] }, s.next + 1⟩)) := by
  cases hfind : s.schema.subsections.find? fun sub => sub.1.name = name with
  | some sub =>
      have hname : sub.1.name = name := by
        have hp := List.find?_some hfind
        exact of_decide_eq_true hp
      obtain ⟨hat, -⟩ := h.tag_of_mem (List.mem_of_find?_eq_some hfind)
      exact Or.inl ⟨sub, hat, hname, by rw [declareSubsection, hfind]⟩
  | none =>
      refine Or.inr ⟨_, ?_, rfl, by rw [declareSubsection, hfind]⟩
      intro hmem
      obtain ⟨sub, hsub, rfl⟩ := List.mem_map.mp hmem
      exact List.find?_eq_none.mp hfind sub hsub (decide_eq_true rfl)

/-- Declaring a subsection keeps a schema well-formed. -/
theorem declareSubsection_wellFormed (h : s.schema.WellFormed) (name : SlotName) :
    (s.declareSubsection name).2.schema.WellFormed := by
  have hc := h.coherent
  rcases declareSubsection_cases hc name with ⟨sub, -, -, heq⟩ | ⟨sub, hnew, rfl, heq⟩
  · rw [heq]
    exact h
  · rw [heq]
    refine .intro ⟨hc.var_at, hc.var_names, ?_, ?_⟩ ?_
    · intro i sub hi
      rcases Schema.getElem?_concat_cases hi with hi | ⟨rfl, rfl⟩
      · exact hc.tag_at hi
      · exact ⟨rfl, rfl⟩
    · exact Schema.nodup_names_concat hc.tag_names hnew
    · intro sub hmem
      rcases List.mem_append.mp hmem with hmem | hmem
      · exact h.child hmem
      · rw [List.mem_singleton.mp hmem]
        exact Schema.wellFormed_of_empty rfl rfl

/-- Declaring a subsection yields a later state. -/
theorem extends_declareSubsection (h : s.schema.WellFormed) (name : SlotName) :
    s.schema.Extends (s.declareSubsection name).2.schema := by
  rcases declareSubsection_cases h.coherent name with ⟨sub, -, -, heq⟩ | ⟨sub, -, -, heq⟩
  · rw [heq]
    exact .refl _
  · rw [heq]
    have hkept : ∀ {i : ℕ} {a : Tag × Schema}, s.schema.subsections[i]? = some a →
        (s.schema.subsections ++ [sub])[i]? = some a := by
      intro i a ha
      rw [List.getElem?_append_left (List.getElem?_eq_some_iff.mp ha).1]
      exact ha
    refine .intro rfl (fun _ v hv => ⟨v, hv, rfl, le_refl _⟩)
      (fun _ a ha => ⟨a.2, hkept ha⟩) ?_
    intro i a b ha hb
    obtain rfl : a = b := Option.some.inj ((hkept ha).symm.trans hb)
    exact .refl a.2

/-- The subsection of a declaration is found in the schema that results, under its name. -/
theorem getElem?_declareSubsection (h : s.schema.WellFormed) (name : SlotName) :
    (s.declareSubsection name).2.schema.subsections[(s.declareSubsection name).1.1.index]?
        = some (s.declareSubsection name).1 ∧
      (s.declareSubsection name).1.1.name = name := by
  rcases declareSubsection_cases h.coherent name with ⟨sub, hsub, hname, heq⟩ | ⟨sub, -, rfl, heq⟩
  · rw [heq]
    exact ⟨hsub, hname⟩
  · rw [heq]
    exact ⟨List.getElem?_concat_length, rfl⟩

end Scope

end TrustedHtml
