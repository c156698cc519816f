import Mathlib.Data.List.Flatten
import TrustedHtml.Proofs.NamedBinding

/-!
# Families of Schemas

A schema has a family: itself and the schemas of its rows, at every level of nesting. Handles and
rows are told apart by identities alone, so everything that is checked by identity rests on two
facts about families: no two members have the same identity, and no identity is one that the
supply has not given out yet. A scope of which this holds, and whose schema is in order, is
proper.

`Scope.Grows` says what becomes of a proper scope under declarations. It stays proper, and every
member of the family is a later state of a member of the one before, or is new and has an
identity that was not given out before. This composes, so it is enough to look at one declaration.

## Main definitions

* `Schema.family`, `Schema.ids`: the family of a schema, and the identities in it.
* `Scope.Proper`: identities are distinct, and the next one is new.
* `Scope.Grows`: a scope is a later one.

## Main results

* `Scope.setChild_grows`: working on the schema of the rows of a subsection.
* `Scope.useAll_grows`: **declarations let a proper scope grow.**
-/

namespace TrustedHtml

/-! ### Replacing one of several lists -/

section

variable {α β : Type} {f : α → List β} {entries : List α} {i : ℕ} {a b : α}

/-- What is in an entry that was put in place is new, or it was there before. -/
theorem mem_flatMap_set {x : β} (h : x ∈ (entries.set i b).flatMap f) :
    x ∈ f b ∨ x ∈ entries.flatMap f := by
  obtain ⟨entry, hentry, hx⟩ := List.mem_flatMap.mp h
  rcases List.mem_or_eq_of_mem_set hentry with hentry | rfl
  · exact .inr (List.mem_flatMap.mpr ⟨entry, hentry, hx⟩)
  · exact .inl hx

/-- Replacing an entry keeps what is in the entries distinct, if everything that is added is not
in any of them. -/
theorem nodup_flatMap_set (h : (entries.flatMap f).Nodup) (ha : entries[i]? = some a)
    (hb : (f b).Nodup) (hnew : ∀ x ∈ f b, x ∈ f a ∨ x ∉ entries.flatMap f) :
    ((entries.set i b).flatMap f).Nodup := by
  induction entries generalizing i with
  | nil => cases ha
  | cons entry rest ih =>
      rw [List.flatMap_cons, List.nodup_append'] at h
      obtain ⟨hentry, hrest, hdisjoint⟩ := h
      have hlater : ∀ x ∈ f b, x ∈ f a ∨ x ∉ rest.flatMap f := by
        intro x hx
        refine (hnew x hx).imp_right fun hold hmem => hold ?_
        exact List.mem_append_right _ hmem
      cases i with
      | zero =>
          obtain rfl : entry = a := Option.some.inj ha
          rw [List.set_cons_zero, List.flatMap_cons, List.nodup_append']
          refine ⟨hb, hrest, fun x hx hmem => ?_⟩
          rcases hlater x hx with hx | hx
          · exact hdisjoint hx hmem
          · exact hx hmem
      | succ i =>
          have ha' : rest[i]? = some a := ha
          rw [List.set_cons_succ, List.flatMap_cons, List.nodup_append']
          refine ⟨hentry, ih hrest ha' hlater, fun x hx hmem => ?_⟩
          rcases mem_flatMap_set hmem with hmem | hmem
          · rcases hnew x hmem with hold | hold
            · exact hdisjoint hx (List.mem_flatMap.mpr ⟨a, List.mem_of_getElem? ha', hold⟩)
            · exact hold (List.mem_append_left _ hx)
          · exact hdisjoint hx hmem

end

namespace Schema

/-! ### Families -/

mutual

/-- A schema and the schemas of its rows, at every level of nesting. -/
def family : Schema → List Schema
  | ⟨id, strict, nesting, scalars, subsections⟩ =>
      ⟨id, strict, nesting, scalars, subsections⟩ :: familyOfRows subsections

/-- The families of the schemas of rows. -/
def familyOfRows : List (Tag × Schema) → List Schema
  | [] => []
  | (_, child) :: rest => family child ++ familyOfRows rest

end

/-- The identities in the family of a schema. -/
def ids (s : Schema) : List SchemaId :=
  s.family.map (·.id)

variable {s c d : Schema}

/-- The families of the schemas of rows, one after the other. -/
theorem familyOfRows_eq_flatMap : ∀ subsections : List (Tag × Schema),
    familyOfRows subsections = subsections.flatMap fun sub => sub.2.family
  | [] => rfl
  | (_, child) :: rest => by rw [familyOfRows, familyOfRows_eq_flatMap rest, List.flatMap_cons]

/-- The family of a schema begins with it. -/
theorem family_eq (s : Schema) : s.family = s :: s.subsections.flatMap fun sub => sub.2.family := by
  obtain ⟨_, _, _, _, subsections⟩ := s
  rw [family, familyOfRows_eq_flatMap]

/-- The identities in the family of a schema begin with its own. -/
theorem ids_eq (s : Schema) : s.ids = s.id :: s.subsections.flatMap fun sub => sub.2.ids := by
  rw [ids, family_eq, List.map_cons, List.map_flatMap]
  rfl

/-- Who is in the family of a schema. -/
theorem mem_family_iff : d ∈ s.family ↔ d = s ∨ ∃ sub ∈ s.subsections, d ∈ sub.2.family := by
  rw [family_eq, List.mem_cons, List.mem_flatMap]

/-- A schema is in its family. -/
theorem mem_family_self (s : Schema) : s ∈ s.family :=
  mem_family_iff.mpr (.inl rfl)

/-- A family has the families of the schemas of rows in it. -/
theorem mem_family_of_mem {sub : Tag × Schema} (hsub : sub ∈ s.subsections)
    (h : d ∈ sub.2.family) : d ∈ s.family :=
  mem_family_iff.mpr (.inr ⟨sub, hsub, h⟩)

mutual

/-- A family has the families of its members in it. -/
theorem mem_family_trans : ∀ {s c d : Schema}, c ∈ s.family → d ∈ c.family → d ∈ s.family
  | ⟨_, _, _, _, subsections⟩, _, _, hc, hd => by
      obtain rfl | ⟨sub, hsub, hc⟩ := mem_family_iff.mp hc
      · exact hd
      · exact mem_family_of_mem hsub (mem_family_trans_of_mem subsections hsub hc hd)

/-- The families of the schemas of rows have those of their members in them. -/
theorem mem_family_trans_of_mem : ∀ (subsections : List (Tag × Schema)) {sub : Tag × Schema}
    {c d : Schema}, sub ∈ subsections → c ∈ sub.2.family → d ∈ c.family → d ∈ sub.2.family
  | (_, _) :: rest, _, _, _, hsub, hc, hd => by
      rcases List.mem_cons.mp hsub with rfl | hsub
      · exact mem_family_trans hc hd
      · exact mem_family_trans_of_mem rest hsub hc hd

end

/-- The identity of a member of a family. -/
theorem mem_ids_of_mem (h : d ∈ s.family) : d.id ∈ s.ids :=
  List.mem_map_of_mem h

/-- The identities in the families of the schemas of rows. -/
theorem ids_subset {sub : Tag × Schema} (hsub : sub ∈ s.subsections) {id : SchemaId}
    (h : id ∈ sub.2.ids) : id ∈ s.ids := by
  rw [ids_eq]
  exact List.mem_cons_of_mem _ (List.mem_flatMap.mpr ⟨sub, hsub, h⟩)

/-- All members of the family of a schema in order are in order. -/
theorem InOrder.of_mem_family (h : s.InOrder) (hd : d ∈ s.family) : d.InOrder := by
  obtain ⟨hwf, hlinked⟩ := h
  induction hwf with
  | intro coherent children ih =>
      obtain rfl | ⟨sub, hsub, hd⟩ := mem_family_iff.mp hd
      · exact ⟨.intro coherent children, hlinked⟩
      · obtain ⟨-, hlinks⟩ := hlinked
        exact ih sub hsub hd (hlinks sub hsub)

end Schema

namespace Scope

open Schema

/-- **A proper scope**: its schema is in order, no two schemas of its family have the same
identity, and the supply has not given out the next one. -/
structure Proper (s : Scope) : Prop where
  inOrder : s.schema.InOrder
  distinct : s.schema.ids.Nodup
  fresh : ∀ id ∈ s.schema.ids, id.number < s.next

/-- **A later scope**, all of whose schemas are later states of those before, or new. -/
structure Grows (s f : Scope) : Prop where
  proper : f.Proper
  next_le : s.next ≤ f.next
  grown : s.schema.Extends f.schema
  members : ∀ d ∈ f.schema.family,
    (∃ c ∈ s.schema.family, c.Extends d) ∨ s.next ≤ d.id.number

variable {s f g : Scope}

/-- A new scope is proper. -/
theorem newRoot_proper (next : ℕ) : (newRoot next).Proper where
  inOrder := inOrder_of_empty rfl rfl
  distinct := List.nodup_singleton _
  fresh id hid := by
    obtain rfl : id = ⟨next⟩ := List.mem_singleton.mp hid
    exact Nat.lt_succ_self next

/-- The schema of rows makes a proper scope. -/
theorem Proper.child (h : s.Proper) {sub : Tag × Schema} (hsub : sub ∈ s.schema.subsections) :
    Proper ⟨sub.2, s.next⟩ := by
  have hdistinct := h.distinct
  rw [ids_eq, List.nodup_cons, List.nodup_flatMap] at hdistinct
  refine ⟨?_, hdistinct.2.1 sub hsub, fun id hid => h.fresh id (ids_subset hsub hid)⟩
  exact h.inOrder.of_mem_family (mem_family_of_mem hsub (mem_family_self sub.2))

/-- Every member of the family makes a proper scope. -/
theorem Proper.of_mem_family {c d : Schema} {next : ℕ} (h : Proper ⟨c, next⟩)
    (hd : d ∈ c.family) : Proper ⟨d, next⟩ := by
  have hwf : c.WellFormed := h.inOrder.wellFormed
  induction hwf with
  | intro coherent children ih =>
      obtain rfl | ⟨sub, hsub, hd⟩ := mem_family_iff.mp hd
      · exact h
      · exact ih sub hsub (h.child hsub) hd

/-! ### Growth is a preorder -/

/-- A proper scope is a later state of itself. -/
theorem Grows.refl (h : s.Proper) : s.Grows s :=
  ⟨h, le_refl _, .refl _, fun d hd => .inl ⟨d, hd, .refl d⟩⟩

/-- A later state of a later state is a later state. -/
theorem Grows.trans (h : s.Grows f) (h' : f.Grows g) : s.Grows g := by
  refine ⟨h'.proper, h.next_le.trans h'.next_le, h.grown.trans h'.grown, fun d hd => ?_⟩
  rcases h'.members d hd with ⟨c, hc, hext⟩ | hnew
  · rcases h.members c hc with ⟨b, hb, hext'⟩ | hnew
    · exact .inl ⟨b, hb, hext'.trans hext⟩
    · rw [hext.id_eq]
      exact .inr hnew
  · exact .inr (h.next_le.trans hnew)

/-- An identity in a later scope was there before, or is new. -/
theorem Grows.mem_ids (h : s.Grows f) {id : SchemaId} (hid : id ∈ f.schema.ids) :
    id ∈ s.schema.ids ∨ s.next ≤ id.number := by
  obtain ⟨d, hd, rfl⟩ := List.mem_map.mp hid
  refine (h.members d hd).imp_left ?_
  rintro ⟨c, hc, hext⟩
  rw [hext.id_eq]
  exact mem_ids_of_mem hc

/-! ### Declarations -/

/-- A change that leaves the subsections as they are concerns no other member of the family. -/
theorem grows_of_subsections_eq {after : Schema} (h : s.Proper) (hafter : after.InOrder)
    (hext : s.schema.Extends after) (hsub : after.subsections = s.schema.subsections) :
    s.Grows ⟨after, s.next⟩ := by
  have hids : after.ids = s.schema.ids := by
    rw [ids_eq, ids_eq, hsub, hext.id_eq]
  refine ⟨⟨hafter, ?_, ?_⟩, le_refl _, hext, fun d hd => ?_⟩
  · rw [hids]
    exact h.distinct
  · rw [hids]
    exact h.fresh
  · obtain rfl | ⟨sub, hmem, hd⟩ := mem_family_iff.mp hd
    · exact .inl ⟨s.schema, mem_family_self _, hext⟩
    · rw [hsub] at hmem
      exact .inl ⟨d, mem_family_of_mem hmem hd, .refl d⟩

/-- Declaring a variable. -/
theorem declare_grows (h : s.Proper) (name : SlotName) (level : TrustLevel) :
    s.Grows ⟨(s.schema.declare name level).2, s.next⟩ :=
  grows_of_subsections_eq h (useAll_inOrder h.inOrder [.scalar name level])
    (extends_declare h.inOrder.wellFormed name level) (s.schema.declare_rest name level).1

/-- Setting the strictness. -/
theorem setStrict_grows (h : s.Proper) (strict : Bool) :
    s.Grows ⟨s.schema.setStrict strict, s.next⟩ := by
  refine grows_of_subsections_eq h (h.inOrder.setStrict strict) ?_ rfl
  refine .intro rfl (fun _ v hv => ⟨v, hv, rfl, le_refl _⟩) (fun _ sub hsub => ⟨sub.2, hsub⟩) ?_
  intro i a b ha hb
  obtain rfl : a = b := Option.some.inj (ha.symm.trans hb)
  exact .refl a.2

/-- **Working on the schema of the rows of a subsection**: if that one grows, the schema around it
grows. -/
theorem setChild_grows (h : s.Proper) {t : Tag} {c : Schema}
    (hsub : s.schema.subsections[t.index]? = some (t, c)) (hinner : Grows ⟨c, s.next⟩ f) :
    s.Grows ⟨s.schema.setChild t f.schema, f.next⟩ := by
  have hmem := List.mem_of_getElem? hsub
  have hold : ∀ id ∈ s.schema.ids, ¬ s.next ≤ id.number := fun id hid =>
    Nat.not_le.mpr (h.fresh id hid)
  have hdistinct := h.distinct
  rw [ids_eq, List.nodup_cons] at hdistinct
  refine ⟨⟨⟨?_, ?_⟩, ?_, ?_⟩, hinner.next_le, extends_setChild hsub hinner.grown, ?_⟩
  · exact setChild_wellFormed h.inOrder.wellFormed hsub hinner.proper.inOrder.wellFormed
  · obtain ⟨hids, hlinks⟩ := h.inOrder.linked
    refine setChild_linked (.intro hids hlinks) hinner.proper.inOrder.linked ?_
    exact (hids _ hmem).trans hinner.grown.id_eq.symm
  · rw [ids_eq, List.nodup_cons]
    constructor
    · intro hown
      rcases mem_flatMap_set hown with hown | hown
      · rcases hinner.mem_ids hown with hown | hown
        · exact hdistinct.1 (List.mem_flatMap.mpr ⟨_, hmem, hown⟩)
        · exact hold _ (mem_ids_of_mem (mem_family_self _)) hown
      · exact hdistinct.1 hown
    · refine nodup_flatMap_set hdistinct.2 hsub hinner.proper.distinct fun id hid => ?_
      refine (hinner.mem_ids hid).imp_right fun hnew hrows => hold id ?_ hnew
      rw [ids_eq]
      exact List.mem_cons_of_mem _ hrows
  · intro id hid
    rw [ids_eq, List.mem_cons] at hid
    rcases hid with rfl | hid
    · exact (h.fresh _ (mem_ids_of_mem (mem_family_self _))).trans_le hinner.next_le
    · rcases mem_flatMap_set hid with hid | hid
      · exact hinner.proper.fresh id hid
      · refine (h.fresh id ?_).trans_le hinner.next_le
        rw [ids_eq]
        exact List.mem_cons_of_mem _ hid
  · intro d hd
    obtain rfl | ⟨sub, hsub', hd⟩ := mem_family_iff.mp hd
    · exact .inl ⟨s.schema, mem_family_self _, extends_setChild hsub hinner.grown⟩
    · rcases List.mem_or_eq_of_mem_set hsub' with hsub' | rfl
      · exact .inl ⟨d, mem_family_of_mem hsub' hd, .refl d⟩
      · refine (hinner.members d hd).imp_left ?_
        rintro ⟨b, hb, hext⟩
        exact ⟨b, mem_family_of_mem hmem hb, hext⟩

/-- Declaring a subsection. -/
theorem declareSubsection_grows (h : s.Proper) (name : SlotName) :
    s.Grows (s.declareSubsection name).2 := by
  have hwf := h.inOrder.wellFormed
  have hwf' := declareSubsection_wellFormed hwf name
  have hlinked' := declareSubsection_linked hwf h.inOrder.linked name
  have hext := extends_declareSubsection hwf name
  rcases declareSubsection_cases hwf.coherent name with ⟨sub, -, -, heq⟩ | ⟨sub, -, rfl, heq⟩
  · rw [heq]
    exact .refl h
  · rw [heq] at hwf' hlinked' hext ⊢
    have hids : ∀ child : Tag × Schema,
        Schema.ids { s.schema with subsections := s.schema.subsections ++ [child] } =
          s.schema.ids ++ child.2.ids := by
      intro child
      rw [ids_eq, ids_eq, List.flatMap_append, List.flatMap_singleton, List.cons_append]
    have hnew : Schema.ids ⟨⟨s.next⟩, false,
        some ⟨s.schema.id, s.schema.subsections.length, name⟩, [], []⟩ = [⟨s.next⟩] := rfl
    refine ⟨⟨⟨hwf', hlinked'⟩, ?_, ?_⟩, Nat.le_succ _, hext, ?_⟩
    · rw [hids, hnew, List.nodup_append']
      refine ⟨h.distinct, List.nodup_singleton _, fun id hid hlast => ?_⟩
      rw [List.mem_singleton.mp hlast] at hid
      exact absurd (h.fresh _ hid) (Nat.lt_irrefl _)
    · intro id hid
      rw [hids, hnew, List.mem_append, List.mem_singleton] at hid
      rcases hid with hid | rfl
      · exact Nat.lt_succ_of_lt (h.fresh id hid)
      · exact Nat.lt_succ_self _
    · intro d hd
      obtain rfl | ⟨sub, hsub, hd⟩ := mem_family_iff.mp hd
      · exact .inl ⟨s.schema, mem_family_self _, hext⟩
      · rcases List.mem_append.mp hsub with hsub | hsub
        · exact .inl ⟨d, mem_family_of_mem hsub hd, .refl d⟩
        · obtain rfl := List.mem_singleton.mp hsub
          obtain rfl := List.mem_singleton.mp hd
          exact .inr (le_refl s.next)

mutual

/-- A declaration lets a proper scope grow. -/
theorem use_grows {s : Scope} (h : s.Proper) : ∀ u : Use, s.Grows (s.use u)
  | .scalar name level => declare_grows h name level
  | .subsection name uses => by
      have hdeclared := declareSubsection_grows h name
      obtain ⟨hsub, -⟩ := getElem?_declareSubsection h.inOrder.wellFormed name
      have hinside : (s.inside name).Proper := hdeclared.proper.child (List.mem_of_getElem? hsub)
      exact hdeclared.trans (setChild_grows hdeclared.proper hsub (useAll_grows hinside uses))

/-- **Declarations let a proper scope grow.** -/
theorem useAll_grows {s : Scope} (h : s.Proper) : ∀ uses : List Use, s.Grows (s.useAll uses)
  | [] => .refl h
  | u :: rest => (use_grows h u).trans (useAll_grows (use_grows h u).proper rest)

end

end Scope

end TrustedHtml
