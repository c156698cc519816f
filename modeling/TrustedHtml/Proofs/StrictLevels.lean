import TrustedHtml.Proofs.DeclaredSchema
import TrustedHtml.Proofs.Resolving

/-!
# Strictness and Derived Schemas

Names that arguments use can be declared before they are bound, unless the schema is strict. It is
the strictness of the schema itself that decides for all levels of nesting: a strict schema is left
as it is, with everything in it, and so names are ignored in rows whose schema is not strict; on any
other schema everything is declared, in rows whose schema is strict as well.

So strictness is honoured at every level only if it makes no difference, that is, if names that are
not declared are addressed in those schemas only that are as strict as the schema around them all.
Then no strict schema gets a name, the first argument that cannot be bound is refused if it is so
for a name that a strict schema does not have, and no name is ignored elsewhere.

## Main definitions

* `Use.Spares`: a declaration adds no name to a strict schema.
* `BindArg.Agrees`: names that are not declared are addressed where strictness is as told.
* `BindArg.HasForeign`: a handle does not belong to the schema that it is used with.
* `Declaring.Derives`: what an operation that derives a schema does.
* `Schema.HonoursStrictness`: strictness is honoured at every level.

## Main results

* `Schema.WithUses.exists_sameNames`: what spares strict schemas keeps their names.
* `BindArg.Refused.unique`: there is one failure for an argument.
* `Declaring.bindings_derives`: what deriving a schema declares, and how it fails.
* `Session.Reached.strictness_of_declareAndBind`: **the outermost strictness decides.**
-/

namespace TrustedHtml

/-! ### Declarations that spare strict schemas -/

/-- **A declaration adds no name to a strict schema**, be it the one that it is made on or one in
it. -/
inductive Use.Spares : Schema → Use → Prop
  | scalar {s : Schema} {name : SlotName} {level : TrustLevel}
      (h : s.strict = true → ∃ slot, s.scalar? name.text = some slot) :
      Spares s (.scalar name level)
  | subsection {s : Schema} {name : SlotName} {uses : List Use}
      (h : s.strict = true → ∃ child, s.rows? name.text = some child)
      (huses : ∀ child, s.rows? name.text = some child → ∀ u ∈ uses, Spares child u) :
      Spares s (.subsection name uses)

/-- What is used within a subsection. -/
theorem Use.mem_inside {name : SlotName} {uses : List Use} {u : Use} :
    u ∈ inside name uses ↔ ∃ inner, .subsection name inner ∈ uses ∧ u ∈ inner := by
  rw [inside, List.mem_flatMap]
  constructor
  · rintro ⟨other, hother, hu⟩
    cases other with
    | scalar => cases hu
    | subsection slot inner =>
        by_cases hslot : slot = name
        · subst hslot
          simp only [if_true] at hu
          exact ⟨inner, hother, hu⟩
        · simp only [hslot, if_false, List.not_mem_nil] at hu
  · rintro ⟨inner, hinner, hu⟩
    exact ⟨_, hinner, by simpa using hu⟩

namespace Schema

/-- Two schemas have the same names, in the same order. -/
structure SameNames (s f : Schema) : Prop where
  scalars : f.scalars.map (·.name) = s.scalars.map (·.name)
  subsections : f.subsections.map (·.1.name) = s.subsections.map (·.1.name)

variable {a b : Schema} {uses : List Use}

/-- A variable is found in both of two schemas with the same names. -/
theorem SameNames.exists_scalar (h : a.SameNames b) {name : String} {slot : Var}
    (hslot : b.scalar? name = some slot) : ∃ v, a.scalar? name = some v := by
  have hname := text_eq_of_scalar?_eq hslot
  have hmem : slot.name ∈ b.scalars.map (·.name) :=
    List.mem_map_of_mem (List.mem_of_find?_eq_some hslot)
  rw [h.scalars] at hmem
  obtain ⟨v, hv, hsame⟩ := List.mem_map.mp hmem
  refine Option.isSome_iff_exists.mp (List.find?_isSome.mpr ⟨v, hv, beq_iff_eq.mpr ?_⟩)
  rw [hsame, hname]

/-- The schema of rows is found in both of two schemas with the same names. -/
theorem SameNames.exists_rows (h : a.SameNames b) {name : String} {d : Schema}
    (hd : b.rows? name = some d) : ∃ c, a.rows? name = some c := by
  obtain ⟨sub, hsub, hname, -⟩ := exists_mem_of_rows?_eq hd
  have hmem : sub.1.name ∈ b.subsections.map (·.1.name) := List.mem_map_of_mem hsub
  rw [h.subsections] at hmem
  obtain ⟨known, hknown, hsame⟩ := List.mem_map.mp hmem
  refine Option.isSome_iff_exists.mp ?_
  rw [rows?, Option.isSome_map, List.find?_isSome]
  exact ⟨known, hknown, beq_iff_eq.mpr (by rw [hsame, hname])⟩

/-- A strict schema that is spared keeps its names. -/
theorem WithUses.sameNames (h : a.WithUses uses b) (hstrict : a.strict = true)
    (hspares : ∀ u ∈ uses, u.Spares a) : a.SameNames b := by
  have hscalars : ∀ name ∈ (Use.scalars uses).map (·.1), name ∈ a.scalars.map (·.name) := by
    intro name hname
    obtain ⟨⟨_, level⟩, hused, rfl⟩ := List.mem_map.mp hname
    obtain ⟨u, hu, hfor⟩ := List.mem_filterMap.mp hused
    cases u with
    | subsection => cases hfor
    | scalar slot _ =>
        cases hfor
        cases hspares _ hu with
        | scalar hknown =>
            obtain ⟨v, hv⟩ := hknown hstrict
            have htext := text_eq_of_scalar?_eq hv
            rw [← SlotName.text_inj.mp htext]
            exact List.mem_map_of_mem (List.mem_of_find?_eq_some hv)
  have hsubsections : ∀ name ∈ Use.subsections uses, name ∈ a.subsections.map (·.1.name) := by
    intro name hname
    obtain ⟨u, hu, hfor⟩ := List.mem_filterMap.mp hname
    cases u with
    | scalar => cases hfor
    | subsection slot _ =>
        cases hfor
        cases hspares _ hu with
        | subsection hknown _ =>
            obtain ⟨child, hchild⟩ := hknown hstrict
            obtain ⟨sub, hsub, htext, -⟩ := exists_mem_of_rows?_eq hchild
            rw [← SlotName.text_inj.mp htext]
            exact List.mem_map_of_mem hsub
  constructor
  · rw [h.scalar_names, newNames_eq_nil hscalars, List.append_nil]
  · obtain ⟨-, -, hnames, -, -⟩ := h
    rw [hnames, newNames_eq_nil hsubsections, List.append_nil]

/-- **Declarations that spare strict schemas keep their names**, at every level of nesting. -/
theorem WithUses.exists_sameNames (h : a.WithUses uses b) (hwf : a.WellFormed)
    (hext : a.Extends b) (hspares : ∀ u ∈ uses, u.Spares a) {c : Schema} (hc : c ∈ a.family)
    (hstrict : c.strict = true) : ∃ d ∈ b.family, d.id = c.id ∧ c.SameNames d := by
  induction h generalizing c with
  | @intro a b uses strict scalars subsections known new ihknown _ =>
      have h := WithUses.intro strict scalars subsections known new
      rcases mem_family_iff.mp hc with rfl | ⟨sub, hsub, hc⟩
      · exact ⟨b, mem_family_self b, hext.id_eq, h.sameNames hstrict hspares⟩
      · obtain ⟨i, hi⟩ := List.getElem?_of_mem hsub
        obtain ⟨t, child⟩ := sub
        obtain ⟨grown, hgrown, hchild⟩ := hext.subsection hi
        have hrows : a.rows? t.name.text = some child :=
          hwf.rows?_eq (hwf.coherent.tag_of_mem hsub).1
        have hinside : ∀ u ∈ Use.inside t.name uses, u.Spares child := by
          intro u hu
          obtain ⟨inner, hinner, hu⟩ := Use.mem_inside.mp hu
          cases hspares _ hinner with
          | subsection _ huses => exact huses child hrows u hu
        obtain ⟨d, hd, hsame⟩ := ihknown hi hgrown (hwf.child hsub) hchild hinside hc hstrict
        exact ⟨d, mem_family_of_mem (List.mem_of_getElem? hgrown) hd, hsame⟩

/-- The schema of the rows of a name is a later state in a later state of the schema. -/
theorem Extends.exists_rows {s f c : Schema} (h : s.Extends f) (hs : s.WellFormed)
    (hf : f.WellFormed) {name : String} (hrows : s.rows? name = some c) :
    ∃ d, f.rows? name = some d ∧ c.WellFormed ∧ d.WellFormed ∧ c.Extends d := by
  obtain ⟨sub, hsub, hname, rfl⟩ := exists_mem_of_rows?_eq hrows
  obtain ⟨d, hd, hgrown⟩ := h.subsection (hs.coherent.tag_of_mem hsub).1
  exact ⟨d, hname ▸ hf.rows?_eq hd, hs.child hsub, hf.child (List.mem_of_getElem? hd), hgrown⟩

end Schema

/-! ### Arguments that agree with strictness -/

/-- The first element of a list that does not have a property is one. -/
theorem first_unique {α : Type} {P : α → Prop} {xs xs' ys ys' : List α} {a b : α}
    (h : xs ++ a :: ys = xs' ++ b :: ys') (hxs : ∀ x ∈ xs, P x) (ha : ¬ P a)
    (hxs' : ∀ x ∈ xs', P x) (hb : ¬ P b) : xs = xs' ∧ a = b := by
  induction xs generalizing xs' with
  | nil =>
      cases xs' with
      | nil => exact ⟨rfl, (List.cons.inj h).1⟩
      | cons x rest =>
          obtain rfl : a = x := (List.cons.inj h).1
          exact absurd (hxs' a List.mem_cons_self) ha
  | cons x rest ih =>
      cases xs' with
      | nil =>
          obtain rfl : x = b := (List.cons.inj h).1
          exact absurd (hxs x List.mem_cons_self) hb
      | cons x' rest' =>
          obtain ⟨rfl, htail⟩ := List.cons.inj h
          obtain ⟨rfl, hab⟩ := ih htail (List.forall_mem_cons.mp hxs).2
            (List.forall_mem_cons.mp hxs').2
          exact ⟨rfl, hab⟩

/-- **Names that are not declared are addressed where strictness is as told**, by an argument and
in its rows. -/
inductive BindArg.Agrees (strict : Bool) : Schema → BindArg → Prop
  | scalar {s : Schema} {key : Key Var} {value : SafeString} {level : TrustLevel}
      (h : s.strict = strict ∨
        ∃ slot, s.scalar? (BindArg.scalar key value level).name = some slot) :
      Agrees strict s (.scalar key value level)
  | rows {s : Schema} {key : Key Tag} {given : List (List BindArg)}
      (h : s.strict = strict ∨ ∃ child, s.rows? (BindArg.rows key given).name = some child)
      (hgiven : ∀ child, s.rows? (BindArg.rows key given).name = some child →
        ∀ row ∈ given, ∀ arg ∈ row, Agrees strict child arg) : Agrees strict s (.rows key given)

namespace BindArg

variable {s : Schema} {arg : BindArg}

/-- Everything that can be resolved is declared. -/
theorem Resolves.agrees (h : arg.Resolves s) (strict : Bool) : arg.Agrees strict s := by
  induction h with
  | scalar hslot => exact .scalar (.inr ⟨_, hslot⟩)
  | rows _ hrows _ ih =>
      refine .rows (.inr ⟨_, hrows⟩) fun child hchild row hrow arg harg => ?_
      rw [hrows] at hchild
      cases hchild
      exact ih row hrow arg harg

/-- What can be resolved later was declared in strict schemas already, if these have kept their
names. -/
theorem Resolves.agrees_of_kept {f : Schema} (h : arg.Resolves f) (hs : s.WellFormed)
    (hf : f.WellFormed) (hext : s.Extends f) (hkept : ∀ c ∈ s.family, c.strict = true →
      ∀ d ∈ f.family, d.id = c.id → c.SameNames d) : arg.Agrees false s := by
  induction h generalizing s with
  | @scalar f _ _ _ _ hslot =>
      refine .scalar ((Bool.eq_false_or_eq_true s.strict).symm.imp_right fun hstrict => ?_)
      have hsame := hkept s (Schema.mem_family_self s) hstrict f (Schema.mem_family_self f)
        hext.id_eq
      exact hsame.exists_scalar hslot
  | @rows f d key given _ hrows _ ih =>
      refine .rows ((Bool.eq_false_or_eq_true s.strict).symm.imp_right fun hstrict => ?_)
        fun child hchild row hrow arg harg => ?_
      · have hsame := hkept s (Schema.mem_family_self s) hstrict f (Schema.mem_family_self f)
          hext.id_eq
        exact hsame.exists_rows hrows
      · obtain ⟨later, hlater, hwf, hwf', hgrown⟩ := hext.exists_rows hs hf hchild
        obtain rfl := Option.some.inj (hrows.symm.trans hlater)
        obtain ⟨sub, hsub, -, rfl⟩ := Schema.exists_mem_of_rows?_eq hchild
        obtain ⟨sub', hsub', -, rfl⟩ := Schema.exists_mem_of_rows?_eq hrows
        refine ih row hrow arg harg hwf hwf' hgrown fun c hc hstrict e he => ?_
        exact hkept c (Schema.mem_family_of_mem hsub hc) hstrict e
          (Schema.mem_family_of_mem hsub' he)

variable [UrlReader] {f g : Failure}

/-- Where no strict schema lacks a name, no argument is refused for its name. -/
theorem Refused.cause_ne_undefined (h : arg.Refused s f) (hagrees : arg.Agrees false s)
    (kind : SlotKind) (name : String) : f.cause ≠ .bind (.undefined kind name) := by
  induction h with
  | trust _ _ => exact nofun
  | undefinedString hnone hstrict =>
      cases hagrees with
      | scalar h =>
          rw [hstrict, hnone] at h
          simp at h
  | foreign _ => exact nofun
  | undefinedSeries hnone hstrict =>
      cases hagrees with
      | rows h _ =>
          rw [hstrict, BindArg.name, hnone] at h
          simp at h
  | row _ hrows hgiven _ _ _ ih =>
      cases hagrees with
      | rows _ hall =>
          refine ih (hall _ hrows _ (hgiven ▸ List.mem_append_right _ List.mem_cons_self) _ ?_)
          exact List.mem_append_right _ List.mem_cons_self

/-- **There is one failure for an argument.** -/
theorem Refused.unique (h : arg.Refused s f) (h' : arg.Refused s g) : f = g := by
  induction h generalizing g with
  | trust hslot hcheck =>
      cases h' with
      | trust hslot' hcheck' =>
          cases hslot.symm.trans hslot'
          cases hcheck.symm.trans hcheck'
          rfl
      | undefinedString hnone _ => cases hslot.symm.trans hnone
  | undefinedString hnone _ =>
      cases h' with
      | trust hslot _ => cases hnone.symm.trans hslot
      | undefinedString => rfl
  | foreign hparent =>
      cases h' with
      | foreign => rfl
      | row hkey => exact absurd (hkey _ rfl) hparent
  | undefinedSeries hnone _ =>
      cases h' with
      | undefinedSeries => rfl
      | row _ hrows => cases hnone.symm.trans hrows
  | @row s child key given earlier later before after arg f hkey hrows hgiven hearlier hbefore
      hrefused ih =>
      cases h' with
      | foreign hparent => exact absurd (hkey _ rfl) hparent
      | undefinedSeries hnone _ => cases hnone.symm.trans hrows
      | @row _ _ _ _ earlier' later' before' after' arg' f' _ hrows' hgiven' hearlier' hbefore'
          hrefused' =>
          cases hrows.symm.trans hrows'
          have hrow : Binding.FirstRefused child (before ++ arg :: after) f :=
            ⟨_, _, _, rfl, hbefore, hrefused⟩
          have hrow' : Binding.FirstRefused child (before' ++ arg' :: after') f' :=
            ⟨_, _, _, rfl, hbefore', hrefused'⟩
          -- the same row is the first to have an argument that is refused, and it has one such
          obtain ⟨rfl, hsame⟩ := first_unique (hgiven.symm.trans hgiven') hearlier hrow.not_all
            hearlier' hrow'.not_all
          obtain ⟨-, rfl⟩ := first_unique hsame hbefore hrefused.not_admissible hbefore'
            hrefused'.not_admissible
          rw [ih hrefused']

end BindArg

/-- There is one failure for arguments. -/
theorem Binding.FirstRefused.unique [UrlReader] {s : Schema} {args : List BindArg} {f g : Failure}
    (h : FirstRefused s args f) (h' : FirstRefused s args g) : f = g := by
  obtain ⟨before, arg, after, hargs, hbefore, hrefused⟩ := h
  obtain ⟨before', arg', after', hargs', hbefore', hrefused'⟩ := h'
  obtain ⟨-, rfl⟩ := first_unique (hargs.symm.trans hargs') hbefore hrefused.not_admissible hbefore'
    hrefused'.not_admissible
  exact hrefused.unique hrefused'

/-! ### What deriving a schema declares, and how it fails -/

/-- **A handle in an argument does not belong to the schema that it is used with**, in arguments
for a schema, or for one that is new. -/
inductive BindArg.HasForeign : Option Schema → BindArg → Prop
  | here {o : Option Schema} {t : Tag} {given : List (List BindArg)}
      (h : ∀ s, o = some s → t.parent ≠ s.id) : HasForeign o (.rows (.handle t) given)
  | inside {o : Option Schema} {key : Key Tag} {given : List (List BindArg)} {row : List BindArg}
      {arg : BindArg} (hrow : row ∈ given) (harg : arg ∈ row)
      (h : HasForeign (o.bind (·.rows? (BindArg.rows key given).name)) arg) :
      HasForeign o (.rows key given)

/-- A handle that does not belong to a later schema does not belong to the schema. -/
theorem BindArg.HasForeign.of_later {o later : Option Schema} {arg : BindArg}
    (h : arg.HasForeign later) (hlater : ∀ s, o = some s →
      ∃ f, later = some f ∧ s.WellFormed ∧ f.WellFormed ∧ s.Extends f) : arg.HasForeign o := by
  induction h generalizing o with
  | here hforeign =>
      refine .here fun s hs => ?_
      obtain ⟨f, hf, -, -, hext⟩ := hlater s hs
      exact hext.id_eq ▸ hforeign f hf
  | inside hrow harg _ ih =>
      refine .inside hrow harg (ih fun c hc => ?_)
      obtain ⟨s, hs, hrows⟩ := Option.bind_eq_some_iff.mp hc
      obtain ⟨f, rfl, hwf, hwf', hext⟩ := hlater s hs
      exact hext.exists_rows hwf hwf' hrows

/-- A declaration spares strict schemas where names that are not declared are addressed in other
schemas only. -/
def Use.SparedBy (args : List BindArg) (u : Use) : Prop :=
  ∀ s : Schema, (∀ arg ∈ args, arg.Agrees false s) → u.Spares s

namespace Declaring

variable {α β : Type} {act : Declaring α} {args args' : List BindArg} {P : α → Prop}

/-- What an operation that derives a schema from arguments does: it declares what the arguments
use, its answers have a property, and it fails for a handle of another schema only. -/
structure Derives (act : Declaring α) (args : List BindArg) (P : α → Prop) : Prop where
  declares : act.DeclaresOnly (Use.SparedBy args)
  answers : ∀ {s t : Scope} {a : α}, act s = .ok a t → P a
  fails : ∀ {s t : Scope} {e : Abort}, s.schema.WellFormed → act s = .error e t →
    (∃ name, e = .ofCause (.bind (.foreignSubsection name))) ∧
      ∃ arg ∈ args, arg.HasForeign (some s.schema)

/-- An answer. -/
theorem Derives.pure {a : α} (h : P a) : Derives (Pure.pure a) args P where
  declares := .pure a
  answers heq := by
    cases heq
    exact h
  fails _ heq := by cases heq

/-- One operation after another. The second one works on a later state of the schema. -/
theorem Derives.bind {k : α → Declaring β} {Q : β → Prop} (h : act.Derives args P)
    (hk : ∀ a, P a → (k a).Derives args Q) : (act >>= k).Derives args Q where
  declares := h.declares.bind fun heq => (hk _ (h.answers heq)).declares
  answers heq := by
    obtain ⟨a, mid, hact, hrest⟩ := bind_eq_ok heq
    exact (hk a (h.answers hact)).answers hrest
  fails {s t e} hs heq := by
    rcases bind_eq_error heq with hact | ⟨a, mid, hact, hrest⟩
    · exact h.fails hs hact
    · obtain ⟨hmid, hext⟩ := (onlyDeclares_iff.mpr (h.declares.mono fun _ _ => trivial)).extends hs
      rw [after, hact] at hmid hext
      obtain ⟨hname, arg, harg, hforeign⟩ := (hk a (h.answers hact)).fails hmid hrest
      refine ⟨hname, arg, harg, hforeign.of_later fun s' hs' => ?_⟩
      obtain rfl := Option.some.inj hs'
      exact ⟨_, rfl, hs, hmid, hext⟩

/-- An operation whose answer is not used. -/
theorem Derives.discard (h : act.Derives args P) :
    (Functor.discard act).Derives args fun _ => True where
  declares := h.declares.discard
  answers _ := trivial
  fails hs heq := h.fails hs (discard_eq_error heq)

/-- An operation for further arguments. -/
theorem Derives.mono (h : act.Derives args P) (hsub : args ⊆ args') : act.Derives args' P where
  declares := h.declares.mono fun _ hu s hagrees => hu s fun arg harg => hagrees arg (hsub harg)
  answers := h.answers
  fails hs heq := by
    obtain ⟨hname, arg, harg, hforeign⟩ := h.fails hs heq
    exact ⟨hname, arg, hsub harg, hforeign⟩

/-- Working on the schema of the rows of a subsection. -/
theorem Derives.inSubsection {key : Key Tag} {given : List (List BindArg)}
    (h : act.Derives given.flatten P) {name : SlotName}
    (hname : name.text = (BindArg.rows key given).name) :
    (inSubsection name act).Derives [.rows key given] fun _ => True where
  declares := (h.declares.inSubsection name).mono fun u ⟨uses, hu, huses⟩ s hagrees => by
    subst hu
    cases hagrees _ (List.mem_singleton_self _) with
    | rows hknown hgiven =>
        rw [← hname] at hknown hgiven
        refine .subsection (fun hstrict => hknown.resolve_left (by simp [hstrict])) ?_
        intro child hchild u hu
        exact huses u hu child (List.forall_mem_flatten.mpr (hgiven child hchild))
  answers _ := trivial
  fails {s t e} hs heq := by
    have hdeclared := Scope.declareSubsection_wellFormed hs name
    obtain ⟨hsub, hslot⟩ := Scope.getElem?_declareSubsection hs name
    have hchild := hdeclared.child (List.mem_of_getElem? hsub)
    have hfound := hdeclared.rows?_eq hsub
    rw [hslot, hname] at hfound
    obtain ⟨inner, hact, -⟩ := inSubsection_eq_error heq
    obtain ⟨hname', arg, harg, hforeign⟩ := h.fails hchild hact
    obtain ⟨row, hrow, harg⟩ := List.mem_flatten.mp harg
    refine ⟨hname', _, List.mem_singleton_self _, .inside hrow harg (hforeign.of_later ?_)⟩
    intro c hc
    -- the schema of the rows was there before, or it is new
    obtain ⟨d, hd, hgrown⟩ := (Scope.extends_declareSubsection hs name).exists_rows hs hdeclared hc
    rw [hfound] at hd
    exact ⟨d, hd, hgrown⟩

/-- Declaring a variable. -/
theorem scalar_derives {name : SlotName} {level : TrustLevel}
    (h : Use.SparedBy args (.scalar name level)) :
    (Functor.discard (scalar name level)).Derives args fun _ => True where
  declares := (DeclaresOnly.discard fun _ => ⟨[.scalar name level], rfl, by simpa using h⟩)
  answers _ := trivial
  fails _ heq := by cases heq

/-- A name of a variable that is not empty. -/
theorem varName_derives {name : String} (h : name ≠ "") :
    (varName name).Derives args fun slot => slot.text = name := by
  rw [varName, SlotName.ofString?, dif_neg h]
  exact .pure rfl

/-- A name of a subsection that is not empty. -/
theorem subsectionName_derives {name : String} (h : name ≠ "") :
    (subsectionName name).Derives args fun slot => slot.text = name := by
  rw [subsectionName, SlotName.ofString?, dif_neg h]
  exact .pure rfl

/-- Looking up the name that a key addresses. -/
theorem keyTagName_derives {key : Key Tag} {given : List (List BindArg)}
    (h : (BindArg.rows key given).name ≠ "") : (keyTagName key).Derives [.rows key given]
      fun slot => slot.text = (BindArg.rows key given).name := by
  cases key with
  | name n => exact subsectionName_derives h
  | handle t =>
      refine ⟨keyTagName_declaresOnly _, fun {s t' a} heq => ?_, fun {s t' e} _ heq => ?_⟩
      · rw [keyTagName_handle] at heq
        split at heq <;> cases heq
        rfl
      · rw [keyTagName_handle] at heq
        split at heq <;> cases heq
        rename_i hparent
        refine ⟨⟨_, rfl⟩, _, List.mem_singleton_self _, .here fun s' hs' => ?_⟩
        obtain rfl := Option.some.inj hs'
        exact hparent

mutual

/-- What is done for an argument. -/
theorem binding_derives : ∀ arg : BindArg, arg.Everywhere (fun other => other.name ≠ "") →
    (binding arg).Derives [arg] fun _ => True
  | .scalar (.handle v) _ level, _ => by
      refine scalar_derives fun s hagrees => ?_
      cases hagrees _ (List.mem_singleton_self _) with
      | scalar h => exact .scalar fun hstrict => h.resolve_left (by simp [hstrict])
  | .scalar (.name n) _ level, hname => by
      refine (varName_derives hname).bind fun slot hslot => scalar_derives fun s hagrees => ?_
      subst hslot
      cases hagrees _ (List.mem_singleton_self _) with
      | scalar h => exact .scalar fun hstrict => h.resolve_left (by simp [hstrict])
  | .rows _ given, hnames => (keyTagName_derives hnames.1).bind fun _ hslot =>
      ((bindingRows_derives given hnames.2).inSubsection hslot).discard

/-- What is done for rows. -/
theorem bindingRows_derives : ∀ given : List (List BindArg),
    BindArg.RowsEverywhere (fun other => other.name ≠ "") given →
      (bindingRows given).Derives given.flatten fun _ => True
  | [], _ => .pure trivial
  | row :: rest, hnames => ((bindings_derives row hnames.1).mono (by simp)).bind fun _ _ =>
      (bindingRows_derives rest hnames.2).mono (by simp)

/-- **What deriving a schema from arguments does**, if names are not empty. -/
theorem bindings_derives : ∀ args : List BindArg,
    BindArg.AllEverywhere (fun other => other.name ≠ "") args →
      (bindings args).Derives args fun _ => True
  | [], _ => .pure trivial
  | arg :: rest, hnames => ((binding_derives arg hnames.1).mono (by simp)).bind fun _ _ =>
      (bindings_derives rest hnames.2).mono (by simp)

end

/-! ### Declaring and binding -/

/-- How an operation ends. -/
def result (act : Declaring α) (s : Scope) : Except Abort α :=
  match act s with
  | .ok a _ => .ok a
  | .error e _ => .error e

section

variable [UrlReader] {args : List BindArg} {s : Scope}

/-- A strict schema is left as it is, and bound to. -/
theorem declareAndBind_of_strict (h : s.schema.strict = true) :
    (declareAndBind args).after s = s ∧ (declareAndBind args).result s = s.schema.bind args := by
  rw [after, result, declareAndBind, get_bind, if_pos h]
  simp only [get_bind]
  cases s.schema.bind args <;> exact ⟨rfl, rfl⟩

/-- Any other schema is bound to when all names are declared. -/
theorem declareAndBind_of_declared (h : s.schema.strict = false) {t : Scope}
    (hrun : bindings args s = .ok () t) :
    (declareAndBind args).after s = t ∧ (declareAndBind args).result s = t.schema.bind args := by
  rw [after, result, declareAndBind, get_bind, if_neg (by simp [h]), bind_of_ok hrun]
  simp only [get_bind]
  cases t.schema.bind args <;> exact ⟨rfl, rfl⟩

/-- Nothing is bound if names cannot be declared. -/
theorem declareAndBind_of_error (h : s.schema.strict = false) {e : Abort} {t : Scope}
    (hrun : bindings args s = .error e t) :
    (declareAndBind args).after s = t ∧ (declareAndBind args).result s = .error e := by
  rw [after, result, declareAndBind, get_bind, if_neg (by simp [h]), bind_of_error hrun]
  exact ⟨rfl, rfl⟩

end

end Declaring

/-- Arguments for a schema are refused for a handle, and there is one in them that does not belong
to the schema that it is used with. -/
def Schema.RefusesHandle (s : Schema) (args : List BindArg) (r : Except Abort ValueSet) : Prop :=
  (∃ name, r = .error (.ofCause (.bind (.foreignSubsection name)))) ∧
    ∃ arg ∈ args, arg.HasForeign (some s)

/-- **Strictness is honoured at every level** when arguments are bound to a schema that can be
declared on, with a later schema and a result in the end: no schema that was strict has got a name;
if the first argument that is refused is so for a name that a strict schema does not have, that is
the result; and no name is ignored, unless handles are refused. -/
structure Schema.HonoursStrictness [UrlReader] (s : Schema) (args : List BindArg) (f : Schema)
    (r : Except Abort ValueSet) : Prop where
  kept : ∀ c ∈ s.family, c.strict = true →
    c.id ∈ f.ids ∧ ∀ d ∈ f.family, d.id = c.id → c.SameNames d
  undefined : ∀ {failure : Failure} {kind : SlotKind} {name : String},
    Binding.FirstRefused s args failure → failure.cause = .bind (.undefined kind name) →
      r = .error (.failure failure)
  declared : s.RefusesHandle args r ∨ ∀ arg ∈ args, arg.Agrees true f

namespace Session

variable {σ : Session} {s : Schema} {args : List BindArg}

/-- The members of the family of a schema are told apart by their identities. -/
theorem Valid.eq_of_mem_family {next : ℕ} {vars : List Var} {tags : List Tag}
    (h : Valid ⟨[.draft s], next, vars, tags⟩) {c d : Schema} (hc : c ∈ s.family)
    (hd : d ∈ s.family) (hid : c.id = d.id) : c = d :=
  h.eq_of_id_eq (List.mem_append_left _ hc) (List.mem_append_left _ hd) hid

/-- Deriving a schema keeps the names of all strict ones if it spares them. -/
theorem Valid.kept (hσ : σ.Valid) (hs : s ∈ σ.schemas)
    (hnames : BindArg.AllEverywhere (fun arg => arg.name ≠ "") args)
    (hagrees : ∀ arg ∈ args, arg.Agrees false s) {t : Scope}
    (ht : (Declaring.bindings args).after ⟨s, σ.next⟩ = t) {c : Schema} (hc : c ∈ s.family)
    (hstrict : c.strict = true) :
    c.id ∈ t.schema.ids ∧ ∀ d ∈ t.schema.family, d.id = c.id → c.SameNames d := by
  have hwf := (hσ.inOrder_of_mem hs).wellFormed
  have hvalid := hσ.declared hs (Declaring.bindings_onlyDeclares args)
  obtain ⟨uses, hafter, hspared⟩ := (Declaring.bindings_derives args hnames).declares ⟨s, σ.next⟩
  rw [ht] at hvalid hafter
  have huses : s.WithUses uses t.schema :=
    hafter ▸ Scope.useAll_withUses (s := ⟨s, σ.next⟩) hwf uses
  have hext : s.Extends t.schema :=
    hafter ▸ (Scope.useAll_wellFormed (s := ⟨s, σ.next⟩) hwf uses).2
  obtain ⟨d, hd, hid, hsame⟩ := huses.exists_sameNames hwf hext
    (fun u hu => hspared u hu s hagrees) hc hstrict
  refine ⟨hid ▸ Schema.mem_ids_of_mem hd, fun other hother hother' => ?_⟩
  rwa [hvalid.eq_of_mem_family hother hd (hother'.trans hid.symm)]

variable [UrlReader]

/-- What is refused is so for the first argument that cannot be bound. -/
theorem bind_of_firstRefused (hs : s ∈ σ.schemas) (hdecided : ∀ arg ∈ args, Binding.Decided σ arg)
    {f : Failure} (hfirst : Binding.FirstRefused s args f) : s.bind args = .error (.failure f) := by
  rcases Binding.bind_cases hs hdecided with ⟨hall, -⟩ | ⟨g, hrefused, hbind⟩
  · exact absurd hall hfirst.not_all
  · rw [hbind, hrefused.unique hfirst]

/-- What becomes of arguments for a schema that is not strict. All names are declared, unless
handles are refused; so none is refused or ignored. -/
theorem Valid.declareAndBind_of_lax (hσ : σ.Valid) (hs : s ∈ σ.schemas)
    (hargs : BindArg.AllEverywhere σ.Gave args)
    (hnames : BindArg.AllEverywhere (fun arg => arg.name ≠ "") args) (hlax : s.strict = false) :
    (Declaring.declareAndBind args).after ⟨s, σ.next⟩ =
      (Declaring.bindings args).after ⟨s, σ.next⟩ ∧
    (s.RefusesHandle args ((Declaring.declareAndBind args).result ⟨s, σ.next⟩) ∨
      (∀ arg ∈ args, arg.Resolves ((Declaring.bindings args).after ⟨s, σ.next⟩).schema) ∧
        ((∃ vs, (Declaring.declareAndBind args).result ⟨s, σ.next⟩ = .ok vs) ∨
          ∃ name source steps, (Declaring.declareAndBind args).result ⟨s, σ.next⟩ =
            .error (.failure ⟨.bind (.trust name source), steps⟩))) := by
  have hwf := (hσ.inOrder_of_mem hs).wellFormed
  have hvalid := hσ.declared hs (Declaring.bindings_onlyDeclares args)
  cases hrun : Declaring.bindings args ⟨s, σ.next⟩ with
  | error e t =>
      obtain ⟨hafter, hresult⟩ := Declaring.declareAndBind_of_error (s := ⟨s, σ.next⟩) hlax hrun
      obtain ⟨⟨name, rfl⟩, hforeign⟩ := (Declaring.bindings_derives args hnames).fails hwf hrun
      have hleft : (Declaring.bindings args).after ⟨s, σ.next⟩ = t := by
        rw [Declaring.after, hrun]
      exact ⟨hafter.trans hleft.symm, .inl ⟨⟨name, hresult⟩, hforeign⟩⟩
  | ok _ t =>
      obtain ⟨hafter, hresult⟩ := Declaring.declareAndBind_of_declared (s := ⟨s, σ.next⟩) hlax hrun
      have hleft : (Declaring.bindings args).after ⟨s, σ.next⟩ = t := by
        rw [Declaring.after, hrun]
      rw [hleft] at hvalid ⊢
      obtain ⟨hwf', -, hlater⟩ := (Declaring.bindings_ensures args).ok hwf hrun
      have hresolves : ∀ arg ∈ args, arg.Resolves t.schema := hlater (.refl _) hwf'
      have hdecided := fun arg harg => (Binding.understood hvalid hargs arg harg).decided
      refine ⟨hafter, .inr ⟨hresolves, ?_⟩⟩
      rw [hresult]
      exact (bind_of_resolves (mem_schemas_of_draft ..) hresolves hdecided).1

/-- **The outermost strictness decides.** If the schema itself is strict, it is left as it is, with
everything in it, and the first argument that cannot be bound to it is refused. If it is not, all
names are declared, in strict schemas of rows as well, unless handles are refused; and if they are,
there are values, or a check does not pass. So strictness is honoured at every level if names that
are not declared are addressed in schemas only that are as strict as the schema itself, and, unless
handles are refused, only then. -/
theorem Reached.strictness_of_declareAndBind (hσ : σ.Reached) (hs : s ∈ σ.schemas)
    (hargs : BindArg.AllEverywhere σ.Gave args)
    (hnames : BindArg.AllEverywhere (fun arg => arg.name ≠ "") args) :
    let f := ((Declaring.declareAndBind args).after ⟨s, σ.next⟩).schema
    let r := (Declaring.declareAndBind args).result ⟨s, σ.next⟩
    (s.strict = true → f = s ∧
      ((∀ arg ∈ args, arg.Admissible s) ∧ (∃ vs, r = .ok vs) ∨
        ∃ failure, Binding.FirstRefused s args failure ∧ r = .error (.failure failure))) ∧
    (s.strict = false → s.RefusesHandle args r ∨
      (∀ arg ∈ args, arg.Resolves f) ∧ ((∃ vs, r = .ok vs) ∨
        ∃ name source steps, r = .error (.failure ⟨.bind (.trust name source), steps⟩))) ∧
    ((∀ arg ∈ args, arg.Agrees s.strict s) → s.HonoursStrictness args f r) ∧
    (s.HonoursStrictness args f r → s.RefusesHandle args r ∨
      ∀ arg ∈ args, arg.Agrees s.strict s) := by
  intro f r
  have hdecided := fun arg harg => (Binding.understood hσ.valid hargs arg harg).decided
  cases hstrict : s.strict with
  | true =>
      obtain ⟨hafter, hresult⟩ := @Declaring.declareAndBind_of_strict _ args ⟨s, σ.next⟩ hstrict
      have hf : f = s := congrArg Scope.schema hafter
      refine ⟨fun _ => ⟨hf, ?_⟩, Bool.noConfusion,
        fun hagrees => ⟨fun c hc _ => ?_, fun hfirst _ => ?_, ?_⟩, fun h => hf ▸ h.declared⟩
      · rw [show r = s.bind args from hresult]
        exact Binding.bind_cases hs hdecided
      · rw [hf]
        refine ⟨Schema.mem_ids_of_mem hc, fun d hd hid => ?_⟩
        rw [(hσ.valid.focus hs).eq_of_mem_family hd hc hid]
        exact ⟨rfl, rfl⟩
      · exact hresult.trans (bind_of_firstRefused hs hdecided hfirst)
      · rw [hf]
        exact .inr hagrees
  | false =>
      obtain ⟨hafter, hcases⟩ := hσ.valid.declareAndBind_of_lax hs hargs hnames hstrict
      rw [← hafter] at hcases
      refine ⟨Bool.noConfusion, fun _ => hcases,
        fun hagrees => ⟨fun c hc hstrict' => ?_, ?_, ?_⟩, fun h => ?_⟩
      · exact hσ.valid.kept hs hnames hagrees hafter.symm hc hstrict'
      · rintro failure kind name ⟨before, arg, after, hsplit, -, hrefused⟩ hcause
        have harg : arg ∈ args := hsplit ▸ List.mem_append_right _ List.mem_cons_self
        exact absurd hcause (hrefused.cause_ne_undefined (hagrees arg harg) kind name)
      · exact hcases.imp_right fun h arg harg => (h.1 arg harg).agrees true
      · have hproper := hσ.valid.proper_of_mem hs
        have hgrows := (Declaring.bindings_onlyDeclares args).grows hproper
        rw [← hafter] at hgrows
        refine hcases.imp_right fun hdeclared arg harg => ?_
        refine (hdeclared.1 arg harg).agrees_of_kept hproper.inOrder.wellFormed
          hgrows.proper.inOrder.wellFormed hgrows.grown fun c hc hstrict' => ?_
        exact (h.kept c hc hstrict').2

end Session

/-- `directory`, which is not strict now, with links that are. -/
def openDirectory : Schema :=
  ⟨⟨1⟩, false, none, [captionVar], [(linksTag, linkRow.setStrict true)]⟩

/-- A subtitle, which `openDirectory` does not have, and a link with a label, which it has. -/
def labelArgs : List BindArg := [
  .scalar (.name "subtitle") (.untrusted "c < d") .textSafe,
  .rows (.handle linksTag) [[.scalar (.name "label") (.untrusted "home") .untrusted]]]

/-- A link with a target, which neither `directory` nor `openDirectory` has. -/
def targetArgs : List BindArg := [
  .rows (.name "links") [[.scalar (.name "target") (.untrusted "/") .untrusted]]]

namespace Session

/-- A session with `openDirectory`. -/
def withOpenDirectory : Session := ⟨[.draft openDirectory], 3, [captionVar], [linksTag]⟩

/-- `openDirectory` can be made. -/
theorem reached_withOpenDirectory : withOpenDirectory.Reached := by
  have hopen : Reached ⟨[.draft (directory.setStrict false)], 3, [captionVar], [linksTag]⟩ :=
    reached_withDirectory.call (.setStrict false) nofun rfl
  exact hopen.call (.inChild linksTag (.setStrict true)) (by decide) rfl

/-- Strictness is honoured when `labelArgs` are bound to `openDirectory`: the schema of links stays
as it is, and there is a subtitle. -/
theorem strictness_of_openDirectory :
    let run := Declaring.declareAndBind labelArgs
    openDirectory.HonoursStrictness labelArgs (run.after ⟨openDirectory, 3⟩).schema
      (run.result ⟨openDirectory, 3⟩) ∧
    (run.after ⟨openDirectory, 3⟩).schema.scalars.map (·.name.text) = ["caption", "subtitle"] ∧
    (run.result ⟨openDirectory, 3⟩).toOption.isSome := by
  intro run
  have hgave : BindArg.AllEverywhere withOpenDirectory.Gave labelArgs := by
    simp [labelArgs, BindArg.AllEverywhere, BindArg.Everywhere, BindArg.RowsEverywhere, Gave,
      withOpenDirectory]
  have hnames : BindArg.AllEverywhere (fun arg => arg.name ≠ "") labelArgs := by
    simp [labelArgs, BindArg.AllEverywhere, BindArg.Everywhere, BindArg.RowsEverywhere,
      BindArg.name, linksTag]
  have hmem : openDirectory ∈ withOpenDirectory.schemas := List.mem_cons_self
  have hagrees : ∀ arg ∈ labelArgs, arg.Agrees openDirectory.strict openDirectory := by
    intro arg harg
    rcases List.mem_pair.mp harg with rfl | rfl
    · exact .scalar (.inl rfl)
    · refine .rows (.inl rfl) fun child hchild row hrow other hother => ?_
      obtain rfl := List.mem_singleton.mp hrow
      obtain rfl := List.mem_singleton.mp hother
      obtain rfl : linkRow.setStrict true = child := Option.some.inj hchild
      exact .scalar (.inr ⟨labelVar, rfl⟩)
  refine ⟨?_, by decide +kernel, by decide +kernel⟩
  exact (reached_withOpenDirectory.strictness_of_declareAndBind hmem hgave hnames).2.2.1 hagrees

/-- **Strictness is not honoured at every level.** The strict schema of the links of `openDirectory`
gets a target; the target for a link of `directory`, which is strict, is ignored, although the
schema of the links is not strict. -/
theorem not_honoursStrictness :
    let run := Declaring.declareAndBind targetArgs
    BindArg.AllEverywhere (fun arg => arg.name ≠ "") targetArgs ∧
    ¬ openDirectory.HonoursStrictness targetArgs (run.after ⟨openDirectory, 3⟩).schema
      (run.result ⟨openDirectory, 3⟩) ∧
    ¬ directory.HonoursStrictness targetArgs (run.after ⟨directory, 3⟩).schema
      (run.result ⟨directory, 3⟩) := by
  intro run
  refine ⟨?_, fun h => ?_, fun h => ?_⟩
  · simp [targetArgs, BindArg.AllEverywhere, BindArg.Everywhere, BindArg.RowsEverywhere,
      BindArg.name]
  · have hgrown : ∃ d ∈ (run.after ⟨openDirectory, 3⟩).schema.family, d.id = linkRow.id ∧
        d.scalars.length = 2 := by
      have hrun : Declaring.bindings targetArgs ⟨openDirectory, 3⟩ =
        .ok () ((Declaring.bindings targetArgs).after ⟨openDirectory, 3⟩) := rfl
      rw [(Declaring.declareAndBind_of_declared (s := ⟨openDirectory, 3⟩) rfl hrun).1]
      exact ⟨_, List.mem_cons_of_mem _ List.mem_cons_self, rfl, rfl⟩
    obtain ⟨d, hd, hid, hlength⟩ := hgrown
    have hrow : linkRow.setStrict true ∈ openDirectory.family :=
      List.mem_cons_of_mem _ List.mem_cons_self
    have hnames := ((h.kept _ hrow rfl).2 d hd hid).scalars
    have hsame := congrArg List.length hnames
    rw [List.length_map, hlength] at hsame
    cases hsame
  · obtain ⟨hafter, hresult⟩ :=
      @Declaring.declareAndBind_of_strict _ targetArgs ⟨directory, 3⟩ rfl
    rw [hafter, hresult] at h
    have hbound : (directory.bind targetArgs).toOption.isSome := by decide +kernel
    rcases h.declared with ⟨⟨name, herror⟩, -⟩ | hagrees
    · rw [herror] at hbound
      cases hbound
    · cases hagrees _ List.mem_cons_self with
      | rows _ hgiven =>
          cases hgiven linkRow rfl _ List.mem_cons_self _ List.mem_cons_self with
          | scalar hdeclared =>
              have hnone : linkRow.scalar? "target" = none := rfl
              rw [BindArg.name, hnone] at hdeclared
              simp [linkRow] at hdeclared

end Session

end TrustedHtml
