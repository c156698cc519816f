import TrustedHtml.Proofs.DecimalLayouts
import TrustedHtml.Proofs.Documents

/-!
# Documents as Values

A schema that is derived from a document has a place for everything in it, and the places ask for
nothing. So the document is bound to that schema whatever its level is, and it can be read back from
the values: texts under the names of their members, and rows in the order of their objects, each of
which reads back as its object. The text of a number is what the writer of numbers makes of it; if
the writer is faithful, it says which number it is.

The rows of a subsection share one schema, which gathers the names of all their objects. What one
object does not have, its row does not have either, although there is a place for it.

## Main definitions

* `Json.Keyed`: the names in every object are keys.
* `Json.withoutNulls`: a document without the members that are null.
* `Json.HasText`: the text of a string, a number or a truth value.
* `Schema.AsksAtMost`: a schema requires no higher level of any variable in it.
* `ValueSet.ReadsBack`: values read back as an object.

## Main results

* `Declaring.bindings_asksAtMost`: a schema requires what it is derived from.
* `Json.withoutNulls_bindArgs`: **members that are null contribute nothing.**
* `ValueSet.Means.reads`: what arguments for an object mean reads back as it.
* `Json.reads_back`: **a document is refused, or it can be read back.**
-/

namespace TrustedHtml

/-! ### What a derived schema requires -/

/-- A declaration requires no level above a bound, at any depth. -/
def Use.AsksAtMost (bound : TrustLevel) (u : Use) : Prop :=
  ∀ name path, u.levelAt name path ≤ bound

/-- An argument requires no level above a bound of its variable. -/
def BindArg.AsksAtMost (bound : TrustLevel) : BindArg → Prop
  | .scalar (.handle v) _ level => v.level ⊔ level ≤ bound
  | .scalar (.name _) _ level => level ≤ bound
  | .rows .. => True

/-- **A schema requires no level above a bound** of any variable, at any depth. -/
def Schema.AsksAtMost (bound : TrustLevel) (s : Schema) : Prop :=
  ∀ name path, s.levelAt name path ≤ bound

section

variable {bound : TrustLevel}

/-- Declarations require together what all of them require. -/
theorem Use.levelAtAll_le {uses : List Use} (h : ∀ u ∈ uses, u.AsksAtMost bound) (name : String)
    (path : List String) : levelAtAll name path uses ≤ bound := by
  induction uses with
  | nil => exact bot_le
  | cons u rest ih =>
      rw [levelAtAll]
      rw [List.forall_mem_cons] at h
      exact sup_le (h.1 name path) (ih h.2)

/-- A declaration of a variable requires its level. -/
theorem Use.asksAtMost_scalar {level : TrustLevel} (h : level ≤ bound) (slot : SlotName) :
    (Use.scalar slot level).AsksAtMost bound := by
  intro name path
  cases path with
  | cons sub path => exact bot_le
  | nil =>
      rw [levelAt]
      split_ifs
      · exact WithBot.coe_le_coe.mpr h
      · exact bot_le

/-- A declaration of a subsection requires what is required in it. -/
theorem Use.asksAtMost_subsection {uses : List Use} (h : ∀ u ∈ uses, u.AsksAtMost bound)
    (slot : SlotName) : (Use.subsection slot uses).AsksAtMost bound := by
  intro name path
  cases path with
  | nil => exact bot_le
  | cons sub path =>
      rw [levelAt]
      split_ifs
      · exact levelAtAll_le h name path
      · exact bot_le

namespace Schema

variable {s : Schema}

/-- What is required of a variable of a schema. -/
theorem AsksAtMost.level_le (h : s.AsksAtMost bound) (hwf : s.WellFormed) {slot : Var}
    (hslot : slot ∈ s.scalars) : slot.level ≤ bound := by
  have hfind := hwf.coherent.scalar?_eq_some_iff.mpr ⟨(hwf.coherent.var_of_mem hslot).1, rfl⟩
  have hlevel : s.levelOf slot.name.text = slot.level := levelOf_eq_coe_iff.mpr ⟨slot, hfind, rfl⟩
  exact WithBot.coe_le_coe.mp (hlevel ▸ h slot.name.text [])

/-- What is required of rows. -/
theorem AsksAtMost.rows (h : s.AsksAtMost bound) {child : Schema} {name : String}
    (hrows : s.rows? name = some child) : child.AsksAtMost bound := by
  intro slot path
  rw [← levelAt_cons hrows]
  exact h slot (name :: path)

end Schema

namespace Declaring

variable {act : Declaring Unit}

/-- Work on the schema of the rows of a subsection. -/
theorem inSubsection_asksAtMost (h : act.DeclaresOnly (Use.AsksAtMost bound)) (name : SlotName) :
    (inSubsection name act).DeclaresOnly (Use.AsksAtMost bound) :=
  (h.inSubsection name).mono fun _ ⟨_, hu, huses⟩ => hu ▸ Use.asksAtMost_subsection huses name

/-- Declaring a variable. -/
theorem scalar_asksAtMost {level : TrustLevel} (h : level ≤ bound) (name : SlotName) :
    (Functor.discard (scalar name level)).DeclaresOnly (Use.AsksAtMost bound) :=
  DeclaresOnly.discard fun _ =>
    ⟨[.scalar name level], rfl, List.forall_mem_singleton.mpr (Use.asksAtMost_scalar h name)⟩

mutual

/-- Declaring what an argument uses requires what it requires. -/
theorem binding_asksAtMost : ∀ arg : BindArg, arg.Everywhere (BindArg.AsksAtMost bound) →
    (binding arg).DeclaresOnly (Use.AsksAtMost bound)
  | .scalar (.handle v) _ level, h => scalar_asksAtMost h v.name
  | .scalar (.name n) _ level, h => by
      refine DeclaresOnly.bind ?_ fun _ => scalar_asksAtMost h _
      rw [varName]
      split
      · exact .pure _
      · exact .throw _
  | .rows key given, h => (keyTagName_declaresOnly key).bind fun _ =>
      (inSubsection_asksAtMost (bindingRows_asksAtMost given h.2) _).discard

/-- Declaring what rows use. -/
theorem bindingRows_asksAtMost : ∀ given : List (List BindArg),
    BindArg.RowsEverywhere (BindArg.AsksAtMost bound) given →
      (bindingRows given).DeclaresOnly (Use.AsksAtMost bound)
  | [], _ => .pure ()
  | row :: rest, h => (bindings_asksAtMost row h.1).bind fun _ => bindingRows_asksAtMost rest h.2

/-- **A schema requires what it is derived from.** -/
theorem bindings_asksAtMost : ∀ args : List BindArg,
    BindArg.AllEverywhere (BindArg.AsksAtMost bound) args →
      (bindings args).DeclaresOnly (Use.AsksAtMost bound)
  | [], _ => .pure ()
  | arg :: rest, h => (binding_asksAtMost arg h.1).bind fun _ => bindings_asksAtMost rest h.2

end

/-- A new schema on which only low levels are declared requires no other ones. -/
theorem DeclaresOnly.asksAtMost (h : act.DeclaresOnly (Use.AsksAtMost bound)) (next : ℕ) :
    (act.after (.newRoot next)).schema.AsksAtMost bound := by
  intro name path
  obtain ⟨uses, hafter, huses⟩ := h (.newRoot next)
  have hempty := Schema.levelAt_of_empty (s := (Scope.newRoot next).schema) rfl rfl name path
  rw [hafter, Scope.levelAt_useAll (Scope.newRoot_proper next).inOrder.wellFormed, hempty,
    bot_sup_eq]
  exact Use.levelAtAll_le huses name path

end Declaring

end

namespace Json

/-! ### Members that are null -/

mutual

/-- A document without the members that are null, at every level. -/
def withoutNulls : Json → Json
  | object members => object (membersWithoutNulls members)
  | array items => array (itemsWithoutNulls items)
  | other => other

/-- Members without those that are null. -/
def membersWithoutNulls : List (String × Json) → List (String × Json)
  | [] => []
  | (_, null) :: rest => membersWithoutNulls rest
  | (name, value) :: rest => (name, withoutNulls value) :: membersWithoutNulls rest

/-- Items in which no members are null. Items that are null stay. -/
def itemsWithoutNulls : List Json → List Json
  | [] => []
  | item :: rest => withoutNulls item :: itemsWithoutNulls rest

end

section

variable [NumberWriter]

mutual

/-- The argument for a value does not depend on members that are null. -/
theorem memberArg_withoutNulls (level : TrustLevel) (path name : String) : ∀ value : Json,
    memberArg level path name value.withoutNulls = memberArg level path name value
  | null | string _ | number _ | bool _ => rfl
  | object members => by
      rw [withoutNulls, memberArg, memberArg, memberArgs_withoutNulls level path members]
  | array items => by
      rw [withoutNulls, memberArg, memberArg, itemArgs_withoutNulls level path 0 items]

/-- The arguments for an object do not. -/
theorem memberArgs_withoutNulls (level : TrustLevel) (path : String) :
    ∀ members : List (String × Json),
      memberArgs level path (membersWithoutNulls members) = memberArgs level path members
  | [] => rfl
  | (name, null) :: rest => by
      rw [membersWithoutNulls, memberArgs_withoutNulls level path rest, memberArgs, memberArg]
      cases memberArgs level path rest <;> rfl
  | (name, string _) :: rest | (name, number _) :: rest | (name, bool _) :: rest
  | (name, object _) :: rest | (name, array _) :: rest => by
      rw [membersWithoutNulls, memberArgs, memberArgs, memberArg_withoutNulls level _ name,
        memberArgs_withoutNulls level path rest]
      rintro ⟨⟩

/-- The arguments for rows do not. -/
theorem itemArgs_withoutNulls (level : TrustLevel) (path : String) :
    ∀ (index : ℕ) (items : List Json),
      itemArgs level path index (itemsWithoutNulls items) = itemArgs level path index items
  | _, [] => rfl
  | index, object members :: rest => by
      rw [itemsWithoutNulls, withoutNulls, itemArgs, itemArgs,
        memberArgs_withoutNulls level _ members, itemArgs_withoutNulls level path (index + 1) rest]
  | _, null :: _ | _, bool _ :: _ | _, number _ :: _ | _, string _ :: _ | _, array _ :: _ => rfl

end

/-- **Members that are null contribute nothing**, neither arguments nor failures. -/
theorem withoutNulls_bindArgs (level : TrustLevel) (document : Json) :
    document.withoutNulls.bindArgs level = document.bindArgs level := by
  cases document with
  | object members => exact memberArgs_withoutNulls level "" members
  | null | bool _ | number _ | string _ | array _ => rfl

end

/-! ### Keys -/

/-- **The names in a document are keys**: none in an object is empty or occurs twice. -/
def Keyed (document : Json) : Prop :=
  ∀ members ∈ document.objects,
    (∀ member ∈ members, member.1 ≠ "") ∧ (members.map (·.1)).Nodup

instance : DecidablePred Keyed := fun document =>
  inferInstanceAs (Decidable (∀ members ∈ document.objects,
    (∀ member ∈ members, member.1 ≠ "") ∧ (members.map (·.1)).Nodup))

/-- The text that is bound for a string, a number or a truth value. -/
def text? [NumberWriter] : Json → Option String
  | string s => some s
  | number n => some (NumberWriter.text n)
  | bool b => some (boolText b)
  | _ => none

/-- **The text of a value**: a string is its own text, and a truth value has a fixed one. For a
number it is any text that says which number it is. -/
inductive HasText : Json → String → Prop
  | string (s : String) : HasText (string s) s
  | true : HasText (bool true) "true"
  | false : HasText (bool false) "false"
  | number {n : Number} {text : String} (h : n.Proper → n.IsText text) : HasText (number n) text

/-- What a faithful writer lets be bound is the text of the value. -/
theorem hasText_of_text? [writer : NumberWriter] (hwriter : writer.Faithful) {value : Json}
    {text : String} (h : value.text? = some text) : value.HasText text := by
  cases value with
  | null | array _ | object _ => cases h
  | string s =>
      cases h
      exact .string _
  | number n =>
      cases h
      exact .number (hwriter n)
  | bool b =>
      cases h
      cases b with
      | true => exact .true
      | false => exact .false

/-- What a value gives rows for: the items of a list, and an object itself. -/
def items? : Json → Option (List Json)
  | object members => some [object members]
  | array items => some items
  | _ => none

section

variable {members : List (String × Json)} {items : List Json} {name : String} {value item : Json}

/-- The objects in members are those in their values. -/
theorem memberObjects_eq_flatMap (members : List (String × Json)) :
    memberObjects members = members.flatMap (·.2.objects) := by
  induction members with
  | nil => rfl
  | cons member rest ih => rw [memberObjects, ih, List.flatMap_cons]

/-- The objects in a list are those in its items. -/
theorem itemObjects_eq_flatMap : ∀ items : List Json, itemObjects items = items.flatMap objects
  | [] => rfl
  | item :: rest => by rw [itemObjects, itemObjects_eq_flatMap rest, List.flatMap_cons]

/-- The names in an item of a member are keys. -/
theorem Keyed.of_item (h : (object members).Keyed) (hmem : (name, value) ∈ members)
    (hitems : value.items? = some items) (hitem : item ∈ items) : item.Keyed := by
  have hvalue : value.Keyed := fun found hfound => h found <| List.mem_cons_of_mem _ <| by
    rw [memberObjects_eq_flatMap]
    exact List.mem_flatMap.mpr ⟨_, hmem, hfound⟩
  cases value with
  | null | bool _ | number _ | string _ => cases hitems
  | object inner =>
      cases hitems
      rw [List.mem_singleton.mp hitem]
      exact hvalue
  | array items =>
      cases hitems
      refine fun found hfound => hvalue found ?_
      rw [objects, itemObjects_eq_flatMap]
      exact List.mem_flatMap.mpr ⟨_, hitem, hfound⟩

/-- The items of a list are among those that are found in it, and so are those in them. -/
theorem exists_subset_itemListItems (path : String) : ∀ (index : ℕ) (items : List Json),
    item ∈ items → ∃ place, (place, item) :: listItems place item ⊆ itemListItems path index items
  | index, other :: rest, hitem => by
      rw [itemListItems]
      rcases List.mem_cons.mp hitem with rfl | hitem
      · exact ⟨_, List.cons_subset_cons _ (List.subset_append_left _ _)⟩
      · obtain ⟨place, hsub⟩ := exists_subset_itemListItems path (index + 1) rest hitem
        exact ⟨place, fun found hfound =>
          List.mem_cons_of_mem _ (List.mem_append_right _ (hsub hfound))⟩

/-- The items in a member are among those in all members. -/
theorem exists_subset_memberListItems (path : String) : ∀ {members : List (String × Json)},
    (name, value) ∈ members → ∃ place, listItems place value ⊆ memberListItems path members
  | (other, old) :: rest, hmem => by
      rw [memberListItems]
      rcases List.mem_cons.mp hmem with heq | hmem
      · cases heq
        exact ⟨_, List.subset_append_left _ _⟩
      · obtain ⟨place, hsub⟩ := exists_subset_memberListItems path hmem
        exact ⟨place, fun found hfound => List.mem_append_right _ (hsub hfound)⟩

/-- All items of lists in an object are objects. -/
def Fits (members : List (String × Json)) : Prop :=
  ∃ path, ∀ item ∈ memberListItems path members, item.2.object?.isSome

/-- The items of a member are objects of which the same is true. -/
theorem Fits.of_item (h : Fits members) (hmem : (name, value) ∈ members)
    (hitems : value.items? = some items) (hitem : item ∈ items) :
    ∃ inner, item = object inner ∧ Fits inner := by
  obtain ⟨path, hall⟩ := h
  obtain ⟨place, hsub⟩ := exists_subset_memberListItems path hmem
  cases value with
  | null | bool _ | number _ | string _ => cases hitems
  | object inner =>
      cases hitems
      exact ⟨inner, List.mem_singleton.mp hitem, place,
        fun found hfound => hall found (hsub hfound)⟩
  | array items =>
      cases hitems
      obtain ⟨itemPlace, hinside⟩ := exists_subset_itemListItems place 0 items hitem
      have hfound := List.Subset.trans hinside hsub
      have hobject := hall _ (hfound List.mem_cons_self)
      cases item with
      | null | bool _ | number _ | string _ | array _ => cases hobject
      | object inner =>
          exact ⟨inner, rfl, itemPlace, fun found hmem =>
            hall found (hfound (List.mem_cons_of_mem _ hmem))⟩

/-! ### What an object gives for a name -/

/-- What the members of one name give if the name is a key. -/
theorem filterMap_of_key {α : Type} (f : Json → Option α) {members : List (String × Json)}
    (hkeys : (members.map (·.1)).Nodup) (hmem : (name, value) ∈ members) :
    (members.filterMap fun member => if member.1 = name then f member.2 else none) =
      (f value).toList := by
  induction members with
  | nil => cases hmem
  | cons member rest ih =>
      rw [List.map_cons, List.nodup_cons] at hkeys
      rw [List.filterMap_cons]
      rcases List.mem_cons.mp hmem with rfl | hmem
      · have hrest : (rest.filterMap fun member =>
            if member.1 = name then f member.2 else none) = [] := by
          refine List.filterMap_eq_nil_iff.mpr fun other hother => if_neg fun hname => hkeys.1 ?_
          exact List.mem_map.mpr ⟨other, hother, hname⟩
        rw [if_pos rfl, hrest]
        cases f value <;> rfl
      · have hname : member.1 ≠ name := fun hname =>
          hkeys.1 (List.mem_map.mpr ⟨_, hmem, hname.symm⟩)
        rw [if_neg hname]
        exact ih hkeys.2 hmem

variable [NumberWriter] {level : TrustLevel}

/-- The arguments for an object, one for each member that is not null. -/
theorem argsOf_eq_filterMap (members : List (String × Json)) :
    argsOf level members = members.filterMap fun member => argOf? level member.1 member.2 := by
  induction members with
  | nil => rfl
  | cons member rest ih =>
      rw [argsOf, ih, List.filterMap_cons]
      cases argOf? level member.1 member.2 <;> rfl

/-- The argument for a member is among those for its object. -/
theorem mem_argsOf {arg : BindArg} (hmem : (name, value) ∈ members)
    (harg : argOf? level name value = some arg) : arg ∈ argsOf level members := by
  rw [argsOf_eq_filterMap]
  exact List.mem_filterMap.mpr ⟨_, hmem, harg⟩

/-- The argument for a member that has a text. -/
theorem argOf?_of_text? {text : String} (h : value.text? = some text) (name : String) :
    argOf? level name value = some (.scalar (.name name) ⟨level, text⟩ .untrusted) := by
  cases value <;> cases h <;> rfl

/-- The argument for a member that gives rows. -/
theorem argOf?_of_items? (h : value.items? = some items) (name : String) :
    argOf? level name value = some (.rows (.name name) (rowsOf level items)) := by
  cases value <;> cases h <;> rfl

/-- What a member gives for the name of a variable. -/
theorem stringFor?_argOf? (name other : String) (value : Json) :
    (argOf? level name value).bind (·.stringFor? other) =
      if name = other then value.text?.map fun text => (⟨level, text⟩, .untrusted) else none := by
  cases value with
  | null | array _ | object _ => exact (ite_self _).symm
  | string _ | number _ | bool _ => rfl

/-- What a member gives for the name of a subsection. -/
theorem seriesFor?_argOf? (name other : String) (value : Json) :
    (argOf? level name value).bind (·.seriesFor? other) =
      if name = other then value.items?.map (rowsOf level) else none := by
  cases value with
  | null | string _ | number _ | bool _ => exact (ite_self _).symm
  | array _ | object _ => rfl

/-- The last string for a key is the text of its member. -/
theorem lastString?_argsOf (hkeys : (members.map (·.1)).Nodup) (hmem : (name, value) ∈ members) :
    Binding.lastString? name (argsOf level members) =
      value.text?.map fun text => (⟨level, text⟩, .untrusted) := by
  rw [Binding.lastString?, argsOf_eq_filterMap, List.filterMap_filterMap]
  simp only [stringFor?_argOf?]
  rw [filterMap_of_key (fun value => value.text?.map fun text =>
    (SafeString.mk level text, TrustLevel.untrusted)) hkeys hmem]
  cases value.text? <;> rfl

/-- The last rows for a key are those of its member. -/
theorem lastSeries_argsOf (hkeys : (members.map (·.1)).Nodup) (hmem : (name, value) ∈ members) :
    Binding.lastSeries name (argsOf level members) = (value.items?.map (rowsOf level)).getD [] := by
  rw [Binding.lastSeries, argsOf_eq_filterMap, List.filterMap_filterMap]
  simp only [seriesFor?_argOf?]
  rw [filterMap_of_key (fun value => value.items?.map (rowsOf level)) hkeys hmem]
  cases value.items? <;> rfl

/-- There is no string for a name that no member with a text has. -/
theorem lastString?_eq_none (h : ∀ value, (name, value) ∈ members → value.text? = none) :
    Binding.lastString? name (argsOf level members) = none := by
  rw [Binding.lastString?, argsOf_eq_filterMap, List.filterMap_filterMap, List.getLast?_eq_none_iff,
    List.filterMap_eq_nil_iff]
  intro member hmem
  rw [stringFor?_argOf?]
  split_ifs with hname
  · rw [h member.2 (hname ▸ hmem), Option.map_none]
  · rfl

/-- There are no rows for a name that no member with rows has. -/
theorem lastSeries_eq_nil (h : ∀ value, (name, value) ∈ members → value.items? = none) :
    Binding.lastSeries name (argsOf level members) = [] := by
  have hnone : (members.filterMap fun member =>
      (argOf? level member.1 member.2).bind (·.seriesFor? name)) = [] := by
    refine List.filterMap_eq_nil_iff.mpr fun member hmem => ?_
    rw [seriesFor?_argOf?]
    split_ifs with hname
    · rw [h member.2 (hname ▸ hmem), Option.map_none]
    · rfl
  rw [Binding.lastSeries, argsOf_eq_filterMap, List.filterMap_filterMap, hnone]
  rfl

/-- Rows are given for every item, in their order, if all of them are objects. -/
theorem rowsOf_eq_map : ∀ {items : List Json}, (∀ item ∈ items, ∃ inner, item = object inner) →
    rowsOf level items = items.map fun item => argsOf level (item.object?.getD [])
  | [], _ => rfl
  | item :: rest, h => by
      rw [List.forall_mem_cons] at h
      obtain ⟨⟨inner, rfl⟩, hrest⟩ := h
      rw [rowsOf, rowsOf_eq_map hrest]
      rfl

end

end Json

/-! ### Reading a document back -/

section

variable [writer : Json.NumberWriter]

/-- **Values read back as an object**: every text is read under the name of its member; a list is a
subsection with a row for each item, and an object is one with a single row, and every row reads
back as its object. What the object does not have is empty, or has no rows. -/
inductive ValueSet.ReadsBack : List (String × Json) → ValueSet → Prop
  | intro {members : List (String × Json)} {vs : ValueSet}
      (texts : ∀ {name value text}, (name, value) ∈ members → value.text? = some text →
        value.HasText text ∧
          ∃ slot, vs.schema.scalar? name = some slot ∧ vs.getScalar slot = .ok text)
      (series : ∀ {name value items}, (name, value) ∈ members → value.items? = some items →
        ∃ t rows, vs.schema.subsection? name = some t ∧ vs.getStream t = .ok (.ofRows rows) ∧
          rows.length = items.length)
      (rows : ∀ {name value items t rows}, (name, value) ∈ members → value.items? = some items →
        vs.schema.subsection? name = some t → vs.getStream t = .ok (.ofRows rows) →
          ∀ (i : ℕ) (row : ValueSet) (inner : List (String × Json)), rows[i]? = some row →
            items[i]? = some (.object inner) → ReadsBack inner row)
      (unset : ∀ slot ∈ vs.schema.scalars,
        (∀ value, (slot.name.text, value) ∈ members → value.text? = none) →
          vs.getScalar slot = .ok "")
      (noRows : ∀ sub ∈ vs.schema.subsections,
        (∀ value, (sub.1.name.text, value) ∈ members → value.items? = none) →
          vs.getStream sub.1 = .ok .empty) :
      ReadsBack members vs

/-- A member that gives rows has its own subsection, in which everything in the rows is declared. -/
theorem Json.exists_subsection {level : TrustLevel} {members : List (String × Json)} {name : String}
    {value : Json} {items : List Json} {s : Schema} (hwf : s.WellFormed)
    (hresolves : ∀ arg ∈ argsOf level members, arg.Resolves s) (hmem : (name, value) ∈ members)
    (hitems : value.items? = some items) :
    ∃ sub ∈ s.subsections, sub.1.name.text = name ∧ s.subsection? name = some sub.1 ∧
      s.rows? name = some sub.2 ∧ ∀ row ∈ rowsOf level items, ∀ arg ∈ row, arg.Resolves sub.2 := by
  cases hresolves _ (mem_argsOf hmem (argOf?_of_items? hitems name)) with
  | rows _ hrows hgiven =>
      obtain ⟨sub, hsub, hname, rfl⟩ := Schema.exists_mem_of_rows?_eq hrows
      have hfind := hwf.subsection?_eq (hwf.coherent.tag_of_mem hsub).1
      rw [hname] at hfind
      exact ⟨sub, hsub, hname, hfind, hrows, hgiven⟩

/-- The arguments for a document require nothing of their variables. -/
theorem Json.asksNothing_of_bindArgs {document : Json} {level : TrustLevel} {args : List BindArg}
    (h : document.bindArgs level = .ok args) :
    BindArg.AllEverywhere (BindArg.AsksAtMost .untrusted) args := by
  obtain ⟨members, -, rfl, hfits⟩ := exists_of_bindArgs h
  have hsaid : SaidOfNames level (BindArg.AsksAtMost .untrusted) fun _ => True :=
    ⟨fun _ _ => iff_of_true (le_refl TrustLevel.untrusted) trivial, fun _ _ => Iff.rfl⟩
  exact (allEverywhere_argsOf_iff hsaid "" members hfits).mpr fun _ _ _ _ _ => trivial

end

/-- No member of an object in which names are keys is without a name. -/
theorem Json.Keyed.not_hasEmptyName {document : Json} (h : document.Keyed) :
    ¬ document.HasEmptyName := by
  rintro ⟨members, hmembers, member, hmember, hempty, -⟩
  exact (h members hmembers).1 member hmember hempty

section

variable [UrlReader]

/-- Arguments that require nothing pass their checks where nothing is required. -/
theorem BindArg.passes_of_asksNothing {args : List BindArg}
    (h : AllEverywhere (AsksAtMost .untrusted) args) {s : Schema} (hwf : s.WellFormed)
    (hs : s.AsksAtMost .untrusted) : ∀ arg ∈ args, arg.Passes s := by
  have hind : Inductive (AsksAtMost .untrusted) fun arg =>
      ∀ s : Schema, s.WellFormed → s.AsksAtMost .untrusted → arg.Passes s := by
    refine ⟨fun key value level hasks s hwf hs => .scalar fun slot hslot => ?_,
      fun key given _ hgiven s hwf hs => .rows fun child hrows row hrow arg harg => ?_⟩
    · have hlevel : slot.level ⊔ level ≤ .untrusted := by
        refine sup_le (hs.level_le hwf (List.mem_of_find?_eq_some hslot)) ?_
        cases key with
        | name n => exact hasks
        | handle v => exact le_sup_right.trans hasks
      rw [TrustLevel.eq_untrusted_of_le hlevel]
      exact ⟨value.text, SafeString.check_untrusted value⟩
    · obtain ⟨sub, hsub, -, rfl⟩ := Schema.exists_mem_of_rows?_eq hrows
      exact hgiven row hrow arg harg sub.2 (hwf.child hsub) (hs.rows hrows)
  exact fun arg harg => hind.holds_all args h arg harg s hwf hs

/-- **What arguments for an object mean reads back as the object**, where all its names are declared
and nothing is required. -/
theorem ValueSet.Means.reads [writer : Json.NumberWriter] (hwriter : writer.Faithful)
    {level : TrustLevel} {s : Schema} {args : List BindArg} {vs : ValueSet}
    (h : vs.Means s args) : ∀ {members : List (String × Json)}, args = Json.argsOf level members →
      (Json.object members).Keyed → Json.Fits members → s.WellFormed → s.AsksAtMost .untrusted →
        (∀ arg ∈ args, arg.Resolves s) → vs.ReadsBack members := by
  induction h with
  | @intro s args vs hschema hstrings hseries hrows ih =>
      rintro members rfl hkeyed hfits hwf hasks hresolves
      subst hschema
      have hkeys := (hkeyed members List.mem_cons_self).2
      have hlast : ∀ {name value items}, (name, value) ∈ members → value.items? = some items →
          Binding.lastSeries name (Json.argsOf level members) =
            items.map fun item => Json.argsOf level (item.object?.getD []) := by
        intro name value items hmem hitems
        rw [Json.lastSeries_argsOf hkeys hmem, hitems, Option.map_some, Option.getD_some]
        refine Json.rowsOf_eq_map fun item hitem => ?_
        obtain ⟨inner, hinner, -⟩ := hfits.of_item hmem hitems hitem
        exact ⟨inner, hinner⟩
      refine .intro ?_ ?_ ?_ ?_ ?_
      · intro name value text hmem htext
        cases hresolves _ (Json.mem_argsOf hmem (Json.argOf?_of_text? htext name)) with
        | @scalar _ _ _ _ slot hslot =>
            have hname : slot.name.text = name := Schema.text_eq_of_scalar?_eq hslot
            have hmem' := List.mem_of_find?_eq_some hslot
            obtain ⟨stored, hstored, hget⟩ := hstrings slot hmem'
            rw [hname, Json.lastString?_argsOf hkeys hmem, htext, Option.map_some, Binding.textOf,
              TrustLevel.eq_untrusted_of_le (hasks.level_le hwf hmem'), sup_idem,
              SafeString.check_untrusted] at hstored
            cases hstored
            exact ⟨Json.hasText_of_text? hwriter htext, slot, hslot, hget⟩
      · intro name value items hmem hitems
        obtain ⟨sub, hsub, rfl, hfind, -, -⟩ := Json.exists_subsection hwf hresolves hmem hitems
        obtain ⟨rows, hget, hlength⟩ := hseries sub hsub
        rw [hlast hmem hitems, List.length_map] at hlength
        exact ⟨sub.1, rows, hfind, hget, hlength⟩
      · intro name value items t rows hmem hitems ht hget i row inner hrow hinner
        obtain ⟨sub, hsub, rfl, hfind, hchild, hinside⟩ :=
          Json.exists_subsection hwf hresolves hmem hitems
        obtain rfl := Option.some.inj (hfind.symm.trans ht)
        have hat : (Binding.lastSeries sub.1.name.text (Json.argsOf level members))[i]? =
            some (Json.argsOf level inner) := by
          rw [hlast hmem hitems, List.getElem?_map, hinner]
          rfl
        have hitem := List.mem_of_getElem? hinner
        obtain ⟨_, heq, hfits'⟩ := hfits.of_item hmem hitems hitem
        cases heq
        refine ih sub hsub rows hget i row _ hrow hat rfl (hkeyed.of_item hmem hitems hitem) hfits'
          (hwf.child hsub) (hasks.rows hchild) (hinside _ ?_)
        have hmem' := List.mem_of_getElem? hat
        rwa [Json.lastSeries_argsOf hkeys hmem, hitems, Option.map_some, Option.getD_some] at hmem'
      · intro slot hslot hnone
        obtain ⟨text, htext, hget⟩ := hstrings slot hslot
        rw [Json.lastString?_eq_none hnone] at htext
        cases htext
        exact hget
      · intro sub hsub hnone
        obtain ⟨rows, hget, hlength⟩ := hseries sub hsub
        rw [Json.lastSeries_eq_nil hnone] at hlength
        rw [hget, List.eq_nil_of_length_eq_zero hlength]
        rfl

/-- A session with one schema, which has been derived from arguments. -/
theorem Session.reached_of_bindings {args : List BindArg} {next : ℕ} {scope : Scope}
    (h : Declaring.bindings args (.newRoot next) = .ok () scope) :
    Reached ⟨[.draft scope.schema], scope.next, [], []⟩ := by
  have hroot : Reached ⟨[.draft (Scope.newRoot next).schema], next + 1, [], []⟩ :=
    .step (.start next) .newRoot
  refine hroot.call (.declareBindings args) nofun ?_
  change (Declaring.bindings args).after (.newRoot next) = scope
  rw [Declaring.after, h]

/-- **A document is refused, or it can be read back.** It is refused for the first item of a list
that is not an object, if there is one, and for nothing else. If there is none, a new schema can be
derived from it, to which it can be bound, and from the values it is read back, where its numbers
have texts that say which ones they are. -/
theorem Json.reads_back [writer : Json.NumberWriter] (hwriter : writer.Faithful)
    {members : List (String × Json)} (hkeyed : (object members).Keyed) (level : TrustLevel)
    (next : ℕ) :
    (∀ e, (object members).bindArgs level = .error e ↔
      ∃ item, (listItems "" (object members)).find? (·.2.object?.isNone) = some item ∧
        e = .document item.1 .rowNotObject) ∧
    (object members).withoutNulls.bindArgs level = (object members).bindArgs level ∧
    ((∀ item ∈ listItems "" (object members), item.2.object?.isSome) → ∃ args scope vs,
      (object members).bindArgs level = .ok args ∧
        Declaring.bindings args (.newRoot next) = .ok () scope ∧
          scope.schema.bind args = .ok vs ∧ vs.ReadsBack members) := by
  refine ⟨fun e => ?_, withoutNulls_bindArgs level _, fun hobjects => ?_⟩
  · rw [bindArgs_object, answerUnless_eq_error, mismatch?, Option.map_eq_some_iff]
    simp only [eq_comm]
  · have hfits := mismatch?_eq_none_iff.mpr hobjects
    have hargs : (object members).bindArgs level = .ok (argsOf level members) := by
      rw [bindArgs_object]
      exact answerUnless_eq_ok.mpr ⟨hfits, rfl⟩
    have hnamed := (named_iff_of_bindArgs hargs).mpr hkeyed.not_hasEmptyName
    obtain ⟨-, _, scope, hrun⟩ := (Declaring.bindings_succeedsIff _ (byName_of_bindArgs hargs)
      (.newRoot next)).resolve_right fun hnot => hnot.1 hnamed
    have hσ := Session.reached_of_bindings hrun
    have hs := Session.mem_schemas_of_draft scope.schema scope.next [] []
    have hgave := fun σ => gave_of_bindArgs σ hargs
    have hasksNothing := asksNothing_of_bindArgs hargs
    -- everything is declared, and nothing is required
    have hroot := (Scope.newRoot_proper next).inOrder.wellFormed
    obtain ⟨hwf, -, hlater⟩ := (Declaring.bindings_ensures _).ok hroot hrun
    have hresolves := hlater (.refl _) hwf
    have hasks : scope.schema.AsksAtMost .untrusted := by
      have hafter := (Declaring.bindings_asksAtMost _ hasksNothing).asksAtMost next
      rwa [Declaring.after, hrun] at hafter
    obtain ⟨vs, hbind⟩ := (Session.bind_of_resolves hs hresolves fun arg harg =>
      (Binding.understood hσ.valid (hgave _) arg harg).decided).2.mpr
        (BindArg.passes_of_asksNothing hasksNothing hwf hasks)
    have hmeans := Binding.Understood.means hσ.valid hs
      (Binding.understood hσ.valid (hgave _)) hbind
    exact ⟨_, scope, vs, hargs, hrun, hbind,
      hmeans.reads hwriter rfl hkeyed ⟨"", hobjects⟩ hwf hasks hresolves⟩

end

namespace Json

/-- Two books: one has a note, and the other has notes and no title. -/
def library : List (String × Json) := [
  ("books", .array [
    .object [("note", .string "a < b"), ("title", .string "One")],
    .object [("note", .array [.object [("text", .bool true)]]), ("title", .null)]]),
  ("count", .number (.natural 2))]

/-- Two books, the notes of the second of which are no objects. -/
def misprint : List (String × Json) := [
  ("books", .array [.object [("note", .null)], .object [("note", .array [.null, .string "x"])]])]

/-- `library` is read back, and `misprint` is refused for the first note. -/
theorem reads_back_library :
    (∃ args scope vs, (object library).bindArgs .urlSafe = .ok args ∧
      Declaring.bindings args (.newRoot 1) = .ok () scope ∧
        scope.schema.bind args = .ok vs ∧ vs.ReadsBack library) ∧
    (object misprint).bindArgs .urlSafe =
      .error (.document "/books/1/note/0" .rowNotObject) := by
  have hkeyed : (object library).Keyed ∧ (object misprint).Keyed := by decide +kernel
  have hlibrary := reads_back shortestWriter_faithful hkeyed.1 .urlSafe 1
  have hmisprint := reads_back shortestWriter_faithful hkeyed.2 .urlSafe 1
  refine ⟨hlibrary.2.2 (by decide +kernel),
    (hmisprint.1 _).mpr ⟨("/books/1/note/0", .null), ?_, rfl⟩⟩
  rfl

end Json

end TrustedHtml
