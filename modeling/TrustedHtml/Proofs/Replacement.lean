import TrustedHtml.Proofs.Additions
import TrustedHtml.Proofs.ParseBack

/-!
# Constants Replaced by Variables

A string that stands in a tree can be replaced by a variable of its own, to which the string is
bound later. `Node.Replaces` says that one tree is another one with any of its strings replaced,
and lists the replaced strings as additions: each with the path of subsections that leads to it,
the name of its variable, and the level that its place requires.

What the changed tree tells is what the original one tells, and beyond it the additions: it
passes the same checks, its counters fit, and it declares the same and the new variables.

## Main definitions

* `Node.Replaces`: a tree with strings replaced by variables.
* `Use.AllAdd`: declarations with those of additions among them.

## Main results

* `Node.Replaces.tells`: the changed tree passes its checks, and declares the additions.
* `Node.Replaces.fits`: the counters of the changed tree fit.
-/

namespace TrustedHtml

/-! ### Trees with strings replaced -/

/-- A value at a place that requires `level`, replaced or not. -/
inductive Value.Replaces (level : TrustLevel) : Value → Value → List Addition → Prop
  | same {value : Value} : Replaces level value value []
  | replaced {s : SafeString} {name : SlotName} :
      Replaces level (.concrete s) (.deferred (.ofName name)) [⟨[], name, s, level⟩]

/-- Attributes, of which those that count can have their values replaced. -/
inductive Attribute.AllReplace : List Attribute → List Attribute → List Addition → Prop
  | nil : AllReplace [] [] []
  | overridden {a : Attribute} {rest rest' : List Attribute} {additions : List Addition}
      (hlater : rest.any (·.name == a.name) = true) (hrest : AllReplace rest rest' additions) :
      AllReplace (a :: rest) (a :: rest') additions
  | surviving {a : Attribute} {value' : Value} {rest rest' : List Attribute}
      {first later : List Addition} (hlast : rest.any (·.name == a.name) = false)
      (hvalue : a.value.Replaces a.required value' first) (hrest : AllReplace rest rest' later) :
      AllReplace (a :: rest) ({ a with value := value' } :: rest') (first ++ later)

namespace Node

mutual

/-- **A tree with any of its strings replaced by variables**, and the additions that give them
back. -/
inductive Replaces : Node → Node → List Addition → Prop
  | element {e : Element} {attributes' : List Attribute} {contents contents' : List Node}
      {first later : List Addition}
      (hattributes : Attribute.AllReplace e.attributes attributes' first)
      (hcontents : ChildrenReplace contents contents' later) :
      Replaces (.element e contents) (.element { e with attributes := attributes' } contents')
        (first ++ later)
  | text {value value' : Value} {width : Option ℕ} {additions : List Addition}
      (hvalue : value.Replaces .textSafe value' additions) :
      Replaces (.text value width) (.text value' width) additions
  | raw {value value' : Value} {additions : List Addition}
      (hvalue : value.Replaces .htmlSafe value' additions) :
      Replaces (.raw value) (.raw value') additions
  | multi {error : Option StructureError} {contents contents' : List Node}
      {additions : List Addition} (hcontents : ChildrenReplace contents contents' additions) :
      Replaces (.multi error contents) (.multi error contents') additions
  | subsection {name : String} {prototype prototype' : Node} {additions : List Addition}
      (hprototype : Replaces prototype prototype' additions) :
      Replaces (.subsection name prototype) (.subsection name prototype')
        (additions.map (·.inside name))
  | switch {cases cases' : List (Condition × Option Node)} {default default' : Option Node}
      {first later : List Addition} (hcases : CasesReplace cases cases' first)
      (hdefault : OutputReplaces default default' later) :
      Replaces (.switch cases default) (.switch cases' default') (first ++ later)

/-- Children with strings replaced. -/
inductive ChildrenReplace : List Node → List Node → List Addition → Prop
  | nil : ChildrenReplace [] [] []
  | cons {child child' : Node} {rest rest' : List Node} {first later : List Addition}
      (hchild : Replaces child child' first) (hrest : ChildrenReplace rest rest' later) :
      ChildrenReplace (child :: rest) (child' :: rest') (first ++ later)

/-- Cases with strings replaced in their outputs. -/
inductive CasesReplace : List (Condition × Option Node) → List (Condition × Option Node) →
    List Addition → Prop
  | nil : CasesReplace [] [] []
  | cons {condition : Condition} {output output' : Option Node}
      {rest rest' : List (Condition × Option Node)} {first later : List Addition}
      (houtput : OutputReplaces output output' first) (hrest : CasesReplace rest rest' later) :
      CasesReplace ((condition, output) :: rest) ((condition, output') :: rest') (first ++ later)

/-- An alternative with strings replaced. -/
inductive OutputReplaces : Option Node → Option Node → List Addition → Prop
  | none : OutputReplaces none none []
  | some {output output' : Node} {additions : List Addition}
      (houtput : Replaces output output' additions) :
      OutputReplaces (some output) (some output') additions

end

end Node

/-- Children are as many as before. -/
theorem Node.ChildrenReplace.isEmpty_eq {contents contents' : List Node}
    {additions : List Addition} :
    ChildrenReplace contents contents' additions → contents'.isEmpty = contents.isEmpty
  | .nil => rfl
  | .cons _ _ => rfl

/-! ### Attributes that count -/

/-- Attributes with their values replaced or not, one by one. -/
inductive Attribute.EachReplaces : List Attribute → List Attribute → List Addition → Prop
  | nil : EachReplaces [] [] []
  | cons {a : Attribute} {value' : Value} {rest rest' : List Attribute}
      {first later : List Addition} (hvalue : a.value.Replaces a.required value' first)
      (hrest : EachReplaces rest rest' later) :
      EachReplaces (a :: rest) ({ a with value := value' } :: rest') (first ++ later)

namespace Attribute.AllReplace

variable {attributes attributes' : List Attribute} {additions : List Addition}

/-- Names of attributes are never replaced. -/
theorem any_name_eq (h : AllReplace attributes attributes' additions) (name : String) :
    attributes'.any (·.name == name) = attributes.any (·.name == name) := by
  induction h with
  | nil => rfl
  | overridden _ _ ih => rw [List.any_cons, List.any_cons, ih]
  | surviving _ _ _ ih => rw [List.any_cons, List.any_cons, ih]

/-- The same attributes count, with values replaced or not. -/
theorem lastOfEachName (h : AllReplace attributes attributes' additions) :
    EachReplaces (Attribute.lastOfEachName attributes) (Attribute.lastOfEachName attributes')
      additions := by
  induction h with
  | nil => exact .nil
  | overridden hlater hrest ih =>
      rw [Attribute.lastOfEachName_cons, Attribute.lastOfEachName_cons, hrest.any_name_eq,
        if_pos hlater, if_pos hlater]
      exact ih
  | surviving hlast hvalue hrest ih =>
      have hlast' := Bool.eq_false_iff.mp hlast
      rw [Attribute.lastOfEachName_cons, Attribute.lastOfEachName_cons, hrest.any_name_eq,
        if_neg hlast', if_neg hlast']
      exact .cons hvalue ih

end Attribute.AllReplace

/-! ### Declarations with additions -/

namespace Addition

/-- The level that additions require of the variable `name` at the end of a path. -/
def levelAt (name : String) (path : List String) : List Addition → WithBot TrustLevel
  | [] => ⊥
  | a :: rest =>
      (if a.path = path ∧ a.name.text = name then (a.level : WithBot TrustLevel) else ⊥)
        ⊔ levelAt name path rest

variable {additions : List Addition} {name : String} {path : List String}

/-- Additions one after the other require what each of them requires. -/
theorem levelAt_append (name : String) (path : List String) (first later : List Addition) :
    levelAt name path (first ++ later) = levelAt name path first ⊔ levelAt name path later := by
  induction first with
  | nil => rw [List.nil_append, levelAt, bot_sup_eq]
  | cons a rest ih => rw [List.cons_append, levelAt, ih, levelAt, sup_assoc]

/-- Additions to the rows of a subsection require nothing outside of it. -/
theorem levelAt_map_inside_nil (name sub : String) (additions : List Addition) :
    levelAt name [] (additions.map (·.inside sub)) = ⊥ := by
  induction additions with
  | nil => rfl
  | cons a rest ih => rw [List.map_cons, levelAt, ih, sup_bot_eq, if_neg (fun h => nomatch h.1)]

/-- Additions to the rows of a subsection require there what they require. -/
theorem levelAt_map_inside_cons (name sub first : String) (path : List String)
    (additions : List Addition) :
    levelAt name (first :: path) (additions.map (·.inside sub)) =
      if sub = first then levelAt name path additions else ⊥ := by
  induction additions with
  | nil => simp [levelAt]
  | cons a rest ih =>
      rw [List.map_cons, levelAt, ih]
      by_cases hsub : sub = first
      · simp [hsub, levelAt, inside]
      · simp [hsub, inside]

/-- Nothing is required of a variable that is not added. -/
theorem levelAt_eq_bot (h : ∀ a ∈ additions, a.path = path → a.name.text ≠ name) :
    levelAt name path additions = ⊥ := by
  induction additions with
  | nil => rfl
  | cons a rest ih =>
      rw [List.forall_mem_cons] at h
      rw [levelAt, ih h.2, sup_bot_eq, if_neg fun hsame => h.1 hsame.1 hsame.2]

/-- What is required of a variable that is added, under a name of its own. -/
theorem levelAt_of_mem (hdistinct : (additions.map (·.name)).Nodup) {a : Addition}
    (ha : a ∈ additions) : levelAt a.name.text a.path additions = a.level := by
  induction additions with
  | nil => cases ha
  | cons b rest ih =>
      rw [List.map_cons, List.nodup_cons] at hdistinct
      have hother : ∀ c ∈ rest, c.name ≠ b.name := fun c hc hsame =>
        hdistinct.1 (List.mem_map.mpr ⟨c, hc, hsame⟩)
      rw [levelAt]
      obtain rfl | ha := List.mem_cons.mp ha
      · rw [if_pos ⟨rfl, rfl⟩, levelAt_eq_bot, sup_bot_eq]
        exact fun c hc _ hsame => hother c hc (SlotName.text_inj.mp hsame)
      · rw [ih hdistinct.2 ha, if_neg, bot_sup_eq]
        exact fun hsame => hother a ha (SlotName.text_inj.mp hsame.2).symm

end Addition

/-- Declarations with those of additions among them; the others are of variables that are none
of `names`. -/
inductive Use.AllAdd (names : List SlotName) : List Use → List Use → List Addition → Prop
  | nil : AllAdd names [] [] []
  | kept {slot : SlotName} {level : TrustLevel} {rest rest' : List Use}
      {additions : List Addition} (hslot : slot ∉ names)
      (hrest : AllAdd names rest rest' additions) :
      AllAdd names (.scalar slot level :: rest) (.scalar slot level :: rest') additions
  | added {a : Addition} {rest rest' : List Use} {additions : List Addition} (hpath : a.path = [])
      (hrest : AllAdd names rest rest' additions) :
      AllAdd names rest (.scalar a.name a.level :: rest') (a :: additions)
  | subsection {slot : SlotName} {inner inner' rest rest' : List Use} {first later : List Addition}
      (hinner : AllAdd names inner inner' first) (hrest : AllAdd names rest rest' later) :
      AllAdd names (.subsection slot inner :: rest) (.subsection slot inner' :: rest')
        (first.map (·.inside slot.text) ++ later)

namespace Use.AllAdd

variable {names : List SlotName} {uses uses' later later' : List Use}
  {additions more : List Addition}

/-- Declarations one after the other. -/
theorem append (h : AllAdd names uses uses' additions) (hlater : AllAdd names later later' more) :
    AllAdd names (uses ++ later) (uses' ++ later') (additions ++ more) := by
  induction h with
  | nil => exact hlater
  | kept hslot _ ih => exact .kept hslot ih
  | added hpath _ ih => exact .added hpath ih
  | subsection hinner _ _ ih =>
      rw [List.append_assoc]
      exact .subsection hinner ih

/-- With additions is required what was required and what they require. -/
theorem levelAtAll_eq (h : AllAdd names uses uses' additions) (name : String)
    (path : List String) : levelAtAll name path uses' =
      levelAtAll name path uses ⊔ Addition.levelAt name path additions := by
  induction h generalizing path with
  | nil => rw [Addition.levelAt, sup_bot_eq]
  | kept _ _ ih => rw [levelAtAll, levelAtAll, ih, sup_assoc]
  | @added a rest rest' additions hpath _ ih =>
      rw [levelAtAll, Addition.levelAt, ih, hpath, sup_left_comm]
      cases path with
      | nil => simp [levelAt]
      | cons sub path => simp [levelAt]
  | @subsection slot inner inner' rest rest' first later _ _ ihinner ih =>
      rw [levelAtAll, levelAtAll, ih, Addition.levelAt_append]
      cases path with
      | nil => rw [levelAt, levelAt, Addition.levelAt_map_inside_nil, bot_sup_eq, bot_sup_eq,
          bot_sup_eq]
      | cons sub path =>
          rw [levelAt, levelAt, Addition.levelAt_map_inside_cons, ihinner path]
          by_cases hsub : slot.text = sub
          · simp only [hsub, if_true]
            exact sup_sup_sup_comm ..
          · simp only [hsub, if_false, bot_sup_eq]

/-- Nothing is required of the variables that are set apart, but by additions. -/
theorem levelAtAll_eq_bot (h : AllAdd names uses uses' additions) {name : SlotName}
    (hname : name ∈ names) (path : List String) : levelAtAll name.text path uses = ⊥ := by
  induction h generalizing path with
  | nil => rfl
  | kept hslot _ ih =>
      rw [levelAtAll, ih, sup_bot_eq]
      have hne : ∀ {slot : SlotName}, slot ∉ names → slot.text ≠ name.text :=
        fun hslot hsame => hslot (SlotName.text_inj.mp hsame ▸ hname)
      cases path with
      | nil => rw [levelAt, if_neg (hne hslot)]
      | cons sub path => rw [levelAt]
  | added _ _ ih => exact ih path
  | subsection _ _ ihinner ih =>
      rw [levelAtAll, ih, sup_bot_eq]
      cases path with
      | nil => rw [levelAt]
      | cons sub path => rw [levelAt, ihinner, ite_self]

/-- Additions declare no subsections. -/
theorem reachesAny_eq (h : AllAdd names uses uses' additions) (path : List String) :
    reachesAny path uses' = reachesAny path uses := by
  induction h generalizing path with
  | nil => rfl
  | kept _ _ ih => rw [reachesAny, reachesAny, ih, reaches]
  | added _ _ ih =>
      rw [reachesAny, ih]
      cases path <;> rfl
  | subsection _ _ ihinner ih =>
      rw [reachesAny, reachesAny, ih]
      cases path with
      | nil => rfl
      | cons sub path => rw [reaches, reaches, ihinner]

end Use.AllAdd

/-! ### What the changed tree tells -/

/-- Contents are not allowed in an element without a closing tag. -/
theorem Element.contents_eq_nil_of_check {e : Element} {contents : List Node}
    (hcheck : e.check contents = .ok ()) (hclosed : e.isClosed = true) : contents = [] := by
  rw [check] at hcheck
  split at hcheck
  · cases hcheck
  · obtain ⟨_, -, hcheck⟩ := Except.bind_eq_ok.mp hcheck
    cases contents with
    | nil => rfl
    | cons child rest =>
        rw [hclosed] at hcheck
        cases hcheck

/-- An element is checked alike whatever its attributes, and whatever its contents if there are
any. -/
theorem Element.check_eq (e : Element) (attributes' : List Attribute)
    {contents contents' : List Node} (h : contents'.isEmpty = contents.isEmpty) :
    ({ e with attributes := attributes' } : Element).check contents' = e.check contents := by
  rw [check, check, h]
  rfl

variable [UrlReader]

/-- All additions pass their checks. -/
def Addition.AllPass (additions : List Addition) : Prop :=
  ∀ a ∈ additions, ∃ text, a.value.check a.level = .ok text

namespace Value.Replaces

variable {names : List SlotName} {level : TrustLevel} {value value' : Value}
  {additions : List Addition}

/-- What a value tells that is replaced or not. -/
theorem tells (h : value.Replaces level value' additions)
    (hnames : additions.map (·.name) ⊆ names)
    (hfresh : ∀ v, value = .deferred v → v.name ∉ names) (hverify : value.verify level = .ok ()) :
    value'.verify level = .ok () ∧ Addition.AllPass additions ∧
      Use.AllAdd names (value.uses level) (value'.uses level) additions := by
  cases h with
  | same =>
      refine ⟨hverify, nofun, ?_⟩
      cases value with
      | concrete s => exact .nil
      | deferred v => exact .kept (hfresh v rfl) .nil
  | @replaced s name =>
      obtain ⟨text, hcheck⟩ := Verdict.ofTrust_eq_ok.mp hverify
      refine ⟨rfl, ?_, ?_⟩
      · rintro a ha
        rw [List.mem_singleton.mp ha]
        exact ⟨text, hcheck⟩
      · have hlevel : TrustLevel.untrusted ⊔ level = level := TrustLevel.untrusted_join level
        rw [uses, uses, Var.ofName, hlevel]
        exact .added (a := ⟨[], name, s, level⟩) rfl .nil

/-- Only a text that is known has to be reflowed to be compiled. -/
theorem fits (h : value.Replaces level value' additions) {r : Reflow} (hfits : value.Fits r) :
    value'.Fits r := by
  cases h with
  | same => exact hfits
  | replaced => exact trivial

end Value.Replaces

/-- Checks and declarations one after the other. -/
theorem Addition.AllPass.append {first later : List Addition} (h : AllPass first)
    (hlater : AllPass later) : AllPass (first ++ later) := by
  rw [AllPass, List.forall_mem_append]
  exact ⟨h, hlater⟩

/-- What attributes tell whose values are replaced or not. -/
theorem Attribute.EachReplaces.tells {names : List SlotName} {e : Element}
    {attributes attributes' : List Attribute} {additions : List Addition}
    (h : EachReplaces attributes attributes' additions) (e' : Element)
    (hnames : additions.map (·.name) ⊆ names)
    (hfresh : ∀ a ∈ attributes, ∀ v, a.value = .deferred v → v.name ∉ names)
    (hverify : e.verifyAttributes attributes = .ok ()) :
    e'.verifyAttributes attributes' = .ok () ∧ Addition.AllPass additions ∧
      Use.AllAdd names (attributes.flatMap fun a => a.value.uses a.required)
        (attributes'.flatMap fun a => a.value.uses a.required) additions := by
  induction h with
  | nil => exact ⟨rfl, nofun, .nil⟩
  | @cons a value' rest rest' first later hvalue hrest ih =>
      rw [List.map_append, List.append_subset] at hnames
      rw [List.forall_mem_cons] at hfresh
      rw [Element.verifyAttributes, Verdict.seq_eq_ok, Verdict.within_eq_ok, Attribute.verify,
        Verdict.seq_eq_ok] at hverify
      obtain ⟨⟨hname, hvalue'⟩, hverify⟩ := hverify
      obtain ⟨hfirst, hpass, huses⟩ := hvalue.tells hnames.1 hfresh.1 hvalue'
      obtain ⟨hlater, hpasses, hmore⟩ := ih hnames.2 hfresh.2 hverify
      refine ⟨?_, hpass.append hpasses, ?_⟩
      · rw [Element.verifyAttributes, Verdict.seq_eq_ok, Verdict.within_eq_ok, Attribute.verify,
          Verdict.seq_eq_ok]
        exact ⟨⟨hname, hfirst⟩, hlater⟩
      · rw [List.flatMap_cons, List.flatMap_cons]
        exact huses.append hmore

namespace Node

/-- The variables of leaves are none of `names`. -/
def Avoids (names : List SlotName) (leaves : List Leaf) : Prop :=
  ∀ leaf ∈ leaves, ∀ v, leaf.value = .deferred v → v.name ∉ names

mutual

/-- **What the changed tree tells**: it passes its checks if the original tree does, and so do the
additions, and beyond what the original tree declares it declares the additions. -/
theorem Replaces.tells {names : List SlotName} {node node' : Node} {additions : List Addition} :
    node.Replaces node' additions → additions.map (·.name) ⊆ names → Avoids names node.leaves →
      node.verify = .ok () → node'.verify = .ok () ∧ Addition.AllPass additions ∧
        Use.AllAdd names node.uses node'.uses additions
  | @Replaces.element e attributes' _ _ _ _ hattributes hcontents, hnames, hfresh, hverify => by
      rw [List.map_append, List.append_subset] at hnames
      rw [leaves, Avoids, List.forall_mem_append] at hfresh
      rw [verify, Verdict.seq_eq_ok, Verdict.seq_eq_ok] at hverify
      obtain ⟨hcheck, hopening, hbody⟩ := hverify
      have hcheck' := hcheck
      rw [← e.check_eq attributes' hcontents.isEmpty_eq] at hcheck'
      have hfresh' : ∀ a ∈ Attribute.lastOfEachName e.attributes, ∀ v,
          a.value = .deferred v → v.name ∉ names := fun a ha =>
        hfresh.1 _ (List.mem_map_of_mem (Attribute.mem_of_mem_lastOfEachName ha))
      obtain ⟨hopening', hpass, huses⟩ := hattributes.lastOfEachName.tells
        { e with attributes := attributes' } hnames.1 hfresh' hopening
      rw [verify, Verdict.seq_eq_ok, Verdict.seq_eq_ok, uses, uses]
      cases hclosed : e.isClosed with
      | true =>
          have hclosed' : Element.isClosed { e with attributes := attributes' } = true := hclosed
          obtain ⟨_, hok⟩ := Verdict.ofStructure_eq_ok.mp hcheck
          obtain rfl := Element.contents_eq_nil_of_check hok hclosed
          cases hcontents
          rw [if_pos hclosed', if_pos rfl, if_pos hclosed', List.append_nil, List.append_nil,
            List.append_nil]
          exact ⟨⟨hcheck', hopening', rfl⟩, hpass, huses⟩
      | false =>
          have hclosed' : Element.isClosed { e with attributes := attributes' } = false := hclosed
          rw [hclosed, if_neg Bool.false_ne_true] at hbody
          obtain ⟨hbody', hpasses, hmore⟩ := hcontents.tells hnames.2 hfresh.2 hbody
          rw [hclosed', if_neg Bool.false_ne_true, if_neg Bool.false_ne_true,
            if_neg Bool.false_ne_true]
          exact ⟨⟨hcheck', hopening', hbody'⟩, hpass.append hpasses, huses.append hmore⟩
  | .text hvalue, hnames, hfresh, hverify => by
      rw [leaves, Avoids, List.forall_mem_singleton] at hfresh
      exact hvalue.tells hnames hfresh hverify
  | .raw hvalue, hnames, hfresh, hverify => by
      rw [leaves, Avoids, List.forall_mem_singleton] at hfresh
      exact hvalue.tells hnames hfresh hverify
  | @Replaces.multi (some _) _ _ _ _, _, _, hverify => nomatch hverify
  | @Replaces.multi none _ _ _ hcontents, hnames, hfresh, hverify =>
      hcontents.tells hnames hfresh hverify
  | @Replaces.subsection name _ _ additions hprototype, hnames, hfresh, hverify => by
      have hsame : (additions.map (·.inside name)).map (·.name) = additions.map (·.name) := by
        rw [List.map_map]
        rfl
      rw [hsame] at hnames
      rw [verify, Verdict.seq_eq_ok, Verdict.within_eq_ok] at hverify
      obtain ⟨slot, hslot⟩ := Verdict.ofStructure_eq_ok.mp hverify.1
      obtain ⟨hinner, hpass, huses⟩ := hprototype.tells hnames hfresh hverify.2
      rw [verify, Verdict.seq_eq_ok, Verdict.within_eq_ok, uses, uses,
        SlotName.ofString?_of_checked hslot]
      refine ⟨⟨hverify.1, hinner⟩, ?_, ?_⟩
      · intro a ha
        obtain ⟨b, hb, rfl⟩ := List.mem_map.mp ha
        exact hpass b hb
      · rw [← SlotName.text_of_checked hslot, ← List.append_nil (additions.map _)]
        exact .subsection huses .nil
  | .switch hcases hdefault, hnames, hfresh, hverify => by
      rw [List.map_append, List.append_subset] at hnames
      rw [leaves, Avoids, List.forall_mem_append] at hfresh
      rw [verify, Verdict.seq_eq_ok] at hverify
      obtain ⟨hfirst, hpass, huses⟩ := hcases.tells hnames.1 hfresh.1 hverify.1
      obtain ⟨hlater, hpasses, hmore⟩ := hdefault.tells hnames.2 hfresh.2 hverify.2
      refine ⟨?_, hpass.append hpasses, huses.append hmore⟩
      rw [verify, Verdict.seq_eq_ok]
      exact ⟨hfirst, hlater⟩

/-- What children tell with strings replaced. -/
theorem ChildrenReplace.tells {names : List SlotName} {contents contents' : List Node}
    {additions : List Addition} {parent : Parent} {number : ℕ} :
    ChildrenReplace contents contents' additions → additions.map (·.name) ⊆ names →
      Avoids names (childLeaves contents) → verifyChildren parent number contents = .ok () →
        verifyChildren parent number contents' = .ok () ∧ Addition.AllPass additions ∧
          Use.AllAdd names (childUses contents) (childUses contents') additions
  | .nil, _, _, _ => ⟨rfl, nofun, .nil⟩
  | .cons hchild hrest, hnames, hfresh, hverify => by
      rw [List.map_append, List.append_subset] at hnames
      rw [childLeaves, Avoids, List.forall_mem_append] at hfresh
      rw [verifyChildren, Verdict.seq_eq_ok, Verdict.within_eq_ok] at hverify
      obtain ⟨hfirst, hpass, huses⟩ := hchild.tells hnames.1 hfresh.1 hverify.1
      obtain ⟨hlater, hpasses, hmore⟩ := hrest.tells hnames.2 hfresh.2 hverify.2
      refine ⟨?_, hpass.append hpasses, huses.append hmore⟩
      rw [verifyChildren, Verdict.seq_eq_ok, Verdict.within_eq_ok]
      exact ⟨hfirst, hlater⟩

/-- What cases tell with strings replaced. -/
theorem CasesReplace.tells {names : List SlotName} {cases cases' : List (Condition × Option Node)}
    {additions : List Addition} {number count count' : ℕ} :
    CasesReplace cases cases' additions → additions.map (·.name) ⊆ names →
      Avoids names (caseLeaves cases) → verifyCases number count cases = .ok () →
        verifyCases number count' cases' = .ok () ∧ Addition.AllPass additions ∧
          Use.AllAdd names (caseUses cases) (caseUses cases') additions
  | .nil, _, _, _ => ⟨rfl, nofun, .nil⟩
  | .cons houtput hrest, hnames, hfresh, hverify => by
      rw [List.map_append, List.append_subset] at hnames
      rw [caseLeaves, Avoids, List.forall_mem_append] at hfresh
      cases houtput with
      | none =>
          rw [verifyCases] at hverify
          obtain ⟨hlater, hpasses, hmore⟩ := hrest.tells hnames.2 hfresh.2 hverify
          exact ⟨hlater, hpasses, hmore⟩
      | some houtput =>
          rw [verifyCases, Verdict.seq_eq_ok, Verdict.within_eq_ok] at hverify
          obtain ⟨hfirst, hpass, huses⟩ := houtput.tells hnames.1 hfresh.1 hverify.1
          obtain ⟨hlater, hpasses, hmore⟩ := hrest.tells hnames.2 hfresh.2 hverify.2
          refine ⟨?_, hpass.append hpasses, huses.append hmore⟩
          rw [verifyCases, Verdict.seq_eq_ok, Verdict.within_eq_ok]
          exact ⟨hfirst, hlater⟩

/-- What an alternative tells with strings replaced. -/
theorem OutputReplaces.tells {names : List SlotName} {output output' : Option Node}
    {additions : List Addition} :
    OutputReplaces output output' additions → additions.map (·.name) ⊆ names →
      Avoids names (outputLeaves output) → verifyDefault output = .ok () →
        verifyDefault output' = .ok () ∧ Addition.AllPass additions ∧
          Use.AllAdd names (outputUses output) (outputUses output') additions
  | .none, _, _, _ => ⟨rfl, nofun, .nil⟩
  | .some houtput, hnames, hfresh, hverify => by
      rw [verifyDefault, Verdict.within_eq_ok] at hverify ⊢
      exact houtput.tells hnames hfresh hverify

end

mutual

/-- **The counters of the changed tree fit** if those of the original tree do: a replaced text is
not known before it is rendered, so there is less to reflow. -/
theorem Replaces.fits {o : LayoutOptions} {depth : ℕ} {node node' : Node}
    {additions : List Addition} :
    node.Replaces node' additions → node.Fits o depth → node'.Fits o depth
  | .element _ hcontents, hfits => by
      rw [Fits] at hfits ⊢
      exact fun hclosed => ⟨(hfits hclosed).1, hcontents.fits (hfits hclosed).2⟩
  | .text hvalue, hfits => hvalue.fits hfits
  | .raw _, _ => trivial
  | @Replaces.multi (some _) _ _ _ _, _ => trivial
  | @Replaces.multi none _ _ _ hcontents, hfits => hcontents.fits hfits
  | .subsection hprototype, hfits => by
      rw [Fits] at hfits ⊢
      exact hprototype.fits hfits
  | .switch hcases hdefault, hfits => by
      rw [Fits] at hfits ⊢
      exact ⟨hcases.fits hfits.1, hdefault.fits hfits.2⟩

/-- The counters of children fit with strings replaced. -/
theorem ChildrenReplace.fits {o : LayoutOptions} {depth : ℕ} {contents contents' : List Node}
    {additions : List Addition} : ChildrenReplace contents contents' additions →
      ChildrenFit o depth contents → ChildrenFit o depth contents'
  | .nil, _ => trivial
  | .cons hchild hrest, hfits => ⟨hchild.fits hfits.1, hrest.fits hfits.2⟩

/-- The counters of cases fit with strings replaced. -/
theorem CasesReplace.fits {o : LayoutOptions} {depth : ℕ}
    {cases cases' : List (Condition × Option Node)} {additions : List Addition} :
    CasesReplace cases cases' additions → CasesFit o depth cases → CasesFit o depth cases'
  | .nil, _ => trivial
  | .cons houtput hrest, hfits => ⟨houtput.fits hfits.1, hrest.fits hfits.2⟩

/-- The counters of an alternative fit with strings replaced. -/
theorem OutputReplaces.fits {o : LayoutOptions} {depth : ℕ} {output output' : Option Node}
    {additions : List Addition} :
    OutputReplaces output output' additions → OutputFits o depth output → OutputFits o depth output'
  | .none, _ => trivial
  | .some houtput, hfits => houtput.fits hfits

end

end Node

end TrustedHtml
