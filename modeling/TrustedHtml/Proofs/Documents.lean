import TrustedHtml.Binding.OfJson
import TrustedHtml.Json.Writer
import TrustedHtml.Proofs.StrictLevels

/-!
# Documents as Arguments

A document is translated into arguments in one pass, which keeps the path for its failure and
leaves null members out. Here the two things it does are told apart. Whether it fails, and with
which path, depends on the items of the lists in the document alone: it is refused for the first
one, depth first, that is not an object. The arguments themselves depend neither on paths nor on
what is refused.

All of these arguments are addressed by names, and a name can be any text. Binding has an answer
for every one of them, or a failure; so has declaring, except for the empty name, which is taken
for a mistake of the program.

## Main definitions

* `Json.objects`, `Json.listItems`: the objects in a document, and the items of its lists.
* `Json.mismatch?`: what a document is refused for.
* `Json.argsOf`: the arguments for an object, without paths and failures.
* `Json.HasEmptyName`: a member that is not null has no name.
* `Declaring.SucceedsIff`: an operation that fails for an empty name only.
* `Orderly`: an answer, or a failure on account of the input.

## Main results

* `Json.memberArgs_eq`, `Json.bindArgs_object`: **what a document is translated into.**
* `Declaring.bindings_succeedsIff`: declaring what arguments use that are addressed by names.
* `Session.Reached.bind_document`: **binding a document**, and declaring its names.
-/

namespace TrustedHtml

/-- What holds of two lists of arguments everywhere holds of each of them. -/
theorem BindArg.allEverywhere_append {P : BindArg → Prop} {args others : List BindArg} :
    AllEverywhere P (args ++ others) ↔ AllEverywhere P args ∧ AllEverywhere P others := by
  induction args with
  | nil => simp [AllEverywhere]
  | cons arg rest ih => rw [List.cons_append, AllEverywhere, AllEverywhere, ih, and_assoc]

namespace Json

/-! ### What is in a document -/

/-- Whether a value is null. -/
def isNull : Json → Bool
  | null => true
  | _ => false

/-- The members of an object. -/
def object? : Json → Option (List (String × Json))
  | object members => some members
  | _ => none

mutual

/-- All objects in a document, at every level. -/
def objects : Json → List (List (String × Json))
  | object members => members :: memberObjects members
  | array items => itemObjects items
  | _ => []

/-- All objects in members. -/
def memberObjects : List (String × Json) → List (List (String × Json))
  | [] => []
  | (_, value) :: rest => objects value ++ memberObjects rest

/-- All objects in items. -/
def itemObjects : List Json → List (List (String × Json))
  | [] => []
  | item :: rest => objects item ++ itemObjects rest

end

mutual

/-- The items of all lists in the value at `path`, with their own paths: members and items in
order, and every item in front of what is in it. -/
def listItems (path : String) : Json → List (String × Json)
  | object members => memberListItems path members
  | array items => itemListItems path 0 items
  | _ => []

/-- The items of all lists in the members of the object at `path`. -/
def memberListItems (path : String) : List (String × Json) → List (String × Json)
  | [] => []
  | (name, value) :: rest => listItems (path ++ "/" ++ name) value ++ memberListItems path rest

/-- The items of the list at `path` from the given place on, and those of the lists in them. -/
def itemListItems (path : String) (index : ℕ) : List Json → List (String × Json)
  | [] => []
  | item :: rest => (s!"{path}/{index}", item) ::
      (listItems s!"{path}/{index}" item ++ itemListItems path (index + 1) rest)

end

/-- What is wrong with the first item that is not an object. -/
def mismatch? (items : List (String × Json)) : Option BindError :=
  (items.find? fun item => item.2.object?.isNone).map fun item => .document item.1 .rowNotObject

/-- **A member without a name**, at any level, that is not null. -/
def HasEmptyName (document : Json) : Prop :=
  ∃ members ∈ document.objects, ∃ member ∈ members, member.1 = "" ∧ ¬ member.2.isNull

instance : DecidablePred HasEmptyName := fun document =>
  inferInstanceAs (Decidable (∃ members ∈ document.objects, ∃ member ∈ members,
    member.1 = "" ∧ ¬ member.2.isNull))

/-- What is wrong with items, and then with others. -/
theorem mismatch?_append (items others : List (String × Json)) :
    mismatch? (items ++ others) = (mismatch? items).or (mismatch? others) := by
  rw [mismatch?, List.find?_append, Option.map_or]
  rfl

/-- Nothing is wrong with objects. -/
theorem mismatch?_eq_none_iff {items : List (String × Json)} :
    mismatch? items = none ↔ ∀ item ∈ items, item.2.object?.isSome := by
  simp [mismatch?, Option.isSome_iff_ne_none]

/-! ### What a document is translated into -/

section

variable [NumberWriter]

mutual

/-- The argument for the member `name`, if it is not null. -/
def argOf? (level : TrustLevel) (name : String) : Json → Option BindArg
  | null => none
  | string s => some (.scalar (.name name) ⟨level, s⟩ .untrusted)
  | number n => some (.scalar (.name name) ⟨level, NumberWriter.text n⟩ .untrusted)
  | bool b => some (.scalar (.name name) ⟨level, boolText b⟩ .untrusted)
  | object members => some (.rows (.name name) [argsOf level members])
  | array items => some (.rows (.name name) (rowsOf level items))

/-- The arguments for the members of an object. -/
def argsOf (level : TrustLevel) : List (String × Json) → List BindArg
  | [] => []
  | (name, value) :: rest => (argOf? level name value).toList ++ argsOf level rest

/-- The arguments for the rows in a list, which are its objects. -/
def rowsOf (level : TrustLevel) : List Json → List (List BindArg)
  | [] => []
  | object members :: rest => argsOf level members :: rowsOf level rest
  | _ :: rest => rowsOf level rest

end

end

/-- An answer, unless something is wrong. -/
def answerUnless {α : Type} (error : Option BindError) (a : α) : Except BindError α :=
  match error with
  | some e => .error e
  | none => .ok a

/-- There is an answer if nothing is wrong. -/
theorem answerUnless_eq_ok {α : Type} {error : Option BindError} {a b : α} :
    answerUnless error a = .ok b ↔ error = none ∧ a = b := by
  cases error <;> simp [answerUnless]

/-- There is none if something is wrong. -/
theorem answerUnless_eq_error {α : Type} {error : Option BindError} {a : α} {e : BindError} :
    answerUnless error a = .error e ↔ error = some e := by
  cases error <;> simp [answerUnless]

/-- One translation after another. -/
theorem answerUnless_or {α β γ : Type} (error other : Option BindError) (a : α) (b : β)
    (combine : α → β → γ) :
    (do let x ← answerUnless error a; return combine x (← answerUnless other b)) =
      answerUnless (error.or other) (combine a b) := by
  cases error <;> cases other <;> rfl

/-- A translation that goes on with what there is. -/
theorem answerUnless_map {α β : Type} (error : Option BindError) (a : α) (f : α → β) :
    (do return f (← answerUnless error a)) = answerUnless error (f a) := by
  cases error <;> rfl

section

variable [NumberWriter]

mutual

/-- What a member is translated into. -/
theorem memberArg_eq (level : TrustLevel) (path name : String) : ∀ value : Json,
    memberArg level path name value =
      answerUnless (mismatch? (listItems path value)) (argOf? level name value)
  | null => rfl
  | string _ => rfl
  | number _ => rfl
  | bool _ => rfl
  | object members => by
      rw [memberArg, memberArgs_eq level path members, listItems, argOf?]
      exact answerUnless_map ..
  | array items => by
      rw [memberArg, itemArgs_eq level path 0 items, listItems, argOf?]
      exact answerUnless_map ..

/-- **What the members of an object are translated into.** -/
theorem memberArgs_eq (level : TrustLevel) (path : String) : ∀ members : List (String × Json),
    memberArgs level path members =
      answerUnless (mismatch? (memberListItems path members)) (argsOf level members)
  | [] => rfl
  | (name, value) :: rest => by
      rw [memberArgs, memberArg_eq level (path ++ "/" ++ name) name value,
        memberArgs_eq level path rest, memberListItems, mismatch?_append, argsOf]
      exact answerUnless_or _ _ _ _ fun (arg : Option BindArg) args => arg.toList ++ args

/-- What the items of a list are translated into. -/
theorem itemArgs_eq (level : TrustLevel) (path : String) : ∀ (index : ℕ) (items : List Json),
    itemArgs level path index items =
      answerUnless (mismatch? (itemListItems path index items)) (rowsOf level items)
  | _, [] => rfl
  | index, object members :: rest => by
      rw [itemArgs, memberArgs_eq level _ members, itemArgs_eq level path (index + 1) rest,
        itemListItems, rowsOf, listItems, ← List.singleton_append, mismatch?_append,
        mismatch?_append]
      exact answerUnless_or ..
  | index, null :: rest | index, bool _ :: rest | index, number _ :: rest
  | index, string _ :: rest | index, array _ :: rest => by
      rw [itemArgs, itemListItems]
      · rfl
      · rintro members ⟨⟩

end

/-- What a document is translated into that is an object. -/
theorem bindArgs_object (level : TrustLevel) (members : List (String × Json)) :
    (object members).bindArgs level =
      answerUnless (mismatch? (listItems "" (object members))) (argsOf level members) :=
  memberArgs_eq level "" members

end

/-! ### Arguments and names -/

/-- What `P` says of arguments for values of a document, `Q` says of their names. -/
structure SaidOfNames (level : TrustLevel) (P : BindArg → Prop) (Q : String → Prop) : Prop where
  scalar : ∀ name text, P (.scalar (.name name) ⟨level, text⟩ .untrusted) ↔ Q name
  rows : ∀ name given, P (.rows (.name name) given) ↔ Q name

/-- `Q` holds of the names of all members of objects that are not null. -/
def AllNames (Q : String → Prop) (found : List (List (String × Json))) : Prop :=
  ∀ members ∈ found, ∀ member ∈ members, ¬ member.2.isNull → Q member.1

section

variable {level : TrustLevel} {P : BindArg → Prop} {Q : String → Prop}

/-- It holds of the names in one list of objects and in another one. -/
theorem allNames_append {found others : List (List (String × Json))} :
    AllNames Q (found ++ others) ↔ AllNames Q found ∧ AllNames Q others :=
  List.forall_mem_append

/-- It holds of the names in the first of some objects, and in the others. -/
theorem allNames_cons {members : List (String × Json)} {found : List (List (String × Json))} :
    AllNames Q (members :: found) ↔
      (∀ member ∈ members, ¬ member.2.isNull → Q member.1) ∧ AllNames Q found :=
  List.forall_mem_cons

/-- Nothing is wrong with some items, and nothing with others. -/
theorem mismatch?_append_eq_none_iff {items others : List (String × Json)} :
    mismatch? (items ++ others) = none ↔ mismatch? items = none ∧ mismatch? others = none := by
  rw [mismatch?_append, Option.or_eq_none_iff]

variable [NumberWriter]

mutual

/-- What holds of the argument for a member holds of its name, and of those in it. -/
theorem everywhere_argOf?_iff (h : SaidOfNames level P Q) (path name : String) : ∀ value : Json,
    mismatch? (listItems path value) = none →
      (BindArg.AllEverywhere P (argOf? level name value).toList ↔
        (¬ value.isNull → Q name) ∧ AllNames Q value.objects)
  | null, _ => by simp [argOf?, BindArg.AllEverywhere, isNull, AllNames, objects]
  | string _, _ | number _, _ | bool _, _ => by
      simp [argOf?, BindArg.AllEverywhere, BindArg.Everywhere, isNull, AllNames, objects, h.scalar]
  | object members, hfits => by
      have hmembers := allEverywhere_argsOf_iff h path members hfits
      simp only [argOf?, Option.toList, BindArg.AllEverywhere, BindArg.Everywhere,
        BindArg.RowsEverywhere, and_true, h.rows, hmembers, isNull, objects]
      simp
  | array items, hfits => by
      have hitems := rowsEverywhere_rowsOf_iff h path 0 items hfits
      simp only [argOf?, Option.toList, BindArg.AllEverywhere, BindArg.Everywhere, and_true, h.rows,
        hitems, isNull, objects]
      simp

/-- **What holds of the arguments for an object holds of the names in it**, at every level. -/
theorem allEverywhere_argsOf_iff (h : SaidOfNames level P Q) (path : String) :
    ∀ members : List (String × Json), mismatch? (memberListItems path members) = none →
      (BindArg.AllEverywhere P (argsOf level members) ↔
        AllNames Q (members :: memberObjects members))
  | [], _ => by simp [argsOf, BindArg.AllEverywhere, AllNames, memberObjects]
  | (name, value) :: rest, hfits => by
      rw [memberListItems, mismatch?_append_eq_none_iff] at hfits
      have hvalue := everywhere_argOf?_iff h _ name value hfits.1
      have hrest := allEverywhere_argsOf_iff h path rest hfits.2
      rw [allNames_cons] at hrest ⊢
      rw [argsOf, BindArg.allEverywhere_append, hvalue, hrest, List.forall_mem_cons, memberObjects,
        allNames_append]
      tauto

/-- What holds of the arguments in rows holds of the names in items. -/
theorem rowsEverywhere_rowsOf_iff (h : SaidOfNames level P Q) (path : String) (index : ℕ) :
    ∀ items : List Json, mismatch? (itemListItems path index items) = none →
      (BindArg.RowsEverywhere P (rowsOf level items) ↔ AllNames Q (itemObjects items))
  | [], _ => by simp [rowsOf, BindArg.RowsEverywhere, AllNames, itemObjects]
  | object members :: rest, hfits => by
      rw [itemListItems, ← List.singleton_append, mismatch?_append_eq_none_iff,
        mismatch?_append_eq_none_iff] at hfits
      obtain ⟨-, hmembers, hrest⟩ := hfits
      rw [rowsOf, BindArg.RowsEverywhere, allEverywhere_argsOf_iff h _ members hmembers,
        rowsEverywhere_rowsOf_iff h path (index + 1) rest hrest, itemObjects, objects,
        allNames_append]
  | null :: _, hfits | bool _ :: _, hfits | number _ :: _, hfits
  | string _ :: _, hfits | array _ :: _, hfits => by
      cases hfits

end

end

/-- A member without a name is one that is not null and has the empty name. -/
theorem hasEmptyName_iff {document : Json} :
    document.HasEmptyName ↔ ¬ AllNames (· ≠ "") document.objects := by
  simp [HasEmptyName, AllNames, and_comm]

end Json

/-! ### Declaring what is addressed by names -/

/-- An argument is addressed by a name. -/
def BindArg.ByName : BindArg → Prop
  | .scalar (.name _) _ _ => True
  | .rows (.name _) _ => True
  | _ => False

/-- The misuse of an empty name. -/
def Misuse.IsEmptyName (m : Misuse) : Prop :=
  m = .emptyVarName ∨ m = .emptySubsectionName

namespace Declaring

variable {α β : Type} {act : Declaring α} {named also : Prop}

/-- **An operation succeeds if names are not empty**, and is a misuse else. -/
def SucceedsIff (act : Declaring α) (named : Prop) : Prop :=
  ∀ s : Scope, (named ∧ ∃ a t, act s = .ok a t) ∨
    (¬ named ∧ ∃ m t, Misuse.IsEmptyName m ∧ act s = .error (.misuse m) t)

/-- An answer. -/
theorem SucceedsIff.pure (a : α) : SucceedsIff (Pure.pure a) True :=
  fun s => .inl ⟨trivial, a, s, rfl⟩

/-- One operation after another. -/
theorem SucceedsIff.bind {k : α → Declaring β} (h : act.SucceedsIff named)
    (hk : ∀ a, (k a).SucceedsIff also) : (act >>= k).SucceedsIff (named ∧ also) := by
  intro s
  rcases h s with ⟨hnamed, a, t, hact⟩ | ⟨hnot, m, t, hm, hact⟩
  · rw [bind_of_ok hact]
    rcases hk a t with ⟨halso, hrest⟩ | ⟨hnot, hrest⟩
    · exact .inl ⟨⟨hnamed, halso⟩, hrest⟩
    · exact .inr ⟨fun hboth => hnot hboth.2, hrest⟩
  · rw [bind_of_error hact]
    exact .inr ⟨fun hboth => hnot hboth.1, m, t, hm, rfl⟩

/-- An operation whose answer is not used. -/
theorem SucceedsIff.discard (h : act.SucceedsIff named) :
    (Functor.discard act).SucceedsIff named := by
  intro s
  simp only [Functor.discard, Functor.mapConst, EStateM.map, Function.comp]
  rcases h s with ⟨hnamed, a, t, hact⟩ | ⟨hnot, m, t, hm, hact⟩
  · rw [hact]
    exact .inl ⟨hnamed, (), t, rfl⟩
  · rw [hact]
    exact .inr ⟨hnot, m, t, hm, rfl⟩

/-- Working on the schema of the rows of a subsection. -/
theorem SucceedsIff.inSubsection (h : act.SucceedsIff named) (name : SlotName) :
    (inSubsection name act).SucceedsIff named := by
  intro s
  simp only [Declaring.inSubsection]
  rcases h ⟨(s.declareSubsection name).1.2, (s.declareSubsection name).2.next⟩ with
    ⟨hnamed, a, t, hact⟩ | ⟨hnot, m, t, hm, hact⟩
  · rw [hact]
    exact .inl ⟨hnamed, _, _, rfl⟩
  · rw [hact]
    exact .inr ⟨hnot, m, _, hm, rfl⟩

/-- The same condition in other words. -/
theorem SucceedsIff.congr (h : act.SucceedsIff named) (hiff : named ↔ also) :
    act.SucceedsIff also :=
  propext hiff ▸ h

/-- Declaring a variable. -/
theorem scalar_succeedsIff (name : SlotName) (level : TrustLevel) :
    (scalar name level).SucceedsIff True :=
  fun _ => .inl ⟨trivial, _, _, rfl⟩

/-- The name of a variable. -/
theorem varName_succeedsIff (name : String) : (varName name).SucceedsIff (name ≠ "") := by
  rw [varName, SlotName.ofString?]
  split_ifs with hname
  · exact fun s => .inr ⟨fun hne => hne hname, _, s, .inl rfl, rfl⟩
  · exact fun s => .inl ⟨hname, _, s, rfl⟩

/-- The name of a subsection. -/
theorem subsectionName_succeedsIff (name : String) :
    (subsectionName name).SucceedsIff (name ≠ "") := by
  rw [subsectionName, SlotName.ofString?]
  split_ifs with hname
  · exact fun s => .inr ⟨fun hne => hne hname, _, s, .inr rfl, rfl⟩
  · exact fun s => .inl ⟨hname, _, s, rfl⟩

mutual

/-- Declaring what an argument uses that is addressed by a name. -/
theorem binding_succeedsIff : ∀ arg : BindArg, arg.Everywhere BindArg.ByName →
    (binding arg).SucceedsIff (arg.Everywhere fun other => other.name ≠ "")
  | .scalar (.name n) _ level, _ =>
      ((varName_succeedsIff n).bind fun slot => (scalar_succeedsIff slot level).discard).congr
        (iff_of_eq (and_true _))
  | .rows (.name n) given, h =>
      (subsectionName_succeedsIff n).bind fun slot =>
        ((bindingRows_succeedsIff given h.2).inSubsection slot).discard
  | .rows (.handle _) _, h => h.1.elim

/-- Declaring what rows use. -/
theorem bindingRows_succeedsIff : ∀ given : List (List BindArg),
    BindArg.RowsEverywhere BindArg.ByName given →
      (bindingRows given).SucceedsIff
        (BindArg.RowsEverywhere (fun other => other.name ≠ "") given)
  | [], _ => .pure ()
  | row :: rest, h => (bindings_succeedsIff row h.1).bind fun _ => bindingRows_succeedsIff rest h.2

/-- **Declaring what arguments use that are addressed by names.** -/
theorem bindings_succeedsIff : ∀ args : List BindArg, BindArg.AllEverywhere BindArg.ByName args →
    (bindings args).SucceedsIff (BindArg.AllEverywhere (fun other => other.name ≠ "") args)
  | [], _ => .pure ()
  | arg :: rest, h => (binding_succeedsIff arg h.1).bind fun _ => bindings_succeedsIff rest h.2

end

end Declaring

/-! ### Binding a document -/

/-- **An orderly end**: there is an answer, or a failure on account of the input. -/
def Orderly {α : Type} (r : Except Abort α) : Prop :=
  ∀ e, r = .error e → ∃ f, e = .failure f

namespace Json

variable [NumberWriter] {document : Json} {level : TrustLevel} {args : List BindArg}

/-- A document that is translated is an object in which nothing is wrong. -/
theorem exists_of_bindArgs (h : document.bindArgs level = .ok args) :
    ∃ members, document = object members ∧ args = argsOf level members ∧
      mismatch? (memberListItems "" members) = none := by
  cases document with
  | null | bool _ | number _ | string _ | array _ => cases h
  | object members =>
      obtain ⟨hfits, rfl⟩ := answerUnless_eq_ok.mp ((bindArgs_object level members).symm.trans h)
      exact ⟨members, rfl, rfl, hfits⟩

/-- Every handle in the arguments for a document was given out: there are none. -/
theorem gave_of_bindArgs (σ : Session) (h : document.bindArgs level = .ok args) :
    BindArg.AllEverywhere σ.Gave args := by
  obtain ⟨members, -, rfl, hfits⟩ := exists_of_bindArgs h
  have hsaid : SaidOfNames level σ.Gave fun _ => True :=
    ⟨fun _ _ => Iff.rfl, fun _ _ => Iff.rfl⟩
  exact (allEverywhere_argsOf_iff hsaid "" members hfits).mpr fun _ _ _ _ _ => trivial

/-- The arguments for a document are addressed by names. -/
theorem byName_of_bindArgs (h : document.bindArgs level = .ok args) :
    BindArg.AllEverywhere BindArg.ByName args := by
  obtain ⟨members, -, rfl, hfits⟩ := exists_of_bindArgs h
  have hsaid : SaidOfNames level BindArg.ByName fun _ => True :=
    ⟨fun _ _ => Iff.rfl, fun _ _ => Iff.rfl⟩
  exact (allEverywhere_argsOf_iff hsaid "" members hfits).mpr fun _ _ _ _ _ => trivial

/-- The names of the arguments for a document are those of its members that are not null. -/
theorem named_iff_of_bindArgs (h : document.bindArgs level = .ok args) :
    BindArg.AllEverywhere (fun arg => arg.name ≠ "") args ↔ ¬ document.HasEmptyName := by
  obtain ⟨members, rfl, rfl, hfits⟩ := exists_of_bindArgs h
  have hsaid : SaidOfNames level (fun arg => arg.name ≠ "") (· ≠ "") :=
    ⟨fun _ _ => Iff.rfl, fun _ _ => Iff.rfl⟩
  rw [allEverywhere_argsOf_iff hsaid "" members hfits, hasEmptyName_iff, not_not, objects]

end Json

namespace Session

section

variable [UrlReader] {σ : Session} {s : Schema}

/-- Binding to a schema of a session has an orderly end if handles were given out. -/
theorem Reached.bind_orderly (hσ : σ.Reached) (hs : s ∈ σ.schemas) {args : List BindArg}
    (hargs : BindArg.AllEverywhere σ.Gave args) : Orderly (s.bind args) := by
  intro e herror
  have hunderstood := Binding.understood hσ.valid hargs
  rcases Binding.bind_cases hs fun arg harg => (hunderstood arg harg).decided with
    ⟨-, vs, hok⟩ | ⟨f, -, hfailure⟩
  · rw [hok] at herror
    cases herror
  · exact ⟨f, Except.error.inj (herror.symm.trans hfailure)⟩

variable [Json.NumberWriter]

/-- **Binding a document.** Whatever the document and the schema, a schema of a session can be
bound to it with an orderly end. So can a schema on which its names are declared first, if it is
strict or if no member that is not null has the empty name; if one has, at any level, and the schema
is not strict, that is taken for a misuse. -/
theorem Reached.bind_document (hσ : σ.Reached) (hs : s ∈ σ.schemas) (document : Json)
    (level : TrustLevel) :
    Orderly (s.bindJson document level) ∧
    ∀ args, document.bindArgs level = .ok args →
      Orderly (s.bind args) ∧
      (s.strict = true ∨ ¬ document.HasEmptyName →
        Orderly ((Declaring.declareAndBind args).result ⟨s, σ.next⟩)) ∧
      (s.strict = false → document.HasEmptyName → ∃ m : Misuse, m.IsEmptyName ∧
        (Declaring.declareAndBind args).result ⟨s, σ.next⟩ = .error (.misuse m)) := by
  have hbind : ∀ args, document.bindArgs level = .ok args → Orderly (s.bind args) :=
    fun args hargs => hσ.bind_orderly hs (Json.gave_of_bindArgs σ hargs)
  refine ⟨?_, fun args hargs => ⟨hbind args hargs, fun hfine => ?_, fun hlax hempty => ?_⟩⟩
  · rw [Schema.bindJson]
    cases hargs : document.bindArgs level with
    | ok args => exact hbind args hargs
    | error e =>
        rintro _ ⟨⟩
        exact ⟨_, rfl⟩
  · cases hstrict : s.strict with
    | true =>
        rw [(@Declaring.declareAndBind_of_strict _ args ⟨s, σ.next⟩ hstrict).2]
        exact hbind args hargs
    | false =>
        have hnames := (Json.named_iff_of_bindArgs hargs).mpr
          (hfine.resolve_left (by simp [hstrict]))
        obtain ⟨-, ⟨⟨name, hresult⟩, -⟩ | ⟨-, ⟨vs, hresult⟩ | ⟨name, source, steps, hresult⟩⟩⟩ :=
          hσ.valid.declareAndBind_of_lax hs (Json.gave_of_bindArgs σ hargs) hnames hstrict
        · rw [hresult]
          rintro _ ⟨⟩
          exact ⟨_, rfl⟩
        · rw [hresult]
          rintro _ ⟨⟩
        · rw [hresult]
          rintro _ ⟨⟩
          exact ⟨_, rfl⟩
  · have hnot := (not_congr (Json.named_iff_of_bindArgs hargs)).mpr (not_not.mpr hempty)
    rcases Declaring.bindings_succeedsIff args (Json.byName_of_bindArgs hargs) ⟨s, σ.next⟩ with
      ⟨hnames, -⟩ | ⟨-, m, t, hm, hrun⟩
    · exact absurd hnames hnot
    · exact ⟨m, hm, (Declaring.declareAndBind_of_error (s := ⟨s, σ.next⟩) hlax hrun).2⟩

end

/-- A subtitle and a link whose label is `label`, with a member that has no name. -/
def linkDocument (label unnamed : Json) : Json :=
  .object [("links", .array [.object [("", unnamed), ("label", label)]]), ("subtitle", .string "s")]

/-- A member without a name that is null makes no difference to `openDirectory`, and one that is not
is taken for a misuse. -/
theorem bind_document_openDirectory :
    Orderly (openDirectory.bindJson (linkDocument .null (.bool true)) .untrusted) ∧
    (∃ args, (linkDocument (.string "home") .null).bindArgs .untrusted = .ok args ∧
      Orderly ((Declaring.declareAndBind args).result ⟨openDirectory, 3⟩)) ∧
    ∃ args, (linkDocument .null (.bool true)).bindArgs .untrusted = .ok args ∧
      ∃ m : Misuse, m.IsEmptyName ∧
        (Declaring.declareAndBind args).result ⟨openDirectory, 3⟩ = .error (.misuse m) := by
  have hbind := reached_withOpenDirectory.bind_document (s := openDirectory) List.mem_cons_self
  refine ⟨(hbind _ _).1, ⟨_, rfl, ?_⟩, ⟨_, rfl, ?_⟩⟩
  · exact ((hbind (linkDocument (.string "home") .null) .untrusted).2 _ rfl).2.1
      (.inr (by decide +kernel))
  · exact ((hbind (linkDocument .null (.bool true)) .untrusted).2 _ rfl).2.2 rfl (by decide +kernel)

/-- **The end is not always orderly.** The one member of a document has no name, and a new schema
takes it for a misuse. -/
theorem not_orderly_unnamed :
    ∃ args, (Json.object [("", .string "x")]).bindArgs .untrusted = .ok args ∧
      (Declaring.declareAndBind args).result (.newRoot 1) = .error (.misuse .emptyVarName) ∧
      ¬ Orderly ((Declaring.declareAndBind args).result (.newRoot 1)) := by
  refine ⟨_, rfl, rfl, fun horderly => ?_⟩
  obtain ⟨f, hf⟩ := horderly _ rfl
  cases hf

end Session

end TrustedHtml
