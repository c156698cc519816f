/-!
# Trust Levels

A string carries the level of validation it has received, and a place in a page carries the
level it requires. `Untrusted` requires nothing, `FullyTrusted` is reserved for text that is
part of the program, and the four levels between them are pairwise unrelated: two different
ones can only be met together by full trust.

## Main definitions

* `TrustLevel` — the six levels.
* `TrustLevel.join` — the weakest level that meets two requirements.
* `TrustLevel.name`, `TrustLevel.ofName?` — the written form, read without regard to case.
-/

namespace TrustedHtml

/-- How much validation a string has received, or a place requires. -/
inductive TrustLevel where
  /-- Must not appear in a page without escaping. -/
  | untrusted
  /-- Can be inserted as HTML. -/
  | htmlSafe
  /-- Can be inserted as text: it holds no tags. -/
  | textSafe
  /-- Can be inserted into attributes that hold a URL. -/
  | urlSafe
  /-- Can be inserted into most attributes. -/
  | attributeSafe
  /-- Part of the program, can be inserted anywhere. -/
  | fullyTrusted
deriving DecidableEq, Repr, Inhabited

namespace TrustLevel

/-- All levels, in the order in which they are listed. -/
def all : List TrustLevel :=
  [untrusted, htmlSafe, textSafe, urlSafe, attributeSafe, fullyTrusted]

/-- The weakest level that meets both requirements. -/
def join (a b : TrustLevel) : TrustLevel :=
  if a = b then a
  else if a = untrusted then b
  else if b = untrusted then a
  else fullyTrusted

/-- The written form of a level. -/
def name : TrustLevel → String
  | untrusted => "Untrusted"
  | htmlSafe => "HTMLSafe"
  | textSafe => "TextSafe"
  | urlSafe => "URLSafe"
  | attributeSafe => "AttributeSafe"
  | fullyTrusted => "FullyTrusted"

instance : ToString TrustLevel := ⟨name⟩

/-- The lower-case form of a letter of the ASCII range; every other character is itself. -/
def foldCase (text : String) : List Char :=
  text.toList.map Char.toLower

/-- The level with the given name, in any mixture of upper and lower case. -/
def ofName? (text : String) : Option TrustLevel :=
  all.find? fun level => foldCase level.name == foldCase text

/-! ### `join` is a semilattice with least element `untrusted` -/

theorem join_self (a : TrustLevel) : a.join a = a := by
  simp [join]

theorem untrusted_join (a : TrustLevel) : untrusted.join a = a := by
  cases a <;> rfl

theorem join_untrusted (a : TrustLevel) : a.join untrusted = a := by
  cases a <;> rfl

theorem join_comm (a b : TrustLevel) : a.join b = b.join a := by
  cases a <;> cases b <;> rfl

theorem join_assoc (a b c : TrustLevel) : (a.join b).join c = a.join (b.join c) := by
  cases a <;> cases b <;> cases c <;> rfl

end TrustLevel

end TrustedHtml
