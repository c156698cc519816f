import TrustedHtml.Json.Reader
import TrustedHtml.Template.Options

/-!
# Layout Options in JSON

Options are written as an object with members named after them, or as a list of at most five
values in the order of their declaration. What is missing has the value of the compact
preset. Other members are passed over, but no option may be given twice.

## Main definitions

* `LayoutOptions.ofJson?` — the options that a text describes.
-/

namespace TrustedHtml.LayoutOptions

open Json (Reader)

/-- The options, in the order of their declaration. -/
inductive Field where
  | indent
  | compact
  | separate
  | textWidth
  | rootDepth
deriving DecidableEq, Repr

namespace Field

/-- All options, in the order of their declaration. -/
def all : List Field := [indent, compact, separate, textWidth, rootDepth]

/-- The member that gives an option. -/
def name : Field → String
  | indent => "indent"
  | compact => "compact"
  | separate => "separate_static_chunks"
  | textWidth => "text_width"
  | rootDepth => "root_depth"

/-- A number of characters or levels. -/
def count (cs : List Char) : Option (Nat × List Char) :=
  match Reader.number cs with
  | some (.natural n, rest) => some (n, rest)
  | _ => none

/-- Read the value of an option. -/
def read (field : Field) (o : LayoutOptions) : Reader LayoutOptions := fun cs =>
  match field with
  | indent => (Reader.string cs).map fun (s, rest) => ({ o with indent := s }, rest)
  | compact => (Reader.bool cs).map fun (b, rest) => ({ o with isCompact := b }, rest)
  | separate => (Reader.bool cs).map fun (b, rest) => ({ o with separate := b }, rest)
  | textWidth => (count cs).map fun (n, rest) => ({ o with textWidth := n }, rest)
  | rootDepth => (count cs).map fun (n, rest) => ({ o with rootDepth := n }, rest)

end Field

/-- Options while they are read, with the ones that have been given or are to come. -/
structure Partial where
  options : LayoutOptions
  fields : List Field

/-- Read the value of a member of an object; `fields` are the options given so far. -/
def Partial.member (p : Partial) (name : String) : Reader Partial := fun cs =>
  match Field.all.find? (·.name == name) with
  | some field =>
    if p.fields.contains field then none
    else (field.read p.options cs).map fun (o, rest) => (⟨o, field :: p.fields⟩, rest)
  | none => (Reader.skip cs).map fun (_, rest) => (p, rest)

/-- Read an item of a list; `fields` are the options to come. -/
def Partial.item (p : Partial) : Reader Partial := fun cs =>
  match p.fields with
  | field :: fields => (field.read p.options cs).map fun (o, rest) => (⟨o, fields⟩, rest)
  | [] => none

/-- The options that a text describes. -/
def ofJson? (text : String) : Option LayoutOptions :=
  let read : Reader Partial := fun cs =>
    match cs with
    | '[' :: _ => Reader.list Partial.item ⟨LayoutOptions.compact, Field.all⟩ cs
    | _ => Reader.members Reader.string Partial.member ⟨LayoutOptions.compact, []⟩ cs
  (Reader.run read text).map (·.options)

end TrustedHtml.LayoutOptions
