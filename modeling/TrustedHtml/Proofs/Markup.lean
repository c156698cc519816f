import TrustedHtml.Node.Basic
import TrustedHtml.Proofs.Delimiters
import TrustedHtml.Template.Compile

/-!
# Reading Markup

Whether the markup of a page is unambiguous is a question about those who read it. This module
has a plain reader: a tag runs from `<` to the next `>` that is not between double quotes,
everything else is text, and entities are replaced where a text or the value of an attribute
has been read. It knows nothing of templates, of trust or of the names of elements.

What it reads are events: tags that open and close elements, and the texts between them. Events
have a written form, with texts and values encoded, and reading the written form gives the
events back, except that texts that follow each other run together and empty ones vanish.

## Main definitions

* `Entity.decode` — entities replaced by their characters, in one pass from the left.
* `Markup.Event` — tags and texts.
* `Markup.read` — the events that a text is read as.
* `Markup.merge` — events as they can be told apart.

## Main results

* `Entity.decode_encode`: decoding undoes encoding.
* `Markup.read_write`: **reading undoes writing**, up to the borders between texts.
-/

namespace TrustedHtml

/-! ### Entities -/

namespace Entity

/-- Characters with every entity replaced, in one pass from the left. -/
def decodeChars : List Char → List Char
  | '&' :: 'a' :: 'm' :: 'p' :: ';' :: rest => '&' :: decodeChars rest
  | '&' :: 'l' :: 't' :: ';' :: rest => '<' :: decodeChars rest
  | '&' :: 'g' :: 't' :: ';' :: rest => '>' :: decodeChars rest
  | '&' :: 'q' :: 'u' :: 'o' :: 't' :: ';' :: rest => '"' :: decodeChars rest
  | '&' :: '#' :: '3' :: '9' :: ';' :: rest => '\'' :: decodeChars rest
  | c :: rest => c :: decodeChars rest
  | [] => []

/-- The text with every entity replaced by its character. -/
def decode (text : String) : String :=
  String.ofList (decodeChars text.toList)

/-- A character that begins no entity stands for itself. -/
theorem decodeChars_cons {c : Char} (h : c ≠ '&') (rest : List Char) :
    decodeChars (c :: rest) = c :: decodeChars rest := by
  rw [decodeChars] <;> rintro _ rfl <;> exact absurd rfl h

/-- What a character is written as stands for the character. -/
theorem decodeChars_encodeChar (c : Char) (rest : List Char) :
    decodeChars (encodeChar c ++ rest) = c :: decodeChars rest := by
  rw [encodeChar]
  split
  · rename_i entity hentity
    rw [ofChar?.eq_def] at hentity
    split at hentity <;> cases hentity <;> rfl
  · rename_i hnone
    have hplain : c ≠ '&' := by
      rintro rfl
      cases hnone
    exact decodeChars_cons hplain rest

/-- Decoding undoes encoding, character by character. -/
theorem decodeChars_flatMap_encodeChar (cs : List Char) :
    decodeChars (cs.flatMap encodeChar) = cs := by
  induction cs with
  | nil => rfl
  | cons c rest ih => rw [List.flatMap_cons, decodeChars_encodeChar, ih]

/-- **Decoding undoes encoding.** -/
theorem decode_encode (text : String) : decode (encode text) = text := by
  rw [decode, encode, String.toList_ofList, decodeChars_flatMap_encodeChar, String.ofList_toList]

end Entity

namespace Markup

/-! ### Events -/

/-- A tag or a text. -/
inductive Event where
  /-- A tag that opens an element, and whether it is written with a slash at its end. -/
  | opening (name : String) (attributes : List (String × String)) (slash : Bool)
  | closing (name : String)
  | text (content : String)
deriving DecidableEq, Repr

/-- Put a text in front of events: it runs together with a text that is there, and nothing is
put there if it is empty. -/
def prependText (content : String) : List Event → List Event
  | .text next :: rest => .text (content ++ next) :: rest
  | events => if content = "" then events else .text content :: events

/-- Events with texts that follow each other run together, and without empty ones. -/
def merge : List Event → List Event
  | [] => []
  | .text content :: rest => prependText content (merge rest)
  | tag :: rest => tag :: merge rest

/-! ### Tokens -/

/-- What lies between the delimiters of a tag, or outside of them. -/
inductive Token where
  | tag (content : List Char)
  | text (content : List Char)
deriving DecidableEq, Repr

/-- The token for a text, unless it is empty. -/
def Token.ofText (content : List Char) : List Token :=
  if content.isEmpty then [] else [.text content]

mutual

/-- The tokens of a text that is read outside of tags, where `done` has been read. -/
def tokensInText (done : List Char) : List Char → Option (List Token)
  | [] => some (Token.ofText done)
  | c :: rest =>
    if c = '<' then (tokensInTag false [] rest).map (Token.ofText done ++ ·)
    else tokensInText (done ++ [c]) rest

/-- The tokens of a text that is read inside of a tag, where `done` has been read. -/
def tokensInTag (quoted : Bool) (done : List Char) : List Char → Option (List Token)
  | [] => none
  | c :: rest =>
    if c = '>' ∧ quoted = false then (tokensInText [] rest).map (.tag done :: ·)
    else tokensInTag (if c = '"' then !quoted else quoted) (done ++ [c]) rest

end

/-! ### Tags -/

mutual

/-- The attributes at the end of a tag, and whether there is a slash behind them. -/
def readAttributes : List Char → Option (List (String × String) × Bool)
  | [] => some ([], false)
  | ['/'] => some ([], true)
  | ' ' :: rest => readName [] rest
  | _ => none

/-- An attribute whose name has begun with `name`, and those behind it. -/
def readName (name : List Char) : List Char → Option (List (String × String) × Bool)
  | '=' :: '"' :: rest => readValue name [] rest
  | c :: rest => readName (name ++ [c]) rest
  | [] => none

/-- An attribute whose value has begun with `value`, and those behind it. -/
def readValue (name value : List Char) : List Char → Option (List (String × String) × Bool)
  | '"' :: rest =>
    (readAttributes rest).map fun (later, slash) =>
      ((String.ofList name, String.ofList (Entity.decodeChars value)) :: later, slash)
  | c :: rest => readValue name (value ++ [c]) rest
  | [] => none

end

/-- The event that a tag is read as. -/
def readTag : List Char → Option Event
  | '/' :: name => some (.closing (String.ofList name))
  | content =>
    (readAttributes (content.dropWhile isNameChar)).map fun (attributes, slash) =>
      .opening (String.ofList (content.takeWhile isNameChar)) attributes slash

/-- The event that a token is read as. -/
def Token.read : Token → Option Event
  | .tag content => readTag content
  | .text content => some (.text (String.ofList (Entity.decodeChars content)))

/-- **The events that a text is read as**, if it can be read. -/
def read (text : String) : Option (List Event) := do
  (← tokensInText [] text.toList).mapM Token.read

/-! ### Writing -/

/-- The written form of an attribute. -/
def attributeChars (a : String × String) : List Char :=
  ' ' :: a.1.toList ++ '=' :: '"' :: a.2.toList.flatMap Entity.encodeChar ++ ['"']

/-- What stands between the delimiters of a tag that opens an element. -/
def openingChars (name : String) (attributes : List (String × String)) (slash : Bool) :
    List Char :=
  name.toList ++ (attributes.flatMap attributeChars ++ if slash then ['/'] else [])

namespace Event

/-- The characters of the written form of an event. -/
def chars : Event → List Char
  | .opening name attributes slash => '<' :: (openingChars name attributes slash ++ ['>'])
  | .closing name => '<' :: ('/' :: name.toList ++ ['>'])
  | .text content => content.toList.flatMap Entity.encodeChar

/-- The written form of an event. -/
def write (event : Event) : String :=
  String.ofList event.chars

/-- The names of an event can be told from what stands around them. -/
def IsPlain : Event → Prop
  | .opening name attributes _ =>
    name ≠ "" ∧ name.toList.all isNameChar ∧ ∀ a ∈ attributes, a.1.toList.all isNameChar
  | .closing name => name.toList.all isNameChar
  | .text _ => True

end Event

/-! ### Reading what is written -/

/-- A text that opens no tag is read as a part of the text. -/
theorem tokensInText_append {cs : List Char} (h : ∀ c ∈ cs, c ≠ '<') (done rest : List Char) :
    tokensInText done (cs ++ rest) = tokensInText (done ++ cs) rest := by
  induction cs generalizing done with
  | nil => simp
  | cons c cs ih =>
      obtain ⟨hc, hcs⟩ := List.forall_mem_cons.mp h
      rw [List.cons_append, tokensInText, if_neg hc, ih hcs, List.append_assoc]
      rfl

/-- The beginning of a tag ends a text. -/
theorem tokensInText_open (done rest : List Char) :
    tokensInText done ('<' :: rest) =
      (tokensInTag false [] rest).map (Token.ofText done ++ ·) := by
  rw [tokensInText, if_pos rfl]

/-- A text that ends no tag and begins no quotation is read as a part of the tag. -/
theorem tokensInTag_append {cs : List Char} (h : ∀ c ∈ cs, c ≠ '>' ∧ c ≠ '"')
    (done rest : List Char) :
    tokensInTag false done (cs ++ rest) = tokensInTag false (done ++ cs) rest := by
  induction cs generalizing done with
  | nil => simp
  | cons c cs ih =>
      obtain ⟨⟨hc, hquote⟩, hcs⟩ := List.forall_mem_cons.mp h
      rw [List.cons_append, tokensInTag, if_neg (fun hend => hc hend.1), if_neg hquote, ih hcs,
        List.append_assoc]
      rfl

/-- A quotation mark in a tag begins a quotation. -/
theorem tokensInTag_quote (done rest : List Char) :
    tokensInTag false done ('"' :: rest) = tokensInTag true (done ++ ['"']) rest := by
  rw [tokensInTag, if_neg (by decide), if_pos rfl, Bool.not_false]

/-- A quotation is read as a part of the tag. -/
theorem tokensInTag_quoted {cs : List Char} (h : ∀ c ∈ cs, c ≠ '"') (done rest : List Char) :
    tokensInTag true done (cs ++ '"' :: rest) = tokensInTag false (done ++ (cs ++ ['"'])) rest := by
  induction cs generalizing done with
  | nil =>
      rw [List.nil_append, tokensInTag, if_neg (by decide), if_pos rfl]
      rfl
  | cons c cs ih =>
      obtain ⟨hc, hcs⟩ := List.forall_mem_cons.mp h
      rw [List.cons_append, tokensInTag, if_neg (by simp), if_neg hc, ih hcs, List.append_assoc]
      rfl

/-- A character of a name is none of the characters that structure a tag. -/
theorem ne_of_isNameChar {c : Char} (h : isNameChar c = true) :
    c ≠ '<' ∧ c ≠ '>' ∧ c ≠ '"' ∧ c ≠ '=' ∧ c ≠ ' ' ∧ c ≠ '/' := by
  refine ⟨?_, ?_, ?_, ?_, ?_, ?_⟩ <;> (rintro rfl; exact absurd h (by decide))

/-- An encoded text opens no tag and ends no quotation. -/
theorem ne_of_mem_encode {cs : List Char} {d : Char} (h : d ∈ cs.flatMap Entity.encodeChar) :
    d ≠ '<' ∧ d ≠ '"' := by
  obtain ⟨c, -, hd⟩ := List.mem_flatMap.mp h
  have hplain := Entity.not_isDelimiter_of_mem_encodeChar hd
  constructor <;> (rintro rfl; exact absurd hplain (by decide))

/-- Only the empty text is encoded as nothing. -/
theorem encode_isEmpty (cs : List Char) :
    (cs.flatMap Entity.encodeChar).isEmpty = cs.isEmpty := by
  cases cs with
  | nil => rfl
  | cons c rest =>
      have hne : Entity.encodeChar c ≠ [] := by
        intro hnil
        have hdecode := Entity.decodeChars_encodeChar c []
        rw [hnil] at hdecode
        cases hdecode
      simp [hne]

/-- An attribute is read as a part of its tag. -/
theorem tokensInTag_attribute {a : String × String} (h : a.1.toList.all isNameChar = true)
    (done rest : List Char) :
    tokensInTag false done (attributeChars a ++ rest) =
      tokensInTag false (done ++ attributeChars a) rest := by
  have hname : ∀ c ∈ (' ' :: a.1.toList) ++ ['='], c ≠ '>' ∧ c ≠ '"' := by
    intro c hc
    simp only [List.cons_append, List.mem_cons, List.mem_append, List.not_mem_nil,
      or_false] at hc
    rcases hc with rfl | hc | rfl
    · decide
    · obtain ⟨-, hend, hquote, -⟩ := ne_of_isNameChar (List.all_eq_true.mp h c hc)
      exact ⟨hend, hquote⟩
    · decide
  have hvalue : ∀ c ∈ a.2.toList.flatMap Entity.encodeChar, c ≠ '"' :=
    fun c hc => (ne_of_mem_encode hc).2
  have hsplit : attributeChars a = ((' ' :: a.1.toList) ++ ['=']) ++
      ('"' :: (a.2.toList.flatMap Entity.encodeChar ++ ['"'])) := by
    simp [attributeChars]
  have hrest : '"' :: (a.2.toList.flatMap Entity.encodeChar ++ ['"']) ++ rest =
      '"' :: (a.2.toList.flatMap Entity.encodeChar ++ '"' :: rest) := by
    simp
  rw [hsplit, List.append_assoc, tokensInTag_append hname, hrest, tokensInTag_quote,
    tokensInTag_quoted hvalue]
  simp

/-- Attributes are read as a part of their tag. -/
theorem tokensInTag_attributes {attributes : List (String × String)}
    (h : ∀ a ∈ attributes, a.1.toList.all isNameChar = true) (done rest : List Char) :
    tokensInTag false done (attributes.flatMap attributeChars ++ rest) =
      tokensInTag false (done ++ attributes.flatMap attributeChars) rest := by
  induction attributes generalizing done with
  | nil => simp
  | cons a later ih =>
      obtain ⟨ha, hlater⟩ := List.forall_mem_cons.mp h
      rw [List.flatMap_cons, List.append_assoc, tokensInTag_attribute ha, ih hlater,
        List.append_assoc]

/-- The end of a tag ends it. -/
theorem tokensInTag_end (done rest : List Char) :
    tokensInTag false done ('>' :: rest) = (tokensInText [] rest).map (.tag done :: ·) := by
  rw [tokensInTag, if_pos ⟨rfl, rfl⟩]

/-- A tag that opens an element is one token. -/
theorem tokensInTag_opening {name : String} {attributes : List (String × String)}
    (hname : name.toList.all isNameChar = true)
    (hattributes : ∀ a ∈ attributes, a.1.toList.all isNameChar = true) (slash : Bool)
    (rest : List Char) :
    tokensInTag false [] (openingChars name attributes slash ++ '>' :: rest) =
      (tokensInText [] rest).map (.tag (openingChars name attributes slash) :: ·) := by
  have hplain : ∀ c ∈ name.toList, c ≠ '>' ∧ c ≠ '"' := by
    intro c hc
    obtain ⟨-, hend, hquote, -⟩ := ne_of_isNameChar (List.all_eq_true.mp hname c hc)
    exact ⟨hend, hquote⟩
  have hslash : ∀ c ∈ (if slash then ['/'] else [] : List Char), c ≠ '>' ∧ c ≠ '"' := by
    cases slash <;> simp
  rw [openingChars, List.append_assoc, tokensInTag_append hplain, List.append_assoc,
    tokensInTag_attributes hattributes, tokensInTag_append hslash, tokensInTag_end]
  simp

/-- The name of an attribute is read up to its end. -/
theorem readName_append {cs : List Char} (h : cs.all isNameChar = true) (name rest : List Char) :
    readName name (cs ++ '=' :: '"' :: rest) = readValue (name ++ cs) [] rest := by
  induction cs generalizing name with
  | nil =>
      rw [List.nil_append, readName, List.append_nil]
  | cons c cs ih =>
      rw [List.all_cons, Bool.and_eq_true] at h
      obtain ⟨-, -, -, heq, -⟩ := ne_of_isNameChar h.1
      have hstep : readName name (c :: (cs ++ '=' :: '"' :: rest)) =
          readName (name ++ [c]) (cs ++ '=' :: '"' :: rest) := by
        rw [readName]
        rintro _ rfl
        exact absurd rfl heq
      rw [List.cons_append, hstep, ih h.2, List.append_assoc]
      rfl

/-- The value of an attribute is read up to its end. -/
theorem readValue_append {cs : List Char} (h : ∀ c ∈ cs, c ≠ '"')
    (name value rest : List Char) :
    readValue name value (cs ++ '"' :: rest) =
      (readAttributes rest).map fun (later, slash) =>
        ((String.ofList name, String.ofList (Entity.decodeChars (value ++ cs))) :: later,
          slash) := by
  induction cs generalizing value with
  | nil => rw [List.nil_append, readValue, List.append_nil]
  | cons c cs ih =>
      obtain ⟨hc, hcs⟩ := List.forall_mem_cons.mp h
      have hstep : readValue name value (c :: (cs ++ '"' :: rest)) =
          readValue name (value ++ [c]) (cs ++ '"' :: rest) := by
        rw [readValue]
        rintro rfl
        exact absurd rfl hc
      rw [List.cons_append, hstep, ih hcs, List.append_assoc]
      rfl

/-- Attributes are read as they were written. -/
theorem readAttributes_write {attributes : List (String × String)}
    (h : ∀ a ∈ attributes, a.1.toList.all isNameChar = true) (slash : Bool) :
    readAttributes (attributes.flatMap attributeChars ++ if slash then ['/'] else []) =
      some (attributes, slash) := by
  induction attributes with
  | nil => cases slash <;> rfl
  | cons a later ih =>
      obtain ⟨ha, hlater⟩ := List.forall_mem_cons.mp h
      have hvalue : ∀ c ∈ a.2.toList.flatMap Entity.encodeChar, c ≠ '"' :=
        fun c hc => (ne_of_mem_encode hc).2
      have hstep : ∀ rest, readAttributes (attributeChars a ++ rest) =
          (readAttributes rest).map fun (later, slash) => (a :: later, slash) := by
        intro rest
        have hsplit : attributeChars a ++ rest = ' ' :: (a.1.toList ++ '=' :: '"' ::
            (a.2.toList.flatMap Entity.encodeChar ++ '"' :: rest)) := by
          simp [attributeChars]
        rw [hsplit, readAttributes, readName_append ha, readValue_append hvalue, List.nil_append,
          List.nil_append, Entity.decodeChars_flatMap_encodeChar, String.ofList_toList,
          String.ofList_toList]
      rw [List.flatMap_cons, List.append_assoc, hstep, ih hlater]
      rfl

/-- Behind the name of an element there is no character of a name. -/
theorem span_openingChars {name : String} (hname : name.toList.all isNameChar = true)
    (attributes : List (String × String)) (slash : Bool) :
    (openingChars name attributes slash).takeWhile isNameChar = name.toList ∧
      (openingChars name attributes slash).dropWhile isNameChar =
        attributes.flatMap attributeChars ++ if slash then ['/'] else [] := by
  have hhead : ∀ rest : List Char, rest = attributes.flatMap attributeChars ++
      (if slash then ['/'] else []) → rest.takeWhile isNameChar = [] ∧
        rest.dropWhile isNameChar = rest := by
    rintro rest rfl
    cases attributes with
    | nil => cases slash <;> exact ⟨rfl, rfl⟩
    | cons a later =>
        have hspace : isNameChar ' ' = false := by decide
        simp [attributeChars, hspace]
  obtain ⟨htake, hdrop⟩ := hhead _ rfl
  rw [openingChars, List.takeWhile_append_of_pos (List.all_eq_true.mp hname),
    List.dropWhile_append_of_pos (List.all_eq_true.mp hname), htake, hdrop, List.append_nil]
  exact ⟨rfl, rfl⟩

/-- A tag that opens an element is read as it was written. -/
theorem readTag_openingChars {name : String} {attributes : List (String × String)}
    (hne : name ≠ "") (hname : name.toList.all isNameChar = true)
    (hattributes : ∀ a ∈ attributes, a.1.toList.all isNameChar = true) (slash : Bool) :
    readTag (openingChars name attributes slash) = some (.opening name attributes slash) := by
  obtain ⟨htake, hdrop⟩ := span_openingChars hname attributes slash
  have hslash : ∀ rest, openingChars name attributes slash ≠ '/' :: rest := by
    intro rest heq
    cases hchars : name.toList with
    | nil => exact hne (String.toList_eq_nil_iff.mp hchars)
    | cons c cs =>
        rw [openingChars, hchars, List.cons_append] at heq
        obtain rfl : c = '/' := (List.cons.inj heq).1
        rw [hchars] at hname
        cases hname
  rw [readTag.eq_def]
  split
  · rename_i rest heq
    exact absurd heq (hslash rest)
  · rw [htake, hdrop, readAttributes_write hattributes, String.ofList_toList]
    rfl

/-! ### Merging -/

/-- Texts that are put in front one after the other are put there as one. -/
theorem prependText_prependText (s t : String) (events : List Event) :
    prependText s (prependText t events) = prependText (s ++ t) events := by
  have hplain : ∀ rest : List Event, (∀ next later, rest ≠ .text next :: later) →
      ∀ content, prependText content rest =
        if content = "" then rest else .text content :: rest := by
    intro rest hrest content
    rw [prependText]
    intro next later heq
    exact hrest next later heq
  by_cases htext : ∃ next later, events = .text next :: later
  · obtain ⟨next, later, rfl⟩ := htext
    rw [prependText, prependText, prependText, String.append_assoc]
  · have hrest : ∀ next later, events ≠ .text next :: later :=
      fun next later heq => htext ⟨next, later, heq⟩
    rw [hplain events hrest, hplain events hrest]
    by_cases ht : t = ""
    · rw [if_pos ht, hplain events hrest, ht, String.append_empty]
    · have hst : s ++ t ≠ "" := fun heq => ht (String.append_eq_empty_iff.mp heq).2
      rw [if_neg ht, if_neg hst, prependText]

/-- The empty text is put nowhere. -/
theorem prependText_empty (events : List Event) : prependText "" events = events := by
  rw [prependText.eq_def]
  split
  · rw [String.empty_append]
  · rw [if_pos rfl]

/-- The tokens in front of a tag are read as the text in front of it. -/
theorem mapM_read_ofText (content : String) (tokens : List Token) :
    (Token.ofText (content.toList.flatMap Entity.encodeChar) ++ tokens).mapM Token.read =
      (tokens.mapM Token.read).map
        fun events => (if content = "" then [] else [.text content]) ++ events := by
  rw [Token.ofText, encode_isEmpty]
  by_cases hcontent : content = ""
  · subst hcontent
    simp
  · have hne : content.toList.isEmpty = false := by
      rw [List.isEmpty_eq_false_iff]
      exact fun hnil => hcontent (String.toList_eq_nil_iff.mp hnil)
    have hread : Token.read (.text (content.toList.flatMap Entity.encodeChar)) =
        some (.text content) := by
      rw [Token.read, Entity.decodeChars_flatMap_encodeChar, String.ofList_toList]
    rw [hne, if_neg hcontent, if_neg (by decide), List.singleton_append, List.mapM_cons, hread]
    cases tokens.mapM Token.read <;> rfl

/-- **A tag is read behind the text in front of it.** -/
theorem read_tag {event : Event} {content : List Char} (hread : readTag content = some event)
    (hevent : ∀ next, event ≠ .text next) {tokens : Option (List Token)} {events : List Event}
    (htokens : tokens.bind (·.mapM Token.read) = some events) (text : String) :
    ((tokens.map (.tag content :: ·)).map
      (Token.ofText (text.toList.flatMap Entity.encodeChar) ++ ·)).bind (·.mapM Token.read) =
      some (prependText text (event :: events)) := by
  obtain ⟨found, rfl, hfound⟩ := Option.bind_eq_some_iff.mp htokens
  have hprepend : prependText text (event :: events) =
      (if text = "" then [] else [.text text]) ++ event :: events := by
    rw [prependText]
    · split <;> rfl
    · rintro next later heq
      exact hevent next (List.cons.inj heq).1
  have htag : (Token.tag content :: found).mapM Token.read = some (event :: events) := by
    rw [List.mapM_cons, Token.read, hread, hfound]
    rfl
  rw [Option.map_some, Option.map_some, Option.bind_some, mapM_read_ofText, htag, hprepend]
  rfl

/-- Events are read behind a text as they were written. -/
theorem readTokens_write {events : List Event} (h : ∀ event ∈ events, event.IsPlain)
    (text : String) :
    (tokensInText (text.toList.flatMap Entity.encodeChar) (events.flatMap Event.chars)).bind
      (·.mapM Token.read) = some (prependText text (merge events)) := by
  induction events generalizing text with
  | nil =>
      have hread := mapM_read_ofText text []
      rw [List.append_nil] at hread
      rw [List.flatMap_nil, tokensInText, Option.bind_some, hread, merge, prependText]
      · split <;> rfl
      · rintro _ _ heq
        cases heq
  | cons event rest ih =>
      obtain ⟨hplain, hrest⟩ := List.forall_mem_cons.mp h
      rw [List.flatMap_cons]
      cases event with
      | text content =>
          have hopen : ∀ c ∈ content.toList.flatMap Entity.encodeChar, c ≠ '<' :=
            fun c hc => (ne_of_mem_encode hc).1
          rw [Event.chars, tokensInText_append hopen, ← List.flatMap_append,
            ← String.toList_append, ih hrest, merge, prependText_prependText]
      | opening name attributes slash =>
          obtain ⟨hne, hname, hattributes⟩ := hplain
          have hlater := ih hrest ""
          rw [prependText_empty] at hlater
          rw [Event.chars, List.cons_append, List.append_assoc, List.singleton_append,
            tokensInText_open, tokensInTag_opening hname hattributes, merge]
          · exact read_tag (readTag_openingChars hne hname hattributes slash) (by nofun) hlater text
          · nofun
      | closing name =>
          have hclosing : ∀ c ∈ '/' :: name.toList, c ≠ '>' ∧ c ≠ '"' := by
            intro c hc
            rcases List.mem_cons.mp hc with rfl | hc
            · decide
            · obtain ⟨-, hend, hquote, -⟩ := ne_of_isNameChar (List.all_eq_true.mp hplain c hc)
              exact ⟨hend, hquote⟩
          have hlater := ih hrest ""
          rw [prependText_empty] at hlater
          have hread : readTag ('/' :: name.toList) = some (.closing name) := by
            rw [readTag, String.ofList_toList]
          rw [Event.chars, List.cons_append, List.append_assoc, List.singleton_append,
            tokensInText_open, tokensInTag_append hclosing, tokensInTag_end, List.nil_append,
            merge]
          · exact read_tag hread (by nofun) hlater text
          · nofun

/-- **Reading undoes writing**, except that texts that follow each other run together and empty
ones vanish. -/
theorem read_write {events : List Event} (h : ∀ event ∈ events, event.IsPlain) :
    read (String.join (events.map Event.write)) = some (merge events) := by
  have hchars : (String.join (events.map Event.write)).toList = events.flatMap Event.chars := by
    rw [String.toList_join, List.flatMap_map]
    simp [Event.write]
  have hread := readTokens_write h ""
  rw [prependText_empty] at hread
  rw [read, hchars]
  exact hread

end Markup

end TrustedHtml
