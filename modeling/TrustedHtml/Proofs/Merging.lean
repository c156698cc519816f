import Mathlib.Data.List.Chain
import TrustedHtml.Proofs.Assembly
import TrustedHtml.Proofs.ParallelRuns
import TrustedHtml.Url.Web

/-!
# Merged Static Text

Static text is written to the end of what is being assembled, and it becomes a chunk when a step
follows or the program ends. So if it is not to be left in pieces, no two chunks of static text
stand next to each other, in a program or in any that is nested in it: `Program.IsMerged`.

What is left in pieces can be merged later. `Program.merge` joins every run of static texts to one
chunk, at every level. It is a fold of `Program.fuseFront`, which puts one chunk in front of a
program, and what it makes of two programs one after the other depends on what it makes of each.
Writing a text therefore has the same effect on the merged program whether the text is joined to
the one before it or not. Only a fresh line looks back at how texts were cut, and the compact
layout has none.

## Main definitions

* `Program.IsMerged`: no two static texts next to each other, at any level.
* `Program.merge`: every run of static texts joined to one.

## Main results

* `Program.isMerged_merge`, `Program.merge_eq_self`: what merging yields, and where it does nothing.
* `Program.assembles_isMerged`: text that is not left in pieces is merged.
* `Program.assembles_sameMerged`: text in pieces, once merged, is the text that was merged at once.
* `Node.compile_merged`: **static text is maximally merged.**
-/

namespace TrustedHtml

/-! ### Programs with merged text -/

/-- The programs in a chunk: the prototype of a subsection, the outputs of cases, the default. -/
inductive Chunk.Nests : Chunk → Program → Prop
  | subsection {t : Tag} {program : Program} : Nests (.subsection t program) program
  | case {cases : List (Condition × Option Program)} {default : Option Program}
      {condition : Condition} {program : Program} (hmem : (condition, some program) ∈ cases) :
      Nests (.switch cases default) program
  | default {cases : List (Condition × Option Program)} {program : Program} :
      Nests (.switch cases (some program)) program

/-- Chunks that are not both static text. -/
def Chunk.Apart (chunk chunk' : Chunk) : Prop :=
  chunk.isStatic = false ∨ chunk'.isStatic = false

/-- **Programs with merged text**: no two chunks next to each other are both static text, and so it
is in the programs that are nested in them. -/
inductive Program.IsMerged : Program → Prop
  | intro {program : Program} (hchain : program.IsChain Chunk.Apart)
      (hnested : ∀ chunk ∈ program, ∀ inner, chunk.Nests inner → IsMerged inner) :
      IsMerged program

namespace Program

/-! ### Merging -/

/-- Put a chunk in front of a program, joining static texts. -/
def fuseFront : Chunk → Program → Program
  | .static text, .static later :: rest => .static (text ++ later) :: rest
  | chunk, rest => chunk :: rest

/-- Put a program in front of another one, joining static texts. -/
def fuse (program rest : Program) : Program :=
  program.foldr fuseFront rest

mutual

/-- Join every run of static texts to one chunk, at every level. -/
def merge : List Chunk → List Chunk
  | [] => []
  | chunk :: rest => fuseFront (mergeChunk chunk) (merge rest)

/-- Merge the programs in a chunk. -/
def mergeChunk : Chunk → Chunk
  | .static text => .static text
  | .scalar v reflow => .scalar v reflow
  | .subsection t program => .subsection t (merge program)
  | .switch cases default => .switch (mergeCases cases) (mergeOutput default)

/-- Merge the programs of cases. -/
def mergeCases :
    List (Condition × Option (List Chunk)) → List (Condition × Option (List Chunk))
  | [] => []
  | (condition, output) :: rest => (condition, mergeOutput output) :: mergeCases rest

/-- Merge the program of an alternative. -/
def mergeOutput : Option (List Chunk) → Option (List Chunk)
  | none => none
  | some program => some (merge program)

end

variable {program rest : Program} {chunk : Chunk} {f : SchemaId → SchemaId}

/-- A chunk is put in front of one that it is not joined to. -/
theorem fuseFront_of_apart (h : ∀ first ∈ program.head?, chunk.Apart first) :
    fuseFront chunk program = chunk :: program := by
  cases chunk with
  | scalar | subsection | switch => rfl
  | static text =>
      obtain _ | ⟨first, rest⟩ := program
      · rfl
      · cases first with
        | scalar | subsection | switch => rfl
        | static later =>
            obtain hstatic | hstatic := h _ rfl
            · cases hstatic
            · cases hstatic

/-- A text in front of a program is put there in parts. -/
theorem fuseFront_static_append (text later : String) (rest : Program) :
    fuseFront (.static (text ++ later)) rest =
      fuseFront (.static text) (fuseFront (.static later) rest) := by
  obtain _ | ⟨chunk, rest⟩ := rest
  · rfl
  · cases chunk with
    | static last => simp [fuseFront, String.append_assoc]
    | scalar | subsection | switch => rfl

/-- A chunk that is fused to a program is in front of what follows the program. -/
theorem fuse_fuseFront (chunk : Chunk) (program rest : Program) :
    fuse (fuseFront chunk program) rest = fuseFront chunk (fuse program rest) := by
  obtain _ | ⟨first, program⟩ := program
  · cases chunk <;> rfl
  · cases chunk with
    | static text =>
        cases first with
        | static later => exact fuseFront_static_append text later (fuse program rest)
        | scalar | subsection | switch => rfl
    | scalar | subsection | switch => rfl

/-- The first chunk of a program is fused last. -/
theorem fuse_cons (chunk : Chunk) (program rest : Program) :
    fuse (chunk :: program) rest = fuseFront chunk (fuse program rest) := rfl

/-- Fusing is associative. -/
theorem fuse_assoc (program middle rest : Program) :
    fuse (fuse program middle) rest = fuse program (fuse middle rest) := by
  induction program with
  | nil => rfl
  | cons chunk program ih =>
      rw [fuse_cons, fuse_cons, fuse_fuseFront, ih]

/-- What merging makes of two programs depends on what it makes of each. -/
theorem merge_append (program rest : Program) :
    merge (program ++ rest) = fuse (merge program) (merge rest) := by
  induction program with
  | nil => rfl
  | cons chunk program ih => rw [List.cons_append, merge, merge, ih, fuse_fuseFront]

/-- Cases are merged one by one. -/
theorem mergeCases_eq_map (cases : List (Condition × Option Program)) :
    mergeCases cases = cases.map fun c => (c.1, mergeOutput c.2) := by
  induction cases with
  | nil => rfl
  | cons first rest ih => rw [mergeCases, ih, List.map_cons]

/-- A single chunk is merged inside. -/
theorem merge_singleton (chunk : Chunk) : merge [chunk] = [mergeChunk chunk] := by
  rw [merge, merge]
  cases mergeChunk chunk <;> rfl

/-! ### What merging yields -/

/-- No chunk is no two static texts. -/
theorem IsMerged.nil : IsMerged [] :=
  .intro .nil (List.forall_mem_nil _)

/-- Fusing one chunk more leaves no two static texts next to each other. -/
theorem IsMerged.fuseFront (h : IsMerged program)
    (hchunk : ∀ inner, chunk.Nests inner → IsMerged inner) :
    IsMerged (Program.fuseFront chunk program) := by
  obtain ⟨hchain, hnested⟩ := h
  have hcons : (∀ first ∈ program.head?, chunk.Apart first) → IsMerged (chunk :: program) :=
    fun hfirst => .intro (List.isChain_cons.mpr ⟨hfirst, hchain⟩)
      (List.forall_mem_cons.mpr ⟨hchunk, hnested⟩)
  cases chunk with
  | scalar | subsection | switch => exact hcons fun _ _ => .inl rfl
  | static text =>
      obtain _ | ⟨first, rest⟩ := program
      · exact hcons nofun
      · cases first with
        | scalar | subsection | switch =>
            refine hcons fun first hfirst => ?_
            cases hfirst
            exact .inr rfl
        | static later =>
            -- The joined text stands where the first one stood, apart from what is behind it.
            rw [List.isChain_cons] at hchain
            exact .intro (List.isChain_cons.mpr hchain)
              (List.forall_mem_cons.mpr ⟨nofun, (List.forall_mem_cons.mp hnested).2⟩)

mutual

/-- **Merging leaves no two static texts** next to each other, at any level. -/
theorem isMerged_merge : ∀ program : List Chunk, IsMerged (merge program)
  | [] => .nil
  | chunk :: rest => by
      rw [merge]
      exact (isMerged_merge rest).fuseFront (isMerged_of_nests_mergeChunk chunk)

/-- The programs in a chunk are merged. -/
theorem isMerged_of_nests_mergeChunk : ∀ chunk : Chunk,
    ∀ inner, (mergeChunk chunk).Nests inner → IsMerged inner
  | .static _, _, h => nomatch h
  | .scalar _ _, _, h => nomatch h
  | .subsection t program, inner, h => by
      rw [mergeChunk] at h
      cases h
      exact isMerged_merge program
  | .switch cases default, inner, h => by
      rw [mergeChunk] at h
      generalize hdefault : mergeOutput default = otherwise at h
      cases h with
      | case hmem => exact isMerged_of_mem_mergeCases cases _ _ hmem
      | default => exact isMerged_of_mergeOutput default _ hdefault

/-- The programs of cases are merged. -/
theorem isMerged_of_mem_mergeCases : ∀ (cases : List (Condition × Option (List Chunk)))
    (condition : Condition) (inner : Program),
      (condition, some inner) ∈ mergeCases cases → IsMerged inner
  | [], _, _, h => nomatch h
  | (_, output) :: rest, condition, inner, h => by
      rw [mergeCases, List.mem_cons] at h
      obtain hfirst | hrest := h
      · exact isMerged_of_mergeOutput output inner (congrArg Prod.snd hfirst).symm
      · exact isMerged_of_mem_mergeCases rest condition inner hrest

/-- The program of an alternative is merged. -/
theorem isMerged_of_mergeOutput : ∀ (output : Option (List Chunk)) (inner : Program),
    mergeOutput output = some inner → IsMerged inner
  | none, _, h => nomatch h
  | some program, inner, h => by
      rw [mergeOutput] at h
      cases h
      exact isMerged_merge program

end

/-- A chunk whose programs stay as they are stays as it is. -/
theorem mergeChunk_eq_self (h : ∀ inner, chunk.Nests inner → merge inner = inner) :
    mergeChunk chunk = chunk := by
  have houtput : ∀ output : Option Program,
      (∀ inner, output = some inner → merge inner = inner) → mergeOutput output = output := by
    intro output hinner
    cases output with
    | none => rfl
    | some inner => rw [mergeOutput, hinner inner rfl]
  cases chunk with
  | static | scalar => rfl
  | subsection t program => rw [mergeChunk, h program .subsection]
  | switch cases default =>
      have hcase : ∀ c ∈ cases, (c.1, mergeOutput c.2) = c := by
        rintro ⟨condition, output⟩ hmem
        rw [houtput output fun inner hinner => h inner (.case (hinner ▸ hmem))]
      have hdefault : mergeOutput default = default :=
        houtput default fun inner hinner => h inner (hinner ▸ .default)
      rw [mergeChunk, mergeCases_eq_map, List.map_congr_left hcase, List.map_id', hdefault]

/-- Chunks that stay as they are stay a program, if no two static texts are next to each other. -/
theorem merge_of_isChain (hchain : program.IsChain Chunk.Apart)
    (h : ∀ chunk ∈ program, mergeChunk chunk = chunk) : merge program = program := by
  induction program with
  | nil => rfl
  | cons chunk rest ih =>
      obtain ⟨hchunk, hrest⟩ := List.forall_mem_cons.mp h
      obtain ⟨hfirst, hchain⟩ := List.isChain_cons.mp hchain
      rw [merge, hchunk, ih hchain hrest, fuseFront_of_apart hfirst]

/-- **Merging does nothing** where no two static texts are next to each other. -/
theorem merge_eq_self (h : IsMerged program) : merge program = program := by
  induction h with
  | intro hchain _ ih =>
      exact merge_of_isChain hchain fun chunk hmem => mergeChunk_eq_self (ih chunk hmem)

/-! ### Merging and identities -/

/-- Putting a chunk in front of a program commutes with renumbering. -/
theorem renumber_fuseFront (f : SchemaId → SchemaId) (chunk : Chunk) (program : Program) :
    renumber f (fuseFront chunk program) =
      fuseFront (renumberChunk f chunk) (renumber f program) := by
  obtain _ | ⟨first, rest⟩ := program
  · cases chunk <;> rfl
  · cases chunk with
    | scalar | subsection | switch => rfl
    | static text => cases first <;> rfl

/-- Programs that are the same up to identities are so when they are fused. -/
theorem IsRenumbered.fuse {program' rest' : Program} (h : IsRenumbered f program program')
    (hrest : IsRenumbered f rest rest') :
    IsRenumbered f (Program.fuse program rest) (Program.fuse program' rest') := by
  obtain rfl : program' = renumber f program := h
  induction program with
  | nil => exact hrest
  | cons chunk program ih =>
      rw [fuse_cons, renumber, fuse_cons, IsRenumbered, renumber_fuseFront]
      exact congrArg (fuseFront _) ih

end Program

/-! ### Text that is merged at once -/

namespace Assembly

variable {o : LayoutOptions} {a : Assembly}

/-- What is being assembled has no two static texts next to each other, nor will it if the static
text behind its chunks becomes one. -/
structure Alternates (a : Assembly) : Prop where
  chain : a.chunks.IsChain Chunk.Apart
  head : ∀ chunk ∈ a.chunks.head?, chunk.isStatic = false

/-- Static text becomes a chunk that is apart from the one before it. -/
theorem Alternates.flush (h : a.Alternates) : a.flush.chunks.IsChain Chunk.Apart := by
  obtain ⟨chunks, _ | texts⟩ := a
  · exact h.chain
  · exact List.isChain_cons.mpr ⟨fun chunk hchunk => .inr (h.head chunk hchunk), h.chain⟩

/-- Text that is not left in pieces becomes no chunk when it is written. -/
theorem Alternates.write (h : a.Alternates) (hseparate : o.separate = false) (text : String) :
    (a.write o text).Alternates := by
  have hchunks : (a.write o text).chunks = a.chunks := by simp [Assembly.write, hseparate]
  constructor
  · rw [hchunks]
    exact h.chain
  · rw [hchunks]
    exact h.head

/-- A step is apart from the text before it, and from the one behind it. -/
theorem Alternates.step (h : a.Alternates) (o : LayoutOptions) {chunk : Chunk}
    (hchunk : chunk.isStatic = false) : (a.add o (.step chunk)).Alternates where
  chain := List.isChain_cons.mpr ⟨fun _ _ => .inl hchunk, h.flush⟩
  head _ hhead := by
    cases hhead
    exact hchunk

/-- Pieces leave no two static texts next to each other. -/
theorem Alternates.run {f : SchemaId → SchemaId} {P : Program → Program → Prop}
    (hseparate : o.separate = false) {found found' : List Piece}
    (hfound : List.Forall₂ (Piece.Corresponds o f P) found found') :
    ∀ {a : Assembly}, a.Alternates → (found.foldl (Assembly.add o) a).Alternates := by
  induction hfound with
  | nil => exact id
  | @cons piece _ _ _ hpiece _ ih =>
      intro a ha
      refine ih ?_
      cases hpiece with
      | text => exact ha.write hseparate _
      | freshLine =>
          obtain hsame | hwrite := a.add_freshLine o _
          · rw [hsame]
            exact ha
          · rw [hwrite]
            exact ha.write hseparate _
      | step hchunk => exact ha.step o (by cases hchunk <;> rfl)

end Assembly

/-- What is in a list is related to something in the other one. -/
theorem exists_related_of_mem {α β : Type} {R : α → β → Prop} {l : List α} {l' : List β}
    (h : List.Forall₂ R l l') {a : α} (hmem : a ∈ l) : ∃ b, R a b := by
  have hrelated : List.Forall₂ (fun a b => (∃ b, R a b) ∧ R a b) l l' :=
    h.imp fun _ b hab => ⟨⟨b, hab⟩, hab⟩
  exact ((List.forall₂_and_left l l').mp hrelated).1 a hmem

/-- The programs in a step are related to something. -/
theorem Chunk.Corresponds.exists_of_nests {f : SchemaId → SchemaId}
    {P : Program → Program → Prop} {chunk chunk' : Chunk} {inner : Program}
    (h : chunk.Corresponds f P chunk') (hinner : chunk.Nests inner) : ∃ inner', P inner inner' := by
  cases hinner with
  | subsection =>
      cases h with
      | subsection hprogram => exact ⟨_, hprogram⟩
  | default =>
      cases h with
      | switch _ hdefault =>
          cases hdefault with
          | some hprogram => exact ⟨_, hprogram⟩
  | case hmem =>
      cases h with
      | switch hcases =>
          obtain ⟨⟨_, output'⟩, -, houtput⟩ := exists_related_of_mem hcases hmem
          cases houtput with
          | some hprogram => exact ⟨_, hprogram⟩

namespace Program

/-- The chunks that depend on values come from the pieces. -/
theorem exists_of_mem_assemble {o : LayoutOptions} {found : List Piece} {chunk : Chunk}
    (hmem : chunk ∈ assemble o found) (hchunk : chunk.isStatic = false) :
    .step chunk ∈ found := by
  have hstep : chunk ∈ (assemble o found).steps :=
    List.mem_filter.mpr ⟨hmem, by rw [hchunk]; rfl⟩
  rw [steps_assemble, List.mem_flatMap] at hstep
  obtain ⟨piece, hpiece, hchunk'⟩ := hstep
  cases piece with
  | text | freshLine => cases hchunk'
  | step other =>
      rw [Piece.steps, steps] at hchunk'
      obtain rfl : chunk = other := List.mem_singleton.mp (List.mem_filter.mp hchunk').1
      exact hpiece

/-- **Text that is not left in pieces is merged.** -/
theorem assembles_isMerged {o : LayoutOptions} (hseparate : o.separate = false) (separate : Bool)
    (f : SchemaId → SchemaId) : Assembles o separate f fun program _ => program.IsMerged := by
  intro found found' hfound
  have hempty : Assembly.empty.Alternates := ⟨.nil, nofun⟩
  have hchain := (hempty.run hseparate hfound).flush
  refine .intro ?_ fun chunk hmem inner hinner => ?_
  · rw [assemble, List.isChain_reverse]
    exact hchain.imp fun _ _ => Or.symm
  · have hchunk : chunk.isStatic = false := by cases hinner <;> rfl
    obtain ⟨piece', hpiece⟩ := exists_related_of_mem hfound (exists_of_mem_assemble hmem hchunk)
    cases hpiece with
    | step hcorresponds =>
        obtain ⟨_, hmerged⟩ := hcorresponds.exists_of_nests hinner
        exact hmerged

/-! ### Text that is merged later -/

/-- Programs that are the same once their text is merged, up to identities. -/
def SameMerged (f : SchemaId → SchemaId) (program program' : Program) : Prop :=
  IsRenumbered f (merge program) (merge program')

variable {f : SchemaId → SchemaId}

/-- Writing a text appends it to the merged program. -/
theorem merge_write (o : LayoutOptions) (a : Assembly) (text : String) :
    merge (a.write o text).program = fuse (merge a.program) [.static text] := by
  obtain h | ⟨init, last, hbefore, hafter⟩ := a.program_write o text
  · rw [h, merge_append]
    rfl
  · rw [hbefore, hafter, merge_append, merge_append, fuse_assoc]
    rfl

/-- A step appends its chunk to the merged program. -/
theorem merge_step (o : LayoutOptions) (a : Assembly) (chunk : Chunk) :
    merge (a.add o (.step chunk)).program = fuse (merge a.program) [mergeChunk chunk] := by
  rw [a.program_step, merge_append, merge_singleton]

/-- Outputs are the same once their text is merged. -/
theorem SameMerged.output {output output' : Option Program}
    (h : Option.Rel (SameMerged f) output output') :
    Option.Rel (IsRenumbered f) (mergeOutput output) (mergeOutput output') := by
  cases h with
  | none => exact .none
  | some hprogram => exact .some hprogram

/-- Steps are the same once the text in them is merged. -/
theorem SameMerged.chunk {chunk chunk' : Chunk} (h : chunk.Corresponds f (SameMerged f) chunk') :
    (mergeChunk chunk).Corresponds f (IsRenumbered f) (mergeChunk chunk') := by
  cases h with
  | scalar => exact .scalar
  | subsection hprogram => exact .subsection hprogram
  | switch hcases hdefault =>
      refine .switch ?_ (SameMerged.output hdefault)
      rw [mergeCases_eq_map, mergeCases_eq_map, List.forall₂_map_left_iff,
        List.forall₂_map_right_iff]
      exact hcases.imp fun _ _ ⟨hcondition, houtput⟩ => ⟨hcondition, SameMerged.output houtput⟩

/-- Writing a text keeps programs the same once their text is merged. -/
theorem SameMerged.write {a a' : Assembly} (h : SameMerged f a.program a'.program)
    (o o' : LayoutOptions) (text : String) :
    SameMerged f (a.write o text).program (a'.write o' text).program := by
  rw [SameMerged, merge_write, merge_write]
  exact IsRenumbered.fuse h rfl

/-- A step keeps programs the same once their text is merged. -/
theorem SameMerged.step {a a' : Assembly} (h : SameMerged f a.program a'.program)
    {chunk chunk' : Chunk} (hchunk : chunk.Corresponds f (SameMerged f) chunk')
    (o o' : LayoutOptions) :
    SameMerged f (a.add o (.step chunk)).program (a'.add o' (.step chunk')).program := by
  rw [SameMerged, merge_step, merge_step]
  exact IsRenumbered.fuse h (congrArg (fun c : Chunk => [c])
    (IsRenumbered.chunk (SameMerged.chunk hchunk)))

/-- **Text in pieces, once merged, is the text that was merged at once**, in a layout without
fresh lines. -/
theorem assembles_sameMerged {o : LayoutOptions} (hcompact : o.isCompact = true)
    (separate : Bool) (f : SchemaId → SchemaId) : Assembles o separate f (SameMerged f) := by
  intro found found' hfound
  have hrun : ∀ a a' : Assembly, SameMerged f a.program a'.program →
      SameMerged f (found.foldl (Assembly.add o) a).program
        (found'.foldl (Assembly.add (o.setSeparate separate)) a').program := by
    induction hfound with
    | nil => exact fun _ _ h => h
    | cons hpiece _ ih =>
        intro a a' h
        refine ih _ _ ?_
        cases hpiece with
        | text => exact h.write _ _ _
        | freshLine hlayout =>
            rw [hcompact] at hlayout
            cases hlayout
        | step hchunk => exact h.step hchunk _ _
  exact hrun .empty .empty rfl

end Program

/-! ### Templates -/

namespace Node

/-- **Static text is maximally merged.** If it is not to be left in pieces, no two chunks of static
text are next to each other in the program of a template, or in any program that is nested in it.
If it is left in pieces, merging every run of them, at every level, gives the same program in the
compact layout. The two templates are compiled against schemas with identities of their own, and
if one of them fails to compile so does the other, with the same error. -/
theorem compile_merged [UrlReader] (node : Node) {o : LayoutOptions}
    (hseparate : o.separate = false) :
    (∀ scope t next, node.compile o scope = (.ok t, next) → t.program.IsMerged) ∧
    (o.isCompact = true → ∀ f scope scope', Scope.Renumbered f scope scope' →
      (∃ e next next', node.compile o scope = (.error e, next) ∧
        node.compile (o.setSeparate true) scope' = (.error e, next')) ∨
      ∃ t t' next next', node.compile o scope = (.ok t, next) ∧
        node.compile (o.setSeparate true) scope' = (.ok t', next') ∧
        t'.schema = t.schema.renumber f ∧
        Program.merge t'.program = Program.renumber f t.program) := by
  have hmerged : ∀ scope t next, node.compile o scope = (.ok t, next) → t.program.IsMerged := by
    intro scope t next hcompile
    have hassembles := Program.assembles_isMerged hseparate false fun i => i
    obtain ⟨e, _, _, he, -⟩ | ⟨t₁, _, _, _, ht, -, -, hprogram⟩ :=
      compile_parallel hassembles node (.refl scope)
    · rw [hcompile] at he
      cases he
    · rw [hcompile] at ht
      cases ht
      exact hprogram
  refine ⟨hmerged, fun hcompact f scope scope' hscope => ?_⟩
  have hassembles := Program.assembles_sameMerged hcompact true f
  obtain hfails | ⟨t, t', next, next', ht, ht', hschema, hprogram⟩ :=
    compile_parallel hassembles node hscope
  · exact .inl hfails
  · refine .inr ⟨t, t', next, next', ht, ht', hschema, ?_⟩
    rwa [Program.SameMerged, Program.merge_eq_self (hmerged scope t next ht)] at hprogram

/-- The eight chunks of `Node.profile` with its text in pieces are merged to the six that it has
otherwise, against a schema whose identities are greater by six. -/
theorem compile_merged_profile : ∃ t t' next next',
    profile.compile .compact (.newRoot 1) = (.ok t, next) ∧
      profile.compile (LayoutOptions.compact.setSeparate true) (.newRoot 7) = (.ok t', next') ∧
      t.program.IsMerged ∧ t.program.length = 6 ∧ t'.program.length = 8 ∧
      Program.merge t'.program = Program.renumber (fun id => ⟨id.number + 6⟩) t.program := by
  have hpieces : (profile.compile .compact (.newRoot 1)).1.toOption.map (·.program.length) =
      some 6 := by
    decide +kernel
  have hpieces' : (profile.compile (LayoutOptions.compact.setSeparate true)
      (.newRoot 7)).1.toOption.map (·.program.length) = some 8 := by
    decide +kernel
  obtain ⟨hmerged, hsame⟩ := compile_merged profile (o := .compact) rfl
  obtain ⟨e, _, _, he, -⟩ | ⟨t, t', next, next', ht, ht', -, hprogram⟩ :=
    hsame rfl _ _ _ (Scope.renumbered_newRoot 1 6)
  · rw [he] at hpieces
    cases hpieces
  · rw [ht] at hpieces
    rw [ht'] at hpieces'
    exact ⟨t, t', next, next', ht, ht', hmerged _ _ _ ht, Option.some.inj hpieces,
      Option.some.inj hpieces', hprogram⟩

end Node

end TrustedHtml
