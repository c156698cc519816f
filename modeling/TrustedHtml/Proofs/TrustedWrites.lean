import TrustedHtml.Proofs.Sinks
import TrustedHtml.Proofs.TrustSoundness

/-!
# Writes at the Sites of a Tree

Soundness of trust is told by the chunks of a program: what a chunk emits is the value of its
variable. Carrying out the program is what makes writes of it. A chunk that reads a variable writes
what it emits, or the lines that are filled with it, and writes nothing else. As the steps of a
write lead to the chunk that it comes from, every write of a page is told by the tree: it is text
that is the same for all values, or it is written at a site of the tree, and is what checking the
last string for that site gives.

## Main definitions

* `Site.Occurs`: a variable is used at a place, at some level of nesting.
* `Place.WritesSoundly`: what is written at a place.

## Main results

* `Program.renderChunk_scalar`: what a chunk that reads a variable writes.
* `Program.Each.of_leads`: what holds at every chunk holds where steps lead.
* `Node.writes_sound`: **every write of a page is sound.**
-/

namespace TrustedHtml

/-- **A variable is used at a place**, among sites or in what is nested in them. -/
inductive Site.Occurs (place : Place) (v : Var) : List Site → Prop
  | here {sites : List Site} (h : .scalar place v ∈ sites) : Occurs place v sites
  | row {sites inner : List Site} {name : String} (h : .subsection name inner ∈ sites)
      (hinner : Occurs place v inner) : Occurs place v sites
  | alternative {sites inner default : List Site} {cases : List (List Site)}
      (h : .switch cases default ∈ sites) (halternative : inner ∈ cases ∨ inner = default)
      (hinner : Occurs place v inner) : Occurs place v sites

/-- A use at or below one of the sites. -/
theorem Site.Occurs.of_mem {place : Place} {v : Var} {site : Site} {sites : List Site}
    (h : Occurs place v [site]) (hsite : site ∈ sites) : Occurs place v sites := by
  have hsub : ∀ {other}, other ∈ [site] → other ∈ sites := fun h => List.mem_singleton.mp h ▸ hsite
  cases h with
  | here h => exact .here (hsub h)
  | row h hinner => exact .row (hsub h) hinner
  | alternative h halternative hinner => exact .alternative (hsub h) halternative hinner

/-- What a chunk makes of what it emits: the lines that are filled with it, or just the same. -/
def Reflow.optional (reflow : Option Reflow) (text : String) : Except Overflow String :=
  match reflow with
  | none => .ok text
  | some r => r.apply text

/-- Where steps lead there is a chunk without programs. -/
theorem Chunk.Leads.leaf_cases {chunk leaf : Chunk} {vs ws : ValueSet} {steps : List Step}
    (h : chunk.Leads vs steps leaf ws) :
    (∃ text, leaf = .static text) ∨ ∃ w reflow, leaf = .scalar w reflow := by
  induction h with
  | static => exact .inl ⟨_, rfl⟩
  | scalar => exact .inr ⟨_, _, rfl⟩
  | row _ _ _ _ ih => exact ih
  | alternative _ _ _ ih => exact ih

/-- Where steps lead from a program there is a chunk without programs. -/
theorem Program.Leads.leaf_cases {program : Program} {leaf : Chunk} {vs ws : ValueSet}
    {steps : List Step} (h : program.Leads vs steps leaf ws) :
    (∃ text, leaf = .static text) ∨ ∃ w reflow, leaf = .scalar w reflow := by
  obtain ⟨-, h⟩ := h
  exact Chunk.Leads.leaf_cases h

namespace Program

variable {P : Place → Var → Var → ValueSet → List BindArg → Prop} {vs ws : ValueSet}
  {args : List BindArg} {sites : List Site} {program : Program} {chunk : Chunk}

/-- **A chunk that reads a variable** writes its value, laid out as the chunk says, and stops only
if a counter does. -/
theorem renderChunk_scalar {w : Var} {emitted : String} (h : vs.getScalar w = .ok emitted)
    (reflow : Option Reflow) : renderChunk (.scalar w reflow) vs =
      match Reflow.optional reflow emitted with
      | .ok text => .write text
      | .error o => .stop (.overflow o) := by
  rw [renderChunk, h]
  cases reflow with
  | none => rfl
  | some r => rfl

/-! ### Where steps lead -/

/-- A chunk of a program is static or belongs to a site. -/
theorem Each.of_mem (h : Each P sites program vs args) (hchunk : chunk ∈ program) :
    (∃ text, chunk = .static text) ∨ ∃ site ∈ sites, EachChunk P site chunk vs args := by
  induction program generalizing sites with
  | nil => cases hchunk
  | cons first rest ih =>
      cases h with
      | static hrest =>
          rcases List.mem_cons.mp hchunk with rfl | hchunk
          · exact .inl ⟨_, rfl⟩
          · exact ih hrest hchunk
      | step hfirst hrest =>
          rcases List.mem_cons.mp hchunk with rfl | hchunk
          · exact .inr ⟨_, List.mem_cons_self, hfirst⟩
          · refine (ih hrest hchunk).imp_right ?_
            rintro ⟨site, hsite, h⟩
            exact ⟨site, List.mem_cons_of_mem _ hsite, h⟩

/-- What holds of all rows holds of each. -/
theorem EachRow.of_mem {rows : List ValueSet} {given : List (List BindArg)} {row : ValueSet}
    (h : EachRow P sites program rows given) (hrow : row ∈ rows) :
    ∃ args, Each P sites program row args := by
  induction rows generalizing given with
  | nil => cases hrow
  | cons first rest ih =>
      cases h with
      | cons hfirst hrest =>
          rcases List.mem_cons.mp hrow with rfl | hrow
          · exact ⟨_, hfirst⟩
          · exact ih hrest hrow

/-- What holds of all alternatives holds of the one that is chosen. -/
theorem EachCase.of_chosen {alternatives : List (List Site)} {default : Option Program}
    {cases : List (Condition × Option Program)} (h : EachCase P alternatives cases vs args)
    (hdefault : EachOutput P sites default vs args)
    (hchosen : Chunk.chosen? default vs cases = some program) :
    ∃ inner, (inner ∈ alternatives ∨ inner = sites) ∧ Each P inner program vs args := by
  induction cases generalizing alternatives with
  | nil =>
      rw [Chunk.chosen?] at hchosen
      subst hchosen
      cases hdefault with
      | some hprogram => exact ⟨sites, .inr rfl, hprogram⟩
  | cons first rest ih =>
      cases h with
      | cons houtput hrest =>
          rw [Chunk.chosen?] at hchosen
          split at hchosen
          · subst hchosen
            cases houtput with
            | some hprogram => exact ⟨_, .inl List.mem_cons_self, hprogram⟩
          · obtain ⟨inner, hinner, h⟩ := ih hrest hchosen
            exact ⟨inner, hinner.imp_left (List.mem_cons_of_mem _), h⟩

/-- What holds at every chunk below a site holds where steps lead from its chunk. -/
theorem EachChunk.of_leads {site : Site} {steps : List Step} {w : Var} {reflow : Option Reflow}
    (h : EachChunk P site chunk vs args) (hleads : chunk.Leads vs steps (.scalar w reflow) ws) :
    ∃ place v given, Site.Occurs place v [site] ∧ P place v w ws given := by
  generalize hleaf : Chunk.scalar w reflow = leaf at hleads
  induction hleads generalizing site args with
  | static => cases hleaf
  | scalar =>
      cases hleaf
      cases h with
      | scalar h => exact ⟨_, _, _, .here List.mem_cons_self, h⟩
  | row hstream hrow hchunk hrest ih =>
      cases h with
      | subsection hstream' hrows =>
          obtain rfl := Except.ok.inj (hstream.symm.trans hstream')
          obtain ⟨given, hprogram⟩ := hrows.of_mem hrow
          rcases hprogram.of_mem (List.mem_of_getElem? hchunk) with ⟨text, rfl⟩ | ⟨inner, hinner, h⟩
          · subst hleaf
            cases hrest
          · obtain ⟨place, v, given, hoccurs, hP⟩ := ih h hleaf
            exact ⟨place, v, given, .row List.mem_cons_self (hoccurs.of_mem hinner), hP⟩
  | alternative hchosen hchunk hrest ih =>
      cases h with
      | switch hcases hdefault =>
          obtain ⟨inner, hinner, hprogram⟩ := hcases.of_chosen hdefault hchosen
          rcases hprogram.of_mem (List.mem_of_getElem? hchunk) with ⟨text, rfl⟩ | ⟨site, hsite, h⟩
          · subst hleaf
            cases hrest
          · obtain ⟨place, v, given, hoccurs, hP⟩ := ih h hleaf
            have hinside := hoccurs.of_mem hsite
            exact ⟨place, v, given, .alternative List.mem_cons_self hinner hinside, hP⟩

/-- **What holds at every chunk** of a program holds where steps lead. -/
theorem Each.of_leads {steps : List Step} {w : Var} {reflow : Option Reflow}
    (h : Each P sites program vs args) (hleads : program.Leads vs steps (.scalar w reflow) ws) :
    ∃ place v given, Site.Occurs place v sites ∧ P place v w ws given := by
  obtain ⟨hchunk, hleads⟩ := hleads
  rcases h.of_mem (List.mem_of_getElem? hchunk) with ⟨text, rfl⟩ | ⟨site, hsite, h⟩
  · cases hleads
  · obtain ⟨place, v, given, hoccurs, hP⟩ := h.of_leads hleads
    exact ⟨place, v, given, hoccurs.of_mem hsite, hP⟩

end Program

variable [UrlReader]

/-- **What is written at a place** is what is emitted there, laid out as the chunk says. If no
argument addresses the slot, nothing is emitted. Otherwise the last string bound to the slot passes
the check at the level that the place requires, and what is emitted is what the check gives, unless
nothing is required. -/
def Place.WritesSoundly (place : Place) (v w : Var) (reflow : Option Reflow) (vs : ValueSet)
    (args : List BindArg) (text : String) : Prop :=
  w.name = v.name ∧ ∃ emitted, Reflow.optional reflow emitted = .ok text ∧
    match Binding.lastScalar? vs.schema w.index args with
    | none => emitted = ""
    | some (value, _) => ∃ checked, value.check place.required = .ok checked ∧
        (place.required ≠ .untrusted → emitted = checked)

/-- A chunk that is sound at its place writes what is to be written there. -/
theorem Place.Sound.writesSoundly {place : Place} {v w : Var} {vs : ValueSet} {args : List BindArg}
    (h : place.Sound v w vs args) {reflow : Option Reflow} {text : String}
    (hwrite : Program.renderChunk (.scalar w reflow) vs = .write text) :
    place.WritesSoundly v w reflow vs args text := by
  obtain ⟨hname, emitted, hscalar, hemitted⟩ := h
  refine ⟨hname, emitted, ?_, hemitted⟩
  rw [Program.renderChunk_scalar hscalar] at hwrite
  split at hwrite
  · rename_i filled hfilled
    obtain rfl : filled = text := by
      simpa [Rendering.write] using hwrite
    exact hfilled
  · cases hwrite

/-- **Every write of a page is sound.** Its steps lead to a chunk of the program. Either the chunk
is static, or it reads a variable that is used in the tree, and writes what is to be written at
that place. -/
theorem Node.writes_sound {o : LayoutOptions} {node : Node} {scope : Scope} {t : Template}
    {next : ℕ} {args : List BindArg} {vs : ValueSet} (hwf : scope.schema.WellFormed)
    (hcompile : node.compile o scope = (.ok t, next)) (hbind : t.bind args = .ok vs) {write : Write}
    (hwrite : write ∈ (t.program.render vs).writes) :
    ∃ leaf ws, t.program.Leads vs write.steps leaf ws ∧ (leaf = .static write.text ∨
      ∃ place v w reflow given, leaf = .scalar w reflow ∧ Site.Occurs place v node.sites ∧
        place.WritesSoundly v w reflow ws given write.text) := by
  obtain ⟨leaf, ws, hleads, htext⟩ := Program.comesFrom_of_mem_render hwrite
  refine ⟨leaf, ws, hleads, ?_⟩
  rcases hleads.leaf_cases with ⟨text, rfl⟩ | ⟨w, reflow, rfl⟩
  · left
    rw [Program.renderChunk] at htext
    simpa [Rendering.write] using htext
  · right
    obtain ⟨hwf', -, found, hfound, hprogram⟩ := compiles_of_compile hwf hcompile
    have heach : t.program.Each Place.Sound node.sites vs args := by
      rw [hprogram]
      exact .of_pieces (hfound.each hwf' (Schema.bound_of_bind hbind))
    obtain ⟨place, v, given, hoccurs, hsound⟩ := heach.of_leads hleads
    exact ⟨place, v, w, reflow, given, rfl, hoccurs, hsound.writesSoundly htext⟩

end TrustedHtml
